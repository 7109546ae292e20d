import Fluxbee.Shm.RouterRegion

/-! The connections of a router's nodes: each claims its UUID in the node map, registers in the
region and gives both up when it ends. A step is one critical section. -/
namespace Fluxbee.RouterShm
open AList Function

structure Connection where
  uuid : Uuid
  name : String
  (vpnId connectedAt : ℕ)

/-- How far a connection that holds its UUID has come. The entry of a `failed` one, whose
registration was refused, is not yet taken back. -/
inductive Phase
  | claimed | failed | live
  deriving DecidableEq

/-- `sender` is the connection that the handle sends to. -/
structure NodeHandle where
  name : String
  (vpnId connectedAt sender : ℕ)

@[grind]
def Connection.handle (c : Connection) (id : ℕ) : NodeHandle := ⟨c.name, c.vpnId, c.connectedAt, id⟩

structure Connections where
  tasks : ℕ → Option (Connection × Phase)
  nodes : AList fun _ : Uuid => NodeHandle
  shm : RouterRegion

inductive ConnectionEvent
  | claim (id : ℕ) (c : Connection)
  | register (id now : ℕ)
  | takeBack (id : ℕ)
  | cleanup (id now : ℕ)

namespace Connections

def sameStamp (s : Connections) (c : Connection) : Bool :=
  (s.nodes.lookup c.uuid).any (·.connectedAt = c.connectedAt)

/-- A claim that finds the UUID held changes nothing, whether it tries again or is refused. -/
def step (s : Connections) : ConnectionEvent → Connections
  | .claim id c =>
    if s.tasks id = none ∧ s.nodes.lookup c.uuid = none then
      ⟨update s.tasks id (some (c, .claimed)), s.nodes.insert c.uuid (c.handle id), s.shm⟩
    else s
  | .register id now =>
    match s.tasks id with
    | some (c, .claimed) =>
      let out := s.shm.registerNode c.uuid c.name c.vpnId c.connectedAt now
      ⟨update s.tasks id (some (c, if out.2.isOk then .live else .failed)), s.nodes, out.1⟩
    | _ => s
  | .takeBack id =>
    match s.tasks id with
    | some (c, .failed) =>
      let nodes := if s.sameStamp c then s.nodes.erase c.uuid else s.nodes
      ⟨update s.tasks id none, nodes, s.shm⟩
    | _ => s
  | .cleanup id now =>
    match s.tasks id with
    | some (c, .live) =>
      let tasks := update s.tasks id none
      if s.sameStamp c then ⟨tasks, s.nodes.erase c.uuid, s.shm.unregisterNode c.uuid now⟩
      else { s with tasks }
    | _ => s

def Holds (s : Connections) (id : ℕ) (u : Uuid) : Prop := ∃ c p, s.tasks id = some (c, p) ∧ c.uuid = u

def Live (tasks : ℕ → Option (Connection × Phase)) (u : Uuid) : Prop :=
  ∃ id c, tasks id = some (c, .live) ∧ c.uuid = u

structure Inv (s : Connections) (m : Registry) : Prop where
  held : ∀ id c p, s.tasks id = some (c, p) → s.nodes.lookup c.uuid = some (c.handle id)
  owned : ∀ u h, s.nodes.lookup u = some h → s.Holds h.sender u
  shown : Shows s.shm m
  live : ∀ u, u ∈ m ↔ Live s.tasks u

variable {s : Connections} {m : Registry} {id now : ℕ} {c : Connection} {p : Phase}

theorem Inv.sameStamp (h : Inv s m) (hc : s.tasks id = some (c, p)) : s.sameStamp c = true := by
  rw [Connections.sameStamp, h.held id c p hc]
  exact decide_eq_true rfl

theorem live_update {tasks : ℕ → Option (Connection × Phase)}
    (h : ∀ c, tasks id ≠ some (c, .live)) (u : Uuid) :
    Live (update tasks id (some (c, p))) u ↔ Live tasks u ∨ p = .live ∧ c.uuid = u := by
  constructor
  · rintro ⟨i, c', hi, hu⟩
    rw [update_apply] at hi
    split_ifs at hi
    · cases hi
      exact .inr ⟨rfl, hu⟩
    · exact .inl ⟨i, c', hi, hu⟩
  · rintro (⟨i, c', hi, hu⟩ | ⟨rfl, hu⟩)
    · exact ⟨i, c', by grind [update_apply], hu⟩
    · exact ⟨id, c, update_self .., hu⟩

theorem Inv.claim (h : Inv s m) (hid : s.tasks id = none) (hfree : s.nodes.lookup c.uuid = none) :
    Inv ⟨update s.tasks id (some (c, .claimed)), s.nodes.insert c.uuid (c.handle id), s.shm⟩ m := by
  obtain ⟨held, owned, shown, live⟩ := h
  refine ⟨?_, ?_, shown, fun u => ?_⟩
  · grind [lookup_insert_eq, update_apply]
  · grind [Holds, lookup_insert_eq, update_apply]
  · simp [live, live_update, hid]

theorem Inv.register (h : Inv s m) (hc : s.tasks id = some (c, .claimed)) (now : ℕ) :
    let out := s.shm.registerNode c.uuid c.name c.vpnId c.connectedAt now
    let p := if out.2.isOk then .live else .failed
    ∃ m', Inv ⟨update s.tasks id (some (c, p)), s.nodes, out.1⟩ m' := by
  obtain ⟨held, owned, shown, live⟩ := h
  obtain ⟨hshown, hout⟩ := shown.registerNode c.uuid c.name c.vpnId c.connectedAt now
  refine ⟨_, ?_, ?_, hshown, fun u => ?_⟩
  · grind [update_apply]
  · grind [Holds, update_apply]
  · rw [hout, live_update (by simp [hc]), ← live, Registry.register]
    split_ifs <;> simp_all [Except.isOk, Except.toBool, eq_comm, or_comm]

/-- A connection ends: its entry goes, and its registration if it had one. -/
theorem Inv.leave {shm : RouterRegion} {m' : Registry} (h : Inv s m) (hc : s.tasks id = some (c, p))
    (hshown : Shows shm m') (hm : ∀ u, u ∈ m' ↔ u ∈ m ∧ (p = .live → u ≠ c.uuid)) :
    Inv ⟨update s.tasks id none, s.nodes.erase c.uuid, shm⟩ m' := by
  obtain ⟨held, owned, -, live⟩ := h
  refine ⟨?_, ?_, hshown, fun u => ?_⟩
  · grind [lookup_erase_eq, update_apply]
  · grind [Holds, lookup_erase_eq, update_apply]
  · rw [hm, live]
    constructor
    · rintro ⟨⟨i, c', hi, hu⟩, hne⟩
      exact ⟨i, c', by grind [update_apply], hu⟩
    · rintro ⟨i, c', hi, hu⟩
      have hold : s.tasks i = some (c', .live) ∧ i ≠ id := by grind [update_apply]
      exact ⟨⟨i, c', hold.1, hu⟩, by grind⟩

theorem Inv.step (h : ∃ m, Inv s m) (e : ConnectionEvent) : ∃ m, Inv (s.step e) m := by
  obtain ⟨m, h⟩ := h
  cases e <;> simp only [Connections.step]
  case claim id c =>
    split_ifs with hnew
    · exact ⟨m, h.claim hnew.1 hnew.2⟩
    · exact ⟨m, h⟩
  case register id now =>
    split
    next c hc => exact h.register hc now
    next => exact ⟨m, h⟩
  case takeBack id =>
    split
    next c hc =>
      rw [h.sameStamp hc]
      exact ⟨m, h.leave hc h.shown (by simp)⟩
    next => exact ⟨m, h⟩
  case cleanup id now =>
    split
    next c hc =>
      rw [if_pos (h.sameStamp hc)]
      exact ⟨_, h.leave hc (h.shown.unregisterNode c.uuid now) (by simp [and_comm])⟩
    next => exact ⟨m, h⟩

theorem inv_run (previous : Option RouterRegion) (o : Owner) (now : ℕ)
    (events : List ConnectionEvent) :
    ∃ m, (events.foldl step ⟨fun _ => none, ∅, .openOrCreate previous o now⟩).Inv m := by
  refine List.foldlRecOn (motive := fun s => ∃ m, Inv s m) events _ ?_ fun s h e _ => Inv.step h e
  exact ⟨∅, nofun, nofun, shows_openOrCreate previous o now, fun u => ⟨nofun, nofun⟩⟩

end Connections

/-- Whatever the order of the connections' steps, a UUID is held by one connection at most, no
connection gives up another's entry, and where each one that holds a UUID is registered, the node
map and the region have the same UUIDs. -/
theorem one_connection_per_node (previous : Option RouterRegion) (o : Owner) (now : ℕ)
    (events : List ConnectionEvent) :
    let s := events.foldl Connections.step ⟨fun _ => none, ∅, .openOrCreate previous o now⟩
    (∀ i j u, s.Holds i u → s.Holds j u → i = j) ∧
      (∀ id now, ∀ e ∈ [.takeBack id, .cleanup id now], ∀ u h, s.nodes.lookup u = some h →
        h.sender ≠ id → (s.step e).nodes.lookup u = some h) ∧
      ((∀ id c p, s.tasks id = some (c, p) → p = .live) →
        ∀ u, u ∈ s.nodes ↔ (s.shm.ownSlot u).isSome) := by
  intro s
  obtain ⟨m, h⟩ : ∃ m, s.Inv m := Connections.inv_run previous o now events
  refine ⟨?_, ?_, ?_⟩
  · rintro i j u ⟨c, p, hc, rfl⟩ ⟨c', p', hc', hu⟩
    have hi := h.held i c p hc
    have hj := h.held j c' p' hc'
    grind
  · intro id now e he u hd hu hne
    have hkeep : ∀ c p, s.tasks id = some (c, p) → (s.nodes.erase c.uuid).lookup u = some hd := by
      intro c p hc
      have := h.held id c p hc
      grind [lookup_erase_eq]
    rcases List.mem_pair.mp he with rfl | rfl <;> grind [Connections.step]
  · intro hquiet u
    rw [h.shown.ownSlot_isSome, h.live]
    constructor
    · intro hu
      obtain ⟨hd, hu⟩ := Option.isSome_iff_exists.mp (lookup_isSome.mpr hu)
      obtain ⟨c, p, hc, rfl⟩ := h.owned u hd hu
      exact ⟨_, c, hquiet _ c p hc ▸ hc, rfl⟩
    · rintro ⟨id, c, hc, rfl⟩
      exact lookup_isSome.mp (h.held id c _ hc ▸ rfl)

/-- Whatever is in progress, a node registered in the region is in the node map, under the handle of
a live connection. -/
theorem registered_nodes_held (previous : Option RouterRegion) (o : Owner) (now : ℕ)
    (events : List ConnectionEvent) :
    let s := events.foldl Connections.step ⟨fun _ => none, ∅, .openOrCreate previous o now⟩
    ∀ u, (s.shm.ownSlot u).isSome → ∃ id c, s.tasks id = some (c, .live) ∧ c.uuid = u ∧
      s.nodes.lookup u = some (c.handle id) := by
  intro s u hu
  obtain ⟨m, h⟩ : ∃ m, s.Inv m := Connections.inv_run previous o now events
  obtain ⟨id, c, hc, rfl⟩ := (h.live u).mp (h.shown.ownSlot_isSome.mp hu)
  exact ⟨id, c, hc, rfl, h.held id c _ hc⟩

end Fluxbee.RouterShm
