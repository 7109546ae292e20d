import Fluxbee.Shm.SnapshotReaders

/-! Which snapshots are the content between two complete writes. The router reader loads
everything inside its window; the config, LSA and identity readers load their header
after it, so a write that starts right after the check can be mixed in. -/
namespace Fluxbee.Shm
open Seqlock List

section
variable {Cell : Type} {Val : Cell → Type}

/-- Every slot of a section emptied, then the first ones set, byte by byte. -/
def sectionStores (max size : ℕ) (store : Fin max → Fin size → UInt8 → Store Val)
    (entries : List EntryBytes) : List (Store Val) :=
  (List.finRange max).flatMap (fun i => (List.finRange size).map fun b => store i b 0) ++
    entries.zipIdx.flatMap fun (entry, idx) =>
      if h : idx < max then (List.finRange size).map fun b => store ⟨idx, h⟩ b (entry.getD b 0)
      else []

end

/-- The stores the three config writers have in common: the section, its count, the version
when it is bumped, and the clock. -/
def writeConfigSection (sectionPart : List (Store ConfigCell.Val)) (count : Store ConfigCell.Val)
    (version : UInt64) (bumpVersion : Bool) (now : UInt64) : List (Store ConfigCell.Val) :=
  let bumped : UInt64 := if version = UInt64.ofNat (2 ^ 64 - 1) then version else version + 1
  sectionPart ++ count :: (if bumpVersion then [⟨.configVersion, bumped⟩] else []) ++
    [⟨.updatedAt, now⟩, ⟨.heartbeat, now⟩]

def writeStaticRoutes (routes : List EntryBytes) (version : UInt64) (bumpVersion : Bool)
    (now : UInt64) : Except ShmError (List (Store ConfigCell.Val)) :=
  if routes.length > maxConfigEntries then .error (.valueTooLong routes.length maxConfigEntries)
  else .ok (writeConfigSection
    (sectionStores maxConfigEntries staticRouteEntrySize (fun i b v => ⟨.route i b, v⟩) routes)
    ⟨.staticRouteCount, UInt32.ofNat routes.length⟩ version bumpVersion now)

def writeTaps (taps : List EntryBytes) (version : UInt64) (bumpVersion : Bool) (now : UInt64) :
    Except ShmError (List (Store ConfigCell.Val)) :=
  if taps.length > maxConfigEntries then .error (.valueTooLong taps.length maxConfigEntries)
  else .ok (writeConfigSection
    (sectionStores maxConfigEntries tapEntrySize (fun i b v => ⟨.tap i b, v⟩) taps)
    ⟨.tapCount, UInt32.ofNat taps.length⟩ version bumpVersion now)

def writeVpnAssignments (vpns : List EntryBytes) (version : UInt64) (bumpVersion : Bool)
    (now : UInt64) : Except ShmError (List (Store ConfigCell.Val)) :=
  if vpns.length > maxConfigEntries then .error (.valueTooLong vpns.length maxConfigEntries)
  else .ok (writeConfigSection
    (sectionStores maxConfigEntries vpnAssignmentSize (fun i b v => ⟨.vpn i b, v⟩) vpns)
    ⟨.vpnAssignmentCount, UInt32.ofNat vpns.length⟩ version bumpVersion now)

/-- The router reader is atomic as it stands, but for a counter that turns over whole; the
other three are in every run where no store hits a header field they have yet to load. -/
theorem snapshots_atomic (S : Sections) :
    Atomic readRouterSnapshot TurnOk ∧ Atomic readConfigSnapshot StepOk ∧
      Atomic readLsaSnapshot StepOk ∧ Atomic (readIdentitySnapshot S) StepOk :=
  ⟨readRouterSnapshot.atomic_of_tail_ret id fun _ => rfl, readConfigSnapshot.atomic,
    readLsaSnapshot.atomic, (readIdentitySnapshot S).atomic⟩

def emptyConfig : (c : ConfigCell) → c.Val
  | .staticRouteCount | .vpnAssignmentCount | .tapCount => (0 : UInt32)
  | .configVersion | .heartbeat | .updatedAt => (0 : UInt64)
  | .route _ _ | .vpn _ _ | .tap _ _ => (0 : UInt8)

theorem configBody_empty : configBody.eval emptyConfig = some ⟨[], [], []⟩ := rfl

/-- A route whose write begins after the check and whose stores come after the reader's last
load. -/
theorem snapshots_atomic_begun :
    ∃ stores, ∃ t : Seqlock.System ConfigCell.Val ConfigEntries ConfigSnapshot, ∃ snap,
      writeStaticRoutes [[]] 0 true 1 = .ok stores ∧ t.mem.turns = 1 ∧
      t.reader = .done (some snap) ∧ ∃ j ≤ 1,
        readConfigSnapshot.snapshot (content emptyConfig [stores] j) = some snap := by
  obtain ⟨stores, hstores⟩ : ∃ stores, writeStaticRoutes [[]] 0 true 1 = .ok stores := ⟨_, rfl⟩
  obtain ⟨t, hrun, hdone, hturns⟩ := Run.begun readConfigSnapshot emptyConfig stores configBody_empty
  exact ⟨stores, t, _, hstores, hturns, hdone,
    (snapshots_atomic ⟨0, 0, 0, 0, 0, 0, Nat.zero_le _⟩).2.1 0 emptyConfig [stores] 1 t _ rfl hrun hdone⟩

theorem snapshot_config {cells : (c : ConfigCell) → c.Val} {snap : ConfigSnapshot}
    (h : readConfigSnapshot.snapshot cells = some snap) :
    snap.header.staticRouteCount = cells .staticRouteCount ∧
      snap.routes.length = min snap.header.staticRouteCount.toNat maxConfigEntries := by
  obtain ⟨entries, hbody, rfl⟩ := Option.map_eq_some_iff.mp h
  refine ⟨rfl, ?_⟩
  simp only [readConfigSnapshot, configBody, Loads.eval_bind, Loads.eval_pure, eval_loadEntries,
    Option.some.injEq] at hbody
  subst hbody
  change (List.map _ _).length = _
  rw [length_map, length_take, length_finRange]
  rfl

theorem content_staticRouteCount (cells : (c : ConfigCell) → c.Val) {routes : List EntryBytes}
    {version now : UInt64} {bumpVersion : Bool} {stores : List (Store ConfigCell.Val)}
    (h : writeStaticRoutes routes version bumpVersion now = .ok stores) :
    content cells [stores] 1 .staticRouteCount = UInt32.ofNat routes.length := by
  unfold writeStaticRoutes at h
  split_ifs at h
  cases h
  cases bumpVersion <;>
    simp [content, writeConfigSection, Store.apply, Function.update, foldl_append]

/-- A route written right after the check: the snapshot says one route and holds none. -/
theorem not_atomic_readConfigSnapshot : ¬ Atomic readConfigSnapshot fun _ _ => True := by
  intro h
  obtain ⟨stores, hstores⟩ : ∃ stores, writeStaticRoutes [[]] 0 true 1 = .ok stores := ⟨_, rfl⟩
  have hcount := content_staticRouteCount emptyConfig hstores
  obtain ⟨t, hrun, hdone⟩ := Run.mixed readConfigSnapshot emptyConfig stores configBody_empty
  obtain ⟨j, _, hsnap⟩ := h 0 emptyConfig [stores] 1 t _ rfl hrun hdone
  have hlen := (snapshot_config hsnap).2
  change 0 = min (UInt32.toNat (content emptyConfig [stores] 1 .staticRouteCount)) _ at hlen
  rw [hcount] at hlen
  exact absurd hlen (by decide)

end Fluxbee.Shm
