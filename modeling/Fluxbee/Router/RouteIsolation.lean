import Fluxbee.Lib.FirstMatch
import Fluxbee.Router.Fib

/-! What one hive advertises changes no route but those to its own nodes. -/
namespace Fluxbee.Router
open Text Shm Lsa List Option UInt16

theorem find_zipIdx {α β : Type} (f : α → Option β) (l : List α) {k : ℕ}
    (h : k + l.length ≤ size) (i : UInt16) :
    (((l.zipIdx k).filterMap fun (a, idx) => (f a).map (·, ofNat idx)).find?
      (·.2 == i)).map Prod.fst = if k ≤ i.toNat then (l[i.toNat - k]?).bind f else none := by
  induction l generalizing k with
  | nil => simp
  | cons a rest ih =>
    rw [length_cons] at h
    have hk : (ofNat k).toNat = k := toNat_ofNat_of_lt' (by omega)
    have hrest := ih (k := k + 1) (by omega)
    rw [zipIdx_cons, filterMap_cons]
    by_cases hki : i.toNat = k
    · have hi : ofNat k = i := UInt16.toNat_inj.mp (by rw [hk, hki])
      rw [if_neg (by omega)] at hrest
      rw [if_pos (by omega), hki, Nat.sub_self, getElem?_cons_zero, bind_some]
      cases hf : f a with
      | none =>
        simp only [hf, map_none]
        exact hrest
      | some b =>
        simp only [hf, map_some, hi]
        rw [find?_cons_of_pos (by simp), map_some]
    · have hi : ofNat k ≠ i := fun heq => hki (by rw [← heq, hk])
      have hskip : (if k ≤ i.toNat then ((a :: rest)[i.toNat - k]?).bind f else none) =
          if k + 1 ≤ i.toNat then (rest[i.toNat - (k + 1)]?).bind f else none := by
        split_ifs with h1 h2 h2
        · have hsub : i.toNat - k = i.toNat - (k + 1) + 1 := by omega
          rw [hsub, getElem?_cons_succ]
        · omega
        · omega
        · rfl
      rw [hskip, ← hrest]
      cases hf : f a with
      | none => simp only [hf, map_none]
      | some b =>
        simp only [hf, map_some]
        rw [find?_cons_of_neg (by simpa using hi)]

theorem hiveAt_eq (lsa : LsaSnapshot) (i : UInt16) :
    hiveAt lsa.hives i = (lsa.hives[i.toNat]?).bind liveHive := by
  have hle : 0 + lsa.hives.length ≤ size := by
    have := lsa.hives_le
    simp only [maxRemoteHives] at this
    simp only [size]
    omega
  exact (find_zipIdx liveHive lsa.hives hle i).trans (if_pos (Nat.zero_le _))

theorem liveHive_id {hive : RemoteHiveEntry} {name : String} {updatedAt : ℕ}
    (h : liveHive hive = some (name, updatedAt)) : hive.id = name := by
  unfold liveHive at h
  split_ifs at h
  exact congrArg Prod.fst (Option.some.inj h)

/-- Two snapshots that agree but for what the hive at `p` advertises. -/
structure DifferOnlyIn (p : UInt16) (lsa lsa' : LsaSnapshot) : Prop where
  hives : ∀ i, i ≠ p.toNat → lsa.hives[i]? = lsa'.hives[i]?
  nodes : (lsa.nodes.filter (·.hiveIndex ≠ p)) = lsa'.nodes.filter (·.hiveIndex ≠ p)
  routes : (lsa.routes.filter (·.hiveIndex ≠ p)) = lsa'.routes.filter (·.hiveIndex ≠ p)

def NodesNamed (lsa : LsaSnapshot) : Prop :=
  ∀ node ∈ lsa.nodes, (lsa.hives[node.hiveIndex.toNat]?).any (nodeIsOnHive node.text ·.id) = true

instance (lsa : LsaSnapshot) : Decidable (NodesNamed lsa) :=
  inferInstanceAs (Decidable (∀ node ∈ lsa.nodes, _))

section

variable {src : NodeHandle} {nodes : Nodes} {info : Meta} {target hiveId : String} {p : UInt16}
  {lsa lsa' : LsaSnapshot}

/-- The entries that answer for a target, of those that a list of advertisements gives, depend only
on the advertisements that do. -/
theorem filterMap_filter_isSome {α β γ : Type} (g : α → Option β) (f : β → Option γ)
    (keep : α → Bool) {l : List α} (h : ∀ a ∈ l, keep a = false → ∀ b ∈ g a, f b = none) :
    ((l.filterMap g).filter fun b => (f b).isSome) =
      (l.filter keep).filterMap fun a => (g a).filter fun b => (f b).isSome := by
  rw [filter_filterMap, filterMap_filter]
  refine filterMap_congr fun a ha => ?_
  cases hkeep : keep a with
  | true => simp
  | false =>
    cases hg : g a with
    | none => simp
    | some b => simp [h a ha hkeep b hg]

theorem lsaNodeEntry_silent (hnamed : NodesNamed lsa)
    (hname : ∀ hive ∈ lsa.hives[p.toNat]?, hive.id = hiveId)
    (htarget : nodeIsOnHive target hiveId = false) {node : RemoteNodeEntry} (hnode : node ∈ lsa.nodes)
    (hp : node.hiveIndex = p) {entry : FibEntry} (h : lsaNodeEntry lsa.hives node = some entry) :
    exactAnswer src nodes info target entry = none := by
  have hon := hnamed node hnode
  rw [hp, any_eq_true_iff_get] at hon
  obtain ⟨hsome, hon⟩ := hon
  rw [hname _ (Option.get_mem hsome)] at hon
  unfold lsaNodeEntry at h
  split_ifs at h
  obtain ⟨⟨name, updatedAt⟩, -, rfl⟩ := map_eq_some_iff.mp h
  have hne : node.text ≠ target := by
    intro heq
    rw [heq, htarget] at hon
    cases hon
  simp [exactAnswer, patternMatchKind, hne]

theorem lsaRouteEntry_silent (hname : ∀ hive ∈ lsa.hives[p.toNat]?, hive.id = hiveId)
    (htarget : nodeIsOnHive target hiveId = false) (hany : stripBack "@*" target = none)
    {route : RemoteRouteEntry} (hp : route.hiveIndex = p) {entry : FibEntry}
    (h : lsaRouteEntry lsa.hives route = some entry) :
    exactAnswer src nodes info target entry = none := by
  unfold lsaRouteEntry at h
  split_ifs at h
  obtain ⟨⟨name, updatedAt⟩, hlive, rfl⟩ := map_eq_some_iff.mp h
  rw [hp, hiveAt_eq] at hlive
  obtain ⟨hive, hhive, hlive⟩ := bind_eq_some_iff.mp hlive
  have hsame : name = hiveId := (liveHive_id hlive).symm.trans (hname hive hhive)
  have happlies : lsaRouteApplies name target = false := by
    rw [hsame, lsaRouteApplies, hany, htarget]
    rfl
  simp [exactAnswer, entryRoute, happlies]

theorem hiveAt_congr (h : DifferOnlyIn p lsa lsa') {i : UInt16} (hi : i ≠ p) :
    hiveAt lsa.hives i = hiveAt lsa'.hives i := by
  rw [hiveAt_eq, hiveAt_eq, h.hives i.toNat fun heq => hi (UInt16.toNat_inj.mp heq)]

variable (src nodes info) in
theorem lsaEntries_answers (h : DifferOnlyIn p lsa lsa') (hnamed : NodesNamed lsa)
    (hnamed' : NodesNamed lsa') (hname : ∀ hive ∈ lsa.hives[p.toNat]?, hive.id = hiveId)
    (hname' : ∀ hive ∈ lsa'.hives[p.toNat]?, hive.id = hiveId)
    (htarget : nodeIsOnHive target hiveId = false) (hany : stripBack "@*" target = none) :
    ((lsaEntries lsa).filter fun e => (exactAnswer src nodes info target e).isSome) =
      (lsaEntries lsa').filter fun e => (exactAnswer src nodes info target e).isSome := by
  have hnodes : ∀ node : RemoteNodeEntry, node.hiveIndex ≠ p →
      lsaNodeEntry lsa.hives node = lsaNodeEntry lsa'.hives node := by
    intro node hp
    unfold lsaNodeEntry
    rw [hiveAt_congr h hp]
  have hroutes : ∀ route : RemoteRouteEntry, route.hiveIndex ≠ p →
      lsaRouteEntry lsa.hives route = lsaRouteEntry lsa'.hives route := by
    intro route hp
    unfold lsaRouteEntry
    rw [hiveAt_congr h hp]
  have hother : ∀ {i : UInt16}, decide (i ≠ p) = false → i = p := fun hi => by simpa using hi
  rw [lsaEntries, lsaEntries, filter_append, filter_append]
  congr 1
  · rw [filterMap_filter_isSome _ _ (·.hiveIndex ≠ p) fun node hnode hp entry hentry =>
        lsaNodeEntry_silent hnamed hname htarget hnode (hother hp) hentry,
      filterMap_filter_isSome _ _ (·.hiveIndex ≠ p) fun node hnode hp entry hentry =>
        lsaNodeEntry_silent hnamed' hname' htarget hnode (hother hp) hentry, h.nodes]
    refine filterMap_congr fun node hnode => ?_
    rw [hnodes node (by simpa using (mem_filter.mp hnode).2)]
  · rw [filterMap_filter_isSome _ _ (·.hiveIndex ≠ p) fun route _ hp entry hentry =>
        lsaRouteEntry_silent hname htarget hany (hother hp) hentry,
      filterMap_filter_isSome _ _ (·.hiveIndex ≠ p) fun route _ hp entry hentry =>
        lsaRouteEntry_silent hname' htarget hany (hother hp) hentry, h.routes]
    refine filterMap_congr fun route hroute => ?_
    rw [hroutes route (by simpa using (mem_filter.mp hroute).2)]

/-- Whatever the hive at `p` advertises, a target that is neither on it nor `name@*` resolves the
same. -/
theorem resolveByName_isolated (peerNodes : PeerNodes) (routes : List StaticRoute)
    (reach : Reachability) (h : DifferOnlyIn p lsa lsa') (hnamed : NodesNamed lsa)
    (hnamed' : NodesNamed lsa') (hname : ∀ hive ∈ lsa.hives[p.toNat]?, hive.id = hiveId)
    (hname' : ∀ hive ∈ lsa'.hives[p.toNat]?, hive.id = hiveId)
    (htarget : nodeIsOnHive target hiveId = false) (hany : stripBack "@*" target = none) :
    resolveByName src nodes (rebuildFib nodes peerNodes routes (some lsa) reach) info target =
      resolveByName src nodes (rebuildFib nodes peerNodes routes (some lsa') reach) info target := by
  have hanswers := lsaEntries_answers src nodes info h hnamed hnamed' hname hname' htarget hany
  rw [resolveByName_of_named _ _ _ _ hany, resolveByName_of_named _ _ _ _ hany]
  unfold resolveByNameInner rebuildFib
  congr 1
  apply FirstMatch.findSome?_insertionSort_congr
  simp only [fibEntries, map_some, getD_some, filter_append, hanswers]

end

namespace Detour

def hive (name : String) : RemoteHiveEntry :=
  { emptyRemoteHive with hiveId := asBytes name, hiveIdLen := (asBytes name).length }

def node (name : String) (hiveIndex : UInt16) : RemoteNodeEntry :=
  { emptyRemoteNode with name := asBytes name, nameLen := (asBytes name).length, hiveIndex }

/-- A route of the first hive that drops what goes to a node of the second. -/
def route : RemoteRouteEntry :=
  { emptyRemoteRoute with front := asBytes "AI.a@edge", frontLen := 9, action := actionDrop }

def hives : List RemoteHiveEntry := [hive "worker", hive "edge"]

def quiet : LsaSnapshot := ⟨hives, [node "AI.a@edge" 1], [], [], [], by decide⟩

def loud : LsaSnapshot :=
  ⟨hives, [node "AI.b@worker" 0, node "AI.a@edge" 1], [route], [], [], by decide⟩

def sender : NodeHandle := ⟨"AI.c@motherbee", 0, 0⟩

def info : Meta := ⟨"text", none, none, none, none, none, false⟩

end Detour

/-- A route of `worker` does not drop what goes to a node of `edge`. -/
theorem resolveByName_past_foreign_route :
    resolveByName Detour.sender ∅ (rebuildFib ∅ ∅ [] (some Detour.loud) ∅) Detour.info
      "AI.a@edge" = .forwardHive "edge" := by
  have hdiff : DifferOnlyIn 0 Detour.loud Detour.quiet :=
    ⟨fun _ _ => rfl, by decide +kernel, by decide +kernel⟩
  have hname : ∀ hive ∈ Detour.hives[(0 : UInt16).toNat]?, hive.id = "worker" := by
    decide +kernel
  rw [resolveByName_isolated ∅ [] ∅ hdiff (by decide +kernel) (by decide +kernel) hname hname
    (by decide +kernel) (by decide +kernel)]
  decide +kernel

end Fluxbee.Router
