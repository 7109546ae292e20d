import Fluxbee.Router.Sessions

/-! What a gateway publishes of each hive, and what of it depends on the other hives. -/
namespace Fluxbee.Router
open Text Shm Lsa GuardedRun List Option AList UInt16

variable {hive : String × RemoteHiveState} {j : UInt16}

/-! ### The entries of one hive in a section -/

section

variable {α β : Type} {rows : RemoteHiveState → List α} {entry : UInt16 → α → Option β}
  {hives : List (String × RemoteHiveState)}

theorem mem_sectionEntries {b : β} :
    b ∈ sectionEntries hives rows entry ↔ ∃ i hive, hives[i]? = some hive ∧
      ∃ a ∈ rows hive.2, entry (ofNat i) a = some b := by
  constructor
  · intro h
    obtain ⟨⟨hive, i⟩, hmem, hb⟩ := mem_flatMap.mp h
    obtain ⟨a, ha, hentry⟩ := mem_filterMap.mp hb
    exact ⟨i, hive, mem_zipIdx_iff_getElem?.mp hmem, a, ha, hentry⟩
  · rintro ⟨i, hive, hi, a, ha, hentry⟩
    exact mem_flatMap.mpr ⟨(hive, i), mem_zipIdx_iff_getElem?.mpr hi,
      mem_filterMap.mpr ⟨a, ha, hentry⟩⟩

theorem length_rows_le (rows : RemoteHiveState → List α) (entry : UInt16 → α → Option β) {i : ℕ}
    (hi : hives[i]? = some hive) :
    ((rows hive.2).filterMap (entry (ofNat i))).length ≤
      (sectionEntries hives rows entry).length := by
  have hmem : (hive, i) ∈ hives.zipIdx := mem_zipIdx_iff_getElem?.mpr hi
  rw [sectionEntries, flatMap_def]
  refine List.Sublist.length_le (sublist_flatten_of_mem ?_)
  exact List.mem_map.mpr ⟨(hive, i), hmem, rfl⟩

theorem sectionEntries_at (index : β → UInt16)
    (hindex : ∀ j a b, entry j a = some b → index b = j) (hlen : hives.length ≤ size)
    {i : ℕ} (hi : hives[i]? = some hive) :
    (sectionEntries hives rows entry).filter (index · == ofNat i) =
      (rows hive.2).filterMap (entry (ofNat i)) := by
  obtain ⟨hlt, hget⟩ := List.getElem?_eq_some_iff.mp hi
  have hsplit : hives = hives.take i ++ hive :: hives.drop (i + 1) := by
    rw [← hget, cons_getElem_drop_succ, take_append_drop]
  have hzip : hives.zipIdx =
      (hives.take i).zipIdx ++ (hive, i) :: (hives.drop (i + 1)).zipIdx (i + 1) := by
    conv_lhs => rw [hsplit]
    rw [zipIdx_append, zipIdx_cons, length_take, Nat.min_eq_left hlt.le, Nat.zero_add]
  -- The hives before and after the one at `i` have other indices.
  have hother : ∀ (f : (String × RemoteHiveState) × ℕ → List β),
      (∀ x, f x = (rows x.1.2).filterMap (entry (ofNat x.2))) →
      ∀ l : List _, (∀ x ∈ l, x.2 ≠ i ∧ x.2 < hives.length) →
      (l.flatMap f).filter (index · == ofNat i) = [] := by
    intro f hf l hl
    rw [filter_eq_nil_iff]
    intro b hb
    obtain ⟨x, hmem, hb⟩ := mem_flatMap.mp hb
    rw [hf] at hb
    obtain ⟨a, -, ha⟩ := mem_filterMap.mp hb
    obtain ⟨hji, hj⟩ := hl _ hmem
    rw [hindex _ a b ha, beq_iff_eq]
    intro heq
    apply hji
    rw [← toNat_ofNat_of_lt' (hj.trans_le hlen), heq, toNat_ofNat_of_lt' (hlt.trans_le hlen)]
  have hown : ((rows hive.2).filterMap (entry (ofNat i))).filter
      (index · == ofNat i) = (rows hive.2).filterMap (entry (ofNat i)) := by
    rw [filter_eq_self]
    intro b hb
    obtain ⟨a, -, ha⟩ := mem_filterMap.mp hb
    rw [hindex _ a b ha, beq_self_eq_true]
  have hfront : ∀ x ∈ (hives.take i).zipIdx, x.2 ≠ i ∧ x.2 < hives.length := by
    intro x hx
    have hx := snd_lt_of_mem_zipIdx hx
    rw [length_take] at hx
    omega
  have hback : ∀ x ∈ (hives.drop (i + 1)).zipIdx (i + 1), x.2 ≠ i ∧ x.2 < hives.length := by
    intro x hx
    have hle := le_snd_of_mem_zipIdx hx
    have hlt := snd_lt_of_mem_zipIdx hx
    rw [length_drop] at hlt
    omega
  rw [sectionEntries, hzip, flatMap_append, flatMap_cons, filter_append,
    filter_append, hother _ (fun _ => rfl) _ hfront, hother _ (fun _ => rfl) _ hback, hown, nil_append, append_nil]

end

/-! ### The region after a write -/

/-- What the hives give the region's sections fits them. -/
structure Fits (hives : List (String × RemoteHiveState)) : Prop where
  count : hives.length ≤ maxRemoteHives
  nodes : (sectionEntries hives (·.nodes) nodeEntry).length ≤ maxRemoteNodes
  routes : (sectionEntries hives (·.routes) routeEntry).length ≤ maxRemoteRoutes
  vpns : (sectionEntries hives (·.vpns) vpnEntry).length ≤ maxRemoteVpns
  taps : (sectionEntries hives (·.taps) tapEntry).length ≤ maxRemoteTaps

structure HiveView where
  hive : Option RemoteHiveEntry
  nodes : List RemoteNodeEntry
  routes : List RemoteRouteEntry
  vpns : List RemoteVpnEntry
  taps : List RemoteTapEntry

def viewAt (lsa : LsaSnapshot) (i : ℕ) : HiveView where
  hive := lsa.hives[i]?
  nodes := lsa.nodes.filter (·.hiveIndex == UInt16.ofNat i)
  routes := lsa.routes.filter (·.hiveIndex == UInt16.ofNat i)
  vpns := lsa.vpns.filter (·.hiveIndex == UInt16.ofNat i)
  taps := lsa.taps.filter (·.hiveIndex == UInt16.ofNat i)

def ownView (i : ℕ) (hive : String × RemoteHiveState) : HiveView where
  hive := some (hiveEntry hive.1 hive.2)
  nodes := hive.2.nodes.filterMap (nodeEntry (UInt16.ofNat i))
  routes := hive.2.routes.filterMap (routeEntry (UInt16.ofNat i))
  vpns := hive.2.vpns.filterMap (vpnEntry (UInt16.ofNat i))
  taps := hive.2.taps.filterMap (tapEntry (UInt16.ofNat i))

theorem nodeEntry_index {node : LsaNode} {e : RemoteNodeEntry}
    (h : nodeEntry j node = some e) : e.hiveIndex = j := by
  obtain ⟨uuid, -, rfl⟩ := map_eq_some_iff.mp h
  rfl

theorem routeEntry_index {route : LsaRoute} {e : RemoteRouteEntry}
    (h : routeEntry j route = some e) : e.hiveIndex = j := by
  obtain ⟨kind, -, h⟩ := bind_eq_some_iff.mp h
  obtain ⟨action, -, rfl⟩ := map_eq_some_iff.mp h
  rfl

theorem vpnEntry_index {vpn : LsaVpn} {e : RemoteVpnEntry}
    (h : vpnEntry j vpn = some e) : e.hiveIndex = j := by
  obtain ⟨kind, -, rfl⟩ := map_eq_some_iff.mp h
  rfl

theorem tapEntry_index {tap : LsaTap} {e : RemoteTapEntry}
    (h : tapEntry j tap = some e) : e.hiveIndex = j := by
  obtain ⟨mode, -, rfl⟩ := map_eq_some_iff.mp h
  rfl

section

variable (region : LsaRegion) (side : LocalSide) (state : LsaState) (now : ℕ)

theorem writeLsaState_of_fits (h : Fits (publishedHives side state now)) :
    let hives := publishedHives side state now
    let out := writeLsaState region side state now
    out.2 = .ok () ∧ out.1.readSnapshot.hives = hives.map (fun hive => hiveEntry hive.1 hive.2) ∧
      out.1.readSnapshot.nodes = sectionEntries hives (·.nodes) nodeEntry ∧
      out.1.readSnapshot.routes = sectionEntries hives (·.routes) routeEntry ∧
      out.1.readSnapshot.vpns = sectionEntries hives (·.vpns) vpnEntry ∧
      out.1.readSnapshot.taps = sectionEntries hives (·.taps) tapEntry := by
  have hhives : ((publishedHives side state now).map
      fun hive => hiveEntry hive.1 hive.2).length ≤ maxRemoteHives := by
    rw [length_map]
    exact h.count
  exact region.writeSnapshot_of_le hhives h.nodes h.routes h.vpns h.taps

theorem writeLsaState_of_not_fits (h : ¬ Fits (publishedHives side state now)) :
    (writeLsaState region side state now).1 = region := by
  unfold writeLsaState LsaRegion.writeSnapshot
  dsimp only
  split_ifs with hhives hnodes hroutes hvpns htaps
  · rfl
  · rfl
  · rfl
  · rfl
  · rfl
  · rw [length_map] at hhives
    exact absurd ⟨by omega, by omega, by omega, by omega, by omega⟩ h

variable {region side state now}

theorem viewAt_writeLsaState (h : Fits (publishedHives side state now)) {i : ℕ}
    (hi : (publishedHives side state now)[i]? = some hive) :
    viewAt (writeLsaState region side state now).1.readSnapshot i = ownView i hive := by
  obtain ⟨-, hhives, hnodes, hroutes, hvpns, htaps⟩ := writeLsaState_of_fits region side state now h
  have hlen : (publishedHives side state now).length ≤ size := by
    have := h.count
    simp only [maxRemoteHives] at this
    simp only [size]
    omega
  rw [viewAt, hhives, hnodes, hroutes, hvpns, htaps, ownView, getElem?_map, hi, map_some,
    sectionEntries_at RemoteNodeEntry.hiveIndex (fun _ _ _ => nodeEntry_index) hlen hi,
    sectionEntries_at RemoteRouteEntry.hiveIndex (fun _ _ _ => routeEntry_index) hlen hi,
    sectionEntries_at RemoteVpnEntry.hiveIndex (fun _ _ _ => vpnEntry_index) hlen hi,
    sectionEntries_at RemoteTapEntry.hiveIndex (fun _ _ _ => tapEntry_index) hlen hi]

end

/-! ### A hive that advertises nothing -/

def RemoteHiveState.silent (state : RemoteHiveState) : RemoteHiveState :=
  { state with nodes := [], routes := [], vpns := [], taps := [] }

/-- A hive's place in the state, without what it advertises where it is `hiveId`. -/
def hush (hiveId : String) (hive : String × RemoteHiveState) : String × RemoteHiveState :=
  if hive.1 = hiveId then (hive.1, hive.2.silent) else hive

def silenced (hiveId : String) (state : LsaState) : LsaState :=
  state.mapValues fun name hive => (hush hiveId (name, hive)).2

section

variable {hiveId : String} {side : LocalSide} {state : LsaState} {now : ℕ} {region : LsaRegion}

theorem hush_fst (hive : String × RemoteHiveState) : (hush hiveId hive).1 = hive.1 := by
  unfold hush
  split_ifs <;> rfl

theorem hush_of_ne (h : hive.1 ≠ hiveId) : hush hiveId hive = hive := if_neg h

theorem otherHives_silenced :
    otherHives side (silenced hiveId state) = (otherHives side state).map (hush hiveId) := by
  have hkept : ((silenced hiveId state).entries.filter (·.1 ≠ side.hiveId)).map
      (fun e => (e.1, e.2)) =
        ((state.entries.filter (·.1 ≠ side.hiveId)).map fun e => (e.1, e.2)).map (hush hiveId) := by
    rw [silenced, AList.mapValues, List.filter_map, List.map_map, List.map_map]
    refine map_congr_left fun e _ => ?_
    exact Prod.ext (hush_fst (e.1, e.2)).symm rfl
  rw [otherHives, hkept, otherHives]
  refine (map_insertionSort _ _ _ _ fun a _ b _ => ?_).symm
  rw [hush_fst, hush_fst]

theorem length_hush_le {α β : Type} {rows : RemoteHiveState → List α}
    (hrows : ∀ st : RemoteHiveState, rows st.silent = []) (entry : UInt16 → α → Option β)
    (hives : List (String × RemoteHiveState)) (k : ℕ) :
    (((hives.map (hush hiveId)).zipIdx k).flatMap fun (hive, index) =>
        (rows hive.2).filterMap (entry (ofNat index))).length ≤
      ((hives.zipIdx k).flatMap fun (hive, index) =>
        (rows hive.2).filterMap (entry (ofNat index))).length := by
  induction hives generalizing k with
  | nil => exact le_rfl
  | cons hive rest ih =>
    have hrest := ih (k + 1)
    rw [map_cons, zipIdx_cons, zipIdx_cons, flatMap_cons, flatMap_cons,
      length_append, length_append]
    refine Nat.add_le_add ?_ hrest
    by_cases h : hive.1 = hiveId
    · have hsilent : (hush hiveId hive).2 = hive.2.silent := by rw [hush, if_pos h]
      dsimp only
      rw [hsilent, hrows, filterMap_nil]
      exact Nat.zero_le _
    · rw [hush_of_ne h]

theorem publishedHives_silenced : publishedHives side (silenced hiveId state) now =
      (side.hiveId, selfState side now) :: (otherHives side state).map (hush hiveId) := by
  rw [publishedHives, otherHives_silenced]

theorem length_sectionEntries_silenced {α β : Type} {rows : RemoteHiveState → List α}
    (hrows : ∀ st : RemoteHiveState, rows st.silent = []) (entry : UInt16 → α → Option β) :
    (sectionEntries (publishedHives side (silenced hiveId state) now) rows entry).length ≤
      (sectionEntries (publishedHives side state now) rows entry).length := by
  rw [publishedHives_silenced, publishedHives, sectionEntries, sectionEntries, zipIdx_cons,
    zipIdx_cons, flatMap_cons, flatMap_cons, length_append, length_append]
  exact Nat.add_le_add_left (length_hush_le hrows entry _ _) _

theorem Fits.silenced (h : Fits (publishedHives side state now)) :
    Fits (publishedHives side (silenced hiveId state) now) where
  count := by
    have hcount := h.count
    rw [publishedHives, length_cons] at hcount
    rw [publishedHives_silenced, length_cons, length_map]
    exact hcount
  nodes := (length_sectionEntries_silenced (fun _ => rfl) nodeEntry).trans h.nodes
  routes := (length_sectionEntries_silenced (fun _ => rfl) routeEntry).trans h.routes
  vpns := (length_sectionEntries_silenced (fun _ => rfl) vpnEntry).trans h.vpns
  taps := (length_sectionEntries_silenced (fun _ => rfl) tapEntry).trans h.taps

theorem getElem?_silenced {i : ℕ}
    (hi : (publishedHives side state now)[i]? = some hive) (hne : hive.1 ≠ hiveId) :
    (publishedHives side (Router.silenced hiveId state) now)[i]? = some hive := by
  rw [publishedHives_silenced]
  cases i with
  | zero => exact hi
  | succ i =>
    rw [publishedHives, getElem?_cons_succ] at hi
    rw [getElem?_cons_succ, getElem?_map, hi, map_some, hush_of_ne hne]

def OthersShow (hives : List (String × RemoteHiveState)) (hiveId : String)
    (lsa lsa' : LsaSnapshot) : Prop :=
  ∀ i hive, hives[i]? = some hive → hive.1 ≠ hiveId → viewAt lsa i = viewAt lsa' i

/-- What a hive advertises leaves what the others show alone exactly when all of it fits, when it
would not fit without that hive either, or when the region already shows what they have to show. -/
theorem others_unaffected_iff :
    OthersShow (publishedHives side state now) hiveId
        (writeLsaState region side state now).1.readSnapshot
        (writeLsaState region side (Router.silenced hiveId state) now).1.readSnapshot ↔
      Fits (publishedHives side state now) ∨
        ¬ Fits (publishedHives side (Router.silenced hiveId state) now) ∨
        ∀ i hive, (publishedHives side state now)[i]? = some hive → hive.1 ≠ hiveId →
          viewAt region.readSnapshot i = ownView i hive := by
  by_cases hfits : Fits (publishedHives side state now)
  · refine iff_of_true ?_ (.inl hfits)
    intro i hive hi hne
    rw [viewAt_writeLsaState hfits hi,
      viewAt_writeLsaState hfits.silenced (getElem?_silenced hi hne)]
  · rw [writeLsaState_of_not_fits region side state now hfits, or_iff_right hfits]
    by_cases hrest : Fits (publishedHives side (Router.silenced hiveId state) now)
    · rw [or_iff_right (not_not.mpr hrest)]
      refine forall_congr' fun i => forall_congr' fun hive => forall_congr' fun hi =>
        forall_congr' fun hne => ?_
      rw [viewAt_writeLsaState hrest (getElem?_silenced hi hne)]
    · rw [writeLsaState_of_not_fits region side _ now hrest]
      exact iff_of_true (fun _ _ _ _ => rfl) (.inl hrest)

end

namespace Crowd

def vpn : LsaVpn := ⟨"AI.*", "GLOB", 7⟩

def quiet : RemoteHiveState := { vpns := [vpn] }

def loud : RemoteHiveState := { vpns := List.replicate 257 vpn }

def state : LsaState := ((∅ : LsaState).insert "worker" loud).insert "edge" quiet

theorem state_not_fits : ¬ Fits (publishedHives Flap.side state 0) := by
  intro h
  have hloud : (publishedHives Flap.side state 0)[2]? = some ("worker", loud) := by decide +kernel
  have hle := length_rows_le (·.vpns) vpnEntry hloud
  have hrows : (loud.vpns.filterMap (vpnEntry (ofNat 2))).length = 257 := by
    obtain ⟨e, he⟩ : ∃ e, vpnEntry (ofNat 2) vpn = some e := ⟨_, rfl⟩
    rw [loud, filterMap_replicate_of_some he, length_replicate]
  have hcap := hle.trans h.vpns
  rw [hrows] at hcap
  exact absurd hcap (by decide)

theorem silenced_fits : Fits (publishedHives Flap.side (silenced "worker" state) 0) :=
  ⟨by decide +kernel, by decide +kernel, by decide +kernel, by decide +kernel, by decide +kernel⟩

end Crowd

/-- `worker` advertises one VPN rule too many, and what `edge` has to show never gets out. -/
theorem crowded_hive_hides_others :
    ¬ OthersShow (publishedHives Flap.side Crowd.state 0) "worker"
      (writeLsaState .created Flap.side Crowd.state 0).1.readSnapshot
      (writeLsaState .created Flap.side (silenced "worker" Crowd.state) 0).1.readSnapshot := by
  intro h
  have hedge : (publishedHives Flap.side Crowd.state 0)[1]? = some ("edge", Crowd.quiet) := by
    decide +kernel
  have hview := h 1 ("edge", Crowd.quiet) hedge (by decide)
  rw [writeLsaState_of_not_fits _ _ _ _ Crowd.state_not_fits,
    viewAt_writeLsaState Crowd.silenced_fits (getElem?_silenced hedge (by decide))] at hview
  have hnone : LsaRegion.created.readSnapshot.vpns = [] := Section.read_write _ (Nat.zero_le _)
  have hvpns := congrArg HiveView.vpns hview
  simp only [viewAt, hnone, ownView, Crowd.quiet, filter_nil] at hvpns
  cases hvpns

/-! ### The names under a hive's index -/

def FitsHiveId (hive : String) : Prop := (asBytes hive).length ≤ 64

def FitsName (name : String) : Prop := (asBytes name).length ≤ 256

instance (hive : String) : Decidable (FitsHiveId hive) :=
  inferInstanceAs (Decidable ((asBytes hive).length ≤ 64))

instance (name : String) : Decidable (FitsName name) :=
  inferInstanceAs (Decidable ((asBytes name).length ≤ 256))

/-- Every node entry that a reader decodes names a node on the hive at its index. Unless that hive
is the region's own, it listed the node. -/
def Placed (Listed : String → String → Prop) (lsa : LsaSnapshot) : Prop :=
  ∀ e ∈ lsa.nodes, ∃ hive, lsa.hives[e.hiveIndex.toNat]? = some hive ∧
    nodeIsOnHive e.text hive.id = true ∧ (e.hiveIndex = 0 ∨ Listed hive.id e.text)

/-- The hive's own nodes are named for it, and fit. -/
structure OwnFits (side : LocalSide) : Prop where
  hive : FitsHiveId side.hiveId
  nodes : ∀ node ∈ localLsaNodes side.nodes side.peerNodes,
    nodeIsOnHive node.name side.hiveId = true ∧ FitsName node.name

/-- Every node kept of a hive is on it, fits and was listed by it. -/
def NodesSound (Listed : String → String → Prop) (state : LsaState) : Prop :=
  ∀ hive st, state.lookup hive = some st → ∀ node ∈ st.nodes,
    FitsHiveId hive ∧ FitsName node.name ∧ nodeIsOnHive node.name hive = true ∧
      Listed hive node.name

section

variable {Listed : String → String → Prop} {side : LocalSide} {state : LsaState}
  {region : LsaRegion}

theorem hiveEntry_id {hive : String} (st : RemoteHiveState) (h : FitsHiveId hive) :
    (hiveEntry hive st).id = hive := bytesToString_copyBytesWithLen h

theorem nodeEntry_text {node : LsaNode} {e : RemoteNodeEntry}
    (he : nodeEntry j node = some e) (h : FitsName node.name) : e.text = node.name := by
  obtain ⟨uuid, -, rfl⟩ := map_eq_some_iff.mp he
  exact bytesToString_copyBytesWithLen h

theorem mem_otherHives (h : hive ∈ otherHives side state) : state.lookup hive.1 = some hive.2 := by
  rw [otherHives, mem_insertionSort, List.mem_map] at h
  obtain ⟨e, he, rfl⟩ := h
  exact mem_entries_iff.mp (mem_filter.mp he).1

theorem Placed.write (h : Placed Listed region.readSnapshot) (hown : OwnFits side)
    (hnodes : NodesSound Listed state) (now : ℕ) :
    Placed Listed (writeLsaState region side state now).1.readSnapshot := by
  by_cases hfits : Fits (publishedHives side state now)
  · obtain ⟨-, hhives, hentries, -⟩ := writeLsaState_of_fits region side state now hfits
    intro e he
    rw [hentries] at he
    obtain ⟨i, hive, hi, node, hnode, hentry⟩ := mem_sectionEntries.mp he
    have hlt : i < maxRemoteHives := (List.getElem?_eq_some_iff.mp hi).1.trans_le hfits.count
    have hindex : e.hiveIndex.toNat = i := by
      rw [nodeEntry_index hentry]
      exact toNat_ofNat_of_lt' (hlt.trans (by decide))
    refine ⟨hiveEntry hive.1 hive.2, by rw [hhives, hindex, getElem?_map, hi, map_some], ?_⟩
    cases i with
    | zero =>
      cases hi
      obtain ⟨hon, hname⟩ := hown.nodes node hnode
      rw [hiveEntry_id _ hown.hive, nodeEntry_text hentry hname]
      exact ⟨hon, .inl (nodeEntry_index hentry)⟩
    | succ i =>
      rw [publishedHives, getElem?_cons_succ] at hi
      have hl := mem_otherHives (mem_of_getElem? hi)
      obtain ⟨hid, hname, hon, hlisted⟩ := hnodes hive.1 hive.2 hl node hnode
      rw [hiveEntry_id _ hid, nodeEntry_text hentry hname]
      exact ⟨hon, .inr hlisted⟩
  · rw [writeLsaState_of_not_fits region side state now hfits]
    exact h

end

namespace Gateway

variable {Listed : String → String → Prop} {g g' : Gateway} {session : WanSession}

def lists (g : Gateway) : GatewayEvent → List (String × String)
  | .lsa id payload _ _ => (g.sessionIn .running id).toList.flatMap fun session =>
      if payload.hive = session.hive then payload.nodes.map fun node => (session.hive, node.name)
      else []
  | _ => []

/-- What an LSA lists of its session's hive fits the region, and so do the hive's own nodes. -/
def Fitting (g : Gateway) : GatewayEvent → Prop
  | .lsa id payload _ _ => ∀ session ∈ g.sessionIn .running id, payload.hive = session.hive →
      ∀ node ∈ payload.nodes, nodeIsOnHive node.name session.hive = true →
        FitsHiveId session.hive ∧ FitsName node.name
  | .relocate side => OwnFits side
  | _ => True

/-- The state and the region tell each hive's nodes apart. -/
structure Sound (Listed : String → String → Prop) (g : Gateway) : Prop where
  own : OwnFits g.side
  nodes : NodesSound Listed g.lsaState
  placed : Placed Listed g.region.readSnapshot

theorem Sound.of_eq (h : g.Sound Listed) (hside : g'.side = g.side)
    (hstate : g'.lsaState = g.lsaState) (hregion : g'.region = g.region) : g'.Sound Listed :=
  ⟨hside ▸ h.own, hstate ▸ h.nodes, hregion ▸ h.placed⟩

theorem Sound.publish (h : g.Sound Listed) (now : ℕ) : (g.publish now).Sound Listed :=
  ⟨h.own, h.nodes, h.placed.write h.own h.nodes now⟩

theorem Sound.takeLsa {payload : LsaPayload} (h : g.Sound Listed) (localUuids : List Uuid) (now : ℕ)
    (hfit : payload.hive = session.hive → ∀ node ∈ payload.nodes,
      nodeIsOnHive node.name session.hive = true →
        FitsHiveId session.hive ∧ FitsName node.name ∧ Listed session.hive node.name) :
    (g.takeLsa session payload localUuids now).Sound Listed := by
  have hnodes : NodesSound Listed (g.lsaOutcome session payload localUuids now).1 := by
    have hchange : LsaChange g.lsaState session.hive session.epoch payload
        (g.lsaOutcome session payload localUuids now).1 _ := applyLsaPayload_change ..
    cases hchange with
    | mismatch hhive hs _ => exact hs ▸ h.nodes
    | refused hhive hs _ =>
      rw [hs]
      intro hive st hl node hnode
      rw [lookup_insert_eq] at hl
      split_ifs at hl with heq
      · cases hl
        rw [sessionEntry_nodes] at hnode
        rw [heq]
        cases hold : g.lsaState.lookup session.hive with
        | none =>
          rw [hold] at hnode
          cases hnode
        | some st =>
          rw [hold] at hnode
          exact h.nodes session.hive st hold node hnode
      · exact h.nodes hive st hl node hnode
    | applied hhive hs _ _ _ _ hentry =>
      rw [hs]
      intro hive st hl node hnode
      rw [lookup_insert_eq] at hl
      split_ifs at hl with heq
      · cases hl
        obtain ⟨hmem, hon⟩ := hentry node hnode
        obtain ⟨hid, hname, hlisted⟩ := hfit hhive node hmem hon
        rw [heq]
        exact ⟨hid, hname, hon, hlisted⟩
      · exact h.nodes hive st hl node hnode
  have hstate : Sound Listed { g with lsaState := (g.lsaOutcome session payload localUuids now).1 } :=
    ⟨h.own, hnodes, h.placed⟩
  unfold Gateway.takeLsa
  dsimp only
  split_ifs
  · exact hstate.publish now
  · exact hstate

theorem freshness_nodes (deadIntervalMs now : ℕ) (st : RemoteHiveState) :
    (freshness deadIntervalMs now st).nodes = st.nodes := by
  unfold freshness
  split_ifs
  · rfl
  · rfl

theorem Sound.markStale (h : g.Sound Listed) (deadIntervalMs now : ℕ) :
    (g.markStale deadIntervalMs now).Sound Listed := by
  have hstate : Sound Listed
      { g with lsaState := g.lsaState.mapValues fun _ => freshness deadIntervalMs now } := by
    refine ⟨h.own, ?_, h.placed⟩
    intro hive st hl node hnode
    rw [lookup_mapValues, map_eq_some_iff] at hl
    obtain ⟨st', hl', rfl⟩ := hl
    rw [freshness_nodes] at hnode
    exact h.nodes hive st' hl' node hnode
  unfold Gateway.markStale
  dsimp only
  split_ifs
  · exact hstate.publish now
  · exact hstate

theorem Sound.step {event : GatewayEvent} (h : g.Sound Listed) (hfit : g.Fitting event)
    (hlists : ∀ p ∈ g.lists event, Listed p.1 p.2) : (g.step event).Sound Listed := by
  cases event with
  | lsa id payload localUuids now =>
    cases hs : g.sessionIn .running id with
    | none => simpa only [Gateway.step, hs, map_none, getD_none] using h
    | some session =>
      simp only [Gateway.step, hs, map_some, getD_some]
      refine h.takeLsa localUuids now fun hhive node hnode hon => ?_
      obtain ⟨hid, hname⟩ := hfit session hs hhive node hnode hon
      refine ⟨hid, hname, hlists (session.hive, node.name) ?_⟩
      simp only [lists, hs, toList_some, flatMap_cons, flatMap_nil, append_nil, if_pos hhive]
      exact List.mem_map_of_mem hnode
  | markStale deadIntervalMs now => exact h.markStale deadIntervalMs now
  | publish now => exact h.publish now
  | relocate side => exact ⟨hfit, h.nodes, h.placed⟩
  | accept => exact h.of_eq rfl rfl rfl
  | enter id =>
    cases hs : g.sessionIn .accepting id <;> simp only [Gateway.step, hs] <;> exact h.of_eq rfl rfl rfl
  | fail id | close id =>
    cases hs : g.sessionIn .running id <;> simp only [Gateway.step, hs] <;> exact h.of_eq rfl rfl rfl

theorem sound_start {side : LocalSide} (h : OwnFits side) : (start side).Sound Listed := by
  have hnone : LsaRegion.created.readSnapshot.nodes = [] := Section.read_write _ (Nat.zero_le _)
  refine ⟨h, nofun, fun e he => ?_⟩
  rw [start, hnone] at he
  cases he

/-- In every run whose LSAs list only what fits the region, each node entry of the region names a
node on the hive at its index, and that hive listed it. -/
theorem published_nodes_are_their_hives (side : LocalSide) (events : List GatewayEvent)
    (hside : OwnFits side) (hfit : Along step Fitting (start side) events) :
    Placed (fun hive name => (hive, name) ∈ log step lists (start side) events)
      (events.foldl step (start side)).region.readSnapshot :=
  ((hfit.and (along_log lists)).invariant (fun _ _ hC h => h.step hC.1 hC.2)
    (sound_start hside)).placed

end Gateway

namespace Roster

section
variable (hive : String)

def hearing : List GatewayEvent :=
  [.accept hive zeroUuid "RT.gateway", .enter 0,
    .lsa 0 ⟨hive, "", "", 1, [⟨zeroUuid.hyphenated, "AI.a@" ++ hive, 0⟩], [], [], []⟩ [] 0]

def heard : Gateway := (hearing hive).foldl Gateway.step (Gateway.start Flap.side)

def hives : List (String × RemoteHiveState) :=
  publishedHives (heard hive).side (heard hive).lsaState 0

def events : List GatewayEvent := hearing hive ++ [GatewayEvent.publish 0]

def published : Gateway :=
  (events hive).foldl Gateway.step (Gateway.start Flap.side)

theorem published_region : (published hive).region =
    (writeLsaState (heard hive).region (heard hive).side (heard hive).lsaState 0).1 := by
  rw [published, events, foldl_append]
  rfl

end

def long : String := String.ofList (List.replicate 65 'a')

theorem side_ownFits : OwnFits Flap.side := ⟨by decide +kernel, by decide +kernel⟩

end Roster

open Roster

/-- The name that a hive lists is on it, and the region shows it. -/
theorem published_node_is_its_hives :
    Placed (fun hive name => (hive, name) ∈
        log Gateway.step Gateway.lists (Gateway.start Flap.side) (Roster.events "worker"))
      (Roster.published "worker").region.readSnapshot ∧
    (Roster.published "worker").region.readSnapshot.nodes.map RemoteNodeEntry.text =
      ["AI.a@worker"] := by
  constructor
  · refine Gateway.published_nodes_are_their_hives Flap.side (events "worker") side_ownFits
      ⟨trivial, trivial, ?_, trivial, trivial⟩
    unfold Gateway.Fitting
    decide +kernel
  · have hfits : Fits (hives "worker") :=
      ⟨by decide +kernel, by decide +kernel, by decide +kernel, by decide +kernel, by decide +kernel⟩
    obtain ⟨-, -, hnodes, -⟩ := writeLsaState_of_fits (heard "worker").region _ _ _ hfits
    rw [published_region, hnodes]
    decide +kernel

/-- The hive's id is cut in the region and the node's name is not. -/
theorem cut_hive_id_publishes_foreign_node :
    ¬ Placed (fun _ _ => True) (Roster.published Roster.long).region.readSnapshot := by
  intro h
  have hfits : Fits (hives long) :=
    ⟨by decide +kernel, by decide +kernel, by decide +kernel, by decide +kernel, by decide +kernel⟩
  obtain ⟨-, hhives, hnodes, -⟩ := writeLsaState_of_fits (heard long).region _ _ _ hfits
  have hcut : ∃ e ∈ sectionEntries (hives long) (·.nodes) nodeEntry,
      ∀ hive ∈ ((hives long).map
        fun hive => hiveEntry hive.1 hive.2)[e.hiveIndex.toNat]?,
        nodeIsOnHive e.text hive.id = false := by
    decide +kernel
  obtain ⟨e, he, hforeign⟩ := hcut
  rw [published_region] at h
  have hmem : e ∈ (writeLsaState (heard long).region (heard long).side
      (heard long).lsaState 0).1.readSnapshot.nodes := by
    rw [hnodes]
    exact he
  obtain ⟨hive, hget, hon, -⟩ := h e hmem
  rw [hhives] at hget
  rw [hforeign hive hget] at hon
  cases hon

end Fluxbee.Router
