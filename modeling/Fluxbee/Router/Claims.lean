import Fluxbee.Router.Publication
import Fluxbee.Router.RouteIsolation
import Fluxbee.Router.Wan

/-! The UUIDs that the hives claim for their nodes, and what a snapshot of the published link state
answers for them: a UUID is resolved to the only hive that claims it. -/
namespace Fluxbee.Router
open Text Shm Lsa List Option Prod

variable {hive : String × RemoteHiveState} {e : RemoteNodeEntry} {i : ℕ}

/-! ### What a hive claims -/

def LsaNode.claims (node : LsaNode) (uuid : Uuid) : Bool :=
  node.name != "" && Uuid.parseStr node.uuid == some uuid

def claims (nodes : List LsaNode) (uuid : Uuid) : Bool := nodes.any (·.claims uuid)

def publishedName (name : String) : String :=
  let cut := copyBytesWithLen (zeroBytes 256) name
  bytesToString cut.1 cut.2

def hiveInfo (hive : String) (nodes : List LsaNode) (uuid : Uuid) : Option RemoteNodeInfo :=
  (nodes.find? (·.claims uuid)).map fun node =>
    ⟨publishedName node.name, node.vpnId, hive, hive, false⟩

theorem hiveInfo_eq_some {hive : String} {nodes : List LsaNode} {uuid : Uuid}
    {info : RemoteNodeInfo} (h : hiveInfo hive nodes uuid = some info) :
    info.hiveId = hive ∧ info.nextHopHive = hive ∧ info.viaHub = false ∧
      claims nodes uuid = true := by
  obtain ⟨node, hfind, rfl⟩ := map_eq_some_iff.mp h
  have hclaims := find?_some hfind
  exact ⟨rfl, rfl, rfl, List.any_eq_true.mpr ⟨node, mem_of_find?_eq_some hfind, hclaims⟩⟩

/-- What the hive's LSA lists of its own nodes, those with a UUID of this hive apart. -/
def LsaPayload.accepted (payload : LsaPayload) (hive : String) (localUuids : List Uuid) :
    List LsaNode :=
  (payload.nodes.filter (nodeIsOnHive ·.name hive)).filter (!·.takes localUuids)

def advertised (state : LsaState) (hive : String) : List LsaNode :=
  ((state.lookup hive).map (·.nodes)).getD []

def isStale (state : LsaState) (hive : String) : Bool :=
  (state.lookup hive).any (·.flags &&& flagStale != 0)

/-- `hive` is the only other hive that claims the UUID, and no node of this hive has it. -/
structure SoleClaim (own : String) (localNodes : List LsaNode) (lists : String → List LsaNode)
    (uuid : Uuid) (hive : String) : Prop where
  foreign : hive ≠ own
  claimed : claims (lists hive) uuid = true
  sole : ∀ other, other ≠ own → claims (lists other) uuid = true → other = hive
  unclaimed : claims localNodes uuid = false

/-! ### What a snapshot answers -/

variable {j : UInt16} {node : LsaNode} {entry : String × RemoteHiveState}
  {snapshot : Option LsaSnapshot}

section

variable {hives : List (String × RemoteHiveState)} {lsa : LsaSnapshot} {uuid : Uuid}
  {info : RemoteNodeInfo}

/-- The snapshot shows the nodes of the hives, each under its hive's place. -/
structure WrittenFrom (hives : List (String × RemoteHiveState)) (lsa : LsaSnapshot) : Prop where
  count : hives.length ≤ maxRemoteHives
  hives_eq : lsa.hives = hives.map fun hive => hiveEntry hive.1 hive.2
  nodes_eq : lsa.nodes = sectionEntries hives (·.nodes) nodeEntry

theorem asBytes_eq_nil {s : String} : asBytes s = [] ↔ s = "" := by
  constructor
  · intro h
    exact asBytes_injective (h.trans (by decide))
  · intro h
    rw [h]
    decide

section
variable (h : nodeEntry j node = some e)
include h

theorem nodeEntry_nameLen : e.nameLen = 0 ↔ node.name = "" := by
  obtain ⟨uuid, -, rfl⟩ := map_eq_some_iff.mp h
  have hlen : (copyBytesWithLen (zeroBytes 256) node.name).2 = min (asBytes node.name).length 256 := by
    simp only [copyBytesWithLen, zeroBytes, length_replicate]
  rw [← asBytes_eq_nil, ← length_eq_zero_iff]
  dsimp only
  rw [hlen]
  omega

theorem nodeEntry_uuid : Uuid.parseStr node.uuid = some e.uuid := by
  obtain ⟨uuid, huuid, rfl⟩ := map_eq_some_iff.mp h
  exact huuid

theorem liveNode_nodeEntry : liveNode e uuid = node.claims uuid := by
  have hname := nodeEntry_nameLen h
  have huuid := nodeEntry_uuid h
  have hflags : e.flags = flagActive := by
    obtain ⟨uuid, -, rfl⟩ := map_eq_some_iff.mp h
    rfl
  have hactive : (flagActive &&& (flagDeleted ||| flagStale) == 0) = true := by decide
  rw [liveNode, LsaNode.claims, huuid, hflags, hactive, Bool.and_true]
  congr 1
  · rw [Bool.eq_iff_iff, bne_iff_ne, bne_iff_ne]
    exact not_congr hname

end

theorem any_nodeEntry (node : LsaNode) :
    (nodeEntry j node).any (liveNode · uuid) = node.claims uuid := by
  cases hentry : nodeEntry j node with
  | some e => exact liveNode_nodeEntry hentry
  | none =>
    have hparse : Uuid.parseStr node.uuid = none := map_eq_none_iff.mp hentry
    rw [LsaNode.claims, hparse, any_none]
    exact (Bool.and_false _).symm

section
variable (h : WrittenFrom hives lsa)
include h

theorem WrittenFrom.size_le : hives.length ≤ UInt16.size := by
  have hcount := h.count
  simp only [maxRemoteHives] at hcount
  simp only [UInt16.size]
  omega

theorem WrittenFrom.toNat_index (hi : hives[i]? = some hive) : (UInt16.ofNat i).toNat = i := by
  have hlt := (List.getElem?_eq_some_iff.mp hi).1
  exact UInt16.toNat_ofNat_of_lt' (hlt.trans_le h.size_le)

theorem WrittenFrom.mem_live (he : e ∈ lsa.nodes)
    (hlive : liveNode e uuid = true) : ∃ i hive, hives[i]? = some hive ∧
      claims hive.2.nodes uuid = true ∧ e.hiveIndex = UInt16.ofNat i := by
  rw [h.nodes_eq] at he
  obtain ⟨i, hive, hi, node, hnode, hentry⟩ := mem_sectionEntries.mp he
  rw [liveNode_nodeEntry hentry] at hlive
  exact ⟨i, hive, hi, List.any_eq_true.mpr ⟨node, hnode, hlive⟩, nodeEntry_index hentry⟩

theorem WrittenFrom.exists_live (hi : hives[i]? = some hive)
    (hclaims : claims hive.2.nodes uuid = true) :
    ∃ e ∈ lsa.nodes, liveNode e uuid = true ∧ e.hiveIndex = UInt16.ofNat i := by
  obtain ⟨node, hnode, hclaim⟩ := List.any_eq_true.mp hclaims
  rw [← any_nodeEntry (j := UInt16.ofNat i), Option.any_eq_true] at hclaim
  obtain ⟨e, hentry, hlive⟩ := hclaim
  refine ⟨e, ?_, hlive, nodeEntry_index hentry⟩
  rw [h.nodes_eq]
  exact mem_sectionEntries.mpr ⟨i, hive, hi, node, hnode, hentry⟩

theorem liveNode_iff_of_written
    (he : e ∈ lsa.nodes) : liveNode e uuid = true ↔ e.nameLen ≠ 0 ∧ e.uuid = uuid := by
  rw [h.nodes_eq] at he
  obtain ⟨i, hive, -, node, -, hentry⟩ := mem_sectionEntries.mp he
  rw [liveNode_nodeEntry hentry, LsaNode.claims, Bool.and_eq_true, bne_iff_ne, beq_iff_eq,
    nodeEntry_uuid hentry, Option.some.injEq]
  exact and_congr_left fun _ => not_congr (nodeEntry_nameLen hentry).symm

end

theorem listedBySeveralHives_eq_false : uuidListedBySeveralHives lsa uuid = false ↔
    ∀ e ∈ lsa.nodes, ∀ e' ∈ lsa.nodes, e.nameLen ≠ 0 ∧ e.uuid = uuid →
      e'.nameLen ≠ 0 ∧ e'.uuid = uuid → e.hiveIndex = e'.hiveIndex := by
  have hindices : (∀ e ∈ lsa.nodes, ∀ e' ∈ lsa.nodes, e.nameLen ≠ 0 ∧ e.uuid = uuid →
      e'.nameLen ≠ 0 ∧ e'.uuid = uuid → e.hiveIndex = e'.hiveIndex) ↔
      ∀ i ∈ (lsa.nodes.filter fun node => node.nameLen ≠ 0 ∧ node.uuid = uuid).map (·.hiveIndex),
        ∀ j ∈ (lsa.nodes.filter fun node => node.nameLen ≠ 0 ∧ node.uuid = uuid).map (·.hiveIndex),
          i = j := by
    simp only [List.forall_mem_map, mem_filter, decide_eq_true_eq]
    exact ⟨fun h e he e' he' => h e he.1 e' he'.1 he.2 he'.2,
      fun h e he e' he' hl hl' => h e ⟨he, hl⟩ e' ⟨he', hl'⟩⟩
  rw [hindices, uuidListedBySeveralHives]
  generalize (lsa.nodes.filter fun node => node.nameLen ≠ 0 ∧ node.uuid = uuid).map (·.hiveIndex)
    = indices
  cases indices with
  | nil => simp
  | cons first rest =>
    simp only [List.any_eq_false, bne_iff_ne, not_not]
    constructor
    · intro hall i hi j hj
      have hfirst : ∀ k ∈ first :: rest, k = first := by
        intro k hk
        rcases mem_cons.mp hk with rfl | hk
        · rfl
        · exact hall k hk
      rw [hfirst i hi, hfirst j hj]
    · intro hall i hi
      exact hall i (mem_cons_of_mem _ hi) first (mem_cons_self ..)

section
variable (h : WrittenFrom hives lsa)
include h

theorem WrittenFrom.several_eq_false : uuidListedBySeveralHives lsa uuid = false ↔
      ∀ (i : ℕ) (hive : String × RemoteHiveState) (j : ℕ) (hive' : String × RemoteHiveState),
        hives[i]? = some hive → hives[j]? = some hive' → claims hive.2.nodes uuid = true →
          claims hive'.2.nodes uuid = true → i = j := by
  rw [listedBySeveralHives_eq_false]
  constructor
  · intro hall i hive j hive' hi hj hc hc'
    obtain ⟨e, he, hlive, hindex⟩ := h.exists_live hi hc
    obtain ⟨e', he', hlive', hindex'⟩ := h.exists_live hj hc'
    have hij := hall e he e' he' ((liveNode_iff_of_written h he).mp hlive)
      ((liveNode_iff_of_written h he').mp hlive')
    rw [hindex, hindex'] at hij
    rw [← h.toNat_index hi, hij, h.toNat_index hj]
  · intro hall e he e' he' hlive hlive'
    obtain ⟨i, hive, hi, hc, hindex⟩ := h.mem_live he ((liveNode_iff_of_written h he).mpr hlive)
    obtain ⟨j, hive', hj, hc', hindex'⟩ :=
      h.mem_live he' ((liveNode_iff_of_written h he').mpr hlive')
    rw [hindex, hindex', hall i hive j hive' hi hj hc hc']

theorem WrittenFrom.find_live (hi : hives[i]? = some hive)
    (hsole : ∀ j hive', hives[j]? = some hive' → claims hive'.2.nodes uuid = true → j = i) :
    lsa.nodes.find? (liveNode · uuid) =
      (hive.2.nodes.find? (·.claims uuid)).bind (nodeEntry (UInt16.ofNat i)) := by
  have hindex : ∀ e ∈ lsa.nodes, liveNode e uuid = true → e.hiveIndex = UInt16.ofNat i := by
    intro e he hlive
    obtain ⟨j, hive', hj, hc, hindex⟩ := h.mem_live he hlive
    rw [hindex, hsole j hive' hj hc]
  have hown : (lsa.nodes.filter (·.hiveIndex == UInt16.ofNat i)).find? (liveNode · uuid) =
      lsa.nodes.find? (liveNode · uuid) := by
    rw [← head?_filter, ← head?_filter, List.filter_filter]
    congr 1
    refine filter_congr fun e he => ?_
    cases hlive : liveNode e uuid with
    | false => exact Bool.false_and _
    | true => rw [hindex e he hlive, beq_self_eq_true, Bool.true_and]
  have hrows : lsa.nodes.filter (·.hiveIndex == UInt16.ofNat i) =
      hive.2.nodes.filterMap (nodeEntry (UInt16.ofNat i)) := by
    rw [h.nodes_eq]
    exact sectionEntries_at RemoteNodeEntry.hiveIndex (fun _ _ _ => nodeEntry_index) h.size_le hi
  rw [← hown, hrows, find?_filterMap]
  simp only [any_nodeEntry]

theorem WrittenFrom.findRemoteNode_eq (hi : hives[i]? = some hive)
    (hsole : ∀ (j : ℕ) (hive' : String × RemoteHiveState), hives[j]? = some hive' → claims
      hive'.2.nodes uuid = true → j = i)
    :
    findRemoteNode (some lsa) uuid =
      (liveHive (hiveEntry hive.1 hive.2)).bind fun live => hiveInfo live.1 hive.2.nodes uuid := by
  have hseveral : uuidListedBySeveralHives lsa uuid = false := by
    rw [h.several_eq_false]
    intro j hive' k hive'' hj hk hc hc'
    rw [hsole j hive' hj hc, hsole k hive'' hk hc']
  have hhive : hiveAt lsa.hives (UInt16.ofNat i) = liveHive (hiveEntry hive.1 hive.2) := by
    rw [hiveAt_eq, h.toNat_index hi, h.hives_eq, getElem?_map, hi, map_some, bind_some]
  rw [findRemoteNode, bind_some, hseveral, if_neg Bool.false_ne_true, h.find_live hi hsole]
  cases hfind : hive.2.nodes.find? (·.claims uuid) with
  | none =>
    have hnone : ∀ live : String × ℕ, hiveInfo live.1 hive.2.nodes uuid = none := by
      intro live
      rw [hiveInfo, hfind, map_none]
    simp only [hnone, bind_none, bind_fun_none]
  | some node =>
    have hclaims := find?_some hfind
    rw [← any_nodeEntry (j := UInt16.ofNat i), Option.any_eq_true] at hclaims
    obtain ⟨e, hentry, -⟩ := hclaims
    have hindex := nodeEntry_index hentry
    rw [bind_some, hentry, bind_some, hindex, hhive]
    obtain ⟨parsed, -, rfl⟩ := map_eq_some_iff.mp hentry
    cases liveHive (hiveEntry hive.1 hive.2) with
    | none => rfl
    | some live =>
      rw [map_some, bind_some, hiveInfo, hfind, map_some]
      rfl

end

end

/-! ### What the published link state answers -/

/-- Every hive's entry is as LSAs leave it: fresh or stale, and its nodes are on it. -/
def Tidy (state : LsaState) : Prop :=
  ∀ hive st, state.lookup hive = some st → (st.flags = 0 ∨ st.flags = flagStale) ∧
    ∀ node ∈ st.nodes, nodeIsOnHive node.name hive = true ∧ FitsHiveId hive

/-- A snapshot resolves exactly the UUIDs that one hive alone claims, to that hive unless it is
stale, and lists every UUID that another hive claims. -/
structure Answers (own : String) (localNodes : List LsaNode) (state : LsaState)
    (snapshot : Option LsaSnapshot) : Prop where
  direct : ∀ uuid info, findRemoteNode snapshot uuid = some info ↔
    SoleClaim own localNodes (advertised state) uuid info.hiveId ∧
      isStale state info.hiveId = false ∧
        hiveInfo info.hiveId (advertised state info.hiveId) uuid = some info
  listed : ∀ uuid hive, hive ≠ own → claims (advertised state hive) uuid = true →
    uuid ∈ WanRouter.lsaListedUuids snapshot

section

variable {side : LocalSide} {state : LsaState} {now : ℕ} {lsa : LsaSnapshot} {uuid : Uuid}
  {hive : String} {st : RemoteHiveState}

theorem advertised_of_lookup (h : state.lookup hive = some st) : advertised state hive = st.nodes := by
  rw [advertised, h, map_some, getD_some]

theorem lookup_of_claims (h : claims (advertised state hive) uuid = true) :
    ∃ st, state.lookup hive = some st ∧ claims st.nodes uuid = true := by
  cases hl : state.lookup hive with
  | none =>
    rw [advertised, hl] at h
    cases h
  | some st =>
    rw [advertised_of_lookup hl] at h
    exact ⟨st, rfl, h⟩

theorem mem_otherHives_iff :
    (hive, st) ∈ otherHives side state ↔ state.lookup hive = some st ∧ hive ≠ side.hiveId := by
  rw [otherHives, mem_insertionSort, List.mem_map, ← AList.mem_entries_iff]
  constructor
  · rintro ⟨e, he, heq⟩
    obtain ⟨hmem, hne⟩ := mem_filter.mp he
    cases heq
    exact ⟨hmem, of_decide_eq_true hne⟩
  · rintro ⟨hmem, hne⟩
    exact ⟨⟨hive, st⟩, mem_filter.mpr ⟨hmem, decide_eq_true hne⟩, rfl⟩

theorem otherHives_nodup : ((otherHives side state).map fst).Nodup := by
  have hperm : ((otherHives side state).map fst).Perm
      (((state.entries.filter (·.1 ≠ side.hiveId)).map fun e => (e.1, e.2)).map fst) :=
    (perm_insertionSort _ _).map fst
  rw [hperm.nodup_iff, List.map_map]
  exact state.nodupKeys.sublist filter_sublist

theorem claims_published (hi : (publishedHives side state now)[i]? = some entry)
    (hc : claims entry.2.nodes uuid = true) :
    (i = 0 ∧ claims (localLsaNodes side.nodes side.peerNodes) uuid = true) ∨
      entry.1 ≠ side.hiveId ∧ claims (advertised state entry.1) uuid = true := by
  cases i with
  | zero =>
    cases hi
    exact .inl ⟨rfl, hc⟩
  | succ i =>
    have hmem : (entry.1, entry.2) ∈ otherHives side state := mem_of_getElem? hi
    obtain ⟨hl, hne⟩ := mem_otherHives_iff.mp hmem
    rw [← advertised_of_lookup hl] at hc
    exact .inr ⟨hne, hc⟩

theorem exists_place (now : ℕ) (hl : state.lookup hive = some st) (hne : hive ≠ side.hiveId) :
    ∃ i, (publishedHives side state now)[i + 1]? = some (hive, st) := by
  obtain ⟨i, hi⟩ := mem_iff_getElem?.mp (mem_otherHives_iff.mpr ⟨hl, hne⟩)
  exact ⟨i, hi⟩

theorem place_unique {j : ℕ} {entry' : String × RemoteHiveState}
    (hi : (publishedHives side state now)[i]? = some entry)
    (hj : (publishedHives side state now)[j]? = some entry') (hname : entry.1 = entry'.1) :
    i = j := by
  have hother : ∀ entry ∈ otherHives side state, entry.1 ≠ side.hiveId :=
    fun entry hmem => (mem_otherHives_iff.mp hmem).2
  cases i with
  | zero =>
    cases j with
    | zero => rfl
    | succ j =>
      cases hi
      exact absurd hname.symm (hother entry' (mem_of_getElem? hj))
  | succ i =>
    cases j with
    | zero =>
      cases hj
      exact absurd hname (hother entry (mem_of_getElem? hi))
    | succ j =>
      rw [publishedHives, getElem?_cons_succ] at hi hj
      have hlt : i < ((otherHives side state).map fst).length := by
        rw [length_map]
        exact (List.getElem?_eq_some_iff.mp hi).1
      congr 1
      refine (getElem?_inj hlt otherHives_nodup).mp ?_
      rw [getElem?_map, getElem?_map, hi, hj, map_some, map_some, hname]

theorem liveHive_self : liveHive (hiveEntry side.hiveId (selfState side now)) = none := by
  have hself : (flagActive ||| hiveFlagSelf) &&& hiveFlagSelf ≠ 0 := by decide
  unfold liveHive
  split_ifs with hlen hown hstale
  · rfl
  · rfl
  · rfl
  · exact absurd hself hown

theorem liveHive_other (htidy : Tidy state) (hl : state.lookup hive = some st)
    (hc : claims st.nodes uuid = true) :
    liveHive (hiveEntry hive st) =
      if isStale state hive then none else some (hive, st.lastUpdated) := by
  obtain ⟨hflags, hnodes⟩ := htidy hive st hl
  obtain ⟨node, hnode, -⟩ := List.any_eq_true.mp hc
  obtain ⟨hon, hfits⟩ := hnodes node hnode
  have hlen : (hiveEntry hive st).hiveIdLen ≠ 0 := by
    have hne : hive ≠ "" := by
      unfold nodeIsOnHive at hon
      rw [Bool.and_eq_true, bne_iff_ne] at hon
      exact hon.1
    have hpos : (asBytes hive).length ≠ 0 := by
      rw [Ne, length_eq_zero_iff, asBytes_eq_nil]
      exact hne
    have hcut : (copyBytesWithLen (zeroBytes 64) hive).2 = min (asBytes hive).length 64 := by
      simp only [copyBytesWithLen, zeroBytes, length_replicate]
    change (copyBytesWithLen (zeroBytes 64) hive).2 ≠ 0
    rw [hcut]
    omega
  have hstale : isStale state hive = (st.flags &&& flagStale != 0) := by
    rw [isStale, hl, any_some]
  have hentry : (hiveEntry hive st).flags = st.flags := rfl
  rw [liveHive, if_neg hlen, hentry, hiveEntry_id st hfits, hstale]
  rcases hflags with hfresh | hmarked
  · rw [hfresh]
    rfl
  · rw [hmarked]
    rfl

theorem mem_lsaListedUuids (hw : WrittenFrom (publishedHives side state now) lsa)
    (hi : (publishedHives side state now)[i]? = some entry)
    (hc : claims entry.2.nodes uuid = true) : uuid ∈ WanRouter.lsaListedUuids (some lsa) := by
  obtain ⟨e, he, hlive, -⟩ := hw.exists_live hi hc
  obtain ⟨hname, huuid⟩ := (liveNode_iff_of_written hw he).mp hlive
  rw [WanRouter.lsaListedUuids, map_some, getD_some]
  exact List.mem_map.mpr ⟨e, mem_filter.mpr ⟨he, decide_eq_true hname⟩, huuid⟩

theorem answers_of_written (htidy : Tidy state)
    (hw : WrittenFrom (publishedHives side state now) lsa) :
    Answers side.hiveId (localLsaNodes side.nodes side.peerNodes) state (some lsa) where
  direct uuid info := by
    constructor
    · intro h
      have hseveral : uuidListedBySeveralHives lsa uuid = false := by
        by_contra hs
        rw [findRemoteNode, bind_some, if_pos (Bool.eq_true_of_not_eq_false hs)] at h
        cases h
      have hfound : ∃ e ∈ lsa.nodes, liveNode e uuid = true := by
        rw [findRemoteNode, bind_some, hseveral, if_neg Bool.false_ne_true] at h
        obtain ⟨e, hfind, -⟩ := bind_eq_some_iff.mp h
        have hlive := find?_some hfind
        exact ⟨e, mem_of_find?_eq_some hfind, hlive⟩
      obtain ⟨e, he, hlive⟩ := hfound
      obtain ⟨i, entry, hi, hc, -⟩ := hw.mem_live he hlive
      have hsole : ∀ (j : ℕ) (entry' : String × RemoteHiveState),
          (publishedHives side state now)[j]? = some entry' →
            claims entry'.2.nodes uuid = true → j = i :=
        fun j entry' hj hc' => hw.several_eq_false.mp hseveral j entry' i entry hj hi hc' hc
      rw [hw.findRemoteNode_eq hi hsole] at h
      obtain ⟨live, hlive, hinfo⟩ := bind_eq_some_iff.mp h
      have hplace : i ≠ 0 := by
        rintro rfl
        cases hi
        rw [liveHive_self] at hlive
        cases hlive
      obtain ⟨k, rfl⟩ := Nat.exists_eq_succ_of_ne_zero hplace
      obtain ⟨hl, hne⟩ := mem_otherHives_iff.mp (show (entry.1, entry.2) ∈ otherHives side state from
        mem_of_getElem? hi)
      rw [liveHive_other htidy hl hc] at hlive
      split_ifs at hlive with hstale
      cases hlive
      obtain ⟨hid, -⟩ := hiveInfo_eq_some hinfo
      rw [hid, advertised_of_lookup hl]
      refine ⟨⟨hne, ?_, ?_, ?_⟩, Bool.eq_false_of_not_eq_true hstale, hinfo⟩
      · rw [advertised_of_lookup hl]
        exact hc
      · intro other hother hclaims
        obtain ⟨st, hl', hc'⟩ := lookup_of_claims hclaims
        obtain ⟨j, hj⟩ := exists_place now hl' hother
        have hji := hsole (j + 1) (other, st) hj hc'
        rw [hji, hi] at hj
        rw [Option.some.inj hj]
      · by_contra hlocal
        have hzero := hsole 0 (side.hiveId, selfState side now) rfl (Bool.eq_true_of_not_eq_false hlocal)
        cases hzero
    · rintro ⟨⟨hne, hclaimed, hothers, hlocal⟩, hstale, hinfo⟩
      obtain ⟨st, hl, hc⟩ := lookup_of_claims hclaimed
      obtain ⟨i, hi⟩ := exists_place now hl hne
      have hsole : ∀ (j : ℕ) (entry' : String × RemoteHiveState),
          (publishedHives side state now)[j]? = some entry' →
            claims entry'.2.nodes uuid = true → j = i + 1 := by
        intro j entry' hj hc'
        rcases claims_published hj hc' with ⟨-, hown⟩ | ⟨hne', hclaims⟩
        · rw [hlocal] at hown
          cases hown
        · exact place_unique hj hi (hothers entry'.1 hne' hclaims)
      rw [hw.findRemoteNode_eq hi hsole, liveHive_other htidy hl hc, hstale,
        if_neg Bool.false_ne_true, bind_some, ← advertised_of_lookup hl]
      exact hinfo
  listed uuid hive hne hclaims := by
    obtain ⟨st, hl, hc⟩ := lookup_of_claims hclaims
    obtain ⟨i, hi⟩ := exists_place now hl hne
    exact mem_lsaListedUuids hw hi hc

theorem written_of_fits (region : LsaRegion) (h : Fits (publishedHives side state now)) :
    WrittenFrom (publishedHives side state now)
      (writeLsaState region side state now).1.readSnapshot := by
  obtain ⟨-, hhives, hnodes, -⟩ := writeLsaState_of_fits region side state now h
  exact ⟨h.count, hhives, hnodes⟩

end

def SameLink (state state' : LsaState) : Prop :=
  ∀ hive, advertised state' hive = advertised state hive ∧
    isStale state' hive = isStale state hive

theorem Answers.congr {own : String} {localNodes : List LsaNode} {state state' : LsaState}
    (h : Answers own localNodes state snapshot)
    (hsame : SameLink state state') : Answers own localNodes state' snapshot := by
  have hadvertised : advertised state' = advertised state := funext fun hive => (hsame hive).1
  have hstale : isStale state' = isStale state := funext fun hive => (hsame hive).2
  constructor
  · intro uuid info
    rw [hadvertised, hstale]
    exact h.direct uuid info
  · intro uuid hive hne hclaims
    rw [hadvertised] at hclaims
    exact h.listed uuid hive hne hclaims

theorem answers_empty (own : String) (localNodes : List LsaNode)
    (h : ∀ uuid, findRemoteNode snapshot uuid = none) :
    Answers own localNodes ∅ snapshot where
  direct uuid info := by
    rw [h uuid]
    constructor
    · intro hinfo
      cases hinfo
    · rintro ⟨hsole, -⟩
      cases hsole.claimed
  listed uuid hive _ hclaims := by cases hclaims

end Fluxbee.Router
