import Fluxbee.Router.Glob
import Fluxbee.Router.RouteIsolation

/-! A node comes before every route: no pattern that matches a name has a longer fixed part than the
name has bytes, and among exact names the distance decides. -/
namespace Fluxbee.Router
open Text Shm Lsa List Option

theorem asBytes_eq_flatMap (s : String) : asBytes s = s.toList.flatMap String.utf8EncodeChar := by
  have h : (String.ofList s.toList).toByteArray = s.toList.utf8Encode := String.toByteArray_ofList
  rw [String.ofList_toList] at h
  rw [asBytes, h, List.utf8Encode, data_toByteArray, List.toList_toArray]

theorem Expands.countP_le {p t : List UInt8} (h : Expands p t) : p.countP (· ≠ star) ≤ t.length := by
  induction h with
  | nil => rfl
  | byte b h ih =>
    rw [countP_cons, length_cons]
    split_ifs <;> omega
  | fill bytes h ih =>
    rw [countP_cons_of_neg (by simp), length_append]
    omega

theorem countP_encode_pos {c : Char} (hc : c ≠ '*') :
    0 < (String.utf8EncodeChar c).countP (· ≠ star) := by
  have hval : c.val.toNat ≠ 42 := fun h => hc (Char.ext (UInt32.toNat_inj.mp h))
  unfold String.utf8EncodeChar
  dsimp only
  generalize c.val.toNat = v at hval
  split_ifs <;> refine countP_pos_iff.mpr ⟨_, mem_cons_self, ?_⟩ <;>
    simp [star, ← UInt8.toNat_inj] <;> omega

theorem length_fixed_le (cs : List Char) : (cs.filter (· ≠ '*')).length ≤
    (cs.flatMap String.utf8EncodeChar).countP (· ≠ star) := by
  induction cs with
  | nil => rfl
  | cons c rest ih =>
    rw [flatMap_cons, countP_append, filter_cons]
    split_ifs with hc
    · have := countP_encode_pos (of_decide_eq_true hc)
      rw [length_cons]
      omega
    · omega

variable {entry : FibEntry}

theorem specificity_le {target : String}
    (h : patternMatchKind entry.matchKind entry.pattern target = true) :
    (fibSpecificity entry).1 ≤ (asBytes target).length ∧ (fibSpecificity entry).2 ≤ 3 := by
  unfold patternMatchKind at h
  unfold fibSpecificity
  split_ifs at h ⊢ with hexact hfront hglob
  · rw [beq_iff_eq.mp h]
    exact ⟨le_rfl, le_rfl⟩
  · obtain ⟨rest, hrest⟩ := isPrefixOf_iff_prefix.mp h
    have hbytes : asBytes (trimDotStars entry.pattern) ++ rest.flatMap String.utf8EncodeChar =
        asBytes target := by
      rw [asBytes_eq_flatMap, asBytes_eq_flatMap, ← flatMap_append, hrest]
    rw [← hbytes, length_append]
    exact ⟨Nat.le_add_right _ _, Nat.le_succ 2⟩
  · have hexpands := (wildcardMatch_eq_true_iff.mp h).expands
    refine ⟨(length_fixed_le _).trans ?_, Nat.succ_le_succ (Nat.zero_le 2)⟩
    rw [← asBytes_eq_flatMap]
    exact hexpands.countP_le

theorem not_fibBefore {node entry : FibEntry} (hexact : node.matchKind = matchExact)
    (h : patternMatchKind entry.matchKind entry.pattern node.pattern = true)
    (hdistance : node.adminDistance < entry.adminDistance) : ¬ FibBefore entry node := by
  obtain ⟨hlen, hrank⟩ := specificity_le h
  have hnode : fibSpecificity node = ((asBytes node.pattern).length, 3) := if_pos hexact
  intro hle
  unfold FibBefore fibKey at hle
  rw [hnode] at hle
  simp only [Prod.Lex.toLex_le_toLex, OrderDual.toDual_lt_toDual, OrderDual.toDual_inj] at hle
  omega

section
variable {src : NodeHandle} {nodes : Nodes} {info : Meta} {target : String}

theorem matches_of_answer (h : (exactAnswer src nodes info target entry).isSome) :
    patternMatchKind entry.matchKind entry.pattern target = true := by
  unfold exactAnswer at h
  split_ifs at h with hmatch
  · exact hmatch
  · cases h

theorem exactAnswer_isSome (hexact : entry.matchKind = matchExact) (hname : entry.pattern = target)
    (hanswer : (entryRoute src nodes info target entry).isSome) :
    (exactAnswer src nodes info target entry).isSome := by
  rwa [exactAnswer, if_pos (by simp [patternMatchKind, hexact, hname])]

theorem resolve_append {node : FibEntry} {l m : List FibEntry} (hnode : node ∈ l)
    (hexact : node.matchKind = matchExact) (hname : node.pattern = target)
    (hanswer : (entryRoute src nodes info target node).isSome)
    (hfar : ∀ entry ∈ m, node.adminDistance < entry.adminDistance) :
    resolveByNameInner src nodes ((l ++ m).insertionSort FibBefore) info target =
      resolveByNameInner src nodes (l.insertionSort FibBefore) info target := by
  unfold resolveByNameInner
  rw [FirstMatch.findSome?_insertionSort_append FibBefore hnode]
  · exact exactAnswer_isSome hexact hname hanswer
  · subst hname
    exact fun entry hentry h => not_fibBefore hexact (matches_of_answer h) (hfar entry hentry)

theorem lsaNodeEntry_eq {hives : List RemoteHiveEntry} {node : RemoteNodeEntry}
    (h : lsaNodeEntry hives node = some entry) : ∃ hive, entry.matchKind = matchExact ∧
      entry.adminDistance = adminDistanceLsa ∧ entry.nextHop = some (.hive hive) ∧
      ∀ src nodes info target, entryRoute src nodes info target entry =
        some (unlessBlocked src info entry.pattern entry.vpnId (.forwardHive hive)) := by
  unfold lsaNodeEntry at h
  split_ifs at h
  obtain ⟨hive, -, rfl⟩ := map_eq_some_iff.mp h
  exact ⟨hive.1, rfl, rfl, rfl, fun _ _ _ _ => rfl⟩

theorem lsaEntries_distance {lsa : LsaSnapshot} (h : entry ∈ lsaEntries lsa) :
    entry.adminDistance = adminDistanceLsa := by
  rcases mem_append.mp h with h | h
  · obtain ⟨node, -, h⟩ := mem_filterMap.mp h
    obtain ⟨hive, -, hdistance, -⟩ := lsaNodeEntry_eq h
    exact hdistance
  · obtain ⟨route, -, h⟩ := mem_filterMap.mp h
    unfold lsaRouteEntry at h
    split_ifs at h
    obtain ⟨hive, -, rfl⟩ := map_eq_some_iff.mp h
    rfl

variable {peerNodes : PeerNodes} {routes : List StaticRoute} {lsa : Option LsaSnapshot}
  {reach : Reachability}

/-- A connected node of the name. -/
def Connected (nodes : Nodes) (peerNodes : PeerNodes) (target : String) : Prop :=
  (∃ uuid handle, nodes.lookup uuid = some handle ∧ handle.name = target) ∨
    ∃ uuid node, peerNodes.lookup uuid = some node ∧ node.name = target

theorem fibEntries_distance (h : entry ∈ routes.map staticRouteEntry ++
    ((lsa.map lsaEntries).getD [] ++ reach.values.map reachableEntry)) :
    0 < entry.adminDistance := by
  rcases mem_append.mp h with h | h
  · obtain ⟨route, -, rfl⟩ := mem_map.mp h
    exact Nat.one_pos
  · rcases mem_append.mp h with h | h
    · cases lsa with
      | none => cases h
      | some snapshot =>
        rw [lsaEntries_distance (show entry ∈ lsaEntries snapshot from h)]
        exact Nat.two_pos
    · obtain ⟨vouched, -, rfl⟩ := mem_map.mp h
      exact Nat.succ_pos 2

/-- A table with an entry that answers gives the answer of one of its entries. -/
theorem resolve_mem {node : FibEntry} {l : List FibEntry} (hnode : node ∈ l)
    (hanswer : (exactAnswer src nodes info target node).isSome) :
    ∃ entry ∈ l, exactAnswer src nodes info target entry =
      some (resolveByNameInner src nodes (l.insertionSort FibBefore) info target) := by
  have hsome : ((l.insertionSort FibBefore).findSome? (exactAnswer src nodes info target)).isSome :=
    findSome?_isSome_iff.mpr ⟨node, (mem_insertionSort _).mpr hnode, hanswer⟩
  obtain ⟨route, hroute⟩ := Option.isSome_iff_exists.mp hsome
  obtain ⟨entry, hentry, heq⟩ := exists_of_findSome?_eq_some hroute
  refine ⟨entry, (mem_insertionSort _).mp hentry, ?_⟩
  rw [heq, resolveByNameInner, hroute, getD_some]

theorem exactAnswer_exact (hexact : entry.matchKind = matchExact) {route : ResolvedRoute}
    (h : exactAnswer src nodes info target entry = some route) :
    entry.pattern = target ∧ entryRoute src nodes info target entry = some route := by
  unfold exactAnswer at h
  split_ifs at h with hmatch
  refine ⟨?_, h⟩
  simpa [patternMatchKind, hexact] using hmatch

/-- The answer of a connected node of the name: delivery, or the forward to its router, unless the
VPNs keep the two apart. -/
def NodeAnswer (src : NodeHandle) (nodes : Nodes) (peerNodes : PeerNodes) (info : Meta)
    (target : String) (route : ResolvedRoute) : Prop :=
  (∃ uuid handle, nodes.lookup uuid = some handle ∧ handle.name = target ∧
      route = unlessBlocked src info target handle.vpnId (.deliver uuid)) ∨
    ∃ uuid node, peerNodes.lookup uuid = some node ∧ node.name = target ∧
      route = unlessBlocked src info target node.vpnId (.forwardRouter node.routerUuid)

theorem nodeAnswer_of_mem {route : ResolvedRoute}
    (hentry : entry ∈ nodes.entries.map (fun node => localNodeEntry node.1 node.2) ++
      peerNodes.values.map peerNodeEntry)
    (h : exactAnswer src nodes info target entry = some route) :
    NodeAnswer src nodes peerNodes info target route := by
  rcases mem_append.mp hentry with hmem | hmem
  · obtain ⟨⟨uuid, handle⟩, hnode, rfl⟩ := mem_map.mp hmem
    obtain ⟨hname, hroute⟩ := exactAnswer_exact rfl h
    have hlookup := AList.mem_entries_iff.mp hnode
    simp only [entryRoute, localNodeEntry, hlookup, map_some, Option.some.injEq] at hroute
    exact .inl ⟨uuid, handle, hlookup, hname, by rw [← hroute, show handle.name = target from hname]⟩
  · obtain ⟨node, hnode, rfl⟩ := mem_map.mp hmem
    obtain ⟨uuid, hlookup⟩ := AList.mem_values.mp hnode
    obtain ⟨hname, hroute⟩ := exactAnswer_exact rfl h
    simp only [entryRoute, peerNodeEntry, Option.some.injEq] at hroute
    exact .inr ⟨uuid, node, hlookup, hname, by rw [← hroute, show node.name = target from hname]⟩

/-- The snapshot lists the name as a node of the hive, which is live. -/
def Lists (snapshot : LsaSnapshot) (target : String) (entry : FibEntry) : Prop :=
  ∃ node ∈ snapshot.nodes, lsaNodeEntry snapshot.hives node = some entry ∧ entry.pattern = target

def Unrouted (routes : List StaticRoute) (snapshot : LsaSnapshot) (target : String) : Prop :=
  (∀ route ∈ routes, patternMatchKind route.matchKind route.pattern target = false) ∧
    ∀ route ∈ snapshot.routes, ∀ entry, lsaRouteEntry snapshot.hives route = some entry →
      patternMatchKind entry.matchKind entry.pattern target = false

end

/-- The answer for a connected node's name is that of a node of the name, as without routes; and a
hub's vouching for a name that an LSA lists does not count: without a node or a route for it, the
message goes to a hive that lists it. -/
theorem node_before_route {src : NodeHandle} {nodes : Nodes} {peerNodes : PeerNodes}
    {routes : List StaticRoute} {lsa : Option LsaSnapshot} {reach : Reachability} {info : Meta}
    {target : String} (hname : stripBack "@*" target = none) :
    (Connected nodes peerNodes target →
      resolveByName src nodes (rebuildFib nodes peerNodes routes lsa reach) info target =
        resolveByName src nodes (rebuildFib nodes peerNodes [] none ∅) info target ∧
      NodeAnswer src nodes peerNodes info target
        (resolveByName src nodes (rebuildFib nodes peerNodes routes lsa reach) info target)) ∧
    ∀ snapshot ∈ lsa, (∃ entry, Lists snapshot target entry) →
      resolveByName src nodes (rebuildFib nodes peerNodes routes lsa reach) info target =
        resolveByName src nodes (rebuildFib nodes peerNodes routes lsa ∅) info target ∧
      (¬ Connected nodes peerNodes target → Unrouted routes snapshot target →
        ∃ entry hive, Lists snapshot target entry ∧ entry.nextHop = some (.hive hive) ∧
          resolveByName src nodes (rebuildFib nodes peerNodes routes lsa reach) info target =
            unlessBlocked src info target entry.vpnId (.forwardHive hive)) := by
  rw [resolveByName_of_named _ _ _ _ hname, resolveByName_of_named _ _ _ _ hname,
    resolveByName_of_named _ _ _ _ hname]
  unfold rebuildFib
  constructor
  · intro hnode
    have hbare : fibEntries nodes peerNodes [] none ∅ =
        nodes.entries.map (fun node => localNodeEntry node.1 node.2) ++
          peerNodes.values.map peerNodeEntry := by
      simp [fibEntries, AList.values]
    obtain ⟨node, hmem, hexact, hnear, hnamed, hanswer⟩ : ∃ node ∈
        fibEntries nodes peerNodes [] none ∅, node.matchKind = matchExact ∧
          node.adminDistance = 0 ∧ node.pattern = target ∧ (entryRoute src nodes info target
            node).isSome := by
      rw [hbare]
      rcases hnode with ⟨uuid, handle, hlookup, hnamed⟩ | ⟨uuid, node, hlookup, hnamed⟩
      · have hentry := AList.mem_entries_iff.mpr hlookup
        refine ⟨_, mem_append_left _ (mem_map.mpr ⟨_, hentry, rfl⟩), rfl, rfl, hnamed, ?_⟩
        simp [entryRoute, localNodeEntry, hlookup]
      · have hentry := AList.mem_values.mpr ⟨uuid, hlookup⟩
        exact ⟨_, mem_append_right _ (mem_map.mpr ⟨_, hentry, rfl⟩), rfl, rfl, hnamed, rfl⟩
    have hsame : resolveByNameInner src nodes
        ((fibEntries nodes peerNodes routes lsa reach).insertionSort FibBefore) info target =
        resolveByNameInner src nodes
          ((fibEntries nodes peerNodes [] none ∅).insertionSort FibBefore) info target := by
      rw [hbare] at hmem ⊢
      rw [fibEntries, ← append_assoc]
      exact resolve_append hmem hexact hnamed hanswer fun entry h => hnear ▸ fibEntries_distance h
    refine ⟨hsame, ?_⟩
    obtain ⟨entry, hentry, heq⟩ := resolve_mem hmem (exactAnswer_isSome hexact hnamed hanswer)
    rw [hsame]
    exact nodeAnswer_of_mem (hbare ▸ hentry) heq
  · rintro snapshot hsnapshot ⟨entry, node, hnode, hentry, hnamed⟩
    cases hsnapshot
    have hsplit : ∀ reach, fibEntries nodes peerNodes routes (some snapshot) reach =
        fibEntries nodes peerNodes routes (some snapshot) ∅ ++ reach.values.map reachableEntry := by
      intro reach
      simp [fibEntries, AList.values]
    have hmem : entry ∈ fibEntries nodes peerNodes routes (some snapshot) ∅ := by
      have hlisted : entry ∈ lsaEntries snapshot :=
        mem_append_left _ (mem_filterMap.mpr ⟨node, hnode, hentry⟩)
      simp [fibEntries, hlisted]
    obtain ⟨hive, hexact, hdistance, hhop, hanswer⟩ := lsaNodeEntry_eq hentry
    have hanswers : (entryRoute src nodes info target entry).isSome := by rw [hanswer]; rfl
    have hsame : resolveByNameInner src nodes
        ((fibEntries nodes peerNodes routes (some snapshot) reach).insertionSort FibBefore) info
          target = resolveByNameInner src nodes
        ((fibEntries nodes peerNodes routes (some snapshot) ∅).insertionSort FibBefore) info
          target := by
      rw [hsplit]
      refine resolve_append hmem hexact hnamed hanswers fun vouched h => ?_
      obtain ⟨vouched, -, rfl⟩ := mem_map.mp h
      rw [hdistance]
      exact Nat.lt_succ_self 2
    refine ⟨hsame, fun halone hunrouted => ?_⟩
    rw [hsame]
    obtain ⟨found, hfound, heq⟩ :=
      resolve_mem hmem (exactAnswer_isSome hexact hnamed hanswers)
    have hmatch := matches_of_answer (Option.isSome_of_eq_some heq)
    rw [fibEntries, ← append_assoc] at hfound
    rcases mem_append.mp hfound with hnear | hfound
    · refine absurd ?_ halone
      rcases nodeAnswer_of_mem hnear heq with ⟨uuid, handle, h, hn, -⟩ | ⟨uuid, peer, h, hn, -⟩
      · exact .inl ⟨uuid, handle, h, hn⟩
      · exact .inr ⟨uuid, peer, h, hn⟩
    rcases mem_append.mp hfound with hstatic | hfound
    · obtain ⟨route, hroute, rfl⟩ := mem_map.mp hstatic
      exact absurd hmatch (Bool.eq_false_iff.mp (hunrouted.1 route hroute))
    rcases mem_append.mp hfound with hlsa | hreach
    · rcases mem_append.mp hlsa with hlisted | hrouted
      · obtain ⟨other, hother, hentry'⟩ := mem_filterMap.mp hlisted
        obtain ⟨hive', hexact', -, hhop', hanswer'⟩ := lsaNodeEntry_eq hentry'
        obtain ⟨hnamed', hroute⟩ := exactAnswer_exact hexact' heq
        refine ⟨found, hive', ⟨other, hother, hentry', hnamed'⟩, hhop', ?_⟩
        rw [hanswer', Option.some.injEq, hnamed'] at hroute
        exact hroute.symm
      · obtain ⟨route, hroute, hentry'⟩ := mem_filterMap.mp hrouted
        exact absurd hmatch (Bool.eq_false_iff.mp (hunrouted.2 route hroute _ hentry'))
    · simp [AList.values] at hreach

/-- A node of this hive under a name that another hive lists and advertises a route for. -/
def Detour.nodes : Nodes := AList.insert (Uuid.uniform 1) ⟨"AI.a@edge", 0, 0⟩ ∅

theorem node_before_route_loud :
    (resolveByName Detour.sender Detour.nodes
      (rebuildFib Detour.nodes ∅ [] Detour.loud ∅) Detour.info "AI.a@edge" =
        resolveByName Detour.sender Detour.nodes (rebuildFib Detour.nodes ∅ [] none ∅) Detour.info
          "AI.a@edge" ∧
      NodeAnswer Detour.sender Detour.nodes ∅ Detour.info "AI.a@edge"
        (resolveByName Detour.sender Detour.nodes
          (rebuildFib Detour.nodes ∅ [] Detour.loud ∅) Detour.info "AI.a@edge")) ∧
    ∀ reach, resolveByName Detour.sender Detour.nodes
      (rebuildFib Detour.nodes ∅ [] Detour.loud reach) Detour.info "AI.a@edge" =
        resolveByName Detour.sender Detour.nodes (rebuildFib Detour.nodes ∅ [] Detour.loud ∅)
          Detour.info "AI.a@edge" :=
  ⟨(node_before_route (by decide)).1 (.inl ⟨Uuid.uniform 1, _, rfl, rfl⟩), fun reach =>
    ((node_before_route (by decide)).2 Detour.loud rfl ⟨_, Detour.node "AI.a@edge" 1, by decide,
      rfl, by decide⟩).1⟩

end Fluxbee.Router
