import Fluxbee.Lib.AssocMap
import Fluxbee.Lib.SlotTable
import Fluxbee.Shm.LsaRegion

/-! The region of one router: the nodes connected to it, written by the router alone and read by
its siblings. An operation is what it leaves once its write guard is dropped, and the snapshot is
what one pass reads with no writer inside. Of the header, the magic numbers, the sequence counter
and the limits are left out. -/
namespace Fluxbee.RouterShm
open Text Shm Lsa SlotTable Option AList Function

def maxNodes : ℕ := 1024

structure NodeEntry where
  uuid : Uuid
  name : List UInt8
  (nameLen vpnId : ℕ)
  flags : UInt16
  connectedAt : ℕ

def emptyNodeEntry : NodeEntry := ⟨zeroUuid, zeroBytes 256, 0, 0, 0, 0⟩

structure ShmHeader where
  routerUuid : Uuid
  (ownerPid ownerStartTime generation nodeCount createdAt updatedAt heartbeat : ℕ)
  hiveId : List UInt8
  hiveIdLen : ℕ
  routerName : List UInt8
  routerNameLen : ℕ
  isGateway : UInt8
  opaPolicyVersion : ℕ
  opaLoadStatus : UInt8

structure RouterRegion where
  header : ShmHeader
  nodes : Vector NodeEntry maxNodes

structure Owner where
  routerUuid : Uuid
  (hiveId routerName : String)
  isGateway : Bool
  pid : ℕ

def active (e : NodeEntry) : Bool := e.flags &&& flagActive ≠ 0

def countActiveNodes (nodes : Vector NodeEntry maxNodes) : ℕ := (nodes.toList.filter active).length

/-- The header of a region whose file was just created, all zeros before. -/
def initializeRouterHeader (o : Owner) (now : ℕ) : ShmHeader where
  routerUuid := o.routerUuid
  ownerPid := o.pid
  ownerStartTime := now
  generation := 1
  nodeCount := 0
  createdAt := now
  updatedAt := now
  heartbeat := now
  hiveId := (copyBytesWithLen (zeroBytes 64) o.hiveId).1
  hiveIdLen := (copyBytesWithLen (zeroBytes 64) o.hiveId).2
  routerName := (copyBytesWithLen (zeroBytes 64) o.routerName).1
  routerNameLen := (copyBytesWithLen (zeroBytes 64) o.routerName).2
  isGateway := if o.isGateway then 1 else 0
  opaPolicyVersion := 0
  opaLoadStatus := 0

namespace RouterRegion

def takeOver (r : RouterRegion) (o : Owner) (now : ℕ) : RouterRegion where
  nodes := Vector.replicate _ emptyNodeEntry
  header := { r.header with
    nodeCount := 0
    routerUuid := o.routerUuid
    ownerPid := o.pid
    ownerStartTime := now
    generation := min (r.header.generation + 1) (2 ^ 64 - 1)
    hiveId := (copyBytesWithLen (zeroBytes 64) o.hiveId).1
    hiveIdLen := (copyBytesWithLen (zeroBytes 64) o.hiveId).2
    routerName := (copyBytesWithLen (zeroBytes 64) o.routerName).1
    routerNameLen := (copyBytesWithLen (zeroBytes 64) o.routerName).2
    isGateway := if o.isGateway then 1 else 0
    updatedAt := now
    heartbeat := now }

/-- `previous` is the region as another process left it, where there is one. -/
def openOrCreate (previous : Option RouterRegion) (o : Owner) (now : ℕ) : RouterRegion :=
  match previous with
  | none => ⟨initializeRouterHeader o now, Vector.replicate _ emptyNodeEntry⟩
  | some r => r.takeOver o now

section
variable (r : RouterRegion)

def updateHeartbeat (now : ℕ) : RouterRegion :=
  { r with header := { r.header with heartbeat := now } }

def updateOpaStatus (policyVersion : ℕ) (loadStatus : UInt8) (now : ℕ) : RouterRegion :=
  if r.header.opaPolicyVersion = policyVersion ∧ r.header.opaLoadStatus = loadStatus then r
  else
    { r with header := { r.header with
        opaPolicyVersion := policyVersion, opaLoadStatus := loadStatus
        updatedAt := now, heartbeat := now } }

section
variable (nodeUuid : Uuid)

def ownSlot : Option (Fin maxNodes) :=
  position r.nodes maxNodes fun e => active e && e.uuid == nodeUuid

def freeSlot : Option (Fin maxNodes) :=
  position r.nodes maxNodes fun e => !active e

def nodeEntry (name : String) (vpnId connectedAt : ℕ) : NodeEntry where
  uuid := nodeUuid
  name := (copyBytesWithLen (zeroBytes 256) name).1
  nameLen := (copyBytesWithLen (zeroBytes 256) name).2
  vpnId := vpnId
  flags := flagActive
  connectedAt := connectedAt

def registerNode (name : String) (vpnId connectedAt now : ℕ) :
    RouterRegion × Except ShmError Unit :=
  if (asBytes name).length > 256 then (r, .error (.valueTooLong (asBytes name).length 256))
  else
    -- A node registered again keeps its own slot, although a hole may lie before it.
    match (r.ownSlot nodeUuid).or r.freeSlot with
    | none => (r, .error .slotFull)
    | some slot =>
      let nodes := put r.nodes slot (nodeEntry nodeUuid name vpnId connectedAt)
      (⟨{ r.header with
          nodeCount := countActiveNodes nodes, updatedAt := now, heartbeat := now }, nodes⟩, .ok ())

def unregisterNode (now : ℕ) : RouterRegion :=
  match r.ownSlot nodeUuid with
  | none => r
  | some slot =>
    let nodes := put r.nodes slot { emptyNodeEntry with flags := flagDeleted }
    ⟨{ r.header with
        nodeCount := countActiveNodes nodes, updatedAt := now, heartbeat := now }, nodes⟩

def updateNodeVpn (vpnId now : ℕ) : RouterRegion :=
  match r.ownSlot nodeUuid with
  | none => r
  | some slot =>
    ⟨{ r.header with updatedAt := now, heartbeat := now },
      put r.nodes slot { (r.nodes.get slot) with vpnId := vpnId }⟩

end

end

end RouterRegion

structure ShmHeaderSnapshot where
  routerUuid : Uuid
  (routerName hiveId : String)
  isGateway : Bool
  (nodeCount heartbeat generation opaPolicyVersion : ℕ)
  opaLoadStatus : UInt8

structure ShmSnapshot where
  header : ShmHeaderSnapshot
  nodes : List NodeEntry

/-- The loop of the reader: it stops as soon as it has as many nodes as the header counts. -/
def collectActive (nodeCount : ℕ) (snapshot : List NodeEntry) : List NodeEntry → List NodeEntry
  | [] => snapshot
  | node :: rest =>
    if snapshot.length ≥ nodeCount then snapshot
    else if active node then collectActive nodeCount (snapshot ++ [node]) rest
    else collectActive nodeCount snapshot rest

def readRouterSnapshot (r : RouterRegion) : ShmSnapshot where
  header :=
    { routerUuid := r.header.routerUuid
      routerName := bytesToString r.header.routerName r.header.routerNameLen
      hiveId := bytesToString r.header.hiveId r.header.hiveIdLen
      isGateway := r.header.isGateway ≠ 0
      nodeCount := r.header.nodeCount
      heartbeat := r.header.heartbeat
      generation := r.header.generation
      opaPolicyVersion := r.header.opaPolicyVersion
      opaLoadStatus := r.header.opaLoadStatus }
  nodes := collectActive r.header.nodeCount [] r.nodes.toList

theorem collectActive_eq (nodeCount : ℕ) (snapshot nodes : List NodeEntry) :
    collectActive nodeCount snapshot nodes =
      snapshot ++ (nodes.filter active).take (nodeCount - snapshot.length) := by
  induction nodes generalizing snapshot with
  | nil => simp [collectActive]
  | cons node rest ih =>
    rw [collectActive]
    by_cases hfull : snapshot.length ≥ nodeCount
    · rw [if_pos hfull, Nat.sub_eq_zero_of_le hfull, List.take_zero, List.append_nil]
    · rw [if_neg hfull]
      by_cases hactive : active node = true
      · have hleft : nodeCount - snapshot.length = nodeCount - (snapshot.length + 1) + 1 := by omega
        rw [if_pos hactive, ih, List.filter_cons_of_pos hactive, hleft, List.take_succ_cons,
          List.length_append, List.length_singleton, List.append_assoc, List.singleton_append]
      · rw [if_neg hactive, ih, List.filter_cons_of_neg hactive]

theorem nodes_readRouterSnapshot {r : RouterRegion}
    (h : r.header.nodeCount = countActiveNodes r.nodes) :
    (readRouterSnapshot r).nodes = entries active r.nodes := by
  change collectActive r.header.nodeCount [] r.nodes.toList = _
  rw [collectActive_eq, List.length_nil, Nat.sub_zero, List.nil_append, h, countActiveNodes]
  exact List.take_length

/-! ## What the router writes -/

inductive WriterOp where
  | takeOver (o : Owner) (now : ℕ)
  | register (nodeUuid : Uuid) (name : String) (vpnId connectedAt now : ℕ)
  | unregister (nodeUuid : Uuid) (now : ℕ)
  | updateVpn (nodeUuid : Uuid) (vpnId now : ℕ)
  | heartbeat (now : ℕ)
  | opaStatus (policyVersion : ℕ) (loadStatus : UInt8) (now : ℕ)

def RouterRegion.exec (r : RouterRegion) : WriterOp → RouterRegion × Except ShmError Unit
  | .takeOver o now => (r.takeOver o now, .ok ())
  | .register u name vpnId connectedAt now => r.registerNode u name vpnId connectedAt now
  | .unregister u now => (r.unregisterNode u now, .ok ())
  | .updateVpn u vpnId now => (r.updateNodeVpn u vpnId now, .ok ())
  | .heartbeat now => (r.updateHeartbeat now, .ok ())
  | .opaStatus version status now => (r.updateOpaStatus version status now, .ok ())

def RouterRegion.run (r : RouterRegion) (ops : List WriterOp) : RouterRegion :=
  ops.foldl (fun r op => (r.exec op).1) r

/-! ## What the region is for

A finite map from UUIDs to nodes, with room for so many. -/

structure NodeInfo where
  name : String
  (vpnId connectedAt : ℕ)

def NodeEntry.info (e : NodeEntry) : NodeInfo := ⟨bytesToString e.name e.nameLen, e.vpnId, e.connectedAt⟩

abbrev Registry := AList fun _ : Uuid => NodeInfo

namespace Registry

def register (m : Registry) (u : Uuid) (node : NodeInfo) : Registry × Except ShmError Unit :=
  if (asBytes node.name).length > 256 then (m, .error (.valueTooLong (asBytes node.name).length 256))
  else if u ∈ m ∨ m.keys.length < maxNodes then (m.insert u node, .ok ())
  else (m, .error .slotFull)

def exec (m : Registry) : WriterOp → Registry × Except ShmError Unit
  | .takeOver _ _ => (∅, .ok ())
  | .register u name vpnId connectedAt _ => m.register u ⟨name, vpnId, connectedAt⟩
  | .unregister u _ => (m.erase u, .ok ())
  | .updateVpn u vpnId _ => (m.modify u fun node => { node with vpnId := vpnId }, .ok ())
  | .heartbeat _ => (m, .ok ())
  | .opaStatus _ _ _ => (m, .ok ())

def run (m : Registry) (ops : List WriterOp) : Registry := ops.foldl (fun m op => (m.exec op).1) m

end Registry

/-! ## The simulation -/

/-- The active entries are the nodes of the map and the header counts them. -/
structure Shows (r : RouterRegion) (m : Registry) : Prop where
  table : ∃ M, Represents active NodeEntry.uuid r.nodes M ∧
    ∀ u, (M u).map NodeEntry.info = m.lookup u
  count : r.header.nodeCount = countActiveNodes r.nodes

variable {r : RouterRegion} {m : Registry}

theorem Shows.length_keys (h : Shows r m) : countActiveNodes r.nodes = m.keys.length := by
  obtain ⟨M, hrep, hinfo⟩ := h.table
  have hperm : ((entries active r.nodes).map NodeEntry.uuid).Perm m.keys := by
    apply (List.perm_ext_iff_of_nodup hrep.nodup_keys m.nodupKeys).mpr
    intro u
    change u ∈ (entries active r.nodes).map NodeEntry.uuid ↔ u ∈ m.keys
    rw [← mem_keys, ← lookup_isSome, ← hinfo u, isSome_map, List.mem_map]
    constructor
    · intro ⟨e, he, hu⟩
      rw [← hu, hrep.mem_entries.mp he]
      rfl
    · intro hsome
      obtain ⟨e, he⟩ := isSome_iff_exists.mp hsome
      have hkey := hrep.key_eq he
      exact ⟨e, hrep.mem_entries.mpr (hkey ▸ he), hkey⟩
  rw [← hperm.length_eq, List.length_map]
  rfl

theorem shows_blank {header : ShmHeader} (hcount : header.nodeCount = 0) :
    Shows ⟨header, Vector.replicate _ emptyNodeEntry⟩ ∅ := by
  have hdead : ∀ i : Fin maxNodes, active ((Vector.replicate maxNodes emptyNodeEntry).get i) = false := by
    intro i
    rw [get_replicate]
    rfl
  constructor
  · exact ⟨fun _ => none, represents_blank hdead, fun u => rfl⟩
  · rw [hcount, countActiveNodes]
    symm
    rw [List.length_eq_zero_iff, List.filter_eq_nil_iff]
    intro e he
    obtain ⟨i, hi⟩ := mem_toList_iff.mp he
    rw [← hi]
    exact Bool.not_eq_true _ ▸ hdead i

variable {u : Uuid} {i : Fin maxNodes} {name : String} {e : NodeEntry}

theorem ownSlot_some (h : r.ownSlot u = some i) :
    active (r.nodes.get i) = true ∧ (r.nodes.get i).uuid = u := by
  have hp := (position_some h).2
  rw [Bool.and_eq_true, beq_iff_eq] at hp
  exact hp

theorem Shows.ownSlot_isSome (h : Shows r m) : (r.ownSlot u).isSome ↔ u ∈ m := by
  obtain ⟨M, hrep, hinfo⟩ := h.table
  rw [← lookup_isSome, ← hinfo u, isSome_map]
  cases hslot : r.ownSlot u with
  | some i =>
    obtain ⟨hactive, hu⟩ := ownSlot_some hslot
    have hM := hrep.lookup hactive
    rw [hu] at hM
    rw [hM]
    simp
  | none =>
    cases hM : M u with
    | none => simp
    | some e =>
      obtain ⟨hu, hactive, i, hi⟩ := (hrep.value u e).mp hM
      have hp := position_none hslot i.isLt
      rw [hi, hactive, hu, beq_self_eq_true] at hp
      cases hp

theorem Shows.freeSlot_isSome (h : Shows r m) : (r.freeSlot).isSome ↔ m.keys.length < maxNodes := by
  have hlen : r.nodes.toList.length = maxNodes := by simp
  rw [← h.length_keys, countActiveNodes]
  cases hslot : r.freeSlot with
  | some i =>
    have hp := (position_some hslot).2
    have hmem : (r.nodes.get i) ∈ r.nodes.toList := mem_toList_iff.mpr ⟨i, rfl⟩
    have hlt := List.length_filter_lt_length_iff_exists.mpr ⟨(r.nodes.get i), hmem, by simpa using hp⟩
    rw [hlen] at hlt
    simpa using hlt
  | none =>
    have hall : r.nodes.toList.filter active = r.nodes.toList := by
      rw [List.filter_eq_self]
      intro e he
      obtain ⟨i, hi⟩ := mem_toList_iff.mp he
      have hp := position_none hslot i.isLt
      rw [hi] at hp
      simpa using hp
    rw [hall, hlen]
    simp

theorem slot_or_some (h : Shows r m) (hslot : (r.ownSlot u).or r.freeSlot = some i) :
    (active (r.nodes.get i) = true → (r.nodes.get i).uuid = u) ∧
      ∀ j : Fin maxNodes, j ≠ i → active (r.nodes.get j) = true → (r.nodes.get j).uuid ≠ u := by
  obtain ⟨M, hrep, -⟩ := h.table
  cases hown : r.ownSlot u with
  | some k =>
    rw [hown, some_or, some.injEq] at hslot
    subst hslot
    obtain ⟨hactive, hu⟩ := ownSlot_some hown
    constructor
    · intro _
      exact hu
    · intro j hj hlive heq
      exact hj (hrep.distinct j k hlive hactive (heq.trans hu.symm))
  | none =>
    rw [hown, none_or] at hslot
    have hdead := (position_some hslot).2
    constructor
    · intro hlive
      rw [hlive] at hdead
      cases hdead
    · intro j _ hlive heq
      have hp := position_none hown j.isLt
      rw [hlive, heq, beq_self_eq_true] at hp
      cases hp

theorem info_nodeEntry (u : Uuid) (vpnId connectedAt : ℕ) (h : (asBytes name).length ≤ 256) :
    (RouterRegion.nodeEntry u name vpnId connectedAt).info = ⟨name, vpnId, connectedAt⟩ := by
  simp only [NodeEntry.info, RouterRegion.nodeEntry, bytesToString_copyBytesWithLen h]

theorem active_nodeEntry {vpnId connectedAt : ℕ} :
    active (RouterRegion.nodeEntry u name vpnId connectedAt) = true := by
  change decide (flagActive &&& flagActive ≠ 0) = true
  decide

theorem lookup_put_live {M : Uuid → Option NodeEntry} {node : NodeInfo}
    (hinfo : ∀ v, (M v).map NodeEntry.info = m.lookup v) (hu : e.uuid = u) (he : e.info = node)
    (v : Uuid) :
    (update M e.uuid (some e) v).map NodeEntry.info = (m.insert u node).lookup v := by
  rw [lookup_insert_eq, update_apply, hu]
  by_cases hv : v = u
  · rw [if_pos hv, if_pos hv, map_some, he]
  · rw [if_neg hv, if_neg hv, hinfo]

theorem Shows.registerNode (h : Shows r m) (u : Uuid) (name : String) (vpnId connectedAt now : ℕ) :
    Shows (r.registerNode u name vpnId connectedAt now).1
        (m.register u ⟨name, vpnId, connectedAt⟩).1 ∧
      (r.registerNode u name vpnId connectedAt now).2 =
        (m.register u ⟨name, vpnId, connectedAt⟩).2 := by
  unfold RouterRegion.registerNode Registry.register
  by_cases hlong : (asBytes name).length > 256
  · rw [if_pos hlong, if_pos hlong]
    exact ⟨h, rfl⟩
  rw [if_neg hlong, if_neg hlong]
  -- A slot is found exactly when the map has room for the node.
  have hroom : ((r.ownSlot u).or r.freeSlot).isSome ↔ u ∈ m ∨ m.keys.length < maxNodes := by
    rw [isSome_or, Bool.or_eq_true, h.ownSlot_isSome, h.freeSlot_isSome]
  cases hslot : (r.ownSlot u).or r.freeSlot with
  | none =>
    rw [hslot] at hroom
    rw [if_neg (by simpa using hroom)]
    exact ⟨h, rfl⟩
  | some i =>
    rw [hslot] at hroom
    rw [if_pos (by simpa using hroom)]
    obtain ⟨M, hrep, hinfo⟩ := h.table
    obtain ⟨hkey, hfree⟩ := slot_or_some h hslot
    have hname := info_nodeEntry u vpnId connectedAt (Nat.le_of_not_gt hlong)
    have hput := hrep.put_live (e := RouterRegion.nodeEntry u name vpnId connectedAt)
      active_nodeEntry hkey hfree
    exact ⟨⟨⟨_, hput, lookup_put_live hinfo rfl hname⟩, rfl⟩, rfl⟩

theorem Shows.unregisterNode (h : Shows r m) (u : Uuid) (now : ℕ) :
    Shows (r.unregisterNode u now) (m.erase u) := by
  obtain ⟨M, hrep, hinfo⟩ := h.table
  unfold RouterRegion.unregisterNode
  cases hslot : r.ownSlot u with
  | none =>
    have hnone : u ∉ m := by
      rw [← h.ownSlot_isSome, hslot]
      simp
    refine ⟨⟨M, hrep, ?_⟩, h.count⟩
    intro v
    rw [lookup_erase_eq, hinfo]
    split_ifs with hv
    · rw [hv, AList.lookup_eq_none.mpr hnone]
    · rfl
  | some i =>
    obtain ⟨hactive, hu⟩ := ownSlot_some hslot
    have hput := hrep.put_dead (d := { emptyNodeEntry with flags := flagDeleted }) hactive rfl
    refine ⟨⟨_, hput, ?_⟩, rfl⟩
    intro v
    rw [lookup_erase_eq, update_apply, hu]
    split_ifs with hv
    · rfl
    · exact hinfo v

theorem countActiveNodes_put {nodes : Vector NodeEntry maxNodes}
    (hactive : active e = active (nodes.get i)) :
    countActiveNodes (put nodes i e) = countActiveNodes nodes := by
  have hmap : (put nodes i e).toList.map active = nodes.toList.map active := by
    apply List.ext_getElem
    · simp [put]
    · intro j hj hj'
      have hlt : j < maxNodes := by simpa using hj'
      have hget := get_put nodes i ⟨j, hlt⟩ e
      simp only [List.getElem_map, Vector.getElem_toList]
      change active ((put nodes i e).get ⟨j, hlt⟩) = active (nodes.get ⟨j, hlt⟩)
      rw [hget]
      split_ifs with hji
      · rw [hactive, ← hji]
      · rfl
  have hcount : ∀ l : List NodeEntry, (l.filter active).length = (l.map active).count true := by
    intro l
    rw [List.count, List.countP_map, ← List.countP_eq_length_filter]
    congr 1
    funext e
    simp
  rw [countActiveNodes, countActiveNodes, hcount, hcount, hmap]

theorem Shows.updateNodeVpn (h : Shows r m) (u : Uuid) (vpnId now : ℕ) :
    Shows (r.updateNodeVpn u vpnId now) (m.modify u fun node => { node with vpnId := vpnId }) := by
  obtain ⟨M, hrep, hinfo⟩ := h.table
  unfold RouterRegion.updateNodeVpn
  cases hslot : r.ownSlot u with
  | none =>
    have hnone : u ∉ m := by
      rw [← h.ownSlot_isSome, hslot]
      simp
    have hsame : m.modify u (fun node => { node with vpnId := vpnId }) = m := by
      rw [AList.modify, AList.lookup_eq_none.mpr hnone]
    rw [hsame]
    exact h
  | some i =>
    obtain ⟨hactive, hu⟩ := ownSlot_some hslot
    have hfree : ∀ j : Fin maxNodes, j ≠ i → active (r.nodes.get j) = true →
        (r.nodes.get j).uuid ≠ (r.nodes.get i).uuid := by
      intro j hj hlive heq
      exact hj (hrep.distinct j i hlive hactive heq)
    have hput := hrep.put_live (e := { (r.nodes.get i) with vpnId := vpnId }) hactive (fun _ => rfl) hfree
    have hnode : m.lookup u = some (r.nodes.get i).info := by
      rw [← hinfo, ← hu, hrep.lookup hactive, map_some]
    have hins : m.modify u (fun node => { node with vpnId := vpnId }) =
        m.insert u { (r.nodes.get i).info with vpnId := vpnId } := by
      rw [AList.modify, hnode]
    have hcount : countActiveNodes (put r.nodes i { (r.nodes.get i) with vpnId := vpnId }) =
        countActiveNodes r.nodes := countActiveNodes_put rfl
    rw [hins]
    exact ⟨⟨_, hput, lookup_put_live hinfo hu rfl⟩, h.count.trans hcount.symm⟩

/-- Each operation of the router leaves a region that shows the map after the same operation, and
answers as the map does. -/
theorem Shows.exec (h : Shows r m) (op : WriterOp) :
    Shows (r.exec op).1 (m.exec op).1 ∧ (r.exec op).2 = (m.exec op).2 := by
  cases op <;> simp only [RouterRegion.exec, Registry.exec, and_true]
  case takeOver o now => exact shows_blank rfl
  case register u name vpnId connectedAt now => exact h.registerNode u name vpnId connectedAt now
  case unregister u now => exact h.unregisterNode u now
  case updateVpn u vpnId now => exact h.updateNodeVpn u vpnId now
  case heartbeat now => exact ⟨h.table, h.count⟩
  case opaStatus version status now =>
    unfold RouterRegion.updateOpaStatus
    split_ifs
    · exact h
    · exact ⟨h.table, h.count⟩

theorem Shows.run (h : Shows r m) (ops : List WriterOp) : Shows (r.run ops) (m.run ops) := by
  induction ops generalizing r m with
  | nil => exact h
  | cons op rest ih => exact ih (h.exec op).1

theorem shows_openOrCreate (previous : Option RouterRegion) (o : Owner) (now : ℕ) :
    Shows (RouterRegion.openOrCreate previous o now) ∅ := by
  cases previous with
  | none | some r => exact shows_blank rfl

/-- Whatever region the router found and whatever it wrote since, a snapshot of its region lists
each registered node once, with the name and VPN last set, and the header counts them. The next
operation answers as the map would, and a registration that finds no slot leaves the region as it
was. -/
theorem snapshot_refines_registry (previous : Option RouterRegion) (o : Owner) (now : ℕ)
    (ops : List WriterOp) :
    let r := (RouterRegion.openOrCreate previous o now).run ops
    let m := Registry.run ∅ ops
    ((readRouterSnapshot r).nodes.map NodeEntry.uuid).Nodup ∧
      (∀ u node, (∃ e ∈ (readRouterSnapshot r).nodes, e.uuid = u ∧ e.info = node) ↔
        m.lookup u = some node) ∧
      (readRouterSnapshot r).header.nodeCount = m.keys.length ∧
      (readRouterSnapshot r).nodes.length = m.keys.length ∧
      (∀ op, (r.exec op).2 = (m.exec op).2) ∧
      ∀ op, (r.exec op).2 = .error .slotFull → (r.exec op).1 = r := by
  intro r m
  have hshows : Shows r m := (shows_openOrCreate previous o now).run ops
  have hnodes := nodes_readRouterSnapshot hshows.count
  obtain ⟨M, hrep, hinfo⟩ := hshows.table
  refine ⟨?_, ?_, ?_, ?_, fun op => (hshows.exec op).2, ?_⟩
  · rw [hnodes]
    exact hrep.nodup_keys
  · intro u node
    rw [hnodes, ← hinfo u, map_eq_some_iff]
    constructor
    · intro ⟨e, he, hu, hnode⟩
      exact ⟨e, hu ▸ hrep.mem_entries.mp he, hnode⟩
    · intro ⟨e, he, hnode⟩
      have hkey := hrep.key_eq he
      exact ⟨e, hrep.mem_entries.mpr (hkey ▸ he), hkey, hnode⟩
  · exact hshows.count.trans hshows.length_keys
  · rw [hnodes, ← hshows.length_keys]
    rfl
  · intro op hfull
    cases op with
    | register u name vpnId connectedAt now =>
      change (r.registerNode u name vpnId connectedAt now).2 = _ at hfull
      change (r.registerNode u name vpnId connectedAt now).1 = r
      unfold RouterRegion.registerNode at hfull ⊢
      split_ifs at hfull ⊢
      · rfl
      · split at hfull
        · rfl
        · cases hfull
    | _ => cases hfull

end Fluxbee.RouterShm
