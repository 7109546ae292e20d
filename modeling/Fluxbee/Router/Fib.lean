import Fluxbee.Lib.AssocMap
import Fluxbee.Router.Messages
import Fluxbee.Shm.LsaRegion
import Mathlib.Data.Prod.Lex
import Mathlib.Data.List.Sort

/-! The forwarding table of a router and how a name is resolved in it. A handle stands for the
node's connection; its channel is the node's UUID. -/
namespace Fluxbee.Router
open Text Shm Lsa

def actionForward : UInt8 := 0
def actionDrop : UInt8 := 1

structure NodeHandle where
  name : String
  (vpnId connectedAt : ℕ)
  deriving DecidableEq

structure PeerNode where
  name : String
  vpnId : ℕ
  routerUuid : Uuid

structure StaticRoute where
  pattern : String
  (matchKind action : UInt8)
  nextHopHive : String
  (priority metric installedAt : ℕ)

structure ReachabilityEntry where
  (name originHive nextHopHive : String)
  (vpnId lastUpdated : ℕ)

abbrev Nodes := AList fun _ : Uuid => NodeHandle
abbrev PeerNodes := AList fun _ : Uuid => PeerNode
abbrev Reachability := AList fun _ : Uuid => ReachabilityEntry

inductive FibSource where
  | localNode
  | peerNode
  | staticRoute
  | lsaNode
  | lsaRoute (advertisedBy : String)
  | reachableNode

inductive FibNextHop where
  | node (uuid : Uuid)
  | router (uuid : Uuid)
  | hive (id : String)

structure FibEntry where
  pattern : String
  matchKind : UInt8
  vpnId : ℕ
  source : FibSource
  nextHop : Option FibNextHop
  (adminDistance priority metric installedAt : ℕ)
  action : UInt8

inductive ResolvedRoute where
  | drop
  | unreachable (reason : String)
  | deliver (uuid : Uuid)
  | forwardRouter (uuid : Uuid)
  | forwardHive (id : String)
  deriving DecidableEq

/-! ### The table -/

def adminDistanceLocal : ℕ := 0
def adminDistanceStatic : ℕ := 1
def adminDistanceLsa : ℕ := 2
def adminDistanceReachability : ℕ := 3

def hopTo (hive : String) : Option FibNextHop := if hive = "" then none else some (.hive hive)

def localNodeEntry (uuid : Uuid) (handle : NodeHandle) : FibEntry :=
  ⟨handle.name, matchExact, handle.vpnId, .localNode, some (.node uuid), adminDistanceLocal, 0, 0,
    handle.connectedAt, actionForward⟩

def peerNodeEntry (node : PeerNode) : FibEntry :=
  ⟨node.name, matchExact, node.vpnId, .peerNode, some (.router node.routerUuid),
    adminDistanceLocal, 0, 0, 0, actionForward⟩

def staticRouteEntry (route : StaticRoute) : FibEntry :=
  ⟨route.pattern, route.matchKind, 0, .staticRoute, hopTo route.nextHopHive, adminDistanceStatic,
    route.priority, route.metric, route.installedAt, route.action⟩

def reachableEntry (entry : ReachabilityEntry) : FibEntry :=
  ⟨entry.name, matchExact, entry.vpnId, .reachableNode, some (.hive entry.nextHopHive),
    adminDistanceReachability, 0, 0, entry.lastUpdated, actionForward⟩

/-- A hive of the snapshot whose entries count: its name and when it was last heard. -/
def liveHive (hive : RemoteHiveEntry) : Option (String × ℕ) :=
  if hive.hiveIdLen = 0 then none
  else if hive.flags &&& hiveFlagSelf ≠ 0 then none
  else if hive.flags &&& flagStale ≠ 0 then none
  else some (hive.id, hive.lastUpdated)

section
variable (hives : List RemoteHiveEntry)
include hives

def hiveMap : List ((String × ℕ) × UInt16) :=
  hives.zipIdx.filterMap fun (hive, idx) => (liveHive hive).map (·, UInt16.ofNat idx)

def hiveAt (index : UInt16) : Option (String × ℕ) :=
  ((hiveMap hives).find? (·.2 == index)).map Prod.fst

def lsaNodeEntry (node : RemoteNodeEntry) : Option FibEntry :=
  if node.nameLen = 0 then none
  else if node.flags &&& (flagDeleted ||| flagStale) ≠ 0 then none
  else (hiveAt hives node.hiveIndex).map fun (hiveId, updatedAt) =>
    ⟨node.text, matchExact, node.vpnId, .lsaNode, some (.hive hiveId), adminDistanceLsa, 0, 0,
      updatedAt, actionForward⟩

def lsaRouteEntry (route : RemoteRouteEntry) : Option FibEntry :=
  if route.frontLen = 0 then none
  else if route.flags &&& (flagDeleted ||| flagStale) ≠ 0 then none
  else (hiveAt hives route.hiveIndex).map fun (hiveId, updatedAt) =>
    let named := bytesToString route.nextHopHive route.nextHopHiveLen
    ⟨bytesToString route.front route.frontLen, route.matchKind, 0, .lsaRoute hiveId,
      hopTo (if named = "" then hiveId else named), adminDistanceLsa, route.priority, route.metric,
      updatedAt, route.action⟩

end

def lsaEntries (lsa : LsaSnapshot) : List FibEntry :=
  lsa.nodes.filterMap (lsaNodeEntry lsa.hives) ++ lsa.routes.filterMap (lsaRouteEntry lsa.hives)

/-- The length of a pattern's fixed part, and the rank of its match kind. -/
def fibSpecificity (entry : FibEntry) : ℕ × ℕ :=
  if entry.matchKind = matchExact then ((asBytes entry.pattern).length, 3)
  else if entry.matchKind = matchPrefix then ((asBytes (trimDotStars entry.pattern)).length, 2)
  else if entry.matchKind = matchGlob then ((entry.pattern.toList.filter (· ≠ '*')).length, 1)
  else (0, 0)

/-- The most specific entry first, then the smallest distance, priority, metric and age. -/
def fibKey (entry : FibEntry) : ℕᵒᵈ ×ₗ ℕᵒᵈ ×ₗ ℕ ×ₗ ℕ ×ₗ ℕ ×ₗ ℕ :=
  let (len, rank) := fibSpecificity entry
  toLex (OrderDual.toDual len, toLex (OrderDual.toDual rank, toLex (entry.adminDistance,
    toLex (entry.priority, toLex (entry.metric, entry.installedAt)))))

def FibBefore (a b : FibEntry) : Prop := fibKey a ≤ fibKey b

instance : DecidableRel FibBefore := fun a b => inferInstanceAs (Decidable (fibKey a ≤ fibKey b))

instance : IsTrans FibEntry FibBefore := ⟨fun _ _ _ => le_trans⟩

instance : Std.Total FibBefore := ⟨fun a b => le_total (fibKey a) (fibKey b)⟩

section
variable (nodes : Nodes) (peerNodes : PeerNodes) (routes : List StaticRoute)
  (lsa : Option LsaSnapshot)

def fibEntries (reach : Reachability) : List FibEntry :=
  nodes.entries.map (fun node => localNodeEntry node.1 node.2) ++
    (peerNodes.values.map peerNodeEntry ++ (routes.map staticRouteEntry ++
      ((lsa.map lsaEntries).getD [] ++ reach.values.map reachableEntry)))

def rebuildFib (reach : Reachability) : List FibEntry :=
  (fibEntries nodes peerNodes routes lsa reach).insertionSort FibBefore

end

/-! ### Resolving a name -/

section

variable (src : NodeHandle) (nodes : Nodes) (fib : List FibEntry) (info : Meta)

def routeAction (entry : FibEntry) : Option ResolvedRoute :=
  if entry.action = actionDrop then some .drop
  else if entry.action = actionForward then
    match entry.nextHop with
    | some (.hive hive) => some (.forwardHive hive)
    | _ => none
  else none

def unlessBlocked (dstName : String) (dstVpn : ℕ) (route : ResolvedRoute) : ResolvedRoute :=
  if vpnAllowsBetween info src.name src.vpnId dstName dstVpn then route
  else .unreachable "VPN_BLOCKED"

/-- What an entry that matches `target` resolves it to; nothing where the search goes on. -/
def entryRoute (target : String) (entry : FibEntry) : Option ResolvedRoute :=
  match entry.source with
  | .staticRoute => routeAction entry
  | .lsaRoute advertisedBy =>
    if lsaRouteApplies advertisedBy target then routeAction entry else none
  | .localNode =>
    match entry.nextHop with
    | some (.node uuid) => (nodes.lookup uuid).map fun dst =>
        unlessBlocked src info dst.name dst.vpnId (.deliver uuid)
    | _ => none
  | .peerNode =>
    match entry.nextHop with
    | some (.router uuid) =>
      some (unlessBlocked src info entry.pattern entry.vpnId (.forwardRouter uuid))
    | _ => none
  | .lsaNode | .reachableNode =>
    match entry.nextHop with
    | some (.hive hive) =>
      some (unlessBlocked src info entry.pattern entry.vpnId (.forwardHive hive))
    | _ => none

def nodeNotFound : ResolvedRoute := .unreachable "NODE_NOT_FOUND"

def exactAnswer (target : String) (entry : FibEntry) : Option ResolvedRoute :=
  if patternMatchKind entry.matchKind entry.pattern target then
    entryRoute src nodes info target entry
  else none

def resolveByNameInner (target : String) : ResolvedRoute :=
  (fib.findSome? (exactAnswer src nodes info target)).getD nodeNotFound

/-- The answer of an entry to `base@*`: a node on any hive, or a route that matches the text. -/
def anyHiveAnswer (base : String) (entry : FibEntry) : Option ResolvedRoute :=
  let target := base ++ "@*"
  let matched := match entry.source with
    | .localNode | .peerNode | .lsaNode | .reachableNode => matchAnyHive base entry.pattern
    | .staticRoute | .lsaRoute _ => patternMatchKind entry.matchKind entry.pattern target
  if matched then entryRoute src nodes info target entry else none

def resolveByNameAnyHive (base : String) : ResolvedRoute :=
  (fib.findSome? (anyHiveAnswer src nodes info base)).getD nodeNotFound

def resolveByName (target : String) : ResolvedRoute :=
  match stripBack "@*" target with
  | some base =>
    match extractHive src.name with
    | some srcHive =>
      let near := resolveByNameInner src nodes fib info (base ++ "@" ++ srcHive)
      if near ≠ nodeNotFound then near else resolveByNameAnyHive src nodes fib info base
    | none => resolveByNameAnyHive src nodes fib info base
  | none => resolveByNameInner src nodes fib info target

theorem resolveByName_of_named {target : String} (h : stripBack "@*" target = none) :
    resolveByName src nodes fib info target = resolveByNameInner src nodes fib info target := by
  unfold resolveByName
  rw [h]

end

end Fluxbee.Router
