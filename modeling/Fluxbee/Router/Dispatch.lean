import Fluxbee.Router.Sessions

/-! Where a router sends a message whose sender it has resolved: to its own nodes, to a sibling
router, to another hive, or back as a notice. What a function returns is what it sends, in order. -/
namespace Fluxbee.Router
open Text Shm Lsa

/-- A node elsewhere, as the link state or the hub's vouching knows it. -/
structure RemoteNodeInfo where
  name : String
  vpnId : ℕ
  (hiveId nextHopHive : String)
  viaHub : Bool
  deriving DecidableEq

def liveNode (node : RemoteNodeEntry) (uuid : Uuid) : Bool :=
  node.nameLen != 0 && node.flags &&& (flagDeleted ||| flagStale) == 0 && node.uuid == uuid

def uuidListedBySeveralHives (lsa : LsaSnapshot) (uuid : Uuid) : Bool :=
  match (lsa.nodes.filter fun node => node.nameLen ≠ 0 ∧ node.uuid = uuid).map (·.hiveIndex) with
  | [] => false
  | first :: rest => rest.any (· != first)

def findRemoteNode (snapshot : Option LsaSnapshot) (uuid : Uuid) : Option RemoteNodeInfo :=
  snapshot.bind fun lsa =>
    if uuidListedBySeveralHives lsa uuid then none
    else (lsa.nodes.find? (liveNode · uuid)).bind fun node =>
      (hiveAt lsa.hives node.hiveIndex).map fun (hiveId, _) =>
        ⟨node.text, node.vpnId, hiveId, hiveId, false⟩

def findNodeOfHive (snapshot : Option LsaSnapshot) (uuid : Uuid) (hive : String) :
    Option RemoteNodeInfo :=
  snapshot.bind fun lsa =>
    (lsa.hives.findIdx? fun entry => entry.hiveIdLen != 0 &&
      entry.flags &&& (hiveFlagSelf ||| flagStale) == 0 && entry.id == hive).bind fun hiveIndex =>
        (lsa.nodes.find? fun node =>
          node.hiveIndex.toNat == hiveIndex && liveNode node uuid).map fun node =>
            ⟨node.text, node.vpnId, hive, hive, false⟩

def findReachableNode (reachability : Reachability) (uuid : Uuid) : Option RemoteNodeInfo :=
  (reachability.lookup uuid).map fun entry =>
    ⟨entry.name, entry.vpnId, entry.originHive, entry.nextHopHive, true⟩

/-- The tables that a router reads. `peers` are the sibling routers it has a connection to,
`peerRouters` says which of its siblings is the gateway. -/
structure RouterTables where
  hiveId : String
  isGateway : Bool
  nodes : Nodes
  peerNodes : PeerNodes
  peerRouters : AList fun _ : Uuid => Bool
  peers : List Uuid
  wanPeers : AList fun _ : String => WanPeer
  fib : List FibEntry
  lsaSnapshot : Option LsaSnapshot
  reachability : Reachability

/-- What leaves the router for somewhere other than its own nodes. Notices go back to where the
message came from. -/
inductive Sent where
  | unreachable (reason : String)
  | ttlExceeded
  | toRouter (router : Uuid) (msg : Message)
  | toHive (hive : String) (msg : Message)

/-- The nodes of this router that a message is for, and what is sent elsewhere for it. -/
structure Routed where
  locals : List (Uuid × NodeHandle) := []
  sent : List Sent := []

structure Source where
  uuid : Uuid
  name : String
  vpnId : ℕ
  deriving DecidableEq

def Message.lowered (msg : Message) : Message :=
  { msg with routing := { msg.routing with ttl := msg.routing.ttl - 1 } }

section

variable (t : RouterTables) (src : Source) (msg : Message)

def sendToPeerRouter (router : Uuid) (otherwise : String) : List Sent :=
  if router ∈ t.peers then [.toRouter router msg.lowered] else [.unreachable otherwise]

def gatewayUuid : Option Uuid := (t.peerRouters.entries.find? (·.2)).map (·.1)

def toSibling (router : Uuid) : List Sent :=
  if msg.routing.ttl ≤ 1 then [.ttlExceeded]
  else sendToPeerRouter t msg router "PEER_UNAVAILABLE"

def forwardToHive (hive : String) : List Sent :=
  if msg.routing.ttl ≤ 1 then [.ttlExceeded]
  else if t.isGateway then
    if hive ∈ t.wanPeers then [.toHive hive msg.lowered] else [.unreachable "WAN_UNAVAILABLE"]
  else match gatewayUuid t with
    | some gateway => sendToPeerRouter t msg gateway "GATEWAY_UNAVAILABLE"
    | none => [.unreachable "GATEWAY_UNAVAILABLE"]

def ifAllowed (dstName : String) (dstVpn : ℕ) (routed : Routed) : Routed :=
  if vpnAllowsBetween msg.info src.name src.vpnId dstName dstVpn then routed
  else { sent := [.unreachable "VPN_BLOCKED"] }

def routeUuid (dst : Uuid) : Routed :=
  match t.nodes.lookup dst with
  | some handle => ifAllowed src msg handle.name handle.vpnId { locals := [(dst, handle)] }
  | none =>
    match t.peerNodes.lookup dst with
    | some node => ifAllowed src msg node.name node.vpnId { sent := toSibling t msg node.routerUuid }
    | none =>
      match (findRemoteNode t.lsaSnapshot dst).or (findReachableNode t.reachability dst) with
      | some remote =>
        ifAllowed src msg remote.name remote.vpnId
          { sent := forwardToHive t msg remote.nextHopHive }
      | none => { sent := [.unreachable "NODE_NOT_FOUND"] }

def followRoute : ResolvedRoute → Routed
  | .drop => {}
  | .unreachable reason => { sent := [.unreachable reason] }
  | .deliver dst =>
    match t.nodes.lookup dst with
    | some handle => ifAllowed src msg handle.name handle.vpnId { locals := [(dst, handle)] }
    | none => { sent := [.unreachable "NODE_NOT_FOUND"] }
  | .forwardRouter router => { sent := toSibling t msg router }
  | .forwardHive hive => { sent := forwardToHive t msg hive }

def routeName (target : String) : Routed :=
  followRoute t src msg (resolveByName ⟨src.name, src.vpnId, 0⟩ t.nodes t.fib msg.info target)

def routeUnicast (dst : String) : Routed :=
  match Uuid.parseStr dst with
  | some uuid => routeUuid t src msg uuid
  | none => routeName t src msg dst

/-- What the policy engine answers for a message that leaves its destination open. -/
inductive OpaAnswer where
  | failed
  | noTarget
  | target (name : String)

def routeResolved : OpaAnswer → Routed
  | .failed => { sent := [.unreachable "OPA_ERROR"] }
  | .noTarget => { sent := [.unreachable "OPA_NO_TARGET"] }
  | .target name => routeName t src msg name

/-! ### Broadcasts -/

def fanOut : List (Uuid × NodeHandle) :=
  (t.nodes.entries.filter fun e => e.1 ≠ src.uuid ∧
    vpnAllowsBroadcastBetween msg.info src.name src.vpnId e.2.name e.2.vpnId = true ∧
    ∀ pattern ∈ msg.info.target, patternMatch pattern e.2.name = true).map fun e => (e.1, e.2)

def broadcastToPeers : List Sent := t.peers.map (.toRouter · msg.lowered)

def broadcastToWan : List Sent := t.wanPeers.keys.map (.toHive · msg.lowered)

def forwardBroadcastToWan : List Sent :=
  if msg.routing.ttl ≤ 2 then []
  else if t.isGateway then broadcastToWan t msg
  else match gatewayUuid t with
    | some gateway => if gateway ∈ t.peers then [.toRouter gateway msg.lowered] else []
    | none => [.unreachable "GATEWAY_UNAVAILABLE"]

abbrev BroadcastCache := AList fun _ : Uuid => ℕ

def broadcastTtlMs : ℕ := 30000

section
variable (cache : BroadcastCache)

/-- The cache after a broadcast at `now`, and whether the broadcast is a new one. -/
def checkAndAdd (traceId : Uuid) (now : ℕ) : BroadcastCache × Bool :=
  let kept := cache.retain fun _ ts => now - ts ≤ broadcastTtlMs
  if (kept.lookup traceId).isSome then (kept, false) else (kept.insert traceId now, true)

def routeBroadcast (now : ℕ) (toWan : List Sent) : BroadcastCache × Routed :=
  match Uuid.parseStr msg.routing.traceId with
  | none => (cache, {})
  | some traceId =>
    let (cache', fresh) := checkAndAdd cache traceId now
    if fresh then
      (cache', ⟨fanOut t src msg, (if 2 ≤ msg.routing.ttl then broadcastToPeers t msg else []) ++
        if 3 ≤ msg.routing.ttl then toWan else []⟩)
    else (cache', {})

/-- `toWan` is how the handler sends a broadcast on to the other hives. -/
def route (now : ℕ) (opa : OpaAnswer) (toWan : List Sent) : BroadcastCache × Routed :=
  match msg.routing.dst with
  | .unicast dst => (cache, routeUnicast t src msg dst)
  | .broadcast => routeBroadcast t src msg cache now toWan
  | .resolve => (cache, routeResolved t src msg opa)

end

end

/-! ### Deliveries -/

/-- What a handler hands to its own nodes, each by its UUID, and what it sends elsewhere. -/
structure Handled where
  delivered : List (Uuid × Message) := []
  sent : List Sent := []

def deliverLocally (authorizeSystem : String → Option String → String → Bool) (hiveId : String)
    (msg : Message) (srcViaHub : Bool) (locals : List (Uuid × NodeHandle)) :
    List (Uuid × Message) :=
  match prepareLocalDelivery authorizeSystem hiveId msg srcViaHub with
  | some prepared => locals.map fun node => (node.1, prepared)
  | none => []

def Message.namedAs (msg : Message) (name : String) : Message :=
  { msg with routing := { msg.routing with srcL2Name := some name } }

section
-- The system policy's decision on an action, the sender's name and this hive.
variable (authorizeSystem : String → Option String → String → Bool) (t : RouterTables)
  (cache : BroadcastCache)

def relay (src : Source) (srcViaHub : Bool) (msg : Message) (opa : OpaAnswer) (now : ℕ)
    (toWan : List Sent) : BroadcastCache × Handled :=
  if msg.routing.ttl = 0 then (cache, { sent := [.ttlExceeded] })
  else
    let result := route t src msg cache now opa toWan
    (result.1,
      { delivered := deliverLocally authorizeSystem t.hiveId msg srcViaHub result.2.locals
        sent := result.2.sent })

/-- A message of one of the router's own nodes; the copies for taps are left out. -/
def handleMessage (msg : Message) (opa : OpaAnswer) (now : ℕ) : BroadcastCache × Handled :=
  match Uuid.parseStr msg.routing.src with
  | none => (cache, {})
  | some srcUuid =>
    match t.nodes.lookup srcUuid with
    | none => (cache, {})
    | some handle =>
      let named := msg.namedAs handle.name
      relay authorizeSystem t cache ⟨srcUuid, handle.name, handle.vpnId⟩ false named opa now
        (forwardBroadcastToWan t named)

/-- The sender of a frame from `peerHive`: one of that hive's own nodes, or one that it vouches
for. -/
def wanFrameSource (srcUuid : Uuid) (peerHive : String) : Option RemoteNodeInfo :=
  (findNodeOfHive t.lsaSnapshot srcUuid peerHive).or
    ((findReachableNode t.reachability srcUuid).filter (·.nextHopHive = peerHive))

/-- A message that comes in on a session of `peerHive`, in its sender's canonical name. -/
def handleWanFrame (peerHive : String) (msg : Message) (opa : OpaAnswer) (now : ℕ) :
    BroadcastCache × Handled :=
  match Uuid.parseStr msg.routing.src with
  | none => (cache, {})
  | some srcUuid =>
    match wanFrameSource t srcUuid peerHive with
    | none => (cache, {})
    | some info =>
      let name := canonicalWanSrcName info.name info.hiveId
      let named := msg.namedAs name
      relay authorizeSystem t cache ⟨srcUuid, name, info.vpnId⟩ info.viaHub named opa now
        (broadcastToWan t named)

end

/-! ### Notices -/

def passNotice (nodes : Nodes) (msg : Message) : List (Uuid × Message) :=
  match msg.routing.dst with
  | .unicast dst =>
    match Uuid.parseStr dst with
    | some uuid => if uuid ∈ nodes then [(uuid, msg)] else []
    | none => []
  | _ => []

theorem mem_passNotice {nodes : Nodes} {msg : Message} {d : Uuid × Message}
    (hd : d ∈ passNotice nodes msg) : d.1 ∈ nodes ∧ d.2 = msg := by
  unfold passNotice at hd
  cases hdst : msg.routing.dst with
  | broadcast | resolve =>
    rw [hdst] at hd
    cases hd
  | unicast dst =>
    rw [hdst] at hd
    dsimp only at hd
    split at hd
    next uuid hparse =>
      split_ifs at hd with hnode
      · rw [List.mem_singleton.mp hd]
        exact ⟨hnode, rfl⟩
      · cases hd
    · cases hd

end Fluxbee.Router
