import Fluxbee.Router.Broadcast

/-! The three handlers of a router whole, with their notices, the copies for taps and what a sibling
router hands over. What a handler returns is what it hands to the router's own nodes and the frames
it sends. The entry that the sender's router adds to a message's trace is left out. -/
namespace Fluxbee.Router
open Text Shm Lsa

/-! ### Notices -/

def buildSystemMessage (src : String) (dst : Destination) (ttl : ℕ) (traceId msg : String)
    (payload : Json) : Message :=
  ⟨⟨src, none, dst, ttl, traceId⟩, ⟨systemKind, some msg, none, none, none, none, false⟩, payload⟩

def originalDst : Destination → String
  | .unicast dst => dst
  | .broadcast => "broadcast"
  | .resolve => "null"

def buildUnreachable (router : Uuid) (msg : Message) (reason : String) : Message :=
  buildSystemMessage router.hyphenated (.unicast msg.routing.src) 16 msg.routing.traceId
    msgUnreachable
    (.obj [("original_dst", .str (originalDst msg.routing.dst)), ("reason", .str reason)])

def routerName (router : Uuid) : String := "router:" ++ router.hyphenated

def buildTtlExceeded (router : Uuid) (msg : Message) : Message :=
  buildSystemMessage router.hyphenated (.unicast msg.routing.src) 16 msg.routing.traceId
    msgTtlExceeded
    (.obj [("last_hop", .str (routerName router)),
      ("original_dst", .str (originalDst msg.routing.dst))])

def isNoticeKind (msg : Message) : Bool :=
  isSystemKind msg.info.msgType &&
    (msg.info.msg == some msgUnreachable || msg.info.msg == some msgTtlExceeded)

theorem isWanControl_of_notice {msg : Message} (hkind : isNoticeKind msg = true) :
    isWanControl msg = true := by
  unfold isNoticeKind at hkind
  obtain ⟨hsystem, hnotice⟩ := Bool.and_eq_true_iff.mp hkind
  unfold isWanControl
  rw [hsystem, Bool.true_and, Bool.or_assoc, hnotice, Bool.or_true]

inductive Frame where
  | toNode (node : Uuid) (msg : Message)
  | toRouter (router : Uuid) (msg : Message)
  | toHive (hive : String) (msg : Message)
  deriving DecidableEq

def Frame.msg : Frame → Message
  | .toNode _ msg | .toRouter _ msg | .toHive _ msg => msg

/-- What is sent for a message, as frames. `back` is where its notices go. -/
def Sent.frame (own : Uuid) (back : Message → Frame) (msg : Message) : Sent → Frame
  | .unreachable reason => back (buildUnreachable own msg reason)
  | .ttlExceeded => back (buildTtlExceeded own msg)
  | .toRouter router forwarded => .toRouter router forwarded
  | .toHive hive forwarded => .toHive hive forwarded

structure Outcome where
  delivered : List (Uuid × Message) := []
  frames : List Frame := []
  deriving DecidableEq

def Handled.outcome (handled : Handled) (own : Uuid) (back : Message → Frame) (msg : Message) :
    Outcome :=
  ⟨handled.delivered, handled.sent.map (Sent.frame own back msg)⟩

/-- All that a handler reads beside the message. `rereadSnapshot` and `rereadFib` are the link state
and the table after the handler has read the region again, `mint` the trace ids of its copies. -/
structure Env where
  tables : RouterTables
  rereadSnapshot : Option LsaSnapshot
  rereadFib : List FibEntry
  cache : BroadcastCache
  opa : OpaAnswer
  now : ℕ
  taps : Option (List TapEntry)
  mint : ℕ → String

def Env.fresh (env : Env) : RouterTables :=
  { env.tables with lsaSnapshot := env.rereadSnapshot, fib := env.rereadFib }

section
-- The system policy, and the UUID of the router itself.
variable (authorizeSystem : String → Option String → String → Bool) (own : Uuid)

/-! ### Copies for taps -/

section
variable (t : RouterTables) (src : Source)

def tapDstName (dst : String) : String :=
  match Uuid.parseStr dst with
  | none => dst
  | some uuid =>
    match ((t.nodes.lookup uuid).map (·.name)).or ((t.peerNodes.lookup uuid).map (·.name)) with
    | some name => name
    | none => ((findRemoteNode t.lsaSnapshot uuid).map (·.name)).getD ""

def tapTargetIf (matched : Bool) (target : String) : Option String :=
  if matched && target != "" then some target else none

def localTapTarget (srcName dstName : String) (tap : TapEntry) : Option String :=
  tapTargetIf (tap.enabled != 0 && bytesToString tap.matchSrc tap.matchSrcLen == srcName &&
    bytesToString tap.matchDst tap.matchDstLen == dstName) (bytesToString tap.target tap.targetLen)

def lsaTapApplies (lsa : LsaSnapshot) (tap : RemoteTapEntry) (srcName dstName : String) : Bool :=
  match lsa.hives[tap.hiveIndex.toNat]? with
  | none => false
  | some hive =>
    hive.flags &&& hiveFlagSelf != 0 ||
      nodeIsOnHive (bytesToString tap.target tap.targetLen) hive.id &&
        (nodeIsOnHive srcName hive.id || nodeIsOnHive dstName hive.id)

def remoteTapTarget (lsa : LsaSnapshot) (srcName dstName : String) (tap : RemoteTapEntry) :
    Option String :=
  tapTargetIf (tap.enabled != 0 && !(tap.flags != 0 && tap.flags &&& flagActive == 0) &&
    bytesToString tap.matchSrc tap.matchSrcLen == srcName &&
    bytesToString tap.matchDst tap.matchDstLen == dstName && lsaTapApplies lsa tap srcName dstName)
    (bytesToString tap.target tap.targetLen)

def tapTargets (taps : List TapEntry) (srcName dst : String) : List String :=
  let dstName := tapDstName t dst
  if srcName = "" ∨ dstName = "" then []
  else
    let own := taps.filterMap (localTapTarget srcName dstName)
    let advertised := (t.lsaSnapshot.map fun lsa =>
      lsa.taps.filterMap (remoteTapTarget lsa srcName dstName)).getD []
    ((own ++ advertised).insertionSort (· ≤ ·)).dedup

def tapCopy (msg : Message) (target traceId : String) : Message :=
  { msg with
    routing := { msg.routing with dst := .unicast target, traceId }
    info := { msg.info with viaTap := true } }

/-- One copy, sent by name. A copy that cannot be sent is dropped; only another hive's failure comes
back as a notice. -/
def sendTapCopy (copy : Message) (target : String) : Outcome :=
  match resolveByName ⟨src.name, src.vpnId, 0⟩ t.nodes t.fib copy.info target with
  | .drop | .unreachable _ => {}
  | .deliver uuid =>
    match t.nodes.lookup uuid with
    | some handle =>
      if vpnAllowsBetween copy.info src.name src.vpnId handle.name handle.vpnId then
        { delivered := deliverLocally authorizeSystem t.hiveId copy false [(uuid, handle)] }
      else {}
    | none => {}
  | .forwardRouter router =>
    if 1 < copy.routing.ttl ∧ router ∈ t.peers then { frames := [.toRouter router copy.lowered] }
    else {}
  | .forwardHive hive =>
    { frames := (forwardToHive t copy hive).map (Sent.frame own (.toNode src.uuid) copy) }

/-- Whether the handler returns as soon as it has handed a unicast to a sibling. -/
def returnsEarly (msg : Message) (dst : String) : Bool :=
  match Uuid.parseStr dst with
  | some uuid =>
    match t.nodes.lookup uuid, t.peerNodes.lookup uuid with
    | none, some node =>
      vpnAllowsBetween msg.info src.name src.vpnId node.name node.vpnId &&
        (msg.routing.ttl ≤ 1 || node.routerUuid ∈ t.peers)
    | _, _ => false
  | none =>
    match resolveByName ⟨src.name, src.vpnId, 0⟩ t.nodes t.fib msg.info dst with
    | .forwardRouter router => msg.routing.ttl ≤ 1 || router ∈ t.peers
    | _ => false

def fanoutTaps (taps : Option (List TapEntry)) (mint : ℕ → String) (msg : Message) : List Outcome :=
  match msg.routing.dst with
  | .unicast dst =>
    if msg.routing.ttl = 0 ∨ msg.info.viaTap ∨ taps.getD [] = [] ∨ returnsEarly t src msg dst then []
    else (tapTargets t (taps.getD []) src.name dst).zipIdx.map fun (target, i) =>
      sendTapCopy authorizeSystem own t src (tapCopy msg target (mint i)) target
  | _ => []

end

def nodeMessage (env : Env) (msg : Message) : BroadcastCache × Outcome :=
  match Uuid.parseStr msg.routing.src with
  | none => (env.cache, {})
  | some srcUuid =>
    match env.tables.nodes.lookup srcUuid with
    | none => (env.cache, {})
    | some handle =>
      let src : Source := ⟨srcUuid, handle.name, handle.vpnId⟩
      let result := handleMessage authorizeSystem env.tables env.cache msg env.opa env.now
      let routed := result.2.outcome own (.toNode srcUuid) msg
      let copies := fanoutTaps authorizeSystem own env.tables src env.taps env.mint
        (msg.namedAs handle.name)
      (result.1, ⟨routed.delivered ++ copies.flatMap (·.delivered),
        routed.frames ++ copies.flatMap (·.frames)⟩)

/-! ### What a sibling hands over -/

section
variable (t : RouterTables) (peer : Uuid) (src : Source) (msg : Message)

/-- Nothing goes back, or on to another hive, unless the sibling is still connected. -/
def linkedFrames (sent : List Sent) : List Frame :=
  if peer ∈ t.peers then sent.map (Sent.frame own (.toRouter peer) msg) else []

/-- As for a message of one's own nodes, but the siblings' nodes are not looked up. -/
def peerRouteUuid (dst : Uuid) : Routed :=
  match t.nodes.lookup dst with
  | some handle => ifAllowed src msg handle.name handle.vpnId { locals := [(dst, handle)] }
  | none =>
    match (findRemoteNode t.lsaSnapshot dst).or (findReachableNode t.reachability dst) with
    | some remote =>
      ifAllowed src msg remote.name remote.vpnId { sent := forwardToHive t msg remote.nextHopHive }
    | none => { sent := [.unreachable "NODE_NOT_FOUND"] }

/-- A message goes on to the sibling that a name leads to, and so does the notice of its end. -/
def handOver (router : Uuid) : List Frame :=
  if router ∈ t.peers then
    if msg.routing.ttl ≤ 1 then [.toRouter router (buildTtlExceeded own msg)]
    else [.toRouter router msg.lowered]
  else []

structure PeerRouted where
  locals : List (Uuid × NodeHandle) := []
  frames : List Frame := []

def peerRouteName (target : String) : PeerRouted :=
  match resolveByName ⟨src.name, src.vpnId, 0⟩ t.nodes t.fib msg.info target with
  | .forwardRouter router => { frames := handOver own t msg router }
  | route =>
    let routed := followRoute t src msg route
    ⟨routed.locals, linkedFrames own t peer msg routed.sent⟩

def peerRoute (opa : OpaAnswer) : PeerRouted :=
  match msg.routing.dst with
  | .unicast dst =>
    match Uuid.parseStr dst with
    | some uuid =>
      let routed := peerRouteUuid t src msg uuid
      ⟨routed.locals, linkedFrames own t peer msg routed.sent⟩
    | none => peerRouteName own t peer src msg dst
  | .broadcast =>
    ⟨fanOut t src msg, if 3 ≤ msg.routing.ttl then
        linkedFrames own t peer msg (forwardBroadcastToWan t msg) else []⟩
  | .resolve =>
    match opa with
    | .failed => { frames := linkedFrames own t peer msg [.unreachable "OPA_ERROR"] }
    | .noTarget => { frames := linkedFrames own t peer msg [.unreachable "OPA_NO_TARGET"] }
    | .target name => peerRouteName own t peer src msg name

end

/-- The sender of a frame of a sibling: one of the siblings' nodes, or a node of another hive that
the gateway hands over. For one it does not know yet, the router reads the region again. -/
def peerSender (env : Env) (peer srcUuid : Uuid) : Option Source :=
  (peerSource env.tables peer srcUuid).or (remoteSourceFromGateway env.fresh peer srcUuid)

def siblingMessage (env : Env) (peer : Uuid) (msg : Message) : Outcome :=
  match Uuid.parseStr msg.routing.src with
  | none => {}
  | some srcUuid =>
    if isSystemKind msg.info.msgType ∧ msg.info.msg = some msgOpaReload then {}
    else match peerSender env peer srcUuid with
      | none => { delivered := if isNoticeKind msg then passNotice env.tables.nodes msg else [] }
      | some src =>
        let named := msg.namedAs src.name
        if msg.routing.ttl = 0 then
          { frames := linkedFrames own env.fresh peer named [.ttlExceeded] }
        else
          let routed := peerRoute own env.fresh peer src named env.opa
          ⟨deliverLocally authorizeSystem env.tables.hiveId named false routed.locals,
            routed.frames⟩

/-- A frame of a WAN session; what it tells of the link state is left to the router's tables. -/
def hiveMessage (env : Env) (hive : String) (msg : Message) : BroadcastCache × Outcome :=
  if isWanControl msg then
    (env.cache, { delivered := if isNoticeKind msg then passNotice env.tables.nodes msg else [] })
  else
    let result := handleWanFrame authorizeSystem env.tables env.cache hive msg env.opa env.now
    (result.1, result.2.outcome own (.toHive hive) msg)

def handleArrival (env : Env) : Arrival → BroadcastCache × Outcome
  | .fromNode msg => nodeMessage authorizeSystem own env msg
  | .fromSibling peer msg => (env.cache, siblingMessage authorizeSystem own env peer msg)
  | .fromHive hive msg => hiveMessage authorizeSystem own env hive msg

theorem mem_fanoutTaps {t : RouterTables} {src : Source} {taps : Option (List TapEntry)}
    {mint : ℕ → String} {msg : Message} {outcome : Outcome}
    (h : outcome ∈ fanoutTaps authorizeSystem own t src taps mint msg) : ∃ target i,
      outcome = sendTapCopy authorizeSystem own t src (tapCopy msg target (mint i)) target := by
  unfold fanoutTaps at h
  cases hdst : msg.routing.dst with
  | broadcast | resolve =>
    rw [hdst] at h
    cases h
  | unicast dst =>
    rw [hdst] at h
    dsimp only at h
    split_ifs at h with hskip
    · cases h
    · obtain ⟨⟨target, i⟩, -, rfl⟩ := List.mem_map.mp h
      exact ⟨target, i, rfl⟩

theorem Sent.frame_namedAs (back : Message → Frame) (msg : Message) (name : String) :
    Sent.frame own back (msg.namedAs name) = Sent.frame own back msg := by
  funext sent
  cases sent <;> rfl

end

end Fluxbee.Router
