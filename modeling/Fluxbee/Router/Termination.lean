import Fluxbee.Lib.Cascade
import Fluxbee.Router.Handlers

/-! The frames that a message causes between routers. Each handler lowers the TTL of what it sends
on; a notice starts with a TTL of its own, but no router answers or forwards one. -/
namespace Fluxbee.Router
open Text Shm Lsa List Option Nat Uuid

variable {t : Traffic} {router : Uuid} {f : Flight} {taken : Option Flight}

def Frame.isLink : Frame → Bool
  | .toNode .. => false
  | _ => true

def Arrival.isLink : Arrival → Bool
  | .fromNode _ => false
  | _ => true

structure IsNoticeOf (router : Uuid) (msg : Message) : Prop where
  kind : isNoticeKind msg = true
  src : msg.routing.src = router.hyphenated
  ttl : msg.routing.ttl = 16

private theorem noticeKind_unreachable :
    (isSystemKind systemKind && (some msgUnreachable == some msgUnreachable ||
      some msgUnreachable == some msgTtlExceeded)) = true := by
  decide

private theorem noticeKind_ttlExceeded :
    (isSystemKind systemKind && (some msgTtlExceeded == some msgUnreachable ||
      some msgTtlExceeded == some msgTtlExceeded)) = true := by
  decide

theorem buildUnreachable_isNoticeOf (router : Uuid) (msg : Message) (reason : String) :
    IsNoticeOf router (buildUnreachable router msg reason) :=
  ⟨noticeKind_unreachable, rfl, rfl⟩

theorem buildTtlExceeded_isNoticeOf (router : Uuid) (msg : Message) :
    IsNoticeOf router (buildTtlExceeded router msg) :=
  ⟨noticeKind_ttlExceeded, rfl, rfl⟩

/-! ### What is sent on -/

/-- What goes on to another router or hive is the message itself, with one hop less. -/
def Sent.Lowered (msg : Message) : Sent → Prop
  | .toRouter _ forwarded | .toHive _ forwarded => 2 ≤ msg.routing.ttl ∧ forwarded = msg.lowered
  | _ => True

def Lowered (msg : Message) (sent : List Sent) : Prop := ∀ s ∈ sent, s.Lowered msg

section
variable {t : RouterTables} {src : Source} {msg : Message}

theorem lowered_nil : Lowered msg [] := by
  intro s hs
  cases hs

theorem lowered_singleton {s : Sent} (h : s.Lowered msg) : Lowered msg [s] := by
  intro s' hs'
  rw [mem_singleton.mp hs']
  exact h

theorem Lowered.append {sent sent' : List Sent} (h : Lowered msg sent) (h' : Lowered msg sent') :
    Lowered msg (sent ++ sent') := by
  intro s hs
  rcases mem_append.mp hs with hs | hs
  · exact h s hs
  · exact h' s hs

theorem lowered_sendToPeerRouter (httl : 2 ≤ msg.routing.ttl) (router : Uuid) (otherwise : String) :
    Lowered msg (sendToPeerRouter t msg router otherwise) := by
  unfold sendToPeerRouter
  split_ifs
  · exact lowered_singleton ⟨httl, rfl⟩
  · exact lowered_singleton trivial

theorem lowered_toSibling (router : Uuid) : Lowered msg (toSibling t msg router) := by
  unfold toSibling
  split_ifs with httl
  · exact lowered_singleton trivial
  · exact lowered_sendToPeerRouter (by omega) router _

theorem lowered_forwardToHive (hive : String) : Lowered msg (forwardToHive t msg hive) := by
  unfold forwardToHive
  by_cases httl : msg.routing.ttl ≤ 1
  · rw [if_pos httl]
    exact lowered_singleton trivial
  · have htwo : 2 ≤ msg.routing.ttl := by omega
    rw [if_neg httl]
    split_ifs
    · exact lowered_singleton ⟨htwo, rfl⟩
    · exact lowered_singleton trivial
    · cases gatewayUuid t with
      | some gateway => exact lowered_sendToPeerRouter htwo gateway _
      | none => exact lowered_singleton trivial

theorem lowered_ifAllowed {routed : Routed} (h : Lowered msg routed.sent) (name : String)
    (vpnId : ℕ) : Lowered msg (ifAllowed src msg name vpnId routed).sent := by
  unfold ifAllowed
  split_ifs
  · exact h
  · exact lowered_singleton trivial

theorem lowered_routeUuid (dst : Uuid) : Lowered msg (routeUuid t src msg dst).sent := by
  unfold routeUuid
  cases t.nodes.lookup dst with
  | some handle => exact lowered_ifAllowed lowered_nil _ _
  | none =>
    cases t.peerNodes.lookup dst with
    | some node => exact lowered_ifAllowed (lowered_toSibling _) _ _
    | none =>
      cases (findRemoteNode t.lsaSnapshot dst).or (findReachableNode t.reachability dst) with
      | some remote => exact lowered_ifAllowed (lowered_forwardToHive _) _ _
      | none => exact lowered_singleton trivial

theorem lowered_peerRouteUuid (dst : Uuid) : Lowered msg (peerRouteUuid t src msg dst).sent := by
  unfold peerRouteUuid
  cases t.nodes.lookup dst with
  | some handle => exact lowered_ifAllowed lowered_nil _ _
  | none =>
    cases (findRemoteNode t.lsaSnapshot dst).or (findReachableNode t.reachability dst) with
    | some remote => exact lowered_ifAllowed (lowered_forwardToHive _) _ _
    | none => exact lowered_singleton trivial

theorem lowered_followRoute (route : ResolvedRoute) :
    Lowered msg (followRoute t src msg route).sent := by
  cases route with
  | drop => exact lowered_nil
  | unreachable reason => exact lowered_singleton trivial
  | deliver dst =>
    unfold followRoute
    dsimp only
    cases t.nodes.lookup dst with
    | some handle => exact lowered_ifAllowed lowered_nil _ _
    | none => exact lowered_singleton trivial
  | forwardRouter router => exact lowered_toSibling router
  | forwardHive hive => exact lowered_forwardToHive hive

theorem lowered_broadcastToPeers (httl : 2 ≤ msg.routing.ttl) :
    Lowered msg (broadcastToPeers t msg) := by
  intro s hs
  obtain ⟨router, -, rfl⟩ := List.mem_map.mp hs
  exact ⟨httl, rfl⟩

theorem lowered_broadcastToWan (httl : 2 ≤ msg.routing.ttl) :
    Lowered msg (broadcastToWan t msg) := by
  intro s hs
  obtain ⟨hive, -, rfl⟩ := List.mem_map.mp hs
  exact ⟨httl, rfl⟩

theorem lowered_forwardBroadcastToWan : Lowered msg (forwardBroadcastToWan t msg) := by
  unfold forwardBroadcastToWan
  by_cases httl : msg.routing.ttl ≤ 2
  · rw [if_pos httl]
    exact lowered_nil
  · have htwo : 2 ≤ msg.routing.ttl := by omega
    rw [if_neg httl]
    split_ifs
    · exact lowered_broadcastToWan htwo
    · cases gatewayUuid t with
      | some gateway =>
        dsimp only
        split_ifs
        · exact lowered_singleton ⟨htwo, rfl⟩
        · exact lowered_nil
      | none => exact lowered_singleton trivial

theorem lowered_routeBroadcast (cache : BroadcastCache) (now : ℕ) {toWan : List Sent}
    (hwan : 3 ≤ msg.routing.ttl → Lowered msg toWan) :
    Lowered msg (routeBroadcast t src msg cache now toWan).2.sent := by
  unfold routeBroadcast
  cases parseStr msg.routing.traceId with
  | none => exact lowered_nil
  | some traceId =>
    dsimp only
    by_cases hfresh : (checkAndAdd cache traceId now).2 = true
    · rw [if_pos hfresh]
      apply Lowered.append
      · split_ifs with httl
        · exact lowered_broadcastToPeers httl
        · exact lowered_nil
      · split_ifs with httl
        · exact hwan httl
        · exact lowered_nil
    · rw [if_neg hfresh]
      exact lowered_nil

theorem lowered_route (cache : BroadcastCache) (now : ℕ) (opa : OpaAnswer) {toWan : List Sent}
    (hwan : 3 ≤ msg.routing.ttl → Lowered msg toWan) :
    Lowered msg (route t src msg cache now opa toWan).2.sent := by
  unfold route
  cases msg.routing.dst with
  | unicast dst =>
    dsimp only
    unfold routeUnicast
    cases parseStr dst with
    | some uuid => exact lowered_routeUuid uuid
    | none => exact lowered_followRoute _
  | broadcast => exact lowered_routeBroadcast cache now hwan
  | resolve =>
    cases opa with
    | failed | noTarget => exact lowered_singleton trivial
    | target name => exact lowered_followRoute _

end

/-! ### What a handler sends -/

/-- The frames that an arrival may bring about at the router `own`. -/
inductive Follows (own : Uuid) (arrival : Arrival) : Frame → Prop
  | toNode {frame : Frame} (hnode : frame.isLink = false) : Follows own arrival frame
  | lowered {frame : Frame} (hlow : frame.msg.routing.ttl + 1 = arrival.msg.routing.ttl)
      (hpos : 1 ≤ frame.msg.routing.ttl) : Follows own arrival frame
  | notice {frame : Frame} (hlink : arrival.isLink = true) (hnotice : IsNoticeOf own frame.msg) :
      Follows own arrival frame

section
variable {authorizeSystem : String → Option String → String → Bool} {own : Uuid} {env : Env}
  {arrival : Arrival} {msg : Message}

theorem follows_frame (back : Message → Frame) (msg : Message) (hmsg : ∀ m, (back m).msg = m)
    (hback : ∀ m, (back m).isLink = arrival.isLink)
    (httl : msg.routing.ttl = arrival.msg.routing.ttl) {s : Sent} (hs : s.Lowered msg) :
    Follows own arrival (Sent.frame own back msg s) := by
  have hnotice : ∀ m, IsNoticeOf own m → Follows own arrival (back m) := by
    intro m hm
    cases hlink : arrival.isLink with
    | false => exact .toNode ((hback m).trans hlink)
    | true => exact .notice hlink ((hmsg m).symm ▸ hm)
  have hlowered : ∀ frame : Frame, 2 ≤ msg.routing.ttl → frame.msg = msg.lowered →
      Follows own arrival frame := by
    intro frame htwo hframe
    have hless : frame.msg.routing.ttl = msg.routing.ttl - 1 := by
      rw [hframe]
      rfl
    exact .lowered (by omega) (by omega)
  cases s with
  | unreachable reason => exact hnotice _ (buildUnreachable_isNoticeOf own msg reason)
  | ttlExceeded => exact hnotice _ (buildTtlExceeded_isNoticeOf own msg)
  | toRouter router forwarded | toHive hive forwarded => exact hlowered _ hs.1 hs.2

variable {src : Source}

theorem lowered_relay {cache : BroadcastCache} {viaHub : Bool} {opa : OpaAnswer} {now : ℕ}
    {toWan : List Sent} (hwan : 3 ≤ msg.routing.ttl → Lowered msg toWan) :
    Lowered msg (relay authorizeSystem env.tables cache src viaHub msg opa now toWan).2.sent := by
  unfold relay
  split_ifs with httl
  · exact lowered_singleton trivial
  · exact lowered_route cache now opa hwan

theorem follows_sendTapCopy {copy : Message} (hlink : arrival.isLink = false)
    (httl : copy.routing.ttl = arrival.msg.routing.ttl) {target : String} :
    ∀ frame ∈ (sendTapCopy authorizeSystem own env.tables src copy target).frames,
      Follows own arrival frame := by
  intro frame hframe
  unfold sendTapCopy at hframe
  cases hroute : resolveByName ⟨src.name, src.vpnId, 0⟩ env.tables.nodes env.tables.fib copy.info
      target with
  | drop | unreachable reason =>
    rw [hroute] at hframe
    cases hframe
  | deliver uuid =>
    rw [hroute] at hframe
    dsimp only at hframe
    split at hframe
    · split_ifs at hframe <;> cases hframe
    · cases hframe
  | forwardRouter router =>
    rw [hroute] at hframe
    dsimp only at hframe
    split_ifs at hframe with hsend
    · rw [mem_singleton.mp hframe]
      have hless : copy.lowered.routing.ttl = copy.routing.ttl - 1 := rfl
      have htwo := hsend.1
      exact .lowered (show copy.lowered.routing.ttl + 1 = _ by omega)
        (show 1 ≤ copy.lowered.routing.ttl by omega)
    · cases hframe
  | forwardHive hive =>
    rw [hroute] at hframe
    obtain ⟨s, hs, rfl⟩ := List.mem_map.mp hframe
    have hlowered := lowered_forwardToHive hive s hs
    exact follows_frame (.toNode src.uuid) copy (fun _ => rfl) (fun _ => hlink.symm) httl hlowered

theorem follows_fanoutTaps {taps : Option (List TapEntry)} {mint : ℕ → String}
    (hlink : arrival.isLink = false) (httl : msg.routing.ttl = arrival.msg.routing.ttl) :
    ∀ outcome ∈ fanoutTaps authorizeSystem own env.tables src taps mint msg,
      ∀ frame ∈ outcome.frames, Follows own arrival frame := by
  intro outcome houtcome frame hframe
  obtain ⟨target, i, rfl⟩ := mem_fanoutTaps authorizeSystem own houtcome
  have hcopy : (tapCopy msg target (mint i)).routing.ttl = arrival.msg.routing.ttl := httl
  exact follows_sendTapCopy hlink hcopy frame hframe

theorem follows_nodeMessage : ∀ frame ∈ (nodeMessage authorizeSystem own env msg).2.frames,
      Follows own (.fromNode msg) frame := by
  intro frame hframe
  unfold nodeMessage at hframe
  split at hframe
  · cases hframe
  next srcUuid hsrc =>
    split at hframe
    · cases hframe
    next handle hnode =>
      have httl : (msg.namedAs handle.name).routing.ttl = (Arrival.fromNode msg).msg.routing.ttl :=
        rfl
      rcases mem_append.mp hframe with hframe | hframe
      · unfold handleMessage Handled.outcome at hframe
        rw [hsrc] at hframe
        dsimp only at hframe
        rw [hnode] at hframe
        obtain ⟨s, hs, rfl⟩ := List.mem_map.mp hframe
        have hlowered := lowered_relay (fun _ => lowered_forwardBroadcastToWan) s hs
        rw [← Sent.frame_namedAs own _ msg handle.name]
        exact follows_frame (.toNode srcUuid) _ (fun _ => rfl) (fun _ => rfl) httl hlowered
      · obtain ⟨outcome, houtcome, hframe⟩ := mem_flatMap.mp hframe
        exact follows_fanoutTaps rfl httl outcome houtcome frame hframe

/-! ### Frames of other routers -/

variable {t : RouterTables}

theorem follows_linkedFrames {peer : Uuid} {sent : List Sent}
    (hsent : Lowered msg sent) (hlink : arrival.isLink = true)
    (httl : msg.routing.ttl = arrival.msg.routing.ttl) :
    ∀ frame ∈ linkedFrames own t peer msg sent, Follows own arrival frame := by
  intro frame hframe
  unfold linkedFrames at hframe
  split_ifs at hframe
  · obtain ⟨s, hs, rfl⟩ := List.mem_map.mp hframe
    exact follows_frame (.toRouter peer) msg (fun _ => rfl) (fun _ => hlink.symm) httl (hsent s hs)
  · cases hframe

theorem follows_handOver (hlink : arrival.isLink = true)
    (httl : msg.routing.ttl = arrival.msg.routing.ttl) :
    ∀ frame ∈ handOver own t msg router, Follows own arrival frame := by
  intro frame hframe
  unfold handOver at hframe
  split_ifs at hframe with hpeer hend
  · rw [mem_singleton.mp hframe]
    exact .notice hlink (buildTtlExceeded_isNoticeOf own msg)
  · rw [mem_singleton.mp hframe]
    have hless : msg.lowered.routing.ttl = msg.routing.ttl - 1 := rfl
    exact .lowered (show msg.lowered.routing.ttl + 1 = _ by omega)
      (show 1 ≤ msg.lowered.routing.ttl by omega)
  · cases hframe

section
variable {t : RouterTables} {peer : Uuid} {src : Source}

section
variable (hlink : arrival.isLink = true) (httl : msg.routing.ttl = arrival.msg.routing.ttl)
include hlink httl

theorem follows_peerRouteName (target : String) :
    ∀ frame ∈ (peerRouteName own t peer src msg target).frames, Follows own arrival frame := by
  unfold peerRouteName
  split
  · exact follows_handOver hlink httl
  · exact follows_linkedFrames (lowered_followRoute _) hlink httl

theorem follows_peerRoute (opa : OpaAnswer) :
    ∀ frame ∈ (peerRoute own t peer src msg opa).frames, Follows own arrival frame := by
  unfold peerRoute
  cases msg.routing.dst with
  | unicast dst =>
    dsimp only
    cases parseStr dst with
    | some uuid => exact follows_linkedFrames (lowered_peerRouteUuid uuid) hlink httl
    | none => exact follows_peerRouteName hlink httl dst
  | broadcast =>
    split_ifs
    · exact follows_linkedFrames lowered_forwardBroadcastToWan hlink httl
    · intro frame hframe
      cases hframe
  | resolve =>
    cases opa with
    | failed | noTarget => exact follows_linkedFrames (lowered_singleton trivial) hlink httl
    | target name => exact follows_peerRouteName hlink httl name

end

end

theorem follows_siblingMessage (peer : Uuid) :
    ∀ frame ∈ (siblingMessage authorizeSystem own env peer msg).frames,
      Follows own (.fromSibling peer msg) frame := by
  intro frame hframe
  unfold siblingMessage at hframe
  split at hframe
  · cases hframe
  next srcUuid hsrc =>
    by_cases hreload : isSystemKind msg.info.msgType = true ∧ msg.info.msg = some msgOpaReload
    · rw [if_pos hreload] at hframe
      cases hframe
    · rw [if_neg hreload] at hframe
      split at hframe
      · cases hframe
      next src hsender =>
        have httl : (msg.namedAs src.name).routing.ttl =
            (Arrival.fromSibling peer msg).msg.routing.ttl := rfl
        split_ifs at hframe with hend
        · have hnone : Lowered (msg.namedAs src.name) [.ttlExceeded] := lowered_singleton trivial
          exact follows_linkedFrames hnone rfl httl frame hframe
        · exact follows_peerRoute rfl httl env.opa frame hframe

theorem follows_hiveMessage (hive : String) :
    ∀ frame ∈ (hiveMessage authorizeSystem own env hive msg).2.frames,
      Follows own (.fromHive hive msg) frame := by
  intro frame hframe
  unfold hiveMessage at hframe
  by_cases hcontrol : isWanControl msg = true
  · rw [if_pos hcontrol] at hframe
    cases hframe
  · rw [if_neg hcontrol] at hframe
    unfold handleWanFrame Handled.outcome at hframe
    split at hframe
    · cases hframe
    next srcUuid hsrc =>
      split at hframe
      · cases hframe
      next info hinfo =>
        obtain ⟨s, hs, rfl⟩ := List.mem_map.mp hframe
        have hwan : 3 ≤ msg.routing.ttl → Lowered (msg.namedAs (canonicalWanSrcName info.name
            info.hiveId)) (broadcastToWan env.tables (msg.namedAs (canonicalWanSrcName info.name
              info.hiveId))) := by
          intro httl
          exact lowered_broadcastToWan (le_of_lt httl)
        have hlowered := lowered_relay hwan s hs
        have httl : (msg.namedAs (canonicalWanSrcName info.name info.hiveId)).routing.ttl =
            (Arrival.fromHive hive msg).msg.routing.ttl := rfl
        rw [← Sent.frame_namedAs own _ msg (canonicalWanSrcName info.name info.hiveId)]
        exact follows_frame (.toHive hive) _ (fun _ => rfl) (fun _ => rfl) httl hlowered

theorem follows_handleArrival (own : Uuid) (env : Env) (arrival : Arrival) :
    ∀ frame ∈ (handleArrival authorizeSystem own env arrival).2.frames,
      Follows own arrival frame := by
  cases arrival with
  | fromNode msg => exact follows_nodeMessage
  | fromSibling peer msg => exact follows_siblingMessage peer
  | fromHive hive msg => exact follows_hiveMessage hive

end

/-! ### Notices of routers -/

section
-- The UUIDs of the network's routers.
variable (isRouter : Uuid → Bool)

def isRouterNotice (msg : Message) : Bool :=
  isNoticeKind msg && (Uuid.parseStr msg.routing.src).any isRouter

/-- No router is listed as a node, of a sibling or of another hive. -/
def Env.Unlisted (env : Env) : Prop :=
  ∀ router, isRouter router = true → env.tables.peerNodes.lookup router = none ∧
    findRemoteNode env.tables.lsaSnapshot router = none ∧
    findRemoteNode env.rereadSnapshot router = none

variable {isRouter} {env : Env} {msg : Message}

theorem isRouterNotice_of_isNoticeOf (hrouter : isRouter router = true)
    (h : IsNoticeOf router msg) : isRouterNotice isRouter msg = true := by
  unfold isRouterNotice
  rw [h.kind, h.src, parseStr_hyphenated, Bool.true_and]
  exact hrouter

theorem remoteSource_none {t : RouterTables}
    (h : findRemoteNode t.lsaSnapshot router = none) (peer : Uuid) :
    remoteSourceFromGateway t peer router = none := by
  unfold remoteSourceFromGateway
  rw [h, map_none, ite_self]

theorem Env.Unlisted.peerSender_eq (henv : env.Unlisted isRouter)
    (hrouter : isRouter router = true) (peer : Uuid) : peerSender env peer router = none := by
  obtain ⟨hpeer, hheld, hread⟩ := henv router hrouter
  have hfresh : findRemoteNode env.fresh.lsaSnapshot router = none := hread
  rw [peerSender, peerSource, hpeer]
  rw [remoteSource_none hheld, remoteSource_none hfresh, or_none]

theorem frames_of_routerNotice {authorizeSystem : String → Option String → String → Bool}
    (own : Uuid) (henv : env.Unlisted isRouter) {arrival : Arrival} (hlink : arrival.isLink = true)
    (hnotice : isRouterNotice isRouter arrival.msg = true) :
    (handleArrival authorizeSystem own env arrival).2.frames = [] := by
  obtain ⟨hkind, hsrc⟩ := Bool.and_eq_true_iff.mp hnotice
  cases arrival with
  | fromNode msg => cases hlink
  | fromSibling peer msg =>
    obtain ⟨router, hparse, hrouter⟩ := (Option.any_eq_true _ _).mp hsrc
    unfold handleArrival siblingMessage
    dsimp only
    rw [show parseStr msg.routing.src = some router from hparse]
    dsimp only
    rw [henv.peerSender_eq hrouter peer]
    by_cases hreload : isSystemKind msg.info.msgType = true ∧ msg.info.msg = some msgOpaReload
    · rw [if_pos hreload]
    · rw [if_neg hreload]
  | fromHive hive msg =>
    have hcontrol : isWanControl msg = true := isWanControl_of_notice hkind
    unfold handleArrival hiveMessage
    dsimp only
    rw [if_pos hcontrol]

end

/-! ### Networks of routers -/

/-- A frame on its way, with the number of the message that it is due to and of the links that led
here from that message's node. -/
structure Flight where
  receiver : Uuid
  arrival : Arrival
  (cause hops : ℕ)

/-- The messages that nodes have sent, the frames on their way and all frames so far. -/
structure Traffic where
  sent : List Message := []
  inFlight : List Flight := []
  caused : List Flight := []

/-- What happens at a router happens with the tables, the policy's answer and the clock that it has
then, whatever they are. -/
inductive TrafficEvent where
  | send (router : Uuid) (msg : Message) (env : Env)
  | receive (i : ℕ) (env : Env)

def TrafficEvent.env : TrafficEvent → Env
  | .send _ _ env | .receive _ env => env

section
-- The system policy, the routers, and which router each hive's sessions end at.
variable (authorizeSystem : String → Option String → String → Bool) (isRouter : Uuid → Bool)
  (gatewayOf : String → Uuid)

def Frame.flight (own : Uuid) (hiveId : String) (cause hops : ℕ) : Frame → Option Flight
  | .toNode .. => none
  | .toRouter router msg => some ⟨router, .fromSibling own msg, cause, hops⟩
  | .toHive hive msg => some ⟨gatewayOf hive, .fromHive hiveId msg, cause, hops⟩

def flights (own : Uuid) (env : Env) (arrival : Arrival) (cause hops : ℕ) : List Flight :=
  (handleArrival authorizeSystem own env arrival).2.frames.filterMap
    (Frame.flight gatewayOf own env.tables.hiveId cause hops)

/-- The frame that an event handles. One to a router that does not exist is never handled. -/
def Traffic.handled (t : Traffic) : TrafficEvent → Option Flight
  | .send .. => none
  | .receive i _ => (t.inFlight[i]?).filter (isRouter ·.receiver)

def Traffic.step (t : Traffic) : TrafficEvent → Traffic
  | .send router msg env =>
    if isRouter router then
      let new := flights authorizeSystem gatewayOf router env (.fromNode msg) t.sent.length 1
      ⟨t.sent ++ [msg], t.inFlight ++ new, t.caused ++ new⟩
    else t
  | .receive i env =>
    match t.handled isRouter (.receive i env) with
    | some f =>
      let new := flights authorizeSystem gatewayOf f.receiver env f.arrival f.cause (f.hops + 1)
      ⟨t.sent, t.inFlight.eraseIdx i ++ new, t.caused ++ new⟩
    | none => t

def Traffic.run (schedule : ℕ → TrafficEvent) : ℕ → Traffic
  | 0 => {}
  | n + 1 => (run schedule n).step authorizeSystem isRouter gatewayOf (schedule n)

def Traffic.causedBy (t : Traffic) (cause : ℕ) : List Flight :=
  t.caused.filter (·.cause = cause)

end

/-! ### Runs -/

variable {t' : Traffic}

section
variable {authorizeSystem : String → Option String → String → Bool} {isRouter : Uuid → Bool}
  {gatewayOf : String → Uuid}

/-- What a new frame is like: the message with a hop less, or the notice of a frame. -/
structure Spawned (own : Uuid) (arrival : Arrival) (cause hops : ℕ) (f : Flight) : Prop where
  link : f.arrival.isLink = true
  cause_eq : f.cause = cause
  hops_eq : f.hops = hops
  ttl : f.arrival.msg.routing.ttl + 1 = arrival.msg.routing.ttl ∧ 1 ≤ f.arrival.msg.routing.ttl ∨
    arrival.isLink = true ∧ IsNoticeOf own f.arrival.msg

theorem spawned_of_flight {own : Uuid} {hiveId : String} {arrival : Arrival} {cause hops : ℕ}
    {frame : Frame} (hframe : Follows own arrival frame)
    (hf : frame.flight gatewayOf own hiveId cause hops = some f) :
    Spawned own arrival cause hops f := by
  have hmsg : f.arrival.msg = frame.msg ∧ frame.isLink = true ∧ f.arrival.isLink = true ∧
      f.cause = cause ∧ f.hops = hops := by
    cases frame <;> cases hf <;> exact ⟨rfl, rfl, rfl, rfl, rfl⟩
  obtain ⟨hmsg, hframelink, hlink, hcause, hhops⟩ := hmsg
  refine ⟨hlink, hcause, hhops, ?_⟩
  rw [hmsg]
  cases hframe with
  | toNode hnode =>
    rw [hnode] at hframelink
    cases hframelink
  | lowered hlow hpos => exact .inl ⟨hlow, hpos⟩
  | notice hfrom hnotice => exact .inr ⟨hfrom, hnotice⟩

theorem spawned_of_mem_flights {own : Uuid} {env : Env} {arrival : Arrival} {cause hops : ℕ} :
    ∀ f ∈ flights authorizeSystem gatewayOf own env arrival cause hops,
      Spawned own arrival cause hops f := by
  intro f hf
  obtain ⟨frame, hframe, hflight⟩ := mem_filterMap.mp hf
  exact spawned_of_flight (follows_handleArrival own env arrival frame hframe) hflight

/-- What an event may do to the traffic, if no table lists a router as a node. -/
inductive Traffic.Stepped (isRouter : Uuid → Bool) (t : Traffic) : Option Flight → Traffic → Prop
  | idle : Stepped isRouter t none t
  | sent {router : Uuid} {msg : Message} {new : List Flight}
      (hnew : ∀ f ∈ new, Spawned router (.fromNode msg) t.sent.length 1 f) :
      Stepped isRouter t none ⟨t.sent ++ [msg], t.inFlight ++ new, t.caused ++ new⟩
  | received {i : ℕ} {f : Flight} {new : List Flight} (hi : t.inFlight[i]? = some f)
      (hrouter : isRouter f.receiver = true)
      (hnew : ∀ f' ∈ new, Spawned f.receiver f.arrival f.cause (f.hops + 1) f')
      (hnotice : f.arrival.isLink = true → isRouterNotice isRouter f.arrival.msg = true → new = []) :
      Stepped isRouter t (some f) ⟨t.sent, t.inFlight.eraseIdx i ++ new, t.caused ++ new⟩

variable {event : TrafficEvent}

theorem Traffic.stepped (t : Traffic) (henv : event.env.Unlisted isRouter) :
    Stepped isRouter t (t.handled isRouter event)
      (t.step authorizeSystem isRouter gatewayOf event) := by
  cases event with
  | send router msg env =>
    unfold step handled
    dsimp only
    split_ifs
    · exact .sent spawned_of_mem_flights
    · exact .idle
  | receive i env =>
    cases hhandled : t.handled isRouter (.receive i env) with
    | none =>
      unfold step
      dsimp only
      rw [hhandled]
      exact .idle
    | some f =>
      unfold step
      dsimp only
      rw [hhandled]
      obtain ⟨hi, hrouter⟩ := filter_eq_some_iff.mp hhandled
      have hnone : f.arrival.isLink = true → isRouterNotice isRouter f.arrival.msg = true →
          flights authorizeSystem gatewayOf f.receiver env f.arrival f.cause (f.hops + 1) = [] := by
        intro hlink hnotice
        have hunlisted : env.Unlisted isRouter := henv
        rw [flights, frames_of_routerNotice f.receiver hunlisted hlink hnotice, filterMap_nil]
      exact .received hi hrouter spawned_of_mem_flights hnone

/-- A frame has come no further than the TTL of its message allows, and unless it is a notice there
are hops left in it. -/
structure Flight.Within (isRouter : Uuid → Bool) (sent : List Message) (f : Flight) : Prop where
  link : f.arrival.isLink = true
  initial : ∃ msg, sent[f.cause]? = some msg ∧ f.hops ≤ msg.routing.ttl ∧
    (isRouterNotice isRouter f.arrival.msg ≠ true → 1 ≤ f.arrival.msg.routing.ttl ∧
      f.hops + f.arrival.msg.routing.ttl ≤ msg.routing.ttl)

variable {sent : List Message}

theorem Flight.Within.mono (h : f.Within isRouter sent) (msg : Message) :
    f.Within isRouter (sent ++ [msg]) := by
  obtain ⟨initial, hsent, hbound⟩ := h.initial
  have hold : (sent ++ [msg])[f.cause]? = some initial := by
    rw [getElem?_append_left (List.getElem?_eq_some_iff.mp hsent).1, hsent]
  exact ⟨h.link, initial, hold, hbound⟩

theorem Spawned.within_sent {msg : Message} (h : Spawned router (.fromNode msg) sent.length 1 f) :
    f.Within isRouter (sent ++ [msg]) := by
  have hsent : (sent ++ [msg])[f.cause]? = some msg := by
    rw [h.cause_eq, getElem?_concat_length]
  have hhops := h.hops_eq
  rcases h.ttl with ⟨hlow, hpos⟩ | ⟨hlink, -⟩
  · have hlow : f.arrival.msg.routing.ttl + 1 = msg.routing.ttl := hlow
    exact ⟨h.link, msg, hsent, by omega, fun _ => ⟨hpos, by omega⟩⟩
  · cases hlink

theorem Spawned.within_received {f' : Flight} (hrouter : isRouter f.receiver = true)
    (hf : f.Within isRouter sent) (hregular : isRouterNotice isRouter f.arrival.msg ≠ true)
    (h : Spawned f.receiver f.arrival f.cause (f.hops + 1) f') : f'.Within isRouter sent := by
  obtain ⟨msg, hsent, hhops, hleft⟩ := hf.initial
  obtain ⟨hpos, hbound⟩ := hleft hregular
  have hnew := h.hops_eq
  have hsent' : sent[f'.cause]? = some msg := by rw [h.cause_eq, hsent]
  refine ⟨h.link, msg, hsent', by omega, fun hother => ?_⟩
  rcases h.ttl with ⟨hlow, hpos'⟩ | ⟨-, hnotice⟩
  · exact ⟨hpos', by omega⟩
  · exact absurd (isRouterNotice_of_isNoticeOf hrouter hnotice) hother

structure Traffic.Bounded (isRouter : Uuid → Bool) (t : Traffic) : Prop where
  within : ∀ f ∈ t.caused, f.Within isRouter t.sent
  known : ∀ f ∈ t.inFlight, f ∈ t.caused

theorem Traffic.Stepped.bounded
    (h : Stepped isRouter t taken t') (hinv : t.Bounded isRouter) : t'.Bounded isRouter := by
  cases h with
  | idle => exact hinv
  | sent hnew =>
    constructor
    · intro f hf
      rcases mem_append.mp hf with hf | hf
      · exact (hinv.within f hf).mono _
      · exact (hnew f hf).within_sent
    · intro f hf
      rcases mem_append.mp hf with hf | hf
      · exact mem_append_left _ (hinv.known f hf)
      · exact mem_append_right _ hf
  | @received i f new hi hrouter hnew hnotice =>
    have hf : f.Within isRouter t.sent := hinv.within f (hinv.known f (mem_of_getElem? hi))
    constructor
    · intro f' hf'
      rcases mem_append.mp hf' with hf' | hf'
      · exact hinv.within f' hf'
      · have hregular : isRouterNotice isRouter f.arrival.msg ≠ true := by
          intro hkind
          rw [hnotice hf.link hkind] at hf'
          cases hf'
        exact (hnew f' hf').within_received hrouter hf hregular
    · intro f' hf'
      rcases mem_append.mp hf' with hf' | hf'
      · exact mem_append_left _ (hinv.known f' (mem_of_mem_eraseIdx hf'))
      · exact mem_append_right _ hf'

/-- What is left in a frame. -/
def Flight.rank (isRouter : Uuid → Bool) (f : Flight) : ℕ :=
  if isRouterNotice isRouter f.arrival.msg then 0 else f.arrival.msg.routing.ttl + 1

theorem Spawned.rank_lt {f' : Flight} (hrouter : isRouter f.receiver = true)
    (hregular : isRouterNotice isRouter f.arrival.msg ≠ true)
    (h : Spawned f.receiver f.arrival f.cause (f.hops + 1) f') :
    f'.rank isRouter < f.rank isRouter := by
  have hrank : f.rank isRouter = f.arrival.msg.routing.ttl + 1 := if_neg hregular
  by_cases hkind : isRouterNotice isRouter f'.arrival.msg = true
  · have hzero : f'.rank isRouter = 0 := if_pos hkind
    omega
  · have hrank' : f'.rank isRouter = f'.arrival.msg.routing.ttl + 1 := if_neg hkind
    rcases h.ttl with ⟨hlow, -⟩ | ⟨-, hnotice⟩
    · omega
    · exact absurd (isRouterNotice_of_isNoticeOf hrouter hnotice) hkind

theorem Traffic.Stepped.cascade
    (h : Stepped isRouter t taken t') (hinv : t.Bounded isRouter) {c : ℕ} (hc : c < t.sent.length) :
    Cascade.Step Flight.cause (Flight.rank isRouter) c t.inFlight taken t'.inFlight := by
  cases h with
  | idle =>
    have hstep : Cascade.Step Flight.cause (Flight.rank isRouter) c t.inFlight none
        (t.inFlight ++ []) := .start fun _ hf => absurd hf not_mem_nil
    rwa [append_nil] at hstep
  | sent hnew =>
    apply Cascade.Step.start
    intro f hf
    rw [(hnew f hf).cause_eq]
    exact hc.ne'
  | @received i f new hi hrouter hnew hnotice =>
    have hf : f.Within isRouter t.sent := hinv.within f (hinv.known f (mem_of_getElem? hi))
    apply Cascade.Step.fire hi
    intro f' hf'
    have hregular : isRouterNotice isRouter f.arrival.msg ≠ true := by
      intro hkind
      rw [hnotice hf.link hkind] at hf'
      cases hf'
    exact ⟨(hnew f' hf').cause_eq, (hnew f' hf').rank_lt hrouter hregular⟩

theorem Traffic.Stepped.sent_length
    (h : Stepped isRouter t taken t') : t.sent.length ≤ t'.sent.length := by
  cases h with
  | idle | received => exact le_rfl
  | sent hnew =>
    rw [length_append]
    exact le_add_right _ _

theorem Traffic.Stepped.causedBy_eq
    (h : Stepped isRouter t taken t') {c : ℕ} (hc : c < t.sent.length)
    (hother : ∀ f ∈ taken, f.cause ≠ c) : t'.causedBy c = t.causedBy c := by
  have hnone : ∀ new : List Flight, (∀ f ∈ new, f.cause ≠ c) →
      (t.caused ++ new).filter (·.cause = c) = t.causedBy c := by
    intro new hnew
    have hempty : new.filter (·.cause = c) = [] := by
      rw [filter_eq_nil_iff]
      intro f hf
      rw [decide_eq_true_eq]
      exact hnew f hf
    rw [filter_append, hempty, append_nil]
    rfl
  cases h with
  | idle => rfl
  | sent hnew =>
    apply hnone
    intro f hf
    rw [(hnew f hf).cause_eq]
    exact hc.ne'
  | @received i f new hi hrouter hnew hnotice =>
    apply hnone
    intro f' hf'
    rw [(hnew f' hf').cause_eq]
    exact hother f rfl

theorem Traffic.mem_inFlight_of_handled (hf : f ∈ t.handled isRouter event) : f ∈ t.inFlight := by
  cases event with
  | send router msg env => cases hf
  | receive i env => exact mem_of_getElem? (filter_eq_some_iff.mp hf).1

theorem Traffic.Bounded.sends_on (hinv : t.Bounded isRouter) (henv : event.env.Unlisted isRouter)
    (hf : f ∈ t.handled isRouter event) {frame : Frame}
    (hframe : frame ∈ (handleArrival authorizeSystem f.receiver event.env f.arrival).2.frames) :
    isRouterNotice isRouter f.arrival.msg = false ∧ (frame.isLink = true →
      frame.msg.routing.ttl + 1 ≤ f.arrival.msg.routing.ttl ∨ IsNoticeOf f.receiver frame.msg) := by
  have hlink := (hinv.within f (hinv.known f (mem_inFlight_of_handled hf))).link
  constructor
  · rw [Bool.eq_false_iff]
    intro hnotice
    rw [frames_of_routerNotice f.receiver henv hlink hnotice] at hframe
    cases hframe
  · intro hframelink
    have hfollows := follows_handleArrival f.receiver event.env f.arrival frame hframe
    cases hfollows with
    | toNode hnode =>
      rw [hframelink] at hnode
      cases hnode
    | lowered hlow hpos => exact .inl (le_of_eq hlow)
    | notice hfrom hnotice => exact .inr hnotice

section
variable {schedule : ℕ → TrafficEvent} (hunlisted : ∀ n, (schedule n).env.Unlisted isRouter)
include hunlisted

theorem Traffic.run_bounded (n : ℕ) :
    (run authorizeSystem isRouter gatewayOf schedule n).Bounded isRouter := by
  induction n with
  | zero => exact ⟨fun f hf => absurd hf not_mem_nil, fun f hf => absurd hf not_mem_nil⟩
  | succ n ih => exact (stepped _ (hunlisted n)).bounded ih

theorem Traffic.run_sent_length {m n : ℕ} (h : m ≤ n) :
    (run authorizeSystem isRouter gatewayOf schedule m).sent.length ≤
      (run authorizeSystem isRouter gatewayOf schedule n).sent.length := by
  induction n, h using le_induction with
  | base => exact le_rfl
  | succ n _ ih => exact ih.trans (stepped _ (hunlisted n)).sent_length

theorem Traffic.message_dies_out {m c : ℕ}
    (hc : c < (run authorizeSystem isRouter gatewayOf schedule m).sent.length) :
    ∃ N, ∀ n ≥ N,
      (∀ f ∈ (run authorizeSystem isRouter gatewayOf schedule n).handled isRouter (schedule n),
        f.cause ≠ c) ∧
      (run authorizeSystem isRouter gatewayOf schedule n).causedBy c =
        (run authorizeSystem isRouter gatewayOf schedule N).causedBy c := by
  have hsent : ∀ k, c < (run authorizeSystem isRouter gatewayOf schedule (m + k)).sent.length :=
    fun k => hc.trans_le (run_sent_length hunlisted (le_add_right m k))
  have hcascade : ∀ k, Cascade.Step Flight.cause (Flight.rank isRouter) c
      (run authorizeSystem isRouter gatewayOf schedule (m + k)).inFlight
      ((run authorizeSystem isRouter gatewayOf schedule (m + k)).handled isRouter
        (schedule (m + k)))
      (run authorizeSystem isRouter gatewayOf schedule (m + (k + 1))).inFlight :=
    fun k => (stepped _ (hunlisted (m + k))).cascade (run_bounded hunlisted (m + k)) (hsent k)
  obtain ⟨K, hK⟩ := Cascade.dies_out hcascade
  have hquiet : ∀ n ≥ m + K, ∀ f ∈ (run authorizeSystem isRouter gatewayOf schedule n).handled
      isRouter (schedule n), f.cause ≠ c := by
    intro n hn
    obtain ⟨k, rfl⟩ := Nat.exists_eq_add_of_le ((le_add_right m K).trans hn)
    exact hK k (by omega)
  refine ⟨m + K, fun n hn => ⟨hquiet n hn, ?_⟩⟩
  induction n, hn using le_induction with
  | base => rfl
  | succ n hn ih =>
    have hlength := hc.trans_le (run_sent_length hunlisted ((le_add_right m K).trans hn))
    exact ((stepped _ (hunlisted n)).causedBy_eq hlength (hquiet n hn)).trans ih

end

/-- A frame that goes on for a frame or a message has a lower TTL or is the router's own notice; a
router's notice leads to no frame. So the frames of each message come to an end, and none of them has
crossed more links than the message's TTL. -/
theorem forwarding_terminates (schedule : ℕ → TrafficEvent)
    (hunlisted : ∀ n, (schedule n).env.Unlisted isRouter) :
    (∀ n, ∀ f ∈ (Traffic.run authorizeSystem isRouter gatewayOf schedule n).handled isRouter
        (schedule n), ∀ frame ∈ (handleArrival authorizeSystem f.receiver (schedule n).env
          f.arrival).2.frames,
        isRouterNotice isRouter f.arrival.msg = false ∧ (frame.isLink = true →
          frame.msg.routing.ttl + 1 ≤ f.arrival.msg.routing.ttl ∨
            IsNoticeOf f.receiver frame.msg)) ∧
      (∀ n router msg env, schedule n = .send router msg env →
        ∀ frame ∈ (handleArrival authorizeSystem router env (.fromNode msg)).2.frames,
          frame.isLink = true → frame.msg.routing.ttl + 1 ≤ msg.routing.ttl) ∧
      (∀ m c, c < (Traffic.run authorizeSystem isRouter gatewayOf schedule m).sent.length →
        ∃ N, ∀ n ≥ N,
          (∀ f ∈ (Traffic.run authorizeSystem isRouter gatewayOf schedule n).handled isRouter
            (schedule n), f.cause ≠ c) ∧
          (Traffic.run authorizeSystem isRouter gatewayOf schedule n).causedBy c =
            (Traffic.run authorizeSystem isRouter gatewayOf schedule N).causedBy c) ∧
      ∀ n, ∀ f ∈ (Traffic.run authorizeSystem isRouter gatewayOf schedule n).caused, ∃ msg,
        (Traffic.run authorizeSystem isRouter gatewayOf schedule n).sent[f.cause]? = some msg ∧
          f.hops ≤ msg.routing.ttl := by
  refine ⟨?_, ?_, fun m c hc => Traffic.message_dies_out hunlisted hc, ?_⟩
  · intro n f hf frame hframe
    exact (Traffic.run_bounded hunlisted n).sends_on (hunlisted n) hf hframe
  · intro n router msg env _ frame hframe hlink
    have hfollows := follows_handleArrival router env (.fromNode msg) frame hframe
    cases hfollows with
    | toNode hnode =>
      rw [hlink] at hnode
      cases hnode
    | lowered hlow hpos => exact le_of_eq hlow
    | notice hfrom hnotice => cases hfrom
  · intro n f hf
    obtain ⟨msg, hsent, hhops, -⟩ := ((Traffic.run_bounded hunlisted n).within f hf).initial
    exact ⟨msg, hsent, hhops⟩

end

namespace Relay

def isRouter (u : Uuid) : Bool := u == Twin.router || u == Twin.gateway

def env (tables : RouterTables) : Env where
  tables
  rereadSnapshot := none
  rereadFib := []
  cache := ∅
  opa := .noTarget
  now := 0
  taps := none
  mint _ := ""

def message (dst : Uuid) (ttl : ℕ) : Message :=
  ⟨⟨Twin.sender.hyphenated, none, .unicast dst.hyphenated, ttl, zeroUuid.hyphenated⟩,
    ⟨"text", none, none, none, none, none, false⟩, .null⟩

/-- A message for the gateway's node, which the gateway then handles. -/
def schedule : ℕ → TrafficEvent
  | 0 => .send Twin.router (message Twin.listener 2) (env Twin.routerTables)
  | _ => .receive 0 (env Twin.gatewayTables)

theorem unlisted_env {tables : RouterTables} (hrouter : tables.peerNodes.lookup Twin.router = none)
    (hgateway : tables.peerNodes.lookup Twin.gateway = none) (hlsa : tables.lsaSnapshot = none) :
    (env tables).Unlisted isRouter := by
  intro router hcases
  have hremote : findRemoteNode tables.lsaSnapshot router = none := by
    rw [hlsa]
    rfl
  simp only [isRouter, Bool.or_eq_true, beq_iff_eq] at hcases
  rcases hcases with rfl | rfl
  · exact ⟨hrouter, hremote, rfl⟩
  · exact ⟨hgateway, hremote, rfl⟩

theorem unlisted (n : ℕ) : (schedule n).env.Unlisted isRouter := by
  cases n with
  | zero | succ n => exact unlisted_env (by decide +kernel) (by decide +kernel) rfl

/-- Each router lists a node under the other's UUID. -/
def mutualTables (tables : RouterTables) (other : Uuid) : RouterTables :=
  { tables with peerNodes := tables.peerNodes.insert other ⟨"AI.c@motherbee", 0, other⟩ }

def echo (router other : Uuid) : Message :=
  buildSystemMessage router.hyphenated (.unicast other.hyphenated) 16 zeroUuid.hyphenated
    msgUnreachable
    (.obj [("original_dst", .str router.hyphenated), ("reason", .str "NODE_NOT_FOUND")])

end Relay

/-- One link is crossed, and the frames of the message come to an end. -/
theorem forwarding_terminates_within_hive :
    (∀ n, (Relay.schedule n).env.Unlisted Relay.isRouter) ∧
      ((Traffic.run Twin.deny Relay.isRouter (fun _ => Twin.gateway) Relay.schedule 1).causedBy
        0).map (fun f => (f.receiver, f.hops)) = [(Twin.gateway, 1)] ∧
      ∃ N, ∀ n ≥ N,
        (Traffic.run Twin.deny Relay.isRouter (fun _ => Twin.gateway) Relay.schedule n).causedBy 0 =
          (Traffic.run Twin.deny Relay.isRouter (fun _ => Twin.gateway) Relay.schedule N).causedBy
            0 := by
  obtain ⟨-, -, hends, -⟩ := @forwarding_terminates Twin.deny Relay.isRouter
    (fun _ => Twin.gateway) Relay.schedule Relay.unlisted
  obtain ⟨N, hN⟩ := hends 1 0 (by decide +kernel)
  exact ⟨Relay.unlisted, by decide +kernel, N, fun n hn => (hN n hn).2⟩

/-- The last hop of a frame to a node that is gone leads to a notice of sixteen. Two routers that
list each other as nodes answer their notices with notices for ever. -/
theorem notice_starts_afresh :
    ((handleArrival Twin.deny Twin.gateway (Relay.env Twin.gatewayTables)
        (.fromSibling Twin.router (Relay.message zeroUuid 1))).2.frames.map fun frame =>
          (frame.isLink, frame.msg.routing.ttl)) = [(true, 16)] ∧
      (handleArrival Twin.deny Twin.gateway
        (Relay.env (Relay.mutualTables Twin.gatewayTables Twin.router))
        (.fromSibling Twin.router (Relay.echo Twin.router Twin.gateway))).2.frames =
          [.toRouter Twin.router (Relay.echo Twin.gateway Twin.router)] ∧
      (handleArrival Twin.deny Twin.router
        (Relay.env (Relay.mutualTables Twin.routerTables Twin.gateway))
        (.fromSibling Twin.gateway (Relay.echo Twin.gateway Twin.router))).2.frames =
          [.toRouter Twin.gateway (Relay.echo Twin.router Twin.gateway)] := by
  decide +kernel

end Fluxbee.Router
