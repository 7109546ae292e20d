import Fluxbee.Router.Handlers
import Fluxbee.Router.Wan

/-! A router hands a message to one of its nodes only if the VPNs of the sender, as the router holds
it, and of the node allow it. Notices of other routers are passed on unseen, and a frame of another
hive counts as one by its kind alone. -/
namespace Fluxbee.Router
open Text Shm Lsa Option List

/-- The gate of a message: that of a broadcast, or that of a message addressed to its receiver. -/
def vpnAllows (msg : Message) (src : Source) (dst : NodeHandle) : Bool :=
  if msg.routing.dst = .broadcast then
    vpnAllowsBroadcastBetween msg.info src.name src.vpnId dst.name dst.vpnId
  else vpnAllowsBetween msg.info src.name src.vpnId dst.name dst.vpnId

section
variable (env : Env) (arrival : Arrival)

def heldSender : Option Source :=
  (Uuid.parseStr arrival.msg.routing.src).bind fun srcUuid =>
    match arrival with
    | .fromNode _ => (env.tables.nodes.lookup srcUuid).map fun handle =>
        ⟨srcUuid, handle.name, handle.vpnId⟩
    | .fromSibling peer _ => peerSender env peer srcUuid
    | .fromHive hive _ => (wanFrameSource env.tables srcUuid hive).map fun info =>
        ⟨srcUuid, canonicalWanSrcName info.name info.hiveId, info.vpnId⟩

/-- Every record of a node under this UUID: as a node of the router's own or of a sibling, in the link
state of whichever hive, current or not, and among those that a hive vouches for. -/
def heldRecords (t : RouterTables) (uuid : Uuid) : List Source :=
  ((t.nodes.lookup uuid).map fun handle => ⟨uuid, handle.name, handle.vpnId⟩).toList ++
    ((t.peerNodes.lookup uuid).map fun node => ⟨uuid, node.name, node.vpnId⟩).toList ++
    (((t.lsaSnapshot.toList.flatMap (·.nodes)).filter fun node =>
      node.nameLen ≠ 0 ∧ node.uuid = uuid).map fun node => ⟨uuid, node.text, node.vpnId⟩) ++
    ((findReachableNode t.reachability uuid).map fun info => ⟨uuid, info.name, info.vpnId⟩).toList

/-- The sender as the router resolves it for this arrival, or else every record of its UUID. -/
def heldSenders : List Source :=
  match heldSender env arrival, Uuid.parseStr arrival.msg.routing.src, arrival with
  | some src, _, _ => [src]
  | none, none, _ => []
  | none, some srcUuid, .fromSibling _ _ => heldRecords env.fresh srcUuid
  | none, some srcUuid, _ => heldRecords env.tables srcUuid

/-- A message handed to a node that its sender may reach. -/
def Isolated (d : Uuid × Message) : Prop :=
  heldSenders env arrival ≠ [] ∧ ∃ dst ∈ env.tables.nodes.lookup d.1,
    ∀ src ∈ heldSenders env arrival, vpnAllows d.2 src dst = true

/-- A notice of a router: its sender is no node that this router has any record of. -/
def IsRouterNotice (d : Uuid × Message) : Prop :=
  isNoticeKind d.2 = true ∧ heldSenders env arrival = []

/-- Whoever the router holds under the sender's UUID may reach the node that the message is for. -/
def MayReach (msg : Message) : Prop :=
  ∀ src ∈ heldSenders env arrival, ∀ d ∈ passNotice env.tables.nodes msg,
    ∀ dst ∈ env.tables.nodes.lookup d.1, vpnAllows msg src dst = true

/-- What looks like a notice, in a frame of another hive or in one of a sibling whose sender the router
does not resolve, comes from no node, or from one that may reach the node it is for. -/
def NoticeGenuine : Prop :=
  match arrival with
  | .fromNode _ => True
  | .fromSibling _ msg =>
    isNoticeKind msg = true → heldSender env arrival = none → MayReach env arrival msg
  | .fromHive _ msg => isNoticeKind msg = true → MayReach env arrival msg

end

/-! ### The nodes that a message is routed to -/

/-- Every receiver is a node of the router that the sender may reach. -/
def Cleared (nodes : Nodes) (src : Source) (msg : Message) (locals : List (Uuid × NodeHandle)) :
    Prop :=
  ∀ node ∈ locals, nodes.lookup node.1 = some node.2 ∧ vpnAllows msg src node.2 = true

section

variable {t : RouterTables} {src : Source} {msg : Message}

theorem cleared_nil : Cleared t.nodes src msg [] := by
  intro node hnode
  cases hnode

theorem vpnAllows_addressed (hdst : msg.routing.dst ≠ .broadcast) (dst : NodeHandle) :
    vpnAllows msg src dst = vpnAllowsBetween msg.info src.name src.vpnId dst.name dst.vpnId :=
  if_neg hdst

theorem cleared_ifAllowed (hdst : msg.routing.dst ≠ .broadcast) {uuid : Uuid} {handle : NodeHandle}
    (hnode : t.nodes.lookup uuid = some handle) :
    Cleared t.nodes src msg
      (ifAllowed src msg handle.name handle.vpnId { locals := [(uuid, handle)] }).locals := by
  unfold ifAllowed
  split_ifs with hallowed
  · intro node hmem
    rw [mem_singleton.mp hmem]
    exact ⟨hnode, (vpnAllows_addressed hdst handle).trans hallowed⟩
  · exact cleared_nil

theorem locals_ifAllowed (name : String) (vpnId : ℕ) (sent : List Sent) :
    (ifAllowed src msg name vpnId { sent }).locals = [] := by
  unfold ifAllowed
  split_ifs
  · rfl
  · rfl

section
variable (hdst : msg.routing.dst ≠ .broadcast)
include hdst

theorem cleared_routeUuid (dst : Uuid) :
    Cleared t.nodes src msg (routeUuid t src msg dst).locals := by
  unfold routeUuid
  cases hnode : t.nodes.lookup dst with
  | some handle => exact cleared_ifAllowed hdst hnode
  | none =>
    cases t.peerNodes.lookup dst with
    | some node =>
      rw [locals_ifAllowed]
      exact cleared_nil
    | none =>
      cases (findRemoteNode t.lsaSnapshot dst).or (findReachableNode t.reachability dst) with
      | some remote =>
        rw [locals_ifAllowed]
        exact cleared_nil
      | none => exact cleared_nil

theorem cleared_peerRouteUuid (dst : Uuid) :
    Cleared t.nodes src msg (peerRouteUuid t src msg dst).locals := by
  unfold peerRouteUuid
  cases hnode : t.nodes.lookup dst with
  | some handle => exact cleared_ifAllowed hdst hnode
  | none =>
    cases (findRemoteNode t.lsaSnapshot dst).or (findReachableNode t.reachability dst) with
    | some remote =>
      rw [locals_ifAllowed]
      exact cleared_nil
    | none => exact cleared_nil

theorem cleared_followRoute (route : ResolvedRoute) :
    Cleared t.nodes src msg (followRoute t src msg route).locals := by
  cases route with
  | deliver dst =>
    unfold followRoute
    dsimp only
    cases hnode : t.nodes.lookup dst with
    | some handle => exact cleared_ifAllowed hdst hnode
    | none => exact cleared_nil
  | drop | unreachable reason | forwardRouter router | forwardHive hive => exact cleared_nil

end

theorem cleared_fanOut (hdst : msg.routing.dst = .broadcast) :
    Cleared t.nodes src msg (fanOut t src msg) := by
  intro node hmem
  obtain ⟨e, he, rfl⟩ := List.mem_map.mp hmem
  obtain ⟨hentry, hkept⟩ := mem_filter.mp he
  obtain ⟨-, hallowed, -⟩ := of_decide_eq_true hkept
  exact ⟨AList.mem_entries_iff.mp hentry, (if_pos hdst).trans hallowed⟩

theorem cleared_route (cache : BroadcastCache) (now : ℕ) (opa : OpaAnswer) (toWan : List Sent) :
    Cleared t.nodes src msg (route t src msg cache now opa toWan).2.locals := by
  unfold route
  cases hdst : msg.routing.dst with
  | unicast dst =>
    have haddressed : msg.routing.dst ≠ .broadcast := by
      rw [hdst]
      exact nofun
    dsimp only
    unfold routeUnicast
    cases Uuid.parseStr dst with
    | some uuid => exact cleared_routeUuid haddressed uuid
    | none => exact cleared_followRoute haddressed _
  | broadcast =>
    unfold routeBroadcast
    cases Uuid.parseStr msg.routing.traceId with
    | none => exact cleared_nil
    | some traceId =>
      dsimp only
      by_cases hfresh : (checkAndAdd cache traceId now).2 = true
      · rw [if_pos hfresh]
        exact cleared_fanOut hdst
      · rw [if_neg hfresh]
        exact cleared_nil
  | resolve =>
    have haddressed : msg.routing.dst ≠ .broadcast := by
      rw [hdst]
      exact nofun
    cases opa with
    | failed | noTarget => exact cleared_nil
    | target name => exact cleared_followRoute haddressed _

theorem cleared_peerRouteName (own peer : Uuid) (hdst : msg.routing.dst ≠ .broadcast)
    (target : String) : Cleared t.nodes src msg (peerRouteName own t peer src msg target).locals := by
  unfold peerRouteName
  split
  · exact cleared_nil
  · exact cleared_followRoute hdst _

theorem cleared_peerRoute (own peer : Uuid) (opa : OpaAnswer) :
    Cleared t.nodes src msg (peerRoute own t peer src msg opa).locals := by
  unfold peerRoute
  cases hdst : msg.routing.dst with
  | unicast dst =>
    have haddressed : msg.routing.dst ≠ .broadcast := by
      rw [hdst]
      exact nofun
    dsimp only
    cases Uuid.parseStr dst with
    | some uuid => exact cleared_peerRouteUuid haddressed uuid
    | none => exact cleared_peerRouteName own peer haddressed dst
  | broadcast => exact cleared_fanOut hdst
  | resolve =>
    have haddressed : msg.routing.dst ≠ .broadcast := by
      rw [hdst]
      exact nofun
    cases opa with
    | failed | noTarget => exact cleared_nil
    | target name => exact cleared_peerRouteName own peer haddressed name

end

/-! ### Deliveries -/

variable {msg : Message} {d : Uuid × Message}

section

variable {authorizeSystem : String → Option String → String → Bool} {env : Env} {arrival : Arrival}
  {src : Source}

theorem heldSenders_of_held (hheld : heldSender env arrival = some src) :
    heldSenders env arrival = [src] := by
  unfold heldSenders
  rw [hheld]

theorem not_isolated_of_refused (hheld : heldSender env arrival = some src) {dst : NodeHandle}
    (hnode : env.tables.nodes.lookup d.1 = some dst) (hrefused : vpnAllows d.2 src dst = false) :
    ¬ Isolated env arrival d ∧ ¬ IsRouterNotice env arrival d := by
  have hsenders := heldSenders_of_held hheld
  constructor
  · rintro ⟨-, dst', hdst', hallowed⟩
    cases mem_unique hnode hdst'
    have hsrc := hallowed src (hsenders ▸ mem_singleton_self src)
    rw [hrefused] at hsrc
    cases hsrc
  · rintro ⟨-, hunknown⟩
    rw [hsenders] at hunknown
    cases hunknown

theorem isolated_deliverLocally {locals : List (Uuid × NodeHandle)}
    (hheld : heldSender env arrival = some src)
    (hcleared : Cleared env.tables.nodes src msg locals) {hiveId : String} {viaHub : Bool}
    (hd : d ∈ deliverLocally authorizeSystem hiveId msg viaHub locals) :
    Isolated env arrival d := by
  unfold deliverLocally at hd
  split at hd
  next prepared hprep =>
    obtain ⟨node, hnode, rfl⟩ := List.mem_map.mp hd
    obtain ⟨hlookup, hallowed⟩ := hcleared node hnode
    have hstamped := prepareLocalDelivery_stamped authorizeSystem hprep
    -- The gate reads none of the fields that a delivery stamps.
    have hgate : vpnAllows prepared src node.2 = true := by
      rw [hstamped]
      exact hallowed
    have hsenders := heldSenders_of_held hheld
    refine ⟨hsenders ▸ cons_ne_nil _ _, node.2, hlookup, fun src' hsrc' => ?_⟩
    rw [hsenders] at hsrc'
    rw [mem_singleton.mp hsrc']
    exact hgate
  · cases hd

theorem isolated_relay (hheld : heldSender env arrival = some src) {cache : BroadcastCache}
    {viaHub : Bool} {opa : OpaAnswer} {now : ℕ} {toWan : List Sent}
    (hd : d ∈ (relay authorizeSystem env.tables cache src viaHub msg opa now toWan).2.delivered) :
    Isolated env arrival d := by
  unfold relay at hd
  split_ifs at hd with httl
  · cases hd
  · dsimp only at hd
    exact isolated_deliverLocally hheld (cleared_route cache now opa toWan) hd

section
variable (own : Uuid)

theorem isolated_sendTapCopy (hheld : heldSender env arrival = some src) {copy : Message}
    (hdst : copy.routing.dst ≠ .broadcast) {target : String}
    (hd : d ∈ (sendTapCopy authorizeSystem own env.tables src copy target).delivered) :
    Isolated env arrival d := by
  unfold sendTapCopy at hd
  cases hroute : resolveByName ⟨src.name, src.vpnId, 0⟩ env.tables.nodes env.tables.fib copy.info
      target with
  | drop | unreachable reason | forwardHive hive =>
    rw [hroute] at hd
    cases hd
  | forwardRouter router =>
    rw [hroute] at hd
    dsimp only at hd
    split_ifs at hd <;> cases hd
  | deliver uuid =>
    rw [hroute] at hd
    dsimp only at hd
    split at hd
    next handle hnode =>
      split_ifs at hd with hallowed
      · dsimp only at hd
        have hcleared : Cleared env.tables.nodes src copy [(uuid, handle)] := by
          intro node hmem
          rw [mem_singleton.mp hmem]
          exact ⟨hnode, (vpnAllows_addressed hdst handle).trans hallowed⟩
        exact isolated_deliverLocally hheld hcleared hd
      · cases hd
    · cases hd

theorem isolated_fanoutTaps (hheld : heldSender env arrival = some src)
    {taps : Option (List TapEntry)} {mint : ℕ → String} {outcome : Outcome}
    (houtcome : outcome ∈ fanoutTaps authorizeSystem own env.tables src taps mint msg)
    (hd : d ∈ outcome.delivered) : Isolated env arrival d := by
  obtain ⟨target, i, rfl⟩ := mem_fanoutTaps authorizeSystem own houtcome
  have haddressed : (tapCopy msg target (mint i)).routing.dst ≠ .broadcast :=
    Destination.noConfusion
  exact isolated_sendTapCopy own hheld haddressed hd

theorem isolated_nodeMessage (msg : Message) :
    ∀ d ∈ (nodeMessage authorizeSystem own env msg).2.delivered,
      Isolated env (.fromNode msg) d := by
  intro d hd
  unfold nodeMessage at hd
  split at hd
  · cases hd
  next srcUuid hsrc =>
    cases hnode : env.tables.nodes.lookup srcUuid with
    | none =>
      rw [hnode] at hd
      cases hd
    | some handle =>
      have hheld : heldSender env (.fromNode msg) = some ⟨srcUuid, handle.name, handle.vpnId⟩ := by
        simp only [heldSender, Arrival.msg, hsrc, bind_some, hnode, map_some]
      rw [hnode] at hd
      rcases mem_append.mp hd with hd | hd
      · unfold handleMessage Handled.outcome at hd
        rw [hsrc] at hd
        dsimp only at hd
        rw [hnode] at hd
        exact isolated_relay hheld hd
      · obtain ⟨outcome, houtcome, hd⟩ := mem_flatMap.mp hd
        exact isolated_fanoutTaps own hheld houtcome hd

theorem isNoticeKind_of_reload
    (h : isSystemKind msg.info.msgType = true ∧ msg.info.msg = some msgOpaReload) :
    isNoticeKind msg = false := by
  unfold isNoticeKind
  simp [h.2, msgOpaReload, msgUnreachable, msgTtlExceeded]

theorem notice_isolated_iff (hkind : isNoticeKind msg = true) :
    (∀ d ∈ passNotice env.tables.nodes msg, Isolated env arrival d ∨ IsRouterNotice env arrival d) ↔
      MayReach env arrival msg := by
  constructor
  · intro h src hsrc d hd dst hdst
    obtain ⟨-, hsame⟩ := mem_passNotice hd
    rcases h d hd with ⟨-, dst', hdst', hallowed⟩ | ⟨-, hunknown⟩
    · cases mem_unique hdst hdst'
      exact hsame ▸ hallowed src hsrc
    · rw [hunknown] at hsrc
      cases hsrc
  · intro h d hd
    obtain ⟨hnode, hsame⟩ := mem_passNotice hd
    by_cases hheld : heldSenders env arrival = []
    · exact .inr ⟨hsame ▸ hkind, hheld⟩
    · obtain ⟨dst, hdst⟩ := isSome_iff_exists.mp (AList.lookup_isSome.mpr hnode)
      exact .inl ⟨hheld, dst, hdst, fun src hsrc => hsame ▸ h src hsrc d hd dst hdst⟩

theorem isolated_siblingMessage_iff (own peer : Uuid) (msg : Message) :
    (∀ d ∈ (siblingMessage authorizeSystem own env peer msg).delivered,
      Isolated env (.fromSibling peer msg) d ∨ IsRouterNotice env (.fromSibling peer msg) d) ↔
        NoticeGenuine env (.fromSibling peer msg) := by
  unfold siblingMessage NoticeGenuine
  cases hsrc : Uuid.parseStr msg.routing.src with
  | none =>
    refine iff_of_true (forall_mem_nil _) fun _ hheld src hmem => ?_
    unfold heldSenders at hmem
    rw [hheld] at hmem
    simp [Arrival.msg, hsrc] at hmem
  | some srcUuid =>
    have hheld : heldSender env (.fromSibling peer msg) = peerSender env peer srcUuid := by
      simp only [heldSender, Arrival.msg, hsrc, bind_some]
    dsimp only
    by_cases hreload : isSystemKind msg.info.msgType = true ∧ msg.info.msg = some msgOpaReload
    · rw [if_pos hreload, isNoticeKind_of_reload hreload]
      exact iff_of_true (forall_mem_nil _) nofun
    · rw [if_neg hreload]
      cases hsender : peerSender env peer srcUuid with
      | none =>
        -- Only a message whose sender is not resolved is taken for a notice.
        rw [hsender] at hheld
        by_cases hkind : isNoticeKind msg = true
        · rw [if_pos hkind]
          refine (notice_isolated_iff hkind).trans ⟨fun h _ _ => h, fun h => h hkind hheld⟩
        · rw [if_neg hkind]
          exact iff_of_true (forall_mem_nil _) fun hnotice => absurd hnotice hkind
      | some src =>
        rw [hsender] at hheld
        refine iff_of_true (fun d hd => ?_) fun _ hnone => nomatch hheld.symm.trans hnone
        dsimp only at hd
        split_ifs at hd with httl
        · cases hd
        · dsimp only at hd
          have hcleared : Cleared env.tables.nodes src (msg.namedAs src.name)
              (peerRoute own env.fresh peer src (msg.namedAs src.name) env.opa).locals :=
            cleared_peerRoute (t := env.fresh) own peer env.opa
          exact .inl (isolated_deliverLocally hheld hcleared hd)

theorem isolated_handleWanFrame (hive : String) (msg : Message) :
    ∀ d ∈ (handleWanFrame authorizeSystem env.tables env.cache hive msg env.opa
        env.now).2.delivered, Isolated env (.fromHive hive msg) d := by
  intro d hd
  unfold handleWanFrame at hd
  split at hd
  · cases hd
  next srcUuid hsrc =>
    split at hd
    · cases hd
    next info hinfo =>
      have hheld : heldSender env (.fromHive hive msg) =
          some ⟨srcUuid, canonicalWanSrcName info.name info.hiveId, info.vpnId⟩ := by
        simp only [heldSender, Arrival.msg, hsrc, bind_some, hinfo, map_some]
      exact isolated_relay hheld hd

theorem delivered_notice (hive : String) (hkind : isNoticeKind msg = true) :
    (hiveMessage authorizeSystem own env hive msg).2.delivered =
      passNotice env.tables.nodes msg := by
  unfold hiveMessage
  rw [if_pos (isWanControl_of_notice hkind), if_pos hkind]

theorem isolated_hiveMessage (hive : String) (hkind : isNoticeKind msg ≠ true) :
    ∀ d ∈ (hiveMessage authorizeSystem own env hive msg).2.delivered,
      Isolated env (.fromHive hive msg) d := by
  intro d hd
  unfold hiveMessage at hd
  by_cases hcontrol : isWanControl msg = true
  · rw [if_pos hcontrol, if_neg hkind] at hd
    cases hd
  · rw [if_neg hcontrol] at hd
    exact isolated_handleWanFrame hive msg d hd

end

end

/-- Whatever its tables hold, what a router hands to its nodes for a frame is a router's notice or
between nodes that may reach each other, exactly if the frame is no other node's notice. -/
theorem vpn_isolation_iff (authorizeSystem : String → Option String → String → Bool) (own : Uuid)
    (env : Env) (arrival : Arrival) :
    (∀ d ∈ (handleArrival authorizeSystem own env arrival).2.delivered,
      Isolated env arrival d ∨ IsRouterNotice env arrival d) ↔ NoticeGenuine env arrival := by
  cases arrival with
  | fromNode msg =>
    exact ⟨fun _ => trivial, fun _ d hd => .inl (isolated_nodeMessage own msg d hd)⟩
  | fromSibling peer msg => exact isolated_siblingMessage_iff own peer msg
  | fromHive hive msg =>
    unfold handleArrival
    by_cases hkind : isNoticeKind msg = true
    · rw [delivered_notice own hive hkind, notice_isolated_iff hkind]
      exact ⟨fun h _ => h, fun h => h hkind⟩
    · constructor
      · intro _ hnotice
        exact absurd hnotice hkind
      · intro _ d hd
        exact .inl (isolated_hiveMessage own hive hkind d hd)

namespace Forged

def sender : Uuid := zeroUuid
def receiver : Uuid := .uniform 1

/-- A gateway with a node of VPN 1, and a node of `worker` in VPN 2 that the region lists. -/
def env : Env where
  tables :=
    { hiveId := "motherbee"
      isGateway := true
      nodes := (∅ : Nodes).insert receiver ⟨"AI.b@motherbee", 1, 0⟩
      peerNodes := ∅
      peerRouters := ∅
      peers := []
      wanPeers := (∅ : AList fun _ : String => WanPeer).insert "worker" ⟨0, zeroUuid⟩
      fib := []
      lsaSnapshot := WanRouter.Remote.router.lsaSnapshot.map fun snapshot => { snapshot with
        nodes := [{ emptyRemoteNode with name := asBytes "AI.a@worker", nameLen := 11, vpnId := 2 }] }
      reachability := ∅ }
  rereadSnapshot := none
  rereadFib := []
  cache := {}
  opa := .noTarget
  now := 0
  taps := none
  mint _ := ""

def frame (msgType : String) : Message :=
  ⟨⟨sender.hyphenated, none, .unicast receiver.hyphenated, 8, ""⟩,
    ⟨msgType, some msgUnreachable, none, none, none, none, false⟩, .str "data"⟩

end Forged

open Forged

/-- A node's message that calls itself a notice reaches a node of another VPN; as a text it is
refused. -/
theorem notice_crosses_vpns :
    (handleArrival Twin.deny zeroUuid Forged.env
        (.fromHive "worker" (Forged.frame "text"))).2.delivered = [] ∧
      (handleArrival Twin.deny zeroUuid Forged.env
        (.fromHive "worker" (Forged.frame systemKind))).2.delivered =
          [(Forged.receiver, Forged.frame systemKind)] ∧
      ¬ Isolated Forged.env (.fromHive "worker" (Forged.frame systemKind))
        (Forged.receiver, Forged.frame systemKind) ∧
      ¬ IsRouterNotice Forged.env (.fromHive "worker" (Forged.frame systemKind))
        (Forged.receiver, Forged.frame systemKind) := by
  have hheld : heldSender env (.fromHive "worker" (frame systemKind)) =
      some ⟨sender, "AI.a@worker", 2⟩ := by decide +kernel
  have hnode : env.tables.nodes.lookup receiver = some ⟨"AI.b@motherbee", 1, 0⟩ := by
    decide +kernel
  have hrefused : vpnAllows (frame systemKind) ⟨sender, "AI.a@worker", 2⟩
      ⟨"AI.b@motherbee", 1, 0⟩ = false := by decide +kernel
  have hcrossed := not_isolated_of_refused (d := (receiver, frame systemKind)) hheld hnode hrefused
  exact ⟨by decide +kernel, by decide +kernel, hcrossed.1, hcrossed.2⟩

end Fluxbee.Router
