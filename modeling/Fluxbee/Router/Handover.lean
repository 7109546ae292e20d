import Fluxbee.Router.Termination

/-! What becomes of a unicast that a sibling router hands over: it is delivered, passed on or answered
with a notice, once. -/
namespace Fluxbee.Router
open Text Shm Lsa List

/-- All that a router does with a message that `peer` handed over: it is queued for one node,
forwarded once, or a notice to its sender goes back to `peer`; nothing, only where it is excused. -/
inductive Fate (own peer : Uuid) (msg : Message) (excused : Prop) : Outcome → Prop
  | queued (node prepared) : Fate own peer msg excused ⟨[(node, prepared)], []⟩
  | toRouter (router) : Fate own peer msg excused ⟨[], [.toRouter router msg.lowered]⟩
  | toHive (hive) : Fate own peer msg excused ⟨[], [.toHive hive msg.lowered]⟩
  | unreachable (reason) :
    Fate own peer msg excused ⟨[], [.toRouter peer (buildUnreachable own msg reason)]⟩
  | ttlExceeded : Fate own peer msg excused ⟨[], [.toRouter peer (buildTtlExceeded own msg)]⟩
  | nothing (h : excused) : Fate own peer msg excused {}

/-- One node, or one thing that is sent. -/
def Routed.Single (routed : Routed) : Prop :=
  (∃ node, routed = ⟨[node], []⟩) ∨ ∃ sent, routed = ⟨[], [sent]⟩

section
variable {authorizeSystem : String → Option String → String → Bool} {own peer : Uuid}
  {t : RouterTables} {src : Source} {msg : Message} {excused : Prop} {hiveId : String}
  {routed : Routed}

theorem single_ifAllowed (h : routed.Single) (name : String) (vpnId : ℕ) :
    (ifAllowed src msg name vpnId routed).Single := by
  unfold ifAllowed
  split_ifs
  · exact h
  · exact .inr ⟨_, rfl⟩

theorem single_forwardToHive (hive : String) :
    ({ sent := forwardToHive t msg hive } : Routed).Single := by
  unfold forwardToHive sendToPeerRouter
  split_ifs
  · exact .inr ⟨_, rfl⟩
  · exact .inr ⟨_, rfl⟩
  · exact .inr ⟨_, rfl⟩
  · split
    · split_ifs <;> exact .inr ⟨_, rfl⟩
    · exact .inr ⟨_, rfl⟩

theorem single_peerRouteUuid (dst : Uuid) : (peerRouteUuid t src msg dst).Single := by
  unfold peerRouteUuid
  split
  · exact single_ifAllowed (.inl ⟨_, rfl⟩) _ _
  · split
    · exact single_ifAllowed (single_forwardToHive _) _ _
    · exact .inr ⟨_, rfl⟩

theorem single_followRoute {route : ResolvedRoute} (hdrop : route ≠ .drop)
    (hrouter : ∀ router, route ≠ .forwardRouter router) : (followRoute t src msg route).Single := by
  cases route with
  | drop => exact absurd rfl hdrop
  | unreachable reason => exact .inr ⟨_, rfl⟩
  | deliver dst =>
    rw [followRoute]
    split
    · exact single_ifAllowed (.inl ⟨_, rfl⟩) _ _
    · exact .inr ⟨_, rfl⟩
  | forwardRouter router => exact absurd rfl (hrouter router)
  | forwardHive hive => exact single_forwardToHive hive

theorem Routed.Single.fate_iff (h : routed.Single) (hlowered : Lowered msg routed.sent)
    (hgate : routed.locals ≠ [] →
      prepareLocalDelivery authorizeSystem hiveId msg false = none → excused)
    (hexcused : excused → routed.locals ≠ []) :
    Fate own peer msg excused ⟨deliverLocally authorizeSystem hiveId msg false routed.locals,
      linkedFrames own t peer msg routed.sent⟩ ↔ peer ∈ t.peers ∨ routed.sent = [] := by
  rcases h with ⟨node, rfl⟩ | ⟨s, rfl⟩
  · refine iff_of_true ?_ (.inr rfl)
    unfold linkedFrames deliverLocally
    rw [map_nil, ite_self]
    cases hprepared : prepareLocalDelivery authorizeSystem hiveId msg false with
    | none => exact .nothing (hgate (cons_ne_nil _ _) hprepared)
    | some prepared => exact .queued node.1 prepared
  · have hs := hlowered s mem_cons_self
    unfold linkedFrames
    rw [deliverLocally_nil]
    by_cases hlink : peer ∈ t.peers
    · refine iff_of_true ?_ (.inl hlink)
      rw [if_pos hlink]
      cases s with
      | unreachable reason => exact .unreachable reason
      | ttlExceeded => exact .ttlExceeded
      | toRouter router forwarded =>
        cases hs.2
        exact .toRouter router
      | toHive hive forwarded =>
        cases hs.2
        exact .toHive hive
    · rw [if_neg hlink]
      refine iff_of_false (fun hfate => ?_) (by simp [hlink])
      cases hfate with
      | nothing h => exact hexcused h rfl

/-- The node is one of the router's own, and the VPNs let the sender reach it. -/
def LocalTo (t : RouterTables) (src : Source) (msg : Message) (dst : Uuid) : Prop :=
  ∃ handle, t.nodes.lookup dst = some handle ∧
    vpnAllowsBetween msg.info src.name src.vpnId handle.name handle.vpnId = true

theorem forwardToHive_ne_nil (hive : String) : forwardToHive t msg hive ≠ [] := by
  intro h
  rcases single_forwardToHive hive with ⟨node, hnode⟩ | ⟨sent, hsent⟩
  · cases congrArg Routed.locals hnode
  · cases h.symm.trans (congrArg Routed.sent hsent)

theorem ifAllowed_sent {name : String} {vpnId : ℕ} :
    (ifAllowed src msg name vpnId routed).sent = [] ↔
      vpnAllowsBetween msg.info src.name src.vpnId name vpnId = true ∧ routed.sent = [] := by
  unfold ifAllowed
  split_ifs with h <;> simp [h]

theorem peerRouteUuid_sent (dst : Uuid) : (peerRouteUuid t src msg dst).sent = [] ↔
    LocalTo t src msg dst := by
  unfold peerRouteUuid LocalTo
  cases hnode : t.nodes.lookup dst with
  | some handle => simp [ifAllowed_sent]
  | none =>
    dsimp only
    cases (findRemoteNode t.lsaSnapshot dst).or (findReachableNode t.reachability dst) with
    | none => simp
    | some remote => simp [ifAllowed_sent, forwardToHive_ne_nil]

theorem followRoute_deliver_sent (dst : Uuid) :
    (followRoute t src msg (.deliver dst)).sent = [] ↔ LocalTo t src msg dst := by
  unfold followRoute LocalTo
  cases hnode : t.nodes.lookup dst with
  | some handle => simp [hnode, ifAllowed_sent]
  | none => simp [hnode]

/-- The message can go on its way, or a notice back: the link it came on is still there, or the
destination is a node of this router or dropped; and the sibling that a name leads to is connected,
and a hop away or the one that handed the message over. -/
def Passable (t : RouterTables) (peer : Uuid) (src : Source) (msg : Message) (dst : String) : Prop :=
  match Uuid.parseStr dst with
  | some uuid => peer ∈ t.peers ∨ LocalTo t src msg uuid
  | none =>
    match resolveByName ⟨src.name, src.vpnId, 0⟩ t.nodes t.fib msg.info dst with
    | .drop => True
    | .forwardRouter router => router ∈ t.peers ∧ (2 ≤ msg.routing.ttl ∨ router = peer)
    | .deliver uuid => peer ∈ t.peers ∨ LocalTo t src msg uuid
    | .unreachable _ | .forwardHive _ => peer ∈ t.peers

end

def isOpaReload (msg : Message) : Prop :=
  isSystemKind msg.info.msgType = true ∧ msg.info.msg = some msgOpaReload

theorem fate_handOver_iff {own peer router : Uuid} {t : RouterTables} {msg : Message}
    {excused : Prop} (hexcused : ¬ excused) :
    Fate own peer msg excused ⟨[], handOver own t msg router⟩ ↔
      router ∈ t.peers ∧ (2 ≤ msg.routing.ttl ∨ router = peer) := by
  unfold handOver
  split_ifs with hconnected hlast
  · -- the notice of the end of the hops goes to the next router
    have hone : ¬ 2 ≤ msg.routing.ttl := by omega
    simp only [hconnected, hone, true_and, false_or]
    constructor
    · intro h
      generalize hout : (⟨[], _⟩ : Outcome) = out at h
      cases h with
      | toRouter other =>
        simp only [Outcome.mk.injEq, cons.injEq, Frame.toRouter.injEq] at hout
        have httls := congrArg (fun msg => msg.routing.ttl) hout.2.1.2
        simp only [buildTtlExceeded, buildSystemMessage, Message.lowered] at httls
        omega
      | queued | toHive | nothing => simp at hout
      | unreachable | ttlExceeded =>
        simp only [Outcome.mk.injEq, cons.injEq, Frame.toRouter.injEq] at hout
        exact hout.2.1.1
    · rintro rfl
      exact .ttlExceeded
  · exact iff_of_true (.toRouter router) ⟨hconnected, .inl (by omega)⟩
  · refine iff_of_false (fun h => ?_) (by simp [hconnected])
    cases h with
    | nothing h => exact hexcused h

/-- A unicast of a known sender is accounted for exactly if it is no reload of the policy, which the
router keeps for itself, and can go on or a notice back. -/
theorem unicast_accounted_iff {authorizeSystem : String → Option String → String → Bool}
    {own peer srcUuid : Uuid} {env : Env} {src : Source} {msg : Message} {dst : String}
    (hsrc : Uuid.parseStr msg.routing.src = some srcUuid)
    (hsender : peerSender env peer srcUuid = some src) (hdst : msg.routing.dst = .unicast dst)
    (httl : msg.routing.ttl ≠ 0) :
    Fate own peer (msg.namedAs src.name)
      (¬ isOpaReload msg ∧
        ((peerRoute own env.fresh peer src (msg.namedAs src.name) env.opa).locals ≠ [] ∧
          prepareLocalDelivery authorizeSystem env.tables.hiveId (msg.namedAs src.name) false = none ∨
        Uuid.parseStr dst = none ∧ resolveByName ⟨src.name, src.vpnId, 0⟩ env.tables.nodes
          env.rereadFib msg.info dst = .drop))
      (siblingMessage authorizeSystem own env peer msg) ↔
      ¬ isOpaReload msg ∧ Passable env.fresh peer src (msg.namedAs src.name) dst := by
  have hnamed : (msg.namedAs src.name).routing.dst = .unicast dst := hdst
  by_cases hreload : isOpaReload msg
  · have hnothing : siblingMessage authorizeSystem own env peer msg = {} := by
      simp only [siblingMessage, hsrc, if_pos (show _ ∧ _ from hreload)]
    rw [hnothing]
    refine iff_of_false (fun h => ?_) fun h => h.1 hreload
    cases h with
    | nothing h => exact h.1 hreload
  unfold siblingMessage
  simp only [hsrc, if_neg (show ¬ (_ ∧ _) from hreload), hsender, if_neg httl, hreload,
    not_false_eq_true, true_and]
  unfold peerRoute Passable
  rw [hnamed]
  dsimp only
  cases hparse : Uuid.parseStr dst with
  | some uuid =>
    dsimp only
    rw [← peerRouteUuid_sent]
    refine (single_peerRouteUuid uuid).fate_iff (lowered_peerRouteUuid uuid)
      (fun hlocals hgate => .inl ⟨hlocals, hgate⟩) ?_
    rintro (⟨hlocals, -⟩ | ⟨hnone, -⟩)
    · exact hlocals
    · cases hnone
  | none =>
    dsimp only
    unfold peerRouteName
    have hbare : resolveByName ⟨src.name, src.vpnId, 0⟩ env.tables.nodes env.rereadFib msg.info dst =
      resolveByName ⟨src.name, src.vpnId, 0⟩ env.fresh.nodes env.fresh.fib
        (msg.namedAs src.name).info dst := rfl
    rw [hbare]
    cases hroute : resolveByName ⟨src.name, src.vpnId, 0⟩ env.fresh.nodes env.fresh.fib
        (msg.namedAs src.name).info dst with
    | drop =>
      dsimp only [followRoute]
      rw [deliverLocally_nil, linkedFrames, map_nil, ite_self]
      exact iff_of_true (.nothing (.inr ⟨rfl, rfl⟩)) trivial
    | forwardRouter router =>
      dsimp only
      rw [deliverLocally_nil]
      exact fate_handOver_iff (by simp)
    | deliver uuid | unreachable reason | forwardHive hive =>
      dsimp only
      refine (Routed.Single.fate_iff (single_followRoute (by simp) (by simp)) (lowered_followRoute _)
        (fun hlocals hgate => .inl ⟨hlocals, hgate⟩) ?_).trans ?_
      · rintro (⟨hlocals, -⟩ | ⟨-, hdrop⟩)
        · exact hlocals
        · cases hdrop
      · first
          | rw [followRoute_deliver_sent]
          | simp [followRoute, forwardToHive_ne_nil]

namespace Relay

/-- The gateway lists a node of a sibling that it has no connection to. -/
def unlinked : Env :=
  { env Twin.gatewayTables with rereadFib := [peerNodeEntry ⟨"AI.c@motherbee", 0, Twin.uuid 5⟩] }

def toName (name : String) : Message :=
  { message zeroUuid 2 with routing := { (message zeroUuid 2).routing with dst := .unicast name } }

end Relay

/-- A message for the gateway's own node is queued for it. -/
theorem unicast_accounted_queued : ∃ excused, Fate Twin.gateway Twin.router
    ((Relay.message Twin.listener 2).namedAs "AI.a@motherbee") excused
    (siblingMessage Twin.deny Twin.gateway Relay.unlinked Twin.router
      (Relay.message Twin.listener 2)) := by
  have hiff := @unicast_accounted_iff Twin.deny Twin.gateway Twin.router Twin.sender Relay.unlinked
    ⟨Twin.sender, "AI.a@motherbee", 0⟩ (Relay.message Twin.listener 2) Twin.listener.hyphenated
    (by decide +kernel) (by decide +kernel) rfl (by decide)
  have hpass : Passable Relay.unlinked.fresh Twin.router ⟨Twin.sender, "AI.a@motherbee", 0⟩
      ((Relay.message Twin.listener 2).namedAs "AI.a@motherbee") Twin.listener.hyphenated := by
    have hparse : Uuid.parseStr Twin.listener.hyphenated = some Twin.listener := by decide +kernel
    rw [Passable, hparse]
    exact .inl (by decide)
  exact ⟨_, hiff.mpr ⟨fun h => absurd h.2 (by decide), hpass⟩⟩

/-- A message for the sibling's node is lost without a notice. -/
theorem unlinked_unicast_lost :
    peerSender Relay.unlinked Twin.router Twin.sender = some ⟨Twin.sender, "AI.a@motherbee", 0⟩ ∧
      resolveByName ⟨"AI.a@motherbee", 0, 0⟩ Twin.gatewayTables.nodes Relay.unlinked.rereadFib
        (Relay.toName "AI.c@motherbee").info "AI.c@motherbee" = .forwardRouter (Twin.uuid 5) ∧
      siblingMessage Twin.deny Twin.gateway Relay.unlinked Twin.router
        (Relay.toName "AI.c@motherbee") = {} := by
  decide +kernel

end Fluxbee.Router
