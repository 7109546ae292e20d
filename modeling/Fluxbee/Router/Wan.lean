import Fluxbee.Router.Dispatch

/-! Frames that come in on WAN sessions, each bound to the hive of its session. The system policy,
the policy engine's answers and the decoding of payloads are not modelled: the first is a parameter,
the second an argument of each frame, the third two functions. -/
namespace Fluxbee.Router
open Text Shm Lsa GuardedRun List Option

structure WanReachabilityEntry where
  (uuid name hiveId : String)
  vpnId : ℕ

structure WanReachabilityPayload where
  originHive : String
  entries : List WanReachabilityEntry

/-- What the router takes as given of the system policy and of the decoders. -/
structure WanPolicy where
  authorizeSystem : String → Option String → String → Bool
  voucherAllowed : String → Bool
  lsaPayload : Json → Option LsaPayload
  reachabilityPayload : Json → Option WanReachabilityPayload

/-! ### Whether a step of the gateway writes its region -/

def Gateway.writes (g : Gateway) (now : ℕ) : Bool :=
  (writeLsaState g.region g.side g.lsaState now).2.isOk

def Gateway.lsaWrites (g : Gateway) (session : WanSession) (payload : LsaPayload)
    (localUuids : List Uuid) (now : ℕ) : Bool :=
  let outcome := g.lsaOutcome session payload localUuids now
  outcome.2.isApplied && { g with lsaState := outcome.1 }.writes now

def Gateway.stepWrites (g : Gateway) : GatewayEvent → Bool
  | .lsa id payload localUuids now =>
    (g.sessionIn .running id).any (g.lsaWrites · payload localUuids now)
  | .markStale deadIntervalMs now =>
    let lsaState := g.lsaState.mapValues fun _ => freshness deadIntervalMs now
    lsaState.entries ≠ g.lsaState.entries && { g with lsaState }.writes now
  | .publish now => g.writes now
  | _ => false

structure WanRouter where
  gateway : Gateway
  peerRouters : AList fun _ : Uuid => Bool := ∅
  peers : List Uuid := []
  fib : List FibEntry := []
  lsaSnapshot : Option LsaSnapshot := none
  reachability : Reachability := ∅
  broadcastCache : BroadcastCache := ∅

variable {d : Uuid × Message} {hive action : String} {info : RemoteNodeInfo}
  {authorizeSystem : String → Option String → String → Bool}

namespace WanRouter

section
variable (r : WanRouter)

def tables : RouterTables where
  hiveId := r.gateway.side.hiveId
  isGateway := true
  nodes := r.gateway.side.nodes
  peerNodes := r.gateway.side.peerNodes
  peerRouters := r.peerRouters
  peers := r.peers
  wanPeers := r.gateway.wanPeers
  fib := r.fib
  lsaSnapshot := r.lsaSnapshot
  reachability := r.reachability

def rebuilt : WanRouter :=
  let side := r.gateway.side
  { r with
    fib := rebuildFib side.nodes side.peerNodes side.staticRoutes r.lsaSnapshot r.reachability }

/-- The router with its gateway after a step. Where the step wrote the region, the router routes by
what it wrote. -/
def follow (gateway : Gateway) (wrote : Bool) : WanRouter :=
  { r with
    gateway
    lsaSnapshot := if wrote then some gateway.region.readSnapshot else r.lsaSnapshot }

/-! ### What the hub vouches for -/

def lsaListedUuids (snapshot : Option LsaSnapshot) : List Uuid :=
  (snapshot.map fun lsa => (lsa.nodes.filter (·.nameLen ≠ 0)).map (·.uuid)).getD []

/-- Whether an entry of a beacon is taken in: not for this hive, not for the voucher's own, named,
and under a UUID that is neither taken nor listed twice. -/
def vouched (peerHive : String) (payload : WanReachabilityPayload) (entry : WanReachabilityEntry) :
    Option Uuid :=
  (Uuid.parseStr entry.uuid).filter fun uuid =>
    entry.hiveId ≠ r.gateway.side.hiveId ∧ entry.hiveId ≠ peerHive ∧ entry.name ≠ "" ∧
      uuid ∉ r.gateway.side.nodeUuids ∧ uuid ∉ lsaListedUuids r.lsaSnapshot ∧
      (payload.entries.filter (Uuid.parseStr ·.uuid = some uuid)).length ≤ 1

def applyWanReachability (p : WanPolicy) (r : WanRouter) (peerHive : String) (msg : Message)
    (now : ℕ) : WanRouter :=
  if !p.voucherAllowed peerHive then r
  else match p.reachabilityPayload msg.payload with
    | none => r
    | some payload =>
      if payload.originHive ≠ peerHive then r
      else
        let kept := r.reachability.retain fun _ entry => entry.nextHopHive ≠ peerHive
        let table := payload.entries.foldl (fun table entry =>
          match r.vouched peerHive payload entry with
          | some uuid =>
            table.insert uuid ⟨entry.name, entry.hiveId, peerHive, entry.vpnId, now⟩
          | none => table) kept
        { r with reachability := table }.rebuilt

/-! ### A frame -/

def deliverNotice (msg : Message) : Handled :=
  { delivered := passNotice r.gateway.side.nodes msg }

end

def handleWanMessage (p : WanPolicy) (r : WanRouter) (session : WanSession) (msg : Message)
    (opa : OpaAnswer) (now : ℕ) : WanRouter × Handled :=
  let kind := if isSystemKind msg.info.msgType then msg.info.msg else none
  if kind = some msgLsa then
    match p.lsaPayload msg.payload with
    | some payload =>
      let localUuids := r.gateway.side.nodeUuids
      (r.follow (r.gateway.takeLsa session payload localUuids now)
        (r.gateway.lsaWrites session payload localUuids now), {})
    | none => (r, {})
  else if kind = some msgWanReachability then (r.applyWanReachability p session.hive msg now, {})
  else if kind = some msgUnreachable ∨ kind = some msgTtlExceeded then (r, r.deliverNotice msg)
  else
    let result := handleWanFrame p.authorizeSystem r.tables r.broadcastCache session.hive msg opa now
    ({ r with broadcastCache := result.1 }, result.2)

/-! ### Runs -/

inductive Event where
  | frame (id : ℕ) (msg : Message) (opa : OpaAnswer) (now : ℕ)
  | gateway (event : GatewayEvent)
  -- The router reads the region again.
  | refresh
  | expire (deadIntervalMs now : ℕ)
  | siblings (peerRouters : AList fun _ : Uuid => Bool) (peers : List Uuid)

def step (p : WanPolicy) (r : WanRouter) : Event → WanRouter
  | .frame id msg opa now =>
    ((r.gateway.sessionIn .running id).map fun session =>
      (r.handleWanMessage p session msg opa now).1).getD r
  | .gateway event => r.follow (r.gateway.step event) (r.gateway.stepWrites event)
  | .refresh => { r with lsaSnapshot := some r.gateway.region.readSnapshot }.rebuilt
  | .expire deadIntervalMs now =>
    { r with reachability := r.reachability.retain fun _ entry =>
        now - entry.lastUpdated ≤ deadIntervalMs }.rebuilt
  | .siblings peerRouters peers => { r with peerRouters, peers }

/-- A message that a frame hands to a node of the router, with the hive of the frame's session, this
hive, and whether the frame's sender is one of that session's hive's own nodes. -/
structure WanDelivery where
  (sessionHive ownHive : String)
  direct : Bool
  node : Uuid
  msg : Message

def deliveries (p : WanPolicy) (r : WanRouter) : Event → List WanDelivery
  | .frame id msg opa now => (r.gateway.sessionIn .running id).toList.flatMap fun session =>
    (r.handleWanMessage p session msg opa now).2.delivered.map fun (node, delivered) =>
      { sessionHive := session.hive
        ownHive := r.gateway.side.hiveId
        direct := (Uuid.parseStr msg.routing.src).any fun uuid =>
          (findNodeOfHive r.lsaSnapshot uuid session.hive).isSome
        node
        msg := delivered }
  | _ => []

/-! ### Who may have a protected action delivered -/

section

variable {p : WanPolicy} {r : WanRouter} {session : WanSession} {msg : Message} {opa : OpaAnswer}
  {now : ℕ}

theorem findNodeOfHive_hive {snapshot : Option LsaSnapshot} {uuid : Uuid}
    (h : findNodeOfHive snapshot uuid hive = some info) : info.hiveId = hive := by
  obtain ⟨lsa, -, h⟩ := bind_eq_some_iff.mp h
  obtain ⟨i, -, h⟩ := bind_eq_some_iff.mp h
  obtain ⟨node, -, rfl⟩ := map_eq_some_iff.mp h
  rfl

theorem wanFrameSource_direct {srcUuid : Uuid}
    (h : wanFrameSource r.tables srcUuid hive = some info) (hhub : info.viaHub = false) :
    findNodeOfHive r.lsaSnapshot srcUuid hive = some info := by
  rcases or_eq_some_iff.mp h with hown | ⟨-, hreach⟩
  · exact hown
  · obtain ⟨hreach, -⟩ := filter_eq_some_iff.mp hreach
    obtain ⟨entry, -, rfl⟩ := map_eq_some_iff.mp hreach
    cases hhub

theorem mem_deliverLocally {hiveId : String} {viaHub : Bool} {locals : List (Uuid × NodeHandle)}
    (h : d ∈ deliverLocally authorizeSystem hiveId msg viaHub locals) :
    prepareLocalDelivery authorizeSystem hiveId msg viaHub = some d.2 := by
  unfold deliverLocally at h
  split at h
  next prepared hprep =>
    obtain ⟨node, -, rfl⟩ := List.mem_map.mp h
    exact hprep
  · cases h

theorem mem_deliverNotice (h : d ∈ (r.deliverNotice msg).delivered) : d.2 = msg :=
  (mem_passNotice h).2

theorem mem_handleWanFrame {t : RouterTables} {cache : BroadcastCache} {peerHive : String}
    (h : d ∈ (handleWanFrame authorizeSystem t cache peerHive msg opa now).2.delivered) :
    ∃ srcUuid info, Uuid.parseStr msg.routing.src = some srcUuid ∧
      wanFrameSource t srcUuid peerHive = some info ∧
      prepareLocalDelivery authorizeSystem t.hiveId
        (msg.namedAs (canonicalWanSrcName info.name info.hiveId)) info.viaHub = some d.2 := by
  unfold handleWanFrame at h
  split at h
  · cases h
  next srcUuid hsrc =>
    split at h
    · cases h
    next info hinfo =>
      refine ⟨srcUuid, info, hsrc, hinfo, ?_⟩
      dsimp only [relay] at h
      split_ifs at h
      · cases h
      · dsimp only at h
        exact mem_deliverLocally h

/-- A frame hands a node either one of the two notices, or the message that the gate let through
under the canonical name of its resolved sender. -/
theorem mem_delivered (h : d ∈ (r.handleWanMessage p session msg opa now).2.delivered) :
    (d.2.info.msg = some msgUnreachable ∨ d.2.info.msg = some msgTtlExceeded) ∨
      ∃ srcUuid info, Uuid.parseStr msg.routing.src = some srcUuid ∧
        wanFrameSource r.tables srcUuid session.hive = some info ∧
        prepareLocalDelivery p.authorizeSystem r.gateway.side.hiveId
          (msg.namedAs (canonicalWanSrcName info.name info.hiveId)) info.viaHub = some d.2 := by
  unfold handleWanMessage at h
  dsimp only at h
  generalize hkind : (if isSystemKind msg.info.msgType = true then msg.info.msg else none) = kind at h
  split_ifs at h with hlsa hreach hnotice
  · cases hp : p.lsaPayload msg.payload <;> rw [hp] at h <;> cases h
  · cases h
  · left
    rw [mem_deliverNotice h]
    split_ifs at hkind with hsystem
    · rw [hkind]
      exact hnotice
    · rw [← hkind] at hnotice
      exact absurd hnotice (by decide)
  · exact .inr (mem_handleWanFrame h)

def Names (verb action : String) : Prop :=
  action ∈ protectedSystemActions ∧ eqIgnoreAsciiCase action (trim verb) = true

theorem protectedSystemAction_of_names {verb : String} (h : Names verb action) :
    protectedSystemAction verb = some action := by
  obtain ⟨hmem, heq⟩ := h
  have hdistinct : (protectedSystemActions.map toAsciiLowercase).Nodup := by decide +kernel
  unfold protectedSystemAction
  generalize protectedSystemActions = actions at hmem hdistinct ⊢
  cases hfound : actions.find? fun protected_ => eqIgnoreAsciiCase protected_ (trim verb) with
  | none => exact absurd heq (find?_eq_none.mp hfound action hmem)
  | some found =>
    have hkey := find?_some hfound
    have hsame : toAsciiLowercase found = toAsciiLowercase action :=
      (eqIgnoreAsciiCase_iff.mp hkey).trans (eqIgnoreAsciiCase_iff.mp heq).symm
    rw [inj_on_of_nodup_map hdistinct (mem_of_find?_eq_some hfound) hmem hsame]

theorem delivered_authorized {d : WanDelivery} {event : Event} (hd : d ∈ r.deliveries p event)
    (hnames : Names d.msg.verb action) :
    d.direct = true ∧ ∃ name, d.msg.routing.srcL2Name = some name ∧
      extractHive name = some d.sessionHive ∧
      p.authorizeSystem action (some name) d.ownHive = true := by
  cases event with
  | frame id msg opa now =>
    obtain ⟨session, -, hd⟩ := mem_flatMap.mp hd
    obtain ⟨⟨node, delivered⟩, hmem, rfl⟩ := List.mem_map.mp hd
    dsimp only at hnames ⊢
    rcases mem_delivered hmem with hnotice | ⟨srcUuid, info, hsrc, hinfo, hprep⟩
    · -- The verbs of the two notices are not protected.
      have hnone : protectedSystemAction delivered.verb = none := by
        rcases hnotice with h | h <;> rw [Message.verb, h] <;> decide +kernel
      rw [protectedSystemAction_of_names hnames] at hnone
      cases hnone
    · have hstamped := prepareLocalDelivery_stamped p.authorizeSystem hprep
      dsimp only at hstamped
      have hverb : delivered.verb = (msg.namedAs (canonicalWanSrcName info.name info.hiveId)).verb := by
        rw [hstamped]
        rfl
      rw [hverb] at hnames
      obtain ⟨hhub, hauth⟩ := prepareLocalDelivery_authorized p.authorizeSystem hprep
        (protectedSystemAction_of_names hnames)
      have hown := wanFrameSource_direct hinfo hhub
      refine ⟨?_, canonicalWanSrcName info.name info.hiveId, ?_, ?_, hauth⟩
      · rw [hsrc, any_some, hown, isSome_some]
      · rw [hstamped]
        rfl
      · rw [extractHive_canonicalWanSrcName, findNodeOfHive_hive hown]
  | gateway | refresh | expire | siblings => cases hd

/-- Whatever comes in on the WAN sessions, a protected action reaches a node of the router only in
the name of a node of its session's own hive, and only if the policy allows the action to that
name. -/
theorem no_control_by_impersonation (events : List Event) :
    ∀ d ∈ log (step p) (deliveries p) r events, ∀ action, Names d.msg.verb action →
      d.direct = true ∧ ∃ name, d.msg.routing.srcL2Name = some name ∧
        extractHive name = some d.sessionHive ∧
        p.authorizeSystem action (some name) d.ownHive = true := by
  intro d hd action hnames
  obtain ⟨r', event, -, hd'⟩ := exists_of_mem_log hd
  exact delivered_authorized hd' hnames

end

namespace Remote

def target : Uuid := .uniform 1

def policy : WanPolicy where
  authorizeSystem action name _ := action == "SPAWN_NODE" && name == some "SY.admin@worker"
  voucherAllowed _ := false
  lsaPayload _ := none
  reachabilityPayload _ := none

/-- A node of `worker` that the region lists, and a node of this router. -/
def router : WanRouter where
  gateway :=
    { Gateway.start { Flap.side with nodes := (∅ : Nodes).insert target ⟨"SY.orchestrator@motherbee", 0, 0⟩ } with
      sessions := [⟨"worker", zeroUuid, "RT.gateway@worker", 1, .running⟩] }
  lsaSnapshot := some
    ⟨[{ emptyRemoteHive with hiveId := asBytes "worker", hiveIdLen := 6 }],
      [{ emptyRemoteNode with name := asBytes "SY.admin@worker", nameLen := 15 }], [], [], [],
      by decide⟩

/-- The frame claims another sender's name, and spells its verb in its own way. -/
def frame : Event :=
  .frame 0 ⟨⟨zeroUuid.hyphenated, some "SY.admin@motherbee", .unicast target.hyphenated, 8, ""⟩,
    ⟨"admin", some " spawn_Node ", none, none, none, none, false⟩, .null⟩ .noTarget 0

end Remote

/-- The action is handed over in the name that the session's hive has for the sender. -/
theorem spawn_by_own_name :
    ∃ d ∈ log (step Remote.policy) (deliveries Remote.policy) Remote.router [Remote.frame],
      d.msg.verb = " spawn_Node " ∧ d.direct = true ∧ ∃ name,
        d.msg.routing.srcL2Name = some name ∧ extractHive name = some d.sessionHive ∧
          Remote.policy.authorizeSystem "SPAWN_NODE" (some name) d.ownHive = true := by
  have hlog : (log (step Remote.policy) (deliveries Remote.policy) Remote.router
      [Remote.frame]).map (·.msg.verb) = [" spawn_Node "] := by
    decide +kernel
  obtain ⟨d, hd, hverb⟩ := List.mem_map.mp (hlog ▸ mem_singleton_self " spawn_Node ")
  refine ⟨d, hd, hverb, no_control_by_impersonation [Remote.frame] d hd "SPAWN_NODE" ?_⟩
  rw [hverb]
  exact ⟨by decide +kernel, by decide +kernel⟩

end WanRouter

end Fluxbee.Router
