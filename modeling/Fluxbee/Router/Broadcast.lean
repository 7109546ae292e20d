import Fluxbee.Lib.Spacing
import Fluxbee.Router.Dispatch

/-! Broadcasts in a network of routers: hives with several routers, one of them the gateway, and
the gateways linked to each other. Frames between routers are handled in any order; each router has
its own clock, and its tables may change at any time. -/
namespace Fluxbee.Router
open Text Shm Lsa GuardedRun List Function AList Uuid Prod

section
variable (authorizeSystem : String → Option String → String → Bool) (t : RouterTables)

/-- The sender of a frame that the gateway hands over, as this router's link state knows it. -/
def remoteSourceFromGateway (peer srcUuid : Uuid) : Option Source :=
  if t.peerRouters.lookup peer = some true then
    (findRemoteNode t.lsaSnapshot srcUuid).map fun remote =>
      ⟨srcUuid, canonicalWanSrcName remote.name remote.hiveId, remote.vpnId⟩
  else none

def peerSource (peer srcUuid : Uuid) : Option Source :=
  match t.peerNodes.lookup srcUuid with
  | some node => some ⟨srcUuid, node.name, node.vpnId⟩
  | none => remoteSourceFromGateway t peer srcUuid

/-- A broadcast that a sibling router hands over. The cache of broadcasts is not asked. -/
def handlePeerBroadcast (peer : Uuid) (msg : Message) : Handled :=
  match Uuid.parseStr msg.routing.src with
  | none => {}
  | some srcUuid =>
    if isSystemKind msg.info.msgType ∧ msg.info.msg = some msgOpaReload then {}
    else match peerSource t peer srcUuid with
      | none => {}
      | some src =>
        let named := msg.namedAs src.name
        if msg.routing.ttl = 0 then { sent := if peer ∈ t.peers then [.ttlExceeded] else [] }
        else
          { delivered := deliverLocally authorizeSystem t.hiveId named false (fanOut t src named)
            sent := if 3 ≤ msg.routing.ttl ∧ peer ∈ t.peers then forwardBroadcastToWan t named
              else [] }

def isWanControl (msg : Message) : Bool :=
  isSystemKind msg.info.msgType &&
    (msg.info.msg == some msgLsa || msg.info.msg == some msgWanReachability ||
      msg.info.msg == some msgUnreachable || msg.info.msg == some msgTtlExceeded)

end

/-! ### The network -/

/-- A router in the network. `heard` is history: the trace ids of the broadcasts that came in from a
sibling, each with the time. -/
structure NetRouter where
  tables : RouterTables
  cache : BroadcastCache := ∅
  clock : ℕ := 0
  heard : List (String × ℕ) := []

inductive Arrival where
  | fromNode (msg : Message)
  | fromSibling (router : Uuid) (msg : Message)
  | fromHive (hive : String) (msg : Message)

def Arrival.msg : Arrival → Message
  | .fromNode msg | .fromSibling _ msg | .fromHive _ msg => msg

def Arrival.isSibling : Arrival → Bool
  | .fromSibling .. => true
  | _ => false

/-- Who gets a copy of a broadcast: a node of the router, or another hive from its gateway. -/
inductive Recipient where
  | node (uuid : Uuid)
  | hive (id : String)
  deriving DecidableEq

def hivesOf (sent : List Sent) : List String :=
  sent.filterMap fun
    | .toHive hive _ => some hive
    | _ => none

def Handled.copies (handled : Handled) : List Recipient :=
  handled.delivered.map (fun d => .node d.1) ++ (hivesOf handled.sent).map .hive

structure Copy where
  router : Uuid
  recipient : Recipient
  trace : String
  time : ℕ

structure InFlight where
  receiver : Uuid
  arrival : Arrival

structure Network where
  routers : Uuid → NetRouter
  inFlight : List InFlight := []

inductive NetEvent where
  | send (router : Uuid) (msg : Message)
  | receive (i : ℕ)
  | tick (router : Uuid) (elapsed : ℕ)
  | reconfigure (router : Uuid) (tables : RouterTables)

section
-- The system policy, and which router each hive's sessions end at.
variable (authorizeSystem : String → Option String → String → Bool) (gatewayOf : String → Uuid)

def NetRouter.handle (r : NetRouter) (arrival : Arrival) : BroadcastCache × Handled :=
  if arrival.msg.routing.dst ≠ .broadcast then (r.cache, {})
  else match arrival with
    | .fromNode msg => handleMessage authorizeSystem r.tables r.cache msg .noTarget r.clock
    | .fromSibling router msg => (r.cache, handlePeerBroadcast authorizeSystem r.tables router msg)
    | .fromHive hive msg =>
      if isWanControl msg then (r.cache, {})
      else handleWanFrame authorizeSystem r.tables r.cache hive msg .noTarget r.clock

def NetRouter.after (r : NetRouter) (arrival : Arrival) : NetRouter :=
  { r with
    cache := (r.handle authorizeSystem arrival).1
    heard := if arrival.isSibling ∧ arrival.msg.routing.dst = .broadcast then
        (arrival.msg.routing.traceId, r.clock) :: r.heard
      else r.heard }

def framesOf (router : Uuid) (hive : String) (sent : List Sent) : List InFlight :=
  sent.filterMap fun
    | .toRouter sibling msg => some ⟨sibling, .fromSibling router msg⟩
    | .toHive peerHive msg => some ⟨gatewayOf peerHive, .fromHive hive msg⟩
    | _ => none

section
variable (n : Network)

def Network.arrive (router : Uuid) (arrival : Arrival) : Network where
  routers := Function.update n.routers router ((n.routers router).after authorizeSystem arrival)
  inFlight := n.inFlight ++ framesOf gatewayOf router (n.routers router).tables.hiveId
    ((n.routers router).handle authorizeSystem arrival).2.sent

def Network.arrivalOf : NetEvent → Option (Uuid × Arrival)
  | .send router msg => some (router, .fromNode msg)
  | .receive i => (n.inFlight[i]?).map fun frame => (frame.receiver, frame.arrival)
  | _ => none

def Network.step : NetEvent → Network
  | .send router msg => n.arrive authorizeSystem gatewayOf router (.fromNode msg)
  | .receive i =>
    match n.inFlight[i]? with
    | some frame =>
      { n with inFlight := n.inFlight.eraseIdx i }.arrive authorizeSystem gatewayOf frame.receiver
        frame.arrival
    | none => n
  | .tick router elapsed =>
    let r := n.routers router
    { n with routers := Function.update n.routers router { r with clock := r.clock + elapsed } }
  | .reconfigure router tables =>
    { n with routers := Function.update n.routers router { n.routers router with tables } }

def Network.copiesAt (router : Uuid) (arrival : Arrival) : List Copy :=
  ((n.routers router).handle authorizeSystem arrival).2.copies.map fun recipient =>
    ⟨router, recipient, arrival.msg.routing.traceId, (n.routers router).clock⟩

def Network.copies (event : NetEvent) : List Copy :=
  match n.arrivalOf event with
  | some (router, arrival) => n.copiesAt authorizeSystem router arrival
  | none => []

end

end

/-! ### What the cache guards -/

/-- A handler that asks the cache: live trace ids stay in it, and copies go out only for one that is
not in it, which is then there. -/
structure CacheStep (cache cache' : BroadcastCache) (trace : String) (now : ℕ)
    (copies : List Recipient) : Prop where
  kept : ∀ u t, cache.lookup u = some t → cache'.lookup u = some t ∨ broadcastTtlMs < now - t
  fresh : copies ≠ [] → ∃ u, Uuid.parseStr trace = some u ∧
    (∀ t, cache.lookup u = some t → broadcastTtlMs < now - t) ∧ cache'.lookup u = some now

variable {viaHub : Bool} {arrival : Arrival} {trace hiveId hive : String} {time : ℕ}

section

variable {cache : BroadcastCache} {now : ℕ} {msg : Message} {t : RouterTables} {src : Source}
  {toWan : List Sent} {opa : OpaAnswer}
  {authorizeSystem : String → Option String → String → Bool}

theorem CacheStep.nothing {copies : List Recipient} (h : copies = []) :
    CacheStep cache cache trace now copies :=
  ⟨fun _ _ => .inl, fun hne => absurd h hne⟩

theorem checkAndAdd_kept (traceId u : Uuid) (ts : ℕ) (hl : cache.lookup u = some ts) :
    (checkAndAdd cache traceId now).1.lookup u = some ts ∨ broadcastTtlMs < now - ts := by
  by_cases hlive : now - ts ≤ broadcastTtlMs
  · left
    have hkept : (cache.retain fun _ ts => now - ts ≤ broadcastTtlMs).lookup u = some ts :=
      lookup_retain_eq_some.mpr ⟨hl, decide_eq_true hlive⟩
    unfold checkAndAdd
    dsimp only
    split_ifs with hsome
    · exact hkept
    · rw [lookup_insert_eq, if_neg]
      · exact hkept
      · rintro rfl
        rw [hkept] at hsome
        exact hsome rfl
  · exact .inr (Nat.lt_of_not_le hlive)

theorem checkAndAdd_fresh {traceId : Uuid} (h : (checkAndAdd cache traceId now).2 = true) :
    (∀ ts, cache.lookup traceId = some ts → broadcastTtlMs < now - ts) ∧
      (checkAndAdd cache traceId now).1.lookup traceId = some now := by
  unfold checkAndAdd at h ⊢
  dsimp only at h ⊢
  split_ifs at h ⊢ with hsome
  refine ⟨fun ts hl => ?_, lookup_insert _⟩
  by_contra hlive
  have hkept : (cache.retain fun _ ts => now - ts ≤ broadcastTtlMs).lookup traceId = some ts :=
    lookup_retain_eq_some.mpr ⟨hl, decide_eq_true (Nat.le_of_not_lt hlive)⟩
  rw [hkept] at hsome
  exact hsome rfl

theorem deliverLocally_nil : deliverLocally authorizeSystem hiveId msg viaHub [] = [] := by
  unfold deliverLocally
  split
  · rfl
  · rfl

def Routed.handled (routed : Routed) (hiveId : String) (msg : Message) (viaHub : Bool)
    (authorizeSystem : String → Option String → String → Bool) : Handled :=
  { delivered := deliverLocally authorizeSystem hiveId msg viaHub routed.locals
    sent := routed.sent }

theorem routeBroadcast_cacheStep :
    CacheStep cache (routeBroadcast t src msg cache now toWan).1 msg.routing.traceId now
      ((routeBroadcast t src msg cache now toWan).2.handled t.hiveId msg viaHub
        authorizeSystem).copies := by
  have hempty : (Routed.handled {} t.hiveId msg viaHub authorizeSystem).copies = [] := by
    rw [Routed.handled, Handled.copies, deliverLocally_nil]
    rfl
  unfold routeBroadcast
  cases hid : parseStr msg.routing.traceId with
  | none => exact .nothing hempty
  | some traceId =>
    dsimp only
    cases hfresh : (checkAndAdd cache traceId now).2 with
    | false =>
      refine ⟨checkAndAdd_kept traceId, fun hne => absurd hempty hne⟩
    | true =>
      refine ⟨checkAndAdd_kept traceId, fun _ => ⟨traceId, hid, ?_⟩⟩
      exact checkAndAdd_fresh hfresh

theorem relay_cacheStep (msg : Message) (hdst : msg.routing.dst = .broadcast) :
    CacheStep cache (relay authorizeSystem t cache src viaHub msg opa now toWan).1
      msg.routing.traceId now
      (relay authorizeSystem t cache src viaHub msg opa now toWan).2.copies := by
  unfold relay
  split_ifs with httl
  · exact .nothing rfl
  · simp only [route, hdst]
    exact routeBroadcast_cacheStep

theorem handleMessage_cacheStep (hdst : msg.routing.dst = .broadcast) :
    CacheStep cache (handleMessage authorizeSystem t cache msg opa now).1 msg.routing.traceId now
      (handleMessage authorizeSystem t cache msg opa now).2.copies := by
  unfold handleMessage
  cases parseStr msg.routing.src with
  | none => exact .nothing rfl
  | some srcUuid =>
    dsimp only
    cases t.nodes.lookup srcUuid with
    | none => exact .nothing rfl
    | some handle => exact relay_cacheStep (msg.namedAs handle.name) hdst

theorem handleWanFrame_cacheStep (hdst : msg.routing.dst = .broadcast) :
    CacheStep cache (handleWanFrame authorizeSystem t cache hive msg opa now).1
      msg.routing.traceId now
      (handleWanFrame authorizeSystem t cache hive msg opa now).2.copies := by
  unfold handleWanFrame
  cases parseStr msg.routing.src with
  | none => exact .nothing rfl
  | some srcUuid =>
    dsimp only
    cases wanFrameSource t srcUuid hive with
    | none => exact .nothing rfl
    | some info =>
      exact relay_cacheStep (msg.namedAs (canonicalWanSrcName info.name info.hiveId)) hdst

end

/-! ### One copy for each recipient -/

section

variable {cache : BroadcastCache} {now : ℕ} {msg : Message} {t : RouterTables} {src : Source}
  {toWan : List Sent} {opa : OpaAnswer}
  {authorizeSystem : String → Option String → String → Bool}

theorem fanOut_nodup : ((fanOut t src msg).map fst).Nodup := by
  have hkeys : (t.nodes.entries.map Sigma.fst).Nodup := t.nodes.keys_nodup
  rw [fanOut, List.map_map]
  exact hkeys.sublist (filter_sublist.map Sigma.fst)

theorem deliverLocally_nodup {locals : List (Uuid × NodeHandle)} (h : (locals.map fst).Nodup) :
    ((deliverLocally authorizeSystem hiveId msg viaHub locals).map fst).Nodup := by
  unfold deliverLocally
  split
  · rw [List.map_map]
    exact h
  · exact nodup_nil

theorem copies_nodup {delivered : List (Uuid × Message)} {sent : List Sent}
    (hnodes : (delivered.map fst).Nodup) (hhives : (hivesOf sent).Nodup) :
    (Handled.copies ⟨delivered, sent⟩).Nodup := by
  have hnode : Function.Injective Recipient.node := fun _ _ h => Recipient.node.inj h
  have hhive : Function.Injective Recipient.hive := fun _ _ h => Recipient.hive.inj h
  refine nodup_append.mpr ⟨?_, hhives.map hhive, ?_⟩
  · have hmap := hnodes.map hnode
    rw [List.map_map] at hmap
    exact hmap
  · intro a ha b hb hab
    obtain ⟨d, -, rfl⟩ := List.mem_map.mp ha
    obtain ⟨hive, -, rfl⟩ := List.mem_map.mp hb
    cases hab

theorem hivesOf_append (a b : List Sent) : hivesOf (a ++ b) = hivesOf a ++ hivesOf b :=
  filterMap_append ..

theorem hivesOf_toRouter (routers : List Uuid) : hivesOf (routers.map (.toRouter · msg)) = [] := by
  rw [hivesOf, filterMap_map]
  exact filterMap_eq_nil_iff.mpr fun _ _ => rfl

theorem hivesOf_broadcastToWan : hivesOf (broadcastToWan t msg) = t.wanPeers.keys := by
  rw [hivesOf, broadcastToWan, filterMap_map]
  exact filterMap_some

theorem broadcastToWan_nodup : (hivesOf (broadcastToWan t msg)).Nodup := by
  rw [hivesOf_broadcastToWan]
  exact t.wanPeers.keys_nodup

theorem forwardBroadcastToWan_nodup : (hivesOf (forwardBroadcastToWan t msg)).Nodup := by
  unfold forwardBroadcastToWan
  split_ifs
  · exact nodup_nil
  · exact broadcastToWan_nodup
  · split
    · split_ifs
      · exact nodup_nil
      · exact nodup_nil
    · exact nodup_nil

theorem routed_copies_nodup {routed : Routed}
    (hlocals : (routed.locals.map fst).Nodup) (hsent : (hivesOf routed.sent).Nodup) :
    (routed.handled hiveId msg viaHub authorizeSystem).copies.Nodup :=
  copies_nodup (deliverLocally_nodup hlocals) hsent

theorem routeBroadcast_nodup (t : RouterTables) (src : Source) (msg : Message)
    (cache : BroadcastCache) (now : ℕ) (hwan : (hivesOf toWan).Nodup) :
    ((routeBroadcast t src msg cache now toWan).2.locals.map fst).Nodup ∧
      (hivesOf (routeBroadcast t src msg cache now toWan).2.sent).Nodup := by
  have hsent : (hivesOf ((if 2 ≤ msg.routing.ttl then broadcastToPeers t msg else []) ++
      if 3 ≤ msg.routing.ttl then toWan else [])).Nodup := by
    have hpeers : hivesOf (if 2 ≤ msg.routing.ttl then broadcastToPeers t msg else []) = [] := by
      split_ifs
      · exact hivesOf_toRouter t.peers
      · rfl
    rw [hivesOf_append, hpeers, nil_append]
    split_ifs
    · exact hwan
    · exact nodup_nil
  unfold routeBroadcast
  cases parseStr msg.routing.traceId with
  | none => exact ⟨nodup_nil, nodup_nil⟩
  | some traceId =>
    dsimp only
    cases (checkAndAdd cache traceId now).2 with
    | false => exact ⟨nodup_nil, nodup_nil⟩
    | true => exact ⟨fanOut_nodup, hsent⟩

theorem relay_nodup (msg : Message) (hdst : msg.routing.dst = .broadcast)
    (hwan : (hivesOf toWan).Nodup) :
    (relay authorizeSystem t cache src viaHub msg opa now toWan).2.copies.Nodup := by
  unfold relay
  split_ifs
  · exact nodup_nil
  · obtain ⟨hlocals, hsent⟩ := routeBroadcast_nodup t src msg cache now hwan
    simp only [route, hdst]
    exact routed_copies_nodup hlocals hsent

theorem handleMessage_nodup (hdst : msg.routing.dst = .broadcast) :
    (handleMessage authorizeSystem t cache msg opa now).2.copies.Nodup := by
  unfold handleMessage
  cases parseStr msg.routing.src with
  | none => exact nodup_nil
  | some srcUuid =>
    dsimp only
    cases t.nodes.lookup srcUuid with
    | none => exact nodup_nil
    | some handle =>
      exact relay_nodup (msg.namedAs handle.name) hdst forwardBroadcastToWan_nodup

theorem handleWanFrame_nodup (hdst : msg.routing.dst = .broadcast) :
    (handleWanFrame authorizeSystem t cache hive msg opa now).2.copies.Nodup := by
  unfold handleWanFrame
  cases parseStr msg.routing.src with
  | none => exact nodup_nil
  | some srcUuid =>
    dsimp only
    cases wanFrameSource t srcUuid hive with
    | none => exact nodup_nil
    | some info =>
      exact relay_nodup (msg.namedAs (canonicalWanSrcName info.name info.hiveId)) hdst
        broadcastToWan_nodup

theorem handlePeerBroadcast_nodup {peer : Uuid} :
    (handlePeerBroadcast authorizeSystem t peer msg).copies.Nodup := by
  unfold handlePeerBroadcast
  cases parseStr msg.routing.src with
  | none => exact nodup_nil
  | some srcUuid =>
    dsimp only
    by_cases hopa : isSystemKind msg.info.msgType ∧ msg.info.msg = some msgOpaReload
    · rw [if_pos hopa]
      exact nodup_nil
    rw [if_neg hopa]
    cases peerSource t peer srcUuid with
    | none => exact nodup_nil
    | some src =>
      dsimp only
      by_cases httl : msg.routing.ttl = 0
      · rw [if_pos httl]
        refine copies_nodup nodup_nil ?_
        split_ifs
        · exact nodup_nil
        · exact nodup_nil
      · rw [if_neg httl]
        refine copies_nodup (deliverLocally_nodup fanOut_nodup) ?_
        split_ifs
        · exact forwardBroadcastToWan_nodup
        · exact nodup_nil

end

/-! ### Runs -/

section

variable (authorizeSystem : String → Option String → String → Bool) (gatewayOf : String → Uuid)

/-- A broadcast came in from a sibling at a time, or the cache has it. -/
def NetRouter.Record (r : NetRouter) (trace : String) (time : ℕ) : Prop :=
  (trace, time) ∈ r.heard ∨ ∃ u, Uuid.parseStr trace = some u ∧ r.cache.lookup u = some time

/-- A broadcast that comes in has not come from a sibling within the cache's lifetime, and one that
comes from a sibling is not in the cache either. -/
def NetRouter.Unheard (r : NetRouter) (arrival : Arrival) : Prop :=
  arrival.msg.routing.dst = .broadcast →
    (∀ entry ∈ r.heard, entry.1 = arrival.msg.routing.traceId →
      broadcastTtlMs < r.clock - entry.2) ∧
    (arrival.isSibling = true → ∀ u ∈ Uuid.parseStr arrival.msg.routing.traceId,
      ∀ time ∈ r.cache.lookup u, broadcastTtlMs < r.clock - time)

instance (r : NetRouter) (arrival : Arrival) : Decidable (r.Unheard arrival) := by
  unfold NetRouter.Unheard
  infer_instance

def Network.Unheard (n : Network) (event : NetEvent) : Prop :=
  ∀ pair ∈ n.arrivalOf event, (n.routers pair.1).Unheard pair.2

instance (n : Network) (event : NetEvent) : Decidable (n.Unheard event) := by
  unfold Network.Unheard
  infer_instance

variable {authorizeSystem}

section
variable (r : NetRouter)

theorem NetRouter.broadcast_of_copies (h : (r.handle authorizeSystem arrival).2.copies ≠ []) :
    arrival.msg.routing.dst = .broadcast := by
  by_contra hdst
  apply h
  unfold handle
  rw [if_pos hdst]
  rfl

theorem NetRouter.handle_nodup (arrival : Arrival) :
    (r.handle authorizeSystem arrival).2.copies.Nodup := by
  unfold handle
  split_ifs with hdst
  · exact nodup_nil
  · cases arrival with
    | fromNode msg => exact handleMessage_nodup (not_not.mp hdst)
    | fromSibling router msg => exact handlePeerBroadcast_nodup
    | fromHive hive msg =>
      dsimp only
      split_ifs
      · exact nodup_nil
      · exact handleWanFrame_nodup (not_not.mp hdst)

theorem NetRouter.handle_cacheStep (hown : arrival.isSibling = false) :
    CacheStep r.cache (r.handle authorizeSystem arrival).1 arrival.msg.routing.traceId r.clock
      (r.handle authorizeSystem arrival).2.copies := by
  unfold handle
  split_ifs with hdst
  · exact .nothing rfl
  · cases arrival with
    | fromNode msg => exact handleMessage_cacheStep (not_not.mp hdst)
    | fromSibling router msg => cases hown
    | fromHive hive msg =>
      dsimp only
      split_ifs
      · exact .nothing rfl
      · exact handleWanFrame_cacheStep (not_not.mp hdst)

theorem NetRouter.handle_sibling_cache (h : arrival.isSibling = true) :
    (r.handle authorizeSystem arrival).1 = r.cache := by
  cases arrival with
  | fromSibling router msg =>
    unfold handle
    split_ifs
    · rfl
    · rfl
  | fromNode msg | fromHive hive msg => cases h

theorem NetRouter.fresh (hun : r.Unheard arrival)
    (hcopies : (r.handle authorizeSystem arrival).2.copies ≠ [])
    (hrecord : r.Record arrival.msg.routing.traceId time) : broadcastTtlMs < r.clock - time := by
  obtain ⟨hheard, hcached⟩ := hun (r.broadcast_of_copies hcopies)
  rcases hrecord with hrel | ⟨u, hu, hl⟩
  · exact hheard _ hrel rfl
  · cases hsib : arrival.isSibling with
    | true => exact hcached hsib u hu time hl
    | false =>
      obtain ⟨u', hu', hold, -⟩ := (r.handle_cacheStep hsib).fresh hcopies
      rw [hu] at hu'
      cases hu'
      exact hold time hl

theorem NetRouter.leaves (hcopies : (r.handle authorizeSystem arrival).2.copies ≠ []) :
    (r.after authorizeSystem arrival).Record arrival.msg.routing.traceId r.clock := by
  cases hsib : arrival.isSibling with
  | true =>
    left
    simp only [after, hsib, true_and, if_pos (r.broadcast_of_copies hcopies)]
    exact mem_cons_self ..
  | false =>
    obtain ⟨u, hu, -, hl⟩ := (r.handle_cacheStep hsib).fresh hcopies
    exact .inr ⟨u, hu, hl⟩

theorem NetRouter.kept (arrival : Arrival) (hrecord : r.Record trace time) :
    (r.after authorizeSystem arrival).Record trace time ∨ broadcastTtlMs < r.clock - time := by
  rcases hrecord with hrel | ⟨u, hu, hl⟩
  · refine .inl (.inl ?_)
    unfold after
    dsimp only
    split_ifs
    · exact mem_cons_of_mem _ hrel
    · exact hrel
  · cases hsib : arrival.isSibling with
    | true =>
      refine .inl (.inr ⟨u, hu, ?_⟩)
      rw [after, r.handle_sibling_cache hsib]
      exact hl
    | false =>
      rcases (r.handle_cacheStep hsib).kept u time hl with hkept | hold
      · exact .inl (.inr ⟨u, hu, hkept⟩)
      · exact .inr hold

end

variable {gatewayOf}

/-- What an event does to the routers: one handles a message, its clock goes on, or its tables
change. -/
theorem Network.step_routers (authorizeSystem : String → Option String → String → Bool)
    (gatewayOf : String → Uuid) (n : Network) (event : NetEvent) :
    let n' := n.step authorizeSystem gatewayOf event
    (∃ router arrival, n.arrivalOf event = some (router, arrival) ∧ n'.routers =
        Function.update n.routers router ((n.routers router).after authorizeSystem arrival)) ∨
      n.arrivalOf event = none ∧ ∀ router, (n'.routers router).cache = (n.routers router).cache ∧
        (n'.routers router).heard = (n.routers router).heard ∧
        (n.routers router).clock ≤ (n'.routers router).clock := by
  cases event with
  | send router msg => exact .inl ⟨router, .fromNode msg, rfl, rfl⟩
  | receive i =>
    cases hi : n.inFlight[i]? with
    | none =>
      refine .inr ⟨by rw [arrivalOf, hi, Option.map_none], fun router => ?_⟩
      simp only [step, hi]
      exact ⟨trivial, trivial, le_rfl⟩
    | some frame =>
      refine .inl ⟨frame.receiver, frame.arrival, by rw [arrivalOf, hi, Option.map_some], ?_⟩
      simp only [step, hi]
      rfl
  | tick router elapsed =>
    refine .inr ⟨rfl, fun other => ?_⟩
    simp only [step, update_apply]
    split_ifs with heq
    · subst heq
      exact ⟨rfl, rfl, Nat.le_add_right ..⟩
    · exact ⟨rfl, rfl, le_rfl⟩
  | reconfigure router tables =>
    refine .inr ⟨rfl, fun other => ?_⟩
    simp only [step, update_apply]
    split_ifs with heq
    · subst heq
      exact ⟨rfl, rfl, le_rfl⟩
    · exact ⟨rfl, rfl, le_rfl⟩

theorem Network.mem_copies {n : Network} {event : NetEvent} {c : Copy}
    (hc : c ∈ n.copies authorizeSystem event) :
    ∃ arrival, n.arrivalOf event = some (c.router, arrival) ∧
      ((n.routers c.router).handle authorizeSystem arrival).2.copies ≠ [] ∧
      c.trace = arrival.msg.routing.traceId ∧ c.time = (n.routers c.router).clock := by
  unfold copies at hc
  cases harr : n.arrivalOf event with
  | none =>
    rw [harr] at hc
    cases hc
  | some pair =>
    obtain ⟨router, arrival⟩ := pair
    rw [harr] at hc
    obtain ⟨recipient, hmem, rfl⟩ := List.mem_map.mp hc
    exact ⟨arrival, rfl, ne_nil_of_mem hmem, rfl, rfl⟩

theorem Network.copies_nodup (n : Network) (event : NetEvent) :
    ((n.copies authorizeSystem event).map fun c => (c.router, c.recipient, c.trace)).Nodup := by
  unfold copies
  cases n.arrivalOf event with
  | none => exact nodup_nil
  | some pair =>
    obtain ⟨router, arrival⟩ := pair
    dsimp only [copiesAt]
    rw [List.map_map]
    refine ((n.routers router).handle_nodup arrival).map fun a b hab => ?_
    cases hab
    rfl

/-- A router of the network acts for a trace id once in the cache's lifetime, as long as no
broadcast it has heard comes in from a sibling or after one from a sibling. -/
theorem Network.deduplicates :
    Deduplicates (Network.step authorizeSystem gatewayOf) Network.Unheard
      (Network.copies authorizeSystem) (fun c => (c.router, c.trace)) Copy.time
      (fun n k => (n.routers k.1).clock) (fun n k => (n.routers k.1).Record k.2)
      broadcastTtlMs where
  clock_mono n event k := by
    rcases n.step_routers authorizeSystem gatewayOf event with
      ⟨router, arrival, -, hrouters⟩ | ⟨-, hsame⟩
    · rw [hrouters, update_apply]
      split_ifs with heq
      · rw [heq]
        exact le_rfl
      · exact le_rfl
    · exact (hsame k.1).2.2
  timed n event c hc := by
    obtain ⟨arrival, -, -, -, htime⟩ := mem_copies hc
    exact htime
  fresh n event hun c hc time hrecord := by
    obtain ⟨arrival, harr, hcopies, htrace, htime⟩ := mem_copies hc
    rw [htrace] at hrecord
    rw [htime]
    exact (n.routers c.router).fresh (hun _ harr) hcopies hrecord
  leaves n event c hc := by
    obtain ⟨arrival, harr, hcopies, htrace, htime⟩ := mem_copies hc
    rcases n.step_routers authorizeSystem gatewayOf event with
      ⟨router, arrival', harr', hrouters⟩ | ⟨hnone, -⟩
    · rw [harr] at harr'
      cases harr'
      rw [hrouters, update_self, htrace, htime]
      exact (n.routers c.router).leaves hcopies
    · rw [harr] at hnone
      cases hnone
  kept n event k time hrecord := by
    rcases n.step_routers authorizeSystem gatewayOf event with
      ⟨router, arrival, -, hrouters⟩ | ⟨-, hsame⟩
    · rw [hrouters, update_apply]
      split_ifs with heq
      · rw [heq] at hrecord
        exact (n.routers router).kept arrival hrecord
      · exact .inl hrecord
    · obtain ⟨hcache, hheard, -⟩ := hsame k.1
      left
      unfold NetRouter.Record
      rw [hcache, hheard]
      exact hrecord

/-- In every run in which no broadcast comes in at a router a second time, one of the two times from a
sibling, within the cache's lifetime, a router hands a trace id to a node, and sends it to another
hive, at most once in that lifetime. -/
theorem broadcast_once (authorizeSystem : String → Option String → String → Bool)
    (gatewayOf : String → Uuid) (n : Network) (events : List NetEvent)
    (hrun : Along (Network.step authorizeSystem gatewayOf) Network.Unheard n events) :
    (log (Network.step authorizeSystem gatewayOf) (Network.copies authorizeSystem) n
      events).Pairwise fun a b => a.router = b.router ∧ a.recipient = b.recipient ∧
        a.trace = b.trace → broadcastTtlMs < b.time - a.time := by
  have hspaced := Network.deduplicates.spaced (fun c => (c.router, c.recipient, c.trace))
    (fun a b hab => by cases a; cases b; cases hab; rfl) Network.copies_nodup hrun
  refine hspaced.imp fun h hab => h ?_
  rw [hab.1, hab.2.1, hab.2.2]

end

namespace Twin

def uuid (digit : Fin 16) : Uuid := .uniform digit

def router : Uuid := uuid 1
def gateway : Uuid := uuid 2
def sender : Uuid := uuid 3
def listener : Uuid := uuid 4

def routerTables : RouterTables where
  hiveId := "motherbee"
  isGateway := false
  nodes := (∅ : Nodes).insert sender ⟨"AI.a@motherbee", 0, 0⟩
  peerNodes := (∅ : PeerNodes).insert listener ⟨"AI.b@motherbee", 0, gateway⟩
  peerRouters := (∅ : AList fun _ : Uuid => Bool).insert gateway true
  peers := [gateway]
  wanPeers := ∅
  fib := []
  lsaSnapshot := none
  reachability := ∅

/-- The gateway of the same hive, with another node and a link to another hive. -/
def gatewayTables : RouterTables where
  hiveId := "motherbee"
  isGateway := true
  nodes := (∅ : Nodes).insert listener ⟨"AI.b@motherbee", 0, 0⟩
  peerNodes := (∅ : PeerNodes).insert sender ⟨"AI.a@motherbee", 0, router⟩
  peerRouters := (∅ : AList fun _ : Uuid => Bool).insert router false
  peers := [router]
  wanPeers := (∅ : AList fun _ : String => WanPeer).insert "worker" ⟨0, zeroUuid⟩
  fib := []
  lsaSnapshot := none
  reachability := ∅

def network : Network where
  routers u := if u = router then { tables := routerTables } else { tables := gatewayTables }

def broadcast (ttl : ℕ) : Message :=
  ⟨⟨sender.hyphenated, none, .broadcast, ttl, zeroUuid.hyphenated⟩,
    ⟨"text", none, none, none, none, none, false⟩, .null⟩

def deny (_ : String) (_ : Option String) (_ : String) : Bool := false

def copies (events : List NetEvent) : List Copy :=
  log (Network.step deny fun _ => gateway) (Network.copies deny) network events

end Twin

/-- With two hops left to it the broadcast goes to the gateway once. -/
theorem broadcast_once_within_hive :
    (Twin.copies [.send Twin.router (Twin.broadcast 2), .receive 0]).map Copy.recipient =
        [.node Twin.listener] ∧
      (Twin.copies [.send Twin.router (Twin.broadcast 2), .receive 0]).Pairwise fun a b =>
        a.router = b.router ∧ a.recipient = b.recipient ∧ a.trace = b.trace →
          broadcastTtlMs < b.time - a.time :=
  ⟨by decide +kernel, broadcast_once Twin.deny (fun _ => Twin.gateway) Twin.network
    [.send Twin.router (Twin.broadcast 2), .receive 0] (by decide +kernel)⟩

/-- With four hops it goes to the gateway as a sibling and again as the gateway, which hands it to
its node and sends it to the other hive both times. -/
theorem broadcast_twice_from_sibling :
    (Twin.copies [.send Twin.router (Twin.broadcast 4), .receive 0, .receive 0]).map
        (fun c => (c.router, c.recipient)) =
      [(Twin.gateway, .node Twin.listener), (Twin.gateway, .hive "worker"),
        (Twin.gateway, .node Twin.listener), (Twin.gateway, .hive "worker")] ∧
    ¬ (Twin.copies [.send Twin.router (Twin.broadcast 4), .receive 0, .receive 0]).Pairwise
      fun a b => a.router = b.router ∧ a.recipient = b.recipient ∧ a.trace = b.trace →
        broadcastTtlMs < b.time - a.time := by
  decide +kernel

end Fluxbee.Router
