import Fluxbee.Router.Claims

/-! What one step of a gateway, or of the router around it, does to the link state, to the region it
is published in and to the tables that resolve UUIDs. -/
namespace Fluxbee.Router
open Text Shm Lsa List Option AList

/-! ### Steps of the gateway -/

def latest (hive : String) (before : List LsaNode) (heard : List (String × List LsaNode)) :
    List LsaNode :=
  heard.foldl (fun nodes lsa => if lsa.1 = hive then lsa.2 else nodes) before

variable {heard : List (String × List LsaNode)} {wrote : Bool} {flags : UInt16} {deadIntervalMs : ℕ}

namespace Gateway

variable {g g' : Gateway} {session : WanSession} {payload : LsaPayload} {localUuids : List Uuid}
  {now : ℕ}

def hears (g : Gateway) : GatewayEvent → List (String × List LsaNode)
  | .lsa id payload localUuids now => (g.sessionIn .running id).toList.flatMap fun session =>
      if (g.lsaOutcome session payload localUuids now).2.isApplied then
        [(session.hive, payload.accepted session.hive localUuids)]
      else []
  | _ => []

/-- What the step has to publish fits the region, and the id of an LSA's hive fits its entry. The
hive of the router stays the same. -/
def Publishable (g : Gateway) : GatewayEvent → Prop
  | .lsa id payload localUuids now => ∀ session ∈ g.sessionIn .running id,
      (g.lsaOutcome session payload localUuids now).2.isApplied = true →
        FitsHiveId session.hive ∧
          Fits (publishedHives g.side (g.lsaOutcome session payload localUuids now).1 now)
  | .markStale deadIntervalMs now =>
      Fits (publishedHives g.side (g.lsaState.mapValues fun _ => freshness deadIntervalMs now) now)
  | .publish now => Fits (publishedHives g.side g.lsaState now)
  | .relocate side => side.hiveId = g.side.hiveId
  | _ => True

/-- What a step does to the link state and the region, the local side being the same. -/
inductive Moved (g : Gateway) : Gateway → Bool → List (String × List LsaNode) → Prop
  | kept {g' : Gateway} : g'.side = g.side → g'.region = g.region →
      SameLink g.lsaState g'.lsaState → (Tidy g.lsaState → Tidy g'.lsaState) → Moved g g' false []
  | written {g' : Gateway} {now : ℕ} {heard : List (String × List LsaNode)} : g'.side = g.side →
      Fits (publishedHives g.side g'.lsaState now) →
      g'.region = (writeLsaState g.region g.side g'.lsaState now).1 →
      (Tidy g.lsaState → Tidy g'.lsaState) →
      (∀ hive, advertised g'.lsaState hive = latest hive (advertised g.lsaState hive) heard) →
      Moved g g' true heard

theorem Moved.of_eq
    (hside : g'.side = g.side) (hregion : g'.region = g.region) (hstate : g'.lsaState = g.lsaState)
    (hwrote : wrote = false) (hheard : heard = []) : Moved g g' wrote heard := by
  rw [hwrote, hheard]
  refine .kept hside hregion ?_ fun htidy => hstate.symm ▸ htidy
  rw [hstate]
  exact fun _ => ⟨rfl, rfl⟩

theorem writes_of_fits (h : Fits (publishedHives g.side g.lsaState now)) : g.writes now = true := by
  rw [writes, (writeLsaState_of_fits g.region g.side g.lsaState now h).1]
  rfl

theorem lsaOutcome_applied (h : (g.lsaOutcome session payload localUuids now).2.isApplied = true) :
    ∃ entry, (g.lsaOutcome session payload localUuids now).1 = g.lsaState.insert session.hive entry ∧
      entry.nodes = payload.accepted session.hive localUuids ∧
      entry.flags = (sessionEntry g.lsaState session.hive session.epoch).flags &&& ~~~flagStale := by
  unfold lsaOutcome applyLsaPayload at h ⊢
  dsimp only at h ⊢
  by_cases hhive : payload.hive = session.hive
  · rw [if_neg (not_not.mpr hhive)] at h ⊢
    by_cases hseq : payload.seq ≤ (sessionEntry g.lsaState session.hive session.epoch).lastSeq
    · rw [if_pos hseq] at h
      cases h
    · rw [if_neg hseq] at h ⊢
      cases hrouter : payloadRouter payload session.routerUuid with
      | none =>
        rw [hrouter] at h
        cases h
      | some routerUuid => exact ⟨_, rfl, rfl, rfl⟩
  · rw [if_pos hhive] at h
    cases h

theorem sessionEntry_flags (state : LsaState) (hive : String) (epoch : ℕ) :
    (sessionEntry state hive epoch).flags = ((state.lookup hive).getD {}).flags := by
  unfold sessionEntry
  dsimp only
  split_ifs
  · rfl
  · rfl

theorem sameLink_opened (state : LsaState) (hive : String) (epoch : ℕ) :
    SameLink state (state.insert hive (sessionEntry state hive epoch)) := by
  intro other
  have hlookup := lookup_insert_eq state hive other (sessionEntry state hive epoch)
  by_cases hother : other = hive
  · subst hother
    rw [if_pos rfl] at hlookup
    rw [advertised, isStale, hlookup, map_some, getD_some, any_some,
      sessionEntry_nodes, sessionEntry_flags, advertised, isStale]
    cases state.lookup other with
    | none => exact ⟨rfl, by decide⟩
    | some st => exact ⟨rfl, rfl⟩
  · rw [if_neg hother] at hlookup
    rw [advertised, isStale, hlookup]
    exact ⟨rfl, rfl⟩

theorem Tidy.opened {state : LsaState} (h : Tidy state) (hive : String) (epoch : ℕ) :
    Tidy (state.insert hive (sessionEntry state hive epoch)) := by
  intro other st hl
  rw [lookup_insert_eq] at hl
  split_ifs at hl with hother
  · cases hl
    rw [sessionEntry_nodes, sessionEntry_flags, hother]
    cases hold : state.lookup hive with
    | none => exact ⟨.inl rfl, nofun⟩
    | some st => exact h hive st hold
  · exact h other st hl

theorem lsaOutcome_refused (h : (g.lsaOutcome session payload localUuids now).2.isApplied = false) :
    let after := (g.lsaOutcome session payload localUuids now).1
    SameLink g.lsaState after ∧ (Tidy g.lsaState → Tidy after) := by
  have hchange : LsaChange g.lsaState session.hive session.epoch payload
      (g.lsaOutcome session payload localUuids now).1 _ := applyLsaPayload_change ..
  cases hchange with
  | mismatch hhive hs _ =>
    rw [hs]
    exact ⟨fun _ => ⟨rfl, rfl⟩, id⟩
  | refused hhive hs _ =>
    rw [hs]
    exact ⟨sameLink_opened _ _ _, fun htidy => Tidy.opened htidy _ _⟩
  | applied hhive hs happlied =>
    rw [lsaOutcome] at h
    rw [h] at happlied
    cases happlied

theorem fresh_flags (h : flags = 0 ∨ flags = flagStale) : flags &&& ~~~flagStale = 0 := by
  rcases h with rfl | rfl
  · decide
  · decide

theorem stale_flags (h : flags = 0 ∨ flags = flagStale) : flags ||| flagStale = flagStale := by
  rcases h with rfl | rfl
  · decide
  · decide

theorem mem_accepted {node : LsaNode} {hive : String}
    (h : node ∈ payload.accepted hive localUuids) : nodeIsOnHive node.name hive = true :=
  (mem_filter.mp (mem_filter.mp h).1).2

theorem moved_takeLsa (hfits : (g.lsaOutcome session payload localUuids now).2.isApplied = true →
      FitsHiveId session.hive ∧
        Fits (publishedHives g.side (g.lsaOutcome session payload localUuids now).1 now)) :
    Moved g (g.takeLsa session payload localUuids now) (g.lsaWrites session payload localUuids now)
      (if (g.lsaOutcome session payload localUuids now).2.isApplied then
        [(session.hive, payload.accepted session.hive localUuids)] else []) := by
  unfold takeLsa lsaWrites
  dsimp only
  cases happlied : (g.lsaOutcome session payload localUuids now).2.isApplied with
  | false =>
    obtain ⟨hsame, htidy⟩ := lsaOutcome_refused happlied
    rw [Bool.false_and, if_neg Bool.false_ne_true, if_neg Bool.false_ne_true]
    exact .kept rfl rfl hsame htidy
  | true =>
    obtain ⟨hid, hpublish⟩ := hfits happlied
    obtain ⟨entry, hstate, hnodes, hflags⟩ := lsaOutcome_applied happlied
    rw [if_pos rfl, if_pos rfl, Bool.true_and, writes_of_fits hpublish]
    refine .written rfl hpublish rfl ?_ ?_
    · -- The new entry is fresh and lists the hive's own nodes.
      intro htidy hive st hl
      dsimp only [publish] at hl
      rw [hstate, lookup_insert_eq] at hl
      split_ifs at hl with hhive
      · cases hl
        rw [hhive, hnodes, hflags, sessionEntry_flags]
        refine ⟨.inl ?_, fun node hnode => ⟨mem_accepted hnode, hid⟩⟩
        cases hold : g.lsaState.lookup session.hive with
        | none => exact fresh_flags (.inl rfl)
        | some st => exact fresh_flags (htidy session.hive st hold).1
      · exact htidy hive st hl
    · intro hive
      have hlookup := lookup_insert_eq g.lsaState session.hive hive entry
      dsimp only [publish]
      rw [hstate, advertised, hlookup, latest, foldl_cons, foldl_nil]
      by_cases hhive : hive = session.hive
      · rw [if_pos hhive, if_pos hhive.symm, map_some, getD_some, hnodes]
      · rw [if_neg hhive, if_neg (Ne.symm hhive), advertised]

theorem freshness_flags {st : RemoteHiveState} (h : st.flags = 0 ∨ st.flags = flagStale) :
    (freshness deadIntervalMs now st).flags = 0 ∨
      (freshness deadIntervalMs now st).flags = flagStale := by
  unfold freshness
  split_ifs with hdead
  · exact .inr (stale_flags h)
  · exact .inl (fresh_flags h)

theorem advertised_marked (state : LsaState) (deadIntervalMs now : ℕ) (hive : String) :
    advertised (state.mapValues fun _ => freshness deadIntervalMs now) hive =
      advertised state hive := by
  rw [advertised, lookup_mapValues, advertised]
  cases state.lookup hive with
  | none => rfl
  | some st => exact freshness_nodes deadIntervalMs now st

theorem moved_markStale (hfits : g.Publishable (.markStale deadIntervalMs now)) :
    Moved g (g.markStale deadIntervalMs now) (g.stepWrites (.markStale deadIntervalMs now)) [] := by
  have htidy : Tidy g.lsaState →
      Tidy (g.lsaState.mapValues fun _ => freshness deadIntervalMs now) := by
    intro htidy hive st hl
    rw [lookup_mapValues, map_eq_some_iff] at hl
    obtain ⟨st', hl', rfl⟩ := hl
    obtain ⟨hflags, hnodes⟩ := htidy hive st' hl'
    rw [freshness_nodes]
    exact ⟨freshness_flags hflags, hnodes⟩
  unfold markStale stepWrites
  dsimp only
  by_cases hchanged :
      (g.lsaState.mapValues fun _ => freshness deadIntervalMs now).entries ≠ g.lsaState.entries
  · have hwrites := writes_of_fits
      (g := { g with lsaState := g.lsaState.mapValues fun _ => freshness deadIntervalMs now }) hfits
    rw [if_pos hchanged, decide_eq_true hchanged, Bool.true_and, hwrites]
    exact .written rfl hfits rfl htidy fun hive => advertised_marked _ deadIntervalMs now hive
  · rw [if_neg hchanged, decide_eq_false hchanged, Bool.false_and]
    have hsame : (g.lsaState.mapValues fun _ => freshness deadIntervalMs now) = g.lsaState :=
      AList.ext (not_not.mp hchanged)
    exact .of_eq rfl rfl hsame rfl rfl

theorem moved_step {event : GatewayEvent} (hfits : g.Publishable event)
    (hstill : ∀ side, event ≠ .relocate side) :
    Moved g (g.step event) (g.stepWrites event) (g.hears event) := by
  cases event with
  | lsa id payload localUuids now =>
    cases hs : g.sessionIn .running id with
    | none =>
      simp only [step, stepWrites, hears, hs, map_none, getD_none, any_none,
        toList_none, flatMap_nil]
      exact .of_eq rfl rfl rfl rfl rfl
    | some session =>
      simp only [step, stepWrites, hears, hs, map_some, getD_some, any_some,
        toList_some, flatMap_cons, flatMap_nil, append_nil]
      exact moved_takeLsa (hfits session hs)
  | markStale deadIntervalMs now => exact moved_markStale hfits
  | publish now =>
    simp only [step, stepWrites, hears, writes_of_fits hfits]
    exact .written rfl hfits rfl id fun _ => rfl
  | relocate side => exact absurd rfl (hstill side)
  | accept hive routerUuid routerName => exact .of_eq rfl rfl rfl rfl rfl
  | enter id => cases hs : g.sessionIn .accepting id <;> simp only [step, hs] <;>
      exact .of_eq rfl rfl rfl rfl rfl
  | fail id | close id =>
    cases hs : g.sessionIn .running id <;> simp only [step, hs] <;>
      exact .of_eq rfl rfl rfl rfl rfl

theorem Moved.side_eq (h : Moved g g' wrote heard) : g'.side = g.side := by
  cases h with
  | kept hside | written hside => exact hside

theorem Moved.advertised_eq (h : Moved g g' wrote heard) (hive : String) :
    advertised g'.lsaState hive = latest hive (advertised g.lsaState hive) heard := by
  cases h with
  | kept _ _ hsame => exact (hsame hive).1
  | written _ _ _ _ hlatest => exact hlatest hive

end Gateway

/-! ### Steps of the router -/

def RouterTables.resolveUuid (t : RouterTables) (dst : Uuid) : Option RemoteNodeInfo :=
  if dst ∈ t.nodes ∨ dst ∈ t.peerNodes then none
  else (findRemoteNode t.lsaSnapshot dst).or (findReachableNode t.reachability dst)

/-- A message for a UUID that resolves goes to the hive it resolves to, if the VPNs allow it. -/
theorem RouterTables.routeUuid_of_resolveUuid {t : RouterTables} {dst : Uuid}
    {remote : RemoteNodeInfo} (h : t.resolveUuid dst = some remote) (src : Source) (msg : Message) :
    routeUuid t src msg dst = ifAllowed src msg remote.name remote.vpnId
      { sent := forwardToHive t msg remote.nextHopHive } := by
  unfold resolveUuid at h
  split_ifs at h with hknown
  obtain ⟨hnode, hpeer⟩ := not_or.mp hknown
  rw [routeUuid, lookup_eq_none.mpr hnode, lookup_eq_none.mpr hpeer, h]

namespace WanRouter

variable {p : WanPolicy} {r : WanRouter}

def start (side : LocalSide) : WanRouter := { gateway := .start side }

def lsaOf (p : WanPolicy) (msg : Message) : Option LsaPayload :=
  if (if isSystemKind msg.info.msgType then msg.info.msg else none) = some msgLsa then
    p.lsaPayload msg.payload
  else none

def gatewayEvent (p : WanPolicy) (r : WanRouter) : Event → Option GatewayEvent
  | .frame id msg _ now =>
    (lsaOf p msg).map fun payload => .lsa id payload r.gateway.side.nodeUuids now
  | .gateway event => some event
  | _ => none

def hears (p : WanPolicy) (r : WanRouter) (event : Event) : List (String × List LsaNode) :=
  (r.gatewayEvent p event).toList.flatMap r.gateway.hears

/-- What a step does to the tables that resolve UUIDs. -/
inductive Stepped (p : WanPolicy) (r : WanRouter) : WanRouter → Option GatewayEvent → Prop
  | gateway (event : GatewayEvent) :
      Stepped p r (r.follow (r.gateway.step event) (r.gateway.stepWrites event)) (some event)
  | vouch (peerHive : String) (msg : Message) (now : ℕ) :
      Stepped p r (r.applyWanReachability p peerHive msg now) none
  | refresh : Stepped p r { r with lsaSnapshot := some r.gateway.region.readSnapshot }.rebuilt none
  | expire (deadIntervalMs now : ℕ) :
      Stepped p r { r with
        reachability := r.reachability.retain fun _ entry =>
          now - entry.lastUpdated ≤ deadIntervalMs }.rebuilt none
  | other {r' : WanRouter} : r'.gateway = r.gateway → r'.lsaSnapshot = r.lsaSnapshot →
      r'.reachability = r.reachability → Stepped p r r' none

theorem stepped_frame (session : WanSession) (id : ℕ) (msg : Message) (opa : OpaAnswer) (now : ℕ)
    (hs : r.gateway.sessionIn .running id = some session) :
    Stepped p r (r.handleWanMessage p session msg opa now).1
      (r.gatewayEvent p (.frame id msg opa now)) := by
  unfold handleWanMessage gatewayEvent lsaOf
  dsimp only
  generalize (if isSystemKind msg.info.msgType = true then msg.info.msg else none) = kind
  split_ifs with hlsa hreach hnotice
  · cases hp : p.lsaPayload msg.payload with
    | none => exact .other rfl rfl rfl
    | some payload =>
      have hstep := Stepped.gateway (p := p) (r := r) (.lsa id payload r.gateway.side.nodeUuids now)
      simp only [Gateway.step, Gateway.stepWrites, hs, map_some, getD_some, any_some] at hstep
      exact hstep
  · exact .vouch session.hive msg now
  · exact .other rfl rfl rfl
  · exact .other rfl rfl rfl

theorem stepped (event : Event) : Stepped p r (r.step p event) (r.gatewayEvent p event) := by
  cases event with
  | frame id msg opa now =>
    cases hs : r.gateway.sessionIn .running id with
    | some session =>
      simp only [step, hs, map_some, getD_some]
      exact stepped_frame session id msg opa now hs
    | none =>
      simp only [step, hs, map_none, getD_none, gatewayEvent]
      cases lsaOf p msg with
      | none => exact .other rfl rfl rfl
      | some payload =>
        have hstep := Stepped.gateway (p := p) (r := r)
          (.lsa id payload r.gateway.side.nodeUuids now)
        simp only [Gateway.step, Gateway.stepWrites, hs, map_none, getD_none, any_none] at hstep
        exact hstep
  | gateway event => exact .gateway event
  | refresh => exact .refresh
  | expire deadIntervalMs now => exact .expire deadIntervalMs now
  | siblings peerRouters peers => exact .other rfl rfl rfl

end WanRouter

end Fluxbee.Router
