import Fluxbee.Lib.GuardedRun
import Fluxbee.Router.LinkState

/-! The WAN sessions of a gateway, and the tables they share: the peer table, the session epochs,
the link state and the region it is published in. A session is accepted, enters the peer table and
ends; the checks before its acceptance are left out, so any hive may be accepted at any time. -/
namespace Fluxbee.Router
open Text Shm Lsa GuardedRun List Option AList

inductive SessionStage where
  | accepting
  | running
  | ended
  deriving DecidableEq

structure WanSession where
  hive : String
  routerUuid : Uuid
  routerName : String
  epoch : ℕ
  stage : SessionStage

/-- An entry of the peer table. The channel is named by the session that made it. -/
structure WanPeer where
  sender : ℕ
  routerUuid : Uuid

/-- The sessions of all time, each under the number of sessions before it. -/
structure Gateway where
  side : LocalSide
  lsaState : LsaState := ∅
  region : LsaRegion
  wanSessionEpochs : AList fun _ : String => ℕ := ∅
  wanPeers : AList fun _ : String => WanPeer := ∅
  sessions : List WanSession := []

inductive GatewayEvent where
  | accept (hive : String) (routerUuid : Uuid) (routerName : String)
  | enter (id : ℕ)
  | lsa (id : ℕ) (payload : LsaPayload) (localUuids : List Uuid) (now : ℕ)
  -- The reader or a handler fails: the session returns at once.
  | fail (id : ℕ)
  -- The peer closes the connection, or its hive is no longer registered.
  | close (id : ℕ)
  | markStale (deadIntervalMs now : ℕ)
  | publish (now : ℕ)
  | relocate (side : LocalSide)

section
variable (g : Gateway)

def Gateway.sessionIn (stage : SessionStage) (id : ℕ) : Option WanSession :=
  (g.sessions[id]?).filter (·.stage = stage)

def Gateway.accept (hive : String) (routerUuid : Uuid) (routerName : String) : Gateway :=
  let epoch := min ((g.wanSessionEpochs.lookup hive).getD 0 + 1) (2 ^ 64 - 1)
  { g with
    wanSessionEpochs := g.wanSessionEpochs.insert hive epoch
    sessions := g.sessions ++ [⟨hive, routerUuid, routerName, epoch, .accepting⟩] }

section
variable (id : ℕ) (session : WanSession)

def Gateway.enter : Gateway :=
  { g with
    wanPeers := g.wanPeers.insert session.hive ⟨id, session.routerUuid⟩
    sessions := g.sessions.set id { session with stage := .running } }

/-- The session is over; the peer table stays as it is. -/
def Gateway.fail : Gateway :=
  { g with sessions := g.sessions.set id { session with stage := .ended } }

def Gateway.close : Gateway :=
  { g with
    wanPeers := g.wanPeers.erase session.hive
    sessions := g.sessions.set id { session with stage := .ended } }

end

def Gateway.publish (now : ℕ) : Gateway :=
  { g with region := (writeLsaState g.region g.side g.lsaState now).1 }

section
variable (session : WanSession) (payload : LsaPayload) (localUuids : List Uuid) (now : ℕ)

def Gateway.lsaOutcome : LsaState × LsaApplyResult :=
  applyLsaPayload g.lsaState localUuids session.hive session.routerUuid session.routerName
    session.epoch payload now

def Gateway.takeLsa : Gateway :=
  let outcome := g.lsaOutcome session payload localUuids now
  let g' := { g with lsaState := outcome.1 }
  if outcome.2.isApplied then g'.publish now else g'

end

def freshness (deadIntervalMs now : ℕ) (state : RemoteHiveState) : RemoteHiveState :=
  if now - state.lastUpdated > deadIntervalMs then { state with flags := state.flags ||| flagStale }
  else { state with flags := state.flags &&& ~~~flagStale }

def Gateway.markStale (deadIntervalMs now : ℕ) : Gateway :=
  let lsaState := g.lsaState.mapValues fun _ => freshness deadIntervalMs now
  let g' := { g with lsaState }
  if lsaState.entries ≠ g.lsaState.entries then g'.publish now else g'

def Gateway.step : GatewayEvent → Gateway
  | .accept hive routerUuid routerName => g.accept hive routerUuid routerName
  | .enter id => ((g.sessionIn .accepting id).map (g.enter id)).getD g
  | .lsa id payload localUuids now =>
    ((g.sessionIn .running id).map (g.takeLsa · payload localUuids now)).getD g
  | .fail id => ((g.sessionIn .running id).map (g.fail id)).getD g
  | .close id => ((g.sessionIn .running id).map (g.close id)).getD g
  | .markStale deadIntervalMs now => g.markStale deadIntervalMs now
  | .publish now => g.publish now
  | .relocate side => { g with side }

end

def Gateway.start (side : LocalSide) : Gateway := { side, region := .created }

namespace Flap

def side : LocalSide where
  routerUuid := zeroUuid
  routerName := "RT.gateway@motherbee"
  hiveId := "motherbee"
  nodes := ∅
  peerNodes := ∅
  staticRoutes := []
  vpnRules := []
  tapRules := []
  lsaSeq := 1

def accept : GatewayEvent := .accept "worker" zeroUuid "RT.gateway@worker"

/-- Two sessions of one hive, of which the older one is read to its end after the newer is up. -/
def reconnect : List GatewayEvent := [accept, .enter 0, accept, .enter 1, .close 0]

def failure : List GatewayEvent := [accept, .enter 0, .fail 0]

def lsa (id seq : ℕ) : GatewayEvent :=
  .lsa id ⟨"worker", "", "", seq, [], [], [], []⟩ [] 0

/-- The older session's last LSA is handled after the newer session's first ones. -/
def late : List GatewayEvent := [accept, .enter 0, accept, .enter 1, lsa 1 5, lsa 0 1]

def orderly : List GatewayEvent :=
  [accept, .enter 0, lsa 0 3, lsa 0 4, accept, .enter 1, lsa 1 1, lsa 1 1, lsa 1 2]

end Flap

/-! ### The peer table -/

namespace Gateway

variable {g g' : Gateway} {id other : ℕ} {session session' : WanSession} {hive : String}

def Open (g : Gateway) (id : ℕ) (hive : String) : Prop :=
  ∃ session, g.sessionIn .running id = some session ∧ session.hive = hive

/-- A hive has an entry exactly while a session of it is open, and the entry's channel is an open
session's. -/
structure TableExact (g : Gateway) : Prop where
  open_of_entry : ∀ hive peer, g.wanPeers.lookup hive = some peer → g.Open peer.sender hive
  entry_of_open : ∀ id hive, g.Open id hive → ∃ peer, g.wanPeers.lookup hive = some peer

variable {stage : SessionStage}

theorem sessionIn_eq_some :
    g.sessionIn stage id = some session ↔ g.sessions[id]? = some session ∧ session.stage = stage := by
  rw [sessionIn, filter_eq_some_iff, decide_eq_true_eq]

theorem Open.hive_eq (h : g.Open id hive) (hs : g.sessionIn .running id = some session) :
    session.hive = hive := by
  obtain ⟨session', hs', rfl⟩ := h
  rw [hs] at hs'
  rw [Option.some.inj hs']

theorem open_set (hs : g.sessionIn stage id = some session)
    (hset : g'.sessions = g.sessions.set id session') :
    g'.Open other hive ↔ if other = id then session'.stage = .running ∧ session'.hive = hive
      else g.Open other hive := by
  obtain ⟨hget, -⟩ := sessionIn_eq_some.mp hs
  obtain ⟨hlt, -⟩ := List.getElem?_eq_some_iff.mp hget
  simp only [Open, sessionIn_eq_some, hset]
  split_ifs with heq
  · subst heq
    rw [getElem?_set_self hlt]
    constructor
    · rintro ⟨s, ⟨hs, hstage⟩, hhive⟩
      cases hs
      exact ⟨hstage, hhive⟩
    · rintro ⟨hstage, hhive⟩
      exact ⟨session', ⟨rfl, hstage⟩, hhive⟩
  · rw [getElem?_set_ne (Ne.symm heq)]

theorem open_accept (routerUuid : Uuid) (routerName name : String) :
    (g.accept name routerUuid routerName).Open id hive ↔ g.Open id hive := by
  simp only [Open, sessionIn_eq_some, accept, getElem?_append]
  split_ifs with h
  · rfl
  · constructor
    · rintro ⟨s, ⟨hget, hstage⟩, -⟩
      have hmem := mem_of_getElem? hget
      rw [mem_singleton] at hmem
      rw [hmem] at hstage
      cases hstage
    · rintro ⟨s, ⟨hget, -⟩, -⟩
      exact absurd (List.getElem?_eq_some_iff.mp hget).1 h

/-- What a step needs to leave the table exact: a session closes only while no other session of its
hive is open, and fails only while its hive's entry is another session's. -/
def Spares (g : Gateway) : GatewayEvent → Prop
  | .close id => ∀ session, g.sessionIn .running id = some session →
      ∀ other, other ≠ id → ¬ g.Open other session.hive
  | .fail id => ∀ session, g.sessionIn .running id = some session →
      ∀ peer, g.wanPeers.lookup session.hive = some peer → peer.sender ≠ id
  | _ => True

section
variable (h : g.TableExact)
include h

theorem TableExact.of_tables (hpeers : g'.wanPeers = g.wanPeers)
    (hopen : ∀ id hive, g'.Open id hive ↔ g.Open id hive) : g'.TableExact where
  open_of_entry hive peer hl := (hopen _ _).mpr (h.open_of_entry hive peer (hpeers ▸ hl))
  entry_of_open id hive ho := hpeers ▸ h.entry_of_open id hive ((hopen _ _).mp ho)

theorem TableExact.of_eq (hpeers : g'.wanPeers = g.wanPeers)
    (hsessions : g'.sessions = g.sessions) : g'.TableExact := by
  refine h.of_tables hpeers fun id hive => ?_
  simp only [Open, sessionIn_eq_some, hsessions]

theorem TableExact.enter (hs : g.sessionIn .accepting id = some session) :
    (g.enter id session).TableExact where
  open_of_entry hive peer hl := by
    rw [open_set hs rfl]
    rw [Gateway.enter, lookup_insert_eq] at hl
    split_ifs at hl with hhive
    · cases hl
      rw [if_pos rfl]
      exact ⟨rfl, hhive.symm⟩
    · have ho := h.open_of_entry hive peer hl
      split_ifs with heq
      · obtain ⟨s, hr, -⟩ := ho
        rw [heq] at hr
        have hstage := (sessionIn_eq_some.mp hs).2
        rw [Option.some.inj ((sessionIn_eq_some.mp hs).1.symm.trans (sessionIn_eq_some.mp hr).1),
          (sessionIn_eq_some.mp hr).2] at hstage
        cases hstage
      · exact ho
  entry_of_open other hive ho := by
    rw [open_set hs rfl] at ho
    rw [Gateway.enter, lookup_insert_eq]
    split_ifs with hhive
    · exact ⟨_, rfl⟩
    · split_ifs at ho with heq
      · exact absurd ho.2.symm hhive
      · exact h.entry_of_open other hive ho

theorem TableExact.fail_iff (hs : g.sessionIn .running id = some session) :
    (g.fail id session).TableExact ↔
      ∀ peer, g.wanPeers.lookup session.hive = some peer → peer.sender ≠ id := by
  have hopen : ∀ other hive, (g.fail id session).Open other hive ↔
      other ≠ id ∧ g.Open other hive := by
    intro other hive
    rw [open_set hs rfl]
    split_ifs with heq <;> simp [heq]
  constructor
  · intro h' peer hl
    exact ((hopen _ _).mp (h'.open_of_entry session.hive peer hl)).1
  · intro hother
    refine ⟨fun hive peer hl => ?_, fun other hive ho => ?_⟩
    · have ho := h.open_of_entry hive peer hl
      refine (hopen _ _).mpr ⟨fun heq => ?_, ho⟩
      have hhive := Open.hive_eq (heq ▸ ho) hs
      exact hother peer (hhive ▸ hl) heq
    · exact h.entry_of_open other hive ((hopen _ _).mp ho).2

theorem TableExact.close_iff (hs : g.sessionIn .running id = some session) :
    (g.close id session).TableExact ↔ ∀ other, other ≠ id → ¬ g.Open other session.hive := by
  have hopen : ∀ other hive, (g.close id session).Open other hive ↔
      other ≠ id ∧ g.Open other hive := by
    intro other hive
    rw [open_set hs rfl]
    split_ifs with heq <;> simp [heq]
  have hlookup : ∀ hive, (g.close id session).wanPeers.lookup hive =
      if hive = session.hive then none else g.wanPeers.lookup hive :=
    fun hive => lookup_erase_eq ..
  constructor
  · intro h' other hne ho
    obtain ⟨peer, hl⟩ := h'.entry_of_open other session.hive ((hopen _ _).mpr ⟨hne, ho⟩)
    rw [hlookup, if_pos rfl] at hl
    cases hl
  · intro halone
    refine ⟨fun hive peer hl => ?_, fun other hive ho => ?_⟩
    · rw [hlookup] at hl
      split_ifs at hl with hhive
      have ho := h.open_of_entry hive peer hl
      refine (hopen _ _).mpr ⟨fun heq => ?_, ho⟩
      exact hhive (Open.hive_eq (heq ▸ ho) hs).symm
    · obtain ⟨hne, ho⟩ := (hopen _ _).mp ho
      have hhive : hive ≠ session.hive := by
        rintro rfl
        exact halone other hne ho
      rw [hlookup, if_neg hhive]
      exact h.entry_of_open other hive ho

end

theorem takeLsa_tables (g : Gateway) (session : WanSession) (payload : LsaPayload) (localUuids : List Uuid) (now : ℕ) :
    (g.takeLsa session payload localUuids now).wanPeers = g.wanPeers ∧
      (g.takeLsa session payload localUuids now).sessions = g.sessions := by
  unfold takeLsa
  dsimp only
  split_ifs
  · exact ⟨rfl, rfl⟩
  · exact ⟨rfl, rfl⟩

theorem markStale_tables (g : Gateway) (deadIntervalMs now : ℕ) :
    (g.markStale deadIntervalMs now).wanPeers = g.wanPeers ∧
      (g.markStale deadIntervalMs now).sessions = g.sessions := by
  unfold markStale
  dsimp only
  split_ifs
  · exact ⟨rfl, rfl⟩
  · exact ⟨rfl, rfl⟩

theorem TableExact.step_iff (h : g.TableExact) (event : GatewayEvent) :
    (g.step event).TableExact ↔ g.Spares event := by
  cases event with
  | accept hive routerUuid routerName =>
    exact iff_of_true (h.of_tables rfl fun _ _ => open_accept ..) trivial
  | enter id =>
    refine iff_of_true ?_ trivial
    cases hs : g.sessionIn .accepting id with
    | none => simpa only [step, hs, map_none, getD_none] using h
    | some session => simpa only [step, hs, map_some, getD_some] using h.enter hs
  | lsa id payload localUuids now =>
    refine iff_of_true ?_ trivial
    cases hs : g.sessionIn .running id with
    | none => simpa only [step, hs, map_none, getD_none] using h
    | some session =>
      obtain ⟨hpeers, hsessions⟩ := takeLsa_tables g session payload localUuids now
      simpa only [step, hs, map_some, getD_some] using h.of_eq hpeers hsessions
  | fail id =>
    cases hs : g.sessionIn .running id with
    | none =>
      simp only [step, Spares, hs, map_none, getD_none, reduceCtorEq, false_implies,
        implies_true, iff_true]
      exact h
    | some session =>
      simp only [step, Spares, hs, map_some, getD_some, Option.some.injEq, forall_eq']
      exact h.fail_iff hs
  | close id =>
    cases hs : g.sessionIn .running id with
    | none =>
      simp only [step, Spares, hs, map_none, getD_none, reduceCtorEq, false_implies,
        implies_true, iff_true]
      exact h
    | some session =>
      simp only [step, Spares, hs, map_some, getD_some, Option.some.injEq, forall_eq']
      exact h.close_iff hs
  | markStale deadIntervalMs now =>
    obtain ⟨hpeers, hsessions⟩ := markStale_tables g deadIntervalMs now
    exact iff_of_true (h.of_eq hpeers hsessions) trivial
  | publish now | relocate side => exact iff_of_true (h.of_eq rfl rfl) trivial

theorem tableExact_start (side : LocalSide) : (start side).TableExact where
  open_of_entry hive peer hl := by cases hl
  entry_of_open id hive ho := by
    obtain ⟨s, hs, -⟩ := ho
    cases (sessionIn_eq_some.mp hs).1

/-- The peer table is exact in every state of a run exactly when every session that closes is then
its hive's last one, and every session that fails has lost its entry to another one. -/
theorem peer_table_exact_iff (side : LocalSide) (events : List GatewayEvent) :
    (∀ front, front <+: events → (front.foldl step (start side)).TableExact) ↔
      Along step Spares (start side) events :=
  states_iff_along (fun _ event h => h.step_iff event) (tableExact_start side)

/-- The old session of a link that flapped takes the new one's entry with it, and a session whose
reader fails leaves its own entry behind. -/
theorem peer_table_after_flap_and_failure :
    ¬ (Flap.reconnect.foldl step (start Flap.side)).TableExact ∧
      ¬ (Flap.failure.foldl step (start Flap.side)).TableExact := by
  constructor
  · intro h
    obtain ⟨peer, hl⟩ := h.entry_of_open 1 "worker" ⟨_, rfl, rfl⟩
    cases hl
  · intro h
    obtain ⟨session, hs, -⟩ := h.open_of_entry "worker" ⟨0, zeroUuid⟩ rfl
    cases hs

/-! ### The order of the link state -/

/-- How far a hive's link state has come: the epoch of the session last heard, and the sequence
number last taken in from it. -/
def position (g : Gateway) (hive : String) : ℕ ×ₗ ℕ :=
  let state := (g.lsaState.lookup hive).getD {}
  toLex (state.sessionEpoch, state.lastSeq)

def applies (g : Gateway) : GatewayEvent → Option (String × (ℕ ×ₗ ℕ))
  | .lsa id payload localUuids now => (g.sessionIn .running id).bind fun session =>
    if (g.lsaOutcome session payload localUuids now).2.isApplied then
      some (session.hive, toLex (session.epoch, payload.seq))
    else none
  | _ => none

def appliedLog (g : Gateway) (events : List GatewayEvent) : List (String × (ℕ ×ₗ ℕ)) :=
  log step (fun g event => (g.applies event).toList) g events

/-- An LSA comes in on a session no older than the one its hive was last heard on. -/
def Current (g : Gateway) : GatewayEvent → Prop
  | .lsa id payload _ _ => ∀ session ∈ g.sessionIn .running id,
      payload.hive = session.hive → (ofLex (g.position session.hive)).1 ≤ session.epoch
  | _ => True

instance decidableCurrent (g : Gateway) : (event : GatewayEvent) → Decidable (g.Current event)
  | .lsa id payload _ _ => inferInstanceAs (Decidable (∀ session ∈ g.sessionIn .running id,
      payload.hive = session.hive → (ofLex (g.position session.hive)).1 ≤ session.epoch))
  | .accept .. | .enter _ | .fail _ | .close _ | .markStale .. | .publish _ | .relocate _ =>
    inferInstanceAs (Decidable True)

theorem position_eq (g : Gateway) (hive : String) :
    g.position hive = toLex (((g.lsaState.lookup hive).getD {}).sessionEpoch,
      ((g.lsaState.lookup hive).getD {}).lastSeq) := rfl

theorem position_congr (h : g'.lsaState = g.lsaState) (hive : String) :
    g'.position hive = g.position hive := by rw [position_eq, position_eq, h]

theorem position_of_insert {entry : RemoteHiveState} {name : String}
    (h : g'.lsaState = g.lsaState.insert name entry) (hive : String) :
    g'.position hive =
      if hive = name then toLex (entry.sessionEpoch, entry.lastSeq) else g.position hive := by
  rw [position_eq, h, lookup_insert_eq]
  split_ifs
  · rfl
  · rfl

theorem takeLsa_lsaState (g : Gateway) (session : WanSession) (payload : LsaPayload)
    (localUuids : List Uuid) (now : ℕ) :
    (g.takeLsa session payload localUuids now).lsaState =
      (g.lsaOutcome session payload localUuids now).1 := by
  unfold takeLsa
  dsimp only
  split_ifs
  · rfl
  · rfl

theorem markStale_lsaState (g : Gateway) (deadIntervalMs now : ℕ) :
    (g.markStale deadIntervalMs now).lsaState =
      g.lsaState.mapValues fun _ => freshness deadIntervalMs now := by
  unfold markStale
  dsimp only
  split_ifs
  · rfl
  · rfl

theorem freshness_position (deadIntervalMs now : ℕ) (state : RemoteHiveState) :
    (freshness deadIntervalMs now state).sessionEpoch = state.sessionEpoch ∧
      (freshness deadIntervalMs now state).lastSeq = state.lastSeq := by
  unfold freshness
  split_ifs
  · exact ⟨rfl, rfl⟩
  · exact ⟨rfl, rfl⟩

theorem position_markStale (deadIntervalMs now : ℕ) (hive : String) :
    (g.markStale deadIntervalMs now).position hive = g.position hive := by
  rw [position_eq, position_eq, markStale_lsaState, lookup_mapValues]
  cases g.lsaState.lookup hive with
  | none => rfl
  | some state =>
    obtain ⟨hepoch, hseq⟩ := freshness_position deadIntervalMs now state
    rw [map_some, getD_some, getD_some, hepoch, hseq]

theorem position_le_sessionEntry {epoch : ℕ} (h : (ofLex (g.position hive)).1 ≤ epoch) :
    g.position hive ≤ toLex (epoch, (sessionEntry g.lsaState hive epoch).lastSeq) := by
  rw [position_eq, ofLex_toLex] at h
  rw [position_eq, Prod.Lex.toLex_le_toLex]
  rcases h.lt_or_eq with hlt | heq
  · exact .inl hlt
  · refine .inr ⟨heq, le_of_eq ?_⟩
    unfold sessionEntry
    rw [if_neg (not_not.mpr heq)]

theorem position_takeLsa {payload : LsaPayload} (hive : String) (localUuids : List Uuid) (now : ℕ)
    (hcur : payload.hive = session.hive → (ofLex (g.position session.hive)).1 ≤ session.epoch) :
    g.position hive ≤ (g.takeLsa session payload localUuids now).position hive ∧
      ((g.lsaOutcome session payload localUuids now).2.isApplied = true →
        g.position session.hive < toLex (session.epoch, payload.seq) ∧
          (g.takeLsa session payload localUuids now).position session.hive =
            toLex (session.epoch, payload.seq)) := by
  have hstate := takeLsa_lsaState g session payload localUuids now
  have hchange : LsaChange g.lsaState session.hive session.epoch payload _ _ :=
    applyLsaPayload_change g.lsaState localUuids session.hive session.routerUuid session.routerName
      session.epoch payload now
  unfold lsaOutcome at hstate ⊢
  generalize applyLsaPayload g.lsaState localUuids session.hive session.routerUuid
    session.routerName session.epoch payload now = outcome at hstate hchange ⊢
  cases hchange with
  | mismatch hhive hs ha =>
    rw [ha]
    exact ⟨(position_congr (hstate.trans hs) hive).ge, nofun⟩
  | refused hhive hs ha =>
    rw [ha, position_of_insert (hstate.trans hs), sessionEntry_sessionEpoch]
    refine ⟨?_, nofun⟩
    split_ifs with heq
    · rw [heq]
      exact position_le_sessionEntry (hcur hhive)
    · exact le_rfl
  | applied hhive hs ha hlt hepoch hseq =>
    have hpos := position_of_insert (hstate.trans hs)
    rw [hepoch, sessionEntry_sessionEpoch, hseq] at hpos
    have hforward : g.position session.hive < toLex (session.epoch, payload.seq) :=
      (position_le_sessionEntry (hcur hhive)).trans_lt
        (Prod.Lex.toLex_lt_toLex.mpr (.inr ⟨rfl, hlt⟩))
    refine ⟨?_, fun _ => ⟨hforward, by rw [hpos, if_pos rfl]⟩⟩
    rw [hpos]
    split_ifs with heq
    · rw [heq]
      exact hforward.le
    · exact le_rfl

theorem position_step {event : GatewayEvent} (hcur : g.Current event) (hive : String) :
    g.position hive ≤ (g.step event).position hive ∧ ∀ place, g.applies event = some (hive, place) →
        g.position hive < place ∧ (g.step event).position hive = place := by
  cases event with
  | lsa id payload localUuids now =>
    simp only [applies, step]
    cases hs : g.sessionIn .running id with
    | none => exact ⟨le_rfl, nofun⟩
    | some session =>
      simp only [map_some, getD_some, bind_some]
      obtain ⟨hle, happlied⟩ := position_takeLsa hive localUuids now (hcur session hs)
      refine ⟨hle, fun place h => ?_⟩
      split_ifs at h with ha
      cases h
      exact happlied ha
  | markStale deadIntervalMs now =>
    exact ⟨(position_markStale deadIntervalMs now hive).ge, nofun⟩
  | enter id =>
    refine ⟨(position_congr ?_ hive).ge, nofun⟩
    cases hs : g.sessionIn .accepting id <;> simp only [step, hs] <;> rfl
  | fail id | close id =>
    refine ⟨(position_congr ?_ hive).ge, nofun⟩
    cases hs : g.sessionIn .running id <;> simp only [step, hs] <;> rfl
  | accept | publish | relocate => exact ⟨le_rfl, nofun⟩

def places (g : Gateway) (events : List GatewayEvent) (hive : String) : List (ℕ ×ₗ ℕ) :=
  ((g.appliedLog events).filter (·.1 = hive)).map Prod.snd

theorem places_forward {events : List GatewayEvent} (h : Along step Current g events) :
    (∀ place ∈ g.places events hive, g.position hive < place) ∧
      (g.places events hive).Pairwise (· < ·) := by
  induction events generalizing g with
  | nil => exact ⟨by simp [places, appliedLog, log], List.Pairwise.nil⟩
  | cons event events ih =>
    obtain ⟨hlater, hrest⟩ := ih h.2
    obtain ⟨hle, hnow⟩ := position_step h.1 hive
    have hsplit : g.places (event :: events) hive =
        (((g.applies event).toList.filter (·.1 = hive)).map Prod.snd) ++
          (g.step event).places events hive := by
      rw [places, appliedLog, log, filter_append, map_append, places, appliedLog]
    rw [hsplit]
    have hbeyond : ∀ place ∈ (g.step event).places events hive, g.position hive < place :=
      fun place hp => hle.trans_lt (hlater place hp)
    cases ha : g.applies event with
    | none => exact ⟨hbeyond, hrest⟩
    | some entry =>
      obtain ⟨name, place⟩ := entry
      by_cases hname : name = hive
      · subst hname
        obtain ⟨hlt, hat⟩ := hnow place ha
        simp only [toList_some, decide_true, filter_cons_of_pos, filter_nil,
          map_cons, map_nil, singleton_append]
        refine ⟨forall_mem_cons.mpr ⟨hlt, hbeyond⟩, pairwise_cons.mpr ⟨?_, hrest⟩⟩
        intro later hlater'
        rw [← hat]
        exact hlater later hlater'
      · simpa [hname] using And.intro hbeyond hrest

/-- In a run whose LSAs all come in on a session no older than the one their hive was last heard
on, the LSAs of a hive are taken in by epoch and sequence number. -/
theorem link_state_never_goes_back (events : List GatewayEvent) (h : Along step Current g events) :
    ∀ hive, (g.places events hive).Pairwise (· < ·) :=
  fun _ => (places_forward h).2

/-- Two sessions one after the other; an LSA that comes twice is taken in once. -/
theorem link_state_forward_over_two_sessions :
    (start Flap.side).places Flap.orderly "worker" =
        [toLex (1, 3), toLex (1, 4), toLex (2, 1), toLex (2, 2)] ∧
      ((start Flap.side).places Flap.orderly "worker").Pairwise (· < ·) :=
  ⟨by decide +kernel, link_state_never_goes_back Flap.orderly (by decide +kernel) "worker"⟩

/-- The older session's LSA is taken in over the newer session's. -/
theorem link_state_goes_back :
    (start Flap.side).places Flap.late "worker" = [toLex (2, 5), toLex (1, 1)] ∧
      ¬ ((start Flap.side).places Flap.late "worker").Pairwise (· < ·) := by
  decide +kernel

end Gateway

end Fluxbee.Router

