import Fluxbee.Timer.Requests

/-! SY.timer as it runs: the request handler and the scheduler take turns, each of their steps one
statement on the table or one use of the scheduler's memory, and the process may stop between any
two of them. -/
namespace Fluxbee.Timer
open Text

structure FireAttempt where
  row : TimerRow
  attempt : ℕ
  deadline : ℤ
  sentAt : ℤ := 0
deriving DecidableEq

structure HeapEntry where
  timerUuid : String
  fireAtUtc : ℤ
  retry : Option FireAttempt := none

def deliveryRetryWindow : ℤ := 3600 * 1000

def deliveryAnswerWindow : ℤ := 30 * 1000

def storageRetryDelay : ℤ := 30 * 1000

def deliveryRetryDelay (attempt : ℕ) : ℤ :=
  match attempt with
  | 0 | 1 => 5000
  | 2 => 10000
  | 3 => 20000
  | 4 => 40000
  | _ => 60000

def transientUnreachable (reason : String) : Bool :=
  ["NODE_NOT_FOUND", "PEER_UNAVAILABLE", "WAN_UNAVAILABLE", "GATEWAY_UNAVAILABLE"].contains reason

def deliveryDeadline (row : TimerRow) (first : ℤ) : ℤ :=
  let deadline := first + deliveryRetryWindow
  match row.kind, row.missedPolicy with
  | .recurring, _ => deadline
  | .oneshot, .drop => first
  | .oneshot, .fireIfWithin =>
    match row.missedWithinMs with
    | some within => min (wrap64 (row.fireAtUtc + within)) deadline
    | none => deadline
  | .oneshot, .fire => deadline

inductive Answer
  | error (verb : String) (fault : Fault)
  | scheduled (verb timerUuid : String) (fireAtUtcMs : ℤ) (alreadyExisted : Bool)
  | canceled (timerUuid : String)
  | cancelNotFound
  | rescheduled (timerUuid : String) (fireAtUtcMs : ℤ)
  | purged (deletedCount : ℕ)
deriving DecidableEq

inductive Handling
  | idle
  | findExisting (verb : String) (draft : TimerRow)
  | countOwned (verb : String) (draft : TimerRow)
  | countAll (verb : String) (draft : TimerRow)
  | insert (verb : String) (row : TimerRow)
  | findWinner (verb : String) (row : TimerRow)
  | enqueue (timerUuid : String) (fireAtUtc : ℤ) (answer : Answer)
  | resolveCancel (source : String) (ref : Reference)
  | writeCancel (row : TimerRow)
  | resolveReschedule (source : String) (ref : Reference) (newFireAtUtcMs newFireInMs : Option ℤ)
  | writeReschedule (row : TimerRow) (fireAtUtc : ℤ)
  | deleteOwned (owner : String)
  | reply (answer : Answer)
deriving DecidableEq

/-- Where the scheduler is; `now` is the time `processDue` was called with. -/
inductive Firing
  | idle
  | draining (now : ℤ)
  | readFire (now : ℤ) (timerUuid : String)
  | writeFire (now : ℤ) (fire : FireAttempt) (row : TimerRow)
  | requeue (now : ℤ) (fire : FireAttempt) (row : TimerRow)
  | sendFire (now : ℤ) (fire : FireAttempt)
  | readRetry (now : ℤ) (fire : FireAttempt)
  | sendRetry (now : ℤ) (fire : FireAttempt)
  | emit (now : ℤ) (traceId : String) (fire : FireAttempt)
deriving DecidableEq

inductive Phase
  | down
  | collecting
  | listing
  | replaying (now : ℤ) (rows : List TimerRow)
  | serving (handling : Handling) (firing : Firing)
deriving DecidableEq

/-- A fire as it is started: when the scheduler took its timer as due, and the fire time the timer
was given last. -/
structure Start where
  timerUuid : String
  kind : Kind
  now : ℤ
  fireAtUtc : Option ℤ
deriving DecidableEq

/-- What others see of a run. -/
inductive Note
  | started (start : Start)
  | cancelAnswered (timerUuid : String)
deriving DecidableEq

/-- The table lasts; the heap and the fires sent are gone when the process stops. `issued`, `given`
and `log` record the run: the uuids drawn, the fire time each timer was given last, what was seen. -/
structure Node where
  timers : Table
  phase : Phase := .down
  items : List HeapEntry := []
  sent : AList fun _ : String => FireAttempt := ∅
  issued : List String
  given : AList fun _ : String => ℤ
  log : List Note := []

/-- What the outside gives a step: the clock, whether its statement or send fails, which of several
least entries the heap holds on top, the uuid it draws. -/
structure Env where
  now : ℤ := 0
  later : ℤ := 0
  fails : Bool := false
  tooLarge : Bool := false
  storageError : String := ""
  pick : ℕ := 0
  uuid : String := ""

inductive Event
  | crash
  | boot
  | startup (env : Env)
  | request (source : String) (request : Request) (env : Env)
  | unreachable (traceId reason : String) (now : ℤ)
  | handle (env : Env)
  | wake (now : ℤ)
  | fire (env : Env)

def Env.storageFault (env : Env) : Fault := ⟨"TIMER_STORAGE_ERROR", env.storageError⟩

namespace Node

variable (cfg : Config) (s : Node) (env : Env)

def push (entry : HeapEntry) : Node := { s with items := s.items ++ [entry] }

def retryLater (fire : FireAttempt) (now : ℤ) : Node :=
  let next := now + deliveryRetryDelay fire.attempt
  if next > fire.deadline then s
  else s.push ⟨fire.row.uuid, next, some { fire with attempt := fire.attempt + 1 }⟩

def popDue (now : ℤ) : Option (HeapEntry × Node) :=
  match s.items[env.pick]? with
  | some entry =>
    if entry.fireAtUtc ≤ now ∧ ∀ other ∈ s.items, entry.fireAtUtc ≤ other.fireAtUtc then
      some (entry, { s with items := s.items.eraseIdx env.pick })
    else none
  | none => none

def enter (handling : Handling) (firing : Firing) : Node :=
  { s with phase := .serving handling firing }

def begin (source : String) : Request → Handling
  | .schedule fireAtUtcMs fireInMs options =>
    match draftTimer cfg source (scheduleTiming fireAtUtcMs fireInMs env.now) options env.later with
    | .error fault => .reply (.error "TIMER_SCHEDULE" fault)
    | .ok draft =>
      if draft.clientRef.isSome then .findExisting "TIMER_SCHEDULE" draft
      else .countOwned "TIMER_SCHEDULE" draft
  | .scheduleRecurring cronSpec cronTz options =>
    match draftTimer cfg source (recurringTiming cfg.calendar cronSpec cronTz env.now) options
      env.later with
    | .error fault => .reply (.error "TIMER_SCHEDULE_RECURRING" fault)
    | .ok draft =>
      if draft.clientRef.isSome then .findExisting "TIMER_SCHEDULE_RECURRING" draft
      else .countOwned "TIMER_SCHEDULE_RECURRING" draft
  | .cancel timerUuid clientRef =>
    match timerReferenceFromRequest timerUuid clientRef with
    | .error message => .reply (.error "TIMER_CANCEL" ⟨"TIMER_INVALID_PAYLOAD", message⟩)
    | .ok ref => .resolveCancel source ref
  | .reschedule timerUuid clientRef newFireAtUtcMs newFireInMs =>
    match timerReferenceFromRequest timerUuid clientRef with
    | .error message => .reply (.error "TIMER_RESCHEDULE" ⟨"TIMER_INVALID_PAYLOAD", message⟩)
    | .ok ref => .resolveReschedule source ref newFireAtUtcMs newFireInMs
  | .purgeOwner owner =>
    if source ≠ cfg.localOrchestratorL2Name then
      .reply (.error "TIMER_PURGE_OWNER"
        ⟨"TIMER_FORBIDDEN", "operation is reserved to local SY.orchestrator"⟩)
    else if !isCanonicalL2Name (trim owner) then
      .reply (.error "TIMER_PURGE_OWNER"
        ⟨"TIMER_INVALID_PAYLOAD", "owner_l2_name must be a canonical L2 name"⟩)
    else .deleteOwned (trim owner)

def referred (source : String) (ref : Reference) : Option TimerRow :=
  if ref.timerUuid ≠ "" then s.timers.getTimer ref.timerUuid
  else s.timers.findPendingTimerByClientRef source ref.clientRef

/-- The row a mutation is about, as `resolveOwnedTimerForMutation` reads it: none where there is no
such timer. -/
def resolve (source : String) (ref : Reference) : Except Fault (Option TimerRow) :=
  if env.fails then .error env.storageFault
  else
    match s.referred source ref with
    | none => .ok none
    | some row =>
      if row.ownerL2Name ≠ source then
        .error ⟨"TIMER_NOT_OWNER", "timer does not belong to requester"⟩
      else .ok (some row)

def cancelFound (ref : Reference) : Except Fault (Option TimerRow) → Handling
  | .error fault => .reply (.error "TIMER_CANCEL" fault)
  | .ok none =>
    if ref.timerUuid = "" then .reply .cancelNotFound
    else .reply (.error "TIMER_CANCEL" ⟨"TIMER_NOT_FOUND", "timer not found"⟩)
  | .ok (some row) =>
    if row.status = .fired then
      .reply (.error "TIMER_CANCEL" ⟨"TIMER_ALREADY_FIRED", "timer already fired"⟩)
    else .writeCancel row

def rescheduleFound (newFireAtUtcMs newFireInMs : Option ℤ) :
    Except Fault (Option TimerRow) → Handling
  | .error fault => .reply (.error "TIMER_RESCHEDULE" fault)
  | .ok none => .reply (.error "TIMER_RESCHEDULE" ⟨"TIMER_NOT_FOUND", "timer not found"⟩)
  | .ok (some row) =>
    if row.kind = .recurring then
      .reply (.error "TIMER_RESCHEDULE" ⟨"TIMER_RECURRING_NOT_RESCHEDULABLE",
        "recurring timers cannot be rescheduled in v1"⟩)
    else if row.status ≠ .pending then
      .reply (.error "TIMER_RESCHEDULE" ⟨"TIMER_ALREADY_FIRED", "timer is not pending"⟩)
    else
      match oneShotFireAt newFireAtUtcMs newFireInMs "new_fire_at_utc_ms" "new_fire_in_ms"
        env.now with
      | .error err => .reply (.error "TIMER_RESCHEDULE" err.fault)
      | .ok fireAt => .writeReschedule row fireAt

def alreadyExists (verb : String) (row : TimerRow) : Handling :=
  .reply (.scheduled verb row.uuid row.fireAtUtc true)

def handleStep (firing : Firing) : Handling → Node
  | .idle => s
  | .findExisting verb draft =>
    if env.fails then s.enter (.reply (.error verb env.storageFault)) firing
    else
      match s.timers.findPendingTimerByClientRef draft.ownerL2Name (draft.clientRef.getD "") with
      | some row => s.enter (alreadyExists verb row) firing
      | none => s.enter (.countOwned verb draft) firing
  | .countOwned verb draft =>
    let owned := s.timers.countPendingTimersByOwner draft.ownerL2Name
    if env.fails then s.enter (.reply (.error verb env.storageFault)) firing
    else if owned ≥ cfg.maxPendingTimersPerOwner then
      s.enter (.reply (.error verb ⟨"TIMER_LIMIT_EXCEEDED",
        s!"{draft.ownerL2Name} has {owned} pending timers, the most one owner may have"⟩)) firing
    else s.enter (.countAll verb draft) firing
  | .countAll verb draft =>
    let total := s.timers.countPendingTimers
    if env.fails then s.enter (.reply (.error verb env.storageFault)) firing
    else if total ≥ cfg.maxPendingTimers then
      s.enter (.reply (.error verb ⟨"TIMER_LIMIT_EXCEEDED",
        s!"the hive has {total} pending timers, the most SY.timer keeps"⟩)) firing
    else
      -- the uuid is drawn here, and never drawn again
      { s with issued := env.uuid :: s.issued }.enter
        (.insert verb { draft with uuid := env.uuid }) firing
  | .insert verb row =>
    if env.fails then s.enter (.reply (.error verb env.storageFault)) firing
    else
      match s.timers.insertTimer cfg.validJson row with
      | .ok timers =>
        { s with timers := timers, given := s.given.insert row.uuid row.fireAtUtc }.enter
          (.enqueue row.uuid row.fireAtUtc (.scheduled verb row.uuid row.fireAtUtc false)) firing
      | .error .refTaken => s.enter (.findWinner verb row) firing
      | .error .other => s.enter (.reply (.error verb env.storageFault)) firing
  | .findWinner verb row =>
    match s.timers.findPendingTimerByClientRef row.ownerL2Name (row.clientRef.getD "") with
    | some existing =>
      if env.fails then s.enter (.reply (.error verb env.storageFault)) firing
      else s.enter (alreadyExists verb existing) firing
    | none => s.enter (.reply (.error verb env.storageFault)) firing
  | .enqueue timerUuid fireAtUtc answer =>
    (s.push ⟨timerUuid, fireAtUtc, none⟩).enter (.reply answer) firing
  | .resolveCancel source ref => s.enter (cancelFound ref (s.resolve env source ref)) firing
  | .writeCancel row =>
    if env.fails then s.enter (.reply (.error "TIMER_CANCEL" env.storageFault)) firing
    else
      match s.timers.updateTimer cfg.validJson { row with status := .canceled } with
      | some timers => { s with timers := timers }.enter (.reply (.canceled row.uuid)) firing
      | none => s.enter (.reply (.error "TIMER_CANCEL" env.storageFault)) firing
  | .resolveReschedule source ref newFireAtUtcMs newFireInMs =>
    s.enter (rescheduleFound env newFireAtUtcMs newFireInMs (s.resolve env source ref)) firing
  | .writeReschedule row fireAtUtc =>
    if env.fails then s.enter (.reply (.error "TIMER_RESCHEDULE" env.storageFault)) firing
    else
      match s.timers.updateTimer cfg.validJson { row with fireAtUtc := fireAtUtc } with
      | some timers =>
        { s with timers := timers, given := s.given.insert row.uuid fireAtUtc }.enter
          (.enqueue row.uuid fireAtUtc (.rescheduled row.uuid fireAtUtc)) firing
      | none => s.enter (.reply (.error "TIMER_RESCHEDULE" env.storageFault)) firing
  | .deleteOwned owner =>
    if env.fails then s.enter (.reply (.error "TIMER_PURGE_OWNER" env.storageFault)) firing
    else
      let timers := s.timers.deleteTimersByOwner owner
      { s with timers := timers }.enter
        (.reply (.purged (s.timers.entries.length - timers.entries.length))) firing
  | .reply answer =>
    match answer, env.fails with
    | .canceled timerUuid, false =>
      { s with log := s.log ++ [Note.cancelAnswered timerUuid] }.enter .idle firing
    | _, _ => s.enter .idle firing

/-- The router's UNREACHABLE for a fire: it is sent again if its target was only not there. -/
def undelivered (traceId reason : String) (now : ℤ) : Node :=
  match s.sent.lookup traceId with
  | none => s
  | some fire =>
    let s := { s with sent := s.sent.erase traceId }
    if transientUnreachable reason then s.retryLater fire now else s

/-- The fire of a due row, and the row to save before it is sent: none where the next fire of a
recurring timer cannot be computed. -/
def fireOf (row : TimerRow) (actual : ℤ) : Option (FireAttempt × TimerRow) :=
  let fire : FireAttempt := { row := row, attempt := 1, deadline := deliveryDeadline row actual }
  let row := { row with fireCount := row.fireCount + 1, lastFiredAtUtc := some actual }
  match row.kind with
  | .oneshot => some (fire, { row with status := .fired })
  | .recurring =>
    match nextRecurringFireAt cfg.calendar row actual with
    | .error _ => none
    | .ok next =>
      some ({ fire with deadline := min next fire.deadline }, { row with fireAtUtc := next })

/-- Keeps a fire for the router's UNREACHABLE to name it, under the trace it is sent with. -/
def keepSent (fire : FireAttempt) : Node :=
  let recent := s.sent.retain fun _ sent => env.now - sent.sentAt ≤ deliveryAnswerWindow
  { s with sent := recent.insert env.uuid { fire with sentAt := env.now } }

def fireStep (handling : Handling) : Firing → Node
  | .idle => s
  | .draining now =>
    match s.popDue env now with
    | some (entry, s') =>
      match entry.retry with
      | some fire => s'.enter handling (.readRetry now fire)
      | none => s'.enter handling (.readFire now entry.timerUuid)
    | none =>
      if s.items.all fun entry => now < entry.fireAtUtc then s.enter handling .idle else s
  | .readFire now timerUuid =>
    if env.fails then s.enter handling (.draining now)
    else
      match s.timers.getTimer timerUuid with
      | none => s.enter handling (.draining now)
      | some row =>
        if row.status ≠ .pending then s.enter handling (.draining now)
        else if row.fireAtUtc > now then
          (s.push ⟨row.uuid, row.fireAtUtc, none⟩).enter handling (.draining now)
        else
          match fireOf cfg row env.now with
          | none => s.enter handling (.draining now)
          | some (fire, saved) => s.enter handling (.writeFire now fire saved)
  | .writeFire now fire row =>
    match if env.fails then none else s.timers.updateTimer cfg.validJson row with
    | none =>
      -- nothing was sent: the fire is tried again
      (s.push ⟨row.uuid, env.now + storageRetryDelay, none⟩).enter handling (.draining now)
    | some timers =>
      { s with timers := timers }.enter handling
        (if row.kind = Kind.recurring then .requeue now fire row else .sendFire now fire)
  | .requeue now fire row =>
    (s.push ⟨row.uuid, row.fireAtUtc, none⟩).enter handling (.sendFire now fire)
  | .sendFire now fire =>
    let start : Start := ⟨fire.row.uuid, fire.row.kind, now,
      s.given.lookup fire.row.uuid⟩
    { s.keepSent env fire with log := s.log ++ [Note.started start] }.enter handling
      (.emit now env.uuid { fire with sentAt := env.now })
  | .readRetry now fire =>
    if env.fails then (s.retryLater fire env.now).enter handling (.draining now)
    else
      match s.timers.getTimer fire.row.uuid with
      | none => s.enter handling (.draining now)
      | some row =>
        if row.status = .canceled then s.enter handling (.draining now)
        else s.enter handling (.sendRetry now fire)
  | .sendRetry now fire =>
    (s.keepSent env fire).enter handling (.emit now env.uuid { fire with sentAt := env.now })
  | .emit now traceId fire =>
    if env.fails then
      let s := { s with sent := s.sent.erase traceId }
      (if env.tooLarge then s else s.retryLater fire env.now).enter handling (.draining now)
    else s.enter handling (.draining now)

/-- What `handleMissedTimer` does with an overdue one-shot: it fires, or is canceled. -/
def missedFires (row : TimerRow) (now : ℤ) : Bool :=
  match row.missedPolicy with
  | .fire => true
  | .drop => false
  | .fireIfWithin => row.missedWithinMs.any fun within => wrap64 (now - row.fireAtUtc) ≤ within

def saveReplayed (row : TimerRow) (next : Node → Node) : Node :=
  match if env.fails then none else s.timers.updateTimer cfg.validJson row with
  | none => { s with phase := .down }
  | some timers => next { s with timers := timers }

def replayRow (now : ℤ) (row : TimerRow) (rest : List TimerRow) : Node :=
  let next (s : Node) : Node := { s with phase := .replaying now rest }
  match row.kind with
  | .recurring =>
    match nextRecurringFireAt cfg.calendar row now with
    | .error _ => next s
    | .ok fireAt =>
      s.saveReplayed cfg env { row with fireAtUtc := fireAt } fun s =>
        next (s.push ⟨row.uuid, fireAt, none⟩)
  | .oneshot =>
    if row.fireAtUtc > now ∨ missedFires row now then next (s.push ⟨row.uuid, row.fireAtUtc, none⟩)
    else s.saveReplayed cfg env { row with status := .canceled } next

def historyRetention : ℤ := 7 * 24 * 3600 * 1000

/-- The next step of `main`, up to the scheduler's and the handler's start. -/
def startupStep : Phase → Node
  | .collecting =>
    if env.fails then { s with phase := .listing }
    else
      { s with
        timers := s.timers.gcHistoricalTimers (env.now - historyRetention)
        phase := .listing }
  | .listing =>
    if env.fails then { s with phase := .down }
    else { s with phase := .replaying env.now s.timers.listPendingTimers }
  | .replaying now (row :: rest) => s.replayRow cfg env now row rest
  | .replaying _ [] => s.enter .idle .idle
  | .down | .serving _ _ => s

def step (s : Node) : Event → Node
  | .crash => { s with phase := .down, items := [], sent := ∅ }
  | .boot => if s.phase = .down then { s with phase := .collecting, items := [], sent := ∅ } else s
  | .startup env => s.startupStep cfg env s.phase
  | .request source request env =>
    match s.phase with
    | .serving .idle firing => s.enter (begin cfg env source request) firing
    | _ => s
  | .unreachable traceId reason now =>
    match s.phase with
    | .serving .idle _ => s.undelivered traceId reason now
    | _ => s
  | .handle env =>
    match s.phase with
    | .serving handling firing => s.handleStep cfg env firing handling
    | _ => s
  | .wake now =>
    match s.phase with
    | .serving handling .idle => s.enter handling (.draining now)
    | _ => s
  | .fire env =>
    match s.phase with
    | .serving handling firing => s.fireStep cfg env handling firing
    | _ => s

/-- A process that has not started yet, over a table it left earlier or a new one. -/
def stopped (timers : Table) : Node where
  timers := timers
  issued := timers.entries.map Sigma.fst
  given := timers.mapTo TimerRow.fireAtUtc

end Node

open Node

/-! ### The window of a one-shot -/

def int64Bound : ℤ := 9223372036854775808

def IsInt64 (n : ℤ) : Prop := -int64Bound ≤ n ∧ n < int64Bound

/-- A sum or a difference of two 64-bit numbers that is not too small is off by `2 ^ 64` where it
does not fit. -/
theorem wrap64_of_lt {n : ℤ} (hlo : -int64Bound ≤ n) (hhi : n < 2 * int64Bound) :
    wrap64 n = if n < int64Bound then n else n - 2 * int64Bound := by
  unfold int64Bound at *
  simp only [wrap64, Int.bmod]
  split_ifs <;> omega

theorem isInt64_wrap64 (n : ℤ) : IsInt64 (wrap64 n) := by
  have hle := @Int.le_bmod n (2 ^ 64) (by decide)
  have hlt := @Int.bmod_lt n (2 ^ 64) (by decide)
  unfold IsInt64 int64Bound wrap64
  omega

theorem isInt64_oneShotFireAt {atUtcMs inMs : Option ℤ} {atField inField : String} {now fireAt : ℤ}
    (hat : ∀ n ∈ atUtcMs, IsInt64 n)
    (h : oneShotFireAt atUtcMs inMs atField inField now = .ok fireAt) : IsInt64 fireAt := by
  unfold oneShotFireAt at h
  dsimp only at h
  split at h
  · split_ifs at h
    rw [← Except.ok.inj h]
    exact hat _ rfl
  · split_ifs at h
    rw [← Except.ok.inj h]
    exact isInt64_wrap64 _
  · cases h

/-- A one-shot that the service took with a window is sent again within it exactly if its end fits
in 64 bits, and one that is overdue at the start fires exactly within it if the time it is overdue
by fits in them. -/
theorem missed_window_exact_iff {row : TimerRow} {atUtcMs inMs : Option ℤ}
    {atField inField policy : String} {now : ℤ} (hat : ∀ n ∈ atUtcMs, IsInt64 n)
    (hfire : oneShotFireAt atUtcMs inMs atField inField now = .ok row.fireAtUtc)
    (hint : ∀ n ∈ row.missedWithinMs, IsInt64 n)
    (hwindow : validateMissedPolicyRaw policy row.missedWithinMs = .ok row.missedPolicy)
    (hpolicy : row.missedPolicy = .fireIfWithin) (hkind : row.kind = .oneshot) :
    ∃ within, row.missedWithinMs = some within ∧
      (∀ first, 0 ≤ first → (deliveryDeadline row first =
        min (first + 3600 * 1000) (row.fireAtUtc + within) ↔
          row.fireAtUtc + within < int64Bound)) ∧
      ∀ start, IsInt64 start → row.fireAtUtc ≤ start →
        ((missedFires row start = true ↔ start - row.fireAtUtc ≤ within) ↔
          start - row.fireAtUtc < int64Bound) := by
  have hfireInt := isInt64_oneShotFireAt hat hfire
  obtain ⟨within, hwithin, hpos⟩ : ∃ within, row.missedWithinMs = some within ∧ 0 < within := by
    rw [hpolicy] at hwindow
    unfold validateMissedPolicyRaw at hwindow
    split_ifs at hwindow with hfire hdrop hif hany
    · cases hwindow
    · cases hwindow
    · simpa [Option.any_eq_true] using hany
  have hwithinInt := hint within hwithin
  refine ⟨within, hwithin, fun first hfirst => ?_, fun start hstart hover => ?_⟩
  · unfold IsInt64 at *
    have hwrap := @wrap64_of_lt (row.fireAtUtc + within) (by omega) (by omega)
    simp only [deliveryDeadline, deliveryRetryWindow, hkind, hpolicy, hwithin, hwrap]
    unfold int64Bound at *
    split_ifs <;> omega
  · unfold IsInt64 at *
    have hwrap := @wrap64_of_lt (start - row.fireAtUtc) (by unfold int64Bound; omega) (by omega)
    simp only [missedFires, hpolicy, hwithin, hwrap, Option.any_some, decide_eq_true_eq]
    unfold int64Bound at *
    split_ifs <;> omega

/-- A timer for the 61st second after 1970 began, with a window. -/
def windowed (within : ℤ) : TimerRow where
  uuid := "a"
  ownerL2Name := "AI.a@h"
  targetL2Name := "AI.a@h"
  kind := .oneshot
  fireAtUtc := 61000
  missedPolicy := .fireIfWithin
  missedWithinMs := some within
  createdAtUtc := 0

theorem missed_window_exact_second : deliveryDeadline (windowed 1000) 61000 = 62000 ∧
    missedFires (windowed 1000) 62000 = true := by
  have hint : ∀ n ∈ (windowed 1000).missedWithinMs, IsInt64 n := by
    intro n hn
    cases hn
    exact ⟨by decide, by decide⟩
  obtain ⟨within, hwithin, hdeadline, hfires⟩ := @missed_window_exact_iff (windowed 1000) none
    (some 61000) "" "" "fire_if_within" 0 (by simp) (by decide) hint (by decide) rfl rfl
  cases hwithin
  exact ⟨((hdeadline 61000 (by decide)).mpr (by decide)).trans (by decide),
    ((hfires 62000 ⟨by decide, by decide⟩ (by decide)).mpr (by decide)).mpr (by decide)⟩

/-- The longest window that is accepted ends, for the service, before 1970. -/
theorem longest_window_wraps :
    validateMissedPolicyRaw "fire_if_within" (some (int64Bound - 1)) = .ok .fireIfWithin ∧
      oneShotFireAt none (some 61000) "fire_at_utc_ms" "fire_in_ms" 0 =
        .ok (windowed (int64Bound - 1)).fireAtUtc ∧
      deliveryDeadline (windowed (int64Bound - 1)) 61000 < 0 := by
  decide

end Fluxbee.Timer
