import Fluxbee.Timer.Rows

/-! What SY.timer checks of a request before it touches the table, and the times timers fire at. -/
namespace Fluxbee.Timer
open Text

def minTimerDuration : ℤ := 60 * 1000

def maxTimerDelay : ℤ := 366 * 24 * 3600 * 1000

def maxTimerDataBytes : ℕ := 32 * 1024

def wrap64 (n : ℤ) : ℤ := n.bmod (2 ^ 64)

structure Fault where
  (code message : String)
deriving DecidableEq

/-- Why a fire time is refused, with the code `timerErrorCode` finds in the message. -/
inductive TimeError
  | fields (atField inField : String)
  | belowMinimum
  | aboveMaximum
  | emptyCron
  | timezone (detail : String)
  | cron (detail : String)
deriving DecidableEq

def TimeError.fault : TimeError → Fault
  | .fields atField inField =>
    ⟨"TIMER_INVALID_PAYLOAD", s!"exactly one of {atField} or {inField} must be set"⟩
  | .belowMinimum => ⟨"TIMER_BELOW_MINIMUM", "minimum timer duration is 60 seconds"⟩
  | .aboveMaximum => ⟨"TIMER_ABOVE_MAXIMUM", "maximum timer delay is 366 days"⟩
  | .emptyCron => ⟨"TIMER_INVALID_PAYLOAD", "cron_spec must be non-empty"⟩
  | .timezone detail => ⟨"TIMER_INVALID_TIMEZONE", s!"invalid timezone: {detail}"⟩
  | .cron detail => ⟨"TIMER_INVALID_CRON", s!"invalid cron: {detail}"⟩

/-- The cron library and the time zones it reads. `next` is none where a schedule has no time left. -/
structure Calendar where
  Schedule : Type
  loadLocation : String → Except String Unit
  parse : String → Except String Schedule
  next : Schedule → String → ℤ → Option ℤ

def loadLocation (cal : Calendar) (raw : String) : Except String Unit :=
  if isBlank raw then .error "timezone must be non-empty" else cal.loadLocation raw

/-- The first time after `now` that a cron expression names, if the one after it is far enough. -/
def firstCronTime (cal : Calendar) (spec tz : String) (now : ℤ) : Except TimeError ℤ :=
  match loadLocation cal tz with
  | .error detail => .error (.timezone detail)
  | .ok () =>
    match cal.parse spec with
    | .error detail => .error (.cron detail)
    | .ok schedule =>
      match cal.next schedule tz now with
      | none => .error (.cron "no future fire time")
      | some first =>
        if (cal.next schedule tz (first + 1000)).any fun second =>
            second - first < minTimerDuration
        then .error .belowMinimum
        else .ok first

def nextRecurringFireAt (cal : Calendar) (row : TimerRow) (now : ℤ) : Except TimeError ℤ :=
  match row.cronSpec.filter (· ≠ "") with
  | none => .error (.cron "missing cron_spec")
  | some spec => firstCronTime cal spec ((row.cronTz.filter (· ≠ "")).getD "UTC") now

/-- The instant a one-shot fires, from exactly one of an absolute instant or a delay. -/
def oneShotFireAt (atUtcMs inMs : Option ℤ) (atField inField : String) (now : ℤ) :
    Except TimeError ℤ :=
  let bounded (fireAt : ℤ) : Except TimeError ℤ :=
    let ahead := wrap64 (fireAt - now)
    if ahead < minTimerDuration then .error .belowMinimum
    else if ahead > maxTimerDelay then .error .aboveMaximum
    else .ok fireAt
  match atUtcMs, inMs with
  | some fireAt, none => bounded fireAt
  | none, some delay =>
    if delay > maxTimerDelay then .error .aboveMaximum else bounded (wrap64 (now + delay))
  | _, _ => .error (.fields atField inField)

/-- What TIMER_SCHEDULE and TIMER_SCHEDULE_RECURRING say of a timer besides when it fires. -/
structure Options where
  targetL2Name : Option String := none
  clientRef : Option String := none
  payload : Option String := none
  missedPolicy : Option String := none
  missedWithinMs : Option ℤ := none
  metadata : Option String := none

structure Reference where
  (timerUuid clientRef : String)
deriving DecidableEq

inductive Request
  | schedule (fireAtUtcMs fireInMs : Option ℤ) (options : Options)
  | scheduleRecurring (cronSpec cronTz : String) (options : Options)
  | cancel (timerUuid clientRef : String)
  | reschedule (timerUuid clientRef : String) (newFireAtUtcMs newFireInMs : Option ℤ)
  | purgeOwner (ownerL2Name : String)

/-- The text, trimmed, where the request has one that is not blank. -/
def nonBlank (text : Option String) : Option String := (text.map trim).filter (· ≠ "")

def isCanonicalL2Name (value : String) : Bool :=
  match splitOnce '@' (trim value) with
  | none => false
  | some (name, hive) => !isBlank name && !isBlank hive && name.toList.contains '.'

/-- A node schedules for itself, a SY node for any. -/
def checkTimerTarget (owner target : String) : Bool := target = owner || startsWith owner "SY."

def validateMissedPolicyRaw (policy : String) (within : Option ℤ) : Except String MissedPolicy :=
  if policy = "fire" then .ok .fire
  else if policy = "drop" then .ok .drop
  else if policy = "fire_if_within" then
    if within.any (0 < ·) then .ok .fireIfWithin
    else .error "missed_within_ms must be set when missed_policy=fire_if_within"
  else .error s!"invalid missed_policy: {policy}"

def checkTimerData (payload : String) (metadata : Option String) : Except String Unit :=
  let limit (name text : String) : Except String Unit :=
    if text.utf8ByteSize > maxTimerDataBytes then
      .error s!"{name} is {text.utf8ByteSize} bytes, at most {maxTimerDataBytes}"
    else .ok ()
  do
    limit "payload" payload
    limit "metadata" (metadata.getD "")

def normalizeClientRef (clientRef : Option String) : Except String (Option String) :=
  match nonBlank clientRef with
  | none => .ok none
  | some ref =>
    if ref.utf8ByteSize > 255 then .error "client_ref must be at most 255 characters"
    else .ok (some ref)

def timerReferenceFromRequest (timerUuid clientRef : String) : Except String Reference :=
  let ref : Reference := ⟨trim timerUuid, trim clientRef⟩
  if ref.timerUuid ≠ "" then .ok ref
  else if ref.clientRef ≠ "" then
    if ref.clientRef.utf8ByteSize > 255 then .error "client_ref must be at most 255 characters"
    else .ok ref
  else .error "either timer_uuid or client_ref must be provided"

structure Config where
  nodeName : String
  validJson : String → Bool
  calendar : Calendar
  maxPendingTimersPerOwner : ℕ := 10000
  maxPendingTimers : ℕ := 100000

def Config.localOrchestratorL2Name (cfg : Config) : String :=
  "SY.orchestrator@" ++ ((splitOnce '@' cfg.nodeName).map Prod.snd).getD ""

structure Timing where
  kind : Kind
  fireAtUtc : ℤ
  cronSpec : Option String := none
  cronTz : Option String := none

def scheduleTiming (fireAtUtcMs fireInMs : Option ℤ) (now : ℤ) : Except TimeError Timing := do
  let fireAt ← oneShotFireAt fireAtUtcMs fireInMs "fire_at_utc_ms" "fire_in_ms" now
  return ⟨.oneshot, fireAt, none, none⟩

def recurringTiming (cal : Calendar) (cronSpec cronTz : String) (now : ℤ) :
    Except TimeError Timing := do
  let spec := trim cronSpec
  if spec = "" then throw .emptyCron
  let tz := (nonBlank (some cronTz)).getD "UTC"
  let fireAt ← firstCronTime cal spec tz now
  return ⟨.recurring, fireAt, some spec, some tz⟩

/-- The row a schedule request asks for, all but its uuid; `now` is its time of creation. -/
def draftTimer (cfg : Config) (owner : String) (timing : Except TimeError Timing)
    (options : Options) (now : ℤ) : Except Fault TimerRow := do
  let timing ← timing.mapError TimeError.fault
  let target := (nonBlank options.targetL2Name).getD owner
  if !isCanonicalL2Name target then
    throw ⟨"TIMER_INVALID_PAYLOAD", "target_l2_name must be a canonical L2 name"⟩
  if !checkTimerTarget owner target then
    throw ⟨"TIMER_FORBIDDEN", s!"a node schedules timers for itself only: target_l2_name " ++
      s!"{target.quote} is not {owner.quote}"⟩
  let policy ← (validateMissedPolicyRaw ((nonBlank options.missedPolicy).getD "fire")
    options.missedWithinMs).mapError (Fault.mk "TIMER_INVALID_PAYLOAD")
  let payload := (options.payload.filter (· ≠ "")).getD "\x7b\x7d"
  if timing.kind = .recurring && !cfg.validJson payload then
    throw ⟨"TIMER_INVALID_PAYLOAD", "payload must be valid JSON"⟩
  let metadata := options.metadata.filter (· ≠ "")
  if !metadata.all cfg.validJson then
    throw ⟨"TIMER_INVALID_PAYLOAD", "metadata must be valid JSON"⟩
  (checkTimerData payload metadata).mapError (Fault.mk "TIMER_LIMIT_EXCEEDED")
  let clientRef ← (normalizeClientRef options.clientRef).mapError
    (Fault.mk "TIMER_INVALID_PAYLOAD")
  return {
    uuid := ""
    ownerL2Name := owner
    targetL2Name := target
    clientRef := clientRef
    kind := timing.kind
    fireAtUtc := timing.fireAtUtc
    cronSpec := timing.cronSpec
    cronTz := timing.cronTz
    missedPolicy := policy
    missedWithinMs := options.missedWithinMs
    payload := payload
    metadata := metadata
    createdAtUtc := now }

end Fluxbee.Timer
