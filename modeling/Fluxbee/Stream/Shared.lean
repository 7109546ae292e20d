import Fluxbee.Stream.Record

/-! The log the disk thread and the senders share: taking a record in, trimming, planning
a batch for a sink and settling it with the sink's reply. Clocks are arguments. -/
namespace Fluxbee.Stream
open Text

structure SinkState where
  cursor : ℕ
  /-- The last sequence number of the batch waiting for its ack, 0 when none. -/
  inFlightUpTo : ℕ
  (delivered expired oversize failures lastAckMs : ℕ)
  deriving DecidableEq

def SinkState.default : SinkState := ⟨0, 0, 0, 0, 0, 0, 0⟩

structure Shared where
  records : List Record
  (turnBytes nodeBytes usageLost nextSeq fsyncedSeq : ℕ)
  sinks : String → Option SinkState
  (role hiveId : String)

namespace Shared

section
variable (s : Shared)

def sinksOf (subject : String) : List String := sinksFor subject s.role s.hiveId

/-- Every sink took the record, or it is past the window and in no batch waiting for its ack. -/
def recordDone (r : Record) (now : ℕ) : Bool :=
  (s.sinksOf r.subject).all fun sink =>
    match s.sinks sink with
    | some state =>
      if state.cursor ≥ r.seq then true else r.aged now && decide (state.inFlightUpTo < r.seq)
    | none => r.aged now

def setSink (sink : String) (state : SinkState) : Shared :=
  { s with sinks := Function.update s.sinks sink (some state) }

/-- A record that leaves before the sink took it is expired for that sink. -/
def expireFor (r : Record) (s : Shared) (sink : String) : Shared :=
  match s.sinks sink with
  | some state =>
    if state.cursor < r.seq then
      { s.setSink sink { state with expired := state.expired + 1 } with
        usageLost := s.usageLost + r.isUsage.toNat }
    else s
  | none => s

def releaseBytes (r : Record) : Shared :=
  match r.source with
  | .turns => { s with turnBytes := s.turnBytes - r.size }
  | .nodes => { s with nodeBytes := s.nodeBytes - r.size }

def popRecord (r : Record) : Shared :=
  ((s.sinksOf r.subject).foldl (expireFor r) s).releaseBytes r

def trimLoop (now : ℕ) (s : Shared) : List Record → Shared
  | [] => { s with records := [] }
  | r :: rest =>
    if s.recordDone r now then trimLoop now (s.popRecord r) rest
    else { s with records := r :: rest }

/-- Drops the leading records that are done; returns the first sequence number kept. -/
def trim (now : ℕ) : Shared × ℕ :=
  let s' := trimLoop now s s.records
  (s', (s'.records.head?.map Record.seq).getD s'.nextSeq)

def fits (source : Source) (subject : String) (size : ℕ) : Bool :=
  let nodeCap := streamMaxBytes * streamNodeAppendsSharePercent / 100
  let total := s.turnBytes + s.nodeBytes + size
  match source with
  | .turns => total ≤ streamMaxBytes && s.turnBytes + size ≤ streamMaxBytes - nodeCap
  | .nodes =>
    if subject == subjectStorageUsage then total ≤ streamMaxBytes && s.nodeBytes + size ≤ nodeCap
    else total ≤ streamMaxBytes && s.nodeBytes + size ≤ nodeCap - streamUsageReserveBytes

end

end Shared

structure PlanState where
  (passed scanned : ℕ)
  out : List Record
  (bytes expired oversize usageLost : ℕ)

/-- One record of the planning loop: the next loop state, or nothing where the loop ends. -/
def planRecord (takes : Record → Bool) (cursor now : ℕ) (st : PlanState) (r : Record) :
    Option PlanState :=
  if r.seq ≤ cursor then some st
  else if !takes r then
    some { st with
      scanned := r.seq
      passed := if st.out.isEmpty then r.seq else st.passed }
  else if r.aged now || r.tooBig then
    if !st.out.isEmpty then none
    else some { st with
      expired := st.expired + (r.aged now).toNat
      oversize := st.oversize + (!r.aged now).toNat
      usageLost := st.usageLost + r.isUsage.toNat
      passed := r.seq
      scanned := r.seq }
  else if !st.out.isEmpty && (st.out.length ≥ streamBatchMaxRecords ||
      st.bytes + r.batchSize > streamBatchMaxBytes) then
    none
  else some { st with
    bytes := st.bytes + r.batchSize
    scanned := r.seq
    out := st.out ++ [r] }

def planLoop (takes : Record → Bool) (cursor now : ℕ) : PlanState → List Record → PlanState
  | st, [] => st
  | st, r :: rest =>
    match planRecord takes cursor now st r with
    | some st' => planLoop takes cursor now st' rest
    | none => st

inductive BatchPlan where
  | idle
  | skipped
  | send (records : List Record) (lastSeq scannedUpTo : ℕ)
  deriving DecidableEq

def Shared.takes (s : Shared) (sink : String) (r : Record) : Bool :=
  (s.sinksOf r.subject).any (· == sink)

def Shared.planBatch (s : Shared) (sink : String) (now : ℕ) : Shared × BatchPlan :=
  let cursor := ((s.sinks sink).map SinkState.cursor).getD 0
  let st := planLoop (s.takes sink) cursor now ⟨cursor, cursor, [], batchEnvelopeBytes, 0, 0, 0⟩
    s.records
  let state := (s.sinks sink).getD SinkState.default
  let state := { state with
    expired := state.expired + st.expired
    oversize := state.oversize + st.oversize
    cursor := if st.passed > state.cursor then st.passed else state.cursor }
  let s := { s with usageLost := s.usageLost + st.usageLost }
  match st.out.getLast? with
  | none => (s.setSink sink state, if st.passed > cursor then .skipped else .idle)
  | some last =>
    (s.setSink sink { state with inFlightUpTo := last.seq }, .send st.out last.seq st.scanned)

/-- What a sender reads of a reply: its message, who sent it, and the payload's `up_to_seq`
where it is a stream ack. -/
structure Reply where
  (msg srcL2Name : Option String)
  upToSeq : Option ℕ

def msgStreamAck : String := "STREAM_ACK"

def acceptAck (reply : Reply) (sink : String) (cursor lastSeq scannedUpTo : ℕ) : Option ℕ := do
  if reply.msg ≠ some msgStreamAck then none
  let src ← reply.srcL2Name
  if !eqIgnoreAsciiCase src sink then none
  let upToSeq ← reply.upToSeq
  if upToSeq ≤ cursor || upToSeq > lastSeq then none
  if upToSeq = lastSeq then some scannedUpTo else some upToSeq

/-- What a sender does with the outcome of a batch it sent; no reply is a failed call. -/
def Shared.settleBatch (s : Shared) (sink : String) (records : List Record)
    (lastSeq scannedUpTo : ℕ) (reply : Option Reply) (now : ℕ) : Shared :=
  let state := { (s.sinks sink).getD SinkState.default with inFlightUpTo := 0 }
  match reply.bind fun reply => acceptAck reply sink state.cursor lastSeq scannedUpTo with
  | some cursor =>
    s.setSink sink { state with
      delivered := state.delivered + records.countP fun r => r.seq ≤ cursor
      cursor := cursor
      lastAckMs := now }
  | none => s.setSink sink { state with failures := state.failures + 1 }

structure Incoming where
  source : Source
  tsMs : ℕ
  (subject producer : String)
  payload : List UInt8

structure Counters where
  (appendedTurns appendedNodes droppedCapTurns droppedCapNodes usageLost : ℕ)

def Incoming.toRecord (i : Incoming) (seq : ℕ) : Record :=
  ⟨seq, i.tsMs, i.source, i.subject, i.producer, i.payload⟩

def Shared.pushRecord (s : Shared) (r : Record) : Shared :=
  let s := match r.source with
    | .turns => { s with turnBytes := s.turnBytes + r.size }
    | .nodes => { s with nodeBytes := s.nodeBytes + r.size }
  { s with nextSeq := s.nextSeq + 1, records := s.records ++ [r] }

/-- The part of `take_incoming` under the lock: room is made first where the record does not
fit, and a record that still does not is dropped. -/
def Shared.takeIncoming (s : Shared) (c : Counters) (i : Incoming) (now : ℕ) :
    Shared × Counters × Option Record :=
  let r := i.toRecord s.nextSeq
  let s := if s.fits r.source r.subject r.size then s else (s.trim now).1
  if s.fits r.source r.subject r.size then
    let c := match r.source with
      | .turns => { c with appendedTurns := c.appendedTurns + 1 }
      | .nodes => { c with appendedNodes := c.appendedNodes + 1 }
    (s.pushRecord r, c, some r)
  else
    let c := match r.source with
      | .turns => { c with droppedCapTurns := c.droppedCapTurns + 1 }
      | .nodes => { c with droppedCapNodes := c.droppedCapNodes + 1 }
    (s, { c with usageLost := c.usageLost + r.isUsage.toNat }, none)

/-- What `state.json` reads as; a value that is missing or of another type is absent. -/
structure SavedState where
  (epoch nextSeq : Option ℕ)
  cursors : String → Option ℕ

def SavedState.absent : SavedState := ⟨none, none, fun _ => none⟩

structure Recovered where
  records : List Record
  nextSeq : ℕ
  cursors : String → Option ℕ
  epoch : ℕ

def lastOnDisk (records : List Record) : ℕ := (records.getLast?.map Record.seq).getD 0

/-- What `recover` makes of the decoded records and the saved state. -/
def Recovered.ofLog (records : List Record) (state : SavedState) (newEpoch : ℕ)
    (sinks : List String) : Recovered where
  records := records
  nextSeq := max (max (state.nextSeq.getD 1) (lastOnDisk records + 1)) 1
  cursors := fun sink =>
    -- never past what is on disk
    if sink ∈ sinks then (state.cursors sink).map (min · (lastOnDisk records)) else none
  epoch := (state.epoch.filter (0 < ·)).getD newEpoch

def bytesOf (source : Source) (records : List Record) : ℕ :=
  ((records.filter (·.source = source)).map Record.size).sum

def Shared.ofRecovered (role hiveId : String) (recovered : Recovered) : Shared where
  records := recovered.records
  turnBytes := bytesOf .turns recovered.records
  nodeBytes := bytesOf .nodes recovered.records
  usageLost := 0
  nextSeq := recovered.nextSeq
  fsyncedSeq := recovered.nextSeq - 1
  sinks := fun sink =>
    if sink ∈ allSinks role hiveId then
      some { SinkState.default with cursor := (recovered.cursors sink).getD 0 }
    else none
  role := role
  hiveId := hiveId

end Fluxbee.Stream
