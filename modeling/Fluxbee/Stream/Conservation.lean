import Fluxbee.Stream.Effects

/-! Conservation of stream records: a record owed to a sink is pending, delivered, expired or
oversize for it, and counted once, in every interleaving of the disk thread and the senders. -/
namespace Fluxbee.Stream
open List Option Function Shared

def Shared.cursor (s : Shared) (sink : String) : ℕ :=
  ((s.sinks sink).map SinkState.cursor).getD 0

/-- Held, taken by the sink and above its cursor. -/
def Shared.pending (s : Shared) (sink : String) : List Record :=
  s.records.filter (owed (s.takes sink) (s.cursor sink))

structure Batch where
  records : List Record
  (lastSeq scannedUpTo : ℕ)

/-- What became of a sink's records since the log was opened. No modelled function reads it. -/
structure Ledger where
  (tracked delivered expired oversize : List Record)

structure System where
  shared : Shared
  counters : Counters
  inFlight : String → Option Batch
  ledger : String → Ledger

inductive Event where
  | append (incoming : Incoming) (now : ℕ)
  | trim (now : ℕ)
  | plan (sink : String) (now : ℕ)
  /-- The outcome of the batch the sender waits on: a reply, or none where the call failed. -/
  | settle (sink : String) (reply : Option Reply) (now : ℕ)

namespace System

section
variable (sys : System)

/-- The ledgers after the front records that are gone in `s'` left and `taken` came in. -/
def afterLog (s' : Shared) (taken : Option Record) (sink : String) : Ledger :=
  let s := sys.shared
  let left := s.records.take (s.records.length + taken.toList.length - s'.records.length)
  let l := sys.ledger sink
  { l with
    tracked := l.tracked ++ taken.toList.filter (s.takes sink)
    expired := l.expired ++ left.filter (owed (s.takes sink) (s.cursor sink)) }

/-- The sink's ledger after a plan moved its cursor: what it went past is expired where it is past
the window and oversize where it is too big for a frame. -/
def afterPlan (s' : Shared) (sink : String) (now : ℕ) : Ledger :=
  let s := sys.shared
  let passed := s.records.filter (lostBy (s.takes sink) (s.cursor sink) (s'.cursor sink))
  let l := sys.ledger sink
  { l with
    expired := l.expired ++ passed.filter (·.aged now)
    oversize := l.oversize ++ passed.filter fun r => !r.aged now && r.tooBig }

/-- The sink's ledger after the cursor moved over records of the batch. -/
def afterSettle (s' : Shared) (sink : String) (b : Batch) : Ledger :=
  let c := sys.shared.cursor sink
  let l := sys.ledger sink
  { l with
    delivered := l.delivered ++
      b.records.filter fun r => decide (c < r.seq) && decide (r.seq ≤ s'.cursor sink) }

/-- One turn under the lock. Each sink has one sender, which plans when no batch of its waits and
settles the one that does; other turns do not happen. -/
def step : Event → System
  | .append incoming now =>
    let (s', counters, taken) := sys.shared.takeIncoming sys.counters incoming now
    { sys with shared := s', counters, ledger := sys.afterLog s' taken }
  | .trim now =>
    let s' := (sys.shared.trim now).1
    { sys with shared := s', ledger := sys.afterLog s' none }
  | .plan sink now =>
    if sink ∈ allSinks sys.shared.role sys.shared.hiveId ∧ (sys.inFlight sink).isNone then
      let (s', plan) := sys.shared.planBatch sink now
      { sys with
        shared := s'
        inFlight := match plan with
          | .send records lastSeq scannedUpTo =>
            Function.update sys.inFlight sink (some ⟨records, lastSeq, scannedUpTo⟩)
          | _ => sys.inFlight
        ledger := Function.update sys.ledger sink (sys.afterPlan s' sink now) }
    else sys
  | .settle sink reply now =>
    match sys.inFlight sink with
    | some b =>
      let s' := sys.shared.settleBatch sink b.records b.lastSeq b.scannedUpTo reply now
      { sys with
        shared := s'
        inFlight := Function.update sys.inFlight sink none
        ledger := Function.update sys.ledger sink (sys.afterSettle s' sink b) }
    | none => sys

def run (events : List Event) : System := events.foldl step sys

end

/-- The stream just opened on a recovered log, its first trim included. -/
def start (role hiveId : String) (recovered : Recovered) (now : ℕ) : System :=
  let s := Shared.ofRecovered role hiveId recovered
  step ⟨s, ⟨0, 0, 0, 0, 0⟩, fun _ => none, fun sink => ⟨s.pending sink, [], [], []⟩⟩ (.trim now)

end System

/-- Every tracked record is in exactly one place for the sink, and the sink's counters count the
records that are no longer pending. -/
structure Conserved (sys : System) (sink : String) : Prop where
  partition : (sys.ledger sink).tracked.Perm
    (sys.shared.pending sink ++ (sys.ledger sink).delivered ++ (sys.ledger sink).expired ++
      (sys.ledger sink).oversize)
  once : (sys.ledger sink).tracked.Nodup
  counted : ∃ state, sys.shared.sinks sink = some state ∧
    state.delivered = (sys.ledger sink).delivered.length ∧
    state.expired = (sys.ledger sink).expired.length ∧
    state.oversize = (sys.ledger sink).oversize.length

def Ledger.usageLost (l : Ledger) : ℕ :=
  l.expired.countP Record.isUsage + l.oversize.countP Record.isUsage

/-- Conservation for every sink of the stream, and of the usage counter over all of them. -/
def System.Conserves (sys : System) : Prop :=
  (∀ sink ∈ allSinks sys.shared.role sys.shared.hiveId, Conserved sys sink) ∧
    sys.shared.usageLost =
      ∑ sink ∈ (allSinks sys.shared.role sys.shared.hiveId).toFinset, (sys.ledger sink).usageLost

section

/-- The partition of a ledger's tracked records, over the records pending now. -/
def Ledger.Balanced (l : Ledger) (pending : List Record) : Prop :=
  l.tracked.Perm (pending ++ l.delivered ++ l.expired ++ l.oversize)

variable {l l' : Ledger} {pending pending' moved : List Record}

theorem Ledger.Balanced.move (h : l.Balanced pending) (hp : pending.Perm (moved ++ pending'))
    (htracked : l'.tracked = l.tracked) (hmoved : (l'.delivered ++ l'.expired ++ l'.oversize).Perm
      (moved ++ (l.delivered ++ l.expired ++ l.oversize))) : l'.Balanced pending' := by
  unfold Ledger.Balanced at h ⊢
  rw [htracked]
  rw [perm_iff_count] at h hp hmoved ⊢
  intro r
  have h₁ := h r
  have h₂ := hp r
  have h₃ := hmoved r
  simp only [count_append] at h₁ h₂ h₃ ⊢
  omega

theorem Ledger.Balanced.track (h : l.Balanced pending) (new : List Record) :
    ({ l with tracked := l.tracked ++ new } : Ledger).Balanced (pending ++ new) := by
  unfold Ledger.Balanced at h ⊢
  rw [perm_iff_count] at h ⊢
  intro r
  have h₁ := h r
  simp only [count_append] at h₁ ⊢
  omega

theorem filter_owed_perm (takes : Record → Bool) {c p : ℕ} (hcp : c ≤ p) (records : List Record) :
    (records.filter (owed takes c)).Perm
      (records.filter (lostBy takes c p) ++ records.filter (owed takes p)) := by
  have hsplit := (filter_append_perm (fun r : Record => decide (r.seq ≤ p))
    (records.filter (owed takes c))).symm
  have hlost : (records.filter (owed takes c)).filter (fun r => decide (r.seq ≤ p)) =
      records.filter (lostBy takes c p) := by
    rw [List.filter_filter]
    refine filter_congr fun r _ => ?_
    unfold lostBy
    rw [Bool.and_comm]
  have howed : (records.filter (owed takes c)).filter (fun r => !decide (r.seq ≤ p)) =
      records.filter (owed takes p) := by
    rw [List.filter_filter]
    refine filter_congr fun r _ => ?_
    unfold owed
    by_cases hp : p < r.seq
    · have hc : c < r.seq := by omega
      have hnp : ¬ r.seq ≤ p := by omega
      simp [hp, hc, hnp]
    · have hle : r.seq ≤ p := by omega
      simp [hp, hle]
  rw [hlost, howed] at hsplit
  exact hsplit

end

/-- The batch in flight is what was pending up to its scanned mark. -/
structure InFlightOk (pending : List Record) (nextSeq : ℕ) (state : SinkState) (b : Batch) :
    Prop where
  upTo : state.inFlightUpTo = b.lastSeq
  last_le : b.lastSeq ≤ b.scannedUpTo
  scanned_lt : b.scannedUpTo < nextSeq
  records_eq : b.records = pending.filter (·.seq ≤ b.scannedUpTo)
  le_last : ∀ r ∈ b.records, r.seq ≤ b.lastSeq

/-- What holds of one sink in every state. -/
structure SinkInv (sys : System) (sink : String) (state : SinkState) : Prop where
  state_eq : sys.shared.sinks sink = some state
  cursor_lt : state.cursor < sys.shared.nextSeq
  balanced : (sys.ledger sink).Balanced (sys.shared.pending sink)
  tracked_lt : ∀ r ∈ (sys.ledger sink).tracked, r.seq < sys.shared.nextSeq
  once : (sys.ledger sink).tracked.Nodup
  delivered : state.delivered = (sys.ledger sink).delivered.length
  expired : state.expired = (sys.ledger sink).expired.length
  oversize : state.oversize = (sys.ledger sink).oversize.length
  inFlight : ∀ b, sys.inFlight sink = some b →
    InFlightOk (sys.shared.pending sink) sys.shared.nextSeq state b

/-- What holds in every state of a run from a log in sequence order. -/
structure System.Inv (sys : System) : Prop where
  increasing : Increasing sys.shared.records
  lt_nextSeq : ∀ r ∈ sys.shared.records, r.seq < sys.shared.nextSeq
  sinks : ∀ sink ∈ allSinks sys.shared.role sys.shared.hiveId, ∃ state, SinkInv sys sink state
  senders : ∀ sink b, sys.inFlight sink = some b →
    sink ∈ allSinks sys.shared.role sys.shared.hiveId
  usageLost : sys.shared.usageLost =
    ∑ sink ∈ (allSinks sys.shared.role sys.shared.hiveId).toFinset, (sys.ledger sink).usageLost

theorem System.Inv.conserves {sys : System} (h : sys.Inv) : sys.Conserves := by
  refine ⟨fun sink hsink => ?_, h.usageLost⟩
  obtain ⟨state, hs⟩ := h.sinks sink hsink
  exact ⟨hs.balanced, hs.once, state, hs.state_eq, hs.delivered, hs.expired, hs.oversize⟩

theorem Increasing.le_getLast {records : List Record} {last : Record} (h : Increasing records)
    (hlast : records.getLast? = some last) : ∀ r ∈ records, r.seq ≤ last.seq := by
  obtain ⟨front, rfl⟩ := getLast?_eq_some_iff.mp hlast
  intro r hr
  rcases mem_append.mp hr with hr | hr
  · exact ((pairwise_append.mp h).2.2 r hr last (by simp)).le
  · rw [mem_singleton.mp hr]

variable {s' : Shared} {s : Shared} {dropped : List Record} {r : Record} {counters : Counters}
  {flight : String → Option Batch} {b : Batch}

section

variable {sys sys' : System} {sink : String} {state : SinkState}

theorem Shared.cursor_eq (h : s.sinks sink = some state) : s.cursor sink = state.cursor := by
  simp [cursor, h]

section
variable (h : SinkInv sys sink state)
include h

theorem SinkInv.pending_eq :
    sys.shared.pending sink = sys.shared.records.filter (owed (sys.shared.takes sink) state.cursor) := by
  unfold pending
  rw [cursor_eq h.state_eq]

theorem SinkInv.frame (hrecords : sys'.shared.records = sys.shared.records)
    (hnext : sys'.shared.nextSeq = sys.shared.nextSeq) (hrole : sys'.shared.role = sys.shared.role)
    (hhive : sys'.shared.hiveId = sys.shared.hiveId)
    (hsinks : sys'.shared.sinks sink = sys.shared.sinks sink)
    (hledger : sys'.ledger sink = sys.ledger sink)
    (hflight : sys'.inFlight sink = sys.inFlight sink) : SinkInv sys' sink state := by
  have hpending : sys'.shared.pending sink = sys.shared.pending sink := by
    unfold pending cursor takes sinksOf
    rw [hrecords, hsinks, hrole, hhive]
  refine ⟨hsinks.trans h.state_eq, ?_, ?_, ?_, ?_, ?_, ?_, ?_, ?_⟩
  · rw [hnext]; exact h.cursor_lt
  · rw [hledger, hpending]; exact h.balanced
  · rw [hledger, hnext]; exact h.tracked_lt
  · rw [hledger]; exact h.once
  · rw [hledger]; exact h.delivered
  · rw [hledger]; exact h.expired
  · rw [hledger]; exact h.oversize
  · rw [hflight, hpending, hnext]; exact h.inFlight

theorem SinkInv.drop (hrecords : sys.shared.records = dropped ++ s'.records)
    (hd : Dropped sys.shared s' dropped) :
    SinkInv { sys with shared := s', ledger := sys.afterLog s' none } sink
      { state with expired := state.expired +
          (dropped.filter (owed (sys.shared.takes sink) state.cursor)).length } := by
  let moved := dropped.filter (owed (sys.shared.takes sink) state.cursor)
  have hstate : s'.sinks sink = some { state with expired := state.expired + moved.length } := by
    rw [hd.sinks, h.state_eq]
    rfl
  have hcursor : s'.cursor sink = state.cursor := by rw [cursor_eq hstate]
  have hpending : sys.shared.pending sink = moved ++ s'.pending sink := by
    unfold pending
    rw [cursor_eq h.state_eq, hcursor, hd.takes_eq, hrecords, filter_append]
  have hledger : sys.afterLog s' none sink =
      { sys.ledger sink with expired := (sys.ledger sink).expired ++ moved } := by
    have hleft : sys.shared.records.take (sys.shared.records.length - s'.records.length) =
        dropped := by
      rw [hrecords]
      simp
    simp only [System.afterLog, toList_none, length_nil, Nat.add_zero, hleft,
      filter_nil, append_nil, cursor_eq h.state_eq]
    rfl
  refine ⟨hstate, ?_, ?_, ?_, ?_, ?_, ?_, ?_, ?_⟩
  · rw [hd.nextSeq]; exact h.cursor_lt
  · simp only [hledger]
    refine h.balanced.move (List.Perm.of_eq hpending) rfl ?_
    rw [perm_iff_count]
    intro r
    simp only [count_append]
    omega
  · simp only [hledger, hd.nextSeq]; exact h.tracked_lt
  · simp only [hledger]; exact h.once
  · simp only [hledger]; exact h.delivered
  · simp only [hledger, length_append, h.expired]; rfl
  · simp only [hledger]; exact h.oversize
  · intro b hb
    have hf := h.inFlight b hb
    refine ⟨hf.upTo, hf.last_le, by rw [hd.nextSeq]; exact hf.scanned_lt, ?_, hf.le_last⟩
    -- a dropped record of this sink is above the batch's last, so above its scanned mark
    have hnone : moved.filter (·.seq ≤ b.scannedUpTo) = [] := by
      rw [filter_eq_nil_iff]
      intro r hr hle
      have hmem : r ∈ b.records := by
        rw [hf.records_eq, hpending]
        exact mem_filter.mpr ⟨mem_append_left _ hr, hle⟩
      have hlast := hf.le_last r hmem
      have hin := mem_filter.mp hr
      have := hd.notInFlight r hin.1 sink state h.state_eq hin.2
      rw [hf.upTo] at this
      omega
    rw [hf.records_eq, hpending, filter_append, hnone, nil_append]

end

theorem sum_usageLost_update {sinks : Finset String} (ledger : String → Ledger) (hsink : sink ∈ sinks)
    {l : Ledger} {n : ℕ} (hl : l.usageLost = (ledger sink).usageLost + n) :
    ∑ k ∈ sinks, (Function.update ledger sink l k).usageLost =
      ∑ k ∈ sinks, (ledger k).usageLost + n := by
  have hrest : ∑ k ∈ sinks.erase sink, (Function.update ledger sink l k).usageLost =
      ∑ k ∈ sinks.erase sink, (ledger k).usageLost := by
    refine Finset.sum_congr rfl fun k hk => ?_
    rw [update_of_ne (Finset.ne_of_mem_erase hk)]
  rw [← Finset.add_sum_erase _ _ hsink, ← Finset.add_sum_erase _ _ hsink, hrest, update_self, hl]
  omega

theorem System.Inv.drop (h : sys.Inv)
    (hrecords : sys.shared.records = dropped ++ s'.records) (hd : Dropped sys.shared s' dropped) :
    ({ sys with shared := s', ledger := sys.afterLog s' none } : System).Inv := by
  have hinc := h.increasing
  rw [hrecords] at hinc
  refine ⟨(pairwise_append.mp hinc).2.1, fun r hr => ?_, fun sink hsink => ?_,
    by simp only [hd.role, hd.hiveId]; exact h.senders, ?_⟩
  · simp only [hd.nextSeq]
    exact h.lt_nextSeq r (by rw [hrecords]; exact mem_append_right _ hr)
  · simp only [hd.role, hd.hiveId] at hsink
    obtain ⟨state, hs⟩ := h.sinks sink hsink
    exact ⟨_, hs.drop hrecords hd⟩
  · simp only [hd.role, hd.hiveId, hd.usageLost, h.usageLost, ← Finset.sum_add_distrib]
    refine Finset.sum_congr rfl fun sink hsink => ?_
    obtain ⟨state, hs⟩ := h.sinks sink (List.mem_toFinset.mp hsink)
    have hleft : sys.shared.records.take (sys.shared.records.length - s'.records.length) =
        dropped := by
      rw [hrecords]
      simp
    simp only [Ledger.usageLost, usageOwed, System.afterLog, hs.state_eq, map_some,
      getD_some, toList_none, length_nil, Nat.add_zero, hleft,
      cursor_eq hs.state_eq, countP_append]
    omega

def System.track (sys : System) (r : Record) (sink : String) : Ledger :=
  { sys.ledger sink with
    tracked := (sys.ledger sink).tracked ++ [r].filter (sys.shared.takes sink) }

theorem SinkInv.push (h : SinkInv sys sink state) (hr : r.seq = sys.shared.nextSeq) :
    SinkInv ⟨sys.shared.pushRecord r, counters, sys.inFlight, sys.track r⟩ sink state := by
  have htakes : (sys.shared.pushRecord r).takes sink = sys.shared.takes sink := by
    funext a
    simp [takes, sinksOf]
  have hcursor : (sys.shared.pushRecord r).cursor sink = state.cursor :=
    cursor_eq (by simpa using h.state_eq)
  have howed : owed (sys.shared.takes sink) state.cursor r = sys.shared.takes sink r := by
    have hlt : state.cursor < r.seq := hr ▸ h.cursor_lt
    simp [owed, hlt]
  have hpending : (sys.shared.pushRecord r).pending sink =
      sys.shared.pending sink ++ [r].filter (sys.shared.takes sink) := by
    rw [h.pending_eq]
    unfold pending
    rw [htakes, hcursor, pushRecord_records, filter_append]
    cases ht : sys.shared.takes sink r <;> simp [howed, ht]
  have hnew : ∀ a ∈ [r].filter (sys.shared.takes sink), a = r := fun a ha =>
    mem_singleton.mp (mem_of_mem_filter ha)
  refine ⟨by simpa using h.state_eq, ?_, ?_, ?_, ?_, h.delivered, h.expired, h.oversize, ?_⟩
  · have := h.cursor_lt
    simp only [pushRecord_nextSeq]
    omega
  · simp only [hpending]
    exact h.balanced.track _
  · intro a ha
    simp only [pushRecord_nextSeq]
    rcases mem_append.mp ha with ha | ha
    · have := h.tracked_lt a ha
      omega
    · rw [hnew a ha]
      omega
  · show ((sys.ledger sink).tracked ++ [r].filter (sys.shared.takes sink)).Nodup
    rw [nodup_append]
    refine ⟨h.once, (nodup_singleton r).filter _, fun a ha b hb => ?_⟩
    have hlt := h.tracked_lt a ha
    rw [hnew b hb]
    rintro rfl
    omega
  · intro b hb
    have hf := h.inFlight b hb
    have hlt := hf.scanned_lt
    refine ⟨hf.upTo, hf.last_le, by simp only [pushRecord_nextSeq]; omega, ?_, hf.le_last⟩
    have hnone : ([r].filter (sys.shared.takes sink)).filter (·.seq ≤ b.scannedUpTo) = [] := by
      rw [filter_eq_nil_iff]
      intro a ha hle
      rw [hnew a ha] at hle
      have := of_decide_eq_true hle
      omega
    simp only [hpending, filter_append, hnone, append_nil]
    exact hf.records_eq

theorem System.Inv.push (h : sys.Inv) (hr : r.seq = sys.shared.nextSeq) :
    (⟨sys.shared.pushRecord r, counters, sys.inFlight, sys.track r⟩ : System).Inv := by
  refine ⟨?_, fun a ha => ?_, fun sink hsink => ?_,
    by simp only [pushRecord_role, pushRecord_hiveId]; exact h.senders, ?_⟩
  · simp only [pushRecord_records]
    refine pairwise_append.mpr ⟨h.increasing, pairwise_singleton _ _, fun a ha b hb => ?_⟩
    have := h.lt_nextSeq a ha
    rw [mem_singleton.mp hb]
    omega
  · simp only [pushRecord_records, pushRecord_nextSeq] at ha ⊢
    rcases mem_append.mp ha with ha | ha
    · have := h.lt_nextSeq a ha
      omega
    · rw [mem_singleton.mp ha]
      omega
  · simp only [pushRecord_role, pushRecord_hiveId] at hsink
    obtain ⟨state, hs⟩ := h.sinks sink hsink
    exact ⟨state, hs.push hr⟩
  · simp only [pushRecord_role, pushRecord_hiveId, pushRecord_usageLost, h.usageLost]
    rfl

theorem SinkInv.plan {now : ℕ} {st : PlanState}
    (h : SinkInv sys sink state) (hinc : Increasing sys.shared.records)
    (hlt : ∀ r ∈ sys.shared.records, r.seq < sys.shared.nextSeq)
    (hres : PlanResult (sys.shared.takes sink) state.cursor now sys.shared.records st)
    (hs' : s' = { sys.shared with
      usageLost := sys.shared.usageLost + st.usageLost
      sinks := Function.update sys.shared.sinks sink (some { state with
        cursor := st.passed
        inFlightUpTo := (st.out.getLast?.map Record.seq).getD state.inFlightUpTo
        expired := state.expired + st.expired
        oversize := state.oversize + st.oversize }) })
    (hflight : ∀ b, flight sink = some b →
      ∃ last, st.out.getLast? = some last ∧ b = ⟨st.out, last.seq, st.scanned⟩) :
    (∃ state', SinkInv ⟨s', sys.counters, flight,
        Function.update sys.ledger sink (sys.afterPlan s' sink now)⟩ sink state') ∧
      (sys.afterPlan s' sink now).usageLost = (sys.ledger sink).usageLost + st.usageLost := by
  let lost := sys.shared.records.filter (lostBy (sys.shared.takes sink) state.cursor st.passed)
  have hstate : s'.sinks sink = some { state with
      cursor := st.passed
      inFlightUpTo := (st.out.getLast?.map Record.seq).getD state.inFlightUpTo
      expired := state.expired + st.expired
      oversize := state.oversize + st.oversize } := by
    rw [hs']
    simp
  have hcursor : s'.cursor sink = st.passed := by rw [cursor_eq hstate]
  have hpending : s'.pending sink =
      sys.shared.records.filter (owed (sys.shared.takes sink) st.passed) := by
    unfold pending
    rw [hcursor, hs']
    rfl
  have hscanned : st.scanned < sys.shared.nextSeq := by
    rcases hres.scanned_mem with he | ⟨r, hr, he⟩
    · rw [he]
      exact h.cursor_lt
    · rw [← he]
      exact hlt r hr
  have hbig : lost.filter (fun r => !r.aged now && r.tooBig) = lost.filter (!·.aged now) := by
    refine filter_congr fun r hr => ?_
    have hr := mem_filter.mp hr
    have hor := hres.lost r hr.1 hr.2
    cases ha : r.aged now
    · simpa [ha] using hor
    · rfl
  have hledger : sys.afterPlan s' sink now = { sys.ledger sink with
      expired := (sys.ledger sink).expired ++ lost.filter (·.aged now)
      oversize := (sys.ledger sink).oversize ++ lost.filter (!·.aged now) } := by
    simp only [System.afterPlan, hcursor, cursor_eq h.state_eq]
    rw [← hbig]
  have hsplit : lost.Perm (lost.filter (·.aged now) ++ lost.filter (!·.aged now)) :=
    (filter_append_perm _ lost).symm
  have hbalanced : (sys.afterPlan s' sink now).Balanced (s'.pending sink) := by
    have hp := filter_owed_perm (sys.shared.takes sink) hres.cursor_le sys.shared.records
    rw [← h.pending_eq, ← hpending] at hp
    rw [hledger]
    refine h.balanced.move hp rfl ?_
    rw [perm_iff_count] at hsplit ⊢
    intro r
    have := hsplit r
    simp only [count_append] at this ⊢
    change List.count r (List.filter (lostBy _ _ _) _) = _ at this
    omega
  refine ⟨⟨_, hstate, ?_, ?_, ?_, ?_, ?_, ?_, ?_, ?_⟩, ?_⟩
  · rw [hs']
    exact lt_of_le_of_lt hres.passed_le hscanned
  · simpa using hbalanced
  · simp only [update_self, hledger]
    rw [hs']
    exact h.tracked_lt
  · simp only [update_self, hledger]
    exact h.once
  · simp only [update_self, hledger]
    exact h.delivered
  · simp only [update_self, hledger, length_append, h.expired, hres.expired_eq,
      countP_eq_length_filter]
    rfl
  · simp only [update_self, hledger, length_append, h.oversize, hres.oversize_eq,
      countP_eq_length_filter]
    rfl
  · intro b hb
    obtain ⟨last, hlast, rfl⟩ := hflight b hb
    have hout : Increasing st.out := by
      rw [hres.out_eq]
      exact (hinc.filter _).filter _
    have hmem : last ∈ st.out := mem_of_getLast? hlast
    refine ⟨by simp [hlast], ?_, ?_, ?_, hout.le_getLast hlast⟩
    · rw [hres.out_eq] at hmem
      exact of_decide_eq_true (mem_filter.mp hmem).2
    · rw [hs']
      exact hscanned
    · simp only [hpending]
      exact hres.out_eq
  · have hcount := hsplit.countP_eq Record.isUsage
    rw [hledger, hres.usageLost_eq]
    simp only [Ledger.usageLost, countP_append] at hcount ⊢
    change List.countP _ (List.filter (lostBy _ _ _) _) = _ at hcount
    omega

theorem System.Inv.plan (h : sys.Inv) (sink : String) (now : ℕ) :
    (sys.step (.plan sink now)).Inv := by
  unfold System.step
  by_cases hguard : sink ∈ allSinks sys.shared.role sys.shared.hiveId ∧
      (sys.inFlight sink).isNone = true
  · simp only [if_pos hguard]
    obtain ⟨hsink, hidle⟩ := hguard
    obtain ⟨state, hs⟩ := h.sinks sink hsink
    obtain ⟨st, hres, hshared, hnone, hsend⟩ := planBatch_spec now hs.state_eq h.increasing
    generalize hflight : (match (sys.shared.planBatch sink now).2 with
      | .send records lastSeq scannedUpTo =>
        Function.update sys.inFlight sink (some ⟨records, lastSeq, scannedUpTo⟩)
      | _ => sys.inFlight) = flight
    have hother : ∀ k, k ≠ sink → flight k = sys.inFlight k := by
      intro k hk
      rw [← hflight]
      split
      · exact update_of_ne hk _ _
      · rfl
    have hown : ∀ b, flight sink = some b →
        ∃ last, st.out.getLast? = some last ∧ b = ⟨st.out, last.seq, st.scanned⟩ := by
      intro b hb
      cases hlast : st.out.getLast? with
      | none =>
        have hplan := hnone (getLast?_eq_none_iff.mp hlast)
        have hsame : flight sink = sys.inFlight sink := by
          rw [← hflight]
          rcases hplan with he | he <;> rw [he]
        rw [← hsame, hb] at hidle
        cases hidle
      | some last =>
        rw [← hflight, hsend last hlast] at hb
        simp only [update_self, Option.some.injEq] at hb
        exact ⟨last, rfl, hb.symm⟩
    obtain ⟨hinv, husage⟩ := hs.plan h.increasing h.lt_nextSeq hres hshared hown
    generalize (sys.shared.planBatch sink now).1 = s' at hshared hinv husage ⊢
    refine ⟨by rw [hshared]; exact h.increasing, by rw [hshared]; exact h.lt_nextSeq,
      fun k hk => ?_, fun k b hb => ?_, ?_⟩
    · by_cases he : k = sink
      · subst he
        exact hinv
      · rw [hshared] at hk
        obtain ⟨state', hk'⟩ := h.sinks k hk
        refine ⟨state', hk'.frame ?_ ?_ ?_ ?_ ?_ (update_of_ne he _ _) (hother k he)⟩
        all_goals simp [hshared, update_of_ne he]
    · rw [hshared]
      by_cases he : k = sink
      · exact he ▸ hsink
      · exact h.senders k b ((hother k he) ▸ hb)
    · rw [sum_usageLost_update sys.ledger (by rw [hshared]; exact List.mem_toFinset.mpr hsink) husage,
        hshared, h.usageLost]
  · simp only [if_neg hguard]
    exact h

theorem settleBatch_spec (reply : Option Reply) (now : ℕ)
    (hsink : s.sinks sink = some state) (hlast : b.lastSeq ≤ b.scannedUpTo)
    (hcursor : ∀ r ∈ b.records, state.cursor < r.seq) :
    ∃ state', s.settleBatch sink b.records b.lastSeq b.scannedUpTo reply now =
        s.setSink sink state' ∧
      state.cursor ≤ state'.cursor ∧
      (state'.cursor ≤ b.scannedUpTo ∨ state'.cursor = state.cursor) ∧
      state'.delivered = state.delivered + b.records.countP (fun r => r.seq ≤ state'.cursor) ∧
      state'.expired = state.expired ∧ state'.oversize = state.oversize := by
  simp only [settleBatch, hsink, getD_some]
  cases hack : reply.bind fun reply =>
      acceptAck reply sink state.cursor b.lastSeq b.scannedUpTo with
  | some cursor' =>
    obtain ⟨ack, -, hack⟩ := bind_eq_some_iff.mp hack
    obtain ⟨hlt, hle⟩ := acceptAck_bounds hlast hack
    exact ⟨_, rfl, hlt.le, .inl hle, rfl, rfl, rfl⟩
  | none =>
    refine ⟨_, rfl, le_rfl, .inr rfl, ?_, rfl, rfl⟩
    have hzero : b.records.countP (fun r => decide (r.seq ≤ state.cursor)) = 0 := by
      rw [countP_eq_zero]
      intro r hr hle
      have := hcursor r hr
      have := of_decide_eq_true hle
      omega
    simp only [hzero, Nat.add_zero]

theorem SinkInv.cursor_lt_batch (h : SinkInv sys sink state)
    (hb : sys.inFlight sink = some b) : ∀ r ∈ b.records, state.cursor < r.seq := by
  intro r hr
  rw [(h.inFlight b hb).records_eq, h.pending_eq] at hr
  have howed := (mem_filter.mp (mem_filter.mp hr).1).2
  simp only [owed, Bool.and_eq_true, decide_eq_true_eq] at howed
  exact howed.2

theorem SinkInv.settle {state' : SinkState} (h : SinkInv sys sink state)
    (hb : sys.inFlight sink = some b) (hs' : s' = sys.shared.setSink sink state')
    (hle : state.cursor ≤ state'.cursor)
    (hscan : state'.cursor ≤ b.scannedUpTo ∨ state'.cursor = state.cursor)
    (hdelivered : state'.delivered =
      state.delivered + b.records.countP (fun r => r.seq ≤ state'.cursor))
    (hexpired : state'.expired = state.expired) (hoversize : state'.oversize = state.oversize)
    (hflight : flight sink = none) :
    SinkInv ⟨s', sys.counters, flight,
      Function.update sys.ledger sink (sys.afterSettle s' sink b)⟩ sink state' := by
  have hf := h.inFlight b hb
  have hstate : s'.sinks sink = some state' := by simp [hs', setSink]
  have hcursor := cursor_eq hstate
  have hpending : s'.pending sink =
      sys.shared.records.filter (owed (sys.shared.takes sink) state'.cursor) := by
    unfold pending
    rw [hcursor, hs']
    rfl
  have hbatch := h.cursor_lt_batch hb
  let covered := b.records.filter (fun r => decide (r.seq ≤ state'.cursor))
  have hledger : sys.afterSettle s' sink b =
      { sys.ledger sink with delivered := (sys.ledger sink).delivered ++ covered } := by
    have hfilter : b.records.filter (fun r => decide (state.cursor < r.seq) &&
        decide (r.seq ≤ state'.cursor)) = covered :=
      filter_congr fun r hr => by simp [hbatch r hr]
    simp only [System.afterSettle, hcursor, cursor_eq h.state_eq, hfilter]
  -- what the cursor moved over is what it covers of the batch
  have hlost : sys.shared.records.filter
      (lostBy (sys.shared.takes sink) state.cursor state'.cursor) = covered := by
    have hcovered : covered = (sys.shared.records.filter
        (owed (sys.shared.takes sink) state.cursor)).filter
        (fun r => decide (r.seq ≤ state'.cursor) && decide (r.seq ≤ b.scannedUpTo)) := by
      show b.records.filter _ = _
      rw [hf.records_eq, h.pending_eq, List.filter_filter]
    rw [hcovered, List.filter_filter]
    refine filter_congr fun r _ => ?_
    unfold lostBy owed
    by_cases hc : state.cursor < r.seq
    · by_cases hr : r.seq ≤ state'.cursor
      · have hr' : r.seq ≤ b.scannedUpTo := by omega
        simp [hc, hr, hr']
      · simp [hr]
    · simp [hc]
  refine ⟨hstate, ?_, ?_, ?_, ?_, ?_, ?_, ?_, ?_⟩
  · have hnext : s'.nextSeq = sys.shared.nextSeq := by rw [hs']; rfl
    have := h.cursor_lt
    have := hf.scanned_lt
    simp only [hnext]
    omega
  · simp only [update_self, hledger]
    have hp := filter_owed_perm (sys.shared.takes sink) hle sys.shared.records
    rw [← h.pending_eq, ← hpending, hlost] at hp
    refine h.balanced.move hp rfl ?_
    rw [perm_iff_count]
    intro r
    simp only [count_append]
    omega
  · simp only [update_self, hledger]
    rw [hs']
    exact h.tracked_lt
  · simp only [update_self, hledger]
    exact h.once
  · simp only [update_self, hledger, length_append, hdelivered, h.delivered,
      countP_eq_length_filter]
    rfl
  · simp only [update_self, hledger, hexpired, h.expired]
  · simp only [update_self, hledger, hoversize, h.oversize]
  · intro b' hb'
    have hnone : flight sink = some b' := hb'
    rw [hflight] at hnone
    cases hnone

section
variable (h : sys.Inv)
include h

theorem System.Inv.settle (sink : String) (reply : Option Reply) (now : ℕ) :
    (sys.step (.settle sink reply now)).Inv := by
  cases hb : sys.inFlight sink with
  | none =>
    simp only [System.step, hb]
    exact h
  | some b =>
    simp only [System.step, hb]
    have hsink := h.senders sink b hb
    obtain ⟨state, hs⟩ := h.sinks sink hsink
    have hf := hs.inFlight b hb
    obtain ⟨state', hshared, hle, hscan, hdelivered, hexpired, hoversize⟩ :=
      settleBatch_spec reply now hs.state_eq hf.last_le (hs.cursor_lt_batch hb)
    generalize sys.shared.settleBatch sink b.records b.lastSeq b.scannedUpTo reply now = s'
      at hshared ⊢
    have husage : (sys.afterSettle s' sink b).usageLost = (sys.ledger sink).usageLost + 0 := rfl
    refine ⟨by rw [hshared]; exact h.increasing, by rw [hshared]; exact h.lt_nextSeq,
      fun k hk => ?_, fun k b' hb' => ?_, ?_⟩
    · by_cases he : k = sink
      · subst he
        exact ⟨state', hs.settle hb hshared hle hscan hdelivered hexpired hoversize
          (update_self _ _ _)⟩
      · rw [hshared] at hk
        obtain ⟨st, hk'⟩ := h.sinks k hk
        refine ⟨st, hk'.frame ?_ ?_ ?_ ?_ ?_ (update_of_ne he _ _) (update_of_ne he _ _)⟩
        all_goals simp [hshared, setSink, update_of_ne he]
    · rw [hshared]
      by_cases he : k = sink
      · exact he ▸ hsink
      · refine h.senders k b' ?_
        rwa [← update_of_ne he none sys.inFlight]
    · rw [sum_usageLost_update sys.ledger (by rw [hshared]; exact List.mem_toFinset.mpr hsink) husage,
        Nat.add_zero]
      simp only [hshared, setSink]
      exact h.usageLost

theorem System.Inv.trim (now : ℕ) : (sys.step (.trim now)).Inv := by
  obtain ⟨dropped, hrecords, hd⟩ := trim_spec sys.shared now
  exact h.drop hrecords hd

theorem System.Inv.append (incoming : Incoming) (now : ℕ) :
    (sys.step (.append incoming now)).Inv := by
  obtain ⟨s₁, dropped, hrecords, hd, htaken⟩ :=
    takeIncoming_spec sys.shared sys.counters incoming now
  have h₁ := h.drop hrecords hd
  simp only [System.step]
  rcases htaken with ⟨hshared, hnone⟩ | ⟨hshared, hsome⟩
  · rw [hshared, hnone]
    exact ⟨h₁.increasing, h₁.lt_nextSeq, fun sink hsink => (h₁.sinks sink hsink).imp fun _ hs =>
        hs.frame rfl rfl rfl rfl rfl rfl rfl, h₁.senders, h₁.usageLost⟩
  · rw [hshared, hsome]
    -- a trim and then a record at the end
    have hledger : sys.afterLog (s₁.pushRecord (incoming.toRecord sys.shared.nextSeq))
          (some (incoming.toRecord sys.shared.nextSeq)) =
        ({ sys with shared := s₁, ledger := sys.afterLog s₁ none } : System).track
          (incoming.toRecord sys.shared.nextSeq) := by
      funext sink
      simp only [System.afterLog, System.track, hd.takes_eq, pushRecord_records, toList_some,
        toList_none, length_append, length_nil, length_cons, Nat.zero_add,
        Nat.add_zero, Nat.add_sub_add_right, filter_nil, append_nil]
    rw [hledger]
    exact h₁.push (by simp only [hd.nextSeq]; rfl)

theorem System.Inv.step (e : Event) : (sys.step e).Inv := by
  cases e with
  | append incoming now => exact h.append incoming now
  | trim now => exact h.trim now
  | plan sink now => exact h.plan sink now
  | settle sink reply now => exact h.settle sink reply now

theorem System.Inv.run (events : List Event) : (sys.run events).Inv := by
  induction events generalizing sys with
  | nil => exact h
  | cons e events ih => exact ih (h.step e)

end

end

section

variable {records : List Record}

theorem Increasing.le_lastOnDisk (h : Increasing records) :
    ∀ r ∈ records, r.seq ≤ lastOnDisk records := by
  intro r hr
  unfold lastOnDisk
  cases hlast : records.getLast? with
  | none =>
    rw [getLast?_eq_none_iff.mp hlast] at hr
    cases hr
  | some last => exact h.le_getLast hlast r hr

section
variable (state : SavedState) (newEpoch : ℕ) (sinks : List String)

theorem lastOnDisk_lt_nextSeq :
    lastOnDisk records < (Recovered.ofLog records state newEpoch sinks).nextSeq := by
  simp only [Recovered.ofLog]
  omega

theorem recoveredCursor_le (sink : String) :
    ((Recovered.ofLog records state newEpoch sinks).cursors sink).getD 0 ≤ lastOnDisk records := by
  simp only [Recovered.ofLog]
  split_ifs
  · cases state.cursors sink with
    | none => exact Nat.zero_le _
    | some c => exact Nat.min_le_right c _
  · exact Nat.zero_le _

end

theorem System.start_inv (role hiveId : String) (state : SavedState) (newEpoch now : ℕ)
    (hinc : Increasing records) :
    (System.start role hiveId
      (Recovered.ofLog records state newEpoch (allSinks role hiveId)) now).Inv := by
  refine System.Inv.trim ?_ now
  have hnext := @lastOnDisk_lt_nextSeq records state newEpoch (allSinks role hiveId)
  generalize hrec : Recovered.ofLog records state newEpoch (allSinks role hiveId) = recovered
    at hnext
  have hrecords : recovered.records = records := by rw [← hrec]; rfl
  have hlt : ∀ r ∈ recovered.records, r.seq < recovered.nextSeq := by
    intro r hr
    have := hinc.le_lastOnDisk r (hrecords ▸ hr)
    omega
  have hinc' : Increasing recovered.records := by rw [hrecords]; exact hinc
  refine ⟨hinc', hlt, fun sink hsink => ?_, nofun, ?_⟩
  · have hcursor := @recoveredCursor_le records state newEpoch (allSinks role hiveId) sink
    rw [hrec] at hcursor
    have hsink : sink ∈ allSinks role hiveId := hsink
    have hstate : (ofRecovered role hiveId recovered).sinks sink =
        some { SinkState.default with cursor := (recovered.cursors sink).getD 0 } := by
      simp only [ofRecovered, if_pos hsink]
    refine ⟨_, hstate, lt_of_le_of_lt hcursor hnext, ?_, ?_, ?_, rfl, rfl, rfl, ?_⟩
    · unfold Ledger.Balanced
      simp
    · intro r hr
      exact hlt r (mem_filter.mp hr).1
    · exact List.Nodup.filter _ (hinc'.imp fun hab he => by rw [he] at hab; omega)
    · intro b hb
      cases hb
  · simp [ofRecovered, Ledger.usageLost]

/-- From a log recovered in sequence order, every interleaving conserves the records. -/
theorem conserves_of_increasing_log (role hiveId : String) (records : List Record)
    (state : SavedState) (newEpoch now : ℕ) (hinc : Increasing records) (events : List Event) :
    ((System.start role hiveId
      (Recovered.ofLog records state newEpoch (allSinks role hiveId)) now).run events).Conserves :=
  ((System.start_inv role hiveId state newEpoch now hinc).run events).conserves

def cognitionRecord (seq : ℕ) : Record := ⟨seq, 0, .turns, subjectCognitionTurns, "A", []⟩
def storageRecord (seq : ℕ) : Record := ⟨seq, 0, .turns, subjectStorageTurns, "A", []⟩

theorem conserves_batch_acked :
    Increasing [storageRecord 1, cognitionRecord 2] ∧
      ((System.start "worker" "h" (Recovered.ofLog [storageRecord 1, cognitionRecord 2] .absent 1
        (allSinks "worker" "h")) 0).run
        [.plan "SY.storage@motherbee" 0, .append ⟨.turns, 0, subjectStorageTurns, "A", []⟩ 0,
          .settle "SY.storage@motherbee"
            (some ⟨some msgStreamAck, some "SY.storage@motherbee", some 1⟩) 0,
          .trim 0]).Conserves :=
  ⟨by decide, conserves_of_increasing_log "worker" "h" _ .absent 1 0 (by decide) _⟩

/-- The later record first: the plan passes it, for another sink, and moves the cursor over the
storage record it puts in the batch. -/
theorem not_conserves_out_of_order_log :
    ¬ ((System.start "worker" "h" (Recovered.ofLog [cognitionRecord 3, storageRecord 1] .absent 1
      (allSinks "worker" "h")) 0).run [.plan "SY.storage@motherbee" 0]).Conserves := by
  intro h
  have hmem : "SY.storage@motherbee" ∈ allSinks "worker" "h" := by decide +kernel
  have hp := (h.1 "SY.storage@motherbee" hmem).partition.length_eq
  revert hp
  decide +kernel

end

end Fluxbee.Stream
