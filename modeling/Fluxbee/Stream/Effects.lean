import Fluxbee.Stream.Shared
import Mathlib.Algebra.BigOperators.Group.Finset.Piecewise

/-! What each operation on the shared log does, as the later proofs use it. -/
namespace Fluxbee.Stream
open List Option Shared Bool

variable {seen : List Record} {st : PlanState} {r : Record} {s : Shared}

def Increasing (records : List Record) : Prop := records.Pairwise fun a b => a.seq < b.seq

instance (records : List Record) : Decidable (Increasing records) :=
  inferInstanceAs (Decidable (records.Pairwise fun a b => a.seq < b.seq))

def owed (takes : Record → Bool) (cursor : ℕ) (r : Record) : Bool :=
  takes r && decide (cursor < r.seq)

variable {st' : PlanState} {sink : String} {s' : Shared} {dropped : List Record} {now : ℕ}

section

variable {takes : Record → Bool} {cursor now : ℕ}

def lostBy (takes : Record → Bool) (cursor passed : ℕ) (r : Record) : Bool :=
  owed takes cursor r && decide (r.seq ≤ passed)

/-- The loop variables after the records `seen`, which the loop went over. -/
structure Planned (takes : Record → Bool) (cursor now : ℕ) (seen : List Record)
    (st : PlanState) : Prop where
  cursor_le : cursor ≤ st.passed
  passed_le : st.passed ≤ st.scanned
  passed_eq : st.out = [] → st.passed = st.scanned
  seen_le : ∀ r ∈ seen, cursor < r.seq → r.seq ≤ st.scanned
  scanned_mem : st.scanned = cursor ∨ ∃ r ∈ seen, r.seq = st.scanned
  out_eq : st.out = seen.filter (owed takes st.passed)
  lost : ∀ r ∈ seen, lostBy takes cursor st.passed r = true → (r.aged now || r.tooBig) = true
  expired_eq : st.expired = (seen.filter (lostBy takes cursor st.passed)).countP (·.aged now)
  oversize_eq : st.oversize = (seen.filter (lostBy takes cursor st.passed)).countP (!·.aged now)
  usageLost_eq : st.usageLost = (seen.filter (lostBy takes cursor st.passed)).countP Record.isUsage

theorem planned_start :
    Planned takes cursor now [] ⟨cursor, cursor, [], batchEnvelopeBytes, 0, 0, 0⟩ := by
  constructor <;> simp

/-- Records at or below the old mark stay resolved, so a mark moved to a later record that the
sink does not take resolves nothing more. -/
theorem filter_lostBy_eq {p q : ℕ} (hpq : p ≤ q) (hseen : ∀ r ∈ seen, cursor < r.seq → r.seq ≤ p) :
    seen.filter (lostBy takes cursor q) = seen.filter (lostBy takes cursor p) := by
  refine filter_congr fun r hr => ?_
  unfold lostBy owed
  by_cases hc : cursor < r.seq
  · have h := hseen r hr hc
    have h' : r.seq ≤ q := by omega
    simp [h, h']
  · simp [hc]

theorem filter_owed_eq_nil {q : ℕ} (hq : cursor ≤ q)
    (hseen : ∀ r ∈ seen, cursor < r.seq → r.seq ≤ q) : seen.filter (owed takes q) = [] := by
  rw [filter_eq_nil_iff]
  intro r hr h
  have hlt : q < r.seq := by
    unfold owed at h
    simp only [and_eq_true, decide_eq_true_eq] at h
    exact h.2
  have := hseen r hr (by omega)
  omega

section
variable (h : Planned takes cursor now seen st)
include h

theorem Planned.scanned_lt (hc : cursor < r.seq) (hr : ∀ a ∈ seen, a.seq < r.seq) :
    st.scanned < r.seq := by
  rcases h.scanned_mem with he | ⟨a, ha, he⟩
  · omega
  · have := hr a ha
    omega

theorem Planned.keep (hpassed : st'.passed = st.passed)
    (hexpired : st'.expired = st.expired) (hoversize : st'.oversize = st.oversize)
    (husage : st'.usageLost = st.usageLost) (hle : st.scanned ≤ st'.scanned)
    (hr : cursor < r.seq → r.seq ≤ st'.scanned)
    (hmem : st'.scanned = st.scanned ∨ st'.scanned = r.seq)
    (hempty : st'.out = [] → st'.passed = st'.scanned)
    (hlost : lostBy takes cursor st.passed r = false)
    (hout : st'.out = st.out ++ if owed takes st.passed r then [r] else []) :
    Planned takes cursor now (seen ++ [r]) st' := by
  have hfilter : (seen ++ [r]).filter (lostBy takes cursor st.passed) =
      seen.filter (lostBy takes cursor st.passed) := by
    simp [filter_append, hlost]
  refine ⟨?_, ?_, hempty, ?_, ?_, ?_, ?_, ?_, ?_, ?_⟩
  · rw [hpassed]; exact h.cursor_le
  · rw [hpassed]; exact h.passed_le.trans hle
  · intro a ha hc
    rcases mem_append.mp ha with ha | ha
    · exact (h.seen_le a ha hc).trans hle
    · rw [mem_singleton.mp ha] at hc ⊢
      exact hr hc
  · rcases hmem with he | he
    · rw [he]
      rcases h.scanned_mem with hs | ⟨a, ha, hs⟩
      · exact .inl hs
      · exact .inr ⟨a, mem_append_left _ ha, hs⟩
    · exact .inr ⟨r, by simp, he.symm⟩
  · rw [hpassed, hout, h.out_eq, filter_append]
    by_cases ho : owed takes st.passed r <;> simp [ho]
  · intro a ha hl
    rw [hpassed] at hl
    rcases mem_append.mp ha with ha | ha
    · exact h.lost a ha hl
    · rw [mem_singleton.mp ha, hlost] at hl
      cases hl
  · rw [hpassed, hfilter, hexpired, h.expired_eq]
  · rw [hpassed, hfilter, hoversize, h.oversize_eq]
  · rw [hpassed, hfilter, husage, h.usageLost_eq]

theorem Planned.pass (hc : cursor < r.seq)
    (hsorted : ∀ a ∈ seen, a.seq < r.seq) (hnil : st.out = [])
    (hout : st'.out = []) (hpassed : st'.passed = r.seq) (hscanned : st'.scanned = r.seq)
    (hlost : takes r = true → (r.aged now || r.tooBig) = true)
    (hexpired : st'.expired = st.expired + (takes r && r.aged now).toNat)
    (hoversize : st'.oversize = st.oversize + (takes r && !r.aged now).toNat)
    (husage : st'.usageLost = st.usageLost + (takes r && r.isUsage).toNat) :
    Planned takes cursor now (seen ++ [r]) st' := by
  have hseen : ∀ a ∈ seen, cursor < a.seq → a.seq ≤ st.passed := by
    rw [h.passed_eq hnil]
    exact h.seen_le
  have hlt : st.passed < r.seq := lt_of_le_of_lt h.passed_le (h.scanned_lt hc hsorted)
  have hr : lostBy takes cursor r.seq r = takes r := by simp [lostBy, owed, hc]
  have hcount : ∀ f : Record → Bool, ((seen ++ [r]).filter (lostBy takes cursor r.seq)).countP f =
        (seen.filter (lostBy takes cursor st.passed)).countP f + (takes r && f r).toNat := by
    intro f
    rw [filter_append, filter_lostBy_eq hlt.le hseen, countP_append]
    cases ht : takes r <;> cases hf : f r <;> simp [hr, ht, hf]
  refine ⟨?_, ?_, ?_, ?_, ?_, ?_, ?_, ?_, ?_, ?_⟩
  · omega
  · omega
  · intro _
    rw [hpassed, hscanned]
  · intro a ha _
    rw [hscanned]
    rcases mem_append.mp ha with ha | ha
    · exact (hsorted a ha).le
    · rw [mem_singleton.mp ha]
  · exact .inr ⟨r, by simp, hscanned.symm⟩
  · rw [hout, hpassed]
    refine (filter_owed_eq_nil hc.le ?_).symm
    intro a ha _
    rcases mem_append.mp ha with ha | ha
    · exact (hsorted a ha).le
    · rw [mem_singleton.mp ha]
  · intro a ha hl
    rw [hpassed] at hl
    rcases mem_append.mp ha with ha | ha
    · refine h.lost a ha ?_
      have hmem : a ∈ seen.filter (lostBy takes cursor r.seq) := mem_filter.mpr ⟨ha, hl⟩
      rw [filter_lostBy_eq hlt.le hseen] at hmem
      exact (mem_filter.mp hmem).2
    · rw [mem_singleton.mp ha] at hl ⊢
      exact hlost (hr ▸ hl)
  · rw [hpassed, hcount, hexpired, h.expired_eq]
  · rw [hpassed, hcount, hoversize, h.oversize_eq]
  · rw [hpassed, hcount, husage, h.usageLost_eq]

theorem planRecord_planned
    (hsorted : ∀ a ∈ seen, a.seq < r.seq) (hstep : planRecord takes cursor now st r = some st') :
    Planned takes cursor now (seen ++ [r]) st' := by
  unfold planRecord at hstep
  split_ifs at hstep with hc ht he hl ho hfull
  · -- at or below the cursor
    cases hstep
    have hlost : lostBy takes cursor st.passed r = false := by simp [lostBy, owed, hc]
    have howed : owed takes st.passed r = false := by
      have := h.cursor_le
      have hle : r.seq ≤ st.passed := by omega
      simp [owed, hle]
    exact h.keep rfl rfl rfl rfl le_rfl (by omega) (.inl rfl) h.passed_eq hlost (by simp [howed])
  · -- not one of this sink's, ahead of the batch
    have hc : cursor < r.seq := by omega
    have ht : takes r = false := by simpa using ht
    have hnil : st.out = [] := by simpa using he
    cases hstep
    exact h.pass hc hsorted hnil hnil rfl rfl (by simp [ht]) (by simp [ht]) (by simp [ht])
      (by simp [ht])
  · -- not one of this sink's, behind the batch's first record
    have hc : cursor < r.seq := by omega
    have ht : takes r = false := by simpa using ht
    have hnil : st.out ≠ [] := by simpa using he
    have hlt := h.scanned_lt hc hsorted
    cases hstep
    exact h.keep rfl rfl rfl rfl hlt.le (fun _ => le_rfl) (.inr rfl) (fun he => absurd he hnil)
      (by simp [lostBy, owed, ht]) (by simp [owed, ht])
  · -- lost ahead of the batch
    have hc : cursor < r.seq := by omega
    have ht : takes r = true := by simpa using ht
    have hnil : st.out = [] := by simpa using ho
    cases hstep
    exact h.pass hc hsorted hnil hnil rfl rfl (fun _ => hl) (by simp [ht]) (by simp [ht])
      (by simp [ht])
  · -- into the batch
    have hc : cursor < r.seq := by omega
    have ht : takes r = true := by simpa using ht
    have hlt := h.scanned_lt hc hsorted
    have hp : st.passed < r.seq := lt_of_le_of_lt h.passed_le hlt
    cases hstep
    have hlost : lostBy takes cursor st.passed r = false := by
      have hnle : ¬ r.seq ≤ st.passed := by omega
      simp [lostBy, hnle]
    exact h.keep rfl rfl rfl rfl hlt.le (fun _ => le_rfl) (.inr rfl) (by simp) hlost
      (by simp [owed, ht, hp])

end

theorem lt_of_planRecord_eq_none
    (h : planRecord takes cursor now st r = none) : cursor < r.seq := by
  by_contra hc
  have hle : r.seq ≤ cursor := by omega
  simp [planRecord, hle] at h

theorem out_ne_nil_of_planRecord (h : planRecord takes cursor now st r = none) : st.out ≠ [] := by
  intro hnil
  simp only [planRecord, hnil, isEmpty_nil, Bool.not_true, Bool.false_and] at h
  split_ifs at h <;> contradiction

/-- The loop ends with the records it went over ahead of those it left for the next plan, if any. -/
theorem planLoop_planned {rest : List Record}
    (h : Planned takes cursor now seen st) (hinc : Increasing (seen ++ rest)) :
    ∃ seen' post, seen ++ rest = seen' ++ post ∧
      Planned takes cursor now seen' (planLoop takes cursor now st rest) ∧
      (∀ r ∈ post, (planLoop takes cursor now st rest).scanned < r.seq) ∧
      ((planLoop takes cursor now st rest).out = [] → post = []) := by
  induction rest generalizing seen st with
  | nil => exact ⟨seen, [], by simp, h, by simp, fun _ => rfl⟩
  | cons r rest ih =>
    have hsorted : ∀ a ∈ seen, a.seq < r.seq := fun a ha =>
      (pairwise_append.mp hinc).2.2 a ha r (by simp)
    cases hstep : planRecord takes cursor now st r with
    | some st' =>
      have hassoc : seen ++ r :: rest = seen ++ [r] ++ rest := by simp
      rw [hassoc] at hinc ⊢
      simp only [planLoop, hstep]
      exact ih (planRecord_planned h hsorted hstep) hinc
    | none =>
      have hlt := h.scanned_lt (lt_of_planRecord_eq_none hstep) hsorted
      simp only [planLoop, hstep]
      refine ⟨seen, r :: rest, rfl, h, fun a ha => ?_, fun hnil => ?_⟩
      swap
      · exact absurd hnil (out_ne_nil_of_planRecord hstep)
      rcases mem_cons.mp ha with rfl | ha
      · exact hlt
      · have htail := (pairwise_append.mp hinc).2.1
        have := rel_of_pairwise_cons htail ha
        omega

/-- What a plan resolves and sends, over the whole log. -/
structure PlanResult (takes : Record → Bool) (cursor now : ℕ) (records : List Record)
    (st : PlanState) : Prop where
  cursor_le : cursor ≤ st.passed
  passed_le : st.passed ≤ st.scanned
  passed_eq : st.out = [] → st.passed = st.scanned
  scanned_mem : st.scanned = cursor ∨ ∃ r ∈ records, r.seq = st.scanned
  out_eq : st.out = (records.filter (owed takes st.passed)).filter (·.seq ≤ st.scanned)
  lost : ∀ r ∈ records, lostBy takes cursor st.passed r = true → (r.aged now || r.tooBig) = true
  expired_eq : st.expired = (records.filter (lostBy takes cursor st.passed)).countP (·.aged now)
  oversize_eq : st.oversize = (records.filter (lostBy takes cursor st.passed)).countP (!·.aged now)
  usageLost_eq :
    st.usageLost = (records.filter (lostBy takes cursor st.passed)).countP Record.isUsage

theorem planLoop_result {records : List Record} (hinc : Increasing records) :
    PlanResult takes cursor now records (planLoop takes cursor now
      ⟨cursor, cursor, [], batchEnvelopeBytes, 0, 0, 0⟩ records) := by
  obtain ⟨seen, post, hsplit, h, hpost, -⟩ :=
    planLoop_planned (@planned_start takes cursor now) (show Increasing ([] ++ records) from hinc)
  rw [nil_append] at hsplit
  generalize planLoop takes cursor now ⟨cursor, cursor, [], batchEnvelopeBytes, 0, 0, 0⟩ records
    = st at h hpost ⊢
  subst hsplit
  have hlostPost : post.filter (lostBy takes cursor st.passed) = [] := by
    rw [filter_eq_nil_iff]
    intro r hr hl
    have hlt := hpost r hr
    have hple := h.passed_le
    simp only [lostBy, and_eq_true, decide_eq_true_eq] at hl
    omega
  have hlost : (seen ++ post).filter (lostBy takes cursor st.passed) =
      seen.filter (lostBy takes cursor st.passed) := by
    rw [filter_append, hlostPost, append_nil]
  refine ⟨h.cursor_le, h.passed_le, h.passed_eq, ?_, ?_, ?_, ?_, ?_, ?_⟩
  · rcases h.scanned_mem with he | ⟨r, hr, he⟩
    · exact .inl he
    · exact .inr ⟨r, mem_append_left _ hr, he⟩
  · rw [filter_append, filter_append, ← h.out_eq]
    have hseen : st.out.filter (·.seq ≤ st.scanned) = st.out := by
      rw [filter_eq_self]
      intro r hr
      rw [h.out_eq, mem_filter] at hr
      have hcle := h.cursor_le
      have howed := hr.2
      simp only [owed, and_eq_true, decide_eq_true_eq] at howed
      exact decide_eq_true (h.seen_le r hr.1 (by omega))
    have hrest : (post.filter (owed takes st.passed)).filter (·.seq ≤ st.scanned) = [] := by
      rw [filter_eq_nil_iff]
      intro r hr hle
      have hlt := hpost r (mem_filter.mp hr).1
      have := of_decide_eq_true hle
      omega
    rw [hseen, hrest, append_nil]
  · intro r hr hl
    rcases mem_append.mp hr with hr | hr
    · exact h.lost r hr hl
    · have hmem : r ∈ post.filter (lostBy takes cursor st.passed) := mem_filter.mpr ⟨hr, hl⟩
      rw [hlostPost] at hmem
      cases hmem
  · rw [hlost, h.expired_eq]
  · rw [hlost, h.oversize_eq]
  · rw [hlost, h.usageLost_eq]

end

/-- A plan moves the sink's cursor to `passed`, counts what it passed, and sends the records up to
`scanned`. -/
theorem planBatch_spec {state : SinkState} (now : ℕ)
    (hsink : s.sinks sink = some state) (hinc : Increasing s.records) :
    ∃ st, PlanResult (s.takes sink) state.cursor now s.records st ∧ (s.planBatch sink now).1 =
        { s with
          usageLost := s.usageLost + st.usageLost
          sinks := Function.update s.sinks sink (some { state with
            cursor := st.passed
            inFlightUpTo := (st.out.getLast?.map Record.seq).getD state.inFlightUpTo
            expired := state.expired + st.expired
            oversize := state.oversize + st.oversize }) } ∧
      (st.out = [] → (s.planBatch sink now).2 = .idle ∨ (s.planBatch sink now).2 = .skipped) ∧
      ∀ last, st.out.getLast? = some last →
        (s.planBatch sink now).2 = .send st.out last.seq st.scanned := by
  refine ⟨_, planLoop_result hinc, ?_⟩
  have hres := @planLoop_result (s.takes sink) state.cursor now _ hinc
  simp only [planBatch, hsink, map_some, getD_some]
  generalize planLoop (s.takes sink) state.cursor now
    ⟨state.cursor, state.cursor, [], batchEnvelopeBytes, 0, 0, 0⟩ s.records = st at hres ⊢
  have hcursor : (if st.passed > state.cursor then st.passed else state.cursor) = st.passed := by
    have := hres.cursor_le
    split_ifs <;> omega
  rw [hcursor]
  cases hlast : st.out.getLast? with
  | none =>
    refine ⟨rfl, fun _ => ?_, nofun⟩
    by_cases hp : st.passed > state.cursor
    · exact .inr (if_pos hp)
    · exact .inl (if_neg hp)
  | some last =>
    refine ⟨rfl, fun hnil => ?_, fun last' h => ?_⟩
    · rw [hnil] at hlast
      cases hlast
    · cases h
      rfl

section

def Shared.usageOwed (s : Shared) (dropped : List Record) (sink : String) : ℕ :=
  ((s.sinks sink).map fun state =>
    (dropped.filter (owed (s.takes sink) state.cursor)).countP Record.isUsage).getD 0

/-- The records `dropped` left the log: those owed to a sink are counted expired for it, and none
of them was in a batch of its. -/
structure Dropped (s s' : Shared) (dropped : List Record) : Prop where
  nextSeq : s'.nextSeq = s.nextSeq
  fsyncedSeq : s'.fsyncedSeq = s.fsyncedSeq
  role : s'.role = s.role
  hiveId : s'.hiveId = s.hiveId
  sinks : ∀ sink, s'.sinks sink = (s.sinks sink).map fun state =>
    { state with
      expired := state.expired + (dropped.filter (owed (s.takes sink) state.cursor)).length }
  usageLost : s'.usageLost =
    s.usageLost + ∑ sink ∈ (allSinks s.role s.hiveId).toFinset, s.usageOwed dropped sink
  notInFlight : ∀ r ∈ dropped, ∀ sink state, s.sinks sink = some state →
    owed (s.takes sink) state.cursor r = true → state.inFlightUpTo < r.seq

theorem Dropped.takes_eq (h : Dropped s s' dropped)
    (sink : String) : s'.takes sink = s.takes sink := by
  funext r
  unfold takes sinksOf
  rw [h.role, h.hiveId]

theorem Dropped.nil (records : List Record) : Dropped s { s with records } [] := by
  refine ⟨rfl, rfl, rfl, rfl, fun sink => ?_, ?_, by simp⟩
  · cases hs : s.sinks sink <;> simp
  · have hzero : ∀ sink, s.usageOwed [] sink = 0 := by
      intro sink
      unfold usageOwed
      cases s.sinks sink <;> rfl
    simp [hzero]

theorem Dropped.append {s'' : Shared} {first second : List Record}
    (h : Dropped s s' first) (h' : Dropped s' s'' second) : Dropped s s'' (first ++ second) := by
  have hsinks : ∀ sink, s'.usageOwed second sink = s.usageOwed second sink := by
    intro sink
    unfold usageOwed
    rw [h.sinks, h.takes_eq]
    cases s.sinks sink <;> rfl
  have howed : ∀ sink, s.usageOwed (first ++ second) sink =
      s.usageOwed first sink + s.usageOwed second sink := by
    intro sink
    unfold usageOwed
    cases s.sinks sink <;> simp [filter_append]
  refine ⟨h'.nextSeq.trans h.nextSeq, h'.fsyncedSeq.trans h.fsyncedSeq, h'.role.trans h.role,
    h'.hiveId.trans h.hiveId, fun sink => ?_, ?_, ?_⟩
  · rw [h'.sinks, h.sinks, h.takes_eq]
    cases s.sinks sink with
    | none => rfl
    | some state => simp [filter_append, Nat.add_assoc]
  · have hsum : ∑ sink ∈ (allSinks s.role s.hiveId).toFinset, s.usageOwed (first ++ second) sink =
        ∑ sink ∈ (allSinks s.role s.hiveId).toFinset, s.usageOwed first sink +
          ∑ sink ∈ (allSinks s.role s.hiveId).toFinset, s'.usageOwed second sink := by
      simp only [howed, hsinks, Finset.sum_add_distrib]
    rw [h'.usageLost, h.usageLost, h.role, h.hiveId, hsum, Nat.add_assoc]
  · intro r hr sink state hstate hr'
    rcases mem_append.mp hr with hr | hr
    · exact h.notInFlight r hr sink state hstate hr'
    · have hstate' := h.sinks sink
      rw [hstate, map_some] at hstate'
      have := h'.notInFlight r hr sink _ hstate'
      rw [h.takes_eq] at this
      exact this hr'

theorem Dropped.releaseBytes (h : Dropped s s' dropped)
    (r : Record) : Dropped s (s'.releaseBytes r) dropped := by
  unfold Shared.releaseBytes
  cases r.source <;>
    exact ⟨h.nextSeq, h.fsyncedSeq, h.role, h.hiveId, h.sinks, h.usageLost, h.notInFlight⟩

theorem dropped_of_not_owed
    (h : ∀ sink state, s.sinks sink = some state → owed (s.takes sink) state.cursor r = false) :
    Dropped s s [r] := by
  have hfilter : ∀ sink state, s.sinks sink = some state →
      [r].filter (owed (s.takes sink) state.cursor) = [] := by
    intro sink state hstate
    simp [h sink state hstate]
  refine ⟨rfl, rfl, rfl, rfl, fun sink => ?_, ?_, ?_⟩
  · cases hs : s.sinks sink with
    | none => rfl
    | some state => simp [hfilter sink state hs]
  · have hzero : ∀ sink, s.usageOwed [r] sink = 0 := by
      intro sink
      unfold usageOwed
      cases hs : s.sinks sink with
      | none => rfl
      | some state => simp [hfilter sink state hs]
    simp [hzero]
  · intro a ha sink state hstate ho
    rw [mem_singleton.mp ha, h sink state hstate] at ho
    cases ho

theorem dropped_expireFor
    (hsinks : s.sinksOf r.subject = [sink]) (hdone : s.recordDone r now = true) :
    Dropped s (s.expireFor r sink) [r] := by
  have htakes : ∀ other, s.takes other r = (sink == other) := by
    intro other
    simp [takes, hsinks]
  unfold expireFor
  cases hs : s.sinks sink with
  | none =>
    refine dropped_of_not_owed fun other state hstate => ?_
    have hne : sink ≠ other := by
      intro he
      rw [← he, hs] at hstate
      cases hstate
    simp [owed, htakes, hne]
  | some state =>
    by_cases hc : state.cursor < r.seq
    · -- owed to this sink alone, aged, and in no batch of its
      have hflight : state.inFlightUpTo < r.seq := by
        have hnle : ¬ r.seq ≤ state.cursor := by omega
        simp only [recordDone, hsinks, all_cons, all_nil, hs, ge_iff_le, hnle,
          if_false, Bool.and_true, Bool.and_eq_true, decide_eq_true_eq] at hdone
        exact hdone.2
      have howed : ∀ other c, owed (s.takes other) c r = (sink == other && decide (c < r.seq)) := by
        intro other c
        simp [owed, htakes]
      simp only [if_pos hc, setSink]
      refine ⟨rfl, rfl, rfl, rfl, fun other => ?_, ?_, ?_⟩
      · by_cases he : other = sink
        · subst he
          simp [hs, howed, hc]
        · have hne : sink ≠ other := fun h => he h.symm
          cases ho : s.sinks other <;> simp [Function.update_of_ne he, ho, howed, hne]
      · have hsum : ∀ other, s.usageOwed [r] other = if sink = other then r.isUsage.toNat else 0 := by
          intro other
          unfold usageOwed
          by_cases he : sink = other
          · subst he
            cases hu : r.isUsage <;> simp [hs, howed, hc, hu]
          · cases ho : s.sinks other <;> simp [howed, he]
        have hmem : sink ∈ (allSinks s.role s.hiveId).toFinset := by
          rw [List.mem_toFinset]
          have hin : sink ∈ sinksFor r.subject s.role s.hiveId := by
            have : sink ∈ s.sinksOf r.subject := by simp [hsinks]
            exact this
          exact mem_allSinks hin
        simp only [hsum, Finset.sum_ite_eq, hmem, if_true]
      · intro a ha other st hst ho
        rw [mem_singleton.mp ha] at ho ⊢
        rw [howed] at ho
        have he : sink = other := by
          have := (and_eq_true _ _).mp ho
          exact eq_of_beq this.1
        rw [← he, hs] at hst
        cases hst
        exact hflight
    · simp only [if_neg hc]
      refine dropped_of_not_owed fun other st hst => ?_
      by_cases he : sink = other
      · rw [← he, hs] at hst
        cases hst
        simp [owed, hc]
      · simp [owed, htakes, he]

theorem dropped_popRecord (hdone : s.recordDone r now = true) : Dropped s (s.popRecord r) [r] := by
  refine Dropped.releaseBytes ?_ r
  have hlen := sinksFor_length_le_one r.subject s.role s.hiveId
  match hs : s.sinksOf r.subject with
  | [] =>
    refine dropped_of_not_owed fun sink state _ => ?_
    simp [owed, takes, hs]
  | [sink] => exact dropped_expireFor hs hdone
  | _ :: _ :: _ =>
    unfold sinksOf at hs
    rw [hs] at hlen
    simp at hlen

theorem trimLoop_spec (now : ℕ) (s : Shared) (records : List Record) :
    ∃ dropped, records = dropped ++ (s.trimLoop now records).records ∧
      Dropped s (s.trimLoop now records) dropped := by
  induction records generalizing s with
  | nil => exact ⟨[], rfl, .nil []⟩
  | cons r rest ih =>
    unfold trimLoop
    split_ifs with hdone
    · obtain ⟨dropped, hrest, h⟩ := ih (s.popRecord r)
      exact ⟨r :: dropped, by rw [cons_append, ← hrest], (dropped_popRecord hdone).append h⟩
    · exact ⟨[], rfl, .nil _⟩

theorem trim_spec (s : Shared) (now : ℕ) :
    ∃ dropped, s.records = dropped ++ (s.trim now).1.records ∧ Dropped s (s.trim now).1 dropped :=
  trimLoop_spec now s s.records

end

section

section
variable (s : Shared)

/-- A record taken in gets the next sequence number and the end of the log, after a trim or none;
one that is dropped leaves at most a trim behind. -/
theorem takeIncoming_spec (c : Counters) (i : Incoming) (now : ℕ) :
    let r := i.toRecord s.nextSeq
    let out := s.takeIncoming c i now
    ∃ s₁ dropped, s.records = dropped ++ s₁.records ∧ Dropped s s₁ dropped ∧
      (out.1 = s₁ ∧ out.2.2 = none ∨ out.1 = s₁.pushRecord r ∧ out.2.2 = some r) := by
  intro r
  let s₁ := if s.fits r.source r.subject r.size then s else (s.trim now).1
  have htrim : ∃ dropped, s.records = dropped ++ s₁.records ∧ Dropped s s₁ dropped := by
    dsimp only [s₁]
    split_ifs
    · exact ⟨[], rfl, .nil _⟩
    · exact trim_spec s now
  obtain ⟨dropped, hrecords, hd⟩ := htrim
  refine ⟨s₁, dropped, hrecords, hd, ?_⟩
  by_cases hf : s₁.fits r.source r.subject r.size = true
  · refine .inr ?_
    simp only [takeIncoming]
    rw [if_pos hf]
    exact ⟨rfl, rfl⟩
  · refine .inl ?_
    simp only [takeIncoming]
    rw [if_neg hf]
    exact ⟨rfl, rfl⟩

section
variable (r : Record)

@[simp] theorem pushRecord_records : (s.pushRecord r).records = s.records ++ [r] := by
  unfold pushRecord
  cases r.source <;> rfl

@[simp] theorem pushRecord_nextSeq : (s.pushRecord r).nextSeq = s.nextSeq + 1 := by
  unfold pushRecord
  cases r.source <;> rfl

@[simp] theorem pushRecord_sinks : (s.pushRecord r).sinks = s.sinks := by
  unfold pushRecord
  cases r.source <;> rfl

@[simp] theorem pushRecord_usageLost : (s.pushRecord r).usageLost = s.usageLost := by
  unfold pushRecord
  cases r.source <;> rfl

@[simp] theorem pushRecord_role : (s.pushRecord r).role = s.role := by
  unfold pushRecord
  cases r.source <;> rfl

@[simp] theorem pushRecord_hiveId : (s.pushRecord r).hiveId = s.hiveId := by
  unfold pushRecord
  cases r.source <;> rfl

end

end

end

theorem acceptAck_bounds {reply : Reply} {cursor lastSeq scannedUpTo cursor' : ℕ}
    (hscan : lastSeq ≤ scannedUpTo)
    (h : acceptAck reply sink cursor lastSeq scannedUpTo = some cursor') :
    cursor < cursor' ∧ cursor' ≤ scannedUpTo := by
  unfold acceptAck at h
  cases hsrc : reply.srcL2Name with
  | none => simp [hsrc] at h
  | some src =>
    cases hup : reply.upToSeq with
    | none => simp [hsrc, hup] at h
    | some upTo =>
      simp only [hsrc, hup, bind_eq_bind, bind_some] at h
      split_ifs at h with h₁ h₂ h₃ h₄ <;> simp_all <;> omega

end Fluxbee.Stream
