import Fluxbee.Stream.Restarts

/-! Which records a plan sends: on a log in the order of its numbers, those that the sink takes next,
within both budgets; a plan without a batch brings the cursor to the end of the log. The stream
holds such a log as long as no restart finds a segment named above its next number. -/
namespace Fluxbee.Stream
open List

section
variable {st st' : PlanState} {r : Record} {takes : Record → Bool} {cursor now : ℕ}

/-- A batch keeps to both of its budgets. -/
structure PlanState.Within (st : PlanState) : Prop where
  bytes_eq : st.bytes = batchEnvelopeBytes + (st.out.map Record.batchSize).sum
  bytes_le : st.bytes ≤ streamBatchMaxBytes
  length_le : st.out.length ≤ streamBatchMaxRecords

theorem PlanState.Within.planRecord (h : st.Within)
    (hstep : planRecord takes cursor now st r = some st') : st'.Within := by
  unfold Stream.planRecord at hstep
  split_ifs at hstep with hpast hother hout hlost hkept hfull
  · cases hstep
    exact h
  · cases hstep
    exact ⟨h.bytes_eq, h.bytes_le, h.length_le⟩
  · cases hstep
    exact ⟨h.bytes_eq, h.bytes_le, h.length_le⟩
  · cases hstep
    exact ⟨h.bytes_eq, h.bytes_le, h.length_le⟩
  · cases hstep
    have hbytes := h.bytes_eq
    have hsmall : ¬ r.tooBig = true := fun hbig => hlost (by rw [hbig, Bool.or_true])
    have hroom : st.out ≠ [] → st.out.length < streamBatchMaxRecords ∧
        st.bytes + r.batchSize ≤ streamBatchMaxBytes := by
      intro hne
      simpa [hne] using hfull
    refine ⟨by simp [hbytes, Nat.add_assoc], ?_, ?_⟩
    · by_cases hnil : st.out = []
      · rw [hnil, map_nil, sum_nil] at hbytes
        simp only [Record.tooBig, decide_eq_true_eq] at hsmall
        show st.bytes + r.batchSize ≤ streamBatchMaxBytes
        omega
      · exact (hroom hnil).2
    · by_cases hnil : st.out = []
      · simp [hnil, streamBatchMaxRecords]
      · rw [length_append]
        exact (hroom hnil).1

end

/-- What a plan answers: a batch of the sink's next records, or the end of the log. -/
def BatchPlan.Fits (s : Shared) (sink : String) (cursor cursor' : ℕ) : BatchPlan → Prop
  | .idle => cursor' = cursor ∧ ∀ r ∈ s.records, r.seq ≤ cursor'
  | .skipped => cursor < cursor' ∧ ∀ r ∈ s.records, r.seq ≤ cursor'
  | .send records lastSeq scannedUpTo =>
    records = s.records.filter (fun r => s.takes sink r ∧ cursor' < r.seq ∧ r.seq ≤ lastSeq) ∧
      records.getLast?.map Record.seq = some lastSeq ∧ Increasing records ∧
      records.length ≤ streamBatchMaxRecords ∧
      batchEnvelopeBytes + (records.map Record.batchSize).sum ≤ streamBatchMaxBytes ∧
      ∀ r ∈ s.records, s.takes sink r → lastSeq < r.seq → scannedUpTo < r.seq

structure Shared.PlanFits (s : Shared) (sink : String) (now : ℕ) : Prop where
  fits : (s.planBatch sink now).2.Fits s sink (s.cursor sink) ((s.planBatch sink now).1.cursor sink)

theorem Shared.PlanFits.increasing {s : Shared} {sink : String} {now lastSeq scannedUpTo : ℕ}
    {records : List Record} (h : s.PlanFits sink now)
    (hplan : (s.planBatch sink now).2 = .send records lastSeq scannedUpTo) : Increasing records := by
  have hfits := h.fits
  rw [hplan] at hfits
  exact hfits.2.2.1

end Fluxbee.Stream
