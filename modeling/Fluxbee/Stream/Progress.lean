import Fluxbee.Stream.Conservation

/-! What one turn of the senders and the disk thread moves in the log, and what it leaves. -/
namespace Fluxbee.Stream
open List Shared

variable {sys : System}

/-- The sequence numbers and the cursors only move forward. -/
structure Advances (s s' : Shared) : Prop where
  role : s'.role = s.role
  hiveId : s'.hiveId = s.hiveId
  nextSeq_le : s.nextSeq ≤ s'.nextSeq
  cursor_le : ∀ sink ∈ allSinks s.role s.hiveId, s.cursor sink ≤ s'.cursor sink

theorem Advances.refl (s : Shared) : Advances s s := ⟨rfl, rfl, le_rfl, fun _ _ => le_rfl⟩

theorem Dropped.cursor_eq {s s' : Shared} {dropped : List Record} (h : Dropped s s' dropped)
    (sink : String) : s'.cursor sink = s.cursor sink := by
  unfold cursor
  rw [h.sinks]
  cases s.sinks sink <;> rfl

theorem Dropped.advances {s s' : Shared} {dropped : List Record} (h : Dropped s s' dropped) :
    Advances s s' :=
  ⟨h.role, h.hiveId, h.nextSeq.ge, fun sink _ => (h.cursor_eq sink).ge⟩

theorem trim_step (now : ℕ) : Advances sys.shared (sys.step (.trim now)).shared ∧
      (sys.step (.trim now)).shared.nextSeq = sys.shared.nextSeq ∧
      ∀ r ∈ (sys.step (.trim now)).shared.records, r ∈ sys.shared.records := by
  obtain ⟨dropped, hrecords, hd⟩ := trim_spec sys.shared now
  refine ⟨hd.advances, hd.nextSeq, fun r hr => ?_⟩
  rw [hrecords]
  exact mem_append_right _ hr

theorem append_step (i : Incoming) (now : ℕ) :
    let s' := (sys.step (.append i now)).shared
    Advances sys.shared s' ∧
      match (sys.shared.takeIncoming sys.counters i now).2.2 with
      | none => s'.nextSeq = sys.shared.nextSeq ∧ ∀ r ∈ s'.records, r ∈ sys.shared.records
      | some r => r = i.toRecord sys.shared.nextSeq ∧ s'.nextSeq = sys.shared.nextSeq + 1 ∧
          r ∈ s'.records ∧ ∀ q ∈ s'.records, q ∈ sys.shared.records ∨ q = r := by
  obtain ⟨s₁, dropped, hrecords, hd, htaken⟩ :=
    takeIncoming_spec sys.shared sys.counters i now
  have hsub : ∀ r ∈ s₁.records, r ∈ sys.shared.records := by
    intro r hr
    rw [hrecords]
    exact mem_append_right _ hr
  have hadv := hd.advances
  simp only [System.step]
  rcases htaken with ⟨hshared, hnone⟩ | ⟨hshared, hsome⟩
  · rw [hshared, hnone]
    exact ⟨hadv, hd.nextSeq, hsub⟩
  · rw [hshared, hsome]
    refine ⟨⟨?_, ?_, ?_, fun sink hsink => ?_⟩, rfl, ?_, ?_, fun q hq => ?_⟩
    · rw [pushRecord_role]; exact hadv.role
    · rw [pushRecord_hiveId]; exact hadv.hiveId
    · rw [pushRecord_nextSeq]
      exact hadv.nextSeq_le.trans (Nat.le_succ _)
    · have hcursor : (s₁.pushRecord (i.toRecord sys.shared.nextSeq)).cursor sink =
          s₁.cursor sink := by
        unfold cursor
        rw [pushRecord_sinks]
      rw [hcursor]
      exact hadv.cursor_le sink hsink
    · rw [pushRecord_nextSeq, hd.nextSeq]
    · simp
    · rw [pushRecord_records] at hq
      rcases mem_append.mp hq with hq | hq
      · exact .inl (hsub q hq)
      · exact .inr (mem_singleton.mp hq)

theorem advances_setSink {s : Shared} {sink : String} {state : SinkState} {usageLost : ℕ}
    (hle : s.cursor sink ≤ state.cursor) : Advances s { s.setSink sink state with usageLost } := by
  refine ⟨rfl, rfl, le_rfl, fun k _ => ?_⟩
  by_cases he : k = sink
  · subst he
    simpa [cursor, setSink] using hle
  · simp [cursor, setSink, Function.update_of_ne he]

theorem plan_step (h : sys.Inv) (sink : String) (now : ℕ) :
    let sys' := sys.step (.plan sink now)
    Advances sys.shared sys'.shared ∧ sys'.shared.nextSeq = sys.shared.nextSeq ∧
      sys'.shared.records = sys.shared.records ∧
      ∀ b, sys.inFlight sink = none → sys'.inFlight sink = some b →
        ∀ r ∈ b.records, r ∈ sys.shared.records := by
  have hinv' := h.plan sink now
  have hshared : ∃ s', (sys.step (.plan sink now)).shared = s' ∧ Advances sys.shared s' ∧
      s'.nextSeq = sys.shared.nextSeq ∧ s'.records = sys.shared.records := by
    unfold System.step
    by_cases hguard : sink ∈ allSinks sys.shared.role sys.shared.hiveId ∧
        (sys.inFlight sink).isNone = true
    · simp only [if_pos hguard]
      obtain ⟨state, hs⟩ := h.sinks sink hguard.1
      obtain ⟨st, hres, hplan, -, -⟩ := planBatch_spec now hs.state_eq h.increasing
      refine ⟨_, rfl, ?_⟩
      rw [hplan]
      refine ⟨advances_setSink ?_, rfl, rfl⟩
      rw [cursor_eq hs.state_eq]
      exact hres.cursor_le
    · simp only [if_neg hguard]
      exact ⟨_, rfl, .refl _, rfl, rfl⟩
  obtain ⟨s', hs', hadv, hnext, hrecords⟩ := hshared
  simp only
  rw [hs']
  refine ⟨hadv, hnext, hrecords, fun b _ hb r hr => ?_⟩
  obtain ⟨state, hs⟩ := hinv'.sinks sink (hinv'.senders sink b hb)
  rw [(hs.inFlight b hb).records_eq] at hr
  have := mem_of_mem_filter (mem_of_mem_filter hr)
  rwa [hs', hrecords] at this

theorem settle_step (h : sys.Inv) (sink : String) (reply : Option Reply) (now : ℕ) :
    let sys' := sys.step (.settle sink reply now)
    Advances sys.shared sys'.shared ∧ sys'.shared.nextSeq = sys.shared.nextSeq ∧
      sys'.shared.records = sys.shared.records := by
  cases hb : sys.inFlight sink with
  | none =>
    have hsame : sys.step (.settle sink reply now) = sys := by simp only [System.step, hb]
    rw [hsame]
    exact ⟨.refl _, rfl, rfl⟩
  | some b =>
    obtain ⟨state, hs⟩ := h.sinks sink (h.senders sink b hb)
    obtain ⟨state', hshared, hle, -⟩ := settleBatch_spec reply now hs.state_eq
      (hs.inFlight b hb).last_le (hs.cursor_lt_batch hb)
    simp only [System.step, hb, hshared]
    refine ⟨advances_setSink ?_, rfl, rfl⟩
    rw [cursor_eq hs.state_eq]
    exact hle

theorem System.Inv.advances (h : sys.Inv) (e : Event) : Advances sys.shared (sys.step e).shared := by
  cases e with
  | append incoming now => exact (append_step incoming now).1
  | trim now => exact (trim_step now).1
  | plan sink now => exact (plan_step h sink now).1
  | settle sink reply now => exact (settle_step h sink reply now).1

end Fluxbee.Stream
