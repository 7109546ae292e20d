import Fluxbee.Stream.Restarts

/-! Sequence identity: under one epoch a sink is handed one record for each sequence number, as long
as no restart goes on below what was handed under the epoch it keeps. -/
namespace Fluxbee.Stream
open List Option Function World Recovered

namespace World

/-- No sink was handed two different records under one epoch and number. -/
def HandsOnce (w : World) : Prop :=
  ∀ sink ∈ w.sinks, ∀ p ∈ w.handed sink, ∀ q ∈ w.handed sink,
    p.1 = q.1 → p.2.seq = q.2.seq → p.2 = q.2

/-- The epoch a restart would draw was neither handed out nor saved before. The source draws it from
a random UUID. -/
def FreshEpoch (w : World) (restart : Restart) : Prop :=
  (∀ sink ∈ w.sinks, ∀ p ∈ w.handed sink, p.1 ≠ newEpoch restart.uuid) ∧
    ∀ v ∈ w.stateFile, v.epoch ≠ some (newEpoch restart.uuid)

/-- What was handed under the saved epoch is below the saved next number, or not above the last
record decoded. -/
def HandedBelow (w : World) (restart : Restart) : Prop :=
  let state := w.survivingState restart
  ∀ sink ∈ w.sinks, ∀ p ∈ w.handed sink,
    p.1 = (state.epoch.filter (0 < ·)).getD (newEpoch restart.uuid) →
      p.2.seq < state.nextSeq.getD 1 ∨ p.2.seq ≤ lastOnDisk (w.crashedDir restart).sorted.decoded

end World

def IdentityEvent (w : World) (e : RouterEvent) : Prop :=
  OrderedEvent w e ∧ match e with
    | .restart restart =>
      w.FreshEpoch restart ∧ (restart.readable = true → w.HandedBelow restart)
    | _ => True

instance (w : World) (restart : Restart) : Decidable (w.FreshEpoch restart) :=
  inferInstanceAs (Decidable ((∀ sink ∈ w.sinks, ∀ p ∈ w.handed sink, p.1 ≠ newEpoch restart.uuid) ∧
    ∀ v ∈ w.stateFile, v.epoch ≠ some (newEpoch restart.uuid)))

instance (w : World) (restart : Restart) : Decidable (w.HandedBelow restart) :=
  inferInstanceAs (Decidable (∀ sink ∈ w.sinks, ∀ p ∈ w.handed sink, _ → _ ∨ _))

instance (w : World) : (e : RouterEvent) → Decidable (IdentityEvent w e)
  | .restart restart => inferInstanceAs (Decidable (OrderedEvent w (.restart restart) ∧
      w.FreshEpoch restart ∧ (restart.readable = true → w.HandedBelow restart)))
  | .take _ _ | .write _ | .fsync _ | .housekeep _ | .save _ | .trimDisk _ | .plan _ _
  | .settle _ _ _ => inferInstanceAs (Decidable (OrderedEvent w _ ∧ True))

/-- What holds of the records handed so far, in every world. -/
structure World.Identified (w : World) : Prop where
  ordered : w.Ordered
  once : w.HandsOnce
  epoch_pos : 0 < w.epoch
  saved_pos : ∀ v ∈ w.stateFile, ∀ epoch, v.epoch = some epoch → 0 < epoch
  saved_epoch : w.disk.isSome = true → ∀ v ∈ w.stateFile, ∀ epoch, v.epoch = some epoch →
    epoch = w.epoch
  memory_epoch : w.disk = none → ∀ v ∈ w.stateFile, v.epoch ≠ some w.epoch
  saving_disk : ∀ h, w.thread = .saving h → w.disk.isSome = true
  handed_lt : ∀ sink ∈ w.sinks, ∀ p ∈ w.handed sink, p.1 = w.epoch →
    p.2.seq < w.sys.shared.nextSeq
  /-- A record held or on disk is the one handed under its number. -/
  handed_held : ∀ sink ∈ w.sinks, ∀ p ∈ w.handed sink, p.1 = w.epoch →
    ∀ m ∈ w.sys.shared.records, m.seq = p.2.seq → m = p.2
  handed_disk : ∀ sink ∈ w.sinks, ∀ p ∈ w.handed sink,
    (w.disk.isSome = true ∧ p.1 = w.epoch ∨ ∃ v ∈ w.stateFile, v.epoch = some p.1) →
    ∀ d ∈ w.dir.decoded, d.seq = p.2.seq → d = p.2
  held_disk : w.disk.isSome = true → ∀ d ∈ w.dir.decoded, ∀ m ∈ w.sys.shared.records,
    d.seq = m.seq → d = m

theorem Increasing.eq_of_seq {records : List Record} (h : Increasing records) {a b : Record}
    (ha : a ∈ records) (hb : b ∈ records) (he : a.seq = b.seq) : a = b := by
  induction records with
  | nil => cases ha
  | cons r rest ih =>
    obtain ⟨hhead, htail⟩ := pairwise_cons.mp h
    rcases mem_cons.mp ha with ha | ha <;> rcases mem_cons.mp hb with hb | hb
    · rw [ha, hb]
    · have := hhead b hb
      rw [← ha] at this
      omega
    · have := hhead a ha
      rw [← hb] at this
      omega
    · exact ih htail ha hb

section

variable {w w' : World}

theorem World.Ordered.decoded_lt (h : w.Ordered) (hdisk : w.disk.isSome = true) :
    ∀ d ∈ w.dir.decoded, d.seq < w.sys.shared.nextSeq := by
  intro d hd
  obtain ⟨disk, hdisk⟩ := isSome_iff_exists.mp hdisk
  obtain ⟨f, hf, hd⟩ := mem_decoded.mp hd
  have hlt := (h.disk disk hdisk).below.decoded_lt f hf d hd
  unfold writeSeq at hlt
  cases ht : w.thread with
  | writing r =>
    rw [ht] at hlt
    have := (h.writing r ht).1
    simp only at hlt
    omega
  | idle | saving | trimming =>
    rw [ht] at hlt
    exact hlt

theorem World.Identified.keep (h : w.Identified) (hord : w'.Ordered)
    (hadv : Advances w.sys.shared w'.sys.shared) (hhanded : w'.handed = w.handed)
    (hepoch : w'.epoch = w.epoch) (hstate : w'.stateFile = w.stateFile)
    (hdisk : w'.disk.isSome = w.disk.isSome)
    (hsaving : ∀ k, w'.thread = .saving k → w.disk.isSome = true)
    (hrecords : ∀ m ∈ w'.sys.shared.records,
      m ∈ w.sys.shared.records ∨ w.sys.shared.nextSeq ≤ m.seq)
    (hdecoded : ∀ d ∈ w'.dir.decoded, d ∈ w.dir.decoded ∨
      w.disk.isSome = true ∧ d ∈ w'.sys.shared.records) : w'.Identified := by
  have hsinks := hadv.sinks_eq
  have hnone : w'.disk = none → w.disk = none := by
    intro hn
    rw [hn] at hdisk
    exact isNone_iff_eq_none.mp (by simpa using hdisk.symm)
  have hheld : ∀ sink ∈ w'.sinks, ∀ p ∈ w'.handed sink, p.1 = w'.epoch →
      ∀ m ∈ w'.sys.shared.records, m.seq = p.2.seq → m = p.2 := by
    rw [hsinks, hhanded, hepoch]
    intro sink hsink p hp he m hm heq
    rcases hrecords m hm with hm | hm
    · exact h.handed_held sink hsink p hp he m hm heq
    · have := h.handed_lt sink hsink p hp he
      omega
  refine ⟨hord, ?_, hepoch ▸ h.epoch_pos, hstate ▸ h.saved_pos, ?_, ?_, ?_, ?_, hheld, ?_, ?_⟩
  · unfold World.HandsOnce
    rw [hsinks, hhanded]
    exact h.once
  · rw [hdisk, hstate, hepoch]
    exact h.saved_epoch
  · rw [hstate, hepoch]
    exact fun hn => h.memory_epoch (hnone hn)
  · rw [hdisk]
    exact hsaving
  · rw [hsinks, hhanded, hepoch]
    exact fun sink hsink p hp he =>
      lt_of_lt_of_le (h.handed_lt sink hsink p hp he) hadv.nextSeq_le
  · intro sink hsink p hp hlive d hd heq
    rcases hdecoded d hd with hd' | ⟨hsome, hd'⟩
    · rw [hdisk, hepoch, hstate] at hlive
      exact h.handed_disk sink (hsinks ▸ hsink) p (hhanded ▸ hp) hlive d hd' heq
    · refine hheld sink hsink p hp ?_ d hd' heq
      rcases hlive with ⟨-, he⟩ | ⟨v, hv, he⟩
      · exact he
      · rw [hepoch]
        exact h.saved_epoch hsome v (hstate ▸ hv) p.1 he
  · intro hsome d hd m hm heq
    rw [hdisk] at hsome
    rcases hdecoded d hd with hd' | ⟨-, hd'⟩
    · rcases hrecords m hm with hm' | hm'
      · exact h.held_disk hsome d hd' m hm' heq
      · have := h.ordered.decoded_lt hsome d hd'
        omega
    · exact hord.sys.increasing.eq_of_seq hd' hm heq

theorem World.Identified.plan (h : w.Identified) (sink : String) (now : ℕ) (hord : ({ w with
      sys := w.sys.step (.plan sink now)
      handed := update w.handed sink (w.handed sink ++
        (newBatch w.sys (w.sys.step (.plan sink now)) sink).map fun r => (w.epoch, r)) } :
      World).Ordered) :
    ({ w with
      sys := w.sys.step (.plan sink now)
      handed := update w.handed sink (w.handed sink ++
        (newBatch w.sys (w.sys.step (.plan sink now)) sink).map fun r => (w.epoch, r)) } :
      World).Identified := by
  obtain ⟨hadv, hnext, hrecords, hbatch⟩ := plan_step h.ordered.sys sink now
  have hheld : ∀ r ∈ newBatch w.sys (w.sys.step (.plan sink now)) sink,
      r ∈ w.sys.shared.records := by
    intro r hr
    unfold newBatch at hr
    split_ifs at hr with hidle
    · cases hb : (w.sys.step (.plan sink now)).inFlight sink with
      | none =>
        rw [hb] at hr
        cases hr
      | some b =>
        rw [hb] at hr
        exact hbatch b (isNone_iff_eq_none.mp hidle) hb r hr
    · cases hr
  generalize newBatch w.sys (w.sys.step (.plan sink now)) sink = batch at hheld hord ⊢
  generalize w.sys.step (.plan sink now) = sys at hadv hnext hrecords hord ⊢
  have hsinks : ∀ k ∈ allSinks sys.shared.role sys.shared.hiveId, k ∈ w.sinks := by
    rw [hadv.role, hadv.hiveId]
    exact fun _ hk => hk
  -- what a sink was handed is what it was handed before, or held and under this epoch
  have hcases : ∀ k, ∀ p ∈ update w.handed sink
      (w.handed sink ++ batch.map fun r => (w.epoch, r)) k,
      p ∈ w.handed k ∨ p.1 = w.epoch ∧ p.2 ∈ w.sys.shared.records := by
    intro k p hp
    by_cases he : k = sink
    · subst he
      rw [update_self] at hp
      rcases mem_append.mp hp with hp | hp
      · exact .inl hp
      · obtain ⟨r, hr, rfl⟩ := List.mem_map.mp hp
        exact .inr ⟨rfl, hheld r hr⟩
    · rw [update_of_ne he] at hp
      exact .inl hp
  have hunique := fun a ha b hb => @Increasing.eq_of_seq _ h.ordered.sys.increasing a b ha hb
  refine ⟨hord, fun k hk p hp q hq he hseq => ?_, h.epoch_pos, h.saved_pos, h.saved_epoch,
    h.memory_epoch, h.saving_disk, fun k hk p hp he => ?_, fun k hk p hp he m hm hseq => ?_,
    fun k hk p hp hlive d hd hseq => ?_, fun hsome d hd m hm hseq => ?_⟩
  · have hk := hsinks k hk
    rcases hcases k p hp with hp | ⟨hpe, hp⟩ <;> rcases hcases k q hq with hq | ⟨hqe, hq⟩
    · exact h.once k hk p hp q hq he hseq
    · exact (h.handed_held k hk p hp (he.trans hqe) q.2 hq hseq.symm).symm
    · exact h.handed_held k hk q hq (he.symm.trans hpe) p.2 hp hseq
    · exact hunique _ hp _ hq hseq
  · simp only [hnext]
    rcases hcases k p hp with hp | ⟨-, hp⟩
    · exact h.handed_lt k (hsinks k hk) p hp he
    · exact h.ordered.sys.lt_nextSeq p.2 hp
  · have hm : m ∈ w.sys.shared.records := hrecords ▸ hm
    rcases hcases k p hp with hp | ⟨-, hp⟩
    · exact h.handed_held k (hsinks k hk) p hp he m hm hseq
    · exact hunique _ hm _ hp hseq
  · rcases hcases k p hp with hp | ⟨hpe, hp⟩
    · exact h.handed_disk k (hsinks k hk) p hp hlive d hd hseq
    · -- the epoch is this life's, so there is a disk
      have hsome : w.disk.isSome = true := by
        rcases hlive with ⟨hsome, -⟩ | ⟨v, hv, hve⟩
        · exact hsome
        · by_contra hnone
          have hnone : w.disk = none := by simpa using hnone
          exact h.memory_epoch hnone v hv (hpe ▸ hve)
      exact h.held_disk hsome d hd p.2 hp hseq
  · exact h.held_disk hsome d hd m (hrecords ▸ hm) hseq

theorem newEpoch_pos (uuid : ℕ) : 0 < newEpoch uuid := by
  unfold newEpoch
  omega

theorem ofLog_epoch (records : List Record) {state : SavedState} (epoch : ℕ) (sinks : List String)
    (hpos : ∀ e, state.epoch = some e → 0 < e) :
    (ofLog records state epoch sinks).epoch = state.epoch.getD epoch := by
  simp only [ofLog]
  cases he : state.epoch with
  | none => rfl
  | some e => simp [Option.filter, hpos e he]

namespace World

theorem identified_openOn {role hiveId : String} {dir : Dir} {state : SavedState}
    {restart : Restart} {handed : String → List (ℕ × Record)} (hdir : DirOk dir)
    (hord : (openOn role hiveId dir state restart handed).Ordered)
    (honce : ∀ sink ∈ allSinks role hiveId, ∀ p ∈ handed sink, ∀ q ∈ handed sink,
      p.1 = q.1 → p.2.seq = q.2.seq → p.2 = q.2) (hpos : ∀ e, state.epoch = some e → 0 < e)
    (hfresh : ∀ sink ∈ allSinks role hiveId, ∀ p ∈ handed sink, p.1 ≠ newEpoch restart.uuid)
    (hsaved : state.epoch ≠ some (newEpoch restart.uuid))
    (hagree : ∀ sink ∈ allSinks role hiveId, ∀ p ∈ handed sink, state.epoch = some p.1 →
      ∀ d ∈ dir.decoded, d.seq = p.2.seq → d = p.2)
    (hbelow : restart.readable = true → ∀ sink ∈ allSinks role hiveId, ∀ p ∈ handed sink,
      p.1 = (recover dir state (newEpoch restart.uuid) (allSinks role hiveId)).1.epoch →
      p.2.seq < (recover dir state (newEpoch restart.uuid) (allSinks role hiveId)).1.nextSeq) :
    (openOn role hiveId dir state restart handed).Identified := by
  revert hord
  unfold openOn
  by_cases hread : restart.readable = true
  · simp only [if_pos hread]
    obtain ⟨hrec, hdecoded⟩ := recover_records hdir state (newEpoch restart.uuid)
      (allSinks role hiveId)
    have hepoch : (recover dir state (newEpoch restart.uuid) (allSinks role hiveId)).1.epoch =
        state.epoch.getD (newEpoch restart.uuid) := by
      rw [hrec]
      exact ofLog_epoch _ _ _ hpos
    have hrecords : (recover dir state (newEpoch restart.uuid) (allSinks role hiveId)).1.records =
        dir.decoded := by
      rw [hrec]
      rfl
    have hbelow := hbelow hread
    generalize (recover dir state (newEpoch restart.uuid) (allSinks role hiveId)).2.2 = dir'
      at hdecoded ⊢
    generalize (recover dir state (newEpoch restart.uuid) (allSinks role hiveId)).1 = recovered
      at hepoch hrecords hbelow ⊢
    intro hord
    obtain ⟨hrole, hhive, hnext, -, hheld⟩ := start_shared role hiveId recovered restart.now
    generalize System.start role hiveId recovered restart.now = sys
      at hrole hhive hnext hheld hord ⊢
    have hsinks : ∀ k ∈ allSinks sys.shared.role sys.shared.hiveId, k ∈ allSinks role hiveId := by
      rw [hrole, hhive]
      exact fun _ hk => hk
    -- handed under the epoch kept: that epoch was saved
    have hkept : ∀ sink ∈ allSinks role hiveId, ∀ p ∈ handed sink, p.1 = recovered.epoch →
        state.epoch = some p.1 := by
      intro sink hsink p hp he
      rw [hepoch] at he
      cases hs : state.epoch with
      | none =>
        rw [hs] at he
        exact absurd he (hfresh sink hsink p hp)
      | some e =>
        rw [hs] at he
        exact congrArg some he.symm
    refine ⟨hord, fun k hk => honce k (hsinks k hk), ?_, fun v hv => ?_, fun _ v hv e he => ?_,
      by simp, by simp, fun k hk p hp he => ?_,
      fun k hk p hp he m hm hseq => ?_, fun k hk p hp hlive d hd hseq => ?_,
      fun _ d hd m hm hseq => ?_⟩
    · simp only [hepoch]
      cases hs : state.epoch with
      | none => exact newEpoch_pos _
      | some e => exact hpos e hs
    · rw [mem_singleton.mp hv]
      exact hpos
    · rw [mem_singleton.mp hv] at he
      simp only [hepoch, he, getD_some]
    · simp only [hnext]
      exact hbelow k (hsinks k hk) p hp he
    · exact hagree k (hsinks k hk) p hp (hkept k (hsinks k hk) p hp he) m
        (hrecords ▸ hheld m hm) hseq
    · have hd : d ∈ dir.decoded := hdecoded ▸ hd
      refine hagree k (hsinks k hk) p hp ?_ d hd hseq
      rcases hlive with ⟨-, he⟩ | ⟨v, hv, he⟩
      · exact hkept k (hsinks k hk) p hp he
      · rw [mem_singleton.mp hv] at he
        exact he
    · exact hdir.increasing_decoded.eq_of_seq (hdecoded ▸ hd) (hrecords ▸ hheld m hm) hseq
  · simp only [if_neg hread]
    have hepoch : (ofLog [] .absent (newEpoch restart.uuid) (allSinks role hiveId)).epoch =
        newEpoch restart.uuid := rfl
    generalize ofLog [] .absent (newEpoch restart.uuid) (allSinks role hiveId) = recovered
      at hepoch ⊢
    intro hord
    obtain ⟨hrole, hhive, -⟩ := start_shared role hiveId recovered restart.now
    generalize System.start role hiveId recovered restart.now = sys at hrole hhive hord ⊢
    have hsinks : ∀ k ∈ allSinks sys.shared.role sys.shared.hiveId, k ∈ allSinks role hiveId := by
      rw [hrole, hhive]
      exact fun _ hk => hk
    refine ⟨hord, fun k hk => honce k (hsinks k hk), ?_, fun v hv => ?_, by simp,
      fun _ v hv => ?_, by simp, fun k hk p hp he => ?_, fun k hk p hp he => ?_,
      fun k hk p hp hlive d hd hseq => ?_, by simp⟩
    · simp only [hepoch]
      exact newEpoch_pos _
    · rw [mem_singleton.mp hv]
      exact hpos
    · rw [mem_singleton.mp hv]
      simp only [hepoch]
      exact hsaved
    · exact absurd (he.trans hepoch) (hfresh k (hsinks k hk) p hp)
    · exact absurd (he.trans hepoch) (hfresh k (hsinks k hk) p hp)
    · refine hagree k (hsinks k hk) p hp ?_ d hd hseq
      rcases hlive with ⟨hn, -⟩ | ⟨v, hv, he⟩
      · cases hn
      · rw [mem_singleton.mp hv] at he
        exact he

theorem Identified.restart (h : w.Identified) {restart : Restart}
    (hok : IdentityEvent w (.restart restart))
    (hord : (openOn w.sys.shared.role w.sys.shared.hiveId (w.crashedDir restart)
      (w.survivingState restart) restart w.handed).Ordered) :
    (openOn w.sys.shared.role w.sys.shared.hiveId (w.crashedDir restart)
      (w.survivingState restart) restart w.handed).Identified := by
  obtain ⟨hfresh, hbelow⟩ := hok.2
  have habsent : SavedState.absent.epoch = none := rfl
  refine identified_openOn (h.ordered.order.crash restart.keep) hord h.once ?_ hfresh.1 ?_ ?_
    fun hread sink hsink p hp hepoch => ?_
  · rcases survivingState_mem w restart with hv | hv
    · exact h.saved_pos _ hv
    · rw [hv, habsent]
      simp
  · rcases survivingState_mem w restart with hv | hv
    · exact hfresh.2 _ hv
    · rw [hv, habsent]
      simp
  · intro sink hsink p hp he d hd hseq
    rcases survivingState_mem w restart with hv | hv
    · exact h.handed_disk sink hsink p hp (.inr ⟨_, hv, he⟩) d (decoded_crash restart.keep d hd) hseq
    · rw [hv, habsent] at he
      cases he
  · have hseq := hbelow hread sink hsink p hp hepoch
    change p.2.seq < max (max _ (_ + 1)) 1
    omega

theorem Identified.save {k : Housekeeping} {keepFrom : ℕ} {nothingLeft : Bool}
    (h : w.Identified) (hk : w.thread = .saving k)
    (hord : (w.saved k keepFrom nothingLeft).Ordered) :
    (w.saved k keepFrom nothingLeft).Identified := by
  have hsome := h.saving_disk k hk
  have hnew : (SavedState.ofCursors w.epoch k.nextSeq k.cursors).epoch = some w.epoch := rfl
  refine ⟨hord, h.once, h.epoch_pos, fun v hv e he => ?_, fun _ v hv e he => ?_, fun hn => ?_,
    nofun, h.handed_lt, h.handed_held, fun sink hsink p hp hlive => ?_,
    h.held_disk⟩
  · rcases mem_cons.mp hv with rfl | hv
    · rw [hnew] at he
      exact Option.some.inj he ▸ h.epoch_pos
    · exact h.saved_pos v hv e he
  · rcases mem_cons.mp hv with rfl | hv
    · rw [hnew] at he
      exact (Option.some.inj he).symm
    · exact h.saved_epoch hsome v hv e he
  · have hn : w.disk = none := hn
    rw [hn] at hsome
    cases hsome
  · refine h.handed_disk sink hsink p hp ?_
    rcases hlive with hlive | ⟨v, hv, he⟩
    · exact .inl hlive
    · rcases mem_cons.mp hv with rfl | hv
      · rw [hnew] at he
        exact .inl ⟨hsome, (Option.some.inj he).symm⟩
      · exact .inr ⟨v, hv, he⟩

theorem identified_init (role hiveId : String) (restart : Restart) :
    (init role hiveId restart).Identified := by
  refine identified_openOn .nil (ordered_init role hiveId restart) ?_ ?_ ?_ ?_ ?_ ?_
  · exact fun _ _ p hp => (by cases hp)
  · exact fun e he => (by cases he)
  · exact fun _ _ p hp => (by cases hp)
  · exact fun he => (by cases he)
  · exact fun _ _ p hp => (by cases hp)
  · exact fun _ _ _ p hp => (by cases hp)

theorem Identified.turn {e : RouterEvent} (h : w.Identified) (hok : IdentityEvent w e)
    (ht : Turn w e w') : w'.Identified := by
  have hord := h.ordered.turn hok.1 ht
  cases ht with
  | stutter => exact h
  | @refused i now idle taken =>
    obtain ⟨hadv, happend⟩ := @append_step w.sys i now
    rw [taken] at happend
    exact h.keep hord hadv rfl rfl rfl rfl (by simp)
      (fun m hm => .inl (happend.2 m hm)) (fun _ => .inl)
  | @taken i now r idle taken =>
    obtain ⟨hadv, happend⟩ := @append_step w.sys i now
    rw [taken] at happend
    obtain ⟨hr, -, -, hheld⟩ := happend
    refine h.keep hord hadv rfl rfl rfl rfl (by simp) (fun m hm => ?_) (fun _ => .inl)
    rcases hheld m hm with hm | rfl
    · exact .inl hm
    · rw [hr]
      exact .inr (Nat.le_refl _)
  | @written io r d writing disk =>
    obtain ⟨-, hrep, hmem⟩ := h.ordered.writing r writing
    have hw : w.writeSeq = r.seq := by simp only [writeSeq, writing]
    have hdisk := h.ordered.disk d disk
    rw [hw] at hdisk
    refine h.keep hord (.refl _) rfl rfl rfl (by simp [disk]) (by simp)
      (fun _ => .inl) (fun q hq => ?_)
    rcases (appended_append io hrep hdisk).decoded q hq with hq | rfl
    · exact .inl hq
    · exact .inr ⟨by simp [disk], hmem⟩
  | inMemory | kept | nothingToTrim =>
    exact h.keep hord (.refl _) rfl rfl rfl rfl (by simp) (fun _ => .inl) (fun _ => .inl)
  | @fsynced ok d idle disk seq =>
    have hdisk := h.ordered.disk d disk
    exact h.keep hord ⟨rfl, rfl, le_rfl, fun _ _ => le_rfl⟩ rfl rfl rfl (by simp [disk])
      h.saving_disk (fun _ => .inl)
      (fun q hq => .inl ((hdisk.fsync ok).2 q hq))
  | @housekept now thread idle next =>
    obtain ⟨hadv, -, hheld⟩ := @trim_step w.sys now
    refine h.keep hord hadv rfl rfl rfl rfl (fun k hk => ?_) (fun m hm => .inl (hheld m hm))
      (fun _ => .inl)
    have hk : thread = .saving k := hk
    rcases next with rfl | ⟨hsome, -⟩
    · cases hk
    · exact hsome
  | saved saving => exact h.save saving hord
  | @trimmed removeOk d keepFrom nothingLeft trimming disk =>
    have hdisk := h.ordered.disk d disk
    exact h.keep hord (.refl _) rfl rfl rfl (by simp [disk]) (by simp) (fun _ => .inl)
      (fun q hq => .inl ((hdisk.trim keepFrom nothingLeft removeOk).2 q hq))
  | plan sink now => exact h.plan sink now hord
  | settle sink reply now =>
    obtain ⟨hadv, -, hrecords⟩ := settle_step h.ordered.sys sink reply now
    exact h.keep hord hadv rfl rfl rfl rfl h.saving_disk
      (fun m hm => .inl (hrecords ▸ hm)) (fun _ => .inl)
  | restart restart => exact h.restart hok hord

end World

end

/-- Epochs drawn being new, a stream hands each number once under an epoch as long as no restart
goes on below the name of a segment or below what was handed under the epoch it keeps. -/
theorem hands_once_of_handed_below {role hiveId : String} {first : Restart} {w : World}
    (h : Reaches IdentityEvent (World.init role hiveId first) w) : w.HandsOnce :=
  (h.invariant (World.identified_init role hiveId first) fun _ _ _ hw hok ht => hw.turn hok ht).once

/-- A record synced before it is sent, the state saved, a crash, and another record sent. -/
def syncedThenHandedRun : List RouterEvent :=
  [.take (storageTurn "A") 0, .write writeDone, .fsync true, .housekeep 0, .save true,
    .trimDisk fun _ => true, .plan "SY.storage@motherbee" 0, .restart (plainRestart 0 2),
    .take (storageTurn "B") 0, .write writeDone, .plan "SY.storage@motherbee" 0]

theorem hands_once_synced_then_handed :
    RunOk IdentityEvent (World.init "worker" "h" (plainRestart 0 1)) syncedThenHandedRun ∧
      ((World.init "worker" "h" (plainRestart 0 1)).run syncedThenHandedRun).HandsOnce := by
  have hok : RunOk IdentityEvent (World.init "worker" "h" (plainRestart 0 1))
      syncedThenHandedRun := by
    decide +kernel
  exact ⟨hok, hands_once_of_handed_below (Reaches.refl.run hok)⟩

/-- The state is saved, a record is sent before it is synced, and a crash loses it: the next record
takes its number under the same epoch. -/
def handedThenLostRun : List RouterEvent :=
  [.housekeep 0, .save true, .trimDisk fun _ => true, .take (storageTurn "A") 0, .write writeDone,
    .plan "SY.storage@motherbee" 0, .restart (plainRestart 0 2), .take (storageTurn "B") 0,
    .write writeDone, .plan "SY.storage@motherbee" 0]

theorem not_hands_once_handed_then_lost :
    ¬ ((World.init "worker" "h" (plainRestart 0 1)).run handedThenLostRun).HandsOnce := by
  intro h
  have hsink : "SY.storage@motherbee" ∈
      ((World.init "worker" "h" (plainRestart 0 1)).run handedThenLostRun).sinks := by
    decide +kernel
  have hhanded : ((World.init "worker" "h" (plainRestart 0 1)).run handedThenLostRun).handed
      "SY.storage@motherbee" =
        [(1, (storageTurn "A").toRecord 1), (1, (storageTurn "B").toRecord 1)] := by
    decide +kernel
  have hfirst : (1, (storageTurn "A").toRecord 1) ∈ ((World.init "worker" "h"
      (plainRestart 0 1)).run handedThenLostRun).handed "SY.storage@motherbee" := by
    rw [hhanded]
    exact mem_cons_self
  have hsecond : (1, (storageTurn "B").toRecord 1) ∈ ((World.init "worker" "h"
      (plainRestart 0 1)).run handedThenLostRun).handed "SY.storage@motherbee" := by
    rw [hhanded]
    exact mem_cons_of_mem _ mem_cons_self
  have heq := h _ hsink _ hfirst _ hsecond rfl rfl
  revert heq
  decide

end Fluxbee.Stream
