import Fluxbee.WfRules.Published

/-! Deploys, all or nothing: what an apply and a rollback leave of the three slots, wherever one of
their file operations or the publish is the last thing done. -/
namespace Fluxbee.WfRules
open Store

variable {D : Type}

def Store.applied (s : Store D) : Store D := ⟨none, s.staged, s.current⟩

def Store.rolledBack (s : Store D) : Store D := ⟨s.current, s.backup, none⟩

/-- All is as it was, or the rotation is whole and its package published. -/
def AllOrNothing (w : Workflow D) (rotated : Store D) (w' : Workflow D) : Prop :=
  w' = w ∨ w'.store = rotated ∧ ∃ number definition,
    rotated.current = some ⟨some definition, some number⟩ ∧
      w'.published = w.published ++ [(number, definition)]

/-- A rotation that clears one slot ends with all as it was: it removed nothing, and was cut off there
or could not rename the current slot to the one that is left. -/
def Untouched (s : Store D) (cleared : Option (Slot D)) (removal : Removal) (progress : Progress) :
    Prop :=
  removeAll cleared removal = cleared ∧
    (progress = .removed ∨ s.current.isSome ∧ cleared.isSome)

/-- It is whole: the cleared slot is gone and both renames are done, or the one there is to do. -/
def Rotates (s : Store D) (cleared : Option (Slot D)) (removal : Removal) (progress : Progress) :
    Prop :=
  removeAll cleared removal = none ∧
    (progress = .whole ∨ progress = .renamed ∧ s.current = none)

/-- The publish reaches the admin, and the dist tree does not hold the version with another
definition. -/
def Workflow.Publishes (w : Workflow D) (filled : Option (Slot D)) (publish : Publish) : Prop :=
  (∃ removed, publish = .published removed) ∧
    ∀ number definition installed, filled = some ⟨some definition, some number⟩ →
      w.dist.lookup number = some installed → installed = definition

section
variable {s : Store D} {removal : Removal} {progress : Progress}

theorem rotateToApply_through (h : (s.rotateToApply removal progress).2 = true) :
    (s.rotateToApply removal progress).1 =
      ⟨none, s.staged, s.current.or (removeAll s.backup removal)⟩ := by
  unfold rotateToApply at h ⊢
  cases hcurrent : s.current with
  | none | some current =>
    rw [hcurrent] at h
    dsimp only at h ⊢
    split_ifs at h ⊢
    rfl

theorem rotateToApply_untouched_iff :
    (s.rotateToApply removal progress).2 = false ∧ (s.rotateToApply removal progress).1 = s ↔
      Untouched s s.backup removal progress := by
  obtain ⟨staged, current, backup⟩ := s
  unfold Untouched rotateToApply
  cases progress <;> cases current <;> cases removeAll backup removal <;> cases backup <;> simp

theorem rotateToApply_rotates_iff :
    (s.rotateToApply removal progress).2 = true ∧
        (s.rotateToApply removal progress).1 = s.applied ↔ Rotates s s.backup removal progress := by
  obtain ⟨staged, current, backup⟩ := s
  unfold Rotates rotateToApply applied
  cases progress <;> cases current <;> cases removeAll backup removal <;> simp

def Store.swap (s : Store D) : Store D := ⟨s.backup, s.current, s.staged⟩

/-- A rollback rotates as an apply does, with the staged slot and the backup in each other's place. -/
theorem rotateToRollback_swap : s.rotateToRollback removal progress =
    ((s.swap.rotateToApply removal progress).1.swap,
      (s.swap.rotateToApply removal progress).2) := by
  unfold rotateToRollback rotateToApply swap
  cases s.current <;> dsimp only <;> split_ifs <;> rfl

theorem swap_eq_iff {s t : Store D} : s.swap = t ↔ s = t.swap :=
  ⟨fun h => h ▸ rfl, fun h => h ▸ rfl⟩

theorem rotateToRollback_through (h : (s.rotateToRollback removal progress).2 = true) :
    (s.rotateToRollback removal progress).1 =
      ⟨s.current.or (removeAll s.staged removal), s.backup, none⟩ := by
  rw [rotateToRollback_swap] at h ⊢
  exact congrArg swap (rotateToApply_through h)

theorem rotateToRollback_untouched_iff :
    (s.rotateToRollback removal progress).2 = false ∧
        (s.rotateToRollback removal progress).1 = s ↔ Untouched s s.staged removal progress := by
  rw [rotateToRollback_swap, swap_eq_iff]
  exact rotateToApply_untouched_iff

theorem rotateToRollback_rotates_iff :
    (s.rotateToRollback removal progress).2 = true ∧
        (s.rotateToRollback removal progress).1 = s.rolledBack ↔
      Rotates s s.staged removal progress := by
  rw [rotateToRollback_swap, swap_eq_iff]
  exact rotateToApply_rotates_iff

end

section
variable [DecidableEq D] {w : Workflow D} {rotated : Store D × Bool} {publish : Publish} {n : ℕ}
  {d : D}

theorem publishCurrent_store : (w.publishCurrent rotated publish).store = rotated.1 := by
  unfold Workflow.publishCurrent
  dsimp only
  split
  · split <;> rfl
  · rfl

theorem through_of_published {w' : Workflow D} (hran : w' = w.publishCurrent rotated publish)
    (h : w'.published ≠ w.published) : rotated.2 = true ∧ w'.store = rotated.1 := by
  subst hran
  refine ⟨?_, publishCurrent_store⟩
  obtain ⟨store, through⟩ := rotated
  cases through with
  | false => exact absurd rfl h
  | true => rfl

theorem installPackageFiles_isSome_iff {dist : List (ℕ × D)} :
    (installPackageFiles dist n d).isSome ↔
      ∀ installed, dist.lookup n = some installed → installed = d := by
  unfold installPackageFiles
  cases dist.lookup n with
  | none => simp
  | some installed => by_cases hsame : installed = d <;> simp [hsame]

/-- What goes through publishes the slot that became the current one, or nothing. -/
theorem publishCurrent_published (w : Workflow D) (publish : Publish) {store : Store D}
    (h : store.current = some ⟨some d, some n⟩) :
    (w.publishCurrent (store, true) publish).published = w.published ++ [(n, d)] ∧
        w.Publishes store.current publish ∨
      (w.publishCurrent (store, true) publish).published = w.published ∧
        ¬ w.Publishes store.current publish := by
  have hiff : w.Publishes store.current publish ↔
      (∃ removed, publish = .published removed) ∧ (installPackageFiles w.dist n d).isSome := by
    rw [installPackageFiles_isSome_iff, h]
    unfold Workflow.Publishes
    refine and_congr_right fun _ => ⟨fun hall installed => hall n d installed rfl, ?_⟩
    rintro hall number definition installed ⟨⟩
    exact hall installed
  rw [hiff]
  cases publish with
  | failed => exact .inr ⟨rfl, fun hpublished => nomatch hpublished.1⟩
  | published removed =>
    unfold Workflow.publishCurrent
    dsimp only
    rw [h]
    cases hinstall : installPackageFiles w.dist n d with
    | none => simp [version, hinstall]
    | some dist => simp [version, hinstall]

/-- Of a rotation that changes the slots whenever it goes through. -/
theorem allOrNothing_publishCurrent {target : Store D} (htarget : target.current = some ⟨some d, some n⟩)
    (hcurrent : rotated.2 = true → rotated.1.current = target.current)
    (hmoved : rotated.2 = true → rotated.1 ≠ w.store) :
    AllOrNothing w target (w.publishCurrent rotated publish) ↔
      rotated.2 = false ∧ rotated.1 = w.store ∨
        (rotated.2 = true ∧ rotated.1 = target) ∧ w.Publishes target.current publish := by
  obtain ⟨store, through⟩ := rotated
  cases through with
  | false =>
    have hran : w.publishCurrent (store, false) publish = { w with store := store } := rfl
    rw [hran]
    constructor
    · rintro (hsame | ⟨-, number, definition, -, hpublished⟩)
      · exact .inl ⟨rfl, congrArg Workflow.store hsame⟩
      · exact absurd hpublished (by simp)
    · rintro (⟨-, rfl⟩ | ⟨⟨hthrough, -⟩, -⟩)
      · exact .inl rfl
      · cases hthrough
  | true =>
    have hstore := hcurrent rfl
    have hmoved : store ≠ w.store := hmoved rfl
    have hran : (w.publishCurrent (store, true) publish).store = store := publishCurrent_store
    have hpublished := publishCurrent_published w publish (hstore.trans htarget)
    change store.current = target.current at hstore
    rw [hstore] at hpublished
    constructor
    · rintro (hsame | ⟨hstored, number, definition, -, hgrown⟩)
      · exact absurd (hran.symm.trans (congrArg Workflow.store hsame)) hmoved
      · refine .inr ⟨⟨rfl, hran.symm.trans hstored⟩, ?_⟩
        rcases hpublished with ⟨-, hgoes⟩ | ⟨hkept, -⟩
        · exact hgoes
        · rw [hkept] at hgrown
          exact absurd hgrown (by simp)
    · rintro (⟨hthrough, -⟩ | ⟨⟨-, hstored⟩, hgoes⟩)
      · cases hthrough
      · rcases hpublished with ⟨hgrown, -⟩ | ⟨-, hnot⟩
        · exact .inr ⟨hran.trans hstored, n, d, htarget, hgrown⟩
        · exact absurd hgoes hnot

end

section
variable [DecidableEq D] {w : Workflow D} {loads : D → Bool} {requested : ℕ} {removal : Removal}
  {progress : Progress} {publish : Publish}

theorem apply_allOrNothing_iff :
    AllOrNothing w w.store.applied (w.apply loads requested removal progress publish) ↔
      w.ApplyRefused loads requested ∨ Untouched w.store w.store.backup removal progress ∨
        Rotates w.store w.store.backup removal progress ∧ w.Publishes w.store.staged publish := by
  by_cases hrefused : w.ApplyRefused loads requested
  · rw [w.apply_refused hrefused]
    exact iff_of_true (.inl rfl) (.inl hrefused)
  · obtain ⟨⟨n, d, hslot⟩, hran⟩ := w.apply_runs hrefused
    rw [hran, allOrNothing_publishCurrent (n := n) (d := d) hslot, rotateToApply_untouched_iff,
      rotateToApply_rotates_iff, or_iff_right hrefused]
    · rfl
    · intro hthrough
      rw [rotateToApply_through hthrough]
      rfl
    · intro hthrough heq
      rw [rotateToApply_through hthrough] at heq
      have hstaged : none = w.store.staged := congrArg Store.staged heq
      rw [hslot] at hstaged
      cases hstaged

theorem rollback_allOrNothing_iff :
    AllOrNothing w w.store.rolledBack (w.rollback loads removal progress publish) ↔
      w.RollbackRefused loads ∨ Untouched w.store w.store.staged removal progress ∨
        Rotates w.store w.store.staged removal progress ∧ w.Publishes w.store.backup publish := by
  by_cases hrefused : w.RollbackRefused loads
  · rw [w.rollback_refused hrefused]
    exact iff_of_true (.inl rfl) (.inl hrefused)
  · obtain ⟨⟨n, d, hslot⟩, hran⟩ := w.rollback_runs hrefused
    rw [hran, allOrNothing_publishCurrent (n := n) (d := d) hslot, rotateToRollback_untouched_iff,
      rotateToRollback_rotates_iff, or_iff_right hrefused]
    · rfl
    · intro hthrough
      rw [rotateToRollback_through hthrough]
      rfl
    · intro hthrough heq
      rw [rotateToRollback_through hthrough] at heq
      have hbackup : none = w.store.backup := congrArg Store.backup heq
      rw [hslot] at hbackup
      cases hbackup

end

/-- An apply and a rollback are all or nothing exactly if they are refused, leave the slots as they
were, or rotate them whole and get their package into the dist tree. Of two that both published, the
rollback takes the apply back exactly if there was a current slot or the backup was removed. -/
theorem deploys_all_or_nothing_iff {D : Type} [DecidableEq D] (loads : D → Bool) (w : Workflow D)
    (requested : ℕ) (removal : Removal) (progress : Progress) (publish : Publish) :
    (AllOrNothing w w.store.applied (w.apply loads requested removal progress publish) ↔
      w.ApplyRefused loads requested ∨ Untouched w.store w.store.backup removal progress ∨
        Rotates w.store w.store.backup removal progress ∧ w.Publishes w.store.staged publish) ∧
    (AllOrNothing w w.store.rolledBack (w.rollback loads removal progress publish) ↔
      w.RollbackRefused loads ∨ Untouched w.store w.store.staged removal progress ∨
        Rotates w.store w.store.staged removal progress ∧ w.Publishes w.store.backup publish) ∧
    ∀ removal' progress' publish',
      let applied := w.apply loads requested removal progress publish
      let back := applied.rollback loads removal' progress' publish'
      applied.published ≠ w.published → back.published ≠ applied.published →
        (back.store.current = w.store.current ∧ back.store.staged = w.store.staged ↔
          w.store.current.isSome ∨ removeAll w.store.backup removal = none) := by
  refine ⟨apply_allOrNothing_iff, rollback_allOrNothing_iff, ?_⟩
  intro removal' progress' publish' applied back happlied hback
  obtain ⟨⟨n, d, hslot⟩, hran⟩ := w.apply_runs fun hrefused =>
    happlied (congrArg Workflow.published (w.apply_refused hrefused))
  obtain ⟨-, hran'⟩ := applied.rollback_runs fun hrefused =>
    hback (congrArg Workflow.published (applied.rollback_refused hrefused))
  obtain ⟨hthrough, hstore⟩ := through_of_published hran happlied
  obtain ⟨hthrough', hstore'⟩ := through_of_published hran' hback
  rw [rotateToApply_through hthrough] at hstore
  rw [rotateToRollback_through hthrough', hstore, hslot] at hstore'
  rw [hstore', hslot]
  refine (and_iff_left rfl).trans ?_
  dsimp only
  cases w.store.current with
  | none => simp
  | some current => simp

namespace Deployed

def workflow : Workflow ℕ := ⟨⟨some ⟨some 20, some 2⟩, some ⟨some 10, some 1⟩, none⟩, [], []⟩

def apply (w : Workflow ℕ) (removal : Removal) (progress : Progress) (publish : Publish) :
    Workflow ℕ :=
  w.apply (fun _ => true) 0 removal progress publish

def headless : Workflow ℕ := ⟨⟨some ⟨some 20, some 2⟩, none, some ⟨some 10, some 1⟩⟩, [], []⟩

end Deployed

open Deployed in
/-- A publish that fails leaves the rotation done, nothing published and nothing to apply again. An
apply cut off between its renames leaves no current slot, and made again it drops the definition that
was current. Without a current slot, a backup that is not removed is what a rollback brings back. -/
theorem deploy_left_half_done :
    (apply workflow .gone .whole .failed).store = workflow.store.applied ∧
      (apply workflow .gone .whole .failed).published = [] ∧
      (apply (apply workflow .gone .whole .failed) .gone .whole (.published [])).published = [] ∧
      (apply workflow .gone .renamed .failed).store.current = none ∧
      (apply (apply workflow .gone .renamed .failed) .gone .whole (.published [])).store =
        ⟨none, some ⟨some 20, some 2⟩, none⟩ ∧
      ((apply headless (.left true true) .whole (.published [])).rollback (fun _ => true) .gone .whole
        (.published [])).store.current = some ⟨some 10, some 1⟩ := by decide

theorem deploys_all_or_nothing_applied :
    AllOrNothing Deployed.workflow Deployed.workflow.store.applied
        (Deployed.apply Deployed.workflow .gone .whole (.published [])) ∧
      ((Deployed.apply Deployed.workflow .gone .whole (.published [])).rollback (fun _ => true) .gone
        .whole (.published [])).store.current = some ⟨some 10, some 1⟩ :=
  have h := deploys_all_or_nothing_iff (fun _ => true) Deployed.workflow 0 .gone .whole (.published [])
  ⟨h.1.mpr (.inr (.inr ⟨⟨rfl, .inl rfl⟩, ⟨[], rfl⟩, nofun⟩)),
    ((h.2.2 .gone .whole (.published []) (by decide) (by decide)).mpr (.inl rfl)).1⟩

end Fluxbee.WfRules
