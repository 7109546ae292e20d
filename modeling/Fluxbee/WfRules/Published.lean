import Fluxbee.WfRules.Slots

/-! A workflow version names one definition: what the three slots keep of the versions published. -/
namespace Fluxbee.WfRules
open List Option

variable {D : Type} {slot : Slot D} {removal : Removal} {progress : Progress}

/-- The versions of the slots go up from the backup to the staged one, and a current slot is whole. -/
structure Store.Ordered (s : Store D) : Prop where
  whole : ∀ slot, s.current = some slot → slot.metadata.isSome ∧ slot.definition.isSome
  backupCurrent : ∀ x y, version s.backup = some x → version s.current = some y → x < y
  currentStaged : ∀ y z, version s.current = some y → version s.staged = some z → y < z
  backupStaged : ∀ x z, version s.backup = some x → version s.staged = some z → x < z

def Holds (slot : Option (Slot D)) (number : ℕ) (definition : D) : Prop :=
  version slot = some number → ∀ d, slot.bind Slot.definition = some d → d = definition

/-- What the slots say of a published package: those under its version hold it, and its version is at
most that of the current slot or of the staged one; with a backup to go back to, of the current. -/
structure Store.Covers (s : Store D) (number : ℕ) (definition : D) : Prop where
  staged : Holds s.staged number definition
  current : Holds s.current number definition
  backup : Holds s.backup number definition
  below : ∀ y, version s.current = some y →
    number ≤ y ∨ ∃ z, version s.staged = some z ∧ number ≤ z
  belowCurrent : ∀ x y, version s.backup = some x → version s.current = some y → number ≤ y
  belowStaged : s.current = none → ∃ z, version s.staged = some z ∧ number ≤ z

structure Workflow.Sound (w : Workflow D) : Prop where
  ordered : w.store.Ordered
  covers : ∀ number definition, (number, definition) ∈ w.published →
    w.store.Covers number definition
  single : ∀ number d d', (number, d) ∈ w.published → (number, d') ∈ w.published → d = d'

section
variable {s : Store D} {slot : Option (Slot D)} {removal : Removal} {n : ℕ} {d : D}

theorem version_removeAll (h : version (removeAll slot removal) = some n) : version slot = some n := by
  cases removal with
  | gone => cases h
  | left definition metadata =>
    cases slot with
    | none => cases h
    | some kept =>
      change (if metadata then kept.metadata else none) = some n at h
      split_ifs at h
      exact h

theorem Holds.removeAll (h : Holds slot n d) : Holds (removeAll slot removal) n d := by
  intro hversion d' hd'
  refine h (version_removeAll hversion) d' ?_
  cases removal with
  | gone => cases hd'
  | left definition metadata =>
    cases slot with
    | none => cases hd'
    | some kept =>
      change (if definition then kept.definition else none) = some d' at hd'
      split_ifs at hd'
      exact hd'

theorem holds_none : Holds (none : Option (Slot D)) n d := nofun

theorem Store.Ordered.version_current (h : s.Ordered) {current : Slot D}
    (hcurrent : s.current = some current) : ∃ y, version s.current = some y := by
  obtain ⟨y, hy⟩ := isSome_iff_exists.mp (h.whole current hcurrent).1
  exact ⟨y, by rw [hcurrent]; exact hy⟩

/-- What is published is at most the staged version, once there is one, if it is not less than the
current one. -/
theorem Store.Covers.le_staged (h : s.Covers n d) (ho : s.Ordered) {z : ℕ}
    (hz : version s.staged = some z) : n ≤ z := by
  cases hcurrent : s.current with
  | none =>
    obtain ⟨z', hz', hle⟩ := h.belowStaged hcurrent
    rw [hz] at hz'
    cases hz'
    exact hle
  | some current =>
    obtain ⟨y, hy⟩ := ho.version_current hcurrent
    rcases h.below y hy with hle | ⟨z', hz', hle⟩
    · exact hle.trans (ho.currentStaged y z hy hz).le
    · rw [hz] at hz'
      cases hz'
      exact hle

end

section
variable {s : Store D} {n : ℕ} {d definition : D} {number : ℕ}

def Store.Above (s : Store D) (number : ℕ) : Prop :=
  ∀ v, version s.staged = some v ∨ version s.current = some v ∨ version s.backup = some v → v < number

def Store.highest (s : Store D) : ℕ :=
  max (max ((version s.staged).getD 0) ((version s.current).getD 0)) ((version s.backup).getD 0)

theorem Store.above_nextVersion (h : s.highest + 1 < 2 ^ 64) : s.Above s.nextVersion := by
  have hnext : s.nextVersion = s.highest + 1 := Nat.mod_eq_of_lt h
  have hle : ∀ (slot : Option (Slot D)) v, version slot = some v →
      (version slot).getD 0 ≤ s.highest → v ≤ s.highest := by
    intro slot v hv hslot
    rw [hv] at hslot
    exact hslot
  intro v hv
  rw [hnext, Nat.lt_succ_iff]
  rcases hv with hv | hv | hv
  · exact hle _ v hv ((le_max_left _ _).trans (le_max_left _ _))
  · exact hle _ v hv ((le_max_right _ _).trans (le_max_left _ _))
  · exact hle _ v hv (le_max_right _ _)

theorem Store.Ordered.stage (h : s.Ordered) (habove : s.Above number) (slot : Slot D)
    (hslot : slot.metadata = some number) : ({ s with staged := some slot } : Store D).Ordered where
  whole := h.whole
  backupCurrent := h.backupCurrent
  currentStaged y z hy hz := by
    have hnumber : some number = some z := hslot.symm.trans hz
    cases hnumber
    exact habove y (.inr (.inl hy))
  backupStaged x z hx hz := by
    have hnumber : some number = some z := hslot.symm.trans hz
    cases hnumber
    exact habove x (.inr (.inr hx))

theorem Store.Covers.lt_above (h : s.Covers n d) (ho : s.Ordered) (habove : s.Above number) :
    n < number := by
  cases hcurrent : s.current with
  | none =>
    obtain ⟨z, hz, hle⟩ := h.belowStaged hcurrent
    exact hle.trans_lt (habove z (.inl hz))
  | some current =>
    obtain ⟨y, hy⟩ := ho.version_current hcurrent
    rcases h.below y hy with hle | ⟨z, hz, hle⟩
    · exact hle.trans_lt (habove y (.inr (.inl hy)))
    · exact hle.trans_lt (habove z (.inl hz))

theorem Store.Covers.stage (h : s.Covers n d) (ho : s.Ordered) (habove : s.Above number)
    (slot : Slot D) (hslot : slot.metadata = some number) :
    ({ s with staged := some slot } : Store D).Covers n d := by
  have hlt := h.lt_above ho habove
  refine ⟨?_, h.current, h.backup, ?_, h.belowCurrent, ?_⟩
  · intro hversion
    have hnumber : some number = some n := hslot.symm.trans hversion
    cases hnumber
    exact absurd hlt (lt_irrefl _)
  · intro y hy
    exact .inr ⟨number, hslot, hlt.le⟩
  · intro _
    exact ⟨number, hslot, hlt.le⟩

/-- The staged slot is written without its version: the directory, or the definition alone. -/
theorem Store.Ordered.restage (h : s.Ordered) (slot : Slot D)
    (hslot : slot.metadata = version s.staged) :
    ({ s with staged := some slot } : Store D).Ordered where
  whole := h.whole
  backupCurrent := h.backupCurrent
  currentStaged y z hy hz := h.currentStaged y z hy (hslot.symm.trans hz)
  backupStaged x z hx hz := h.backupStaged x z hx (hslot.symm.trans hz)

theorem Store.Covers.restage (h : s.Covers n d) (slot : Slot D)
    (hslot : slot.metadata = version s.staged) (hholds : Holds (some slot) n d) :
    ({ s with staged := some slot } : Store D).Covers n d where
  staged := hholds
  current := h.current
  backup := h.backup
  below y hy := by
    rcases h.below y hy with hle | ⟨z, hz, hle⟩
    · exact .inl hle
    · exact .inr ⟨z, hslot.trans hz, hle⟩
  belowCurrent := h.belowCurrent
  belowStaged hcurrent := by
    obtain ⟨z, hz, hle⟩ := h.belowStaged hcurrent
    exact ⟨z, hslot.trans hz, hle⟩

end

section
variable {s : Store D} {n : ℕ} {d : D} {removal : Removal} {staged current backup : Option (Slot D)}

theorem Store.Ordered.dropBackup (h : s.Ordered) :
    ({ s with backup := removeAll s.backup removal } : Store D).Ordered where
  whole := h.whole
  backupCurrent x y hx hy := h.backupCurrent x y (version_removeAll hx) hy
  currentStaged := h.currentStaged
  backupStaged x z hx hz := h.backupStaged x z (version_removeAll hx) hz

theorem Store.Covers.dropBackup (h : s.Covers n d) :
    ({ s with backup := removeAll s.backup removal } : Store D).Covers n d where
  staged := h.staged
  current := h.current
  backup := h.backup.removeAll
  below := h.below
  belowCurrent x y hx hy := h.belowCurrent x y (version_removeAll hx) hy
  belowStaged := h.belowStaged

theorem Store.Ordered.dropStaged (h : s.Ordered) :
    ({ s with staged := removeAll s.staged removal } : Store D).Ordered where
  whole := h.whole
  backupCurrent := h.backupCurrent
  currentStaged y z hy hz := h.currentStaged y z hy (version_removeAll hz)
  backupStaged x z hx hz := h.backupStaged x z hx (version_removeAll hz)

theorem Store.Covers.dropStaged (h : s.Covers n d) {x y : ℕ} (hx : version s.backup = some x)
    (hy : version s.current = some y) :
    ({ s with staged := removeAll s.staged removal } : Store D).Covers n d where
  staged := h.staged.removeAll
  current := h.current
  backup := h.backup
  below y' hy' := .inl (h.belowCurrent x y' hx hy')
  belowCurrent := h.belowCurrent
  belowStaged hnone := by
    have hcurrent : s.current = none := hnone
    rw [hcurrent] at hy
    cases hy

theorem Store.Ordered.currentToBackup (h : s.Ordered) :
    ({ s with current := none, backup := s.current } : Store D).Ordered where
  whole := nofun
  backupCurrent := nofun
  currentStaged := nofun
  backupStaged x z hx hz := h.currentStaged x z hx hz

theorem Store.Covers.currentToBackup (h : s.Covers n d) (ho : s.Ordered) {z : ℕ}
    (hz : version s.staged = some z) :
    ({ s with current := none, backup := s.current } : Store D).Covers n d where
  staged := h.staged
  current := holds_none
  backup := h.current
  below := nofun
  belowCurrent := nofun
  belowStaged _ := ⟨z, hz, h.le_staged ho hz⟩

/-- The staged slot becomes the current one, over a backup that was the current one or is what is left
of the old one. -/
theorem Store.Ordered.stagedToCurrent (h : s.Ordered) (hstaged : s.staged = some slot)
    (hwhole : slot.metadata.isSome ∧ slot.definition.isSome)
    (hbackup : ∀ x, version backup = some x →
      version s.current = some x ∨ version s.backup = some x) :
    (⟨none, s.staged, backup⟩ : Store D).Ordered where
  whole slot' hslot' := by
    have heq : some slot = some slot' := hstaged.symm.trans hslot'
    cases heq
    exact hwhole
  backupCurrent x y hx hy := by
    rcases hbackup x hx with hx | hx
    · exact h.currentStaged x y hx hy
    · exact h.backupStaged x y hx hy
  currentStaged := nofun
  backupStaged := nofun

theorem Store.Covers.stagedToCurrent (h : s.Covers n d) (ho : s.Ordered)
    (hstaged : s.staged = some slot) (hbackup : Holds backup n d) :
    (⟨none, s.staged, backup⟩ : Store D).Covers n d where
  staged := holds_none
  current := h.staged
  backup := hbackup
  below y hy := .inl (h.le_staged ho hy)
  belowCurrent _ y _ hy := h.le_staged ho hy
  belowStaged hnone := by
    have hcurrent : s.staged = none := hnone
    rw [hcurrent] at hstaged
    cases hstaged

theorem Store.Ordered.currentToStaged (h : s.Ordered) :
    ({ s with staged := s.current, current := none } : Store D).Ordered where
  whole := nofun
  backupCurrent := nofun
  currentStaged := nofun
  backupStaged x z hx hz := h.backupCurrent x z hx hz

theorem Store.Covers.currentToStaged (h : s.Covers n d) {x y : ℕ} (hx : version s.backup = some x)
    (hy : version s.current = some y) :
    ({ s with staged := s.current, current := none } : Store D).Covers n d where
  staged := h.current
  current := holds_none
  backup := h.backup
  below := nofun
  belowCurrent := nofun
  belowStaged _ := ⟨y, hy, h.belowCurrent x y hx hy⟩

theorem Store.Ordered.backupToCurrent (h : s.Ordered) (hbackup : s.backup = some slot)
    (hwhole : slot.metadata.isSome ∧ slot.definition.isSome) :
    (⟨s.current, s.backup, none⟩ : Store D).Ordered where
  whole slot' hslot' := by
    have heq : some slot = some slot' := hbackup.symm.trans hslot'
    cases heq
    exact hwhole
  backupCurrent := nofun
  currentStaged y z hy hz := h.backupCurrent y z hy hz
  backupStaged := nofun

theorem Store.Covers.backupToCurrent (h : s.Covers n d) {y : ℕ} (hy : version s.current = some y)
    (hbackup : s.backup = some slot) :
    (⟨s.current, s.backup, none⟩ : Store D).Covers n d where
  staged := h.current
  current := h.backup
  backup := holds_none
  below x hx := .inr ⟨y, hy, h.belowCurrent x y hx hy⟩
  belowCurrent := nofun
  belowStaged hnone := by
    have hcurrent : s.backup = none := hnone
    rw [hcurrent] at hbackup
    cases hbackup

end

/-- What an apply is asked for is not staged, or does not load. -/
def Workflow.ApplyRefused (w : Workflow D) (loads : D → Bool) (requested : ℕ) : Prop :=
  version w.store.staged = none ∨ 0 < requested ∧ version w.store.staged ≠ some requested ∨
    slotLoads loads w.store.staged = false

def Workflow.RollbackRefused (w : Workflow D) (loads : D → Bool) : Prop :=
  version w.store.backup = none ∨ slotLoads loads w.store.backup = false

section
variable {w : Workflow D} {loads : D → Bool}

theorem Workflow.Sound.of_store (h : w.Sound) {store : Store D} (hordered : store.Ordered)
    (hcovers : ∀ n d, w.store.Covers n d → store.Covers n d) :
    ({ w with store := store } : Workflow D).Sound :=
  ⟨hordered, fun n d hmem => hcovers n d (h.covers n d hmem), h.single⟩

variable {definition : D}

theorem Workflow.Sound.publish (h : w.Sound) {number : ℕ}
    (hnumber : version w.store.current = some number)
    (hdefinition : w.store.current.bind Slot.definition = some definition) (dist : List (ℕ × D)) :
    (⟨w.store, w.published ++ [(number, definition)], dist⟩ : Workflow D).Sound := by
  have hsame : ∀ d, (number, d) ∈ w.published → definition = d :=
    fun d hmem => (h.covers number d hmem).current hnumber definition hdefinition
  have hnew : w.store.Covers number definition := by
    refine ⟨?_, ?_, ?_, ?_, ?_, ?_⟩
    · intro hstaged
      exact absurd (h.ordered.currentStaged number number hnumber hstaged) (lt_irrefl _)
    · intro _ d hd
      rw [hdefinition] at hd
      exact (Option.some.inj hd).symm
    · intro hbackup
      exact absurd (h.ordered.backupCurrent number number hbackup hnumber) (lt_irrefl _)
    · intro y hy
      rw [hnumber] at hy
      exact .inl (Option.some.inj hy).le
    · intro _ y _ hy
      rw [hnumber] at hy
      exact (Option.some.inj hy).le
    · intro hnone
      rw [hnone] at hnumber
      cases hnumber
  refine ⟨h.ordered, fun n d hmem => ?_, fun n d d' hmem hmem' => ?_⟩
  · rcases mem_append.mp hmem with hmem | hmem
    · exact h.covers n d hmem
    · cases mem_singleton.mp hmem
      exact hnew
  · rcases mem_append.mp hmem with hmem | hmem <;>
      rcases mem_append.mp hmem' with hmem' | hmem'
    · exact h.single n d d' hmem hmem'
    · cases mem_singleton.mp hmem'
      exact (hsame d hmem).symm
    · cases mem_singleton.mp hmem
      exact hsame d' hmem'
    · cases mem_singleton.mp hmem
      cases mem_singleton.mp hmem'
      rfl

variable {publish : Publish}

theorem slotLoads_definition {slot : Option (Slot D)} (h : slotLoads loads slot = true) :
    ∃ d, slot.bind Slot.definition = some d := by
  unfold slotLoads at h
  cases hd : slot.bind Slot.definition with
  | none =>
    rw [hd] at h
    cases h
  | some d => exact ⟨d, rfl⟩

theorem whole_of_loads {slot : Option (Slot D)} {n : ℕ} (hversion : version slot = some n)
    (hloads : slotLoads loads slot = true) : ∃ d, slot = some ⟨some d, some n⟩ := by
  obtain ⟨d, hd⟩ := slotLoads_definition hloads
  cases slot with
  | none => cases hversion
  | some kept =>
    have hmetadata : kept.metadata = some n := hversion
    have hdefinition : kept.definition = some d := hd
    exact ⟨d, by rw [← hmetadata, ← hdefinition]⟩

section
variable [DecidableEq D]

theorem Workflow.Sound.publishCurrent {rotated : Store D × Bool}
    (h : ({ w with store := rotated.1 } : Workflow D).Sound) :
    (w.publishCurrent rotated publish).Sound := by
  unfold Workflow.publishCurrent
  dsimp only
  split
  · next removed number definition _ hnumber hdefinition =>
    split
    · exact h.publish hnumber hdefinition _
    · exact h
  · exact h

theorem Workflow.apply_refused (w : Workflow D) {requested : ℕ} (h : w.ApplyRefused loads requested) :
    w.apply loads requested removal progress publish = w := by
  unfold Workflow.apply
  rcases h with hnone | ⟨hpos, hother⟩ | hloads
  · rw [hnone]
  · cases hversion : version w.store.staged with
    | none => rfl
    | some staged =>
      rw [hversion] at hother
      exact if_pos ⟨hpos, fun heq => hother (congrArg some heq)⟩
  · cases version w.store.staged with
    | none => rfl
    | some staged =>
      dsimp only
      rw [hloads, if_pos rfl, ite_self]

theorem Workflow.apply_runs (w : Workflow D) {requested : ℕ} (h : ¬ w.ApplyRefused loads requested) :
    (∃ n d, w.store.staged = some ⟨some d, some n⟩) ∧
      w.apply loads requested removal progress publish =
        w.publishCurrent (w.store.rotateToApply removal progress) publish := by
  unfold Workflow.ApplyRefused at h
  push Not at h
  obtain ⟨hversion, hmatch, hloads⟩ := h
  obtain ⟨n, hn⟩ := Option.ne_none_iff_exists'.mp hversion
  refine ⟨⟨n, whole_of_loads hn (Bool.ne_false_iff.mp hloads)⟩, ?_⟩
  unfold Workflow.apply
  rw [hn] at hmatch ⊢
  dsimp only
  rw [if_neg fun hother => hother.2 (Option.some.inj (hmatch hother.1)), if_neg hloads]

theorem Workflow.rollback_refused (w : Workflow D) (h : w.RollbackRefused loads) :
    w.rollback loads removal progress publish = w := by
  unfold Workflow.rollback
  rcases h with hnone | hloads
  · rw [hnone]
  · cases version w.store.backup with
    | none => rfl
    | some backup => exact if_pos hloads

theorem Workflow.rollback_runs (w : Workflow D) (h : ¬ w.RollbackRefused loads) :
    (∃ n d, w.store.backup = some ⟨some d, some n⟩) ∧
      w.rollback loads removal progress publish =
        w.publishCurrent (w.store.rotateToRollback removal progress) publish := by
  unfold Workflow.RollbackRefused at h
  push Not at h
  obtain ⟨hversion, hloads⟩ := h
  obtain ⟨n, hn⟩ := Option.ne_none_iff_exists'.mp hversion
  refine ⟨⟨n, whole_of_loads hn (Bool.ne_false_iff.mp hloads)⟩, ?_⟩
  unfold Workflow.rollback
  rw [hn]
  exact if_neg hloads

omit [DecidableEq D] in
theorem Workflow.Sound.rotateToApply (h : w.Sound) (hstaged : w.store.staged = some slot)
    (hwhole : slot.metadata.isSome ∧ slot.definition.isSome) :
    ({ w with store := (w.store.rotateToApply removal progress).1 } : Workflow D).Sound := by
  obtain ⟨z, hz⟩ := isSome_iff_exists.mp hwhole.1
  have hversion : version w.store.staged = some z := by
    rw [hstaged]
    exact hz
  have hdrop : ({ w with store := { w.store with backup := removeAll w.store.backup removal } } :
      Workflow D).Sound := h.of_store h.ordered.dropBackup fun _ _ hc => hc.dropBackup
  unfold Store.rotateToApply
  by_cases hremoved : progress = .removed
  · rw [if_pos hremoved]
    exact hdrop
  · rw [if_neg hremoved]
    cases hcurrent : w.store.current with
    | none =>
      exact h.of_store
        (h.ordered.stagedToCurrent hstaged hwhole fun x hx => .inr (version_removeAll hx))
        fun _ _ hc => hc.stagedToCurrent h.ordered hstaged hc.backup.removeAll
    | some current =>
      dsimp only
      by_cases hfree : (removeAll w.store.backup removal).isSome
      · rw [if_pos hfree, ← hcurrent]
        exact hdrop
      · rw [if_neg hfree]
        split_ifs with hrenamed
        · rw [← hcurrent]
          exact h.of_store h.ordered.currentToBackup
            fun _ _ hc => hc.currentToBackup h.ordered hversion
        · rw [← hcurrent]
          exact h.of_store (h.ordered.stagedToCurrent hstaged hwhole fun _ => .inl)
            fun _ _ hc => hc.stagedToCurrent h.ordered hstaged hc.current

omit [DecidableEq D] in
theorem Workflow.Sound.rotateToRollback (h : w.Sound) (hbackup : w.store.backup = some slot)
    (hwhole : slot.metadata.isSome ∧ slot.definition.isSome) (hcurrent : w.store.current.isSome) :
    ({ w with store := (w.store.rotateToRollback removal progress).1 } : Workflow D).Sound := by
  obtain ⟨x, hx⟩ := isSome_iff_exists.mp hwhole.1
  have hversion : version w.store.backup = some x := by
    rw [hbackup]
    exact hx
  obtain ⟨current, hcurrent⟩ := isSome_iff_exists.mp hcurrent
  obtain ⟨y, hy⟩ := h.ordered.version_current hcurrent
  have hdrop : ({ w with store := { w.store with staged := removeAll w.store.staged removal } } :
      Workflow D).Sound := h.of_store h.ordered.dropStaged fun _ _ hc => hc.dropStaged hversion hy
  unfold Store.rotateToRollback
  by_cases hremoved : progress = .removed
  · rw [if_pos hremoved]
    exact hdrop
  · rw [if_neg hremoved, hcurrent]
    dsimp only
    by_cases hfree : (removeAll w.store.staged removal).isSome
    · rw [if_pos hfree, ← hcurrent]
      exact hdrop
    · rw [if_neg hfree]
      split_ifs with hrenamed
      · rw [← hcurrent]
        exact h.of_store h.ordered.currentToStaged fun _ _ hc => hc.currentToStaged hversion hy
      · rw [← hcurrent]
        exact h.of_store (h.ordered.backupToCurrent hbackup hwhole)
          fun _ _ hc => hc.backupToCurrent hy hbackup

/-- A compile takes a version above those of all slots, or stages again what is staged; where it is cut
off between its two files, the staged version was not published with another definition. A rollback
finds a current slot. -/
def Sequenced (w : Workflow D) : Event D → Prop
  | .compile definition requested written =>
    (written = .metadata → w.store.Above (w.store.compiledVersion requested) ∨
      w.store.staged = some ⟨some definition, some (w.store.compiledVersion requested)⟩) ∧
    (written = .definition → ∀ v, version w.store.staged = some v →
      ∀ d, (v, d) ∈ w.published → definition = d)
  | .apply .. => True
  | .rollback .. => (version w.store.backup).isSome → w.store.current.isSome

omit [DecidableEq D] in
theorem sequenced_compile (h : w.store.highest + 1 < 2 ^ 64) :
    Sequenced w (.compile definition 0 .metadata) :=
  ⟨fun _ => .inl (Store.above_nextVersion h), nofun⟩

omit [DecidableEq D] in
theorem Workflow.Sound.compile (h : w.Sound) {requested : ℕ} {written : Written}
    (hsequenced : Sequenced w (.compile definition requested written)) :
    (w.compile loads definition requested written).Sound := by
  obtain ⟨hfresh, htorn⟩ := hsequenced
  have hmetadata : (w.store.staged.getD {}).metadata = version w.store.staged := by
    cases w.store.staged <;> rfl
  unfold Workflow.compile
  split_ifs
  · cases written with
    | nothing => exact h
    | directory =>
      refine h.of_store (h.ordered.restage _ hmetadata) fun n d hc => hc.restage _ hmetadata ?_
      intro hversion d' hd'
      cases hstaged : w.store.staged with
      | none =>
        rw [hstaged] at hd'
        cases hd'
      | some slot =>
        have hold := hc.staged
        rw [hstaged] at hold hversion hd'
        exact hold hversion d' hd'
    | definition =>
      refine ⟨h.ordered.restage _ hmetadata, fun n d hmem => ?_, h.single⟩
      apply (h.covers n d hmem).restage
        { w.store.staged.getD {} with definition := some definition } hmetadata
      intro hversion d' hd'
      cases hd'
      exact htorn rfl n (hmetadata.symm.trans hversion) d hmem
    | metadata =>
      rcases hfresh rfl with habove | hsame
      · exact h.of_store (h.ordered.stage habove _ rfl) fun n d hc => hc.stage h.ordered habove _ rfl
      · change ({ w with store := { w.store with
          staged := some ⟨some definition, some (w.store.compiledVersion requested)⟩ } } :
            Workflow D).Sound
        rw [← hsame]
        exact h
  · exact h

theorem Workflow.Sound.apply (h : w.Sound) {requested : ℕ} :
    (w.apply loads requested removal progress publish).Sound := by
  by_cases hrefused : w.ApplyRefused loads requested
  · rw [w.apply_refused hrefused]
    exact h
  · obtain ⟨⟨n, d, hslot⟩, hran⟩ := w.apply_runs hrefused
    rw [hran]
    exact (h.rotateToApply hslot ⟨rfl, rfl⟩).publishCurrent

theorem Workflow.Sound.rollback (h : w.Sound)
    (hsequenced : Sequenced w (.rollback removal progress publish)) :
    (w.rollback loads removal progress publish).Sound := by
  have hcurrent : (version w.store.backup).isSome → w.store.current.isSome := hsequenced
  by_cases hrefused : w.RollbackRefused loads
  · rw [w.rollback_refused hrefused]
    exact h
  · obtain ⟨⟨n, d, hslot⟩, hran⟩ := w.rollback_runs hrefused
    rw [hslot] at hcurrent
    rw [hran]
    exact (h.rotateToRollback hslot ⟨rfl, rfl⟩ (hcurrent rfl)).publishCurrent

theorem Workflow.Sound.step (h : w.Sound) {e : Event D} (hsequenced : Sequenced w e) :
    (w.step loads e).Sound := by
  cases e with
  | compile definition requested written => exact h.compile hsequenced
  | apply requested removal progress publish => exact h.apply
  | rollback removal progress publish => exact h.rollback hsequenced

end

/-- A workflow without slots, over whatever its deletion left in the dist tree. -/
def Workflow.fresh (dist : List (ℕ × D)) : Workflow D := ⟨{}, [], dist⟩

theorem Workflow.sound_fresh (dist : List (ℕ × D)) : (Workflow.fresh dist).Sound :=
  ⟨⟨nofun, nofun, nofun, nofun⟩, nofun, nofun⟩

end

/-- In every run whose compiles take versions above the slots' and are not cut off over a published
version, and whose rollbacks find a current slot, a version is published with one definition. -/
theorem published_version_names_one_definition {D : Type} [DecidableEq D] (loads : D → Bool)
    (dist : List (ℕ × D)) (events : List (Event D))
    (h : GuardedRun.Along (Workflow.step loads) Sequenced (Workflow.fresh dist) events) (number : ℕ)
    (d d' : D)
    (hd : (number, d) ∈ (events.foldl (Workflow.step loads) (Workflow.fresh dist)).published)
    (hd' : (number, d') ∈ (events.foldl (Workflow.step loads) (Workflow.fresh dist)).published) :
    d = d' := by
  have hsound : (events.foldl (Workflow.step loads) (Workflow.fresh dist)).Sound :=
    h.invariant (fun _ _ hsequenced hs => hs.step hsequenced) (Workflow.sound_fresh dist)
  exact hsound.single number d d' hd hd'

namespace Reuse

/-- A compile and an apply, whose purge is asked for these versions. -/
def deploy (definition : ℕ) (removed : List ℕ) : List (Event ℕ) :=
  [.compile definition 0 .metadata, .apply 0 .gone .whole (.published removed)]

/-- Version 2 is staged again, and no node is bound to it. -/
def rolledBack : List (Event ℕ) :=
  deploy 10 [] ++ deploy 20 [] ++ [.rollback .gone .whole (.published [2])]

/-- The rollback is cut off between its renames and made again: the second one drops version 2. -/
def cutRollback : List (Event ℕ) :=
  deploy 10 [] ++ deploy 20 [] ++
    [.rollback .gone .renamed .failed, .rollback .gone .whole (.published [2])] ++ deploy 30 []

/-- A compile is cut off between its definition and its metadata, over the version rolled back. -/
def cutCompile : List (Event ℕ) :=
  rolledBack ++ [.compile 30 0 .definition, .apply 0 .gone .whole (.published [])]

/-- Version 1 is in no slot any more, and its package is removed. -/
def ownVersion : List (Event ℕ) :=
  deploy 10 [] ++ deploy 20 [] ++ deploy 30 [1] ++
    [.compile 40 1 .metadata, .apply 0 .gone .whole (.published [])]

def published (events : List (Event ℕ)) : List (ℕ × ℕ) :=
  (events.foldl (Workflow.step fun _ => true) (Workflow.fresh [])).published

end Reuse

open Reuse

/-- Three ways a version comes to name two definitions. -/
theorem version_published_twice :
    Reuse.published Reuse.cutRollback = [(1, 10), (2, 20), (1, 10), (2, 30)] ∧
      Reuse.published Reuse.cutCompile = [(1, 10), (2, 20), (1, 10), (2, 30)] ∧
      Reuse.published Reuse.ownVersion = [(1, 10), (2, 20), (3, 30), (1, 40)] := by decide +kernel

/-- Two versions, a rollback and a third version. -/
theorem published_version_names_one_definition_rolled_back :
    Reuse.published (Reuse.rolledBack ++ Reuse.deploy 30 []) =
        [(1, 10), (2, 20), (1, 10), (3, 30)] ∧
      ∀ d, (2, d) ∈ Reuse.published (Reuse.rolledBack ++ Reuse.deploy 30 []) → d = 20 := by
  have hpublished :
      published (rolledBack ++ deploy 30 []) = [(1, 10), (2, 20), (1, 10), (3, 30)] := by
    decide +kernel
  refine ⟨hpublished, fun d hd => ?_⟩
  refine published_version_names_one_definition (fun _ => true) [] (rolledBack ++ deploy 30 []) ?_
    2 d 20 hd ?_
  · refine ⟨sequenced_compile (by decide +kernel), trivial, sequenced_compile (by decide +kernel),
      trivial, ?_, sequenced_compile (by decide +kernel), trivial, trivial⟩
    change (version _).isSome → Option.isSome _
    decide +kernel
  · change (2, 20) ∈ published (rolledBack ++ deploy 30 [])
    rw [hpublished]
    decide

end Fluxbee.WfRules
