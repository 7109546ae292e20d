import Mathlib.Logic.Basic

/-! An index from keys to the owners that hold them, kept by hand next to the owners: when it
covers every key held, when it points at holders only, and which updates keep it so. -/
namespace Fluxbee.ReverseIndex

variable {I K : Type*} {index index' : K → Option I} {holds holds' : I → K → Prop}

/-- Every key held is indexed under its holder. -/
def Covers (index : K → Option I) (holds : I → K → Prop) : Prop :=
  ∀ i k, holds i k → index k = some i

/-- Every indexed key is held by the owner it is indexed under. -/
def Points (index : K → Option I) (holds : I → K → Prop) : Prop :=
  ∀ i k, index k = some i → holds i k

theorem Covers.unique (h : Covers index holds) {i j : I} {k : K} (hi : holds i k)
    (hj : holds j k) : i = j :=
  Option.some.inj ((h i k hi).symm.trans (h j k hj))

def Exclusive (holds : I → K → Prop) : Prop := ∀ i j k, holds i k → holds j k → i = j

theorem Exclusive.mono (h : Exclusive holds) (hsub : ∀ i k, holds' i k → holds i k) :
    Exclusive holds' := fun i j k hi hj => h i j k (hsub i k hi) (hsub j k hj)

theorem Exclusive.absorb (h : Exclusive holds) (i : I) (new : K → Prop)
    (hself : ∀ k, holds' i k → holds i k ∨ new k)
    (hother : ∀ j k, j ≠ i → holds' j k → holds j k ∧ ¬ new k) : Exclusive holds' := by
  have hpair : ∀ j k, j ≠ i → holds' j k → ¬ holds' i k := by
    intro j k hji hj hi
    obtain ⟨hheld, hk⟩ := hother j k hji hj
    exact hji (h j i k hheld ((hself k hi).resolve_right hk))
  intro a b k ha hb
  by_cases hai : a = i
  · by_cases hbi : b = i
    · rw [hai, hbi]
    · exact absurd (hai ▸ ha) (hpair b k hbi hb)
  · by_cases hbi : b = i
    · exact absurd (hbi ▸ hb) (hpair a k hai ha)
    · exact h a b k (hother a k hai ha).1 (hother b k hbi hb).1

theorem Covers.absorb (h : Covers index holds) (i : I) (new : K → Prop)
    (hnew : ∀ k, new k → index' k = some i) (hold : ∀ k, ¬ new k → index' k = index k)
    (hself : ∀ k, holds' i k → holds i k ∨ new k)
    (hother : ∀ j k, j ≠ i → holds' j k → holds j k ∧ ¬ new k) : Covers index' holds' := by
  intro j k hj
  by_cases hji : j = i
  · subst hji
    by_cases hk : new k
    · exact hnew k hk
    · rw [hold k hk]
      exact h j k ((hself k hj).resolve_right hk)
  · obtain ⟨hheld, hk⟩ := hother j k hji hj
    rw [hold k hk]
    exact h j k hheld

theorem Points.absorb (h : Points index holds) (i : I) (new : K → Prop)
    (hnew : ∀ k, new k → index' k = some i) (hold : ∀ k, ¬ new k → index' k = index k)
    (hself : ∀ k, holds i k ∨ new k → holds' i k)
    (hother : ∀ j k, j ≠ i → holds j k → ¬ new k → holds' j k) : Points index' holds' := by
  intro j k hj
  by_cases hk : new k
  · rw [hnew k hk] at hj
    cases hj
    exact hself k (.inr hk)
  · rw [hold k hk] at hj
    have hheld := h j k hj
    by_cases hji : j = i
    · subst hji
      exact hself k (.inl hheld)
    · exact hother j k hji hheld hk

theorem Covers.release (h : Covers index holds) (out : I → K → Prop)
    (hkeep : ∀ i k, index k = some i → ¬ out i k → index' k = some i)
    (hheld : ∀ i k, holds' i k → holds i k ∧ ¬ out i k) : Covers index' holds' := by
  intro i k hi
  obtain ⟨hold, hout⟩ := hheld i k hi
  exact hkeep i k (h i k hold) hout

theorem Points.release (h : Points index holds) (out : I → K → Prop)
    (hkeep : ∀ i k, index' k = some i → index k = some i ∧ ¬ out i k)
    (hheld : ∀ i k, holds i k → ¬ out i k → holds' i k) : Points index' holds' := by
  intro i k hi
  obtain ⟨hidx, hout⟩ := hkeep i k hi
  exact hheld i k (h i k hidx) hout

theorem Covers.trade (h : Covers index holds) {i : I} {a b : K} (hfree : index b = none)
    (htaken : index' b = some i)
    (hkeep : ∀ j k, k ≠ b → (index' k = some j ↔ index k = some j ∧ ¬ (j = i ∧ k = a)))
    (hself : ∀ k, holds' i k → k = b ∨ (holds i k ∧ k ≠ a))
    (hother : ∀ j k, j ≠ i → holds' j k → holds j k) : Covers index' holds' := by
  intro j k hj
  by_cases hji : j = i
  · subst hji
    rcases hself k hj with rfl | ⟨hheld, hka⟩
    · exact htaken
    · have hidx := h j k hheld
      have hkb : k ≠ b := by
        rintro rfl
        rw [hfree] at hidx
        cases hidx
      exact (hkeep j k hkb).mpr ⟨hidx, fun hout => hka hout.2⟩
  · have hidx := h j k (hother j k hji hj)
    have hkb : k ≠ b := by
      rintro rfl
      rw [hfree] at hidx
      cases hidx
    exact (hkeep j k hkb).mpr ⟨hidx, fun hout => hji hout.1⟩

theorem Points.trade (h : Points index holds) {i : I} {a b : K} (htaken : index' b = some i)
    (hkeep : ∀ j k, k ≠ b → (index' k = some j ↔ index k = some j ∧ ¬ (j = i ∧ k = a)))
    (hself : ∀ k, k = b ∨ (holds i k ∧ k ≠ a) → holds' i k)
    (hother : ∀ j k, j ≠ i → holds j k → holds' j k) : Points index' holds' := by
  intro j k hj
  by_cases hkb : k = b
  · subst hkb
    rw [htaken] at hj
    cases hj
    exact hself k (.inl rfl)
  · obtain ⟨hidx, hout⟩ := (hkeep j k hkb).mp hj
    have hheld := h j k hidx
    by_cases hji : j = i
    · subst hji
      exact hself k (.inr ⟨hheld, fun hka => hout ⟨rfl, hka⟩⟩)
    · exact hother j k hji hheld

end Fluxbee.ReverseIndex
