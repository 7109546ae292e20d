import Mathlib.Data.Finset.Card

/-! Parent links, each node having at most one: when they make no cycle, how that survives the
change of one link, and the walk from a node upwards. -/
namespace Fluxbee.Lineage
open Relation Finset ReflTransGen

variable {α : Type*} {parent parent' : α → Option α} {a b c : α}

def Under (parent : α → Option α) (a b : α) : Prop := parent a = some b

def Acyclic (parent : α → Option α) : Prop := ∀ a, ¬ TransGen (Under parent) a a

theorem Acyclic.of_fewer (h : Acyclic parent) (hfewer : ∀ a b, parent' a = some b → parent a = some b) :
    Acyclic parent' := by
  intro a hcycle
  exact h a (TransGen.mono hfewer a a hcycle)

theorem reaches_of_replace (hsame : ∀ x, x ≠ a → parent' x = parent x)
    (h : ReflTransGen (Under parent') b a) : ReflTransGen (Under parent) b a := by
  induction h using head_induction_on with
  | refl => exact .refl
  | @head x y hxy _ ih =>
    by_cases hx : x = a
    · rw [hx]
    · have hlink : parent x = some y := by
        rw [← hsame x hx]
        exact hxy
      exact head hlink ih

theorem reaches_or_visits (hsame : ∀ x, x ≠ a → parent' x = parent x)
    (h : TransGen (Under parent') b c) :
    TransGen (Under parent) b c ∨ (ReflTransGen (Under parent') b a ∧ ∃ y, parent' a = some y ∧
        ReflTransGen (Under parent') y c) := by
  induction h with
  | @single c hbc =>
    by_cases hb : b = a
    · right
      subst hb
      exact ⟨.refl, c, hbc, .refl⟩
    · left
      have hlink : parent b = some c := by
        rw [← hsame b hb]
        exact hbc
      exact TransGen.single hlink
  | @tail x c hbx hxc ih =>
    by_cases hx : x = a
    · right
      subst hx
      exact ⟨hbx.to_reflTransGen, c, hxc, .refl⟩
    · have hlink : parent x = some c := by
        rw [← hsame x hx]
        exact hxc
      obtain hold | ⟨hto, y, hay, hyx⟩ := ih
      · exact .inl (hold.tail hlink)
      · exact .inr ⟨hto, y, hay, hyx.tail hxc⟩

theorem Acyclic.replace (h : Acyclic parent) (hsame : ∀ x, x ≠ a → parent' x = parent x)
    (hnew : ∀ b, parent' a = some b → ¬ ReflTransGen (Under parent) b a) : Acyclic parent' := by
  intro x hcycle
  obtain hold | ⟨hto, y, hay, hyx⟩ := reaches_or_visits hsame hcycle
  · exact h x hold
  · have hback : ReflTransGen (Under parent') y a := hyx.trans hto
    exact hnew y hay (reaches_of_replace hsame hback)

section

variable [DecidableEq α] {target : α} {fuel : ℕ}

/-- Whether the walk from a node to its parent, and on, comes by `target`; none where it has not
ended after `fuel` nodes. -/
def walk (parent : α → Option α) (target : α) : ℕ → Option α → Option Bool
  | _, none => some false
  | 0, some _ => none
  | fuel + 1, some current =>
    if current = target then some true else walk parent target fuel (parent current)

theorem not_reaches_of_walk (h : walk parent target fuel (some c) = some false) :
    ¬ ReflTransGen (Under parent) c target := by
  induction fuel generalizing c with
  | zero => simp [walk] at h
  | succ fuel ih =>
    rw [walk] at h
    have hc : c ≠ target := by
      intro hc
      simp [hc] at h
    rw [if_neg hc] at h
    intro hreach
    obtain heq | ⟨b, hcb, hrest⟩ := hreach.cases_head
    · exact hc heq
    · have hparent : parent c = some b := hcb
      rw [hparent] at h
      exact ih h hrest

open Classical in
theorem walk_ends (hac : Acyclic parent) (ids : Finset α)
    (hids : ∀ a b, parent a = some b → a ∈ ids) (hfuel : ids.card < fuel) (start : Option α) :
    walk parent target fuel start ≠ none := by
  cases start with
  | none => cases fuel <;> simp [walk]
  | some c =>
    -- The nodes above, a set that shrinks with each step.
    have hcard : (ids.filter (ReflTransGen (Under parent) c)).card < fuel :=
      lt_of_le_of_lt (card_filter_le _ _) hfuel
    clear hfuel
    induction fuel generalizing c with
    | zero => omega
    | succ fuel ih =>
      rw [walk]
      split_ifs with hc
      · simp
      · cases hp : parent c with
        | none => cases fuel <;> simp [walk]
        | some b =>
          apply ih b
          have hshrinks : ids.filter (ReflTransGen (Under parent) b) ⊂
              ids.filter (ReflTransGen (Under parent) c) := by
            refine ssubset_iff_of_subset ?_ |>.mpr ⟨c, ?_, ?_⟩
            · intro x hx
              rw [mem_filter] at hx ⊢
              exact ⟨hx.1, head hp hx.2⟩
            · rw [mem_filter]
              exact ⟨hids c b hp, .refl⟩
            · rw [mem_filter]
              intro hx
              exact hac c (TransGen.head' hp hx.2)
          have hlt := card_lt_card hshrinks
          omega

end
end Fluxbee.Lineage
