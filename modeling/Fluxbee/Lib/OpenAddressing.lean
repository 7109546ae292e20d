import Mathlib.Algebra.BigOperators.Group.Finset.Piecewise
import Mathlib.Algebra.Order.BigOperators.Group.Finset
import Mathlib.Data.Nat.ModEq

/-! Open addressing with linear probing and tombstones. A table of `n` slots is
well formed when no key has two live slots and no free slot lies between a key's
home and the slot that holds it; a probe then finds exactly the live keys. Freeing
a slot, unlike burying it, can break this: `unbroken_freeWhere_iff` says when. -/
namespace Fluxbee.OpenAddressing
open Function List

/-- A tombstone was live once: a probe goes on past it, but an insertion may reuse it. -/
inductive Slot (K V : Type*) where
  | free
  | tombstone
  | live (key : K) (value : V)

variable {K V : Type*}

def Slot.isLive : Slot K V → Bool
  | .live _ _ => true
  | _ => false

theorem Slot.ne_free_of_isLive {s : Slot K V} (h : s.isLive = true) : s ≠ .free := by
  rintro rfl
  cases h

/-- The index `i` steps after `home` in a table of `n` slots. -/
def slotAt (n home i : ℕ) : ℕ := (home + i) % n

variable {n : ℕ} {home : K → ℕ} {t : ℕ → Slot K V} {k : K}

theorem slotAt_lt (hn : 0 < n) (home i : ℕ) : slotAt n home i < n := Nat.mod_lt _ hn

variable {j i : ℕ} {v : V} {p : ℕ → Bool}

theorem exists_slotAt (home : ℕ) (hj : j < n) : ∃ i < n, slotAt n home i = j := by
  have hn : 0 < n := by omega
  have hs : home % n < n := Nat.mod_lt _ hn
  have hmod (i : ℕ) : slotAt n home i = (home % n + i) % n := (Nat.mod_add_mod home n i).symm
  by_cases h : home % n ≤ j
  · refine ⟨j - home % n, by omega, ?_⟩
    rw [hmod, Nat.add_sub_cancel' h, Nat.mod_eq_of_lt hj]
  · refine ⟨n - home % n + j, by omega, ?_⟩
    have he : home % n + (n - home % n + j) = j + n := by omega
    rw [hmod, he, Nat.add_mod_right, Nat.mod_eq_of_lt hj]

theorem slotAt_inj {home : ℕ} (hi : i < n) (hj : j < n)
    (h : slotAt n home i = slotAt n home j) : i = j := by
  have hm : i % n = j % n := Nat.ModEq.add_left_cancel' home h
  rwa [Nat.mod_eq_of_lt hi, Nat.mod_eq_of_lt hj] at hm

def Stores (n : ℕ) (t : ℕ → Slot K V) (k : K) (v : V) : Prop := ∃ j < n, t j = .live k v

/-- No free slot between a key's home and the slot that holds it. -/
def Unbroken (n : ℕ) (home : K → ℕ) (t : ℕ → Slot K V) : Prop :=
  ∀ k v i, i < n → t (slotAt n (home k) i) = .live k v →
    ∀ i' < i, t (slotAt n (home k) i') ≠ .free

def Single (n : ℕ) (t : ℕ → Slot K V) : Prop :=
  ∀ i < n, ∀ j < n, ∀ k v w, t i = .live k v → t j = .live k w → i = j

structure WellFormed (n : ℕ) (home : K → ℕ) (t : ℕ → Slot K V) : Prop where
  unbroken : Unbroken n home t
  single : Single n t

theorem wellFormed_of_forall_free (h : ∀ j < n, t j = .free) : WellFormed n home t := by
  constructor
  · intro k v i hi hlive
    rw [h _ (slotAt_lt (by omega) _ _)] at hlive
    cases hlive
  · intro i hi j hj k v w hlive
    rw [h i hi] at hlive
    cases hlive

/-- The first `i` steps of a probe for `k` met neither a free slot nor `k`. -/
def Passed (n : ℕ) (home : K → ℕ) (t : ℕ → Slot K V) (k : K) (i : ℕ) : Prop :=
  ∀ i' < i, t (slotAt n (home k) i') ≠ .free ∧ ∀ v, t (slotAt n (home k) i') ≠ .live k v

theorem passed_zero (n : ℕ) (home : K → ℕ) (t : ℕ → Slot K V) (k : K) : Passed n home t k 0 :=
  fun _ h => absurd h (Nat.not_lt_zero _)

theorem Passed.succ (hp : Passed n home t k i) (hf : t (slotAt n (home k) i) ≠ .free)
    (hl : ∀ v, t (slotAt n (home k) i) ≠ .live k v) : Passed n home t k (i + 1) := by
  intro i' hi'
  rcases Nat.lt_succ_iff_lt_or_eq.mp hi' with h | rfl
  · exact hp i' h
  · exact ⟨hf, hl⟩

theorem WellFormed.not_stores_of_free (hw : WellFormed n home t) (hp : Passed n home t k i)
    (hf : t (slotAt n (home k) i) = .free) (v : V) : ¬ Stores n t k v := by
  rintro ⟨j, hj, hlive⟩
  obtain ⟨d, hd, rfl⟩ := exists_slotAt (home k) hj
  rcases Nat.lt_trichotomy d i with h | rfl | h
  · exact (hp d h).2 v hlive
  · rw [hf] at hlive
    cases hlive
  · exact hw.unbroken k v d hd hlive i h hf

theorem not_stores_of_passed (hp : Passed n home t k n) (v : V) : ¬ Stores n t k v := by
  rintro ⟨j, hj, hlive⟩
  obtain ⟨d, hd, rfl⟩ := exists_slotAt (home k) hj
  exact (hp d hd).2 v hlive

/-- A probe for `k` that ends without it: at a free slot, or after a whole turn. -/
def Missed (n : ℕ) (home : K → ℕ) (t : ℕ → Slot K V) (k : K) : Prop :=
  (∃ i < n, Passed n home t k i ∧ t (slotAt n (home k) i) = .free) ∨ Passed n home t k n

theorem WellFormed.not_stores_of_missed
    (hw : WellFormed n home t) (hm : Missed n home t k) (v : V) : ¬ Stores n t k v := by
  rcases hm with ⟨i, _, hp, hf⟩ | hp
  · exact hw.not_stores_of_free hp hf v
  · exact not_stores_of_passed hp v

/-- Writing `k` at a step of its own probe keeps the table well formed, if nothing
before that step is free and `k` is live nowhere else. -/
theorem WellFormed.set_live (hw : WellFormed n home t) (hi : i < n) (v : V)
    (hbefore : ∀ i' < i, t (slotAt n (home k) i') ≠ .free)
    (honly : ∀ j < n, ∀ w, t j = .live k w → j = slotAt n (home k) i) :
    WellFormed n home (Function.update t (slotAt n (home k) i) (.live k v)) := by
  constructor
  · intro k' v' d hd hlive d' hd'
    simp only [update_apply] at hlive ⊢
    split_ifs with he'
    · exact nofun
    split_ifs at hlive with he
    · cases hlive
      have hdi := slotAt_inj hd hi he
      exact hbefore d' (hdi ▸ hd')
    · exact hw.unbroken k' v' d hd hlive d' hd'
  · intro a ha b hb k' v' w' hta htb
    simp only [update_apply] at hta htb
    split_ifs at hta htb with hea heb heb
    · rw [hea, heb]
    · cases hta
      exact hea.trans (honly b hb w' htb).symm
    · cases htb
      exact (honly a ha v' hta).trans heb.symm
    · exact hw.single a ha b hb k' v' w' hta htb

theorem WellFormed.set_tombstone (hw : WellFormed n home t) (j : ℕ) :
    WellFormed n home (Function.update t j .tombstone) := by
  constructor
  · intro k v d hd hlive d' hd'
    simp only [update_apply] at hlive ⊢
    split_ifs with he'
    · exact nofun
    split_ifs at hlive
    exact hw.unbroken k v d hd hlive d' hd'
  · intro a ha b hb k v w hta htb
    simp only [update_apply] at hta htb
    split_ifs at hta htb
    exact hw.single a ha b hb k v w hta htb

theorem stores_update_live (hj : j < n) (honly : ∀ i < n, ∀ w, t i = .live k w → i = j)
    (hold : ∀ k' w, t j = .live k' w → k' = k) (k' : K) (v' : V) :
    Stores n (Function.update t j (.live k v)) k' v' ↔
      (k' = k ∧ v' = v) ∨ (k' ≠ k ∧ Stores n t k' v') := by
  constructor
  · rintro ⟨i, hi, hlive⟩
    rw [update_apply] at hlive
    split_ifs at hlive with hij
    · rw [Slot.live.injEq] at hlive
      exact .inl ⟨hlive.1.symm, hlive.2.symm⟩
    · refine .inr ⟨fun hk => hij (honly i hi v' (hk ▸ hlive)), i, hi, hlive⟩
  · rintro (⟨rfl, rfl⟩ | ⟨hk, i, hi, hlive⟩)
    · exact ⟨j, hj, update_self ..⟩
    · refine ⟨i, hi, ?_⟩
      have hij : i ≠ j := fun h => hk (hold k' v' (h ▸ hlive))
      rw [update_of_ne hij]
      exact hlive

theorem Single.stores_update_tombstone (hs : Single n t)
    (hj : j < n) {w : V} (hk : t j = .live k w) (k' : K) (v' : V) :
    Stores n (Function.update t j .tombstone) k' v' ↔ k' ≠ k ∧ Stores n t k' v' := by
  constructor
  · rintro ⟨i, hi, hlive⟩
    rw [update_apply] at hlive
    split_ifs at hlive with hij
    refine ⟨?_, i, hi, hlive⟩
    rintro rfl
    exact hij (hs i hi j hj k' v' w hlive hk)
  · rintro ⟨hne, i, hi, hlive⟩
    refine ⟨i, hi, ?_⟩
    have hij : i ≠ j := by
      rintro rfl
      rw [hk, Slot.live.injEq] at hlive
      exact hne hlive.1.symm
    rw [update_of_ne hij]
    exact hlive

def freeWhere (p : ℕ → Bool) (t : ℕ → Slot K V) (j : ℕ) : Slot K V :=
  if p j then .free else t j

/-- The probe path to a live slot `j` that stays has no slot that `p` selects. -/
def PathAvoids (n : ℕ) (home : K → ℕ) (p : ℕ → Bool) (j : ℕ) : Slot K V → Prop
  | .live k _ => p j = false → ∀ i < n, slotAt n (home k) i = j →
      ∀ i' < i, p (slotAt n (home k) i') = false
  | _ => True

instance (n : ℕ) (home : K → ℕ) (p : ℕ → Bool) (j : ℕ) :
    (s : Slot K V) → Decidable (PathAvoids n home p j s)
  | .live _ _ => inferInstanceAs (Decidable (_ → _))
  | .free => inferInstanceAs (Decidable True)
  | .tombstone => inferInstanceAs (Decidable True)

/-- No slot that `p` selects lies on the probe path of a key that stays. -/
def ChainsAvoid (n : ℕ) (home : K → ℕ) (p : ℕ → Bool) (t : ℕ → Slot K V) : Prop :=
  ∀ j < n, PathAvoids n home p j (t j)

instance (n : ℕ) (home : K → ℕ) (p : ℕ → Bool) (t : ℕ → Slot K V) :
    Decidable (ChainsAvoid n home p t) :=
  inferInstanceAs (Decidable (∀ j < n, _))

theorem chainsAvoid_iff :
    ChainsAvoid n home p t ↔ ∀ k v i, i < n → t (slotAt n (home k) i) = .live k v →
      p (slotAt n (home k) i) = false → ∀ i' < i, p (slotAt n (home k) i') = false := by
  constructor
  · intro h k v i hi hlive hkeep i' hi'
    have hpath := h _ (slotAt_lt (by omega) (home k) i)
    rw [hlive] at hpath
    exact hpath hkeep i hi rfl i' hi'
  · intro h j hj
    cases hs : t j with
    | free | tombstone => trivial
    | live k v =>
      intro hkeep i hi hij i' hi'
      subst hij
      exact h k v i hi hs hkeep i' hi'

theorem stores_freeWhere :
    Stores n (freeWhere p t) k v ↔ ∃ j < n, t j = .live k v ∧ p j = false := by
  unfold Stores freeWhere
  constructor
  · rintro ⟨j, hj, hlive⟩
    split_ifs at hlive with hp
    exact ⟨j, hj, hlive, by simpa using hp⟩
  · rintro ⟨j, hj, hlive, hp⟩
    refine ⟨j, hj, ?_⟩
    rw [hp]
    exact hlive

theorem Single.freeWhere (hs : Single n t) (p : ℕ → Bool) : Single n (freeWhere p t) := by
  intro a ha b hb k v w hta htb
  unfold OpenAddressing.freeWhere at hta htb
  split_ifs at hta htb
  exact hs a ha b hb k v w hta htb

/-- Freeing slots keeps the chains whole exactly when none of them is on the
probe path of a key that stays. -/
theorem unbroken_freeWhere_iff
    (hu : Unbroken n home t) : Unbroken n home (freeWhere p t) ↔ ChainsAvoid n home p t := by
  rw [chainsAvoid_iff]
  constructor
  · intro h k v i hi hlive hkeep i' hi'
    have hlive' : freeWhere p t (slotAt n (home k) i) = .live k v := by
      rw [freeWhere, hkeep]
      exact hlive
    have hnf := h k v i hi hlive' i' hi'
    by_contra hp
    rw [Bool.not_eq_false] at hp
    exact hnf (if_pos hp)
  · intro h k v i hi hlive i' hi'
    unfold freeWhere at hlive ⊢
    split_ifs at hlive with hp
    rw [Bool.not_eq_true] at hp
    rw [h k v i hi hlive hp i' hi']
    exact hu k v i hi hlive i' hi'

def liveCount (n : ℕ) (t : ℕ → Slot K V) : ℕ :=
  ((Finset.range n).filter fun j => (t j).isLive).card

theorem liveCount_le (n : ℕ) (t : ℕ → Slot K V) : liveCount n t ≤ n := by
  have h := Finset.card_filter_le (Finset.range n) fun j => (t j).isLive = true
  rwa [Finset.card_range] at h

theorem liveCount_update (hj : j < n) (t : ℕ → Slot K V) (s : Slot K V) :
    liveCount n (Function.update t j s) + (t j).isLive.toNat = liveCount n t + s.isLive.toNat := by
  have hmem : j ∈ Finset.range n := Finset.mem_range.mpr hj
  have hrest : ∑ i ∈ (Finset.range n).erase j,
      (if (Function.update t j s i).isLive = true then 1 else 0) =
      ∑ i ∈ (Finset.range n).erase j, (if (t i).isLive = true then 1 else 0) :=
    Finset.sum_congr rfl fun i hi => by
      rw [update_of_ne (Finset.ne_of_mem_erase hi)]
  simp only [liveCount, Finset.card_filter]
  rw [← Finset.add_sum_erase _ _ hmem, ← Finset.add_sum_erase _ _ hmem, hrest]
  simp only [update_self]
  cases s.isLive <;> cases (t j).isLive <;> simp <;> omega

@[simp] theorem isLive_freeWhere (p : ℕ → Bool) (t : ℕ → Slot K V) (j : ℕ) :
    (freeWhere p t j).isLive = (!p j && (t j).isLive) := by
  unfold freeWhere
  cases p j <;> rfl

theorem liveCount_freeWhere (n : ℕ) (p : ℕ → Bool) (t : ℕ → Slot K V) :
    liveCount n (freeWhere p t) +
      ((Finset.range n).filter fun j => p j && (t j).isLive).card = liveCount n t := by
  have hkeep : ((Finset.range n).filter fun j => (freeWhere p t j).isLive) =
      ((Finset.range n).filter fun j => (t j).isLive).filter fun j => ¬ p j = true := by
    ext j
    simp only [isLive_freeWhere, Finset.mem_filter]
    cases p j <;> simp
  have hdrop : ((Finset.range n).filter fun j => p j && (t j).isLive) =
      ((Finset.range n).filter fun j => (t j).isLive).filter fun j => p j = true := by
    ext j
    cases hp : p j <;> simp [hp]
  rw [liveCount, hkeep, hdrop, add_comm]
  exact Finset.card_filter_add_card_filter_not _

theorem countP_eq_card_filter {α : Type*} (p : α → Bool) (l : List α) :
    l.countP p = ((Finset.range l.length).filter fun j => l[j]?.any p).card := by
  induction l using List.reverseRecOn with
  | nil => rfl
  | append_singleton l a ih =>
    have hlast : (l ++ [a])[l.length]? = some a := by simp
    have hinit : ((Finset.range l.length).filter fun j => (l ++ [a])[j]?.any p) =
        (Finset.range l.length).filter fun j => l[j]?.any p := by
      apply Finset.filter_congr
      intro j hj
      rw [getElem?_append_left (Finset.mem_range.mp hj)]
    rw [countP_append, ih, length_append, length_singleton, Finset.range_add_one,
      Finset.filter_insert, hlast, hinit]
    cases hp : p a <;> simp [hp]

end Fluxbee.OpenAddressing
