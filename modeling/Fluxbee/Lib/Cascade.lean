import Mathlib.Logic.Hydra

/-! Pools of items in which taking one item out puts in finitely many of the same cause, each of a
lower rank. However large these bursts are, every cause dies out. -/
namespace Fluxbee.Cascade
open Relation

variable {ι κ α : Type*}

/-- One step of a pool, with the item that it takes out. No step starts `c` anew. -/
inductive Step [LT α] (cause : ι → κ) (rank : ι → α) (c : κ) : List ι → Option ι → List ι → Prop
  | fire {pool burst : List ι} {i : ℕ} {x : ι} (hx : pool[i]? = some x)
      (hburst : ∀ y ∈ burst, cause y = cause x ∧ rank y < rank x) :
      Step cause rank c pool (some x) (pool.eraseIdx i ++ burst)
  | start {pool burst : List ι} (hburst : ∀ y ∈ burst, cause y ≠ c) :
      Step cause rank c pool none (pool ++ burst)

variable [DecidableEq κ]

def weight (cause : ι → κ) (rank : ι → α) (c : κ) (pool : List ι) : Multiset α :=
  ((pool : Multiset ι).filter (cause · = c)).map rank

variable {cause : ι → κ} {rank : ι → α} {c : κ} {pool burst : List ι}

theorem weight_append :
    weight cause rank c (pool ++ burst) = weight cause rank c pool + weight cause rank c burst := by
  simp only [weight, ← Multiset.coe_add, Multiset.filter_add, Multiset.map_add]

theorem weight_of_ne (h : ∀ y ∈ burst, cause y ≠ c) : weight cause rank c burst = 0 := by
  have hnone : (burst : Multiset ι).filter (cause · = c) = 0 := by
    rw [Multiset.filter_eq_nil]
    exact h
  rw [weight, hnone, Multiset.map_zero]

theorem weight_cons (x : ι) : weight cause rank c (x :: pool) =
      (if cause x = c then {rank x} else 0) + weight cause rank c pool := by
  unfold weight
  rw [← Multiset.cons_coe]
  by_cases hx : cause x = c
  · rw [Multiset.filter_cons_of_pos (p := (cause · = c)) _ hx, Multiset.map_cons, if_pos hx, Multiset.singleton_add]
  · rw [Multiset.filter_cons_of_neg (p := (cause · = c)) _ hx, if_neg hx, zero_add]

theorem weight_eraseIdx {i : ℕ} {x : ι} (hx : pool[i]? = some x) : weight cause rank c pool =
      (if cause x = c then {rank x} else 0) + weight cause rank c (pool.eraseIdx i) := by
  obtain ⟨hi, rfl⟩ := List.getElem?_eq_some_iff.mp hx
  have hperm : (pool : Multiset ι) = (pool[i] :: pool.eraseIdx i : List ι) :=
    Multiset.coe_eq_coe.mpr (List.getElem_cons_eraseIdx_perm hi).symm
  rw [← weight_cons, weight, hperm, weight]

variable [PartialOrder α] {pool' : List ι}

theorem Step.cutExpand {x : ι} (h : Step cause rank c pool (some x) pool') (hx : cause x = c) :
    CutExpand (· < ·) (weight cause rank c pool') (weight cause rank c pool) := by
  cases h with
  | @fire burst i _ hi hburst =>
    have hlower : ∀ r ∈ weight cause rank c burst, r < rank x := by
      intro r hr
      obtain ⟨y, hy, rfl⟩ := Multiset.mem_map.mp hr
      exact (hburst y (Multiset.mem_of_mem_filter hy)).2
    rw [weight_append, weight_eraseIdx hi, if_pos hx, add_comm {rank x}, cutExpand_add_left]
    exact cutExpand_singleton hlower

theorem Step.weight_eq {taken : Option ι} (h : Step cause rank c pool taken pool')
    (hother : ∀ x ∈ taken, cause x ≠ c) : weight cause rank c pool' = weight cause rank c pool := by
  cases h with
  | @fire burst i x hi hburst =>
    have hx := hother x rfl
    have hnone : weight cause rank c burst = 0 := weight_of_ne fun y hy => (hburst y hy).1 ▸ hx
    rw [weight_append, hnone, add_zero, weight_eraseIdx hi, if_neg hx, zero_add]
  | start hburst => rw [weight_append, weight_of_ne hburst, add_zero]

theorem dies_out [WellFoundedLT α] {pools : ℕ → List ι} {taken : ℕ → Option ι}
    (h : ∀ n, Step cause rank c (pools n) (taken n) (pools (n + 1))) :
    ∃ N, ∀ n ≥ N, ∀ x ∈ taken n, cause x ≠ c := by
  have hwf : WellFounded (CutExpand fun a b : α => a < b) := wellFounded_lt.cutExpand
  obtain ⟨w, ⟨N, hN⟩, hmin⟩ :=
    hwf.has_min (Set.range fun n => weight cause rank c (pools n)) ⟨_, 0, rfl⟩
  -- At the least weight that the run has, no item of the cause can be taken out.
  have hother : ∀ n, weight cause rank c (pools n) = w → ∀ x ∈ taken n, cause x ≠ c := by
    intro n hw x hx hc
    have hstep := h n
    rw [Option.mem_def.mp hx] at hstep
    exact hmin _ ⟨n + 1, rfl⟩ (hw ▸ hstep.cutExpand hc)
  have hstays : ∀ k, weight cause rank c (pools (N + k)) = w := by
    intro k
    induction k with
    | zero => exact hN
    | succ k ih => exact ((h (N + k)).weight_eq (hother _ ih)).trans ih
  refine ⟨N, fun n hn => hother n ?_⟩
  obtain ⟨k, rfl⟩ := Nat.exists_eq_add_of_le hn
  exact hstays k

end Fluxbee.Cascade
