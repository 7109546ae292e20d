import Mathlib.Data.List.Sort

/-! A window on the latest elements of a sequence: what is kept is the longest suffix that fits, of
the elements in the order of their times, those of one time as they arrived. -/
namespace Fluxbee.RecentWindow
open List

variable {T : Type*}

section
variable (time : T → ℤ)

/-- The elements by their times, those of one time in the order they stand in. -/
def inTimeOrder (l : List T) : List T := l.insertionSort fun a b => time a ≤ time b

def insertAfter (t : T) : List T → List T
  | [] => [t]
  | x :: rest => if time x ≤ time t then x :: insertAfter t rest else t :: x :: rest

variable {time} {t : T} {l front back : List T}

theorem insertAfter_perm : (insertAfter time t l).Perm (t :: l) := by
  induction l with
  | nil => exact List.Perm.refl _
  | cons x rest ih =>
    rw [insertAfter]
    split_ifs
    · exact (ih.cons x).trans (List.Perm.swap t x rest)
    · exact List.Perm.refl _

theorem mem_insertAfter {x : T} : x ∈ insertAfter time t l ↔ x = t ∨ x ∈ l :=
  insertAfter_perm.mem_iff.trans mem_cons

theorem sublist_insertAfter : l.Sublist (insertAfter time t l) := by
  induction l with
  | nil => exact nil_sublist _
  | cons x rest ih =>
    rw [insertAfter]
    split_ifs
    · exact ih.cons_cons x
    · exact sublist_cons_self ..

private theorem orderedInsert_insertAfter (a : T) :
    List.orderedInsert (fun a b => time a ≤ time b) a (insertAfter time t l) =
      insertAfter time t (List.orderedInsert (fun a b => time a ≤ time b) a l) := by
  induction l with
  | nil =>
    by_cases hat : time a ≤ time t <;> simp [insertAfter, hat]
  | cons x rest ih =>
    by_cases hxt : time x ≤ time t
    · by_cases hax : time a ≤ time x
      · have hat := hax.trans hxt
        simp [insertAfter, hxt, hax, hat]
      · simp [insertAfter, hxt, hax, ih]
    · by_cases hat : time a ≤ time t
      · have hax : time a ≤ time x := by omega
        simp [insertAfter, hxt, hat, hax]
      · by_cases hax : time a ≤ time x <;> simp [insertAfter, hxt, hat, hax]

theorem inTimeOrder_concat : inTimeOrder time (l ++ [t]) = insertAfter time t (inTimeOrder time l) := by
  induction l with
  | nil => rfl
  | cons a rest ih =>
    show List.orderedInsert _ a (inTimeOrder time (rest ++ [t])) = _
    rw [ih, orderedInsert_insertAfter]
    rfl

theorem inTimeOrder_sorted : (inTimeOrder time l).Pairwise fun a b => time a ≤ time b :=
  pairwise_insertionSort _ _

theorem mem_inTimeOrder {x : T} : x ∈ inTimeOrder time l ↔ x ∈ l := mem_insertionSort _

theorem inTimeOrder_eq_self (h : l.Pairwise fun a b => time a ≤ time b) : inTimeOrder time l = l :=
  List.Pairwise.insertionSort_eq h

theorem inTimeOrder_append_older (hback : back.Pairwise fun a b => time a ≤ time b)
    (holder : ∀ x ∈ front, ∀ y ∈ back, time x < time y) :
    inTimeOrder time (back ++ front) = inTimeOrder time front ++ back := by
  induction back with
  | nil => exact (append_nil _).symm
  | cons y rest ih =>
    obtain ⟨hy, hrest⟩ := pairwise_cons.mp hback
    have hold := ih hrest fun x hx z hz => holder x hx z (mem_cons_of_mem _ hz)
    have hlt : ∀ x ∈ inTimeOrder time front, time x < time y :=
      fun x hx => holder x (mem_inTimeOrder.mp hx) y (mem_cons_self ..)
    show List.orderedInsert _ y (inTimeOrder time (rest ++ front)) = _
    rw [hold]
    generalize inTimeOrder time front = older at hlt
    -- the insertion passes the older elements and stops at the sorted rest
    induction older with
    | nil =>
      cases rest with
      | nil => rfl
      | cons z rest => simp [hy z (mem_cons_self ..)]
    | cons x older ihx =>
      have hx : ¬ time y ≤ time x := by
        have := hlt x (mem_cons_self ..)
        omega
      simp only [cons_append, List.orderedInsert, if_neg hx, List.cons.injEq, true_and]
      exact ihx fun z hz => hlt z (mem_cons_of_mem _ hz)

theorem insertAfter_append_of_le (h : ∀ y ∈ front, time y ≤ time t) :
    insertAfter time t (front ++ back) = front ++ insertAfter time t back := by
  induction front with
  | nil => rfl
  | cons x rest ih =>
    rw [cons_append, insertAfter, if_pos (h x (mem_cons_self ..)),
      ih fun y hy => h y (mem_cons_of_mem _ hy), cons_append]

variable (back) in
theorem insertAfter_append_of_lt (h : ∃ y ∈ front, time t < time y) :
    insertAfter time t (front ++ back) = insertAfter time t front ++ back ∧
      (insertAfter time t front).getLast? = front.getLast? := by
  induction front with
  | nil => obtain ⟨y, hy, -⟩ := h; cases hy
  | cons x rest ih =>
    by_cases hx : time x ≤ time t
    · have hrest : ∃ y ∈ rest, time t < time y := by
        obtain ⟨y, hy, hlt⟩ := h
        rcases mem_cons.mp hy with rfl | hy
        · omega
        · exact ⟨y, hy, hlt⟩
      obtain ⟨happ, hlast⟩ := ih hrest
      obtain ⟨y, hy, -⟩ := hrest
      have hne : rest ≠ [] := ne_nil_of_mem hy
      have hne' : insertAfter time t rest ≠ [] := ne_nil_of_mem (mem_insertAfter.mpr (.inl rfl))
      constructor
      · rw [cons_append, insertAfter, if_pos hx, happ, insertAfter, if_pos hx, cons_append]
      · rw [insertAfter, if_pos hx, getLast?_cons_of_ne_nil hne,
          getLast?_cons_of_ne_nil hne', hlast]
    · constructor
      · rw [cons_append, insertAfter, if_neg hx, insertAfter, if_neg hx]
        rfl
      · rw [insertAfter, if_neg hx, getLast?_cons_cons]

theorem insertAfter_of_lt (h : ∀ y ∈ l, time t < time y) : insertAfter time t l = t :: l := by
  cases l with
  | nil => rfl
  | cons x rest =>
    have hx : ¬ time x ≤ time t := by
      have := h x (mem_cons_self ..)
      omega
    rw [insertAfter, if_neg hx]

end

section
variable (Fits : List T → Prop) [DecidablePred Fits]

def lastFitting : List T → List T
  | [] => []
  | x :: rest => if Fits (x :: rest) then x :: rest else lastFitting rest

variable {Fits} {l l' front back : List T}

theorem lastFitting_eq_self (h : Fits l) : lastFitting Fits l = l := by
  cases l with
  | nil => rfl
  | cons x rest => rw [lastFitting, if_pos h]

theorem lastFitting_suffix : lastFitting Fits l <:+ l := by
  induction l with
  | nil => exact suffix_rfl
  | cons x rest ih =>
    rw [lastFitting]
    split_ifs
    · exact suffix_rfl
    · exact ih.trans (suffix_cons ..)

theorem fits_lastFitting (hnil : Fits []) : Fits (lastFitting Fits l) := by
  induction l with
  | nil => exact hnil
  | cons x rest ih =>
    rw [lastFitting]
    split_ifs with h
    · exact h
    · exact ih

theorem lastFitting_longest (h : l' <:+ l) (hfits : Fits l') : l' <:+ lastFitting Fits l := by
  induction l with
  | nil => exact h
  | cons x rest ih =>
    rw [lastFitting]
    split_ifs with hx
    · exact h
    · rcases suffix_cons_iff.mp h with rfl | h
      · exact absurd hfits hx
      · exact ih h

variable (Fits l) in
theorem exists_left_out : ∃ front, l = front ++ lastFitting Fits l ∧
    ∀ y ∈ front.getLast?, ¬ Fits (y :: lastFitting Fits l) := by
  induction l with
  | nil => exact ⟨[], rfl, nofun⟩
  | cons x rest ih =>
    rw [lastFitting]
    split_ifs with hx
    · exact ⟨[], rfl, nofun⟩
    · obtain ⟨front, heq, hlast⟩ := ih
      refine ⟨x :: front, by rw [cons_append, ← heq], fun y hy => ?_⟩
      cases front with
      | nil =>
        obtain rfl : x = y := by simpa using hy
        rw [nil_append] at heq
        rwa [← heq]
      | cons z front =>
        rw [getLast?_cons_cons] at hy
        exact hlast y hy

variable (hclosed : ∀ l l' : List T, l.Sublist l' → Fits l' → Fits l)
include hclosed

theorem lastFitting_append (hlast : ∀ y ∈ front.getLast?, ¬ Fits (y :: back)) :
    lastFitting Fits (front ++ back) = lastFitting Fits back := by
  induction front with
  | nil => rfl
  | cons x rest ih =>
    have hsub : ∃ y ∈ (x :: rest).getLast?, (y :: back).Sublist (x :: (rest ++ back)) := by
      refine ⟨(x :: rest).getLast (by simp), getLast?_eq_some_getLast _, ?_⟩
      have hmem : [(x :: rest).getLast (by simp)].Sublist (x :: rest) :=
        singleton_sublist.mpr (getLast_mem _)
      exact hmem.append_right back
    obtain ⟨y, hy, hsub⟩ := hsub
    rw [cons_append, lastFitting, if_neg fun h => hlast y hy (hclosed _ _ hsub h)]
    cases rest with
    | nil => rfl
    | cons z rest => exact ih fun y hy => hlast y (by rwa [getLast?_cons_cons])

section
variable {time : T → ℤ} {t : T}

/-- An arrival keeps the window on everything the window on what it kept, where it is no earlier
than anything left out, or does not come in. -/
theorem lastFitting_insertAfter (hnodup : l.Nodup)
    (h : (∀ y ∈ l, y ∉ lastFitting Fits l → time y ≤ time t) ∨
      (∀ y ∈ lastFitting Fits l, time t < time y) ∧ ¬ Fits (t :: lastFitting Fits l)) :
    lastFitting Fits (insertAfter time t l) =
      lastFitting Fits (insertAfter time t (lastFitting Fits l)) := by
  obtain ⟨front, heq, hlast⟩ := exists_left_out Fits l
  generalize lastFitting Fits l = kept at *
  by_cases hlate : ∀ y ∈ front, time y ≤ time t
  · rw [heq, insertAfter_append_of_le hlate]
    refine lastFitting_append hclosed fun y hy hfits => hlast y hy (hclosed _ _ ?_ hfits)
    exact sublist_insertAfter.cons_cons y
  · obtain ⟨y, hy, hlt⟩ : ∃ y ∈ front, time t < time y := by
      simpa using hlate
    obtain ⟨holder, hout⟩ : (∀ y ∈ kept, time t < time y) ∧ ¬ Fits (t :: kept) := by
      rcases h with hle | h
      · rw [heq] at hnodup
        have hnot : y ∉ kept := fun hk => disjoint_of_nodup_append hnodup hy hk
        have := hle y (heq ▸ mem_append_left _ hy) hnot
        omega
      · exact h
    obtain ⟨happ, hsame⟩ := insertAfter_append_of_lt kept ⟨y, hy, hlt⟩
    rw [heq, happ, lastFitting_append hclosed (by rwa [hsame]), insertAfter_of_lt holder,
      lastFitting, if_neg hout]

theorem lastFitting_inTimeOrder_append (hback : back.Pairwise fun a b => time a ≤ time b)
    (hfits : Fits back) (holder : ∀ x ∈ front, ∀ y ∈ back, time x < time y)
    (hlast : ∀ x ∈ (inTimeOrder time front).getLast?, ¬ Fits (x :: back)) :
    lastFitting Fits (inTimeOrder time (back ++ front)) = back := by
  rw [inTimeOrder_append_older hback holder, lastFitting_append hclosed hlast,
    lastFitting_eq_self hfits]

end
end

end Fluxbee.RecentWindow
