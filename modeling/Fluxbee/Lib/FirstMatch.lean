import Mathlib.Data.List.Sort

/-! The first answer that a stably sorted list gives: it depends on the entries that answer alone. -/
namespace Fluxbee.FirstMatch
open List

variable {α β : Type*} (r : α → α → Prop) [DecidableRel r]

theorem filter_orderedInsert [IsTrans α r] (p : α → Bool) (a : α) {l : List α} (hl : l.Pairwise r) :
    (l.orderedInsert r a).filter p =
      if p a then (l.filter p).orderedInsert r a else l.filter p := by
  induction l with
  | nil => cases h : p a <;> simp [h]
  | cons b rest ih =>
    obtain ⟨hb, hrest⟩ := pairwise_cons.mp hl
    rw [orderedInsert_cons]
    split_ifs with hab hpa hpa
    · -- The new entry comes before all of the list, and so before what the filter leaves of it.
      have hfront : ∀ c ∈ (b :: rest).filter p, r a c := by
        intro c hc
        rcases mem_cons.mp (mem_of_mem_filter hc) with rfl | hc'
        · exact hab
        · exact IsTrans.trans _ _ _ hab (hb c hc')
      rw [filter_cons_of_pos hpa]
      cases hkept : (b :: rest).filter p with
      | nil => rfl
      | cons c more =>
        have hac : r a c := hfront c (by rw [hkept]; exact mem_cons_self)
        rw [orderedInsert_cons, if_pos hac]
    · rw [filter_cons_of_neg hpa]
    · rw [filter_cons, filter_cons, ih hrest, if_pos hpa]
      split_ifs with hpb
      · rw [orderedInsert_of_not_le r _ hab]
      · rfl
    · rw [filter_cons, filter_cons, ih hrest, if_neg hpa]

theorem filter_insertionSort [IsTrans α r] [Std.Total r] (p : α → Bool) (l : List α) :
    (l.insertionSort r).filter p = (l.filter p).insertionSort r := by
  induction l with
  | nil => rfl
  | cons a rest ih =>
    rw [insertionSort_cons, filter_orderedInsert r p a (pairwise_insertionSort r rest), ih,
      filter_cons]
    split_ifs
    · rw [insertionSort_cons]
    · rfl

theorem findSome?_filter_isSome (f : α → Option β) (l : List α) :
    (l.filter fun a => (f a).isSome).findSome? f = l.findSome? f := by
  induction l with
  | nil => rfl
  | cons a rest ih =>
    rw [filter_cons, findSome?_cons]
    cases h : f a with
    | none => simpa using ih
    | some b => simp [h]

variable {f : α → Option β}

theorem findSome?_insertionSort_congr [IsTrans α r] [Std.Total r] {l l' : List α}
    (h : (l.filter fun a => (f a).isSome) = l'.filter fun a => (f a).isSome) :
    (l.insertionSort r).findSome? f = (l'.insertionSort r).findSome? f := by
  rw [← findSome?_filter_isSome f (l.insertionSort r), filter_insertionSort, h,
    ← filter_insertionSort, findSome?_filter_isSome]

theorem findSome?_filter_before [Std.Total r] {a : α} {l : List α} (hl : l.Pairwise r) (ha : a ∈ l)
    (hanswer : (f a).isSome) :
    (l.filter fun b => (f b).isSome && decide (r b a)).findSome? f = l.findSome? f := by
  induction l with
  | nil => cases ha
  | cons b rest ih =>
    obtain ⟨hb, hrest⟩ := List.pairwise_cons.mp hl
    rw [List.filter_cons, List.findSome?_cons]
    cases hfb : f b with
    | none =>
      have hmem : a ∈ rest := (List.mem_cons.mp ha).resolve_left fun h => by simp [h, hfb] at hanswer
      simpa using ih hrest hmem
    | some v =>
      have hba : r b a := by
        rcases List.mem_cons.mp ha with rfl | ha
        · exact (Std.Total.total a a).elim id id
        · exact hb a ha
      simp [hba, hfb]

theorem findSome?_insertionSort_append [IsTrans α r] [Std.Total r] {a : α} {l m : List α}
    (ha : a ∈ l) (hanswer : (f a).isSome) (hbehind : ∀ b ∈ m, (f b).isSome → ¬ r b a) :
    ((l ++ m).insertionSort r).findSome? f = (l.insertionSort r).findSome? f := by
  have hm : m.filter (fun b => (f b).isSome && decide (r b a)) = [] := by
    simpa [List.filter_eq_nil_iff] using hbehind
  have hboth : a ∈ (l ++ m).insertionSort r :=
    (List.mem_insertionSort r).mpr (List.mem_append_left _ ha)
  rw [← findSome?_filter_before r (List.pairwise_insertionSort r _) hboth hanswer,
    filter_insertionSort, List.filter_append, hm, List.append_nil, ← filter_insertionSort,
    findSome?_filter_before r (List.pairwise_insertionSort r _)
      ((List.mem_insertionSort r).mpr ha) hanswer]

end Fluxbee.FirstMatch
