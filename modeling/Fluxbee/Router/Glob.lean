import Fluxbee.Router.Names

/-! Which texts a glob matches: those it expands to with each `*` of the pattern that stands before
a `*` of the text taken for that byte alone. -/
namespace Fluxbee.Router
open Text List

/-- `text` is `pattern` with each `*` replaced by some bytes. -/
inductive Expands : List UInt8 → List UInt8 → Prop
  | nil : Expands [] []
  | byte (b : UInt8) {pattern text : List UInt8} (h : Expands pattern text) :
    Expands (b :: pattern) (b :: text)
  | fill (bytes : List UInt8) {pattern text : List UInt8} (h : Expands pattern text) :
    Expands (star :: pattern) (bytes ++ text)

/-- The same, but that a `*` in front of a `*` of the text stands for just this byte. -/
inductive ExpandsAlone : List UInt8 → List UInt8 → Prop
  | nil : ExpandsAlone [] []
  | byte (b : UInt8) {pattern text : List UInt8} (h : ExpandsAlone pattern text) :
    ExpandsAlone (b :: pattern) (b :: text)
  | fill {pattern text : List UInt8} (n : ℕ) (hhead : text.head? ≠ some star)
    (h : ExpandsAlone pattern (text.drop n)) : ExpandsAlone (star :: pattern) text

section
variable {p t c : List UInt8} {b : UInt8} {n : ℕ}

theorem ExpandsAlone.expands (h : ExpandsAlone p t) : Expands p t := by
  induction h with
  | nil => exact .nil
  | byte b h ih => exact .byte b ih
  | @fill pattern text n hhead h ih =>
    have hfill := Expands.fill (text.take n) ih
    rwa [take_append_drop] at hfill

theorem ExpandsAlone.of_byte (h : ExpandsAlone (b :: p) (b :: t)) : ExpandsAlone p t := by
  cases h with
  | byte _ h => exact h
  | fill n hhead h => exact absurd rfl hhead

theorem ExpandsAlone.of_star (h : ExpandsAlone (star :: p) t) : ∃ n, ExpandsAlone p (t.drop n) := by
  cases h with
  | byte _ h => exact ⟨1, h⟩
  | fill n hhead h => exact ⟨n, h⟩

/-- Where a front of the pattern stands in the text as it is, it takes no less of the text at a later
place, so the rest may be tried behind the earlier one. -/
theorem ExpandsAlone.behind (h : ExpandsAlone (c ++ p) ((c ++ t).drop n)) :
    ∃ m, ExpandsAlone p (t.drop m) := by
  induction c generalizing n with
  | nil => exact ⟨n, h⟩
  | cons b c ih =>
    cases n with
    | zero => exact @ih 0 h.of_byte
    | succ n =>
      rw [cons_append, cons_append, drop_succ_cons] at h
      generalize hu : (c ++ t).drop n = u at h
      cases h with
      | byte _ h =>
        refine @ih (n + 1) ?_
        rwa [← drop_drop, hu]
      | fill m hhead h =>
        refine @ih (n + m) ?_
        rwa [← drop_drop, hu]

theorem all_star_of_expandsAlone (h : ExpandsAlone p []) : p.all (· == star) := by
  generalize ht : ([] : List UInt8) = t at h
  induction h with
  | nil => rfl
  | byte b h ih => cases ht
  | fill n hhead h ih =>
    subst ht
    simpa using ih (by simp)

theorem expandsAlone_nil_of_all (h : p.all (· == star)) : ExpandsAlone p [] := by
  induction p with
  | nil => exact .nil
  | cons b p ih =>
    rw [all_cons, Bool.and_eq_true, beq_iff_eq] at h
    obtain ⟨rfl, h⟩ := h
    exact .fill 0 (by simp) (ih h)

theorem expandsAlone_of_wildcardLoop {retry : Option (List UInt8 × List UInt8)}
    (hle : ∀ r ∈ retry, t.length ≤ r.2.length) (h : wildcardLoop p t retry hle = true) :
    ExpandsAlone p t ∨ ∃ r ∈ retry, ∃ n, ExpandsAlone r.1 (r.2.drop n) := by
  fun_induction wildcardLoop p t retry hle with
  | case1 p retry => exact .inl (expandsAlone_nil_of_all h)
  | case2 p retry b rest _ hhead _ ih =>
    rw [← cons_head?_tail hhead]
    exact (ih h).imp_left (.byte b)
  | case3 p retry b rest _ hne hhead _ ih =>
    have htext : (b :: rest).head? ≠ some star := fun hb => hne (hhead.trans hb.symm)
    rw [← cons_head?_tail hhead]
    rcases ih h with h | ⟨r, hr, n, h⟩
    · exact .inl (.fill 0 htext h)
    · cases hr
      exact .inl (.fill n htext h)
  | case4 p b rest _ _ after tried _ _ ih =>
    rcases ih h with h | ⟨r, hr, n, h⟩
    · exact .inr ⟨_, rfl, 1, by rwa [drop_one]⟩
    · cases hr
      rw [drop_tail] at h
      exact .inr ⟨_, rfl, n + 1, h⟩
  | case5 => cases h

theorem not_expandsAlone_cons (hb : p.head? ≠ some b) (hs : p.head? ≠ some star) :
    ¬ ExpandsAlone p (b :: t) := by
  intro h
  cases h with
  | byte _ h => exact hb rfl
  | fill n hhead h => exact hs rfl

variable {retry : Option (List UInt8 × List UInt8)}

/-- What was read since the last `*` stands in front of both the pattern and the text. -/
def Read (p t : List UInt8) (retry : Option (List UInt8 × List UInt8)) : Prop :=
  ∀ r ∈ retry, ∃ c, r.1 = c ++ p ∧ r.2 = c ++ t

theorem Read.expandsAlone (hread : Read p t retry)
    (h : ExpandsAlone p t ∨ ∃ r ∈ retry, ∃ n, ExpandsAlone r.1 (r.2.drop (n + 1))) :
    ∃ n, ExpandsAlone p (t.drop n) := by
  rcases h with h | ⟨r, hr, n, h⟩
  · exact ⟨0, h⟩
  · obtain ⟨c, hp, ht⟩ := hread r hr
    rw [hp, ht] at h
    exact h.behind

theorem expandsAlone_or_later (h : ∃ n, ExpandsAlone p (t.drop n)) :
    ExpandsAlone p t ∨ ∃ r ∈ some (p, t), ∃ n, ExpandsAlone r.1 (r.2.drop (n + 1)) := by
  obtain ⟨_ | n, h⟩ := h
  · exact .inl h
  · exact .inr ⟨_, rfl, n, h⟩

theorem wildcardLoop_of_expandsAlone (hle : ∀ r ∈ retry, t.length ≤ r.2.length)
    (hread : Read p t retry)
    (h : ExpandsAlone p t ∨ ∃ r ∈ retry, ∃ n, ExpandsAlone r.1 (r.2.drop (n + 1))) :
    wildcardLoop p t retry hle = true := by
  fun_induction wildcardLoop p t retry hle with
  | case1 p retry =>
    obtain ⟨n, hn⟩ := hread.expandsAlone h
    rw [drop_nil] at hn
    exact all_star_of_expandsAlone hn
  | case2 p retry b rest _ hhead _ ih =>
    rw [← cons_head?_tail hhead] at h hread
    refine ih (fun r hr => ?_) (h.imp_left fun h => h.of_byte)
    obtain ⟨c, hp, htext⟩ := hread r hr
    exact ⟨c ++ [b], by simp [hp], by simp [htext]⟩
  | case3 p retry b rest _ _ hhead _ ih =>
    rw [← cons_head?_tail hhead] at h hread
    obtain ⟨n, hn⟩ := hread.expandsAlone h
    obtain ⟨m, hm⟩ := hn.of_star
    rw [drop_drop] at hm
    refine ih (fun r hr => ?_) (expandsAlone_or_later ⟨_, hm⟩)
    cases hr
    exact ⟨[], rfl, rfl⟩
  | case4 p b rest hne hs after tried _ _ ih =>
    rcases h with h | ⟨r, hr, n, h⟩
    · exact absurd h (not_expandsAlone_cons hne hs)
    · cases hr
      rw [← drop_tail] at h
      refine ih (fun r hr => ?_) (expandsAlone_or_later ⟨n, h⟩)
      cases hr
      exact ⟨[], rfl, rfl⟩
  | case5 p b rest hne hs =>
    exact absurd (h.resolve_right (by simp)) (not_expandsAlone_cons hne hs)

theorem wildcardMatch_eq_true_iff : wildcardMatch p t = true ↔ ExpandsAlone p t :=
  ⟨fun h => (expandsAlone_of_wildcardLoop _ h).resolve_right (by simp),
    fun h => wildcardLoop_of_expandsAlone _ (by simp [Read]) (.inl h)⟩

/-- A pattern without `*` has no other way to expand. -/
theorem Expands.alone_of_star_notMem (h : Expands p t) (hp : star ∉ p) : ExpandsAlone p t := by
  induction h with
  | nil => exact .nil
  | byte b h ih => exact .byte b (ih fun hmem => hp (mem_cons_of_mem b hmem))
  | fill bytes h ih => exact absurd mem_cons_self hp

end

/-- The match of a pattern and a text is right exactly if the text, where the pattern expands to it,
is an expansion in which each `*` before a `*` of the text stands for that byte alone. -/
theorem wildcardMatch_right_iff (pattern text : List UInt8) :
    (wildcardMatch pattern text = true ↔ Expands pattern text) ↔
      (Expands pattern text → ExpandsAlone pattern text) := by
  rw [wildcardMatch_eq_true_iff]
  exact ⟨fun h => h.mpr, fun h => ⟨fun halone => halone.expands, h⟩⟩

/-- A pattern without `*` is matched right on every text. -/
example (p t : List UInt8) (hp : star ∉ p) : wildcardMatch p t = true ↔ Expands p t :=
  ⟨fun h => (wildcardMatch_eq_true_iff.mp h).expands,
    fun h => wildcardMatch_eq_true_iff.mpr (h.alone_of_star_notMem hp)⟩

/-- The pattern `*` does not match the destination `*@*`, which it expands to. -/
theorem star_misses_star : wildcardMatch (asBytes "*") (asBytes "*@*") = false ∧
    Expands (asBytes "*") (asBytes "*@*") := by
  have hpattern : asBytes "*" = [star] := by decide
  have htext : asBytes "*@*" = [star, 64, star] := by decide
  rw [hpattern, htext]
  exact ⟨by simp [wildcardMatch, wildcardLoop, star], .fill [star, 64, star] .nil⟩

end Fluxbee.Router
