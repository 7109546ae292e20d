import Mathlib.Algebra.Order.Field.Rat
import Mathlib.Data.List.TakeWhile
import Mathlib.Tactic.FieldSimp

/-! JSON numbers: literals part by part, the number a literal stands for, and that a reader takes a
literal back whole when what follows cannot continue it. -/
namespace Fluxbee.Json
open List Option Nat Bool Char

structure Exponent where
  letter : Char
  sign : Option Char
  digits : List Char

structure Literal where
  negative : Bool
  whole : List Char
  fraction : Option (List Char)
  exponent : Option Exponent

section

def Exponent.text (e : Exponent) : List Char := e.letter :: (e.sign.toList ++ e.digits)

def fractionText : Option (List Char) → List Char
  | none => []
  | some ds => '.' :: ds

def exponentText : Option Exponent → List Char
  | none => []
  | some e => e.text

def Literal.text (l : Literal) : List Char :=
  (if l.negative then ['-'] else []) ++ (l.whole ++ (fractionText l.fraction ++ exponentText l.exponent))

def Digits (ds : List Char) : Prop := ds ≠ [] ∧ ∀ c ∈ ds, c.isDigit = true

structure Exponent.Valid (e : Exponent) : Prop where
  letter : e.letter = 'e' ∨ e.letter = 'E'
  sign : e.sign = none ∨ e.sign = some '+' ∨ e.sign = some '-'
  digits : Digits e.digits

/-- A literal of the JSON grammar: no zero before other digits, no empty part. -/
structure Literal.Valid (l : Literal) : Prop where
  whole : Digits l.whole
  zero : l.whole.head? = some '0' → l.whole = ['0']
  fraction : ∀ ds ∈ l.fraction, Digits ds
  exponent : ∀ e ∈ l.exponent, e.Valid

end

section

def digitRun (cs : List Char) : Option (List Char × List Char) :=
  if cs.takeWhile Char.isDigit = [] then none
  else some (cs.takeWhile Char.isDigit, cs.dropWhile Char.isDigit)

def minusPart : List Char → Bool × List Char
  | '-' :: cs => (true, cs)
  | cs => (false, cs)

def wholePart : List Char → Option (List Char × List Char)
  | '0' :: cs => some (['0'], cs)
  | cs => digitRun cs

def fractionPart : List Char → Option (Option (List Char) × List Char)
  | '.' :: cs => (digitRun cs).map fun r => (some r.1, r.2)
  | cs => some (none, cs)

def signPart : List Char → Option Char × List Char
  | '+' :: cs => (some '+', cs)
  | '-' :: cs => (some '-', cs)
  | cs => (none, cs)

def exponentPart : List Char → Option (Option Exponent × List Char)
  | [] => some (none, [])
  | c :: cs =>
    if c = 'e' ∨ c = 'E' then
      (digitRun (signPart cs).2).map fun r => (some ⟨c, (signPart cs).1, r.1⟩, r.2)
    else some (none, c :: cs)

def literal (cs : List Char) : Option (Literal × List Char) :=
  match wholePart (minusPart cs).2 with
  | none => none
  | some (whole, cs₁) =>
    match fractionPart cs₁ with
    | none => none
    | some (fraction, cs₂) =>
      (exponentPart cs₂).map fun r => (⟨(minusPart cs).1, whole, fraction, r.1⟩, r.2)

def Literal.ofText (text : String) : Option Literal :=
  match literal text.toList with
  | some (l, []) => some l
  | _ => none

end

section

def Literal.magnitude (l : Literal) : ℚ :=
  let ds := l.fraction.getD []
  let e : ℤ := match l.exponent with
    | none => 0
    | some e =>
      let n : ℤ := Nat.ofDigitChars 10 e.digits 0
      if e.sign = some '-' then -n else n
  (Nat.ofDigitChars 10 (l.whole ++ ds) 0 : ℚ) * 10 ^ (e - ds.length)

def Literal.integer (l : Literal) : Option ℤ :=
  match l.fraction, l.exponent with
  | none, none =>
    let n : ℤ := Nat.ofDigitChars 10 l.whole 0
    some (if l.negative then -n else n)
  | _, _ => none

def Literal.ofInt (i : ℤ) : Literal := ⟨i < 0, Nat.toDigits 10 i.natAbs, none, none⟩

def Literal.pointed (l : Literal) : Literal := { l with fraction := some ['0'] }

end

variable {fraction : Option (List Char)} {exponent : Option Exponent}

section
variable {cs ds rest : List Char} {c : Char} {l : Literal}

/-- What follows does not go on with a character of the kind. -/
def Ends (kind : Char → Bool) (rest : List Char) : Prop := ∀ c ∈ rest.head?, kind c = false

def Stop (rest : List Char) : Prop :=
  Ends (fun c => c.isDigit || c = '.' || c = 'e' || c = 'E') rest

theorem stop_nil : Stop [] := by
  intro c hc
  cases hc

theorem stop_cons (h : (c.isDigit || c = '.' || c = 'e' || c = 'E') = false) : Stop (c :: rest) := by
  intro d hd
  cases hd
  exact h

theorem Stop.digit (h : Stop rest) : Ends isDigit rest := by
  intro c hc
  have hstop := h c hc
  simp only [or_eq_false_iff] at hstop
  exact hstop.1.1.1

theorem digitRun_append (hds : Digits ds) (h : Ends isDigit rest) :
    digitRun (ds ++ rest) = some (ds, rest) := by
  have htake : rest.takeWhile isDigit = [] := by
    cases rest with
    | nil => rfl
    | cons c rest => simp [h c rfl]
  have hdrop : rest.dropWhile isDigit = rest := by
    cases rest with
    | nil => rfl
    | cons c rest => simp [h c rfl]
  unfold digitRun
  rw [takeWhile_append_of_pos hds.2, dropWhile_append_of_pos hds.2, htake, hdrop,
    append_nil, if_neg hds.1]

theorem wholePart_append (hds : Digits ds) (hzero : ds.head? = some '0' → ds = ['0'])
    (h : Ends isDigit rest) : wholePart (ds ++ rest) = some (ds, rest) := by
  by_cases hhead : ds.head? = some '0'
  · rw [hzero hhead]
    rfl
  · rw [wholePart, digitRun_append hds h]
    intro cs hcs
    cases ds with
    | nil => exact hds.1 rfl
    | cons d ds =>
      cases hcs
      exact hhead rfl

theorem fractionPart_append (hfraction : ∀ ds ∈ fraction, Digits ds)
    (hdigit : Ends isDigit rest) (hpoint : Ends (fun c => c = '.') rest) :
    fractionPart (fractionText fraction ++ rest) = some (fraction, rest) := by
  cases fraction with
  | some ds =>
    change (digitRun (ds ++ rest)).map _ = _
    rw [digitRun_append (hfraction ds rfl) hdigit]
    rfl
  | none =>
    change fractionPart rest = _
    rw [fractionPart]
    intro cs hcs
    subst hcs
    have hdot := hpoint '.' rfl
    simp at hdot

theorem signPart_append {sign : Option Char}
    (hsign : sign = none ∨ sign = some '+' ∨ sign = some '-') (hds : Digits ds) :
    signPart (sign.toList ++ (ds ++ rest)) = (sign, ds ++ rest) := by
  rcases hsign with rfl | rfl | rfl
  · cases ds with
    | nil => exact (hds.1 rfl).elim
    | cons d ds =>
      have hd : d.isDigit = true := hds.2 d (by simp)
      have hplus : d ≠ '+' := by
        rintro rfl
        cases hd
      have hminus : d ≠ '-' := by
        rintro rfl
        cases hd
      change signPart (d :: (ds ++ rest)) = _
      rw [signPart]
      · rfl
      · intro cs hcs
        cases hcs
        exact hplus rfl
      · intro cs hcs
        cases hcs
        exact hminus rfl
  · rfl
  · rfl

theorem exponentPart_append (hexponent : ∀ e ∈ exponent, e.Valid)
    (h : Stop rest) : exponentPart (exponentText exponent ++ rest) = some (exponent, rest) := by
  cases exponent with
  | some e =>
    have he := hexponent e rfl
    change exponentPart (e.letter :: ((e.sign.toList ++ e.digits) ++ rest)) = _
    rw [exponentPart, if_pos he.letter, append_assoc, signPart_append he.sign he.digits,
      digitRun_append he.digits h.digit]
    rfl
  | none =>
    change exponentPart rest = _
    cases rest with
    | nil => rfl
    | cons c rest =>
      have hc := h c rfl
      simp only [or_eq_false_iff, decide_eq_false_iff_not] at hc
      rw [exponentPart, if_neg (by tauto)]

theorem ends_exponentText {kind : Char → Bool}
    (hexponent : ∀ e ∈ exponent, e.Valid) (he : kind 'e' = false) (hE : kind 'E' = false)
    (h : Ends kind rest) : Ends kind (exponentText exponent ++ rest) := by
  cases exponent with
  | none => exact h
  | some e =>
    intro c hc
    cases hc
    rcases (hexponent e rfl).letter with hletter | hletter
    · rw [hletter]
      exact he
    · rw [hletter]
      exact hE

theorem minusPart_append (hds : Digits ds) (negative : Bool) :
    minusPart ((if negative then ['-'] else []) ++ (ds ++ rest)) = (negative, ds ++ rest) := by
  cases negative with
  | true => rfl
  | false =>
    cases ds with
    | nil => exact (hds.1 rfl).elim
    | cons d ds =>
      have hd : d.isDigit = true := hds.2 d (by simp)
      change minusPart (d :: (ds ++ rest)) = _
      rw [minusPart]
      · rfl
      · intro cs hcs
        cases hcs
        cases hd

theorem literal_append (hl : l.Valid) (h : Stop rest) :
    literal (l.text ++ rest) = some (l, rest) := by
  have hpoint : Ends (fun c => c = '.') rest := by
    intro c hc
    have hstop := h c hc
    simp only [or_eq_false_iff] at hstop
    exact hstop.1.1.2
  have hexp := ends_exponentText hl.exponent rfl rfl h.digit
  have hfrac : Ends isDigit (fractionText l.fraction ++ (exponentText l.exponent ++ rest)) := by
    cases hf : l.fraction with
    | none => exact hexp
    | some ds =>
      intro c hc
      cases hc
      rfl
  have htext : l.text ++ rest = (if l.negative then ['-'] else []) ++
      (l.whole ++ (fractionText l.fraction ++ (exponentText l.exponent ++ rest))) := by
    simp only [Literal.text, append_assoc]
  unfold literal
  rw [htext, minusPart_append hl.whole]
  simp only [wholePart_append hl.whole hl.zero hfrac,
    fractionPart_append hl.fraction hexp (ends_exponentText hl.exponent rfl rfl hpoint),
    exponentPart_append hl.exponent h, map_some]

theorem Literal.ofText_text (hl : l.Valid) : Literal.ofText (String.ofList l.text) = some l := by
  have hread := literal_append hl stop_nil
  rw [append_nil] at hread
  unfold Literal.ofText
  rw [String.toList_ofList, hread]

end

section
variable {cs ds rest : List Char}

theorem digitRun_digits (h : digitRun cs = some (ds, rest)) : Digits ds ∧ ds.head? = cs.head? := by
  unfold digitRun at h
  split_ifs at h with hnil
  cases h
  refine ⟨⟨hnil, fun c hc => mem_takeWhile_imp hc⟩, ?_⟩
  cases cs with
  | nil => exact (hnil rfl).elim
  | cons c cs =>
    by_cases hc : c.isDigit = true
    · simp [hc]
    · simp [hc] at hnil

theorem wholePart_digits (h : wholePart cs = some (ds, rest)) :
    Digits ds ∧ (ds.head? = some '0' → ds = ['0']) := by
  unfold wholePart at h
  split at h
  · cases h
    exact ⟨⟨by simp, by simp⟩, fun _ => rfl⟩
  · rename_i hzero
    obtain ⟨hds, hhead⟩ := digitRun_digits h
    refine ⟨hds, fun hnull => ?_⟩
    rw [hhead] at hnull
    cases cs with
    | nil => cases hnull
    | cons c cs =>
      cases hnull
      exact (hzero cs rfl).elim

theorem fractionPart_digits
    (h : fractionPart cs = some (fraction, rest)) : ∀ ds ∈ fraction, Digits ds := by
  intro ds hds
  cases hds
  unfold fractionPart at h
  split at h
  · rename_i cs
    cases hrun : digitRun cs with
    | none =>
      rw [hrun] at h
      cases h
    | some r =>
      rw [hrun] at h
      cases h
      exact (digitRun_digits hrun).1
  · cases h

theorem signPart_sign (cs : List Char) :
    (signPart cs).1 = none ∨ (signPart cs).1 = some '+' ∨ (signPart cs).1 = some '-' := by
  unfold signPart
  split
  · exact .inr (.inl rfl)
  · exact .inr (.inr rfl)
  · exact .inl rfl

theorem exponentPart_valid
    (h : exponentPart cs = some (exponent, rest)) : ∀ e ∈ exponent, e.Valid := by
  intro e he
  cases he
  cases cs with
  | nil => cases h
  | cons c cs =>
    rw [exponentPart] at h
    split_ifs at h with hletter
    · cases hrun : digitRun (signPart cs).2 with
      | none =>
        rw [hrun] at h
        cases h
      | some r =>
        rw [hrun] at h
        cases h
        exact ⟨hletter, signPart_sign cs, (digitRun_digits hrun).1⟩
    · cases h

theorem literal_valid {l : Literal} (h : literal cs = some (l, rest)) : l.Valid := by
  unfold literal at h
  cases hwhole : wholePart (minusPart cs).2 with
  | none => simp [hwhole] at h
  | some whole =>
    cases hfraction : fractionPart whole.2 with
    | none => simp [hwhole, hfraction] at h
    | some fraction =>
      cases hexponent : exponentPart fraction.2 with
      | none => simp [hwhole, hfraction, hexponent] at h
      | some exponent =>
        simp only [hwhole, hfraction, hexponent, map_some, Option.some.injEq, Prod.mk.injEq] at h
        obtain ⟨rfl, -⟩ := h
        obtain ⟨hdigits, hzero⟩ := wholePart_digits hwhole
        exact ⟨hdigits, hzero, fractionPart_digits hfraction, exponentPart_valid hexponent⟩

end

section

theorem head_toDigits (n : ℕ) : (toDigits 10 n).head? = some '0' → n = 0 := by
  induction n using Nat.strong_induction_on with
  | _ n ih =>
    rw [toDigits_eq_if (by decide)]
    split_ifs with h
    · intro hhead
      have hdigit : ∀ m < 10, digitChar m = '0' → m = 0 := by decide
      exact hdigit n h (by simpa using hhead)
    · intro hhead
      have hne : toDigits 10 (n / 10) ≠ [] := toDigits_ne_nil
      rw [head?_append_of_ne_nil _ hne] at hhead
      have hzero := ih (n / 10) (by omega) hhead
      omega

theorem Literal.ofInt_valid (i : ℤ) : (Literal.ofInt i).Valid where
  whole := ⟨toDigits_ne_nil, fun _ hc => isDigit_of_mem_toDigits (by decide) (by decide) hc⟩
  zero h := by
    have hi := head_toDigits i.natAbs h
    change toDigits 10 i.natAbs = _
    rw [hi]
    rfl
  fraction := nofun
  exponent := nofun

theorem Literal.integer_ofInt (i : ℤ) : (Literal.ofInt i).integer = some i := by
  have hdigits : ofDigitChars 10 (toDigits 10 i.natAbs) 0 = i.natAbs :=
    ofDigitChars_toDigits (by decide) (by decide)
  change some (if decide (i < 0) = true then -((ofDigitChars 10 (toDigits 10 i.natAbs) 0 : ℕ) : ℤ)
    else ((ofDigitChars 10 (toDigits 10 i.natAbs) 0 : ℕ) : ℤ)) = some i
  rw [hdigits, Option.some.injEq]
  by_cases hi : i < 0
  · rw [if_pos (by simpa using hi)]
    omega
  · rw [if_neg (by simpa using hi)]
    omega

end

section
variable {l : Literal}

theorem Literal.any_text (hl : l.Valid) : l.text.any (fun c => c = '.' || c = 'e' || c = 'E') =
      (l.fraction.isSome || l.exponent.isSome) := by
  have hdigits : ∀ ds : List Char, Digits ds →
      ds.any (fun c => c = '.' || c = 'e' || c = 'E') = false := by
    intro ds hds
    rw [List.any_eq_false]
    intro c hc hmark
    have hdigit := hds.2 c hc
    simp only [or_eq_true, decide_eq_true_eq] at hmark
    rcases hmark with (rfl | rfl) | rfl <;> cases hdigit
  have hminus : (if l.negative then ['-'] else []).any (fun c => c = '.' || c = 'e' || c = 'E') =
      false := by
    cases l.negative <;> rfl
  have hfraction : (fractionText l.fraction).any (fun c => c = '.' || c = 'e' || c = 'E') =
      l.fraction.isSome := by
    cases l.fraction <;> simp [fractionText]
  have hexponent : (exponentText l.exponent).any (fun c => c = '.' || c = 'e' || c = 'E') =
      l.exponent.isSome := by
    cases he : l.exponent with
    | none => rfl
    | some e =>
      rcases (hl.exponent e he).letter with hletter | hletter <;>
        simp [exponentText, Exponent.text, hletter]
  unfold Literal.text
  rw [any_append, any_append, any_append, hminus, hdigits _ hl.whole, hfraction,
    hexponent, Bool.false_or, Bool.false_or]

theorem Literal.Valid.pointed (hl : l.Valid) : l.pointed.Valid where
  whole := hl.whole
  zero := hl.zero
  fraction ds hds := by
    cases hds
    exact ⟨by simp, by simp⟩
  exponent := hl.exponent

theorem Literal.text_pointed (hfraction : l.fraction = none) (hexponent : l.exponent = none) :
    l.pointed.text = l.text ++ ['.', '0'] := by
  simp [Literal.text, Literal.pointed, hfraction, hexponent, fractionText, exponentText]

theorem Literal.magnitude_pointed (hfraction : l.fraction = none) :
    l.pointed.magnitude = l.magnitude := by
  have happend : ofDigitChars 10 (l.whole ++ ['0']) 0 = 10 * ofDigitChars 10 l.whole 0 := by
    rw [ofDigitChars_append]
    rfl
  have hten : (10 : ℚ) ≠ 0 := by norm_num
  simp only [Literal.magnitude, Literal.pointed, hfraction, getD_some, getD_none,
    happend, append_nil, length_singleton, length_nil, zpow_sub₀ hten]
  push_cast
  field_simp

end

end Fluxbee.Json
