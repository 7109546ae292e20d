import Fluxbee.Lib.Uuid

/-! JSON strings: how a writer quotes one, and that a reader takes back what was quoted. -/
namespace Fluxbee.Json
open Option List

def hexChar (n : ℕ) : Char := Uuid.hexChar (Fin.ofNat 16 n)

def hexDigits (n : ℕ) : List Char :=
  [hexChar (n / 4096), hexChar (n / 256), hexChar (n / 16), hexChar n]

def escapeLetter (c : Char) : Option Char :=
  if c = '"' then some '"'
  else if c = '\\' then some '\\'
  else if c = '\x08' then some 'b'
  else if c = '\x0c' then some 'f'
  else if c = '\n' then some 'n'
  else if c = '\r' then some 'r'
  else if c = '\t' then some 't'
  else none

/-- The characters written by their number: the other controls, and the two line separators, which
scripts that read JSON take for ends of lines. -/
def byNumber (c : Char) : Bool := c.toNat < 0x20 || c.toNat = 0x2028 || c.toNat = 0x2029

def escape (c : Char) : List Char :=
  match escapeLetter c with
  | some letter => ['\\', letter]
  | none => if byNumber c then '\\' :: 'u' :: hexDigits c.toNat else [c]

def quote (s : String) : List Char := '"' :: (s.toList.flatMap escape ++ ['"'])

/-- A piece of a string: a character, or the code unit of an escape with its number. -/
inductive Piece where
  | char (c : Char)
  | unit (n : ℕ)

def hexNumber (cs : List Char) : Option ℕ :=
  cs.foldlM (fun n c => (Uuid.hexDigit c).map fun d => n * 16 + d.val) 0

def unescape (c : Char) : Option Char :=
  if c = '"' ∨ c = '\\' ∨ c = '/' then some c
  else if c = 'b' then some '\x08'
  else if c = 'f' then some '\x0c'
  else if c = 'n' then some '\n'
  else if c = 'r' then some '\r'
  else if c = 't' then some '\t'
  else none

def pieces : List Char → Option (List Piece × List Char)
  | [] => none
  | '"' :: rest => some ([], rest)
  | '\\' :: 'u' :: a :: b :: c :: d :: rest =>
    match hexNumber [a, b, c, d], pieces rest with
    | some n, some (ps, rest) => some (.unit n :: ps, rest)
    | _, _ => none
  | '\\' :: c :: rest =>
    match unescape c, pieces rest with
    | some c, some (ps, rest) => some (.char c :: ps, rest)
    | _, _ => none
  | c :: rest =>
    if c.toNat < 0x20 ∨ c = '\\' then none
    else
      match pieces rest with
      | some (ps, rest) => some (.char c :: ps, rest)
      | none => none

def isHigh (n : ℕ) : Bool := 0xd800 ≤ n && n < 0xdc00
def isLow (n : ℕ) : Bool := 0xdc00 ≤ n && n < 0xe000

/-- The character of one code unit, the replacement character for a half of a pair. -/
def unitChar (n : ℕ) : Char := if isHigh n || isLow n then Char.ofNat 0xfffd else Char.ofNat n

/-- Pairs of code units are one character. -/
def join : List Piece → List Char
  | [] => []
  | .char c :: ps => c :: join ps
  | .unit n :: .unit m :: ps =>
    if isHigh n && isLow m then
      Char.ofNat (0x10000 + (n - 0xd800) * 0x400 + (m - 0xdc00)) :: join ps
    else unitChar n :: join (.unit m :: ps)
  | .unit n :: ps => unitChar n :: join ps

def string (cs : List Char) : Option (String × List Char) :=
  (pieces cs).map fun p => (String.ofList (join p.1), p.2)

def pieceOf (c : Char) : Piece :=
  if (escapeLetter c).isNone && byNumber c then .unit c.toNat else .char c

theorem hexDigit_hexChar (n : ℕ) : Uuid.hexDigit (hexChar n) = some (Fin.ofNat 16 n) :=
  Uuid.hexDigit_hexChar _

theorem hexNumber_hexDigits {n : ℕ} (h : n < 65536) : hexNumber (hexDigits n) = some n := by
  simp only [hexNumber, hexDigits, foldlM, hexDigit_hexChar, map_some,
    bind_eq_bind, bind_some, Option.pure_def, Fin.ofNat, Option.some.injEq]
  omega

variable {c e : Char}

theorem escapeLetter_spec (h : escapeLetter c = some e) : unescape e = some c ∧ e ≠ 'u' := by
  unfold escapeLetter at h
  split_ifs at h
  all_goals
    cases h
    subst c
    decide

theorem pieces_letter {c : Char} (h : unescape e = some c) (hu : e ≠ 'u') (cs : List Char) :
    pieces ('\\' :: e :: cs) = (pieces cs).map fun p => (.char c :: p.1, p.2) := by
  rw [pieces]
  · rw [h]
    cases pieces cs <;> rfl
  · intro a b c' d rest he _
    exact hu he

theorem pieces_unit {n : ℕ} (h : n < 65536) (cs : List Char) :
    pieces ('\\' :: 'u' :: (hexDigits n ++ cs)) =
      (pieces cs).map fun p => (.unit n :: p.1, p.2) := by
  have hn : hexNumber [hexChar (n / 4096), hexChar (n / 256), hexChar (n / 16), hexChar n] = some n :=
    hexNumber_hexDigits h
  simp only [hexDigits, cons_append, nil_append, pieces, hn]
  cases pieces cs <;> rfl

theorem pieces_plain (hquote : c ≠ '"') (hslash : c ≠ '\\') (hcontrol : ¬c.toNat < 0x20)
    (cs : List Char) : pieces (c :: cs) = (pieces cs).map fun p => (.char c :: p.1, p.2) := by
  rw [pieces]
  · simp only [hcontrol, hslash, or_self_iff, if_false]
    cases pieces cs <;> rfl
  · exact fun h => hquote h
  · exact fun _ _ _ _ _ h _ => hslash h
  · exact fun _ _ h _ => hslash h

theorem byNumber_lt (h : byNumber c = true) : c.toNat < 0x3000 := by
  simp only [byNumber, Bool.or_eq_true, decide_eq_true_eq] at h
  omega

theorem pieces_escape (c : Char) (cs : List Char) :
    pieces (escape c ++ cs) = (pieces cs).map fun p => (pieceOf c :: p.1, p.2) := by
  unfold escape pieceOf
  cases hletter : escapeLetter c with
  | some e =>
    obtain ⟨hc, hu⟩ := escapeLetter_spec hletter
    exact pieces_letter hc hu cs
  | none =>
    cases hnum : byNumber c with
    | true =>
      have hlt := byNumber_lt hnum
      simpa using pieces_unit (show c.toNat < 65536 by omega) cs
    | false =>
      have hquote : c ≠ '"' := by
        intro hc
        subst hc
        cases hletter
      have hslash : c ≠ '\\' := by
        intro hc
        subst hc
        cases hletter
      have hcontrol : ¬c.toNat < 0x20 := by
        intro hc
        simp [byNumber, hc] at hnum
      simpa using pieces_plain hquote hslash hcontrol cs

theorem pieces_escaped (cs rest : List Char) :
    pieces (cs.flatMap escape ++ '"' :: rest) = some (cs.map pieceOf, rest) := by
  induction cs with
  | nil => rfl
  | cons c cs ih => rw [flatMap_cons, append_assoc, pieces_escape, ih]; rfl

theorem unitChar_byNumber (h : byNumber c = true) : unitChar c.toNat = c := by
  have hlt := byNumber_lt h
  have hhigh : isHigh c.toNat = false := by simp [isHigh]; omega
  have hlow : isLow c.toNat = false := by simp [isLow]; omega
  simp [unitChar, hhigh, hlow]

theorem join_pieceOf (cs : List Char) : join (cs.map pieceOf) = cs := by
  induction cs with
  | nil => rfl
  | cons c cs ih =>
    rw [map_cons]
    have hc : pieceOf c = .char c ∨ pieceOf c = .unit c.toNat ∧ byNumber c = true := by
      unfold pieceOf
      split_ifs with h
      · simp only [Bool.and_eq_true] at h
        exact .inr ⟨rfl, h.2⟩
      · exact .inl rfl
    rcases hc with hchar | ⟨hunit, hnum⟩
    · rw [hchar, join, ih]
    · have hnothigh : isHigh c.toNat = false := by
        have hlt := byNumber_lt hnum
        simp [isHigh]
        omega
      rw [hunit]
      cases hps : cs.map pieceOf with
      | nil =>
        rw [hps] at ih
        rw [join, unitChar_byNumber hnum, ih]
        exact nofun
      | cons p ps =>
        rw [hps] at ih
        cases p with
        | char d =>
          rw [join, unitChar_byNumber hnum, ih]
          exact nofun
        | unit m =>
          rw [join, hnothigh, unitChar_byNumber hnum, ih]
          rfl

theorem string_quoted (s : String) (rest : List Char) :
    string (s.toList.flatMap escape ++ '"' :: rest) = some (s, rest) := by
  unfold string
  rw [pieces_escaped, map_some, join_pieceOf, String.ofList_toList]

end Fluxbee.Json
