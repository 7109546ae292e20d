import Fluxbee.Lib.Text

/-! UUIDs: the spellings a parser accepts and the one spelling a UUID is printed in. -/
namespace Fluxbee
open List Text

structure Uuid where
  digits : List (Fin 16)
  length_eq : digits.length = 32
  deriving DecidableEq

namespace Uuid

instance : NeZero (16 : ℕ) := ⟨by decide⟩

def uniform (digit : Fin 16) : Uuid := ⟨List.replicate 32 digit, length_replicate⟩

def hexDigit (c : Char) : Option (Fin 16) :=
  let n := c.toNat
  if 0x30 ≤ n ∧ n ≤ 0x39 then some (Fin.ofNat 16 (n - 0x30))
  else if 0x61 ≤ n ∧ n ≤ 0x66 then some (Fin.ofNat 16 (n - 0x61 + 10))
  else if 0x41 ≤ n ∧ n ≤ 0x46 then some (Fin.ofNat 16 (n - 0x41 + 10))
  else none

def parseSimple (cs : List Char) : Option Uuid :=
  match cs.mapM hexDigit with
  | some ds => if h : ds.length = 32 then some ⟨ds, h⟩ else none
  | none => none

def parseHyphenated (cs : List Char) : Option Uuid :=
  if [8, 13, 18, 23].all fun i => cs[i]? == some '-' then
    parseSimple (cs.take 8 ++ (cs.drop 9).take 4 ++ (cs.drop 14).take 4 ++ (cs.drop 19).take 4 ++
      cs.drop 24)
  else none

/-- The simple, the hyphenated, the braced and the URN form, in either case. -/
def parseStr (s : String) : Option Uuid :=
  let cs := s.toList
  match cs.length with
  | 32 => parseSimple cs
  | 36 => parseHyphenated cs
  | 38 => if cs.head? = some '\x7b' ∧ cs.getLast? = some '\x7d' then
      parseHyphenated (cs.tail.take 36) else none
  | 45 => if cs.take 9 = "urn:uuid:".toList then parseHyphenated (cs.drop 9) else none
  | _ => none

def hexChar (d : Fin 16) : Char :=
  if d.val < 10 then Char.ofNat (d.val + 0x30) else Char.ofNat (d.val - 10 + 0x61)

section
variable (u : Uuid)

def chars : List Char :=
  let cs := u.digits.map hexChar
  cs.take 8 ++ '-' :: (cs.drop 8).take 4 ++ '-' :: (cs.drop 12).take 4 ++
    '-' :: (cs.drop 16).take 4 ++ '-' :: cs.drop 20

def hyphenated : String := String.ofList u.chars

theorem plain_hexChar :
    ∀ d : Fin 16, isWhitespace (hexChar d) = false ∧ lowerChar (hexChar d) = hexChar d := by
  decide

theorem plain_hyphenated : Text.Plain u.hyphenated := by
  intro c hc
  have hmap : ∀ c ∈ u.digits.map hexChar, isWhitespace c = false ∧ lowerChar c = c := by
    intro c hc
    obtain ⟨d, -, rfl⟩ := List.mem_map.mp hc
    exact plain_hexChar d
  have hdash : isWhitespace '-' = false ∧ lowerChar '-' = '-' := by decide
  simp only [hyphenated, String.toList_ofList, chars, mem_append, mem_cons] at hc
  rcases hc with ((((h | rfl | h) | rfl | h) | rfl | h) | rfl | h)
  · exact hmap c (mem_of_mem_take h)
  · exact hdash
  · exact hmap c (mem_of_mem_drop (mem_of_mem_take h))
  · exact hdash
  · exact hmap c (mem_of_mem_drop (mem_of_mem_take h))
  · exact hdash
  · exact hmap c (mem_of_mem_drop (mem_of_mem_take h))
  · exact hdash
  · exact hmap c (mem_of_mem_drop h)

theorem hexDigit_hexChar : ∀ d : Fin 16, hexDigit (hexChar d) = some d := by decide

theorem parseSimple_hexChar : parseSimple (u.digits.map hexChar) = some u := by
  have hdigits : ∀ ds : List (Fin 16), (ds.map hexChar).mapM hexDigit = some ds := by
    intro ds
    induction ds with
    | nil => rfl
    | cons d ds ih => simp [mapM_cons, hexDigit_hexChar, ih]
  rw [parseSimple, hdigits]
  exact dif_pos u.length_eq

theorem parseHyphenated_dashed {a b c d e : List Char} (ha : a.length = 8) (hb : b.length = 4)
    (hc : c.length = 4) (hd : d.length = 4) :
    parseHyphenated (a ++ '-' :: b ++ '-' :: c ++ '-' :: d ++ '-' :: e) =
      parseSimple (a ++ b ++ c ++ d ++ e) := by
  unfold parseHyphenated
  rw [if_pos (by simp [getElem?_append, ha, hb, hc, hd])]
  simp (disch := omega) [drop_append, drop_of_length_le, ha, hb, hc, hd]

theorem parseStr_hyphenated : parseStr u.hyphenated = some u := by
  have hlen : (u.digits.map hexChar).length = 32 := by rw [length_map, u.length_eq]
  have hchars : u.hyphenated.toList = u.chars := String.toList_ofList
  have hsize : u.chars.length = 36 := by simp [chars, hlen]
  unfold parseStr
  dsimp only
  rw [hchars, hsize]
  unfold chars
  rw [parseHyphenated_dashed (by simp [hlen]) (by simp [hlen]) (by simp [hlen]) (by simp [hlen]),
    ← parseSimple_hexChar u]
  have hpiece : ∀ (cs : List Char) (i k : ℕ), (cs.drop i).take k ++ cs.drop (i + k) = cs.drop i := by
    intro cs i k
    rw [← drop_drop, take_append_drop]
  simp only [append_assoc]
  rw [hpiece _ 16 4, hpiece _ 12 4, hpiece _ 8 4, take_append_drop]

end

end Uuid
end Fluxbee
