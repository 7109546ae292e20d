import Mathlib.Algebra.Ring.Nat
import Mathlib.Data.List.DropRight

/-! Strings as Rust's standard library treats them: UTF-8 bytes, trimming of Unicode
white space, and ASCII case. -/
namespace Fluxbee.Text
open List

def asBytes (s : String) : List UInt8 := s.toByteArray.data.toList

theorem asBytes_injective : Function.Injective asBytes := by
  intro s t h
  have hd : s.toByteArray.data = t.toByteArray.data := Array.toList_inj.mp h
  exact String.toByteArray_inj.mp (ByteArray.ext hd)

def fromUtf8 (bytes : List UInt8) : Option String := String.fromUTF8? ⟨bytes.toArray⟩

@[simp] theorem fromUtf8_asBytes (s : String) : fromUtf8 (asBytes s) = some s := by
  have hbytes : (⟨(asBytes s).toArray⟩ : ByteArray) = s.toByteArray := by
    unfold asBytes
    rw [Array.toArray_toList]
  unfold fromUtf8
  rw [hbytes, String.fromUTF8?, dif_pos s.isValidUTF8]
  rfl

variable {s : String} {c : Char}

theorem asBytes_of_fromUtf8 {bytes : List UInt8} (h : fromUtf8 bytes = some s) :
    asBytes s = bytes := by
  unfold fromUtf8 String.fromUTF8? at h
  split_ifs at h
  rw [← Option.some.inj h]
  rfl

/-- How many bytes follow a first byte in a well-formed sequence of more than one byte. -/
def continuations (first : UInt8) : ℕ :=
  if 0xc2 ≤ first ∧ first ≤ 0xdf then 1
  else if 0xe0 ≤ first ∧ first ≤ 0xef then 2
  else if 0xf0 ≤ first ∧ first ≤ 0xf4 then 3
  else 0

def isSecond (first next : UInt8) : Bool :=
  if first = 0xe0 then 0xa0 ≤ next && next ≤ 0xbf
  else if first = 0xed then 0x80 ≤ next && next ≤ 0x9f
  else if first = 0xf0 then 0x90 ≤ next && next ≤ 0xbf
  else if first = 0xf4 then 0x80 ≤ next && next ≤ 0x8f
  else 0x80 ≤ next && next ≤ 0xbf

/-- The bytes of `rest` that continue the sequence `first` begins. -/
def continued (first : UInt8) (rest : List UInt8) : List UInt8 :=
  match rest.take (continuations first) with
  | [] => []
  | next :: more =>
    if isSecond first next then next :: more.takeWhile fun b => 0x80 ≤ b && b ≤ 0xbf else []

/-- The scalar value of a sequence whose first byte carries `bits` bits. -/
def scalar (first : UInt8) (bits : ℕ) (more : List UInt8) : ℕ :=
  more.foldl (fun n b => n * 64 + b.toNat % 64) (first.toNat % 2 ^ bits)

/-- Each broken sequence becomes one replacement character. -/
def decodeLossy : ℕ → List UInt8 → List Char
  | 0, _ => []
  | _, [] => []
  | fuel + 1, b :: rest =>
    if b < 0x80 then Char.ofNat b.toNat :: decodeLossy fuel rest
    else
      let more := continued b rest
      let c := if 0 < continuations b ∧ more.length = continuations b then
          Char.ofNat (scalar b (6 - continuations b) more)
        else Char.ofNat 0xfffd
      c :: decodeLossy fuel (rest.drop more.length)

def fromUtf8Lossy (bytes : List UInt8) : String :=
  match fromUtf8 bytes with
  | some s => s
  | none => String.ofList (decodeLossy bytes.length bytes)

def isWhitespace (c : Char) : Bool :=
  let n := c.toNat
  (0x09 ≤ n && n ≤ 0x0d) || n == 0x20 || n == 0x85 || n == 0xa0 || n == 0x1680 ||
    (0x2000 ≤ n && n ≤ 0x200a) || n == 0x2028 || n == 0x2029 || n == 0x202f || n == 0x205f ||
    n == 0x3000

def trim (s : String) : String :=
  String.ofList ((s.toList.dropWhile isWhitespace).reverse.dropWhile isWhitespace).reverse

def lowerChar (c : Char) : Char :=
  if 'A' ≤ c ∧ c ≤ 'Z' then Char.ofNat (c.toNat + 32) else c

def toAsciiLowercase (s : String) : String := String.ofList (s.toList.map lowerChar)

def eqIgnoreAsciiCase (s t : String) : Bool := toAsciiLowercase s == toAsciiLowercase t

theorem eqIgnoreAsciiCase_iff {t : String} :
    eqIgnoreAsciiCase s t = true ↔ toAsciiLowercase s = toAsciiLowercase t := beq_iff_eq

def isBlank (s : String) : Bool := trim s == ""

def stripFront (front s : String) : Option String :=
  if front.toList.isPrefixOf s.toList then some (String.ofList (s.toList.drop front.toList.length))
  else none

def startsWith (s front : String) : Bool := front.toList.isPrefixOf s.toList

def stripBack (back s : String) : Option String :=
  if back.toList.isSuffixOf s.toList then
    some (String.ofList (s.toList.take (s.toList.length - back.toList.length)))
  else none

def splitOnce (c : Char) (s : String) : Option (String × String) :=
  match s.toList.dropWhile (· ≠ c) with
  | [] => none
  | _ :: rest => some (String.ofList (s.toList.takeWhile (· ≠ c)), String.ofList rest)

def Plain (s : String) : Prop := ∀ c ∈ s.toList, isWhitespace c = false ∧ lowerChar c = c

instance (s : String) : Decidable (Plain s) := List.decidableBAll _ s.toList

theorem plain_append {t : String} (hs : Plain s) (ht : Plain t) : Plain (s ++ t) := by
  intro c hc
  rw [String.toList_append, mem_append] at hc
  exact hc.elim (hs c) (ht c)

theorem dropWhile_isWhitespace {cs : List Char} (h : ∀ c ∈ cs, isWhitespace c = false) :
    cs.dropWhile isWhitespace = cs := by
  cases cs with
  | nil => rfl
  | cons c rest => rw [dropWhile_cons_of_neg (by simp [h c])]

theorem trim_of_plain (h : Plain s) : trim s = s := by
  have hfront : s.toList.dropWhile isWhitespace = s.toList :=
    dropWhile_isWhitespace fun c hc => (h c hc).1
  have hback : s.toList.reverse.dropWhile isWhitespace = s.toList.reverse :=
    dropWhile_isWhitespace fun c hc => (h c (mem_reverse.mp hc)).1
  rw [trim, hfront, hback, reverse_reverse, String.ofList_toList]

theorem toAsciiLowercase_of_plain (h : Plain s) : toAsciiLowercase s = s := by
  have hmap : s.toList.map lowerChar = s.toList := by
    rw [map_congr_left fun c hc => (h c hc).2, List.map_id']
  rw [toAsciiLowercase, hmap, String.ofList_toList]

theorem splitOnce_append {a : String} (h : c ∉ a.toList) (b : String) :
    splitOnce c (a ++ String.singleton c ++ b) = some (a, b) := by
  have hall : ∀ d ∈ a.toList, decide (d ≠ c) = true := fun d hd =>
    decide_eq_true fun hdc => h (hdc ▸ hd)
  have hlist : (a ++ String.singleton c ++ b).toList = a.toList ++ c :: b.toList := by simp
  have hdrop : (a.toList ++ c :: b.toList).dropWhile (· ≠ c) = c :: b.toList := by
    rw [dropWhile_append_of_pos hall, dropWhile_cons_of_neg (by simp)]
  have htake : (a.toList ++ c :: b.toList).takeWhile (· ≠ c) = a.toList := by
    rw [takeWhile_append_of_pos hall, takeWhile_cons_of_neg (by simp), append_nil]
  simp only [splitOnce, hlist, hdrop, htake, String.ofList_toList]

theorem splitOnce_eq_some {a b : String} (h : splitOnce c s = some (a, b)) :
    c ∉ a.toList ∧ s = a ++ String.singleton c ++ b := by
  unfold splitOnce at h
  cases hrest : s.toList.dropWhile (· ≠ c) with
  | nil =>
    rw [hrest] at h
    cases h
  | cons d rest =>
    rw [hrest] at h
    simp only [Option.some.injEq, Prod.mk.injEq] at h
    obtain ⟨rfl, rfl⟩ := h
    have hhead := head_dropWhile_not (l := s.toList) (fun x => decide (x ≠ c))
      (by rw [hrest]; exact cons_ne_nil d rest)
    have hd : d = c := by
      simpa only [hrest, head_cons, decide_eq_false_iff_not, not_not] using hhead
    have hjoin : s.toList.takeWhile (· ≠ c) ++ d :: rest = s.toList := by
      rw [← hrest, takeWhile_append_dropWhile]
    constructor
    · intro hmem
      rw [String.toList_ofList] at hmem
      have hne := mem_takeWhile_imp hmem
      exact of_decide_eq_true hne rfl
    · rw [← String.toList_inj, String.toList_append, String.toList_append, String.toList_ofList,
        String.toList_ofList, String.toList_singleton, append_assoc, singleton_append]
      refine hjoin.symm.trans ?_
      rw [hd]

theorem splitOnce_eq_none : splitOnce c s = none ↔ c ∉ s.toList := by
  unfold splitOnce
  cases hrest : s.toList.dropWhile (· ≠ c) with
  | nil =>
    rw [dropWhile_eq_nil_iff] at hrest
    refine iff_of_true rfl fun hmem => ?_
    exact of_decide_eq_true (hrest c hmem) rfl
  | cons d rest =>
    refine iff_of_false (by simp) (not_not.mpr ?_)
    by_contra hmem
    have hnil : s.toList.dropWhile (· ≠ c) = [] := dropWhile_eq_nil_iff.mpr fun d hd =>
      decide_eq_true fun hdc => hmem (hdc ▸ hd)
    rw [hnil] at hrest
    cases hrest

theorem mem_of_mem_trim (h : c ∈ (trim s).toList) : c ∈ s.toList := by
  rw [trim, String.toList_ofList, mem_reverse] at h
  exact (dropWhile_sublist _).mem (mem_reverse.mp ((dropWhile_sublist _).mem h))

theorem dropWhile_rdropWhile_dropWhile {α : Type*} (p : α → Bool) (l : List α) :
    ((l.dropWhile p).rdropWhile p).dropWhile p = (l.dropWhile p).rdropWhile p := by
  rw [dropWhile_eq_self_iff]
  intro hlen
  obtain ⟨rest, hrest⟩ := rdropWhile_prefix p (l.dropWhile p)
  have hhead : 0 < (l.dropWhile p).length := by
    rw [← hrest, length_append]
    omega
  have hsame : ((l.dropWhile p).rdropWhile p)[0] = (l.dropWhile p)[0] := by
    rw [getElem_of_eq hrest.symm hhead, getElem_append_left hlen]
  rw [hsame]
  exact dropWhile_get_zero_not p l hhead

theorem trim_trim (s : String) : trim (trim s) = trim s := by
  have htrim : ∀ t : String, trim t =
      String.ofList ((t.toList.dropWhile isWhitespace).rdropWhile isWhitespace) := fun _ => rfl
  rw [htrim s, htrim, String.toList_ofList, dropWhile_rdropWhile_dropWhile, rdropWhile_idempotent]

theorem upper_induction {P : Char → Prop} (h : ∀ n < 91, 65 ≤ n → P (Char.ofNat n))
    (hc : 'A' ≤ c ∧ c ≤ 'Z') : P c := by
  have hbounds : 65 ≤ c.toNat ∧ c.toNat ≤ 90 := hc
  have hletter := h c.toNat (by omega) hbounds.1
  rwa [Char.ofNat_toNat] at hletter

theorem isWhitespace_lowerChar (c : Char) : isWhitespace (lowerChar c) = isWhitespace c := by
  by_cases h : 'A' ≤ c ∧ c ≤ 'Z'
  · exact upper_induction (P := fun c => isWhitespace (lowerChar c) = isWhitespace c) (by decide) h
  · rw [lowerChar, if_neg h]

theorem lowerChar_lowerChar (c : Char) : lowerChar (lowerChar c) = lowerChar c := by
  by_cases h : 'A' ≤ c ∧ c ≤ 'Z'
  · exact upper_induction (P := fun c => lowerChar (lowerChar c) = lowerChar c) (by decide) h
  · have hsame : lowerChar c = c := if_neg h
    rw [hsame, hsame]

theorem toAsciiLowercase_toAsciiLowercase (s : String) :
    toAsciiLowercase (toAsciiLowercase s) = toAsciiLowercase s := by
  unfold toAsciiLowercase
  rw [String.toList_ofList, List.map_map]
  congr 1
  exact map_congr_left fun c _ => lowerChar_lowerChar c

theorem trim_toAsciiLowercase (s : String) :
    trim (toAsciiLowercase s) = toAsciiLowercase (trim s) := by
  have hspace : isWhitespace ∘ lowerChar = isWhitespace := funext isWhitespace_lowerChar
  unfold trim toAsciiLowercase
  simp only [String.toList_ofList, dropWhile_map, ← map_reverse, hspace]

end Fluxbee.Text
