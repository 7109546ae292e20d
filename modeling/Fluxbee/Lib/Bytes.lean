import Mathlib.Algebra.Order.Group.Nat
import Mathlib.Data.List.Induction

/-! Big-endian integers of a fixed width, and slices taken off the front of a byte list. -/
namespace Fluxbee.Bytes
open List

/-- The `width` low bytes of `n`, the most significant first. -/
def toBe : ℕ → ℕ → List UInt8
  | 0, _ => []
  | width + 1, n => toBe width (n / 256) ++ [UInt8.ofNat n]

def fromBe (bytes : List UInt8) : ℕ := bytes.foldl (fun n b => n * 256 + b.toNat) 0

@[simp] theorem length_toBe (width n : ℕ) : (toBe width n).length = width := by
  induction width generalizing n with
  | zero => rfl
  | succ width ih => simp [toBe, ih]

theorem fromBe_concat (bytes : List UInt8) (b : UInt8) :
    fromBe (bytes ++ [b]) = fromBe bytes * 256 + b.toNat := by
  simp [fromBe]

variable {width n : ℕ} {bytes front : List UInt8}

theorem fromBe_toBe (h : n < 256 ^ width) : fromBe (toBe width n) = n := by
  induction width generalizing n with
  | zero =>
    have hn : n = 0 := by simpa using h
    rw [hn]
    rfl
  | succ width ih =>
    have hdiv : n / 256 < 256 ^ width := by
      rw [pow_succ] at h
      exact Nat.div_lt_of_lt_mul (by omega)
    have hbyte : (UInt8.ofNat n).toNat = n % 256 := rfl
    rw [toBe, fromBe_concat, ih hdiv, hbyte]
    omega

theorem toBe_fromBe (h : bytes.length = width) : toBe width (fromBe bytes) = bytes := by
  subst h
  induction bytes using List.reverseRecOn with
  | nil => rfl
  | append_singleton bytes b ih =>
    have hb := b.toNat_lt
    have hlow : UInt8.ofNat (fromBe bytes * 256 + b.toNat) = b := by
      apply UInt8.toNat_inj.mp
      simp only [UInt8.toNat_ofNat']
      omega
    have hhigh : (fromBe bytes * 256 + b.toNat) / 256 = fromBe bytes := by omega
    rw [length_append, length_singleton, toBe, fromBe_concat, hlow, hhigh, ih]

def takeBytes (n : ℕ) (bytes : List UInt8) : Option (List UInt8 × List UInt8) :=
  if n ≤ bytes.length then some (bytes.take n, bytes.drop n) else none

theorem takeBytes_append (h : front.length = n)
    (rest : List UInt8) : takeBytes n (front ++ rest) = some (front, rest) := by
  subst h
  simp [takeBytes]

theorem takeBytes_spec {rest : List UInt8}
    (h : takeBytes n bytes = some (front, rest)) : front.length = n ∧ front ++ rest = bytes := by
  unfold takeBytes at h
  split_ifs at h with hle
  cases h
  exact ⟨length_take_of_le hle, take_append_drop n bytes⟩

end Fluxbee.Bytes
