import Fluxbee.Lib.Text

/-! The records of the identity region and the byte-level helpers that fill them.
Reserved and padding bytes are left out: no code reads them. -/
namespace Fluxbee.Shm
open Text

abbrev Id16 := Vector UInt8 16

def u32Max : ℕ := 4294967295

def saturatingAdd32 (a b : ℕ) : ℕ := min (a + b) u32Max

def ichChannelTypeMaxLen : ℕ := 32
def ichAddressMaxLen : ℕ := 256

def flagActive : UInt16 := 0x0001
def ichMapFlagOccupied : UInt16 := 0x0001
def ichMapFlagTombstone : UInt16 := 0x0002

inductive ShmError where
  | invalidHeader
  | valueTooLong (len max : ℕ)
  | slotFull
  deriving DecidableEq

/-- The buffer after the copy; the source also returns the length copied. -/
def copyBytesWithLen (dst : List UInt8) (src : String) : List UInt8 × ℕ :=
  let bytes := asBytes src
  let len := min bytes.length dst.length
  (bytes.take len ++ dst.drop len, len)

def usedBytes (buf : List UInt8) : List UInt8 := buf.takeWhile (· ≠ 0)

def fixedStrMatches (buf : List UInt8) (value : String) : Bool := usedBytes buf == asBytes value

theorem usedBytes_copyBytesWithLen {n : ℕ} {s : String} (hlen : (asBytes s).length ≤ n)
    (hnul : (0 : UInt8) ∉ asBytes s) :
    usedBytes (copyBytesWithLen (List.replicate n 0) s).1 = asBytes s := by
  have hall : ∀ b ∈ asBytes s, decide (b ≠ 0) = true := fun b hb =>
    decide_eq_true fun h => hnul (h ▸ hb)
  have hzero : ∀ k : ℕ, (List.replicate k (0 : UInt8)).takeWhile (· ≠ 0) = [] := by
    intro k
    cases k <;> simp [List.replicate_succ]
  simp only [copyBytesWithLen, usedBytes, List.length_replicate, Nat.min_eq_left hlen,
    List.take_length, List.drop_replicate]
  rw [List.takeWhile_append_of_pos hall, hzero, List.append_nil]

structure TenantEntry where
  tenantId : Id16
  (name domain : List UInt8)
  status : UInt8
  flags : UInt16
  maxIlks : ℕ
  sponsorTenantId : Id16
  (createdAt updatedAt : ℕ)
  deriving DecidableEq

structure IlkEntry where
  ilkId : Id16
  (ilkType registrationStatus : UInt8)
  flags : UInt16
  tenantId : Id16
  (displayName handlerNode : List UInt8)
  (ichOffset ichCount : ℕ)
  roleHash : List UInt8
  skillHashes : List (List UInt8)
  (skillCount handbookCount : ℕ)
  handbookHashes : List (List UInt8)
  (createdAt updatedAt : ℕ)
  personalityHash : List UInt8

structure IchEntry where
  (ichId ilkId tenantId : Id16)
  (channelType address : List UInt8)
  flags : UInt16
  ownerL2Name : List UInt8
  (isPrimary enabled : UInt8)
  addedAt : ℕ

structure IchMappingEntry where
  hash : UInt64
  (channelType address : List UInt8)
  (ichId ilkId tenantId : Id16)
  flags : UInt16

structure IlkAliasEntry where
  (oldIlkId canonicalIlkId : Id16)
  expiresAt : ℕ
  flags : UInt16

structure VocabularyEntry where
  tag : List UInt8
  tagLen : ℕ
  (category flags : UInt8)
  description : List UInt8
  (descriptionLen createdAt deprecatedAt : ℕ)

def zeroBytes (n : ℕ) : List UInt8 := List.replicate n 0

def zeroId : Id16 := Vector.replicate 16 0

def emptyTenantEntry : TenantEntry :=
  ⟨zeroId, zeroBytes 128, zeroBytes 128, 0, 0, 0, zeroId, 0, 0⟩

def emptyIlkEntry : IlkEntry :=
  ⟨zeroId, 0, 0, 0, zeroId, zeroBytes 128, zeroBytes 128, 0, 0, zeroBytes 32,
    List.replicate 16 (zeroBytes 32), 0, 0, List.replicate 8 (zeroBytes 32), 0, 0, zeroBytes 32⟩

def emptyIchEntry : IchEntry :=
  ⟨zeroId, zeroId, zeroId, zeroBytes ichChannelTypeMaxLen, zeroBytes ichAddressMaxLen, 0,
    zeroBytes 128, 0, 0, 0⟩

def emptyIchMappingEntry : IchMappingEntry :=
  ⟨0, zeroBytes ichChannelTypeMaxLen, zeroBytes ichAddressMaxLen, zeroId, zeroId, zeroId, 0⟩

def emptyIlkAliasEntry : IlkAliasEntry := ⟨zeroId, zeroId, 0, 0⟩

def emptyVocabularyEntry : VocabularyEntry :=
  ⟨zeroBytes 64, 0, 0, 0, zeroBytes 128, 0, 0, 0⟩

def fnvOffsetBasis : UInt64 := 0xcbf29ce484222325
def fnvPrime : UInt64 := 0x100000001b3

def fnvStep (hash : UInt64) (b : UInt8) : UInt64 := (hash ^^^ b.toUInt64) * fnvPrime

/-- FNV-1a over the type, a delimiter, the address, a second delimiter and the tenant. -/
def ichHashBytes (channelType address : List UInt8) (tenantId : Id16) : UInt64 :=
  let hash := fnvStep (channelType.foldl fnvStep fnvOffsetBasis) 0xff
  let hash := fnvStep (address.foldl fnvStep hash) 0xfe
  tenantId.toList.foldl fnvStep hash

def computeIchHash (channelType address : String) (tenantId : Id16) : UInt64 :=
  ichHashBytes (asBytes channelType) (asBytes address) tenantId

end Fluxbee.Shm
