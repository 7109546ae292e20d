import Fluxbee.Shm.IchMapping

/-! The identity region and its writer. Each operation is what it leaves in the
region once its write guard is dropped; `now` is the clock it reads. -/
namespace Fluxbee.Shm
open Text

structure IdentityRegionLimits where
  (maxIlks maxTenants maxVocabulary maxIlkAliases : UInt32)

def saturatingMul32 (a b : ℕ) : ℕ := min (a * b) u32Max

def IdentityRegionLimits.maxIchs (l : IdentityRegionLimits) : ℕ :=
  saturatingMul32 l.maxIlks.toNat 4

def IdentityRegionLimits.maxIchMappings (l : IdentityRegionLimits) : ℕ :=
  saturatingMul32 l.maxIchs 2

structure Sections where
  (tenants ilks ichs mappings aliases vocabulary : ℕ)
  mappings_le : mappings ≤ u32Max

def IdentityRegionLimits.sections (l : IdentityRegionLimits) : Sections where
  tenants := l.maxTenants.toNat
  ilks := l.maxIlks.toNat
  ichs := l.maxIchs
  mappings := l.maxIchMappings
  aliases := l.maxIlkAliases.toNat
  vocabulary := l.maxVocabulary.toNat
  mappings_le := Nat.min_le_right _ _

structure IdentityHeader where
  (tenantCount ilkCount ichCount ichMappingCount vocabularyCount ilkAliasCount updatedAt : ℕ)
  heartbeat : ℕ

structure IdentityRegion (S : Sections) where
  header : IdentityHeader
  tenants : Vector TenantEntry S.tenants
  ilks : Vector IlkEntry S.ilks
  ichs : Vector IchEntry S.ichs
  mappings : Vector IchMappingEntry S.mappings
  aliases : Vector IlkAliasEntry S.aliases
  vocabulary : Vector VocabularyEntry S.vocabulary

namespace IdentityRegion
variable {S : Sections}

/-- A region as it is created, and as `clear` leaves it but for the clock. -/
def empty (S : Sections) (now : ℕ) : IdentityRegion S where
  header := ⟨0, 0, 0, 0, 0, 0, now, now⟩
  tenants := Vector.replicate _ emptyTenantEntry
  ilks := Vector.replicate _ emptyIlkEntry
  ichs := Vector.replicate _ emptyIchEntry
  mappings := Vector.replicate _ emptyIchMappingEntry
  aliases := Vector.replicate _ emptyIlkAliasEntry
  vocabulary := Vector.replicate _ emptyVocabularyEntry

def clear (_ : IdentityRegion S) (now : ℕ) : IdentityRegion S := empty S now

def fill {α : Type} (n : ℕ) (blank : α) (src : List α) : Vector α n :=
  Vector.ofFn fun i => src.getD i blank

section
variable (r : IdentityRegion S)

def writeSnapshotEntries (tenants : List TenantEntry) (ilks : List IlkEntry) (ichs : List IchEntry)
    (aliases : List IlkAliasEntry) (vocabulary : List VocabularyEntry) (now : ℕ) :
    IdentityRegion S × Except ShmError Unit :=
  if tenants.length > S.tenants then (r, .error (.valueTooLong tenants.length S.tenants))
  else if ilks.length > S.ilks then (r, .error (.valueTooLong ilks.length S.ilks))
  else if ichs.length > S.ichs then (r, .error (.valueTooLong ichs.length S.ichs))
  else if aliases.length > S.aliases then (r, .error (.valueTooLong aliases.length S.aliases))
  else if vocabulary.length > S.vocabulary then
    (r, .error (.valueTooLong vocabulary.length S.vocabulary))
  else
    ({ header := ⟨tenants.length, ilks.length, ichs.length, 0, vocabulary.length,
        aliases.length, now, now⟩
       tenants := fill _ emptyTenantEntry tenants
       ilks := fill _ emptyIlkEntry ilks
       ichs := fill _ emptyIchEntry ichs
       mappings := Vector.replicate _ emptyIchMappingEntry
       aliases := fill _ emptyIlkAliasEntry aliases
       vocabulary := fill _ emptyVocabularyEntry vocabulary }, .ok ())

section
variable (channelType address : String)

def upsertIchMapping (ichId ilkId tenantId : Id16) (now : ℕ) :
    IdentityRegion S × Except ShmError Unit :=
  if (asBytes channelType).length > ichChannelTypeMaxLen then
    (r, .error (.valueTooLong (asBytes channelType).length ichChannelTypeMaxLen))
  else if (asBytes address).length > ichAddressMaxLen then
    (r, .error (.valueTooLong (asBytes address).length ichAddressMaxLen))
  else
    match upsertIchMappingEntry r.mappings (computeIchHash channelType address tenantId)
        channelType address ichId ilkId tenantId with
    | .ok (mappings, inserted) =>
      let count := if inserted then saturatingAdd32 r.header.ichMappingCount 1
        else r.header.ichMappingCount
      ({ r with
         mappings := mappings
         header := { r.header with ichMappingCount := count, updatedAt := now, heartbeat := now } },
        .ok ())
    | .error e => (r, .error e)

def removeIchMapping (tenantId : Id16) (now : ℕ) : IdentityRegion S × Bool :=
  match removeIchMappingEntry r.mappings (computeIchHash channelType address tenantId)
      channelType address tenantId with
  | (mappings, true) =>
    ({ r with
       mappings := mappings
       header := { r.header with
         ichMappingCount := r.header.ichMappingCount - 1, updatedAt := now, heartbeat := now } },
      true)
  | (mappings, false) => ({ r with mappings := mappings }, false)

def ownedBy (ilkId : Id16) (e : IchMappingEntry) : Bool :=
  e.flags &&& ichMapFlagOccupied ≠ 0 && e.ilkId == ilkId

/-- The entries of one ILK become empty, not tombstones as `remove_ich_mapping` leaves them. -/
def clearIchMappingsForIlk (ilkId : Id16) (now : ℕ) : IdentityRegion S × ℕ :=
  let removed := min (r.mappings.countP (ownedBy ilkId)) u32Max
  let mappings := r.mappings.map fun e => if ownedBy ilkId e then emptyIchMappingEntry else e
  if removed > 0 then
    ({ r with
       mappings := mappings
       header := { r.header with
         ichMappingCount := r.header.ichMappingCount - removed, updatedAt := now
         heartbeat := now } }, removed)
  else ({ r with mappings := mappings }, removed)

def resolveIchMapping (tenantId : Id16) : Option (Id16 × Id16) :=
  resolveIchMappingFromEntries r.mappings channelType address tenantId

end

end

end IdentityRegion

end Fluxbee.Shm
