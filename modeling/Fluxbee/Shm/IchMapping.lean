import Fluxbee.Lib.OpenAddressing
import Fluxbee.Shm.Entries

/-! The ICH mapping table: the probe loops of the source, and what each does to
the table seen as slots. -/
namespace Fluxbee.Shm
open OpenAddressing Text

variable {n : ℕ}

abbrev RawKey := List UInt8 × List UInt8 × Id16

/-- A channel key the table can hold: texts not empty, free of NUL and within their buffers. -/
structure IchKey where
  (channelType address : String)
  tenantId : Id16
  channelType_pos : asBytes channelType ≠ []
  address_pos : asBytes address ≠ []
  channelType_le : (asBytes channelType).length ≤ ichChannelTypeMaxLen
  address_le : (asBytes address).length ≤ ichAddressMaxLen
  channelType_nul : (0 : UInt8) ∉ asBytes channelType
  address_nul : (0 : UInt8) ∉ asBytes address
  deriving DecidableEq

def IchKey.raw (k : IchKey) : RawKey := (asBytes k.channelType, asBytes k.address, k.tenantId)

theorem IchKey.raw_injective : Function.Injective IchKey.raw := by
  rintro ⟨ct, a, t⟩ ⟨ct', a', t'⟩ h
  simp only [IchKey.raw, Prod.mk.injEq] at h
  obtain ⟨hct, ha, rfl⟩ := h
  obtain rfl := asBytes_injective hct
  obtain rfl := asBytes_injective ha
  rfl

def RawKey.hash (k : RawKey) : UInt64 := ichHashBytes k.1 k.2.1 k.2.2

/-- Where the probe for a key starts, before the table's size wraps it. -/
def RawKey.home (k : RawKey) : ℕ := (RawKey.hash k).toNat

def IchMappingEntry.key (e : IchMappingEntry) : RawKey :=
  (usedBytes e.channelType, usedBytes e.address, e.tenantId)

def IchMappingEntry.slot (e : IchMappingEntry) : Slot RawKey (Id16 × Id16) :=
  if e.flags = 0 then .free
  else if e.flags &&& ichMapFlagTombstone ≠ 0 then .tombstone
  else .live e.key (e.ichId, e.ilkId)

/-- What the writers leave in an entry: one of three flag values, and a live entry
carries its own key's hash. -/
structure IchMappingEntry.Valid (e : IchMappingEntry) : Prop where
  flags : e.flags = 0 ∨ e.flags = ichMapFlagOccupied ∨ e.flags = ichMapFlagTombstone
  hash : e.flags = ichMapFlagOccupied → e.hash = RawKey.hash e.key

def IchMappingEntry.isMatch (e : IchMappingEntry) (hash : UInt64) (channelType address : String)
    (tenantId : Id16) : Bool :=
  e.flags &&& ichMapFlagOccupied ≠ 0 && e.hash == hash && e.tenantId == tenantId &&
    fixedStrMatches e.channelType channelType && fixedStrMatches e.address address

def writeIchMappingEntry (hash : UInt64) (channelType address : String)
    (ichId ilkId tenantId : Id16) : IchMappingEntry :=
  { emptyIchMappingEntry with
    hash := hash
    channelType := (copyBytesWithLen emptyIchMappingEntry.channelType channelType).1
    address := (copyBytesWithLen emptyIchMappingEntry.address address).1
    ichId := ichId
    ilkId := ilkId
    tenantId := tenantId
    flags := ichMapFlagOccupied }

def tombstoneEntry (hash : UInt64) : IchMappingEntry :=
  { emptyIchMappingEntry with hash := hash, flags := ichMapFlagTombstone }

def probeIdx (hn : 0 < n) (hash : UInt64) (probe : ℕ) : Fin n :=
  ⟨(hash.toNat % n + probe) % n, Nat.mod_lt _ hn⟩

/-- The loop of `upsert_ich_mapping_entry` with `steps` slots still to look at. The
flag says whether a new entry was made. -/
def upsertProbe (mappings : Vector IchMappingEntry n) (hn : 0 < n) (hash : UInt64)
    (channelType address : String) (ichId ilkId tenantId : Id16) :
    (steps probe : ℕ) → Option (Fin n) → Except ShmError (Vector IchMappingEntry n × Bool)
  | 0, _, firstTombstone =>
    match firstTombstone with
    | some target =>
      .ok (mappings.set target
        (writeIchMappingEntry hash channelType address ichId ilkId tenantId) target.isLt, true)
    | none => .error .slotFull
  | steps + 1, probe, firstTombstone =>
    let idx := probeIdx hn hash probe
    let entry := writeIchMappingEntry hash channelType address ichId ilkId tenantId
    if (mappings.get idx).flags = 0 then .ok (mappings.set (firstTombstone.getD idx) entry
        (firstTombstone.getD idx).isLt, true)
    else if (mappings.get idx).flags &&& ichMapFlagTombstone ≠ 0 then
      upsertProbe mappings hn hash channelType address ichId ilkId tenantId steps (probe + 1)
        (firstTombstone.or (some idx))
    else if (mappings.get idx).isMatch hash channelType address tenantId then
      .ok (mappings.set idx entry idx.isLt, false)
    else
      upsertProbe mappings hn hash channelType address ichId ilkId tenantId steps (probe + 1)
        firstTombstone

section
variable (mappings : Vector IchMappingEntry n) (hash : UInt64) (channelType address : String)

def upsertIchMappingEntry (ichId ilkId tenantId : Id16) :
    Except ShmError (Vector IchMappingEntry n × Bool) :=
  if hn : 0 < n then upsertProbe mappings hn hash channelType address ichId ilkId tenantId n 0 none
  else .error .slotFull

def removeProbe (mappings : Vector IchMappingEntry n) (hn : 0 < n) (hash : UInt64)
    (channelType address : String) (tenantId : Id16) :
    (steps probe : ℕ) → Vector IchMappingEntry n × Bool
  | 0, _ => (mappings, false)
  | steps + 1, probe =>
    let idx := probeIdx hn hash probe
    if (mappings.get idx).flags = 0 then (mappings, false)
    else if (mappings.get idx).flags &&& ichMapFlagTombstone ≠ 0 then
      removeProbe mappings hn hash channelType address tenantId steps (probe + 1)
    else if (mappings.get idx).isMatch hash channelType address tenantId then
      (mappings.set idx (tombstoneEntry hash) idx.isLt, true)
    else removeProbe mappings hn hash channelType address tenantId steps (probe + 1)

def removeIchMappingEntry (tenantId : Id16) : Vector IchMappingEntry n × Bool :=
  if hn : 0 < n then removeProbe mappings hn hash channelType address tenantId n 0
  else (mappings, false)

end

def resolveProbe (mappings : Vector IchMappingEntry n) (hn : 0 < n) (hash : UInt64)
    (channelType address : String) (tenantId : Id16) :
    (steps probe : ℕ) → Option (Id16 × Id16)
  | 0, _ => none
  | steps + 1, probe =>
    let entry := mappings.get (probeIdx hn hash probe)
    if entry.flags = 0 then none
    else if entry.flags &&& ichMapFlagTombstone ≠ 0 then
      resolveProbe mappings hn hash channelType address tenantId steps (probe + 1)
    else if entry.isMatch hash channelType address tenantId then some (entry.ichId, entry.ilkId)
    else resolveProbe mappings hn hash channelType address tenantId steps (probe + 1)

def resolveIchMappingFromEntries (mappings : Vector IchMappingEntry n)
    (channelType address : String) (tenantId : Id16) : Option (Id16 × Id16) :=
  if hn : 0 < n then
    resolveProbe mappings hn (computeIchHash channelType address tenantId) channelType address
      tenantId n 0
  else none

end Fluxbee.Shm
