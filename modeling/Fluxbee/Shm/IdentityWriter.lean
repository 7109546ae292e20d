import Fluxbee.Lib.AssocMap
import Fluxbee.Lib.DenseTable
import Fluxbee.Shm.IdentityRegion

/-! The writer of the identity region: the tenants, ILKs, channels and aliases lie in the first
slots of their tables, and an operation that fails is meant to leave them alone. -/
namespace Fluxbee.Shm
open Text SlotTable

def TenantEntry.active (e : TenantEntry) : Bool := e.flags &&& flagActive ≠ 0
def IlkEntry.active (e : IlkEntry) : Bool := e.flags &&& flagActive ≠ 0
def IchEntry.active (e : IchEntry) : Bool := e.flags &&& flagActive ≠ 0
def IlkAliasEntry.active (e : IlkAliasEntry) : Bool := e.flags &&& flagActive ≠ 0

def u16Max : ℕ := 65535

def fixedStr (buf : List UInt8) : String := trim (fromUtf8Lossy (usedBytes buf))

/-- Where each ILK's channels begin and how many there are. -/
def perIlk (ichs : List IchEntry) : AList fun _ : Id16 => ℕ × ℕ :=
  ichs.zipIdx.foldl (fun layout (entry, idx) =>
    if !entry.active then layout
    else
      match layout.lookup entry.ilkId with
      | some (offset, count) => layout.insert entry.ilkId (offset, min (count + 1) u16Max)
      | none => layout.insert entry.ilkId (idx, 1)) ∅

section
variable (ilk : IlkEntry) (layout : ℕ × ℕ)

def withLayout : IlkEntry :=
  { ilk with ichOffset := layout.1, ichCount := layout.2 }

@[simp] theorem active_withLayout : (withLayout ilk layout).active = ilk.active := rfl

@[simp] theorem ilkId_withLayout : (withLayout ilk layout).ilkId = ilk.ilkId := rfl

end

def reindexIlkChannelLayout {n : ℕ} (ilks : Vector IlkEntry n) (ilkCount : ℕ)
    (ichs : List IchEntry) : Vector IlkEntry n :=
  let layout := perIlk ichs
  Vector.ofFn fun i =>
    if i.val < ilkCount ∧ (ilks.get i).active = true then
      withLayout (ilks.get i) ((layout.lookup (ilks.get i).ilkId).getD (0, 0))
    else ilks.get i

namespace IdentityRegion
variable {S : Sections}

def touch (header : IdentityHeader) (now : ℕ) : IdentityHeader :=
  { header with updatedAt := now, heartbeat := now }

def grown (count : ℕ) (fresh : Bool) : ℕ := if fresh then saturatingAdd32 count 1 else count

def isTenant (tenantId : Id16) (e : TenantEntry) : Bool := e.active && decide (e.tenantId = tenantId)
def isIlk (ilkId : Id16) (e : IlkEntry) : Bool := e.active && decide (e.ilkId = ilkId)
def isAlias (oldIlkId : Id16) (e : IlkAliasEntry) : Bool :=
  e.active && decide (e.oldIlkId = oldIlkId)
def isChannelOf (ilkId : Id16) (e : IchEntry) : Bool := e.active && decide (e.ilkId = ilkId)

section
variable (r : IdentityRegion S)

/-- An entry written over another keeps the time the first was created. -/
def upsertTenantEntry (entry : TenantEntry) (now : ℕ) : IdentityRegion S × Except ShmError Unit :=
  if r.header.tenantCount > S.tenants then (r, .error .invalidHeader)
  else
    match DenseTable.upsert r.tenants r.header.tenantCount (isTenant entry.tenantId)
        (fun old => { entry with createdAt := old.createdAt }) entry with
    | none => (r, .error .slotFull)
    | some (tenants, fresh) =>
      ({ r with
         tenants := tenants
         header := touch { r.header with tenantCount := grown r.header.tenantCount fresh } now },
        .ok ())

def upsertIlkEntry (entry : IlkEntry) (now : ℕ) : IdentityRegion S × Except ShmError Unit :=
  if r.header.ilkCount > S.ilks then (r, .error .invalidHeader)
  else
    match DenseTable.upsert r.ilks r.header.ilkCount (isIlk entry.ilkId)
        (fun old => { entry with createdAt := old.createdAt }) entry with
    | none => (r, .error .slotFull)
    | some (ilks, fresh) =>
      ({ r with
         ilks := ilks
         header := touch { r.header with ilkCount := grown r.header.ilkCount fresh } now }, .ok ())

def upsertIlkAliasEntry (entry : IlkAliasEntry) (now : ℕ) :
    IdentityRegion S × Except ShmError Unit :=
  if r.header.ilkAliasCount > S.aliases then (r, .error .invalidHeader)
  else
    match DenseTable.upsert r.aliases r.header.ilkAliasCount (isAlias entry.oldIlkId)
        (fun _ => entry) entry with
    | none => (r, .error .slotFull)
    | some (aliases, fresh) =>
      ({ r with
         aliases := aliases
         header := touch { r.header with ilkAliasCount := grown r.header.ilkAliasCount fresh } now },
        .ok ())

def removeIlkEntry (ilkId : Id16) (now : ℕ) : IdentityRegion S × Except ShmError Bool :=
  if r.header.ilkCount > S.ilks then (r, .error .invalidHeader)
  else
    match DenseTable.remove emptyIlkEntry r.ilks r.header.ilkCount (isIlk ilkId) with
    | none => (r, .ok false)
    | some ilks =>
      ({ r with
         ilks := ilks
         header := touch { r.header with ilkCount := r.header.ilkCount - 1 } now }, .ok true)

def removeIlkAliasEntry (oldIlkId : Id16) (now : ℕ) : IdentityRegion S × Except ShmError Bool :=
  if r.header.ilkAliasCount > S.aliases then (r, .error .invalidHeader)
  else
    match DenseTable.remove emptyIlkAliasEntry r.aliases r.header.ilkAliasCount
        (isAlias oldIlkId) with
    | none => (r, .ok false)
    | some aliases =>
      ({ r with
         aliases := aliases
         header := touch { r.header with ilkAliasCount := r.header.ilkAliasCount - 1 } now },
        .ok true)

def withoutChannels (ilkId : Id16) (h : r.header.ichCount ≤ S.ichs) : Vector IchEntry S.ichs × ℕ :=
  DenseTable.sweep (isChannelOf ilkId) emptyIchEntry r.header.ichCount r.ichs 0
    ((Nat.zero_add _).symm ▸ h)

/-- The old channels go before the room for the new ones is checked. The result is `none` where the
slice of the ILK table runs past its end and the writer panics. -/
def replaceIchEntriesForIlk (ilkId : Id16) (entries : List IchEntry) (now : ℕ) :
    IdentityRegion S × Option (Except ShmError Unit) :=
  if h : r.header.ichCount ≤ S.ichs then
    let swept := r.withoutChannels ilkId h
    if swept.2 + entries.length > S.ichs then
      ({ r with ichs := swept.1 }, some (.error .slotFull))
    else
      let ichs := DenseTable.append swept.1 swept.2 entries
      let used := swept.2 + entries.length
      if r.header.ilkCount ≤ S.ilks then
        ({ r with
           ichs := ichs
           ilks := reindexIlkChannelLayout r.ilks r.header.ilkCount (ichs.toList.take used)
           header := touch { r.header with ichCount := used } now }, some (.ok ()))
      else ({ r with ichs := ichs, header := { r.header with ichCount := used } }, none)
  else (r, some (.error .invalidHeader))

/-- The mappings of a new ILK's channels, up to the first that finds no slot. -/
def provisionMappings {n : ℕ} (mappings : Vector IchMappingEntry n) (count : ℕ) :
    List IchEntry → (Vector IchMappingEntry n × ℕ) × Except ShmError Unit
  | [] => ((mappings, count), .ok ())
  | entry :: rest =>
    let channelType := fixedStr entry.channelType
    let address := fixedStr entry.address
    if channelType = "" ∨ address = "" then provisionMappings mappings count rest
    else
      match upsertIchMappingEntry mappings (computeIchHash channelType address entry.tenantId)
          channelType address entry.ichId entry.ilkId entry.tenantId with
      | .error e => ((mappings, count), .error e)
      | .ok (mappings, inserted) => provisionMappings mappings (grown count inserted) rest

/-- What a temporary ILK is refused for before anything is written. -/
def provisionRefusal (ilk : IlkEntry) (entries : List IchEntry) : Option ShmError :=
  if r.header.ilkCount > S.ilks ∨ r.header.ichCount > S.ichs then some .invalidHeader
  else if r.header.ilkCount ≥ S.ilks ∨ r.header.ichCount + entries.length > S.ichs then
    some .slotFull
  else if (position r.ilks r.header.ilkCount (isIlk ilk.ilkId)).isSome then some .invalidHeader
  else none

def provisionTemporaryIlk (ilk : IlkEntry) (entries : List IchEntry) (now : ℕ) :
    IdentityRegion S × Except ShmError Unit :=
  match r.provisionRefusal ilk entries with
  | some e => (r, .error e)
  | none =>
    let mapped := provisionMappings r.mappings r.header.ichMappingCount entries
    ({ r with
       ichs := DenseTable.append r.ichs r.header.ichCount entries
       ilks := DenseTable.append r.ilks r.header.ilkCount
         [withLayout ilk (r.header.ichCount, min entries.length u16Max)]
       mappings := mapped.1.1
       header := touch { r.header with
         ichCount := saturatingAdd32 r.header.ichCount entries.length
         ilkCount := saturatingAdd32 r.header.ilkCount 1
         ichMappingCount := mapped.1.2 } now }, mapped.2)

end

end IdentityRegion

/-! ## Operations of the writer -/

inductive WriterOp where
  | clear
  | writeSnapshot (tenants : List TenantEntry) (ilks : List IlkEntry) (ichs : List IchEntry)
      (aliases : List IlkAliasEntry) (vocabulary : List VocabularyEntry)
  | upsertTenant (entry : TenantEntry)
  | upsertIlk (entry : IlkEntry)
  | removeIlk (ilkId : Id16)
  | replaceIchs (ilkId : Id16) (entries : List IchEntry)
  | provision (ilk : IlkEntry) (entries : List IchEntry)
  | upsertAlias (entry : IlkAliasEntry)
  | removeAlias (oldIlkId : Id16)
  | upsertMapping (channelType address : String) (ichId ilkId tenantId : Id16)
  | removeMapping (channelType address : String) (tenantId : Id16)
  | clearMappings (ilkId : Id16)

namespace IdentityRegion
variable {S : Sections}

/-- An operation and how it ended: `none` is a panic, what it returns besides is dropped. -/
def exec (r : IdentityRegion S) (now : ℕ) :
    WriterOp → IdentityRegion S × Option (Except ShmError Unit)
  | .clear => (r.clear now, some (.ok ()))
  | .writeSnapshot tenants ilks ichs aliases vocabulary =>
    (r.writeSnapshotEntries tenants ilks ichs aliases vocabulary now).map id some
  | .upsertTenant entry => (r.upsertTenantEntry entry now).map id some
  | .upsertIlk entry => (r.upsertIlkEntry entry now).map id some
  | .removeIlk ilkId => (r.removeIlkEntry ilkId now).map id fun e => some (e.map fun _ => ())
  | .replaceIchs ilkId entries => r.replaceIchEntriesForIlk ilkId entries now
  | .provision ilk entries => (r.provisionTemporaryIlk ilk entries now).map id some
  | .upsertAlias entry => (r.upsertIlkAliasEntry entry now).map id some
  | .removeAlias oldIlkId =>
    (r.removeIlkAliasEntry oldIlkId now).map id fun e => some (e.map fun _ => ())
  | .upsertMapping channelType address ichId ilkId tenantId =>
    (r.upsertIchMapping channelType address ichId ilkId tenantId now).map id some
  | .removeMapping channelType address tenantId =>
    ((r.removeIchMapping channelType address tenantId now).1, some (.ok ()))
  | .clearMappings ilkId => ((r.clearIchMappingsForIlk ilkId now).1, some (.ok ()))

/-- The tables and the counts of the header, not its clocks, are the same. -/
structure Unchanged (r r' : IdentityRegion S) : Prop where
  counts : touch r'.header 0 = touch r.header 0
  tenants : r'.tenants = r.tenants
  ilks : r'.ilks = r.ilks
  ichs : r'.ichs = r.ichs
  mappings : r'.mappings = r.mappings
  aliases : r'.aliases = r.aliases
  vocabulary : r'.vocabulary = r.vocabulary

theorem Unchanged.refl (r : IdentityRegion S) : Unchanged r r := ⟨rfl, rfl, rfl, rfl, rfl, rfl, rfl⟩

/-- Nothing is written by the operation before it can fail: a replacement has no old channels to
take out, and a temporary ILK is refused at once. -/
def FailsClean (r : IdentityRegion S) : WriterOp → Prop
  | .replaceIchs ilkId _ => r.header.ichCount ≤ S.ichs →
      ∀ i : Fin S.ichs, i.val < r.header.ichCount → isChannelOf ilkId (r.ichs.get i) = false
  | .provision ilk entries => (r.provisionRefusal ilk entries).isSome = true
  | _ => True

variable {r : IdentityRegion S} {entries : List IchEntry} {now : ℕ}

theorem replaceIchs_error {ilkId : Id16} {e : ShmError}
    (h : (r.replaceIchEntriesForIlk ilkId entries now).2 = some (.error e)) :
    Unchanged r (r.replaceIchEntriesForIlk ilkId entries now).1 ↔
      FailsClean r (.replaceIchs ilkId entries) := by
  unfold replaceIchEntriesForIlk at h ⊢
  by_cases hcount : r.header.ichCount ≤ S.ichs
  · rw [dif_pos hcount] at h ⊢
    dsimp only at h ⊢
    by_cases hfull : (r.withoutChannels ilkId hcount).2 + entries.length > S.ichs
    · rw [if_pos hfull]
      have hblank : isChannelOf ilkId emptyIchEntry = false := rfl
      have hsweep := DenseTable.sweep_eq_iff (t := r.ichs) hblank
        ((Nat.zero_add _).symm ▸ hcount : 0 + r.header.ichCount ≤ S.ichs)
      simp only [Nat.zero_le, forall_const, Nat.zero_add] at hsweep
      constructor
      · intro hsame _
        exact hsweep.mp hsame.ichs
      · intro hclean
        exact ⟨rfl, rfl, rfl, hsweep.mpr (hclean hcount), rfl, rfl, rfl⟩
    · rw [if_neg hfull] at h
      split_ifs at h
      cases h
  · rw [dif_neg hcount]
    constructor
    · intro _ hle
      exact absurd hle hcount
    · intro _
      exact Unchanged.refl r

theorem provision_error (hmax : S.ilks ≤ u32Max) {ilk : IlkEntry} :
    Unchanged r (r.provisionTemporaryIlk ilk entries now).1 ↔
      FailsClean r (.provision ilk entries) := by
  change _ ↔ (r.provisionRefusal ilk entries).isSome = true
  unfold provisionTemporaryIlk
  cases hrefusal : r.provisionRefusal ilk entries with
  | some e =>
    constructor
    · intro _
      rfl
    · intro _
      exact Unchanged.refl r
  | none =>
    -- Past the checks the ILK is counted, whatever its mappings come to.
    have hroom : r.header.ilkCount < S.ilks := by
      unfold provisionRefusal at hrefusal
      split_ifs at hrefusal with h₁ h₂
      omega
    constructor
    · intro hsame
      have hcount := congrArg IdentityHeader.ilkCount hsame.counts
      change saturatingAdd32 r.header.ilkCount 1 = r.header.ilkCount at hcount
      unfold saturatingAdd32 at hcount
      omega
    · intro hfalse
      cases hfalse

theorem exec_error_same {op : WriterOp} {e : ShmError}
    (hreplace : ∀ ilkId entries, op ≠ .replaceIchs ilkId entries)
    (hprovision : ∀ ilk entries, op ≠ .provision ilk entries)
    (h : (r.exec now op).2 = some (.error e)) : (r.exec now op).1 = r := by
  cases op with
  | clear | removeMapping channelType address tenantId | clearMappings ilkId => cases h
  | replaceIchs ilkId entries => exact absurd rfl (hreplace ilkId entries)
  | provision ilk entries => exact absurd rfl (hprovision ilk entries)
  | writeSnapshot tenants ilks ichs aliases vocabulary =>
    simp only [exec, writeSnapshotEntries] at h ⊢
    split_ifs at h ⊢ <;> first | rfl | cases h
  | upsertTenant entry =>
    simp only [exec, upsertTenantEntry] at h ⊢
    split_ifs at h ⊢
    · rfl
    · split at h
      · rfl
      · cases h
  | upsertIlk entry =>
    simp only [exec, upsertIlkEntry] at h ⊢
    split_ifs at h ⊢
    · rfl
    · split at h
      · rfl
      · cases h
  | upsertAlias entry =>
    simp only [exec, upsertIlkAliasEntry] at h ⊢
    split_ifs at h ⊢
    · rfl
    · split at h
      · rfl
      · cases h
  | removeIlk ilkId =>
    simp only [exec, removeIlkEntry] at h ⊢
    split_ifs at h ⊢
    · rfl
    · split at h <;> cases h
  | removeAlias oldIlkId =>
    simp only [exec, removeIlkAliasEntry] at h ⊢
    split_ifs at h ⊢
    · rfl
    · split at h <;> cases h
  | upsertMapping channelType address ichId ilkId tenantId =>
    simp only [exec, upsertIchMapping] at h ⊢
    split_ifs at h ⊢
    · rfl
    · rfl
    · split at h
      · cases h
      · rfl

/-- A writer operation that returns an error leaves tables and counts as they were exactly when
nothing was written in front of the failure. -/
theorem failed_operation_unchanged_iff (l : IdentityRegionLimits) (r : IdentityRegion l.sections)
    (now : ℕ) (op : WriterOp) (e : ShmError) (h : (r.exec now op).2 = some (.error e)) :
    Unchanged r (r.exec now op).1 ↔ FailsClean r op := by
  have hmax : l.sections.ilks ≤ u32Max := Nat.le_of_lt_succ l.maxIlks.toNat_lt
  by_cases hreplace : ∃ ilkId entries, op = .replaceIchs ilkId entries
  · obtain ⟨ilkId, entries, rfl⟩ := hreplace
    exact replaceIchs_error h
  by_cases hprovision : ∃ ilk entries, op = .provision ilk entries
  · obtain ⟨ilk, entries, rfl⟩ := hprovision
    exact provision_error hmax
  have hsame := exec_error_same (fun a b hop => hreplace ⟨a, b, hop⟩)
    (fun a b hop => hprovision ⟨a, b, hop⟩) h
  have hclean : FailsClean r op := by
    cases op with
    | replaceIchs ilkId entries => exact absurd ⟨ilkId, entries, rfl⟩ hreplace
    | provision ilk entries => exact absurd ⟨ilk, entries, rfl⟩ hprovision
    | _ => trivial
  rw [hsame]
  exact ⟨fun _ => hclean, fun _ => Unchanged.refl r⟩

/-! A region for one ILK, hence for four channels. -/

def soleLimits : IdentityRegionLimits := ⟨1, 1, 0, 0⟩

def soleIlk : Id16 := Vector.replicate 16 1

def soleChannel (k : UInt8) : IchEntry :=
  { emptyIchEntry with ichId := Vector.replicate 16 k, ilkId := soleIlk, flags := flagActive }

def fiveChannels : List IchEntry := [1, 2, 3, 4, 5].map soleChannel

def oneChannel : IdentityRegion soleLimits.sections :=
  ((empty soleLimits.sections 0).exec 1 (.replaceIchs soleIlk [soleChannel 1])).1

/-- Five channels do not fit in the place of one, and the table has lost that one although the
header still counts it. -/
theorem refused_replacement_loses_channels :
    (oneChannel.exec 2 (.replaceIchs soleIlk fiveChannels)).2 = some (.error .slotFull) ∧
      ¬ Unchanged oneChannel (oneChannel.exec 2 (.replaceIchs soleIlk fiveChannels)).1 ∧
      (oneChannel.exec 2 (.replaceIchs soleIlk fiveChannels)).1.header.ichCount = 1 ∧
      ∀ i : Fin soleLimits.sections.ichs,
        ((oneChannel.exec 2 (.replaceIchs soleIlk fiveChannels)).1.ichs.get i).active = false := by
  have herror : (oneChannel.exec 2 (.replaceIchs soleIlk fiveChannels)).2 =
      some (.error .slotFull) := by decide +kernel
  refine ⟨herror, ?_, by decide +kernel, by decide +kernel⟩
  intro hsame
  have hclean := (replaceIchs_error herror).mp hsame (by decide +kernel) ⟨0, by decide⟩
    (by decide +kernel)
  revert hclean
  decide +kernel

/-- In a region without channels the same refusal leaves everything alone. -/
theorem refused_replacement_in_empty_region :
    Unchanged (empty soleLimits.sections 0)
      ((empty soleLimits.sections 0).exec 1 (.replaceIchs soleIlk fiveChannels)).1 :=
  (failed_operation_unchanged_iff soleLimits (empty soleLimits.sections 0) 1
    (.replaceIchs soleIlk fiveChannels) .slotFull (by decide +kernel)).mpr
    fun _ i hi => absurd hi (Nat.not_lt_zero _)

end IdentityRegion
end Fluxbee.Shm
