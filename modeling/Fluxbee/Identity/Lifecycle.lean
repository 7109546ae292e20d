import Fluxbee.Identity.Channels
import Mathlib.Data.List.Sort

/-! The lifecycle of ILKs and tenants, active, marked deleted and purged, and the expiry of the
aliases that merges leave. -/
namespace Fluxbee.Identity
open Text Fallible

structure IlkDeleteRequest where
  ilkId : String
  (tenantId ilkType : Option String)

structure LifecycleChanges where
  tenants : List TenantRecord := []
  ilks : List IlkRecord := []
  rescopedIchs : List String := []
  trimmedIlks : List IlkRecord := []
  purgedIlks : List String := []
  purgedAliases : List String := []
  purgedTenants : List String := []

inductive LifecycleOk where
  | ilkDeleted (ilkId : String) (alreadyDeleted : Bool)
  | ilkRestored (ilkId : String)
  | ilkPurged (ilkId : String) (removedAliasCount : ℕ)
  | tenantDeleted (tenantId : String) (alreadyDeleted : Bool) (peopleCharged : ℕ)
  | tenantRestored (tenantId : String) (peopleCharged : ℕ)
  | tenantPurged (tenantId : String) (purgedIlks droppedChannels : ℕ)

def sortUnstable (texts : List String) : List String := texts.insertionSort (· ≤ ·)

def joined (texts : List String) : String := ", ".intercalate texts

namespace IdentityStore

section
variable (s : IdentityStore)

def checkIlkTenantScope (req : IlkDeleteRequest) : Except Fault Unit :=
  let expectedTenant := nonBlank req.tenantId
  let expectedType := nonBlank req.ilkType
  if expectedTenant = none ∧ expectedType = none then .ok ()
  else do
    let entry ← orRefuse (s.ilks.lookup req.ilkId) "ILK_NOT_FOUND"
    require (∀ expected ∈ expectedTenant, entry.tenantId = expected) "ILK_TENANT_MISMATCH"
    require (∀ expected ∈ expectedType, trim entry.ilkType = expected) "ILK_TYPE_MISMATCH"

def checkIlkMarkable (ilkId : String) : Except Fault IlkRecord := do
  let entry ← orRefuse (s.ilks.lookup ilkId) "ILK_NOT_FOUND"
  require (¬ (isWellKnownSystemIlk entry = true ∨ trim entry.ilkType = "system"))
    "SYSTEM_ILK_PROTECTED"
  return entry

/-- The store with `ilkId` marked and out of the lookup, and the marked record; none where it is
marked already. -/
def markIlkUnchecked (ilkId reason : String) (now : ℕ) : IdentityStore × Option IlkRecord :=
  match s.ilks.lookup ilkId with
  | none => (s, none)
  | some entry =>
    if entry.deletedAtMs.isSome then (s, none)
    else
      let record := { entry with deletedAtMs := some now, deletedReason := some reason }
      ({ s with
          ilks := s.ilks.insert ilkId record
          ichLookup := s.ichLookup.retain fun _ mapped => mapped != ilkId }, some record)

/-- The keys a restored ILK's channel takes; a person's Cloud account also takes the
installation-wide one. -/
def restoredKeys (entry : IlkRecord) (channel : ChannelRecord) : List IchKey :=
  channelKey channel entry.tenantId ::
    if isCloudAccountChannel channel.channelType && entry.isHuman then
      [canonicalIchKey channel.channelType channel.address installationScope] else []

def checkKeysRestorable (s : IdentityStore) (ilkId : String) (channel : ChannelRecord) :
    List IchKey → Except Fault Unit
  | [] => .ok ()
  | key :: rest => do
    match s.ichLookup.lookup key with
    | some other =>
      ensure (other = ilkId) (lifecycleError "ILK_KEY_CONFLICT" (ilkId ++ ": channel " ++
        channel.channelType ++ ":" ++ channel.address ++ " is now held by " ++ other))
    | none => .ok ()
    s.checkKeysRestorable ilkId channel rest

def checkChannelsRestorable (s : IdentityStore) (ilkId : String) (entry : IlkRecord) :
    List ChannelRecord → Except Fault Unit
  | [] => .ok ()
  | channel :: rest => do
    s.checkKeysRestorable ilkId channel (restoredKeys entry channel)
    s.checkChannelsRestorable ilkId entry rest

def checkIdentificationRestorable (s : IdentityStore) (ilkId : String) (entry : IlkRecord) :
    List String → Except Fault Unit
  | [] => .ok ()
  | key :: rest => do
    match identificationStr entry.identification key with
    | some value =>
      match s.findActiveIlkByIdentificationKey key value with
      | some other =>
        ensure (other = ilkId) (lifecycleError "ILK_KEY_CONFLICT"
          (ilkId ++ ": " ++ key ++ " " ++ value ++ " is now held by " ++ other))
      | none => .ok ()
    | none => .ok ()
    s.checkIdentificationRestorable ilkId entry rest

def checkIlkRestorable (ilkId : String) : Except Fault Unit := do
  let entry ← orRefuse (s.ilks.lookup ilkId) "ILK_NOT_FOUND"
  s.checkChannelsRestorable ilkId entry entry.channels
  s.checkIdentificationRestorable ilkId entry ["node_name", "email"]

/-- Moves the first channel with the id to the installation-wide scope. -/
def rescope (ichId : String) : List ChannelRecord → List ChannelRecord
  | [] => []
  | c :: rest =>
    if c.ichId = ichId then { c with scope := installationScope } :: rest
    else c :: rescope ichId rest

/-- Nobody holds the installation-wide key of the channel, marked or not, and its email is not
ambiguous. -/
def installationKeyFree (channel : ChannelRecord) : Bool :=
  (s.ichLookup.lookup
      (canonicalIchKey channel.channelType channel.address installationScope)).isNone &&
    (s.deletedIlkHoldingChannel channel.channelType channel.address installationScope).isNone &&
    toAsciiLowercase (trim channel.address) ∉ s.ambiguousAccountEmails

end

def moveAccount (ilkId tenantId : String) (s : IdentityStore) (channel : ChannelRecord) :
    IdentityStore :=
  { s with
    ichLookup := (s.ichLookup.eraseAll [channelKey channel tenantId] ilkId).insert
      (canonicalIchKey channel.channelType channel.address installationScope) ilkId
    ilks := s.ilks.modify ilkId fun ilk => { ilk with channels := rescope channel.ichId ilk.channels } }

def moveAccountLoop (ilkId tenantId : String) :
    List ChannelRecord → IdentityStore → IdentityStore × List String
  | [], s => (s, [])
  | channel :: rest, s =>
    if s.installationKeyFree channel then
      let moved := moveAccountLoop ilkId tenantId rest (moveAccount ilkId tenantId s channel)
      (moved.1, channel.ichId :: moved.2)
    else moveAccountLoop ilkId tenantId rest s

section
variable (s : IdentityStore) (ilkId : String)

def moveAccountToInstallationScope : IdentityStore × List String :=
  match s.ilks.lookup ilkId with
  | none => (s, [])
  | some ilk =>
    if ¬ ilk.isHuman ∨ ilk.registrationStatus ≠ "complete" then (s, [])
    else
      let candidates := ilk.channels.filter fun c =>
        isCloudAccountChannel c.channelType && channelScope c ilk.tenantId != installationScope
      moveAccountLoop ilkId ilk.tenantId candidates s

def unmark (entry : IlkRecord) : IdentityStore :=
  let record := { entry with deletedAtMs := none, deletedReason := none }
  { s with
    ilks := s.ilks.insert ilkId record
    ichLookup := s.ichLookup.insertAll record.keys ilkId }

def unmarkIlkUnchecked : IdentityStore × LifecycleChanges :=
  match s.ilks.lookup ilkId with
  | none => (s, {})
  | some entry =>
    let moved := (s.unmark ilkId entry).moveAccountToInstallationScope ilkId
    (moved.1, { ilks := (moved.1.ilks.lookup ilkId).toList, rescopedIchs := moved.2 })

def aliasOldIdsReferencing : List String :=
  (s.aliases.entries.filter fun e => e.1 == ilkId || e.2.canonicalIlkId == ilkId).map Sigma.fst

def removeIlkPhysically : IdentityStore × List String :=
  let removed := s.aliasOldIdsReferencing ilkId
  ({ s with
      aliases := removed.foldl (fun m a => m.erase a) s.aliases
      ichLookup := s.ichLookup.retain fun _ mapped => mapped != ilkId
      ilks := s.ilks.erase ilkId }, removed)

end

section
variable (req : IlkDeleteRequest)

def deleteIlk (now : ℕ) : Op (LifecycleOk × LifecycleChanges) := do
  let _ ← parsePrefixedUuid req.ilkId "ilk"
  let s ← get
  let _ ← s.checkIlkMarkable req.ilkId
  s.checkIlkTenantScope req
  let (next, marked) := s.markIlkUnchecked req.ilkId deletedReasonDirect now
  set next
  return (.ilkDeleted req.ilkId marked.isNone, { ilks := marked.toList })

def restoreIlk : Op (LifecycleOk × LifecycleChanges) := do
  let _ ← parsePrefixedUuid req.ilkId "ilk"
  let s ← get
  s.checkIlkTenantScope req
  let entry ← orRefuse (s.ilks.lookup req.ilkId) "ILK_NOT_FOUND"
  require (entry.deletedAtMs ≠ none) "ILK_NOT_DELETED"
  ensure (¬ (¬ entry.isHuman ∧ s.tenantIsDeleted entry.tenantId)) (lifecycleError "TENANT_DELETED"
    ("tenant " ++ entry.tenantId ++ " is marked deleted; restore the tenant"))
  s.checkIlkRestorable req.ilkId
  let (next, changes) := s.unmarkIlkUnchecked req.ilkId
  set next
  return (.ilkRestored req.ilkId, changes)

def purgeIlk : Op (LifecycleOk × LifecycleChanges) := do
  let _ ← parsePrefixedUuid req.ilkId "ilk"
  let s ← get
  s.checkIlkTenantScope req
  let entry ← s.checkIlkMarkable req.ilkId
  ensure (entry.deletedAtMs ≠ none) (lifecycleError "ILK_NOT_DELETED"
    "purge requires the ilk to be marked deleted first (ILK_DELETE)")
  let (next, removedAliases) := s.removeIlkPhysically req.ilkId
  set next
  return (.ilkPurged req.ilkId removedAliases.length,
    { purgedAliases := removedAliases, purgedIlks := [req.ilkId] })

end

section
variable (s : IdentityStore) (tenantId : String)

def tenantRecordForLifecycle :
    Except Fault TenantRecord := do
  let _ ← parsePrefixedUuid tenantId "tnt"
  let tenant ← orRefuse (s.tenants.lookup tenantId) "TENANT_NOT_FOUND"
  require (tenantId ≠ defaultRootTenantId) "TENANT_ROOT_PROTECTED"
  return tenant

def tenantPeople : List String :=
  sortUnstable ((s.ilks.values.filter fun ilk =>
    ilk.tenantId == tenantId && ilk.deletedAtMs.isNone && ilk.isHuman &&
      (s.aliases.lookup ilk.ilkId).isNone).map (·.ilkId))

def tenantNodeIlks : List String :=
  sortUnstable ((s.ilks.values.filter fun ilk =>
    ilk.tenantId == tenantId && ilk.deletedAtMs.isNone &&
      (trim ilk.ilkType == "system" ||
        (identificationStr ilk.identification "node_name").isSome)).map fun ilk =>
          (identificationStr ilk.identification "node_name").getD ilk.ilkId)

def tenantChildren (includeDeleted : Bool) : List String :=
  sortUnstable ((s.tenants.values.filter fun tenant =>
    tenant.sponsorTenantId == some tenantId &&
      (includeDeleted || tenant.deletedAtMs.isNone)).map (·.tenantId))

def setTenantMark (mark : Option ℕ) : IdentityStore × LifecycleChanges :=
  match s.tenants.lookup tenantId with
  | none => (s, {})
  | some tenant =>
    let next := { tenant with deletedAtMs := mark }
    ({ s with tenants := s.tenants.insert tenantId next }, { tenants := [next] })

end

def deleteTenant (tenantId : String) (now : ℕ) : Op (LifecycleOk × LifecycleChanges) := do
  let s ← get
  let tenant ← s.tenantRecordForLifecycle tenantId
  let peopleCharged := (s.tenantPeople tenantId).length
  if tenant.deletedAtMs ≠ none then return (.tenantDeleted tenantId true peopleCharged, {})
  else
    ensure (s.tenantChildren tenantId false = []) (lifecycleError "TENANT_HAS_CHILDREN"
      ("sponsors active tenants: " ++ joined (s.tenantChildren tenantId false)))
    ensure (s.tenantNodeIlks tenantId = []) (lifecycleError "TENANT_HAS_NODES"
      ("node identities still in the tenant (kill+purge them first): " ++
        joined (s.tenantNodeIlks tenantId)))
    let (next, changes) := s.setTenantMark tenantId (some now)
    set next
    return (.tenantDeleted tenantId false peopleCharged, changes)

def restoreTenant (tenantId : String) : Op (LifecycleOk × LifecycleChanges) := do
  let s ← get
  let tenant ← s.tenantRecordForLifecycle tenantId
  require (tenant.deletedAtMs ≠ none) "TENANT_NOT_DELETED"
  ensure (∀ sponsor ∈ tenant.sponsorTenantId, ¬ s.tenantIsDeleted sponsor)
    (lifecycleError "TENANT_DELETED" ("its sponsor " ++ tenant.sponsorTenantId.getD "" ++
      " is marked deleted; restore the sponsor first"))
  let (next, changes) := s.setTenantMark tenantId none
  set next
  return (.tenantRestored tenantId (next.tenantPeople tenantId).length, changes)

/-- Takes each holder's channels in `scope` away, with their keys where the lookup maps them to
it. Answers the number of channels dropped and the records left. -/
def dropLoop (scope : String) : List String → IdentityStore → IdentityStore × ℕ × List IlkRecord
  | [], s => (s, 0, [])
  | ilkId :: rest, s =>
    match s.ilks.lookup ilkId with
    | none => dropLoop scope rest s
    | some ilk =>
      let inScope (c : ChannelRecord) : Bool := channelScope c ilk.tenantId == scope
      let gone := ilk.channels.filter inScope
      let next := { ilk with channels := ilk.channels.filter fun c => !inScope c }
      let dropped := dropLoop scope rest
        { s with
          ilks := s.ilks.insert ilkId next
          ichLookup := s.ichLookup.eraseAll (gone.map (channelKey · ilk.tenantId)) ilkId }
      (dropped.1, gone.length + dropped.2.1, next :: dropped.2.2)

def scopeHolders (s : IdentityStore) (scope : String) : List String :=
  sortUnstable ((s.ilks.values.filter fun ilk =>
    ilk.channels.any fun c => channelScope c ilk.tenantId == scope).map (·.ilkId))

def dropChannelsInScope (s : IdentityStore) (scope : String) : IdentityStore × ℕ × List IlkRecord :=
  dropLoop scope (s.scopeHolders scope) s

def purgeLoop : List String → IdentityStore → IdentityStore × List String
  | [], s => (s, [])
  | ilkId :: rest, s =>
    let removed := s.removeIlkPhysically ilkId
    let purged := purgeLoop rest removed.1
    (purged.1, removed.2 ++ purged.2)

def tenantIlks (s : IdentityStore) (tenantId : String) : List String :=
  sortUnstable ((s.ilks.values.filter (·.tenantId == tenantId)).map (·.ilkId))

def peopleShown : ℕ := 20

def tenantHasPeople (people : List String) : Fault :=
  lifecycleError "TENANT_HAS_PEOPLE" (toString people.length ++
    " people are still charged to the tenant; charge them elsewhere first " ++
    "(set_ilk_tenant): " ++ joined (people.take peopleShown) ++
    if people.length > peopleShown then
      " and " ++ toString (people.length - peopleShown) ++ " more" else "")

def purgeTenant (tenantId : String) : Op (LifecycleOk × LifecycleChanges) := do
  let s ← get
  let tenant ← s.tenantRecordForLifecycle tenantId
  ensure (tenant.deletedAtMs ≠ none) (lifecycleError "TENANT_NOT_DELETED"
    "purge requires the tenant to be marked deleted first (TNT_DELETE)")
  ensure (s.tenantChildren tenantId true = []) (lifecycleError "TENANT_HAS_CHILDREN"
    ("sponsors tenants (purge them first): " ++ joined (s.tenantChildren tenantId true)))
  ensure (s.tenantNodeIlks tenantId = []) (lifecycleError "TENANT_HAS_NODES"
    ("node identities still in the tenant: " ++ joined (s.tenantNodeIlks tenantId)))
  ensure (s.tenantPeople tenantId = []) (tenantHasPeople (s.tenantPeople tenantId))
  let ilkIds := s.tenantIlks tenantId
  require (∀ ilkId ∈ ilkIds, ∀ ilk ∈ s.ilks.lookup ilkId, ¬ isWellKnownSystemIlk ilk)
    "SYSTEM_ILK_PROTECTED"
  let (emptied, removedAliases) := purgeLoop ilkIds s
  let (trimmed, droppedChannels, trimmedIlks) := emptied.dropChannelsInScope tenantId
  set { trimmed with tenants := trimmed.tenants.erase tenantId }
  return (.tenantPurged tenantId ilkIds.length droppedChannels,
    { trimmedIlks, purgedIlks := ilkIds, purgedAliases := removedAliases,
      purgedTenants := [tenantId] })

def expiredAliases (s : IdentityStore) (now : ℕ) : List String :=
  (s.aliases.entries.filter fun e => e.2.expiresAtMs ≤ now).map Sigma.fst

/-- A temporary whose alias expired is marked deleted, with no reason. -/
def markExpired (now : ℕ) (ilk : IlkRecord) : IlkRecord :=
  if ilk.registrationStatus = "temporary" ∧ ilk.deletedAtMs = none then
    { ilk with deletedAtMs := some now } else ilk

def gcExpiredAliases (s : IdentityStore) (now : ℕ) : IdentityStore :=
  let expired := s.expiredAliases now
  { s with
    aliases := s.aliases.retain fun _ a => a.expiresAtMs > now
    ilks := expired.foldl (fun ilks old => ilks.modify old (markExpired now)) s.ilks
    ichLookup := s.ichLookup.retain fun _ ilkId => ilkId ∉ expired }

end IdentityStore
end Fluxbee.Identity
