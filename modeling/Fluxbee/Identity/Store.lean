import Fluxbee.Identity.Records

/-! The identity store and its operations on ILKs. A map's iteration order is the order of its
entries; the time and the new UUIDs an operation draws are its arguments. -/
namespace Fluxbee.Identity
open Text Fallible

structure IdentityStore where
  tenants : AList fun _ : String => TenantRecord
  ilks : AList fun _ : String => IlkRecord
  ichLookup : AList fun _ : IchKey => String
  aliases : AList fun _ : String => AliasRecord
  ambiguousAccountEmails : List String

abbrev Op (α : Type) := Fallible Fault IdentityStore α

def saturatingAdd64 (a b : ℕ) : ℕ := min (a + b) (2 ^ 64 - 1)

def saturatingMul64 (a b : ℕ) : ℕ := min (a * b) (2 ^ 64 - 1)

namespace IdentityStore

def empty : IdentityStore := ⟨∅, ∅, ∅, ∅, []⟩

def rootTenant : TenantRecord :=
  { tenantId := defaultRootTenantId, name := defaultDefaultTenantName, domain := none,
    status := "active", settings := .obj [], sponsorTenantId := none, deletedAtMs := none }

section
variable (s : IdentityStore)

/-- A root tenant that is there keeps its id and its mark. -/
def ensureDefaultRootTenant : IdentityStore :=
  match s.tenants.lookup defaultRootTenantId with
  | some tenant =>
    let next := { rootTenant with tenantId := tenant.tenantId, deletedAtMs := tenant.deletedAtMs }
    { s with tenants := s.tenants.insert defaultRootTenantId next }
  | none => { s with tenants := s.tenants.insert defaultRootTenantId rootTenant }

def withDefaultTenant : IdentityStore := empty.ensureDefaultRootTenant

def defaultTenantId : Option String :=
  if (s.tenants.lookup defaultRootTenantId).isSome then some defaultRootTenantId else none

def tenantIsDeleted (tenantId : String) : Bool :=
  ((s.tenants.lookup tenantId).map (·.deletedAtMs.isSome)).getD false

def findActiveIlkByIdentificationKey (key expected : String) : Option String :=
  if isBlank expected then none
  else (s.ilks.entries.find? fun e =>
    e.2.deletedAtMs.isNone && identificationStr e.2.identification key == some (trim expected)).map
      Sigma.fst

def deletedIlkHoldingIdentification (key expected : String) : Option String :=
  if isBlank expected then none
  else (s.ilks.values.find? fun ilk =>
    ilk.deletedAtMs.isSome && identificationStr ilk.identification key == some (trim expected)).map
      (·.ilkId)

def ilkHoldingEmail (tenantId email : String) (deleted : Bool) : Option String :=
  if isBlank email then none
  else (s.ilks.values.find? fun ilk =>
    ilk.deletedAtMs.isSome == deleted && ilk.tenantId == tenantId &&
      identificationStr ilk.identification "email" == some (trim email)).map (·.ilkId)

def checkIchIdFree (ichId : String) (allowed : List String) : Except Fault Unit :=
  match s.ilks.values.find? fun ilk =>
      ilk.channels.any fun c => eqIgnoreAsciiCase (trim c.ichId) (trim ichId) with
  | some ilk => require (ilk.ilkId ∈ allowed) "ICH_ID_CONFLICT"
  | none => .ok ()

def checkChannelFree (key : IchKey) (allowed : List String) :
    Except Fault Unit := do
  require (¬ s.ilks.values.any fun ilk =>
    ilk.deletedAtMs.isSome && ilk.ilkId ∉ allowed && ilk.keys.contains key)
    "ILK_DELETED"
  match s.ichLookup.lookup key with
  | some holder => require (holder ∈ allowed) "ICH_CONFLICT"
  | none => .ok ()

def deletedIlkHoldingChannel (channelType address scope : String) : Option String :=
  (s.ilks.values.find? fun ilk =>
    ilk.deletedAtMs.isSome && ilk.keys.contains (canonicalIchKey channelType address scope)).map
      (·.ilkId)

end

/-- The channels of `new` that no channel held by then has the id of, after the held ones. -/
def pushMissing (held : List ChannelRecord) : List ChannelRecord → List ChannelRecord
  | [] => held
  | c :: rest => pushMissing (if held.any (·.ichId == c.ichId) then held else held ++ [c]) rest

end IdentityStore

structure IlkProvisionRequest where
  (ichId channelType address : String)
  (tenantId ilkType scope : Option String)

structure ProvisionOk where
  (ilkId registrationStatus tenantId : String)
  created : Bool

namespace IdentityStore

def provisionIlkType (requested : Option String) : Except Fault String :=
  match nonBlank requested with
  | some value => do
    validateProvisionIlkType value
    return value
  | none => .ok "human"

/-- The answer for a key that `existing` holds; an abandoned signup is charged to the tenant
asking. -/
def provisionHit (existing ilkType tenantId : String) (accountKey : Bool)
    (caller : Option String) (cloudRelay : String) :
    Op (ProvisionOk × Option TenantChange) := do
  let s ← get
  match s.ilks.lookup existing with
  | none => return (⟨existing, "temporary", tenantId, false⟩, none)
  | some ilk =>
    require (¬ (accountKey = true ∧ ilkType = "human" ∧ ¬ ilk.isHuman))
      "CLOUD_CHANNEL_RESERVED"
    if accountKey = true ∧ caller.map trim = some cloudRelay ∧ ilk.tenantId ≠ tenantId ∧
        ilk.registrationStatus = "temporary" ∧ ilk.isHuman then
      set { s with ilks := s.ilks.insert existing { fillChannelScopes ilk with tenantId } }
      return (⟨existing, ilk.registrationStatus, tenantId, false⟩,
        some ⟨existing, ilk.tenantId, tenantId, caller.getD "SY.identity"⟩)
    else return (⟨existing, ilk.registrationStatus, ilk.tenantId, false⟩, none)

def provisionNew (req : IlkProvisionRequest) (ilkType tenantId scope : String)
    (newIlk : Uuid) : Op (ProvisionOk × Option TenantChange) := do
  let s ← get
  require (s.deletedIlkHoldingChannel req.channelType req.address scope = none)
    "ILK_DELETED"
  s.checkIchIdFree req.ichId []
  let ilkId := "ilk:" ++ newIlk.hyphenated
  let ilk : IlkRecord :=
    { ilkId, ilkType, registrationStatus := "temporary", tenantId, identification := .obj [],
      definition := .obj [],
      channels := [⟨req.ichId, req.channelType, req.address, none, false, scope⟩],
      deletedAtMs := none, deletedReason := none }
  set { s with
    ichLookup := s.ichLookup.insert (canonicalIchKey req.channelType req.address scope) ilkId
    ilks := s.ilks.insert ilkId ilk }
  return (⟨ilkId, "temporary", tenantId, true⟩, none)

def provisionTemporaryIlk (req : IlkProvisionRequest) (caller : Option String)
    (cloudRelay : String) (newIlk : Uuid) : Op (ProvisionOk × Option TenantChange) := do
  let _ ← parsePrefixedUuid req.ichId "ich"
  validateNonEmpty "channel_type" req.channelType
  validateNonEmpty "address" req.address
  validateMaxLen "channel_type" req.channelType Shm.ichChannelTypeMaxLen
  validateMaxLen "address" req.address Shm.ichAddressMaxLen
  let ilkType ← provisionIlkType req.ilkType
  let s ← get
  let tenantId ← orRefuse (req.tenantId.or s.defaultTenantId) "missing default tenant"
  let _ ← parsePrefixedUuid tenantId "tnt"
  require (¬ s.tenantIsDeleted tenantId) "TENANT_DELETED"
  let scope ← resolveChannelScope req.channelType req.scope tenantId caller cloudRelay
  let accountKey := scope == installationScope && isCloudAccountChannel req.channelType
  require (¬ (accountKey = true ∧ toAsciiLowercase (trim req.address) ∈ s.ambiguousAccountEmails))
    "ACCOUNT_AMBIGUOUS"
  match s.ichLookup.lookup (canonicalIchKey req.channelType req.address scope) with
  | some existing => provisionHit existing ilkType tenantId accountKey caller cloudRelay
  | none => provisionNew req ilkType tenantId scope newIlk

end IdentityStore

structure IlkRegisterRequest where
  (ilkId ilkType tenantId : String)
  identification : Json

structure RegisterOk where
  (ilkId tenantId registrationStatus : String)
  merged : Bool
  mergedFromIlkId : Option String

namespace IdentityStore

section
variable (s : IdentityStore) (oldIlkId canonicalIlkId : String)

def checkMergeSource :
    Except Fault Unit := do
  let _ ← parsePrefixedUuid oldIlkId "ilk"
  require (oldIlkId ≠ canonicalIlkId) "INVALID_MERGE_SOURCE"
  let source ← orRefuse (s.ilks.lookup oldIlkId) "INVALID_MERGE_SOURCE"
  require (source.deletedAtMs = none ∧ source.registrationStatus = "temporary")
    "INVALID_MERGE_SOURCE"
  let canonical ← orRefuse ((s.ilks.lookup canonicalIlkId).filter (·.deletedAtMs.isNone))
    "ILK_NOT_FOUND"
  require (canonical.tenantId = source.tenantId) "ILK_TENANT_MISMATCH"

/-- The store once `source`'s channels moved from `oldIlkId` to `canonicalIlkId`. -/
def moveChannels (source : IlkRecord) (expiresAtMs : ℕ) : IdentityStore :=
  let filled := fillChannelScopes source
  { s with
    ichLookup := s.ichLookup.insertAll filled.keys canonicalIlkId
    ilks := (s.ilks.insert oldIlkId { filled with channels := [] }).modify canonicalIlkId
      fun canonical => { canonical with channels := pushMissing canonical.channels filled.channels }
    aliases := s.aliases.insert oldIlkId ⟨canonicalIlkId, expiresAtMs⟩ }

end

def mergeTemporaryIlk (oldIlkId canonicalIlkId : String) (mergeAliasTtlSecs now : ℕ) :
    Op Unit := do
  let s ← get
  s.checkMergeSource oldIlkId canonicalIlkId
  let source ← orRefuse (s.ilks.lookup oldIlkId) "INVALID_MERGE_SOURCE"
  set (s.moveChannels oldIlkId canonicalIlkId source
    (saturatingAdd64 now (saturatingMul64 mergeAliasTtlSecs 1000)))

section
variable (req : IlkRegisterRequest)

def mergeRegistration (holderId : String) (mergeAliasTtlSecs now : ℕ) : Op RegisterOk := do
  let s ← get
  let source ← orRefuse (s.ilks.lookup req.ilkId) "DUPLICATE_EMAIL"
  require (source.deletedAtMs = none) "ILK_NOT_FOUND"
  require (trim source.ilkType ≠ "system") "SYSTEM_ILK_PROTECTED"
  let holderIsHuman := ((s.ilks.lookup holderId).map (·.ilkType == "human")).getD false
  require (trim req.ilkType = "human" ∧ holderIsHuman = true ∧
    source.registrationStatus = "temporary" ∧ source.tenantId = req.tenantId)
    "DUPLICATE_EMAIL"
  mergeTemporaryIlk req.ilkId holderId mergeAliasTtlSecs now
  let s ← get
  let holder ← orRefuse (s.ilks.lookup holderId) "ILK_NOT_FOUND"
  let filled := { holder with
    identification := fillMissingIdentification holder.identification req.identification }
  set { s with ilks := s.ilks.insert holderId filled }
  return ⟨holderId, holder.tenantId, holder.registrationStatus, true, some req.ilkId⟩

def registersAPersonIntoTheRootTenant (s : IdentityStore) (req : IlkRegisterRequest) : Bool :=
  req.tenantId == defaultRootTenantId &&
    (trim req.ilkType == "human" || ((s.ilks.lookup req.ilkId).map (·.isHuman)).getD false)

/-- What a registration's tenant, type and identification must meet, before an email that is
taken is looked at. -/
def checkRegistration (s : IdentityStore) (req : IlkRegisterRequest) : Except Fault Unit := do
  let _ ← parsePrefixedUuid req.ilkId "ilk"
  let _ ← parsePrefixedUuid req.tenantId "tnt"
  validateIlkType req.ilkType
  let tenant ← orRefuse (s.tenants.lookup req.tenantId) "INVALID_TENANT"
  require (tenant.deletedAtMs = none) "TENANT_DELETED"
  require (¬ eqIgnoreAsciiCase tenant.status "pending") "TENANT_PENDING"
  require (¬ eqIgnoreAsciiCase tenant.status "suspended") "TENANT_SUSPENDED"
  require (¬ s.registersAPersonIntoTheRootTenant req) "TENANT_ROOT_NOT_REGISTRABLE"
  ensure (¬ (trim req.ilkType ≠ "human" ∧ ["email", "claimed_email"].any fun key =>
      ((req.identification.get key).map fun v => !identificationValueIsEmpty v).getD false))
    (lifecycleError "INVALID_IDENTIFICATION" "only a person's registration carries an email")
  match identificationStr req.identification "node_name" with
  | some nodeName =>
    require (¬ ((s.findActiveIlkByIdentificationKey "node_name" nodeName).isNone ∧
      (s.deletedIlkHoldingIdentification "node_name" nodeName).isSome)) "ILK_DELETED"
  | none => .ok ()

/-- The registration of an ILK that no email merges into another. -/
def registerOwn : Op RegisterOk := do
  let s ← get
  let canonicalIlkId := ((identificationStr req.identification "node_name").bind
    (s.findActiveIlkByIdentificationKey "node_name")).getD req.ilkId
  match s.ilks.lookup canonicalIlkId with
  | some existing =>
    require (existing.deletedAtMs = none) "ILK_NOT_FOUND"
    require (trim existing.ilkType ≠ "system") "SYSTEM_ILK_PROTECTED"
    require (existing.tenantId = req.tenantId) "INVALID_TENANT_TRANSITION"
    let next := { fillChannelScopes existing with
      ilkType := req.ilkType, tenantId := req.tenantId, registrationStatus := "complete",
      identification := req.identification }
    set { s with ilks := s.ilks.insert canonicalIlkId next }
  | none =>
    let next : IlkRecord :=
      { ilkId := canonicalIlkId, ilkType := req.ilkType, registrationStatus := "complete",
        tenantId := req.tenantId, identification := req.identification, definition := .obj [],
        channels := [], deletedAtMs := none, deletedReason := none }
    set { s with ilks := s.ilks.insert canonicalIlkId next }
  return ⟨canonicalIlkId, req.tenantId, "complete", false, none⟩

def registerIlk (mergeAliasTtlSecs now : ℕ) : Op RegisterOk := do
  let s ← get
  s.checkRegistration req
  match identificationStr req.identification "email" with
  | none => registerOwn req
  | some email =>
    match s.ilkHoldingEmail req.tenantId email false with
    | some holder =>
      if holder ≠ req.ilkId then mergeRegistration req holder mergeAliasTtlSecs now
      else registerOwn req
    | none =>
      require (s.ilkHoldingEmail req.tenantId email true = none) "ILK_DELETED"
      registerOwn req

end

def aliasSnapshot (s : IdentityStore) (oldIlkId : String) : Option AliasSnapshotRecord :=
  (s.aliases.lookup oldIlkId).map fun a => ⟨oldIlkId, a.canonicalIlkId, a.expiresAtMs⟩

end IdentityStore
end Fluxbee.Identity
