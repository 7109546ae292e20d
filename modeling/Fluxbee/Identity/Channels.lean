import Fluxbee.Identity.Store

/-! Store operations on an ILK's channels, its definition and the tenant it is charged to. -/
namespace Fluxbee.Identity
open Text Fallible

structure IlkAddChannelRequest where
  ilkId : String
  channel : ChannelInput
  (mergeFromIlkId changeReason : Option String)

structure AddChannelOk where
  (ilkId ichId : String)
  ownerL2Name : Option String
  enabled : Bool
  changeReason : Option String

structure IlkUpdateRequest where
  ilkId : String
  addChannels : List ChannelInput
  changeReason : Option String

structure UpdateIlkOk where
  ilkId : String
  changeReason : Option String

namespace IdentityStore

/-- The store once `channels`, with `keys`, are `ilkId`'s; `ilk` is its record. A channel whose id
the ILK holds already changes the lookup only. -/
def attach (s : IdentityStore) (ilkId : String) (ilk : IlkRecord) (keys : List IchKey)
    (channels : List ChannelRecord) : IdentityStore :=
  let next := { ilk with channels := pushMissing ilk.channels channels }
  { s with ichLookup := s.ichLookup.insertAll keys ilkId, ilks := s.ilks.insert ilkId next }

/-- A Cloud account moves with the relay or a frontdesk only. -/
def checkAccountMove (s : IdentityStore) (oldIlkId : String) (ownerL2Name : Option String)
    (cloudRelay : String) : Except Fault Unit :=
  let ioNode := ((ownerL2Name.map trim).map fun caller =>
    (stripFront "IO." caller).isSome && caller != cloudRelay).getD false
  let holdsAccount := ((s.ilks.lookup oldIlkId).map fun source =>
    source.channels.any fun c => isCloudAccountChannel c.channelType).getD false
  require (¬ (ioNode = true ∧ holdsAccount = true)) "CLOUD_CHANNEL_RESERVED"

def checkMergeFrom (s : IdentityStore) (mergeFrom : Option String) (canonicalIlkId : String)
    (ownerL2Name : Option String) (cloudRelay : String) : Except Fault Unit :=
  match mergeFrom with
  | none => .ok ()
  | some oldIlk => do
    s.checkMergeSource oldIlk canonicalIlkId
    s.checkAccountMove oldIlk ownerL2Name cloudRelay

def addChannel (req : IlkAddChannelRequest) (ownerL2Name : Option String)
    (mergeAliasTtlSecs : ℕ) (cloudRelay : String) (now : ℕ) : Op AddChannelOk := do
  let _ ← parsePrefixedUuid req.ilkId "ilk"
  validateChannelInput req.channel
  let owner ← normalizeOptionalOwnerL2Name ownerL2Name
  let s ← get
  let target ← orRefuse (s.ilks.lookup req.ilkId) "ILK_NOT_FOUND"
  let scope ← resolveChannelScope req.channel.channelType req.channel.scope target.tenantId
    ownerL2Name cloudRelay
  let joined := req.ilkId :: req.mergeFromIlkId.toList
  let key := canonicalIchKey req.channel.channelType req.channel.address scope
  s.checkChannelFree key joined
  require (target.deletedAtMs = none) "ILK_NOT_FOUND"
  s.checkMergeFrom req.mergeFromIlkId req.ilkId ownerL2Name cloudRelay
  s.checkIchIdFree req.channel.ichId joined
  set (s.attach req.ilkId target [key]
    [⟨req.channel.ichId, req.channel.channelType, req.channel.address, owner, false, scope⟩])
  -- The merge checks its source once more; a failure here would leave the channel attached.
  match req.mergeFromIlkId with
  | some oldIlk => mergeTemporaryIlk oldIlk req.ilkId mergeAliasTtlSecs now
  | none => pure ()
  return ⟨req.ilkId, req.channel.ichId, owner, false, req.changeReason⟩

/-- A channel the orchestrator adds to a node's ILK, which is charged to `tenantId`. -/
def checkOwnChannel (s : IdentityStore) (ilkId tenantId : String) (ch : ChannelInput) :
    Except Fault Unit := do
  validateChannelInput ch
  require (¬ isCloudAccountChannel ch.channelType) "CLOUD_CHANNEL_RESERVED"
  require (∀ scope ∈ ch.scope, trim scope = tenantId) "INVALID_SCOPE"
  s.checkIchIdFree ch.ichId [ilkId]
  s.checkChannelFree (canonicalIchKey ch.channelType ch.address tenantId) [ilkId]

def checkOwnChannels (s : IdentityStore) (ilkId tenantId : String) :
    List ChannelInput → Except Fault Unit
  | [] => .ok ()
  | ch :: rest => do
    s.checkOwnChannel ilkId tenantId ch
    s.checkOwnChannels ilkId tenantId rest

def ownChannel (tenantId : String) (ch : ChannelInput) : ChannelRecord :=
  ⟨ch.ichId, ch.channelType, ch.address, none, false, tenantId⟩

def updateIlk (req : IlkUpdateRequest) : Op UpdateIlkOk := do
  let _ ← parsePrefixedUuid req.ilkId "ilk"
  let s ← get
  let entry ← orRefuse ((s.ilks.lookup req.ilkId).filter (·.deletedAtMs.isNone)) "ILK_NOT_FOUND"
  s.checkOwnChannels req.ilkId entry.tenantId req.addChannels
  set (s.attach req.ilkId entry
    (req.addChannels.map fun ch => canonicalIchKey ch.channelType ch.address entry.tenantId)
    (req.addChannels.map (ownChannel entry.tenantId)))
  return ⟨req.ilkId, req.changeReason⟩

end IdentityStore

def isSha256Hex (value : String) : Bool :=
  (asBytes value).length == 64 && value.toList.all fun c => (Uuid.hexDigit c).isSome

def normalizeHash (value : Json) : Except Fault String := do
  let hash ← orRefuse (nonBlank value.asStr) "INVALID_DEFINITION"
  require (isSha256Hex hash) "INVALID_DEFINITION_HASH"
  return toAsciiLowercase hash

def normalizeHashArray (definition : Json) (key : String) (maxLen : ℕ) :
    Except Fault (List String) :=
  match definition.get key with
  | none => .ok []
  | some raw => do
    let values ← orRefuse raw.asArray "INVALID_DEFINITION"
    require (values.length ≤ maxLen) "DEFINITION_TOO_LARGE"
    values.mapM normalizeHash

def normalizeOptionalHash (definition : Json) (key : String) : Except Fault (Option String) :=
  match definition.get key with
  | none | some .null => .ok none
  | some raw => do
    let hash ← normalizeHash raw
    return some hash

def agentDefinitionMaxSkills : ℕ := 16
def agentDefinitionMaxHandbooks : ℕ := 8

def normalizeAgentDefinition (definition : Json) : Except Fault Json :=
  match definition with
  | .obj fields => do
    require (∀ field ∈ fields,
      field.1 ∈ ["role_hash", "skill_hashes", "handbook_hashes", "personality_hash"])
      "INVALID_DEFINITION"
    let roleHash ← normalizeOptionalHash definition "role_hash"
    let skillHashes ← normalizeHashArray definition "skill_hashes" agentDefinitionMaxSkills
    let handbookHashes ← normalizeHashArray definition "handbook_hashes" agentDefinitionMaxHandbooks
    let personalityHash ← normalizeOptionalHash definition "personality_hash"
    if roleHash = none ∧ skillHashes = [] ∧ handbookHashes = [] ∧ personalityHash = none then
      return .obj []
    else
      let hash (key : String) (value : Option String) := (value.map fun h => (key, Json.str h)).toList
      return .obj ([("handbook_hashes", .arr (handbookHashes.map .str))] ++
        hash "personality_hash" personalityHash ++ hash "role_hash" roleHash ++
        [("skill_hashes", .arr (skillHashes.map .str))])
  | _ => .error (.error "INVALID_DEFINITION")

structure SetTenantOk where
  (ilkId tenantId previousTenantId : String)
  changed : Bool

structure SetEnabledOk where
  (ilkId ichId : String)
  enabled : Bool
  ownerL2Name : Option String

namespace IdentityStore

def setIlkDefinition (ilkId : String) (definition : Json) : Op Json := do
  let _ ← parsePrefixedUuid ilkId "ilk"
  let s ← get
  let entry ← orRefuse (s.ilks.lookup ilkId) "ILK_NOT_FOUND"
  require (entry.deletedAtMs = none) "ILK_NOT_FOUND"
  require (entry.ilkType = "agent") "INVALID_ILK_TYPE"
  let normalized ← normalizeAgentDefinition definition
  set { s with ilks := s.ilks.insert ilkId { entry with definition := normalized } }
  return normalized

def setIlkTenant (ilkId tenantId changedBy : String) :
    Op (SetTenantOk × Option TenantChange) := do
  let _ ← parsePrefixedUuid ilkId "ilk"
  let target := trim tenantId
  let _ ← parsePrefixedUuid target "tnt"
  require (target ≠ defaultRootTenantId) "TENANT_ROOT_PROTECTED"
  let s ← get
  let tenant ← orRefuse (s.tenants.lookup target) "TENANT_NOT_FOUND"
  require (tenant.deletedAtMs = none) "TENANT_DELETED"
  require (trim tenant.status = "active") "TENANT_NOT_ACTIVE"
  let ilk ← orRefuse ((s.ilks.lookup ilkId).filter (·.deletedAtMs.isNone)) "ILK_NOT_FOUND"
  require (ilk.isHuman) "ILK_TYPE_MISMATCH"
  if ilk.tenantId = target then return (⟨ilkId, target, ilk.tenantId, false⟩, none)
  else
    ensure (¬ (ilk.registrationStatus ≠ "complete" ∧ ¬ s.tenantIsDeleted ilk.tenantId))
      (lifecycleError "INVALID_TENANT_TRANSITION" ("a temporary is registered in the case of " ++
        ilk.tenantId ++ ", the tenant it wrote to; " ++
        "it is charged elsewhere only once that tenant is deleted"))
    require (∀ email ∈ identificationStr ilk.identification "email", ∀ deleted ∈ [false, true],
      ∀ other ∈ s.ilkHoldingEmail target email deleted, other = ilkId) "DUPLICATE_EMAIL"
    set { s with ilks := s.ilks.insert ilkId { fillChannelScopes ilk with tenantId := target } }
    return (⟨ilkId, target, ilk.tenantId, true⟩, some ⟨ilkId, ilk.tenantId, target, changedBy⟩)

def setEnabledIn (ichId : String) (enabled : Bool) : List ChannelRecord → List ChannelRecord
  | [] => []
  | c :: rest =>
    if c.ichId = ichId then { c with enabled } :: rest else c :: setEnabledIn ichId enabled rest

def findIch (s : IdentityStore) (ichId : String) : Option (String × IlkRecord × ChannelRecord) :=
  s.ilks.entries.findSome? fun e =>
    if e.2.deletedAtMs.isSome then none
    else (e.2.channels.find? (·.ichId == ichId)).map fun c => (e.1, e.2, c)

def setIchEnabled (ichId : String) (enabled : Bool) : Op SetEnabledOk := do
  let _ ← parsePrefixedUuid ichId "ich"
  let s ← get
  let (ilkId, ilk, channel) ← orRefuse (s.findIch ichId) "ICH_NOT_FOUND"
  let next := { ilk with channels := setEnabledIn ichId enabled ilk.channels }
  set { s with ilks := s.ilks.insert ilkId next }
  return ⟨ilkId, ichId, enabled, channel.ownerL2Name⟩

end IdentityStore
end Fluxbee.Identity
