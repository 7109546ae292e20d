import Fluxbee.Identity.Lifecycle

/-! Store operations on tenants: finding one by name or domain, creation, updates, sponsors and
approval. -/
namespace Fluxbee.Identity
open Text Fallible

structure TntCreateRequest where
  name : String
  (domain status : Option String)
  settings : Option Json
  sponsorTenantId : Option String

structure TntUpdateRequest where
  tenantId : String
  (name domain status : Option String)
  (settings sponsorTenantId : Option Json)

inductive MatchedBy where
  | domain
  | name

structure CreateTenantOk where
  tenantId : String
  created : Bool
  matchedBy : Option MatchedBy
  sponsorTenantId : Option String

structure UpdateTenantOk where
  tenantId : String
  sponsorTenantId : Option String

def isTenantStatus (status : String) : Bool := status ∈ ["pending", "active", "suspended"]

namespace IdentityStore

section
variable (s : IdentityStore)

def firstTenant (holds : TenantRecord → Bool) : Option TenantRecord :=
  (sortUnstable s.tenants.keys).findSome? fun id => (s.tenants.lookup id).filter holds

def findTenantByHint (name : String) (domain : Option String) : Option (TenantRecord × MatchedBy) :=
  let byDomain := (normalizeTenantDomain domain).bind fun expected =>
    s.firstTenant fun t => normalizeTenantDomain t.domain == some expected
  let byName := s.firstTenant fun t => normalizeTenantName t.name == normalizeTenantName name
  (byDomain.map (·, .domain)).or (byName.map (·, .name))

def checkSponsor (sponsor : String) : Except Fault Unit := do
  let _ ← parsePrefixedUuid sponsor "tnt"
  require ((s.tenants.lookup sponsor).isSome) "INVALID_SPONSOR_TENANT"
  require (¬ s.tenantIsDeleted sponsor) "TENANT_DELETED"

def checkNewSponsor : Option String → Except Fault Unit
  | none => .ok ()
  | some sponsor => s.checkSponsor sponsor

end

def createTenant (req : TntCreateRequest) (newTenant : Uuid) : Op CreateTenantOk := do
  validateNonEmpty "name" req.name
  let s ← get
  s.checkNewSponsor req.sponsorTenantId
  let status := toAsciiLowercase (trim (req.status.getD "pending"))
  require (isTenantStatus status) "INVALID_REQUEST"
  match s.findTenantByHint (trim req.name) (nonBlank req.domain) with
  | some (tenant, matchedBy) =>
    require (tenant.deletedAtMs = none) "TENANT_DELETED"
    return ⟨tenant.tenantId, false, some matchedBy, tenant.sponsorTenantId⟩
  | none =>
    let tenantId := "tnt:" ++ newTenant.hyphenated
    let tenant : TenantRecord :=
      { tenantId, name := trim req.name, domain := nonBlank req.domain, status,
        settings := req.settings.getD (.obj []), sponsorTenantId := req.sponsorTenantId,
        deletedAtMs := none }
    set { s with tenants := s.tenants.insert tenantId tenant }
    return ⟨tenantId, true, none, req.sponsorTenantId⟩

/-- Whether the walk from a tenant to its sponsor, and on, comes by `tenantId`; none where it has
not ended after `fuel` tenants. -/
def sponsorWalk (s : IdentityStore) (tenantId : String) : ℕ → Option String → Option Bool
  | _, none => some false
  | 0, some _ => none
  | fuel + 1, some current =>
    if current = tenantId then some true
    else s.sponsorWalk tenantId fuel ((s.tenants.lookup current).bind (·.sponsorTenantId))

section
variable (s : IdentityStore)

/-- A walk over more tenants than there are comes by one twice, and never ends. -/
def validateSponsorAssignment (tenantId : String) (sponsorTenantId : Option String) :
    Except Fault (Option String) := do
  let tenantId := trim tenantId
  let _ ← parsePrefixedUuid tenantId "tnt"
  match nonBlank sponsorTenantId with
  | none => return none
  | some sponsor =>
    let _ ← parsePrefixedUuid sponsor "tnt"
    require (sponsor ≠ tenantId) "INVALID_SPONSOR_RELATION"
    require ((s.tenants.lookup sponsor).isSome) "INVALID_SPONSOR_TENANT"
    let found ← orFail (s.sponsorWalk tenantId (s.tenants.entries.length + 1) (some sponsor)) .hang
    require (found = false) "INVALID_SPONSOR_RELATION"
    return some sponsor

def parseOptionalSponsorUpdate (tenantId : String) :
    Option Json → Except Fault (Option (Option String))
  | none => .ok none
  | some .null => .ok (some none)
  | some (.str value) => do
    let sponsor ← s.validateSponsorAssignment tenantId (some value)
    return some sponsor
  | some _ => .error (.error "INVALID_REQUEST")

def anotherTenantHolds (tenantId : String) (holds : TenantRecord → Bool) : Bool :=
  s.tenants.values.any fun other => other.tenantId != tenantId && holds other

def checkTenantName (current : TenantRecord) (tenantId : String) :
    Option String → Except Fault Unit
  | none => .ok ()
  | some name =>
    require (¬ (normalizeTenantName name ≠ normalizeTenantName current.name ∧
      s.anotherTenantHolds tenantId fun other =>
        normalizeTenantName other.name == normalizeTenantName name)) "TENANT_NAME_TAKEN"

/-- Clearing a domain is no change that another tenant could refuse. -/
def checkTenantDomain (current : TenantRecord) (tenantId : String) :
    Option (Option String) → Except Fault Unit
  | some (some domain) =>
    require (¬ (normalizeTenantDomain current.domain ≠ some domain ∧
      s.anotherTenantHolds tenantId fun other =>
        normalizeTenantDomain other.domain == some domain)) "TENANT_DOMAIN_TAKEN"
  | _ => .ok ()

end

def checkTenantStatus : Option String → Except Fault (Option String)
  | none => .ok none
  | some status => do
    let status := toAsciiLowercase (trim status)
    require (isTenantStatus status) "INVALID_REQUEST"
    return some status

def checkNewName : Option String → Except Fault (Option String)
  | none => .ok none
  | some name => do
    validateNonEmpty "name" name
    return some (trim name)

def updateTenant (req : TntUpdateRequest) : Op UpdateTenantOk := do
  let tenantId := trim req.tenantId
  let _ ← parsePrefixedUuid tenantId "tnt"
  require (tenantId ≠ defaultRootTenantId) "TENANT_ROOT_PROTECTED"
  let s ← get
  let sponsorUpdate ← s.parseOptionalSponsorUpdate tenantId req.sponsorTenantId
  require (∀ sponsor ∈ sponsorUpdate.join, ¬ s.tenantIsDeleted sponsor) "TENANT_DELETED"
  let current ← orRefuse (s.tenants.lookup tenantId) "TENANT_NOT_FOUND"
  require (current.deletedAtMs = none) "TENANT_DELETED"
  let name ← checkNewName req.name
  let domain := req.domain.map fun domain => normalizeTenantDomain (some domain)
  let status ← checkTenantStatus req.status
  s.checkTenantName current tenantId name
  s.checkTenantDomain current tenantId domain
  let next : TenantRecord :=
    { current with
      name := name.getD current.name
      domain := domain.getD current.domain
      status := status.getD current.status
      settings := req.settings.getD current.settings
      sponsorTenantId := sponsorUpdate.getD current.sponsorTenantId }
  set { s with tenants := s.tenants.insert tenantId next }
  return ⟨tenantId, next.sponsorTenantId⟩

def setTenantSponsor (tenantId : String) (sponsorTenantId : Json) : Op UpdateTenantOk :=
  updateTenant ⟨tenantId, none, none, none, none, some sponsorTenantId⟩

/-- The tenant's id. The answer also repeats who approved it. -/
def approveTenant (tenantId approvedBy : String) : Op String := do
  let _ ← parsePrefixedUuid tenantId "tnt"
  let _ ← parsePrefixedUuid approvedBy "ilk"
  let s ← get
  let tenant ← orRefuse (s.tenants.lookup tenantId) "INVALID_TENANT"
  require (tenant.deletedAtMs = none) "TENANT_DELETED"
  set { s with tenants := s.tenants.insert tenantId { tenant with status := "active" } }
  return tenantId

end IdentityStore
end Fluxbee.Identity
