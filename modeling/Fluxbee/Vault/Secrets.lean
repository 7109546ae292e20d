import Fluxbee.Lib.GuardedRun
import Fluxbee.Identity.Records
import Mathlib.Data.List.Sort

/-! SY.vault: secrets with a current and a previous value, the requests that write and read them, and
who may make each. -/
namespace Fluxbee.Vault
open Text

def maxVersion : ℕ := 2 ^ 63 - 1

def saturatingAdd (version : ℕ) : ℕ := min (version + 1) maxVersion

def maxSecretValueBytes : ℕ := 1024 * 1024

structure VaultMetadata where
  tenantId : String
  ownerIlk : String := ""
  resourceType : Option String := none
  ilk : Option String := none
  assignedIlks : List String := []

inductive VaultError
  | invalidRequest (message : String)
  | unauthorized
  | keyNotFound
  | keyNotFoundInTenant
  | keyTaken
  | tenantNotActive (reason : String)
  | tenantUnknown (reason : String)
  | callerMismatch (reason : String)
  | callerUnknown (reason : String)
  | noPreviousVersion
  | storage

structure Caller where
  l2Name : Option String := none
  ilkId : Option String := none
  tenantId : Option String := none
  ilkType : Option String := none

structure IdentityIlkOption where
  (ilkId tenantId ilkType : String)
  handlerNode : Option String

/-- Who sent a request: the name the router stamped, and the ILK the request claims. -/
structure Sender where
  (l2Name srcIlk : Option String)

/-- A secret. Its values are kept sealed; here they are what opening them gives. -/
structure SecretRecord (V : Type) where
  metadata : VaultMetadata
  version : ℕ
  current : V
  previous : Option (V × ℕ) := none

variable {V : Type}

/-- What the vault knows from its start on: the two sets of ILKs it computes from the hive file, the
ILK derived from a system node's name, and the length of a value's JSON. -/
structure Config (V : Type) where
  (wellKnownAdminIlks wellKnownSystemIlks : List String)
  deterministicSystemIlkId : String → String
  size : V → ℕ

inductive Request (V : Type) where
  | put (key : String) (value : V) (metadata : VaultMetadata)
  | get (key : String) (includeValue : Bool)
  | delete (key tenantId : String)
  | rotate (key tenantId : String) (value : V)
  | rollback (key tenantId : String)
  | assign (key tenantId : String) (assignedIlks : List String)

inductive Answer (V : Type) where
  | put (version : ℕ) (changed : Bool)
  | got (metadata : VaultMetadata) (version : ℕ) (value : Option V)
  | deleted
  | rotated (currentVersion previousVersion : ℕ)
  | rolledBack (currentVersion previousVersion : ℕ)
  | assigned (assignedIlks : List String) (general changed : Bool)

abbrev Store (V : Type) := AList fun _ : String => SecretRecord V

section

def isAsciiLowercase (c : Char) : Bool := decide ('a' ≤ c ∧ c ≤ 'z')

def isAsciiDigit (c : Char) : Bool := decide ('0' ≤ c ∧ c ≤ '9')

def isKeyChar (c : Char) : Bool :=
  isAsciiLowercase c || isAsciiDigit c || c == ':' || c == '_' || c == '-'

def validateKey (key : String) : Except VaultError Unit :=
  if key = "" ∨ 256 < key.utf8ByteSize then .error (.invalidRequest "invalid key length")
  else if (key.toList.head?.any fun c => isAsciiLowercase c || isAsciiDigit c) = false then
    .error (.invalidRequest "invalid key prefix")
  else if key.toList.all isKeyChar = false then .error (.invalidRequest "invalid key format")
  else .ok ()

section
variable (metadata : VaultMetadata)

def validateMetadata : Except VaultError Unit :=
  if startsWith (trim metadata.tenantId) "tnt:" = false then
    .error (.invalidRequest "metadata.tenant_id must be tnt:<uuid> (use the hive's root tenant for infrastructure secrets — admin defaults to it when tenant_id is omitted)")
  else
    match metadata.resourceType.map trim with
    | none => .error (.invalidRequest
        "metadata.resource_type is required (e.g. 'openai', 'postgres')")
    | some resourceType =>
      if resourceType = "" then
        .error (.invalidRequest "metadata.resource_type must not be empty")
      else if (metadata.ilk.map trim).any fun ilk => ilk ≠ "" && !startsWith ilk "ilk:" then
        .error (.invalidRequest "metadata.ilk must be ilk:<uuid> (or omit for pool)")
      else if metadata.assignedIlks.any fun ilk => !startsWith (trim ilk) "ilk:" then
        .error (.invalidRequest "metadata.assigned_ilks must hold ilk:<uuid> values")
      else if metadata.ownerIlk ≠ "" ∧ startsWith metadata.ownerIlk "ilk:" = false then
        .error (.invalidRequest
          "metadata.owner_ilk if provided must be ilk:<uuid>; prefer metadata.ilk in Model D'")
      else .ok ()

def validateRequestTenant (tenantId : String) : Except VaultError String :=
  if startsWith (trim tenantId) "tnt:" then .ok (trim tenantId)
  else .error (.invalidRequest
    "tenant_id must be tnt:<uuid> (the tenant the key belongs to; the hive's root tenant for infrastructure keys)")

def ensureInTenant (metadata : Option VaultMetadata) (tenant : String) : Except VaultError Unit :=
  match metadata with
  | some metadata => if trim metadata.tenantId ≠ tenant then .error .keyNotFoundInTenant else .ok ()
  | none => .ok ()

def secretOwnerIlk : Option String :=
  match (metadata.ilk.map trim).filter (· ≠ "") with
  | some ilk => some ilk
  | none => if trim metadata.ownerIlk = "" then none else some (trim metadata.ownerIlk)

def isGeneralSecret : Bool :=
  (secretOwnerIlk metadata).isNone && metadata.assignedIlks.all fun ilk => trim ilk = ""

end

end

section
variable (cfg : Config V)

def isEdgeNodeName (name : String) : Bool :=
  ((splitOnce '@' name).map Prod.fst).getD name = "SY.edge"

section
variable (caller : Caller)

def Caller.isAnEdge : Bool := caller.l2Name.any isEdgeNodeName

def Caller.isASystemNodeByName : Bool :=
  match caller.l2Name, caller.ilkId with
  | some name, some ilk => startsWith name "SY." && cfg.deterministicSystemIlkId name = ilk
  | _, _ => false

def Caller.isWellKnownAdmin : Bool :=
  caller.ilkId.any fun ilk => cfg.wellKnownAdminIlks.contains ilk

/-- The claimed ILK must be the sending node's. -/
def checkCallerBinding (l2Name : Option String) (ilkId : String)
    (registered : Option IdentityIlkOption) : Except VaultError Unit :=
  match l2Name with
  | none => .error (.callerMismatch s!"claims {ilkId} without a router-stamped node name")
  | some name =>
    if startsWith name "SY." = true ∧ cfg.deterministicSystemIlkId name = ilkId then .ok ()
    else
      match registered with
      | some ilk =>
        if ilk.handlerNode = some name then .ok ()
        else .error (.callerMismatch
          s!"{name} claims {ilkId}, which identity registered for another node")
      | none => .error (.callerUnknown
          s!"{name} claims {ilkId}, which the identity SHM does not hold (yet)")

def resolveCaller (ilks : List IdentityIlkOption) (sender : Sender) : Except VaultError Caller :=
  let l2Name := sender.l2Name.filter (· ≠ "")
  match (sender.srcIlk.map trim).filter (· ≠ "") with
  | none => .ok { l2Name := l2Name }
  | some ilkId =>
    let registered := ilks.find? fun ilk => ilk.ilkId = ilkId
    match checkCallerBinding cfg l2Name ilkId registered with
    | .error err => .error err
    | .ok () => .ok
      { l2Name := l2Name
        ilkId := some ilkId
        tenantId := registered.map IdentityIlkOption.tenantId
        ilkType := registered.map IdentityIlkOption.ilkType }

/-- A general secret: an edge never reads it; the root tenant's is every system node's, another
tenant's that of its nodes. -/
def authorizeGeneral (tenantId : String) : Except VaultError Unit :=
  if caller.isAnEdge then .error .unauthorized
  else if tenantId = Identity.defaultRootTenantId ∧
      ((caller.ilkId.any fun ilk => cfg.wellKnownSystemIlks.contains ilk) = true ∨
        caller.ilkType = some "system") then .ok ()
  else if tenantId = Identity.defaultRootTenantId ∧ caller.ilkType = none ∧
      caller.isASystemNodeByName cfg = true then
    .error (.callerUnknown
      (caller.l2Name.getD "" ++ " is a system node the identity SHM does not hold yet; retry"))
  else if caller.tenantId = some tenantId then .ok ()
  else .error .unauthorized

def authorizeRead (metadata : VaultMetadata) : Except VaultError Unit :=
  let callerIlk := caller.ilkId.filter (· ≠ "")
  if callerIlk.isSome ∧ secretOwnerIlk metadata = callerIlk then .ok ()
  else if callerIlk.any fun ilk => metadata.assignedIlks.any fun assigned => trim assigned = ilk then
    .ok ()
  else if isGeneralSecret metadata then authorizeGeneral cfg caller metadata.tenantId
  else .error .unauthorized

def authorizeOwner (metadata : Option VaultMetadata) : Except VaultError Unit :=
  if caller.isWellKnownAdmin cfg then .ok ()
  else
    match metadata with
    | none => .error .unauthorized
    | some metadata =>
      match secretOwnerIlk metadata, caller.ilkId with
      | some owner, some self => if owner = self then .ok () else .error .unauthorized
      | _, _ => .error .unauthorized

end

end

section
variable [DecidableEq V] (cfg : Config V)

namespace Store

section
variable (store : Store V) (key : String)

def put (value : V) (metadata : VaultMetadata) : Except VaultError (Store V × ℕ × Bool) :=
  match store.lookup key with
  | some existing =>
    if trim existing.metadata.tenantId ≠ trim metadata.tenantId then .error .keyTaken
    else if existing.current = value then .ok (store, existing.version, false)
    else
      let version := saturatingAdd existing.version
      .ok (store.insert key
        ⟨metadata, version, value, some (existing.current, existing.version)⟩, version, true)
  | none => .ok (store.insert key ⟨metadata, 1, value, none⟩, 1, true)

def setAssigned (metadata : VaultMetadata) : Except VaultError (Store V × ℕ × Bool) :=
  match store.lookup key with
  | none => .error .keyNotFound
  | some existing =>
    if existing.metadata.assignedIlks = metadata.assignedIlks then
      .ok (store, existing.version, false)
    else .ok (store.insert key { existing with metadata := metadata }, existing.version, true)

def delete : Except VaultError (Store V) :=
  match store.lookup key with
  | none => .error .keyNotFound
  | some _ => .ok (store.erase key)

def rotate (value : V) : Except VaultError (Store V × ℕ × ℕ) :=
  match store.lookup key with
  | none => .error .keyNotFound
  | some existing =>
    let version := saturatingAdd existing.version
    .ok (store.insert key
      ⟨existing.metadata, version, value, some (existing.current, existing.version)⟩, version,
      existing.version)

def rollback : Except VaultError (Store V × ℕ × ℕ) :=
  match store.lookup key with
  | none => .error .keyNotFound
  | some existing =>
    match existing.previous with
    | none => .error .noPreviousVersion
    | some (value, version) =>
      .ok (store.insert key
        ⟨existing.metadata, version, value, some (existing.current, existing.version)⟩, version,
        existing.version)

end

end Store

/-- A put names who uses the secret when it has an owner or assigned nodes. -/
def VaultMetadata.namesUsers (metadata : VaultMetadata) : Bool :=
  (secretOwnerIlk metadata).isSome || !metadata.assignedIlks.isEmpty

/-- An update keeps who uses the secret unless the put names it. -/
def inheritUsers (previous : Option VaultMetadata) (metadata : VaultMetadata) : VaultMetadata :=
  match previous with
  | some previous =>
    if metadata.namesUsers = false ∧ trim previous.tenantId = trim metadata.tenantId then
      { metadata with
        ilk := previous.ilk, ownerIlk := previous.ownerIlk, assignedIlks := previous.assignedIlks }
    else metadata
  | none => metadata

variable (store : Store V) (caller : Caller)

def metadataOf (key : String) : Option VaultMetadata := (store.lookup key).map SecretRecord.metadata

def checkSize (value : V) : Except VaultError Unit :=
  if maxSecretValueBytes < cfg.size value then .error (.invalidRequest "secret value exceeds 1 MiB")
  else .ok ()

def requireAdmin : Except VaultError Unit :=
  if caller.isWellKnownAdmin cfg then .ok () else .error .unauthorized

def handlePut (key : String) (value : V) (metadata : VaultMetadata) :
    Except VaultError (Store V × Answer V) := do
  requireAdmin cfg caller
  validateKey key
  validateMetadata metadata
  checkSize cfg value
  let (store, version, changed) ←
    store.put key value (inheritUsers (metadataOf store key) metadata)
  return (store, .put version changed)

def assignment (assignedIlks : List String) : List String :=
  (((assignedIlks.map trim).filter (· ≠ "")).insertionSort (· ≤ ·)).dedup

section
variable (key tenantId : String)

def handleAssign (assignedIlks : List String) :
    Except VaultError (Store V × Answer V) := do
  requireAdmin cfg caller
  validateKey key
  let tenant ← validateRequestTenant tenantId
  ensureInTenant (metadataOf store key) tenant
  match metadataOf store key with
  | none => throw .keyNotFound
  | some previous =>
    let metadata := { previous with assignedIlks := assignment assignedIlks }
    validateMetadata metadata
    let (store, _, changed) ← store.setAssigned key metadata
    return (store, .assigned metadata.assignedIlks (isGeneralSecret metadata) changed)

/-- The checks a delete, a rotation and a rollback begin with. -/
def ownerChecks : Except VaultError Unit := do
  validateKey key
  let tenant ← validateRequestTenant tenantId
  ensureInTenant (metadataOf store key) tenant
  authorizeOwner cfg caller (metadataOf store key)

def handleDelete : Except VaultError (Store V × Answer V) := do
  ownerChecks cfg store caller key tenantId
  let store ← store.delete key
  return (store, .deleted)

def handleRotate (value : V) : Except VaultError (Store V × Answer V) := do
  ownerChecks cfg store caller key tenantId
  checkSize cfg value
  let (store, current, previous) ← store.rotate key value
  return (store, .rotated current previous)

def handleRollback : Except VaultError (Store V × Answer V) := do
  ownerChecks cfg store caller key tenantId
  let (store, current, previous) ← store.rollback key
  return (store, .rolledBack current previous)

end

def requestKeyRequired (rawKey : String) : Except VaultError String :=
  if trim rawKey = "" then .error (.invalidRequest "missing key") else .ok (trim rawKey)

section
variable (tenantActive : String → Except VaultError Unit)

/-- What a read gives of a secret: the value goes out under the read rules, and only while its tenant
is active; the metadata is open. -/
def readRecord (record : SecretRecord V) (includeValue : Bool) : Except VaultError (Answer V) :=
  if includeValue then do
    authorizeRead cfg caller record.metadata
    tenantActive record.metadata.tenantId
    return .got record.metadata record.version (some record.current)
  else .ok (.got record.metadata record.version none)

def handleGet (rawKey : String) (includeValue : Bool) : Except VaultError (Store V × Answer V) := do
  let key ← requestKeyRequired rawKey
  validateKey key
  match store.lookup key with
  | none => .error .keyNotFound
  | some record => (readRecord cfg caller tenantActive record includeValue).map fun ans => (store, ans)

def handle :
    Request V → Except VaultError (Store V × Answer V)
  | .put key value metadata => handlePut cfg store caller key value metadata
  | .get key includeValue => handleGet cfg store caller tenantActive key includeValue
  | .delete key tenantId => handleDelete cfg store caller key tenantId
  | .rotate key tenantId value => handleRotate cfg store caller key tenantId value
  | .rollback key tenantId => handleRollback cfg store caller key tenantId
  | .assign key tenantId assignedIlks => handleAssign cfg store caller key tenantId assignedIlks

end

end

/-- One request: who sent it, what it asks, what the identity region says of tenants, and whether the
database goes through with it. -/
structure Call (V : Type) where
  sender : Sender
  request : Request V
  tenantActive : String → Except VaultError Unit
  storage : Bool

/-- A request answered from a store and the ILKs identity lists. A failed statement is rolled back
with its transaction. -/
def answer [DecidableEq V] (cfg : Config V) (ilks : List IdentityIlkOption) (store : Store V)
    (call : Call V) : Except VaultError (Store V × Caller × Answer V) :=
  match resolveCaller cfg ilks call.sender with
  | .error err => .error err
  | .ok caller =>
    match handle cfg store caller call.tenantActive call.request with
    | .error err => .error err
    | .ok (store', ans) => if call.storage then .ok (store', caller, ans) else .error .storage

end Fluxbee.Vault
