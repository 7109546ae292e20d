import Fluxbee.Lib.AssocMap
import Fluxbee.Lib.Fallible
import Fluxbee.Lib.Json
import Fluxbee.Lib.Uuid
import Fluxbee.Shm.Entries

/-! The records of the identity store, the keys of their channels and the checks on one value. -/
namespace Fluxbee.Identity
open Text Fallible

/-- How a store operation ends without a result: with an error text, a code and maybe a detail
after a bar, or not at all. -/
inductive Fault where
  | error (text : String)
  | hang

def lifecycleError (code detail : String) : Fault := .error (code ++ "|" ++ detail)

abbrev require (p : Prop) [Decidable p] (code : String) : Except Fault Unit :=
  ensure p (.error code)

abbrev orRefuse {α : Type} (o : Option α) (code : String) : Except Fault α :=
  orFail o (.error code)

def defaultDefaultTenantName : String := "fluxbee"
def defaultRootTenantId : String := "tnt:00000000-0000-0000-0000-000000000001"
def installationScope : String := defaultRootTenantId
def cloudAccountChannel : String := "cloud"
def deletedReasonDirect : String := "direct"

structure TenantRecord where
  (tenantId name : String)
  domain : Option String
  status : String
  settings : Json
  sponsorTenantId : Option String
  deletedAtMs : Option ℕ

structure ChannelRecord where
  (ichId channelType address : String)
  ownerL2Name : Option String
  enabled : Bool
  scope : String
deriving DecidableEq

structure IlkRecord where
  (ilkId ilkType registrationStatus tenantId : String)
  (identification definition : Json)
  channels : List ChannelRecord
  deletedAtMs : Option ℕ
  deletedReason : Option String
deriving DecidableEq

structure AliasRecord where
  canonicalIlkId : String
  expiresAtMs : ℕ
deriving DecidableEq

structure AliasSnapshotRecord where
  (oldIlkId canonicalIlkId : String)
  expiresAtMs : ℕ

structure TenantChange where
  (ilkId fromTenantId toTenantId changedBy : String)

/-- Channel type, address and scope, each trimmed and in lower case. -/
abbrev IchKey := String × String × String

def canonicalIchKey (channelType address tenantId : String) : IchKey :=
  (toAsciiLowercase (trim channelType), toAsciiLowercase (trim address),
    toAsciiLowercase (trim tenantId))

def channelScope (channel : ChannelRecord) (ilkTenantId : String) : String :=
  let scope := trim channel.scope
  if scope = "" then ilkTenantId else scope

def channelKey (channel : ChannelRecord) (ilkTenantId : String) : IchKey :=
  canonicalIchKey channel.channelType channel.address (channelScope channel ilkTenantId)

def ChannelRecord.fillScope (tenantId : String) (channel : ChannelRecord) : ChannelRecord :=
  if trim channel.scope = "" then { channel with scope := tenantId } else channel

def fillChannelScopes (ilk : IlkRecord) : IlkRecord :=
  { ilk with channels := ilk.channels.map (·.fillScope ilk.tenantId) }

def isCloudAccountChannel (channelType : String) : Bool :=
  eqIgnoreAsciiCase (trim channelType) cloudAccountChannel

def IlkRecord.isHuman (ilk : IlkRecord) : Bool := trim ilk.ilkType == "human"

def IlkRecord.keys (ilk : IlkRecord) : List IchKey :=
  ilk.channels.map (channelKey · ilk.tenantId)

def identificationStr (identification : Json) (key : String) : Option String :=
  (((identification.get key).bind Json.asStr).map trim).filter (· ≠ "")

def identificationValueIsEmpty : Json → Bool
  | .null => true
  | .str text => isBlank text
  | .obj fields => fields.isEmpty
  | .arr items => items.isEmpty
  | _ => false

mutual

def fillMissingIdentification (target : Json) : Json → Json
  | .obj incoming =>
    match target with
    | .null => .obj (fillMissingFields [] incoming)
    | .obj fields => .obj (fillMissingFields fields incoming)
    | other => other
  | _ => if target = .null then .obj [] else target

def fillMissingFields (target : List (String × Json)) :
    List (String × Json) → List (String × Json)
  | [] => target
  | (key, value) :: rest =>
    let next :=
      if identificationValueIsEmpty value then target
      else match target.lookup key with
        | some existing =>
          if identificationValueIsEmpty existing then Json.setField key value target
          else match existing, value with
            | .obj _, .obj _ => Json.setField key (fillMissingIdentification existing value) target
            | _, _ => target
        | none => Json.setField key value target
    fillMissingFields next rest

end

def isWellKnownSystemIlk (ilk : IlkRecord) : Bool :=
  (ilk.identification.get "source").bind Json.asStr == some "hive.system_nodes"

def rsplitAt (s : String) : Option (String × String) :=
  let back := s.toList.reverse
  if '@' ∈ back then
    some (String.ofList ((back.dropWhile (· ≠ '@')).drop 1).reverse,
      String.ofList (back.takeWhile (· ≠ '@')).reverse)
  else none

def ilkOwningHive (ilk : IlkRecord) : Option String :=
  let byName := ((ilk.identification.get "node_name").bind Json.asStr).bind fun nodeName =>
    ((rsplitAt nodeName).map fun parts => trim parts.2).filter (· ≠ "")
  byName.or (((ilk.identification.get "hive_id").bind Json.asStr).map trim |>.filter (· ≠ ""))

def parsePrefixedUuid (value front : String) : Except Fault Uuid :=
  match ((stripFront front value).bind (stripFront ":")).bind Uuid.parseStr with
  | none => .error (.error "INVALID_REQUEST")
  | some uuid =>
    if value ≠ front ++ ":" ++ uuid.hyphenated then .error (.error "INVALID_REQUEST")
    else .ok uuid

def isCanonicalId (value front : String) : Bool := (parsePrefixedUuid value front).isOk

def ilkRecordIdsCanonical (ilk : IlkRecord) : Bool :=
  isCanonicalId ilk.ilkId "ilk" && isCanonicalId ilk.tenantId "tnt" &&
    ilk.channels.all fun channel =>
      isCanonicalId channel.ichId "ich" &&
        (channel.scope == "" || isCanonicalId channel.scope "tnt")

/-- Registration and provisioning check the type in the same words. -/
def validateIlkType (value : String) : Except Fault Unit :=
  require (trim value ∈ ["human", "agent"]) "INVALID_REQUEST"

def validateProvisionIlkType (value : String) : Except Fault Unit := validateIlkType value

def validateNonEmpty (field value : String) : Except Fault Unit :=
  require (trim value ≠ "") ("INVALID_REQUEST: missing " ++ field)

def validateMaxLen (field value : String) (max : ℕ) : Except Fault Unit :=
  require ((asBytes value).length ≤ max)
    ("INVALID_REQUEST: " ++ field ++ " too long (max " ++ toString max ++ ")")

structure ChannelInput where
  (ichId channelType address : String)
  scope : Option String
deriving DecidableEq

def validateChannelInput (channel : ChannelInput) : Except Fault Unit := do
  let _ ← parsePrefixedUuid channel.ichId "ich"
  validateNonEmpty "channel.type" channel.channelType
  validateNonEmpty "channel.address" channel.address
  validateMaxLen "channel.type" channel.channelType Shm.ichChannelTypeMaxLen
  validateMaxLen "channel.address" channel.address Shm.ichAddressMaxLen

def nonBlank (value : Option String) : Option String := (value.map trim).filter (· ≠ "")

def normalizeOptionalOwnerL2Name (ownerL2Name : Option String) : Except Fault (Option String) :=
  match nonBlank ownerL2Name with
  | none => .ok none
  | some name => do
    validateMaxLen "owner_l2_name" name 128
    return some name

def resolveChannelScope (channelType : String) (requested : Option String)
    (defaultScope : String) (caller : Option String) (cloudRelay : String) : Except Fault String :=
  let fromCloudRelay := caller.map trim == some cloudRelay
  if isCloudAccountChannel channelType && caller.isSome && !fromCloudRelay then
    .error (.error "CLOUD_CHANNEL_RESERVED")
  else match nonBlank requested with
    | none => .ok defaultScope
    | some scope =>
      if scope = defaultScope then .ok scope
      else if scope = installationScope && isCloudAccountChannel channelType && fromCloudRelay then
        .ok scope
      else .error (.error "INVALID_SCOPE")

variable {value : String} {front channelType defaultScope scope : String} {uuid : Uuid}
  {c : ChannelRecord} {requested caller : Option String}

theorem parsePrefixedUuid_ok
    (h : parsePrefixedUuid value front = .ok uuid) : value = front ++ ":" ++ uuid.hyphenated := by
  unfold parsePrefixedUuid at h
  split at h
  · cases h
  · split at h
    · cases h
    · rename_i u hne
      cases h
      exact not_not.mp hne

theorem isCanonicalId_of_ok
    (h : parsePrefixedUuid value front = .ok uuid) : isCanonicalId value front = true := by
  simp [isCanonicalId, h, Except.isOk, Except.toBool]

theorem plain_of_isCanonicalId (hfront : Plain front)
    (h : isCanonicalId value front = true) : Plain value := by
  unfold isCanonicalId at h
  cases hp : parsePrefixedUuid value front with
  | error e => simp [hp, Except.isOk, Except.toBool] at h
  | ok uuid =>
    rw [parsePrefixedUuid_ok hp]
    exact plain_append (plain_append hfront (by decide)) uuid.plain_hyphenated

theorem ne_empty_of_isCanonicalId (h : isCanonicalId value front = true) : value ≠ "" := by
  intro hempty
  unfold isCanonicalId at h
  cases hp : parsePrefixedUuid value front with
  | error e => simp [hp, Except.isOk, Except.toBool] at h
  | ok uuid =>
    have hv := parsePrefixedUuid_ok hp
    rw [hempty] at hv
    have hlen := congrArg (fun s : String => s.toList.length) hv
    simp at hlen

def IsTenantId (value : String) : Prop := isCanonicalId value "tnt" = true

instance (value : String) : Decidable (IsTenantId value) := inferInstanceAs (Decidable (_ = _))

theorem IsTenantId.plain (h : IsTenantId value) : Plain value :=
  plain_of_isCanonicalId (by decide) h

theorem IsTenantId.trim_eq (h : IsTenantId value) : trim value = value := trim_of_plain h.plain

theorem IsTenantId.trim_ne (h : IsTenantId value) : trim value ≠ "" := by
  rw [h.trim_eq]
  exact ne_empty_of_isCanonicalId h

theorem isTenantId_installationScope : IsTenantId installationScope := by decide +kernel

/-- What every stored ILK keeps: its tenant and its channels' scopes are tenant ids. -/
structure IlkRecord.Tidy (ilk : IlkRecord) : Prop where
  tenant : IsTenantId ilk.tenantId
  scopes : ∀ c ∈ ilk.channels, IsTenantId c.scope

section
variable (h : IsTenantId c.scope) (t : String)
include h

theorem channelScope_of_isTenantId : channelScope c t = c.scope := by
  unfold channelScope
  rw [if_neg h.trim_ne, h.trim_eq]

theorem channelKey_of_isTenantId :
    channelKey c t = canonicalIchKey c.channelType c.address c.scope := by
  unfold channelKey
  rw [channelScope_of_isTenantId h]

theorem channelKey_scope : (channelKey c t).2.2 = c.scope := by
  rw [channelKey_of_isTenantId h]
  show toAsciiLowercase (trim c.scope) = c.scope
  rw [h.trim_eq, toAsciiLowercase_of_plain h.plain]

end

theorem fillChannelScopes_of_tidy {ilk : IlkRecord} (h : ilk.Tidy) :
    fillChannelScopes ilk = ilk := by
  have hmap : ilk.channels.map (·.fillScope ilk.tenantId) = ilk.channels := by
    rw [List.map_congr_left fun c hc => ?_, List.map_id']
    exact if_neg (h.scopes c hc).trim_ne
  unfold fillChannelScopes
  rw [hmap]

variable {cloudRelay : String}

theorem resolveChannelScope_ok
    (h : resolveChannelScope channelType requested defaultScope caller cloudRelay = .ok scope) :
    scope = (nonBlank requested).getD defaultScope ∧
      (scope = defaultScope ∨ scope = installationScope) := by
  simp only [resolveChannelScope] at h
  split_ifs at h
  · cases hreq : nonBlank requested with
    | none =>
      rw [hreq] at h
      rw [← Except.ok.inj h]
      exact ⟨rfl, .inl rfl⟩
    | some asked =>
      rw [hreq] at h
      dsimp only at h
      split_ifs at h with heq hinst
      · rw [← Except.ok.inj h]
        exact ⟨rfl, .inl heq⟩
      · simp only [Bool.and_eq_true, decide_eq_true_eq] at hinst
        rw [← Except.ok.inj h]
        exact ⟨rfl, .inr hinst.1.1⟩

theorem resolveChannelScope_isTenantId (hdef : IsTenantId defaultScope)
    (h : resolveChannelScope channelType requested defaultScope caller cloudRelay = .ok scope) :
    IsTenantId scope := by
  rcases (resolveChannelScope_ok h).2 with rfl | rfl
  · exact hdef
  · exact isTenantId_installationScope

theorem validateChannelInput_ok {channel : ChannelInput} {u : Unit}
    (h : validateChannelInput channel = .ok u) : isCanonicalId channel.ichId "ich" = true := by
  obtain ⟨uuid, hparse, -⟩ := bind_ok.mp h
  exact isCanonicalId_of_ok hparse

def normalizeTenantName (value : String) : String := toAsciiLowercase (trim value)

def normalizeTenantDomain (value : Option String) : Option String :=
  (nonBlank value).map toAsciiLowercase

end Fluxbee.Identity
