import Fluxbee.Identity.Holding

/-! What a request can do to a store, with the deltas it emits: one case for each kind of change,
from which every invariant of the store is derived. -/
namespace Fluxbee.Identity
open Text Fallible IdentityStore

/-- The record of an ILK changed, but neither its mark nor its channels' ids and keys. -/
structure Retouched (old new : IlkRecord) : Prop where
  ilkId : new.ilkId = old.ilkId
  deletedAtMs : new.deletedAtMs = old.deletedAtMs
  tenant : IsTenantId new.tenantId
  places : new.channels.map (·.place) = old.channels.map (·.place)

/-- `id` takes `new` channels and those `moved` from the `sources`; a channel whose id it holds
already changes the lookup only. -/
structure Absorbs (s s' : IdentityStore) (id : String) (old next : IlkRecord)
    (new moved : List ChannelRecord) (sources : List String) : Prop where
  stored : s.ilks.lookup id = some old
  active : old.deletedAtMs = none
  sourced : ∀ j ∈ sources, j ≠ id ∧
    ∃ r, s.ilks.lookup j = some r ∧ r.deletedAtMs = none ∧ ∀ c ∈ r.channels, c ∈ moved
  movedFrom : ∀ c ∈ moved, ∃ j ∈ sources, ∃ r, s.ilks.lookup j = some r ∧ c ∈ r.channels
  ilkId : next.ilkId = old.ilkId
  tenantId : next.tenantId = old.tenantId
  deletedAtMs : next.deletedAtMs = none
  channels : next.channels = pushMissing old.channels (new ++ moved)
  scopes : ∀ c ∈ new, IsTenantId c.scope
  ichIds : ∀ c ∈ new, isCanonicalId c.ichId "ich" = true
  keyFree : ∀ c ∈ new, s.checkChannelFree c.key (id :: sources) = .ok ()
  ichFree : ∀ c ∈ new, s.checkIchIdFree c.ichId (id :: sources) = .ok ()
  tenants : s'.tenants = s.tenants
  ilks : ∀ j, s'.ilks.lookup j = if j = id then some next else
    (s.ilks.lookup j).map fun r => if j ∈ sources then { r with channels := [] } else r
  resolve : ∀ k, s'.resolve k =
    if k ∈ (new ++ moved).map (·.key) then some id else s.resolve k

/-- A channel id that a request adds to an ILK, and that the ILKs it joins hold already, has the
key it is held with; and so for two channels of one request. -/
def AddsNoHeldIch (s : IdentityStore) : Request → Prop
  | .addChannel req _ =>
    ∀ target ∈ s.ilks.lookup req.ilkId, ∀ j ∈ req.ilkId :: req.mergeFromIlkId.toList,
      ∀ r ∈ s.ilks.lookup j, ∀ c ∈ r.channels, c.ichId = req.channel.ichId →
        channelKey c r.tenantId = canonicalIchKey req.channel.channelType req.channel.address
          ((nonBlank req.channel.scope).getD target.tenantId)
  | .updateIlk req =>
    ∀ entry ∈ s.ilks.lookup req.ilkId, ∀ ch ∈ req.addChannels,
      (∀ c ∈ entry.channels, c.ichId = ch.ichId →
        channelKey c entry.tenantId = canonicalIchKey ch.channelType ch.address entry.tenantId) ∧
      ∀ ch' ∈ req.addChannels, ch'.ichId = ch.ichId →
        canonicalIchKey ch'.channelType ch'.address entry.tenantId =
          canonicalIchKey ch.channelType ch.address entry.tenantId
  | _ => True

/-- Among the channels, one with the id of a `new` one has its key. -/
def NoReuse (old new moved : List ChannelRecord) : Prop :=
  ∀ c ∈ new, ∀ d ∈ old ++ new ++ moved, d.ichId = c.ichId → d.key = c.key

/-- A registration that no email merges elsewhere lands on `id`. -/
structure LandsOn (s : IdentityStore) (req : IlkRegisterRequest) (id : String) : Prop where
  target : id = ((identificationStr req.identification "node_name").bind
    (s.findActiveIlkByIdentificationKey "node_name")).getD req.ilkId
  email : ∀ email, identificationStr req.identification "email" = some email →
    s.ilkHoldingEmail req.tenantId email false = some req.ilkId ∨
      (s.ilkHoldingEmail req.tenantId email false = none ∧
        s.ilkHoldingEmail req.tenantId email true = none)

/-- Why a record was retouched: what became of its identification and of the tenant it is charged
to. -/
inductive Retouching (s : IdentityStore) (id : String) : Request → IlkRecord → IlkRecord → Prop
  | kept {q old new} (tenantId : new.tenantId = old.tenantId)
    (identification : new.identification = old.identification)
    (status : new.registrationStatus = old.registrationStatus) : Retouching s id q old new
  | signup {q old new} (temporary : old.registrationStatus = "temporary")
    (identification : new.identification = old.identification)
    (status : new.registrationStatus = old.registrationStatus) : Retouching s id q old new
  | charged {q old new} (identification : new.identification = old.identification)
    (status : new.registrationStatus = old.registrationStatus)
    (emailFree : ∀ email ∈ identificationStr old.identification "email",
      ∀ deleted ∈ [false, true], ∀ other ∈ s.ilkHoldingEmail new.tenantId email deleted,
        other = id) : Retouching s id q old new
  | registered {req old new} (lands : LandsOn s req id) (active : old.deletedAtMs = none)
    (tenantId : new.tenantId = req.tenantId)
    (identification : new.identification = req.identification)
    (status : new.registrationStatus = "complete") : Retouching s id (.register req) old new

/-- Why an ILK was merged into another, and what became of the other's identification. -/
inductive Merging (s : IdentityStore) (sourceId id : String) :
    Request → IlkRecord → IlkRecord → Prop
  | added {req caller old next} (source : req.mergeFromIlkId = some sourceId)
    (target : req.ilkId = id) (identification : next.identification = old.identification) :
    Merging s sourceId id (.addChannel req caller) old next
  | registered {req old next email} (source : req.ilkId = sourceId)
    (given : identificationStr req.identification "email" = some email)
    (holder : s.ilkHoldingEmail req.tenantId email false = some id)
    (identification : next.identification =
      fillMissingIdentification old.identification req.identification) :
    Merging s sourceId id (.register req) old next

def newIlkId (newIlk : Uuid) : String := "ilk:" ++ newIlk.hyphenated

def provisioned (req : IlkProvisionRequest) (newIlk : Uuid) (ilkType tenantId scope : String) :
    IlkRecord :=
  { ilkId := newIlkId newIlk, ilkType, registrationStatus := "temporary", tenantId,
    identification := .obj [], definition := .obj [],
    channels := [⟨req.ichId, req.channelType, req.address, none, false, scope⟩],
    deletedAtMs := none, deletedReason := none }

section
variable (s : IdentityStore) (tenantId : String)

def emptiedTenant : IdentityStore × List String :=
  purgeLoop (s.tenantIlks tenantId) s

def purgedStore : IdentityStore :=
  let trimmed := ((emptiedTenant s tenantId).1.dropChannelsInScope tenantId).1
  { trimmed with tenants := trimmed.tenants.erase tenantId }

def purgeDeltas : List IdentityDelta :=
  ((emptiedTenant s tenantId).1.dropChannelsInScope tenantId).2.2.map .ilkUpsert ++
    (emptiedTenant s tenantId).2.map .aliasDelete ++ (s.tenantIlks tenantId).map .ilkDelete ++
    [.tenantDelete tenantId]

end

inductive Turn (s : IdentityStore) (now : ℕ) :
    Request → IdentityStore → List IdentityDelta → Prop
  | same {q} : Turn s now q s []
  | tenantPut {q} (t : TenantRecord) :
    Turn s now q { s with tenants := s.tenants.insert t.tenantId t } [.tenantUpsert t]
  | tenantKept {q} {t : TenantRecord} (h : s.tenants.lookup t.tenantId = some t) :
    Turn s now q s [.tenantUpsert t]
  | retouch {q id} {old new : IlkRecord} (stored : s.ilks.lookup id = some old)
    (h : Retouched old new) (why : Retouching s id q old new) :
    Turn s now q { s with ilks := s.ilks.insert id new } [.ilkUpsert new]
  | provision {req caller newIlk} {ilkType tenantId scope : String}
    (ich : isCanonicalId req.ichId "ich" = true) (tenant : IsTenantId tenantId)
    (inScope : IsTenantId scope)
    (missed : s.ichLookup.lookup (canonicalIchKey req.channelType req.address scope) = none)
    (unreserved : s.deletedIlkHoldingChannel req.channelType req.address scope = none)
    (ichFree : s.checkIchIdFree req.ichId [] = .ok ()) :
    Turn s now (.provision req caller newIlk)
      { s with
        ichLookup := s.ichLookup.insert (canonicalIchKey req.channelType req.address scope)
          (newIlkId newIlk)
        ilks := s.ilks.insert (newIlkId newIlk)
          (provisioned req newIlk ilkType tenantId scope) }
      [.ilkUpsert (provisioned req newIlk ilkType tenantId scope)]
  | registerNew {req} {r : IlkRecord} (absent : s.ilks.lookup r.ilkId = none)
    (tenant : IsTenantId r.tenantId) (bare : r.channels = []) (lands : LandsOn s req r.ilkId)
    (tenantId : r.tenantId = req.tenantId) (identification : r.identification = req.identification)
    (status : r.registrationStatus = "complete") (active : r.deletedAtMs = none) :
    Turn s now (.register req) { s with ilks := s.ilks.insert r.ilkId r } [.ilkUpsert r]
  | attach {q s' id} {old next : IlkRecord} {new : List ChannelRecord}
    (h : Absorbs s s' id old next new [] []) (aliases : s'.aliases = s.aliases)
    (reuse : AddsNoHeldIch s q → NoReuse old.channels new [])
    (identification : next.identification = old.identification)
    (status : next.registrationStatus = old.registrationStatus) :
    Turn s now q s' [.ilkUpsert next]
  | merge {q s' id sourceId expiresAtMs} {old next source : IlkRecord} {new : List ChannelRecord}
    (h : Absorbs s s' id old next new source.channels [sourceId])
    (sourced : s.ilks.lookup sourceId = some source)
    (aliases : s'.aliases = s.aliases.insert sourceId ⟨id, expiresAtMs⟩)
    (reuse : AddsNoHeldIch s q → NoReuse old.channels new source.channels)
    (temporary : source.registrationStatus = "temporary")
    (status : next.registrationStatus = old.registrationStatus)
    (why : Merging s sourceId id q old next) :
    Turn s now q s' [.ilkUpsert next, .ilkUpsert { source with channels := [] },
      .aliasUpsert ⟨sourceId, id, expiresAtMs⟩]
  | mark {q id} {old : IlkRecord} (stored : s.ilks.lookup id = some old) :
    Turn s now q
      { s with
        ilks := s.ilks.insert id
          { old with deletedAtMs := some now, deletedReason := some deletedReasonDirect }
        ichLookup := s.ichLookup.retain fun _ mapped => mapped != id }
      [.ilkUpsert { old with deletedAtMs := some now, deletedReason := some deletedReasonDirect }]
  | restore {req} {entry : IlkRecord} (stored : s.ilks.lookup req.ilkId = some entry)
    (marked : entry.deletedAtMs ≠ none) (restorable : s.checkIlkRestorable req.ilkId = .ok ()) :
    Turn s now (.restoreIlk req) (s.unmarkIlkUnchecked req.ilkId).1
      ((s.unmarkIlkUnchecked req.ilkId).2.ilks.map .ilkUpsert)
  | purgeIlk {q id} {entry : IlkRecord} (stored : s.ilks.lookup id = some entry)
    (wellKnown : isWellKnownSystemIlk entry = false) :
    Turn s now q (s.removeIlkPhysically id).1
      ((s.removeIlkPhysically id).2.map .aliasDelete ++ [.ilkDelete id])
  | purgeTenant {tenantId}
    (wellKnown : ∀ id ∈ s.tenantIlks tenantId, ∀ r ∈ s.ilks.lookup id,
      ¬ isWellKnownSystemIlk r) :
    Turn s now (.purgeTenant tenantId) (purgedStore s tenantId) (purgeDeltas s tenantId)
  | gc : Turn s now .aliasGc (s.gcExpiredAliases now)
      ((s.expiredAliases now).flatMap (gcDeltas (s.gcExpiredAliases now)))

end Fluxbee.Identity
