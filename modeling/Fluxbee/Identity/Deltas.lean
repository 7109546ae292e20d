import Fluxbee.Identity.Tenants

/-! The deltas that carry a store's changes to its replicas, and the pushes of a hive to the
primary. -/
namespace Fluxbee.Identity
open Text Fallible

inductive IdentityDelta where
  | tenantUpsert (tenant : TenantRecord)
  | tenantDelete (tenantId : String)
  | ilkUpsert (ilk : IlkRecord)
  | ilkDelete (ilkId : String)
  | aliasUpsert (entry : AliasSnapshotRecord)
  | aliasDelete (oldIlkId : String)

namespace IdentityStore

/-- The lookup once `ilk` is under its id: its old keys gone, the keys of an active record in. -/
def relinked (s : IdentityStore) (ilk : IlkRecord) : AList fun _ : IchKey => String :=
  let cleared := s.ichLookup.retain fun _ mapped => mapped != ilk.ilkId
  if ilk.deletedAtMs = none then cleared.insertAll ilk.keys ilk.ilkId else cleared

def applyDelta (s : IdentityStore) : IdentityDelta → IdentityStore
  | .tenantUpsert tenant => { s with tenants := s.tenants.insert tenant.tenantId tenant }
  | .tenantDelete tenantId => { s with tenants := s.tenants.erase tenantId }
  | .ilkUpsert ilk =>
    let filled := fillChannelScopes ilk
    { s with ichLookup := s.relinked filled, ilks := s.ilks.insert filled.ilkId filled }
  | .ilkDelete ilkId =>
    if ((s.ilks.lookup ilkId).map isWellKnownSystemIlk).getD false then s
    else
      { s with
        aliases := s.aliases.retain fun old a => old != ilkId && a.canonicalIlkId != ilkId
        ichLookup := s.ichLookup.retain fun _ mapped => mapped != ilkId
        ilks := s.ilks.erase ilkId }
  | .aliasUpsert entry =>
    { s with aliases := s.aliases.insert entry.oldIlkId ⟨entry.canonicalIlkId, entry.expiresAtMs⟩ }
  | .aliasDelete oldIlkId => { s with aliases := s.aliases.erase oldIlkId }

def applyDeltas (s : IdentityStore) (deltas : List IdentityDelta) : IdentityStore :=
  deltas.foldl applyDelta s

end IdentityStore

/-- A node channel in its ILK's own tenant, or one the primary holds exactly as pushed. -/
def replicaChannelAcceptable (incoming : IlkRecord) (existing : Option IlkRecord)
    (channel : ChannelRecord) : Bool :=
  let key := channelKey channel incoming.tenantId
  let known := (existing.map fun e => e.channels.any fun held =>
    held.ichId == channel.ichId && channelKey held e.tenantId == key).getD false
  let scope := channelScope channel incoming.tenantId
  known || (scope == incoming.tenantId && scope != installationScope &&
    !isCloudAccountChannel channel.channelType)

def replicaPushAcceptable (incoming : IlkRecord) (s : IdentityStore) : Bool :=
  let existing := s.ilks.lookup incoming.ilkId
  ilkRecordIdsCanonical incoming &&
    ((existing.map fun e => e.tenantId == incoming.tenantId).getD true) &&
    incoming.channels.all (replicaChannelAcceptable incoming existing) &&
    incoming.keys.all fun key => (s.checkChannelFree key [incoming.ilkId]).isOk

section
-- The deterministic id of a system node's ILK, a hash of its name.
variable (systemIlkId : String → String)

def ingestIlkTypeAuthorized (ilk : IlkRecord) (publisherHive : String) : Bool :=
  if trim ilk.ilkType ≠ "system" then true
  else match identificationStr ilk.identification "node_name" with
    | none => false
    | some nodeName =>
      (stripFront "SY." nodeName).isSome && ilkOwningHive ilk == some publisherHive &&
        ilk.ilkId == systemIlkId nodeName

def ownedBy (s : IdentityStore) (publisherHive ilkId : String) : Bool :=
  (s.ilks.lookup ilkId).bind ilkOwningHive == some publisherHive

def deltaAuthorizedForHive (delta : IdentityDelta) (publisherHive : String) (s : IdentityStore) :
    Bool :=
  match delta with
  | .ilkUpsert ilk =>
    ilkOwningHive ilk == some publisherHive &&
      ingestIlkTypeAuthorized systemIlkId ilk publisherHive && replicaPushAcceptable ilk s &&
      (((s.ilks.lookup ilk.ilkId).map fun e => ilkOwningHive e == some publisherHive).getD true)
  | .ilkDelete ilkId => isCanonicalId ilkId "ilk" && ownedBy s publisherHive ilkId
  | .aliasUpsert entry =>
    !(((s.ilks.lookup entry.oldIlkId).map isWellKnownSystemIlk).getD false) &&
      (isCanonicalId entry.oldIlkId "ilk" && ownedBy s publisherHive entry.oldIlkId) &&
      (isCanonicalId entry.canonicalIlkId "ilk" && ownedBy s publisherHive entry.canonicalIlkId)
  | .aliasDelete oldIlkId => isCanonicalId oldIlkId "ilk" && ownedBy s publisherHive oldIlkId
  | .tenantUpsert _ | .tenantDelete _ => false

namespace IdentityStore

/-- The pushed records that are neither another hive's nor already stored as they are. -/
def reconcileUpserts (hiveId : String) : List IlkRecord → IdentityStore →
    IdentityStore × List IdentityDelta
  | [], s => (s, [])
  | ilk :: rest, s =>
    let skip := ((s.ilks.lookup ilk.ilkId).map fun existing =>
      ilkOwningHive existing != some hiveId || existing == ilk).getD false
    if skip then reconcileUpserts hiveId rest s
    else
      let next := reconcileUpserts hiveId rest (s.applyDelta (.ilkUpsert ilk))
      (next.1, .ilkUpsert ilk :: next.2)

/-- The records of a push that are accepted, each against the store before the push. -/
def acceptedPush (s : IdentityStore) (incoming : List IlkRecord) : List IlkRecord :=
  (incoming.map fillChannelScopes).filter (replicaPushAcceptable · s)

section
variable (s : IdentityStore) (hiveId : String) (incoming : List IlkRecord)

def staleIlks : List String :=
  (s.ilks.values.filter fun ilk => ilkOwningHive ilk == some hiveId &&
    ilk.ilkId ∉ incoming.map (·.ilkId) && !isWellKnownSystemIlk ilk).map (·.ilkId)

def reconcileHiveIlks : IdentityStore × List IdentityDelta :=
  let stale := (s.staleIlks hiveId incoming).map IdentityDelta.ilkDelete
  let upserted := reconcileUpserts hiveId (s.acceptedPush incoming) s
  (upserted.1.applyDeltas stale, upserted.2 ++ stale)

end

end IdentityStore

inductive IngestFrame where
  | delta (publisherHive : String) (delta : IdentityDelta)
  | snapshot (publisherHive : String) (ilks : List IlkRecord)

/-- The store once the primary took a frame in, and the deltas it broadcasts. -/
def ingest (primaryHive : String) (s : IdentityStore) :
    IngestFrame → IdentityStore × List IdentityDelta
  | .delta publisher delta =>
    if publisher = primaryHive then (s, [])
    else if deltaAuthorizedForHive systemIlkId delta publisher s then (s.applyDelta delta, [delta])
    else (s, [])
  | .snapshot publisher ilks =>
    if publisher = primaryHive then (s, [])
    else if ilks.all fun ilk => ilkOwningHive ilk == some publisher &&
        ingestIlkTypeAuthorized systemIlkId ilk publisher then
      s.reconcileHiveIlks publisher ilks
    else (s, [])

end
end Fluxbee.Identity
