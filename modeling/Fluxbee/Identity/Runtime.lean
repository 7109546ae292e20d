import Fluxbee.Identity.Deltas

/-! The identity service's requests: each runs one store operation, persists what it changed and
announces it as deltas. -/
namespace Fluxbee.Identity
open Text Fallible IdentityStore

inductive Request where
  | provision (req : IlkProvisionRequest) (caller : Option String) (newIlk : Uuid)
  | register (req : IlkRegisterRequest)
  | addChannel (req : IlkAddChannelRequest) (caller : Option String)
  | updateIlk (req : IlkUpdateRequest)
  | setDefinition (ilkId : String) (definition : Json)
  | setTenant (ilkId tenantId : String) (onBehalfOf caller : Option String)
  | setEnabled (ichId : String) (enabled : Bool)
  | deleteIlk (req : IlkDeleteRequest)
  | restoreIlk (req : IlkDeleteRequest)
  | purgeIlk (req : IlkDeleteRequest)
  | createTenant (req : TntCreateRequest) (newTenant : Uuid)
  | updateTenant (req : TntUpdateRequest)
  | setSponsor (tenantId : String) (sponsorTenantId : Json)
  | approveTenant (tenantId approvedBy : String)
  | deleteTenant (tenantId : String)
  | restoreTenant (tenantId : String)
  | purgeTenant (tenantId : String)
  | aliasGc

/-- A request, when it runs, and whether the database takes what it writes. -/
structure Event where
  request : Request
  now : ℕ
  persisted : Bool

structure Config where
  mergeAliasTtlSecs : ℕ
  cloudRelay : String

abbrev Outcome := IdentityStore × List IdentityDelta

/-- Persists the ILKs an operation changed, `s` being the store after it; a database error puts
the snapshot back. -/
def commitIlkChanges (snapshot s : IdentityStore) (persisted : Bool) (ilkIds : List String)
    (aliasLeft : Option AliasSnapshotRecord) : Outcome :=
  let ilks := ilkIds.filterMap s.ilks.lookup
  if ilks = [] then (s, [])
  else if persisted then
    (s, ilks.map .ilkUpsert ++ aliasLeft.toList.map .aliasUpsert)
  else (snapshot, [])

def commitTenant (snapshot s : IdentityStore) (persisted : Bool) (tenantId : String) : Outcome :=
  match s.tenants.lookup tenantId with
  | none => (s, [])
  | some tenant => if persisted then (s, [.tenantUpsert tenant]) else (snapshot, [])

def LifecycleChanges.deltas (changes : LifecycleChanges) : List IdentityDelta :=
  changes.tenants.map .tenantUpsert ++ (changes.ilks ++ changes.trimmedIlks).map .ilkUpsert ++
    changes.purgedAliases.map .aliasDelete ++ changes.purgedIlks.map .ilkDelete ++
    changes.purgedTenants.map .tenantDelete

/-- A refused lifecycle operation puts the snapshot back, like a database error. -/
def runLifecycleOp (s : IdentityStore) (persisted : Bool)
    (op : Op (LifecycleOk × LifecycleChanges)) : Outcome :=
  match exec op s with
  | (.ok (_, changes), next) => if persisted then (next, changes.deltas) else (s, [])
  | (.error _, _) => (s, [])

/-- An operation that commits what it answers; a refused one leaves the store it reached. -/
def runOp {α : Type} (s : IdentityStore) (op : Op α) (commit : IdentityStore → α → Outcome) :
    Outcome :=
  match exec op s with
  | (.ok a, next) => commit next a
  | (.error _, next) => (next, [])

section
variable {s : IdentityStore} {P : Outcome → Prop}

theorem runLifecycleOp_rule {persisted : Bool} {op : Op (LifecycleOk × LifecycleChanges)}
    (hsame : P (s, []))
    (hok : ∀ r changes next, exec op s = (.ok (r, changes), next) → P (next, changes.deltas)) :
    P (runLifecycleOp s persisted op) := by
  unfold runLifecycleOp
  cases hx : exec op s with
  | mk r next =>
    cases r with
    | error e => exact hsame
    | ok a =>
      cases persisted with
      | false => exact hsame
      | true => exact hok a.1 a.2 next hx

theorem runOp_rule {α : Type} {op : Op α} {commit : IdentityStore → α → Outcome}
    (href : ∀ e next, exec op s = (.error e, next) → P (next, []))
    (hok : ∀ a next, exec op s = (.ok a, next) → P (commit next a)) : P (runOp s op commit) := by
  unfold runOp
  cases hx : exec op s with
  | mk r next =>
    cases r with
    | error e => exact href e next hx
    | ok a => exact hok a next hx

end

def gcDeltas (s : IdentityStore) (oldIlkId : String) : List IdentityDelta :=
  .aliasDelete oldIlkId ::
    ((s.ilks.lookup oldIlkId).filter (·.deletedAtMs.isSome)).toList.map .ilkUpsert

def runAliasGc (s : IdentityStore) (now : ℕ) (persisted : Bool) : Outcome :=
  let next := s.gcExpiredAliases now
  if persisted then (next, (s.expiredAliases now).flatMap (gcDeltas next)) else (s, [])

def changedBy (onBehalfOf caller : Option String) : String :=
  match nonBlank onBehalfOf with
  | some name => caller.getD "unknown" ++ " for " ++ name
  | none => caller.getD "unknown"

def handle (cfg : Config) (s : IdentityStore) (e : Event) : Outcome :=
  match e.request with
  | .provision req caller newIlk =>
    runOp s (provisionTemporaryIlk req caller cfg.cloudRelay newIlk) fun next ok =>
      commitIlkChanges s next e.persisted
        (if ok.1.created = true ∨ ok.2.isSome then [ok.1.ilkId] else []) none
  | .register req =>
    runOp s (registerIlk req cfg.mergeAliasTtlSecs e.now) fun next ok =>
      commitIlkChanges s next e.persisted (ok.ilkId :: ok.mergedFromIlkId.toList)
        (ok.mergedFromIlkId.bind next.aliasSnapshot)
  | .addChannel req caller =>
    runOp s (addChannel req caller cfg.mergeAliasTtlSecs cfg.cloudRelay e.now) fun next ok =>
      commitIlkChanges s next e.persisted (ok.ilkId :: req.mergeFromIlkId.toList)
        (req.mergeFromIlkId.bind next.aliasSnapshot)
  | .updateIlk req =>
    runOp s (updateIlk req) fun next ok => commitIlkChanges s next e.persisted [ok.ilkId] none
  | .setDefinition ilkId definition =>
    runOp s (setIlkDefinition ilkId definition) fun next _ =>
      commitIlkChanges s next e.persisted [ilkId] none
  | .setTenant ilkId tenantId onBehalfOf caller =>
    runOp s (setIlkTenant ilkId tenantId (changedBy onBehalfOf caller)) fun next ok =>
      commitIlkChanges s next e.persisted (ok.2.map (·.ilkId)).toList none
  | .setEnabled ichId enabled =>
    runOp s (setIchEnabled ichId enabled) fun next ok =>
      commitIlkChanges s next e.persisted [ok.ilkId] none
  | .deleteIlk req => runLifecycleOp s e.persisted (deleteIlk req e.now)
  | .restoreIlk req => runLifecycleOp s e.persisted (restoreIlk req)
  | .purgeIlk req => runLifecycleOp s e.persisted (purgeIlk req)
  | .createTenant req newTenant =>
    runOp s (createTenant req newTenant) fun next ok => commitTenant s next e.persisted ok.tenantId
  | .updateTenant req =>
    runOp s (updateTenant req) fun next ok => commitTenant s next e.persisted ok.tenantId
  | .setSponsor tenantId sponsor =>
    runOp s (setTenantSponsor tenantId sponsor) fun next ok =>
      commitTenant s next e.persisted ok.tenantId
  | .approveTenant tenantId approvedBy =>
    runOp s (approveTenant tenantId approvedBy) fun next id => commitTenant s next e.persisted id
  | .deleteTenant tenantId => runLifecycleOp s e.persisted (deleteTenant tenantId e.now)
  | .restoreTenant tenantId => runLifecycleOp s e.persisted (restoreTenant tenantId)
  | .purgeTenant tenantId => runLifecycleOp s e.persisted (purgeTenant tenantId)
  | .aliasGc => runAliasGc s e.now e.persisted

end Fluxbee.Identity
