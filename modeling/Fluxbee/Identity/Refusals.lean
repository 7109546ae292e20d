import Fluxbee.Identity.HivePush

/-! Store operations are all-or-nothing: one that ends with an error checked before it changed
anything. -/
namespace Fluxbee.Identity
open Text Fallible IdentityStore

variable {s s' : IdentityStore} {now : ℕ}

def effect {α : Type} (op : Op α) : Op Unit := do
  let _ ← op
  return ()

def Request.operation (cfg : Config) (now : ℕ) : Request → Op Unit
  | .provision req caller newIlk => effect (provisionTemporaryIlk req caller cfg.cloudRelay newIlk)
  | .register req => effect (registerIlk req cfg.mergeAliasTtlSecs now)
  | .addChannel req caller =>
    effect (IdentityStore.addChannel req caller cfg.mergeAliasTtlSecs cfg.cloudRelay now)
  | .updateIlk req => effect (IdentityStore.updateIlk req)
  | .setDefinition ilkId definition => effect (setIlkDefinition ilkId definition)
  | .setTenant ilkId tenantId onBehalfOf caller =>
    effect (setIlkTenant ilkId tenantId (changedBy onBehalfOf caller))
  | .setEnabled ichId enabled => effect (setIchEnabled ichId enabled)
  | .deleteIlk req => effect (IdentityStore.deleteIlk req now)
  | .restoreIlk req => effect (IdentityStore.restoreIlk req)
  | .purgeIlk req => effect (IdentityStore.purgeIlk req)
  | .createTenant req newTenant => effect (IdentityStore.createTenant req newTenant)
  | .updateTenant req => effect (IdentityStore.updateTenant req)
  | .setSponsor tenantId sponsor => effect (setTenantSponsor tenantId sponsor)
  | .approveTenant tenantId approvedBy => effect (IdentityStore.approveTenant tenantId approvedBy)
  | .deleteTenant tenantId => effect (IdentityStore.deleteTenant tenantId now)
  | .restoreTenant tenantId => effect (IdentityStore.restoreTenant tenantId)
  | .purgeTenant tenantId => effect (IdentityStore.purgeTenant tenantId)
  | .aliasGc => modify fun s => s.gcExpiredAliases now

variable {req : IlkDeleteRequest} {tenantId : String}

theorem deleteIlk_refuses : Refuses (deleteIlk req now) s := by simp [deleteIlk]

theorem restoreIlk_refuses : Refuses (restoreIlk req) s := by simp [restoreIlk]

theorem purgeIlk_refuses : Refuses (purgeIlk req) s := by simp [purgeIlk]

theorem deleteTenant_refuses : Refuses (deleteTenant tenantId now) s := by
  simp only [deleteTenant, refuses_get_bind, refuses_lift_bind]
  intro _ _
  split_ifs <;> simp

theorem restoreTenant_refuses : Refuses (restoreTenant tenantId) s := by simp [restoreTenant]

theorem purgeTenant_refuses : Refuses (purgeTenant tenantId) s := by simp [purgeTenant]

variable {err : Fault}

section
variable {α : Type} {op : Op α}

theorem refuses_effect (h : Refuses op s) : Refuses (effect op) s :=
  refuses_bind h fun _ t _ => ⟨(), t, exec_pure⟩

theorem exec_effect_error (h : exec (effect op) s = (.error err, s')) :
    exec op s = (.error err, s') := by
  unfold effect at h
  rw [exec_bind] at h
  cases hx : exec op s with
  | mk r t =>
    rw [hx] at h
    cases r with
    | error e =>
      cases h
      rfl
    | ok a => cases h

theorem runOp_of_error {commit : IdentityStore → α → Outcome}
    (h : exec (effect op) s = (.error err, s')) : runOp s op commit = (s', []) := by
  unfold runOp
  rw [exec_effect_error h]

theorem runLifecycleOp_of_error {op : Op (LifecycleOk × LifecycleChanges)} {persisted : Bool}
    (h : exec (effect op) s = (.error err, s')) : runLifecycleOp s persisted op = (s, []) := by
  unfold runLifecycleOp
  rw [exec_effect_error h]

end

theorem operation_refuses (hk : s.Kept) (cfg : Config) (q : Request) :
    Refuses (q.operation cfg now) s := by
  cases q with
  | provision req caller newIlk => exact refuses_effect provisionTemporaryIlk_refuses
  | register req => exact refuses_effect (registerIlk_refuses hk)
  | addChannel req caller => exact refuses_effect addChannel_refuses
  | updateIlk req => exact refuses_effect updateIlk_refuses
  | setDefinition ilkId definition => exact refuses_effect setIlkDefinition_refuses
  | setTenant ilkId tenantId onBehalfOf caller => exact refuses_effect setIlkTenant_refuses
  | setEnabled ichId enabled => exact refuses_effect setIchEnabled_refuses
  | deleteIlk req => exact refuses_effect deleteIlk_refuses
  | restoreIlk req => exact refuses_effect restoreIlk_refuses
  | purgeIlk req => exact refuses_effect purgeIlk_refuses
  | createTenant req newTenant => exact refuses_effect createTenant_refuses
  | updateTenant req | setSponsor tenantId sponsor => exact refuses_effect updateTenant_refuses
  | approveTenant tenantId approvedBy => exact refuses_effect approveTenant_refuses
  | deleteTenant tenantId => exact refuses_effect deleteTenant_refuses
  | restoreTenant tenantId => exact refuses_effect restoreTenant_refuses
  | purgeTenant tenantId => exact refuses_effect purgeTenant_refuses
  | aliasGc => exact refuses_of_ok ⟨_, _, exec_modify⟩

/-- A request whose operation ends with an error is answered without a delta, from the store the
operation left; a lifecycle operation's snapshot is put back as well. -/
theorem handle_of_error {cfg : Config} {e : Event}
    (h : exec (e.request.operation cfg e.now) s = (.error err, s')) (hsame : s' = s) :
    handle cfg s e = (s, []) := by
  subst hsame
  unfold handle
  cases hq : e.request with
  | aliasGc =>
    rw [hq, Request.operation, exec_modify] at h
    cases h
  | deleteIlk | restoreIlk | purgeIlk | deleteTenant | restoreTenant | purgeTenant =>
    rw [hq] at h
    exact runLifecycleOp_of_error h
  | provision | register | addChannel | updateIlk | setDefinition | setTenant | setEnabled
  | createTenant | updateTenant | setSponsor | approveTenant =>
    rw [hq] at h
    exact runOp_of_error h

section
variable {cfg : Config} {systemIlkId : String → String} {primaryHive : String}
  {okRequest : IdentityStore → Event → Prop} {okFrame : IdentityStore → IngestFrame → Prop}

/-- In every store the primary reaches, an operation that ends with an error leaves the store as it
was, and the request changes and announces nothing. -/
theorem error_leaves_store (h : Reaches (Serves cfg systemIlkId primaryHive okRequest okFrame) s)
    (e : Event) {err : Fault} (herr : exec (e.request.operation cfg e.now) s = (.error err, s')) :
    s'.tenants = s.tenants ∧ s'.ilks = s.ilks ∧ s'.aliases = s.aliases ∧
      s'.ichLookup = s.ichLookup ∧ handle cfg s e = (s, []) := by
  have hsame : s' = s := operation_refuses (served_kept h) cfg e.request err s' herr
  have hhandled := handle_of_error herr hsame
  subst hsame
  exact ⟨rfl, rfl, rfl, rfl, hhandled⟩

end

namespace Refusal

def provision (n : Fin 16) (ichId address : String) : Event :=
  ⟨.provision ⟨ichId, "phone", address, none, none, none⟩ none (.uniform n), 0, true⟩

/-- Two ILKs, each with a channel. -/
def store : IdentityStore :=
  runRequests hourConfig .withDefaultTenant
    [provision 1 "ich:00000000-0000-4000-8000-000000000001" "+1",
      provision 2 "ich:00000000-0000-4000-8000-000000000002" "+2"]

/-- A new channel for the first, and then one with the key of the second's. -/
def update : Event :=
  ⟨.updateIlk ⟨newIlkId (.uniform 1),
    [⟨"ich:00000000-0000-4000-8000-000000000003", "phone", "+3", none⟩,
      ⟨"ich:00000000-0000-4000-8000-000000000004", "phone", "+2", none⟩], none⟩, 0, true⟩

end Refusal

/-- An update whose second channel is another ILK's is refused after the first was found free, and
leaves the store. -/
theorem error_leaves_store_taken_channel :
    Refusal.store.ilks.keys.length = 2 ∧
      (exec (Refusal.update.request.operation hourConfig 0) Refusal.store).1.isOk = false ∧
      handle hourConfig Refusal.store Refusal.update = (Refusal.store, []) := by
  have hfail : Refusal.store.ilks.keys.length = 2 ∧
      (exec (Refusal.update.request.operation hourConfig 0) Refusal.store).1.isOk = false := by
    decide +kernel
  have hrun : Reaches (Serves hourConfig id "motherbee" (fun _ _ => True) fun _ _ => True)
      Refusal.store :=
    Reaches.withDefaultTenant.serveRequests (meets_of_forall (fun _ _ => trivial) _ _)
  refine ⟨hfail.1, hfail.2, ?_⟩
  rcases hexec : exec (Refusal.update.request.operation hourConfig 0) Refusal.store with ⟨res, next⟩
  cases res with
  | ok answer =>
    rw [hexec] at hfail
    cases hfail.2
  | error err => exact (error_leaves_store hrun Refusal.update hexec).2.2.2.2

end Fluxbee.Identity
