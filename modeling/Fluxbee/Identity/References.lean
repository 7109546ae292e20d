import Fluxbee.Identity.Announcements
import Fluxbee.Identity.HivePush

/-! Tenant references: the tenants that the stored ILKs are charged to and their channels are scoped
to, and why each of them is stored. -/
namespace Fluxbee.Identity
open Text Fallible IdentityStore List Option AList ChannelRecord Bool

section
variable {s s' next : IdentityStore} {now : ℕ} {q : Request} {deltas : List IdentityDelta}
  {ok : String → Prop} {r : IlkRecord} {id tenantId cloudRelay : String} {caller : Option String}

def IdentityStore.StoresTenant (s : IdentityStore) (tenantId : String) : Prop :=
  (s.tenants.lookup tenantId).isSome = true

instance (s : IdentityStore) (tenantId : String) : Decidable (s.StoresTenant tenantId) :=
  inferInstanceAs (Decidable (_ = true))

/-- The tenant a record is charged to and those its channels are scoped to meet `ok`. -/
structure IlkRecord.Refers (ok : String → Prop) (r : IlkRecord) : Prop where
  charged : ok r.tenantId
  scopes : ∀ c ∈ r.channels, ok c.scope

def IdentityStore.Refers (ok : String → Prop) (s : IdentityStore) : Prop :=
  ∀ id r, s.ilks.lookup id = some r → r.Refers ok

theorem IlkRecord.Refers.mono {ok' : String → Prop} (h : r.Refers ok)
    (hsub : ∀ id, ok id → ok' id) : r.Refers ok' :=
  ⟨hsub _ h.charged, fun c hc => hsub _ (h.scopes c hc)⟩

theorem IdentityStore.Refers.of_ilks (h : s.Refers ok)
    (hilks : ∀ id r, s'.ilks.lookup id = some r → s.ilks.lookup id = some r ∨ r.Refers ok) :
    s'.Refers ok := by
  intro id r hr
  rcases hilks id r hr with hold | hnew
  · exact h id r hold
  · exact hnew

theorem IdentityStore.Refers.put (h : s.Refers ok)
    (hr : r.Refers ok) (lookup : AList fun _ : IchKey => String) :
    ({ s with ichLookup := lookup, ilks := s.ilks.insert id r } : IdentityStore).Refers ok := by
  refine h.of_ilks ?_
  intro j r' hr'
  rw [lookup_insert_eq] at hr'
  split_ifs at hr'
  · cases hr'
    exact .inr hr
  · exact .inl hr'

theorem refers_pushMissing {new : List ChannelRecord} (h : r.Refers ok)
    (hnew : ∀ c ∈ new, ok c.scope) :
    ({ r with channels := pushMissing r.channels new } : IlkRecord).Refers ok := by
  refine ⟨h.charged, ?_⟩
  intro c hc
  rcases mem_of_mem_pushMissing hc with hold | hin
  · exact h.scopes c hold
  · exact hnew c hin

/-! ### The operations -/

section

theorem refers_charged (h : r.Refers ok) (htidy : r.Tidy)
    (ht : ok tenantId) : ({ fillChannelScopes r with tenantId } : IlkRecord).Refers ok := by
  rw [fillChannelScopes_of_tidy htidy]
  exact ⟨ht, h.scopes⟩

theorem refers_resolved {channelType scope : String}
    {requested : Option String} (ht : ok tenantId) (hroot : ok installationScope)
    (h : resolveChannelScope channelType requested tenantId caller cloudRelay = .ok scope) :
    ok scope := by
  rcases (resolveChannelScope_ok h).2 with rfl | rfl
  · exact ht
  · exact hroot

variable {answer : ProvisionOk × Option TenantChange} {req : IlkProvisionRequest}

theorem refers_provision (hk : s.Kept) (hs : s.Refers ok) (hroot : ok installationScope)
    {newIlk : Uuid} (htenant : ∀ t ∈ req.tenantId, ok t)
    (h : exec (provisionTemporaryIlk req caller cloudRelay newIlk) s = (.ok answer, next)) :
    next.Refers ok := by
  simp only [provisionTemporaryIlk, exec_ok] at h
  obtain ⟨-, -, -, -, -, -, -, -, -, -, ilkType, -, tenantId, hgiven, -, -, -, -, scope, hscope,
    -, -, h⟩ := h
  have ht : ok tenantId := by
    rcases or_eq_some_iff.mp hgiven with hreq | ⟨-, hdefault⟩
    · exact htenant tenantId hreq
    · unfold defaultTenantId at hdefault
      split_ifs at hdefault
      rw [← Option.some.inj hdefault]
      exact hroot
  have hin := refers_resolved ht hroot hscope
  cases hl : s.ichLookup.lookup (canonicalIchKey req.channelType req.address scope) with
  | some existing =>
    rw [hl] at h
    rcases provisionHit_ok h with ⟨rfl, -⟩ | ⟨ilk, hilk, -, -, -, rfl⟩
    · exact hs
    · exact hs.put (refers_charged (hs _ _ hilk) (hk.tidy _ _ hilk) ht) _
  | none =>
    rw [hl] at h
    simp only [provisionNew, exec_ok] at h
    obtain ⟨-, -, -, -, -, rfl⟩ := h
    refine hs.put ⟨ht, ?_⟩ _
    intro c hc
    rw [mem_singleton.mp hc]
    exact hin

theorem provision_unpersisted {newIlk : Uuid}
    (h : exec (provisionTemporaryIlk req caller cloudRelay newIlk) s = (.ok answer, next)) :
    (commitIlkChanges s next false
      (if answer.1.created = true ∨ answer.2.isSome then [answer.1.ilkId] else []) none).1 = s := by
  simp only [provisionTemporaryIlk, exec_ok] at h
  obtain ⟨-, -, -, -, -, -, -, -, -, -, ilkType, -, tenantId, -, -, -, -, -, scope, -, -, -, h⟩ := h
  cases hl : s.ichLookup.lookup (canonicalIchKey req.channelType req.address scope) with
  | some existing =>
    rw [hl] at h
    rcases provisionHit_ok h with ⟨rfl, hcreated, hnone⟩ | ⟨ilk, -, hid, hsome, -, rfl⟩
    · simp [commitIlkChanges, hcreated, hnone]
    · simp [commitIlkChanges, hsome, hid]
  | none =>
    rw [hl] at h
    simp only [provisionNew, exec_ok] at h
    obtain ⟨-, -, -, -, rfl, rfl⟩ := h
    simp [commitIlkChanges]

section
variable (hk : s.Kept) (hs : s.Refers ok)
include hk hs

theorem refers_moveChannels {oldId : String} {source canonical : IlkRecord} {expiresAtMs : ℕ}
    (hne : oldId ≠ id) (hsource : s.ilks.lookup oldId = some source)
    (hcan : s.ilks.lookup id = some canonical) :
    (s.moveChannels oldId id source expiresAtMs).Refers ok := by
  refine hs.of_ilks ?_
  intro j r hr
  rw [moveChannels_lookup expiresAtMs (hk.tidy _ _ hsource) hne hcan] at hr
  split_ifs at hr
  · cases hr
    exact .inr (refers_pushMissing (hs _ _ hcan) (hs _ _ hsource).scopes)
  · cases hr
    exact .inr ⟨(hs _ _ hsource).charged, fun c hc => absurd hc not_mem_nil⟩
  · exact .inl hr

theorem refers_merge {oldId : String} {ttl : ℕ} {u : Unit}
    (h : exec (mergeTemporaryIlk oldId id ttl now) s = (.ok u, next)) : next.Refers ok := by
  obtain ⟨hne, source, canonical, expiresAtMs, hsource, -, -, hcan, -, rfl⟩ :=
    mergeTemporaryIlk_ok h
  exact refers_moveChannels hk hs hne hsource hcan

variable {req : IlkRegisterRequest}

theorem refers_registerOwn {answer : RegisterOk} (ht : ok req.tenantId)
    (h : exec (registerOwn req) s = (.ok answer, next)) : next.Refers ok := by
  obtain ⟨-, -, ⟨existing, hl, -, rfl⟩ | ⟨-, rfl⟩⟩ := registerOwn_ok h
  · refine hs.put ⟨ht, ?_⟩ _
    simp only [reregistered, fillChannelScopes_of_tidy (hk.tidy _ _ hl)]
    exact (hs _ _ hl).scopes
  · exact hs.put ⟨ht, fun c hc => absurd hc not_mem_nil⟩ _

theorem refers_register {ttl : ℕ} {answer : RegisterOk} (hstored : ∀ id, s.StoresTenant id → ok id)
    (h : exec (registerIlk req ttl now) s = (.ok answer, next)) : next.Refers ok := by
  simp only [registerIlk, exec_ok] at h
  obtain ⟨⟨⟩, hcheck, h⟩ := h
  have ht : ok req.tenantId := by
    simp only [checkRegistration, bind_ok, orFail_ok] at hcheck
    obtain ⟨-, -, -, -, -, -, tenant, htenant, -⟩ := hcheck
    apply hstored
    rw [StoresTenant, htenant]
    rfl
  cases hemail : identificationStr req.identification "email" with
  | none =>
    rw [hemail] at h
    exact refers_registerOwn hk hs ht h
  | some email =>
    simp only [hemail] at h
    cases hheld : s.ilkHoldingEmail req.tenantId email false with
    | some holder =>
      rw [hheld] at h
      dsimp only at h
      split_ifs at h
      · obtain ⟨-, -, moved, r, hmerge, hr, rfl⟩ := mergeRegistration_ok h
        have hmoved := refers_merge hk hs hmerge
        have hholder := hmoved _ _ hr
        refine hmoved.put ?_ _
        exact ⟨hholder.charged, hholder.scopes⟩
      · exact refers_registerOwn hk hs ht h
    | none =>
      simp only [hheld, exec_ok] at h
      obtain ⟨⟨⟩, -, h⟩ := h
      exact refers_registerOwn hk hs ht h

end

theorem refers_attach (hs : s.Refers ok) {keys : List IchKey}
    {new : List ChannelRecord} (hr : s.ilks.lookup id = some r) (hnew : ∀ c ∈ new, ok c.scope) :
    (s.attach id r keys new).Refers ok := hs.put (refers_pushMissing (hs _ _ hr) hnew) _

theorem refers_addChannel (hk : s.Kept) (hs : s.Refers ok) (hroot : ok installationScope)
    {req : IlkAddChannelRequest} {ttl : ℕ} {answer : AddChannelOk}
    (h : exec (addChannel req caller ttl cloudRelay now) s = (.ok answer, next)) :
    next.Refers ok := by
  simp only [addChannel, exec_ok] at h
  obtain ⟨-, -, -, -, owner, -, target, htarget, scope, hscope, -, -, ⟨⟩, -, -, -, -, -, h⟩ := h
  have hin := refers_resolved (hs _ _ htarget).charged hroot hscope
  have htidy := hk.tidy _ _ htarget
  have htnt := resolveChannelScope_isTenantId htidy.tenant hscope
  generalize hc : mk req.channel.ichId req.channel.channelType req.channel.address
    owner false scope = c at h
  have hnew : ∀ d ∈ [c], ok d.scope := by
    intro d hd
    rw [mem_singleton.mp hd, ← hc]
    exact hin
  generalize [canonicalIchKey req.channel.channelType req.channel.address scope] = keys at h
  have hattached : (s.attach req.ilkId target keys [c]).Refers ok := refers_attach hs htarget hnew
  cases hm : req.mergeFromIlkId with
  | none =>
    rw [hm] at h
    simp only [exec_pure_ok] at h
    obtain ⟨-, rfl⟩ := h
    exact hattached
  | some oldId =>
    rw [hm] at h
    obtain ⟨⟨⟩, moved, hmerge, h⟩ := exec_bind_ok.mp h
    simp only [exec_pure_ok] at h
    obtain ⟨-, rfl⟩ := h
    -- The attached record is tidy, since the new channel's scope is a tenant id.
    have hnewTidy : ∀ d ∈ [c], IsTenantId d.scope := by
      intro d hd
      rw [mem_singleton.mp hd, ← hc]
      exact htnt
    have hids := @refers_pushMissing IsTenantId target [c] ⟨htidy.tenant, htidy.scopes⟩ hnewTidy
    have hkept : (s.attach req.ilkId target keys [c]).Kept :=
      Kept.put_ilk hk { target with channels := pushMissing target.channels [c] }
        (hk.named _ target htarget) ⟨hids.charged, hids.scopes⟩ _
    exact refers_merge hkept hattached hmerge

theorem refers_updateIlk (hs : s.Refers ok) {req : IlkUpdateRequest} {answer : UpdateIlkOk}
    (h : exec (updateIlk req) s = (.ok answer, next)) : next.Refers ok := by
  simp only [updateIlk, exec_ok, filter_eq_some_iff] at h
  obtain ⟨-, -, entry, ⟨hentry, -⟩, -, -, -, rfl⟩ := h
  refine refers_attach hs hentry ?_
  intro c hc
  obtain ⟨ch, -, rfl⟩ := List.mem_map.mp hc
  exact (hs _ _ hentry).charged

theorem refers_setIlkDefinition (hs : s.Refers ok) {ilkId : String} {definition answer : Json}
    (h : exec (setIlkDefinition ilkId definition) s = (.ok answer, next)) : next.Refers ok := by
  simp only [setIlkDefinition, exec_ok] at h
  obtain ⟨-, -, entry, hentry, -, -, -, -, -, -, -, rfl⟩ := h
  have hold := hs _ _ hentry
  refine hs.put ?_ _
  exact ⟨hold.charged, hold.scopes⟩

theorem refers_setIlkTenant (hk : s.Kept) (hs : s.Refers ok) {ilkId changedBy : String}
    {answer : SetTenantOk × Option TenantChange} (hstored : ∀ id, s.StoresTenant id → ok id)
    (h : exec (setIlkTenant ilkId tenantId changedBy) s = (.ok answer, next)) : next.Refers ok := by
  simp only [setIlkTenant, exec_ok, filter_eq_some_iff] at h
  obtain ⟨-, -, -, -, -, -, tenant, htenant, -, -, -, -, ilk, ⟨hilk, -⟩, -, -, h⟩ := h
  split_ifs at h
  · simp only [exec_pure_ok] at h
    obtain ⟨-, rfl⟩ := h
    exact hs
  · simp only [exec_ok] at h
    obtain ⟨-, -, -, -, -, rfl⟩ := h
    have ht : ok (trim tenantId) := by
      apply hstored
      rw [StoresTenant, htenant]
      rfl
    exact hs.put (refers_charged (hs _ _ hilk) (hk.tidy _ _ hilk) ht) _

section
variable (hs : s.Refers ok)
include hs

theorem refers_setIchEnabled {ichId : String} {enabled : Bool} {answer : SetEnabledOk}
    (h : exec (setIchEnabled ichId enabled) s = (.ok answer, next)) : next.Refers ok := by
  simp only [setIchEnabled, exec_ok] at h
  obtain ⟨-, -, ⟨ilkId, ilk, c⟩, hfound, -, rfl⟩ := h
  have hold := hs _ _ (findIch_some hfound)
  refine hs.put ?_ _
  refine ⟨hold.charged, ?_⟩
  intro d hd
  -- Only the switch of a channel changed, so its place is one the record had before.
  have hplace := List.mem_map_of_mem (f := place) hd
  rw [setEnabledIn_places] at hplace
  obtain ⟨e, he, heq⟩ := List.mem_map.mp hplace
  have hscope : e.scope = d.scope := congrArg (·.2.2.2) heq
  rw [← hscope]
  exact hold.scopes e he

variable {answer : LifecycleOk × LifecycleChanges} {req : IlkDeleteRequest}

theorem refers_deleteIlk (h : exec (deleteIlk req now) s = (.ok answer, next)) :
    next.Refers ok := by
  obtain ⟨⟨entry, hentry⟩, rfl, -⟩ := deleteIlk_ran h
  have hold := hs _ _ (checkIlkMarkable_ok hentry).1
  unfold markIlkUnchecked
  rw [(checkIlkMarkable_ok hentry).1]
  dsimp only
  split_ifs
  · exact hs
  · refine hs.put ?_ _
    exact ⟨hold.charged, hold.scopes⟩

theorem refers_restoreIlk (hroot : ok installationScope)
    (h : exec (restoreIlk req) s = (.ok answer, next)) : next.Refers ok := by
  obtain ⟨entry, hentry, -, -, rfl, -⟩ := restoreIlk_ran h
  obtain ⟨-, -, hother, r', hr', hres⟩ := unmarkIlkUnchecked_rescopes hentry
  have hold := hs _ _ hentry
  refine hs.of_ilks ?_
  intro j r hr
  by_cases hj : j = req.ilkId
  · rw [hj, hr'] at hr
    cases hr
    right
    constructor
    · rw [hres.record]
      exact hold.charged
    · intro c hc
      rcases hres.scopes c hc with hinst | hin
      · rw [hinst]
        exact hroot
      · exact hold.scopes c hin
  · rw [hother j hj] at hr
    exact .inl hr

theorem refers_purgeIlk (h : exec (purgeIlk req) s = (.ok answer, next)) : next.Refers ok := by
  obtain ⟨-, rfl, -⟩ := purgeIlk_ran h
  refine hs.of_ilks ?_
  intro j r hr
  rw [removeIlkPhysically_lookup] at hr
  split_ifs at hr
  exact .inl hr

theorem refers_gc : (s.gcExpiredAliases now).Refers ok := by
  intro j r hr
  rw [gcExpiredAliases_lookup] at hr
  split_ifs at hr
  · obtain ⟨r₀, hr₀, rfl⟩ := map_eq_some_iff.mp hr
    unfold markExpired
    split_ifs
    · exact ⟨(hs _ _ hr₀).charged, (hs _ _ hr₀).scopes⟩
    · exact hs _ _ hr₀
  · exact hs _ _ hr

end

theorem refers_purgedStore (hk : s.Kept) (hs : s.Refers ok) (tenantId : String) :
    (purgedStore s tenantId).Refers fun id => ok id ∧ id ≠ tenantId := by
  intro j r hr
  rw [purgedStore_lookup hk] at hr
  split_ifs at hr with hj
  obtain ⟨r₀, hr₀, rfl⟩ := map_eq_some_iff.mp hr
  have hold := hs _ _ hr₀
  constructor
  · refine ⟨hold.charged, ?_⟩
    intro hcharged
    exact hj ((mem_tenantIlks hk).mpr ⟨r₀, hr₀, hcharged⟩)
  · intro c hc
    obtain ⟨hin, hout⟩ := mem_filter.mp hc
    rw [channelScope_of_isTenantId ((hk.tidy _ _ hr₀).scopes c hin)] at hout
    exact ⟨hold.scopes c hin, by simpa using hout⟩

end

/-! ### Requests -/

section
variable {α : Type} {op : Op α}

theorem refers_commit (hs : s.Refers ok) (hnext : next.Refers ok) (persisted : Bool)
    (ilkIds : List String) (aliasLeft : Option AliasSnapshotRecord) :
    (commitIlkChanges s next persisted ilkIds aliasLeft).1.Refers ok := by
  unfold commitIlkChanges
  dsimp only
  split_ifs
  · exact hnext
  · exact hnext
  · exact hs

theorem refers_runOp {commit : IdentityStore → α → Outcome} (href : Refuses op s) (hs : s.Refers ok)
    (hok : ∀ a next, exec op s = (.ok a, next) → (commit next a).1.Refers ok) :
    (runOp s op commit).1.Refers ok := by
  refine runOp_rule (P := fun out => out.1.Refers ok) (fun err next hx => ?_) hok
  rw [href err next hx]
  exact hs

theorem refers_runLifecycleOp {op : Op (LifecycleOk × LifecycleChanges)} {persisted : Bool}
    (hs : s.Refers ok) (hok : ∀ a next, exec op s = (.ok a, next) → next.Refers ok) :
    (runLifecycleOp s persisted op).1.Refers ok :=
  runLifecycleOp_rule (P := fun out => out.1.Refers ok) hs fun r changes => hok (r, changes)

/-- A tenant's request emits no delta of an ILK. -/
theorem refers_commitTenant {persisted : Bool} {tenantId : α → String} (hk : s.Kept)
    (hs : s.Refers ok) (e : Event) (href : Refuses op s)
    (hturn : ∀ a next, exec op s = (.ok a, next) →
      TurnsTo s e.now e.request (commitTenant s next persisted (tenantId a))) :
    (runOp s op fun next a => commitTenant s next persisted (tenantId a)).1.Refers ok := by
  refine refers_runOp href hs ?_
  intro a next hx id r hr
  rw [((hturn a next hx).announces hk).ilks] at hr
  · exact hs id r hr
  · intro d hd hid
    unfold commitTenant at hd
    split at hd
    · cases hd
    · split_ifs at hd
      · rw [mem_singleton.mp hd] at hid
        exact hid
      · cases hd

/-- A provision that the database takes names a stored tenant, or none; the foreign key of the
ILKs' rows demands it. -/
def ProvisionsStored (s : IdentityStore) (e : Event) : Prop :=
  e.persisted = true → ∀ req caller newIlk, e.request = .provision req caller newIlk →
    ∀ t ∈ req.tenantId, s.StoresTenant t

theorem setTenantMark_ilks (s : IdentityStore) (tenantId : String) (mark : Option ℕ) :
    (s.setTenantMark tenantId mark).1.ilks = s.ilks := by
  unfold setTenantMark
  split <;> rfl

variable {a : LifecycleOk × LifecycleChanges}

theorem deleteTenant_ilks (h : exec (deleteTenant tenantId now) s = (.ok a, next)) :
    next.ilks = s.ilks := by
  obtain ⟨rfl, -⟩ | ⟨-, -, -, rfl, -⟩ := deleteTenant_ran h
  · rfl
  · exact setTenantMark_ilks _ _ _

theorem restoreTenant_ilks (h : exec (restoreTenant tenantId) s = (.ok a, next)) :
    next.ilks = s.ilks := by
  obtain ⟨-, -, -, rfl, -⟩ := restoreTenant_ran h
  exact setTenantMark_ilks _ _ _

theorem purgeTenant_next (h : exec (purgeTenant tenantId) s = (.ok a, next)) :
    tenantId ≠ defaultRootTenantId ∧ next = purgedStore s tenantId := by
  simp only [purgeTenant, exec_ok, exec_pure, Prod.mk.injEq] at h
  obtain ⟨tenant, htenant, -, -, -, -, -, -, -, -, -, -, -, rfl⟩ := h
  simp only [tenantRecordForLifecycle, bind_ok, ensure_ok] at htenant
  obtain ⟨-, -, -, -, -, hroot, -⟩ := htenant
  exact ⟨hroot, rfl⟩

theorem handle_purgeTenant (cfg : Config) {e : Event} (hq : e.request = .purgeTenant tenantId) :
    (handle cfg s e).1 = s ∨ (tenantId ≠ defaultRootTenantId ∧
      (handle cfg s e).1 = purgedStore s tenantId) := by
  unfold handle runLifecycleOp
  rw [hq]
  dsimp only
  cases hx : exec (IdentityStore.purgeTenant tenantId) s with
  | mk r next =>
    cases r with
    | error err => exact .inl rfl
    | ok a =>
      obtain ⟨hroot, rfl⟩ := purgeTenant_next hx
      split_ifs
      · exact .inr ⟨hroot, rfl⟩
      · exact .inl rfl

theorem refers_handle (hk : s.Kept) (hs : s.Refers s.StoresTenant)
    (hroot : s.StoresTenant defaultRootTenantId) (cfg : Config) (e : Event)
    (hprov : ProvisionsStored s e) (hq : ∀ tenantId, e.request ≠ .purgeTenant tenantId) :
    (handle cfg s e).1.Refers s.StoresTenant := by
  unfold handle
  cases hreq : e.request with
  | provision req caller newIlk =>
    refine refers_runOp provisionTemporaryIlk_refuses hs ?_
    intro a next hx
    cases hp : e.persisted with
    | true =>
      have htenant := hprov hp req caller newIlk hreq
      exact refers_commit hs (refers_provision hk hs hroot htenant hx) _ _ _
    | false =>
      rw [provision_unpersisted hx]
      exact hs
  | register req =>
    exact refers_runOp (registerIlk_refuses hk) hs fun a next hx =>
      refers_commit hs (refers_register hk hs (fun _ h => h) hx) _ _ _
  | addChannel req caller =>
    exact refers_runOp addChannel_refuses hs fun a next hx =>
      refers_commit hs (refers_addChannel hk hs hroot hx) _ _ _
  | updateIlk req =>
    exact refers_runOp updateIlk_refuses hs fun a next hx =>
      refers_commit hs (refers_updateIlk hs hx) _ _ _
  | setDefinition ilkId definition =>
    exact refers_runOp setIlkDefinition_refuses hs fun a next hx =>
      refers_commit hs (refers_setIlkDefinition hs hx) _ _ _
  | setTenant ilkId tenantId onBehalfOf caller =>
    exact refers_runOp setIlkTenant_refuses hs fun a next hx =>
      refers_commit hs (refers_setIlkTenant hk hs (fun _ h => h) hx) _ _ _
  | setEnabled ichId enabled =>
    exact refers_runOp setIchEnabled_refuses hs fun a next hx =>
      refers_commit hs (refers_setIchEnabled hs hx) _ _ _
  | deleteIlk req => exact refers_runLifecycleOp hs fun a next => refers_deleteIlk hs
  | restoreIlk req => exact refers_runLifecycleOp hs fun a next => refers_restoreIlk hs hroot
  | purgeIlk req => exact refers_runLifecycleOp hs fun a next => refers_purgeIlk hs
  | createTenant req newTenant =>
    exact refers_commitTenant hk hs e createTenant_refuses fun a next => createTenant_turn hk
  | updateTenant req | setSponsor tenantId sponsor =>
    exact refers_commitTenant hk hs e updateTenant_refuses fun a next => updateTenant_turn hk
  | approveTenant tenantId approvedBy =>
    exact refers_commitTenant hk hs e approveTenant_refuses fun a next => approveTenant_turn hk
  | deleteTenant tenantId =>
    refine refers_runLifecycleOp hs ?_
    intro a next hx
    unfold IdentityStore.Refers
    rw [deleteTenant_ilks hx]
    exact hs
  | restoreTenant tenantId =>
    refine refers_runLifecycleOp hs ?_
    intro a next hx
    unfold IdentityStore.Refers
    rw [restoreTenant_ilks hx]
    exact hs
  | purgeTenant tenantId => exact absurd hreq (hq tenantId)
  | aliasGc =>
    unfold runAliasGc
    split_ifs
    · exact refers_gc hs
    · exact hs

theorem Turn.storesTenant (h : Turn s now q s' deltas) (hq : ∀ tenantId, q ≠ .purgeTenant tenantId)
    (hid : s.StoresTenant id) : s'.StoresTenant id := by
  cases h with
  | same | tenantKept | retouch | provision | registerNew | mark | purgeIlk | gc => exact hid
  | tenantPut t =>
    unfold StoresTenant
    rw [lookup_insert_eq]
    split_ifs
    · rfl
    · exact hid
  | attach h | merge h =>
    rw [StoresTenant, h.tenants]
    exact hid
  | restore stored =>
    rw [StoresTenant, (unmarkIlkUnchecked_rescopes stored).tenants]
    exact hid
  | @purgeTenant tenantId => exact absurd rfl (hq tenantId)

/-- The root tenant is stored, and so is every tenant that a stored ILK or channel refers to. -/
structure IdentityStore.Closed (s : IdentityStore) : Prop where
  kept : s.Kept
  root : s.StoresTenant defaultRootTenantId
  refers : s.Refers s.StoresTenant

theorem IdentityStore.Closed.handle (h : s.Closed) (cfg : Config) (e : Event)
    (hprov : ProvisionsStored s e) : (handle cfg s e).1.Closed := by
  have hturn := handle_turn h.kept cfg e
  have hkept := hturn.kept h.kept
  by_cases hq : ∃ tenantId, e.request = .purgeTenant tenantId
  · obtain ⟨tenantId, hq⟩ := hq
    rcases handle_purgeTenant cfg hq with hsame | ⟨hroot, hpurged⟩
    · rw [hsame]
      exact h
    · rw [hpurged] at hkept ⊢
      have hstill : ∀ id, s.StoresTenant id ∧ id ≠ tenantId →
          (purgedStore s tenantId).StoresTenant id := by
        rintro id ⟨hid, hne⟩
        rw [StoresTenant, purgedStore_tenants, lookup_erase_eq, if_neg hne]
        exact hid
      refine ⟨hkept, hstill _ ⟨h.root, hroot.symm⟩, ?_⟩
      intro id r hr
      exact (refers_purgedStore h.kept h.refers tenantId id r hr).mono hstill
  · have hother : ∀ tenantId, e.request ≠ .purgeTenant tenantId :=
      fun tenantId heq => hq ⟨tenantId, heq⟩
    have hgrow : ∀ id, s.StoresTenant id → (Identity.handle cfg s e).1.StoresTenant id :=
      fun id => hturn.storesTenant hother
    refine ⟨hkept, hgrow _ h.root, ?_⟩
    intro id r hr
    exact (refers_handle h.kept h.refers h.root cfg e hprov hother id r hr).mono hgrow

end

/-! ### Frames -/

section
variable {systemIlkId : String → String} {primaryHive : String} {ilk : IlkRecord}
  {c : ChannelRecord}

theorem fillScope_scope (h : IsTenantId (c.fillScope tenantId).scope) :
    (c.fillScope tenantId).scope = channelScope c tenantId := by
  unfold fillScope channelScope at *
  by_cases hblank : trim c.scope = ""
  · simp only [hblank, if_true]
  · simp only [hblank, if_false] at h ⊢
    exact h.trim_eq.symm

theorem acceptable_scope (hk : s.Kept) (hs : s.Refers ok) (ht : ok ilk.tenantId)
    (hscope : IsTenantId (c.fillScope ilk.tenantId).scope) (htenant : IsTenantId ilk.tenantId)
    (h : replicaChannelAcceptable ilk (s.ilks.lookup ilk.ilkId) c = true) :
    ok (c.fillScope ilk.tenantId).scope := by
  simp only [replicaChannelAcceptable, or_eq_true, and_eq_true, beq_iff_eq] at h
  rcases h with hknown | ⟨⟨hown, -⟩, -⟩
  · cases hl : s.ilks.lookup ilk.ilkId with
    | none =>
      rw [hl] at hknown
      cases hknown
    | some existing =>
      rw [hl] at hknown
      simp only [map_some, getD_some, List.any_eq_true, and_eq_true, beq_iff_eq] at hknown
      obtain ⟨held, hheld, -, hkey⟩ := hknown
      -- Equal keys have equal scopes, both being canonical.
      have hheldScope := (hk.tidy _ _ hl).scopes held hheld
      rw [← fillScope_key htenant c] at hkey
      have hsame := congrArg (·.2.2) hkey
      simp only [channelKey_scope hheldScope, channelKey_scope hscope] at hsame
      rw [← hsame]
      exact (hs _ _ hl).scopes held hheld
  · rw [fillScope_scope hscope, hown]
    exact ht

theorem acceptable_refers (hk : s.Kept) (hs : s.Refers ok) (ht : ok ilk.tenantId)
    (h : replicaPushAcceptable ilk s = true) : (fillChannelScopes ilk).Refers ok := by
  obtain ⟨htenant, htidy, -, -⟩ := replicaPushAcceptable_pushable h
  simp only [replicaPushAcceptable, and_eq_true, List.all_eq_true] at h
  obtain ⟨⟨-, hchannels⟩, -⟩ := h
  refine ⟨ht, ?_⟩
  intro c hc
  have hscope := htidy.scopes c hc
  obtain ⟨d, hd, rfl⟩ := List.mem_map.mp hc
  exact acceptable_scope hk hs ht hscope htenant (hchannels d hd)

section
variable (hs : s.Refers ok)
include hs

theorem refers_upsert (h : (fillChannelScopes ilk).Refers ok) :
    (s.applyDelta (.ilkUpsert ilk)).Refers ok := hs.put h _

theorem refers_delete (id : String) : (s.applyDelta (.ilkDelete id)).Refers ok := by
  cases hwk : wellKnown s id with
  | true => rwa [applyDelta_delete_of_wellKnown hwk]
  | false =>
    refine hs.of_ilks ?_
    intro j r hr
    rw [applyDelta_delete_lookup hwk] at hr
    split_ifs at hr
    exact .inl hr

theorem refers_deletes (ids : List String) : (s.applyDeltas (ids.map .ilkDelete)).Refers ok := by
  induction ids generalizing s with
  | nil => exact hs
  | cons id rest ih => exact ih (refers_delete hs id)

theorem refers_reconcileUpserts {hiveId : String} {records : List IlkRecord}
    (h : ∀ r ∈ records, (fillChannelScopes r).Refers ok) :
    (reconcileUpserts hiveId records s).1.Refers ok := by
  induction records generalizing s with
  | nil => exact hs
  | cons r rest ih =>
    have hrest : ∀ r ∈ rest, (fillChannelScopes r).Refers ok :=
      fun r hr => h r (mem_cons_of_mem _ hr)
    unfold IdentityStore.reconcileUpserts
    dsimp only
    split_ifs
    · exact ih hs hrest
    · exact ih (refers_upsert hs (h r mem_cons_self)) hrest

end

/-- Every ILK that the primary takes from the frame is charged to a stored tenant. -/
def PushesStored (s : IdentityStore) : IngestFrame → Prop
  | .delta _ delta => ∀ ilk, delta = .ilkUpsert ilk → replicaPushAcceptable ilk s = true →
      s.StoresTenant ilk.tenantId
  | .snapshot _ ilks => ∀ ilk ∈ s.acceptedPush ilks, s.StoresTenant ilk.tenantId

theorem refers_ingest (hk : s.Kept) (hs : s.Refers s.StoresTenant) {frame : IngestFrame}
    (h : PushesStored s frame) :
    (ingest systemIlkId primaryHive s frame).1.Refers s.StoresTenant := by
  cases frame with
  | delta publisher delta =>
    unfold ingest
    dsimp only
    split_ifs with hself hauth
    · exact hs
    · cases delta with
      | ilkUpsert ilk =>
        simp only [deltaAuthorizedForHive, and_eq_true] at hauth
        have hpush := hauth.1.2
        exact refers_upsert hs (acceptable_refers hk hs (h ilk rfl hpush) hpush)
      | ilkDelete id => exact refers_delete hs id
      | aliasUpsert | aliasDelete | tenantUpsert | tenantDelete => exact hs
    · exact hs
  | snapshot publisher ilks =>
    unfold ingest
    dsimp only
    split_ifs with hself hauth
    · exact hs
    · refine refers_deletes (refers_reconcileUpserts hs ?_) _
      intro r hr
      exact acceptable_refers hk hs (h r hr) (mem_filter.mp hr).2
    · exact hs

theorem IdentityStore.Closed.ingest (h : s.Closed) {frame : IngestFrame}
    (hframe : PushesStored s frame) : (ingest systemIlkId primaryHive s frame).1.Closed := by
  obtain ⟨hiso, hkept, -⟩ := ingest_isolates systemIlkId primaryHive h.kept
    (rfl : frame.publisherHive = frame.publisherHive)
  have hsame : ∀ id, s.StoresTenant id →
      (Identity.ingest systemIlkId primaryHive s frame).1.StoresTenant id := by
    intro id hid
    rw [StoresTenant, hiso.tenants]
    exact hid
  refine ⟨hkept, hsame _ h.root, ?_⟩
  intro id r hr
  exact (refers_ingest h.kept h.refers hframe id r hr).mono hsame

end

/-! ### Runs -/

section
variable {cfg : Config} {systemIlkId : String → String} {primaryHive : String}

theorem IdentityStore.Closed.reorder {t : IdentityStore} (h : s.Closed) (hre : Reorders s t) :
    t.Closed := by
  have hstored : ∀ id, t.StoresTenant id ↔ s.StoresTenant id := by
    intro id
    rw [StoresTenant, StoresTenant, hre.lookup_tenants]
  refine ⟨h.kept.reorder hre, (hstored _).mpr h.root, ?_⟩
  intro id r hr
  rw [hre.lookup_ilks] at hr
  exact (h.refers id r hr).mono fun id => (hstored id).mpr

theorem closed_withDefaultTenant : IdentityStore.withDefaultTenant.Closed := by
  refine ⟨kept_withDefaultTenant, by decide +kernel, ?_⟩
  intro id r hr
  cases hr

theorem ReachesFrom.closed
    (h : ReachesFrom (Serves cfg systemIlkId primaryHive ProvisionsStored PushesStored)
      .withDefaultTenant s) : s.Closed := by
  refine h.invariant closed_withDefaultTenant (fun _ _ hre hs => hs.reorder hre) ?_
  intro s s' hs hstep
  cases hstep with
  | request e hok => exact hs.handle cfg e hok
  | frame f hok => exact hs.ingest hok

/-- In every run in which provisions and pushes name stored tenants, the tenant each ILK is charged
to and the tenant each channel is scoped to is stored. -/
theorem tenant_references_stored
    (h : ReachesFrom (Serves cfg systemIlkId primaryHive ProvisionsStored PushesStored)
      .withDefaultTenant s) {id : String} {r : IlkRecord} (hr : s.ilks.lookup id = some r) :
    (s.tenants.lookup r.tenantId).isSome ∧
      ∀ c ∈ r.channels, (s.tenants.lookup (channelScope c r.tenantId)).isSome := by
  have hc := h.closed
  refine ⟨(hc.refers id r hr).charged, ?_⟩
  intro c hin
  rw [channelScope_of_isTenantId ((hc.kept.tidy id r hr).scopes c hin)]
  exact (hc.refers id r hr).scopes c hin

end

end

namespace Strays

def tenantId : String := "tnt:00000000-0000-0000-0000-000000000002"

def node (tenantId : String) : IlkRecord :=
  { ilkId := "ilk:11111111-1111-1111-1111-111111111111", ilkType := "agent",
    registrationStatus := "complete", tenantId,
    identification := .obj [("node_name", .str "AI.a@worker")], definition := .obj [],
    channels := [], deletedAtMs := none, deletedReason := none }

def frame (tenantId : String) : IngestFrame := .snapshot "worker" [node tenantId]

end Strays

open Strays

/-- The primary takes in a node of a tenant it does not store. -/
theorem pushed_ilk_without_tenant :
    ∃ s, ReachesFrom (Serves hourConfig id "motherbee" (fun _ _ => True) fun _ _ => True)
        .withDefaultTenant s ∧
      s.ilks.lookup (Strays.node Strays.tenantId).ilkId = some (Strays.node Strays.tenantId) ∧
      s.tenants.lookup Strays.tenantId = none := by
  refine ⟨(ingest id "motherbee" .withDefaultTenant (frame tenantId)).1,
    ReachesFrom.start.step (.refl _) (.frame _ trivial), ?_⟩
  decide +kernel

/-- A node pushed into the root tenant refers to a stored tenant. -/
theorem pushed_ilk_of_root_tenant :
    ∃ s, ReachesFrom (Serves hourConfig id "motherbee" ProvisionsStored PushesStored)
        .withDefaultTenant s ∧
      s.ilks.lookup (Strays.node defaultRootTenantId).ilkId =
        some (Strays.node defaultRootTenantId) ∧
      (s.tenants.lookup defaultRootTenantId).isSome := by
  have hstored : PushesStored .withDefaultTenant (frame defaultRootTenantId) := by
    intro ilk hilk
    have heq := mem_singleton.mp (mem_filter.mp hilk).1
    rw [heq]
    exact closed_withDefaultTenant.root
  have hreach : ReachesFrom (Serves hourConfig id "motherbee" ProvisionsStored PushesStored)
      .withDefaultTenant
      (ingest id "motherbee" .withDefaultTenant (frame defaultRootTenantId)).1 :=
    ReachesFrom.start.step (.refl _) (.frame _ hstored)
  have hrun : (ingest id "motherbee" .withDefaultTenant
      (frame defaultRootTenantId)).1.ilks.lookup (node defaultRootTenantId).ilkId =
        some (node defaultRootTenantId) := by decide +kernel
  exact ⟨_, hreach, hrun, (tenant_references_stored hreach hrun).1⟩

end Fluxbee.Identity
