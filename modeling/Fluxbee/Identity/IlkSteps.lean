import Fluxbee.Identity.Turn

/-! The requests on an ILK, its channels and its tenant as turns of the store: what an operation
that ran did, and that one refused did nothing. -/
namespace Fluxbee.Identity
open Text Fallible IdentityStore List AList

variable {s : IdentityStore} {now : ℕ} {q : Request} {persisted : Bool} {next : IdentityStore}
  {ilkId tenantId cloudRelay oldId id : String} {caller : Option String} {req : IlkRegisterRequest}
  {ok : RegisterOk} {source : IlkRecord} {u : Unit} {ttl : ℕ}

abbrev TurnsTo (s : IdentityStore) (now : ℕ) (q : Request) (out : Outcome) : Prop :=
  Turn s now q out.1 out.2

theorem turn_runOp {α : Type} {op : Op α} {commit : IdentityStore → α → Outcome}
    (href : Refuses op s)
    (hok : ∀ a next, exec op s = (.ok a, next) → TurnsTo s now q (commit next a)) :
    TurnsTo s now q (runOp s op commit) := by
  refine runOp_rule (P := TurnsTo s now q) (fun e next hx => ?_) hok
  rw [href e next hx]
  exact .same

theorem turn_runLifecycleOp {op : Op (LifecycleOk × LifecycleChanges)}
    (hok : ∀ r changes next, exec op s = (.ok (r, changes), next) →
      Turn s now q next changes.deltas) :
    TurnsTo s now q (runLifecycleOp s persisted op) :=
  runLifecycleOp_rule (P := TurnsTo s now q) .same hok

theorem turn_commit {ilkIds : List String}
    {aliasLeft : Option AliasSnapshotRecord} {rs : List IlkRecord}
    (hrs : ilkIds.filterMap next.ilks.lookup = rs) (hne : rs ≠ [])
    (h : Turn s now q next (rs.map .ilkUpsert ++ aliasLeft.toList.map .aliasUpsert)) :
    TurnsTo s now q (commitIlkChanges s next persisted ilkIds aliasLeft) := by
  simp only [commitIlkChanges, hrs, if_neg hne]
  cases persisted with
  | false => exact .same
  | true => exact h

theorem turn_commit_one {r : IlkRecord} (hr : next.ilks.lookup ilkId = some r)
    (h : Turn s now q next [.ilkUpsert r]) :
    TurnsTo s now q (commitIlkChanges s next persisted [ilkId] none) :=
  @turn_commit _ _ _ persisted next [ilkId] none [r] (by simp [hr]) (by simp) (by simpa using h)

theorem turn_commit_none : TurnsTo s now q (commitIlkChanges s s persisted [] none) := by
  simpa [commitIlkChanges] using Turn.same

theorem retouched_tenant {ilk : IlkRecord} (h : ilk.Tidy)
    (ht : IsTenantId tenantId) : Retouched ilk { fillChannelScopes ilk with tenantId } := by
  rw [fillChannelScopes_of_tidy h]
  exact ⟨rfl, rfl, ht, rfl⟩

theorem provisionHit_ok {existing ilkType : String} {accountKey : Bool}
    {r : ProvisionOk × Option TenantChange} {s' : IdentityStore}
    (h : exec (provisionHit existing ilkType tenantId accountKey caller cloudRelay) s =
      (.ok r, s')) :
    (s' = s ∧ r.1.created = false ∧ r.2 = none) ∨
      ∃ ilk, s.ilks.lookup existing = some ilk ∧ r.1.ilkId = existing ∧ r.2.isSome ∧
        ilk.registrationStatus = "temporary" ∧
        s' = { s with ilks := s.ilks.insert existing { fillChannelScopes ilk with tenantId } } := by
  simp only [provisionHit, exec_get_bind] at h
  cases hl : s.ilks.lookup existing with
  | none =>
    rw [hl] at h
    simp only [exec_pure_ok] at h
    exact .inl ⟨h.2.symm, by rw [← h.1], by rw [← h.1]⟩
  | some ilk =>
    rw [hl] at h
    simp only [exec_lift_bind_ok] at h
    obtain ⟨-, -, h⟩ := h
    split_ifs at h with htake
    · simp only [exec_ok] at h
      exact .inr ⟨ilk, rfl, by rw [← h.1], by rw [← h.1]; rfl, htake.2.2.2.1, h.2.symm⟩
    · simp only [exec_pure_ok] at h
      exact .inl ⟨h.2.symm, by rw [← h.1], by rw [← h.1]⟩

theorem provision_turn (hk : s.Kept) {req : IlkProvisionRequest}
    {newIlk : Uuid} {ok : ProvisionOk × Option TenantChange}
    (h : exec (provisionTemporaryIlk req caller cloudRelay newIlk) s = (.ok ok, next)) :
    let ids := if ok.1.created = true ∨ ok.2.isSome then [ok.1.ilkId] else []
    TurnsTo s now (.provision req caller newIlk) (commitIlkChanges s next persisted ids none) := by
  simp only [provisionTemporaryIlk, exec_ok] at h
  obtain ⟨ichUuid, hich, -, -, -, -, -, -, -, -, ilkType, -, tenantId, -, tntUuid, htnt, -, -,
    scope, hscope, -, -, h⟩ := h
  have ht : IsTenantId tenantId := isCanonicalId_of_ok htnt
  cases hl : s.ichLookup.lookup (canonicalIchKey req.channelType req.address scope) with
  | some existing =>
    rw [hl] at h
    rcases provisionHit_ok h with ⟨rfl, hc, hn⟩ | ⟨ilk, hilk, hid, hsome, htmp, rfl⟩
    · simpa [hc, hn] using turn_commit_none
    · simp only [hsome, or_true, if_true, hid]
      exact turn_commit_one (lookup_insert _)
        (.retouch hilk (retouched_tenant (hk.tidy _ _ hilk) ht) (.signup htmp rfl rfl))
  | none =>
    rw [hl] at h
    simp only [provisionNew, exec_ok] at h
    obtain ⟨-, hdel, ⟨⟩, hfree, rfl, rfl⟩ := h
    simp only [true_or, if_true]
    exact turn_commit_one (lookup_insert _) (.provision (isCanonicalId_of_ok hich) ht
      (resolveChannelScope_isTenantId ht hscope) hl hdel hfree)

def registered (req : IlkRegisterRequest) (ilkId : String) : IlkRecord :=
  { ilkId, ilkType := req.ilkType, registrationStatus := "complete", tenantId := req.tenantId,
    identification := req.identification, definition := .obj [], channels := [],
    deletedAtMs := none, deletedReason := none }

def reregistered (req : IlkRegisterRequest) (existing : IlkRecord) : IlkRecord :=
  { fillChannelScopes existing with
    ilkType := req.ilkType, tenantId := req.tenantId, registrationStatus := "complete",
    identification := req.identification }

/-- The ILK a registration lands on: the active one with its node name, or the one it names. -/
def landing (s : IdentityStore) (req : IlkRegisterRequest) : String :=
  ((identificationStr req.identification "node_name").bind
    (s.findActiveIlkByIdentificationKey "node_name")).getD req.ilkId

theorem registerOwn_ok (h : exec (registerOwn req) s = (.ok ok, next)) :
    ok.mergedFromIlkId = none ∧ ok.ilkId = landing s req ∧
      ((∃ existing, s.ilks.lookup (landing s req) = some existing ∧ existing.deletedAtMs = none ∧
          next = { s with
            ilks := s.ilks.insert (landing s req) (reregistered req existing) }) ∨
        (s.ilks.lookup (landing s req) = none ∧
          next = { s with
            ilks := s.ilks.insert (landing s req) (registered req (landing s req)) })) := by
  simp only [registerOwn, exec_get_bind] at h
  unfold landing
  generalize ((identificationStr req.identification "node_name").bind
    (s.findActiveIlkByIdentificationKey "node_name")).getD req.ilkId = id at h ⊢
  cases hl : s.ilks.lookup id with
  | some existing =>
    rw [hl] at h
    simp only [exec_ok] at h
    obtain ⟨⟨⟩, hact, -, -, -, -, rfl, rfl⟩ := h
    exact ⟨rfl, rfl, .inl ⟨existing, rfl, hact, rfl⟩⟩
  | none =>
    rw [hl] at h
    simp only [exec_ok] at h
    obtain ⟨rfl, rfl⟩ := h
    exact ⟨rfl, rfl, .inr ⟨rfl, rfl⟩⟩

theorem registerOwn_turn (hk : s.Kept) (ht : IsTenantId req.tenantId)
    (hlands : LandsOn s req (landing s req)) (h : exec (registerOwn req) s = (.ok ok, next)) :
    TurnsTo s now (.register req) (commitIlkChanges s next persisted
      (ok.ilkId :: ok.mergedFromIlkId.toList) (ok.mergedFromIlkId.bind next.aliasSnapshot)) := by
  obtain ⟨hmerged, hid, hnext⟩ := registerOwn_ok h
  rw [hmerged, hid]
  generalize landing s req = id at hnext hlands ⊢
  rcases hnext with ⟨existing, hl, hact, rfl⟩ | ⟨hl, rfl⟩
  · have htidy := hk.tidy _ _ hl
    refine turn_commit_one (lookup_insert _) (.retouch hl ⟨rfl, rfl, ht, ?_⟩
      (.registered hlands hact rfl rfl rfl))
    simp only [reregistered, fillChannelScopes_of_tidy htidy]
  · exact turn_commit_one (lookup_insert _)
      (@Turn.registerNew s now req (registered req id) hl ht rfl hlands rfl rfl rfl rfl)

section
variable (s : IdentityStore) (id : String) (ilk : IlkRecord) (keys : List IchKey)

theorem attach_lookup (channels : List ChannelRecord) (j : String) :
    (s.attach id ilk keys channels).ilks.lookup j =
      if j = id then some { ilk with channels := pushMissing ilk.channels channels }
      else s.ilks.lookup j := lookup_insert_eq _ _ _ _

theorem attach_resolve (channels : List ChannelRecord) (k : IchKey) :
    (s.attach id ilk keys channels).resolve k = if k ∈ keys then some id else s.resolve k := by
  by_cases h : k ∈ keys <;> simp [resolve, IdentityStore.attach, lookup_insertAll, h]

end

variable {canonical : IlkRecord}

section
variable (expiresAtMs : ℕ) (htidy : source.Tidy) (hne : oldId ≠ id)
  (hcan : s.ilks.lookup id = some canonical) (j : String)
include expiresAtMs htidy hne hcan j

theorem moveChannels_lookup : (s.moveChannels oldId id source expiresAtMs).ilks.lookup j =
      if j = id then
        some { canonical with channels := pushMissing canonical.channels source.channels }
      else if j = oldId then some { source with channels := [] } else s.ilks.lookup j := by
  simp only [moveChannels, fillChannelScopes_of_tidy htidy, lookup_modify,
    lookup_insert_eq, if_neg hne.symm, hcan]
  rfl

theorem moveChannels_self : (s.moveChannels oldId id source expiresAtMs).ilks.lookup j =
      if j = id then
        some { canonical with channels := pushMissing canonical.channels source.channels }
      else (s.moveChannels oldId id source expiresAtMs).ilks.lookup j := by
  split_ifs with hj
  · rw [moveChannels_lookup expiresAtMs htidy hne hcan, if_pos hj]
  · rfl

end

variable {expiresAtMs : ℕ}

theorem moveChannels_resolve (htidy : source.Tidy) (k : IchKey) :
    (s.moveChannels oldId id source expiresAtMs).resolve k =
      if k ∈ source.channels.map (·.key) then some id else s.resolve k := by
  simp only [moveChannels, fillChannelScopes_of_tidy htidy, resolve, lookup_insertAll,
    htidy.keys_eq]
  by_cases h : k ∈ source.channels.map (·.key)
  · rw [if_pos h, if_pos h]
  · rw [if_neg h, if_neg h]

theorem checkMergeSource_ok : s.checkMergeSource oldId id = .ok u ↔
      (∃ uuid, parsePrefixedUuid oldId "ilk" = .ok uuid) ∧ oldId ≠ id ∧
        ∃ source canonical, s.ilks.lookup oldId = some source ∧ source.deletedAtMs = none ∧
          source.registrationStatus = "temporary" ∧ s.ilks.lookup id = some canonical ∧
          canonical.deletedAtMs = none ∧ canonical.tenantId = source.tenantId := by
  simp only [checkMergeSource, bind_ok, ensure_ok, orFail_ok, Option.filter_eq_some_iff,
    Option.isNone_iff_eq_none]
  constructor
  · rintro ⟨uuid, hparse, -, hne, source, hsource, -, ⟨hact, htmp⟩, canonical, ⟨hcan, hcact⟩, htnt⟩
    exact ⟨⟨uuid, hparse⟩, hne, source, canonical, hsource, hact, htmp, hcan, hcact, htnt⟩
  · rintro ⟨⟨uuid, hparse⟩, hne, source, canonical, hsource, hact, htmp, hcan, hcact, htnt⟩
    exact ⟨uuid, hparse, (), hne, source, hsource, (), ⟨hact, htmp⟩, canonical, ⟨hcan, hcact⟩, htnt⟩

theorem mergeTemporaryIlk_ok {s' : IdentityStore}
    (h : exec (mergeTemporaryIlk oldId id ttl now) s = (.ok u, s')) :
    oldId ≠ id ∧ ∃ source canonical expiresAtMs,
      s.ilks.lookup oldId = some source ∧ source.deletedAtMs = none ∧
      source.registrationStatus = "temporary" ∧
      s.ilks.lookup id = some canonical ∧ canonical.deletedAtMs = none ∧
      s' = s.moveChannels oldId id source expiresAtMs := by
  simp only [mergeTemporaryIlk, exec_ok] at h
  obtain ⟨⟨⟩, hcheck, source', hsource', h⟩ := h
  obtain ⟨-, hne, source, canonical, hsource, hact, htmp, hcan, hcact, -⟩ :=
    checkMergeSource_ok.mp hcheck
  rw [hsource] at hsource'
  cases hsource'
  exact ⟨hne, source', canonical, _, hsource, hact, htmp, hcan, hcact, (Prod.mk.inj h).2.symm⟩

theorem absorbs_merge (hk : s.Kept) (next : IlkRecord) (new : List ChannelRecord)
    {s₁ s' : IdentityStore} {old mid : IlkRecord} (hne : oldId ≠ id)
    (hold : s.ilks.lookup id = some old) (hact : old.deletedAtMs = none)
    (hsource : s.ilks.lookup oldId = some source) (hsact : source.deletedAtMs = none)
    (hmid : mid = { old with channels := pushMissing old.channels new })
    (hilks₁ : ∀ j, s₁.ilks.lookup j = if j = id then some mid else s.ilks.lookup j)
    (hres₁ : ∀ k, s₁.resolve k = if k ∈ new.map (·.key) then some id else s.resolve k)
    (hten₁ : s₁.tenants = s.tenants)
    (hs' : s'.tenants = s₁.tenants ∧ (∀ j, s'.ilks.lookup j = if j = id then some next
        else (s₁.moveChannels oldId id source expiresAtMs).ilks.lookup j) ∧
      ∀ k, s'.resolve k = (s₁.moveChannels oldId id source expiresAtMs).resolve k)
    (hnext : next.ilkId = old.ilkId ∧ next.tenantId = old.tenantId ∧ next.deletedAtMs = none ∧
      next.channels = pushMissing mid.channels source.channels)
    (hnew : ∀ c ∈ new, IsTenantId c.scope ∧ isCanonicalId c.ichId "ich" = true ∧
      s.checkChannelFree c.key [id, oldId] = .ok () ∧
      s.checkIchIdFree c.ichId [id, oldId] = .ok ())
    : Absorbs s s' id old next new source.channels [oldId] := by
  have htidy := hk.tidy _ _ hsource
  have hmid₁ : s₁.ilks.lookup id = some mid := by rw [hilks₁, if_pos rfl]
  refine ⟨hold, hact, ?_, ?_, hnext.1, hnext.2.1, hnext.2.2.1, ?_, fun c hc => (hnew c hc).1,
    fun c hc => (hnew c hc).2.1, fun c hc => (hnew c hc).2.2.1, fun c hc => (hnew c hc).2.2.2,
    hs'.1.trans hten₁, ?_, ?_⟩
  · intro j hj
    rw [mem_singleton.mp hj]
    exact ⟨hne, source, hsource, hsact, fun c hc => hc⟩
  · intro c hc
    exact ⟨oldId, by simp, source, hsource, hc⟩
  · rw [hnext.2.2.2, pushMissing_append, hmid]
  · intro j
    rw [hs'.2.1, moveChannels_lookup _ htidy hne hmid₁, hilks₁]
    by_cases hj : j = id
    · simp [hj]
    · by_cases hjo : j = oldId
      · subst hjo
        simp [hj, hsource]
      · simp [hj, hjo]
  · intro k
    rw [hs'.2.2, moveChannels_resolve htidy, hres₁, map_append]
    by_cases hm : k ∈ source.channels.map (·.key)
    · rw [if_pos hm, if_pos (mem_append_right _ hm)]
    · by_cases hn : k ∈ new.map (·.key)
      · rw [if_neg hm, if_pos hn, if_pos (mem_append_left _ hn)]
      · rw [if_neg hm, if_neg hn, if_neg (by simp only [mem_append, hm, hn, or_self,
          not_false_iff])]

theorem turn_commit_merge {sourceId : String} {old nextIlk : IlkRecord} {new : List ChannelRecord}
    (h : Absorbs s next id old nextIlk new source.channels [sourceId])
    (hsource : s.ilks.lookup sourceId = some source)
    (haliases : next.aliases = s.aliases.insert sourceId ⟨id, expiresAtMs⟩)
    (hreuse : AddsNoHeldIch s q → NoReuse old.channels new source.channels)
    (htmp : source.registrationStatus = "temporary")
    (hstatus : nextIlk.registrationStatus = old.registrationStatus)
    (hwhy : Merging s sourceId id q old nextIlk) :
    TurnsTo s now q (commitIlkChanges s next persisted [id, sourceId]
      (next.aliasSnapshot sourceId)) := by
  have hid : next.ilks.lookup id = some nextIlk := by rw [h.ilks, if_pos rfl]
  have hne : sourceId ≠ id := (h.sourced sourceId (mem_singleton.mpr rfl)).1
  have hold : next.ilks.lookup sourceId = some { source with channels := [] } := by
    rw [h.ilks, if_neg hne, hsource]
    simp
  have halias : next.aliasSnapshot sourceId = some ⟨sourceId, id, expiresAtMs⟩ := by
    rw [aliasSnapshot, haliases, lookup_insert]
    rfl
  refine @turn_commit _ _ _ persisted next [id, sourceId] _
    [nextIlk, { source with channels := [] }] (by simp [hid, hold]) (by simp) ?_
  rw [halias]
  exact .merge h hsource haliases hreuse htmp hstatus hwhy

theorem mergeRegistration_ok {holderId : String}
    (h : exec (mergeRegistration req holderId ttl now) s = (.ok ok, next)) :
    ok.ilkId = holderId ∧ ok.mergedFromIlkId = some req.ilkId ∧
      ∃ moved holder, exec (mergeTemporaryIlk req.ilkId holderId ttl now) s = (.ok (), moved) ∧
        moved.ilks.lookup holderId = some holder ∧
        next = { moved with ilks := moved.ilks.insert holderId { holder with
          identification :=
            fillMissingIdentification holder.identification req.identification } } := by
  simp only [mergeRegistration, exec_ok] at h
  obtain ⟨source, -, -, -, -, -, -, -, h⟩ := h
  obtain ⟨⟨⟩, moved, hmoved, h⟩ := exec_bind_ok.mp h
  simp only [exec_ok] at h
  obtain ⟨holder, hholder, rfl, rfl⟩ := h
  exact ⟨rfl, rfl, moved, holder, hmoved, hholder, rfl⟩

theorem mergeRegistration_turn (hk : s.Kept) {holderId email : String}
    (hemail : identificationStr req.identification "email" = some email)
    (hheld : s.ilkHoldingEmail req.tenantId email false = some holderId)
    (h : exec (mergeRegistration req holderId ttl now) s = (.ok ok, next)) :
    TurnsTo s now (.register req) (commitIlkChanges s next persisted
      (ok.ilkId :: ok.mergedFromIlkId.toList) (ok.mergedFromIlkId.bind next.aliasSnapshot)) := by
  obtain ⟨hid, hfrom, moved, holder, hmerge, hholder, rfl⟩ := mergeRegistration_ok h
  obtain ⟨hne, source, canonical, expiresAtMs, hsource, hsact, htmp, hcan, hcact, rfl⟩ :=
    mergeTemporaryIlk_ok hmerge
  have htidy := hk.tidy _ _ hsource
  rw [moveChannels_lookup _ htidy hne hcan, if_pos rfl] at hholder
  cases hholder
  rw [hid, hfrom]
  have hput := fun j => lookup_insert_eq
    (s.moveChannels req.ilkId holderId source expiresAtMs).ilks holderId j
    { canonical with
      identification := fillMissingIdentification canonical.identification req.identification
      channels := pushMissing canonical.channels source.channels }
  refine turn_commit_merge (absorbs_merge hk _ [] hne hcan hcact hsource hsact rfl ?_ (by simp) rfl
    ⟨rfl, hput, fun k => rfl⟩ ⟨rfl, rfl, hcact, rfl⟩ (by simp)) hsource rfl (by simp [NoReuse])
    htmp rfl (.registered rfl hemail hheld rfl)
  intro j
  split_ifs with hj
  · rw [hj, hcan]
    rfl
  · rfl

theorem checkRegistration_tenant
    (h : s.checkRegistration req = .ok u) : IsTenantId req.tenantId := by
  simp only [checkRegistration, bind_ok] at h
  obtain ⟨-, -, uuid, htenant, -⟩ := h
  exact isCanonicalId_of_ok htenant

theorem registerIlk_turn (hk : s.Kept) (h : exec (registerIlk req ttl now) s = (.ok ok, next)) :
    TurnsTo s now (.register req) (commitIlkChanges s next persisted
      (ok.ilkId :: ok.mergedFromIlkId.toList) (ok.mergedFromIlkId.bind next.aliasSnapshot)) := by
  simp only [registerIlk, exec_ok] at h
  obtain ⟨⟨⟩, hcheck, h⟩ := h
  have ht := checkRegistration_tenant hcheck
  cases hemail : identificationStr req.identification "email" with
  | none =>
    rw [hemail] at h
    exact registerOwn_turn hk ht ⟨rfl, by simp [hemail]⟩ h
  | some email =>
    simp only [hemail] at h
    cases hheld : s.ilkHoldingEmail req.tenantId email false with
    | some holder =>
      rw [hheld] at h
      dsimp only at h
      split_ifs at h with hsame
      · exact mergeRegistration_turn hk hemail hheld h
      · rw [not_not] at hsame
        refine registerOwn_turn hk ht ⟨rfl, ?_⟩ h
        intro email' hemail'
        rw [hemail] at hemail'
        cases hemail'
        exact .inl (hheld.trans (congrArg some hsame))
    | none =>
      simp only [hheld, exec_ok] at h
      obtain ⟨⟨⟩, hdeleted, h⟩ := h
      refine registerOwn_turn hk ht ⟨rfl, ?_⟩ h
      intro email' hemail'
      rw [hemail] at hemail'
      cases hemail'
      exact .inr ⟨hheld, hdeleted⟩

theorem mergeTemporaryIlk_refuses : Refuses (mergeTemporaryIlk oldId id ttl now) s := by
  simp only [mergeTemporaryIlk, refuses_get_bind, refuses_lift_bind]
  exact fun _ _ _ _ => refuses_of_ok ⟨_, _, exec_set⟩

theorem registerOwn_refuses : Refuses (registerOwn req) s := by
  simp only [registerOwn, refuses_get_bind]
  split <;> simp

theorem mergeRegistration_refuses (hk : s.Kept) {holderId : String}
    : Refuses (mergeRegistration req holderId ttl now) s := by
  simp only [mergeRegistration, refuses_get_bind, refuses_lift_bind]
  intro source hsource _ _ _ _ _ _
  refine refuses_bind mergeTemporaryIlk_refuses ?_
  rintro ⟨⟩ moved hmoved
  obtain ⟨hne, source', canonical, expiresAtMs, hsource', -, -, hcan, -, rfl⟩ :=
    mergeTemporaryIlk_ok hmoved
  have hholder := moveChannels_lookup expiresAtMs (hk.tidy _ _ hsource') hne hcan holderId
  rw [if_pos rfl] at hholder
  exact ⟨_, _, exec_get_bind.trans (exec_lift_bind_ok.mpr ⟨_, orFail_ok.mpr hholder, rfl⟩)⟩

theorem registerIlk_refuses (hk : s.Kept) : Refuses (registerIlk req ttl now) s := by
  simp only [registerIlk, refuses_get_bind, refuses_lift_bind]
  intro _ _
  split
  · exact registerOwn_refuses
  · split
    · split_ifs
      · exact mergeRegistration_refuses hk
      · exact registerOwn_refuses
    · exact refuses_lift_bind.mpr fun _ _ => registerOwn_refuses

theorem provisionTemporaryIlk_refuses {req : IlkProvisionRequest} {newIlk : Uuid} :
    Refuses (provisionTemporaryIlk req caller cloudRelay newIlk) s := by
  simp only [provisionTemporaryIlk, refuses_get_bind, refuses_lift_bind]
  intros
  split
  · simp only [provisionHit, refuses_get_bind]
    split
    · exact refuses_pure
    · simp only [refuses_lift_bind]
      intro _ _
      split_ifs <;> simp
  · simp [provisionNew]

theorem checkMergeSource_attach {target : IlkRecord} {keys : List IchKey}
    {channels : List ChannelRecord} (hid : s.ilks.lookup id = some target)
    (h : s.checkMergeSource oldId id = .ok ()) :
    (s.attach id target keys channels).checkMergeSource oldId id = .ok () := by
  obtain ⟨hparse, hne, source, canonical, hsource, hact, htmp, hcan, hcact, htnt⟩ :=
    checkMergeSource_ok.mp h
  rw [hid] at hcan
  cases hcan
  refine checkMergeSource_ok.mpr ⟨hparse, hne, source,
    { target with channels := pushMissing target.channels channels }, ?_, hact, htmp, ?_, hcact,
    htnt⟩
  · rw [attach_lookup, if_neg hne, hsource]
  · rw [attach_lookup, if_pos rfl]

theorem mergeTemporaryIlk_succeeds (h : s.checkMergeSource oldId id = .ok ()) :
    ∃ s', exec (mergeTemporaryIlk oldId id ttl now) s = (.ok (), s') := by
  obtain ⟨-, -, source, canonical, hsource, -⟩ := checkMergeSource_ok.mp h
  exact ⟨_, exec_get_bind.trans (exec_lift_bind_ok.mpr ⟨_, h,
    exec_lift_bind_ok.mpr ⟨_, orFail_ok.mpr hsource, rfl⟩⟩)⟩

theorem addChannel_refuses {req : IlkAddChannelRequest} {owner : Option String}
    : Refuses (addChannel req owner ttl cloudRelay now) s := by
  simp only [addChannel, refuses_get_bind, refuses_lift_bind]
  intro _ _ _ _ _ _ target htarget _ _ _ _ _ _ _ hmerge _ _
  apply refuses_of_ok
  rw [exec_set_bind]
  cases hfrom : req.mergeFromIlkId with
  | none => exact ⟨_, _, rfl⟩
  | some oldId =>
    rw [hfrom] at hmerge
    obtain ⟨⟨⟩, hcheck, -⟩ := bind_ok.mp hmerge
    obtain ⟨s', hs'⟩ := mergeTemporaryIlk_succeeds
      (checkMergeSource_attach (orFail_ok.mp htarget) hcheck)
    exact ⟨_, _, exec_bind_ok.mpr ⟨_, _, hs', rfl⟩⟩

theorem absorbs_attach {old : IlkRecord} (new : List ChannelRecord)
    (hold : s.ilks.lookup id = some old) (hact : old.deletedAtMs = none)
    (hnew : ∀ c ∈ new, IsTenantId c.scope ∧ isCanonicalId c.ichId "ich" = true ∧
      s.checkChannelFree c.key [id] = .ok () ∧ s.checkIchIdFree c.ichId [id] = .ok ()) :
    Absorbs s (s.attach id old (new.map (·.key)) new) id old
      { old with channels := pushMissing old.channels new } new [] [] where
  stored := hold
  active := hact
  sourced := by simp
  movedFrom := by simp
  ilkId := rfl
  tenantId := rfl
  deletedAtMs := hact
  channels := by rw [append_nil]
  scopes := fun c hc => (hnew c hc).1
  ichIds := fun c hc => (hnew c hc).2.1
  keyFree := fun c hc => (hnew c hc).2.2.1
  ichFree := fun c hc => (hnew c hc).2.2.2
  tenants := rfl
  ilks := by
    intro j
    rw [attach_lookup]
    simp
  resolve := by
    intro k
    rw [attach_resolve, append_nil]

theorem addChannel_turn (hk : s.Kept) {req : IlkAddChannelRequest} {ok : AddChannelOk}
    (h : exec (addChannel req caller ttl cloudRelay now) s = (.ok ok, next)) :
    TurnsTo s now (.addChannel req caller) (commitIlkChanges s next persisted
      (ok.ilkId :: req.mergeFromIlkId.toList) (req.mergeFromIlkId.bind next.aliasSnapshot)) := by
  simp only [addChannel, exec_ok] at h
  obtain ⟨-, -, ⟨⟩, hvalid, owner, -, target, htarget, scope, hscope, ⟨⟩, hkey, ⟨⟩, hact, ⟨⟩,
    hfrom, ⟨⟩, hich, h⟩ := h
  have htidy := hk.tidy _ _ htarget
  have htnt := resolveChannelScope_isTenantId htidy.tenant hscope
  -- The channel that joins, and what the request's condition says about its id.
  generalize hc : ChannelRecord.mk req.channel.ichId req.channel.channelType req.channel.address
    owner false scope = c at h
  have hckey : c.key = canonicalIchKey req.channel.channelType req.channel.address scope := by
    rw [← hc]
    rfl
  have hcscope : IsTenantId c.scope := by rwa [← hc]
  have hcid : c.ichId = req.channel.ichId := by rw [← hc]
  have hheld : AddsNoHeldIch s (.addChannel req caller) →
      ∀ j ∈ req.ilkId :: req.mergeFromIlkId.toList, ∀ r, s.ilks.lookup j = some r →
        ∀ d ∈ r.channels, d.ichId = c.ichId → d.key = c.key := by
    intro hadds j hj r hr d hd hid
    rw [hckey, (resolveChannelScope_ok hscope).1,
      ← hadds target htarget j hj r hr d hd (hid.trans hcid)]
    exact (channelKey_of_isTenantId ((hk.tidy _ _ hr).scopes d hd) _).symm
  rw [← hckey] at hkey h
  rw [← hcid] at hich
  have hcich : isCanonicalId c.ichId "ich" = true := by
    rw [hcid]
    exact validateChannelInput_ok hvalid
  cases hm : req.mergeFromIlkId with
  | none =>
    rw [hm] at h hkey hich hheld
    simp only [exec_pure_ok] at h
    obtain ⟨rfl, rfl⟩ := h
    have habs := absorbs_attach [c] htarget hact fun d hd => by
      rw [mem_singleton.mp hd]
      exact ⟨hcscope, hcich, hkey, hich⟩
    refine turn_commit_one (by rw [attach_lookup, if_pos rfl]) (.attach habs rfl ?_ rfl rfl)
    intro hadds d hd e he hid
    rw [mem_singleton.mp hd] at hid ⊢
    simp only [append_nil, mem_append, mem_singleton] at he
    rcases he with he | rfl
    · exact hheld hadds req.ilkId (by simp) target htarget e he hid
    · rfl
  | some oldId =>
    rw [hm] at h hkey hich hheld
    obtain ⟨⟨⟩, moved, hmerge, h⟩ := exec_bind_ok.mp h
    simp only [exec_pure_ok] at h
    obtain ⟨rfl, rfl⟩ := h
    obtain ⟨hne, source, mid, expiresAtMs, hsource, hsact, htmp, hmid, hmact, rfl⟩ :=
      mergeTemporaryIlk_ok hmerge
    rw [attach_lookup, if_neg hne] at hsource
    have hput := moveChannels_self expiresAtMs (hk.tidy _ _ hsource) hne hmid
    rw [attach_lookup, if_pos rfl] at hmid
    cases hmid
    refine turn_commit_merge (absorbs_merge hk _ [c] hne htarget hact hsource hsact rfl
      (attach_lookup _ _ _ _ _) (attach_resolve _ _ _ _ _) rfl ⟨rfl, hput, fun k => rfl⟩
      ⟨rfl, rfl, hact, rfl⟩ ?_) hsource rfl ?_ htmp rfl (.added hm rfl rfl)
    · intro d hd
      rw [mem_singleton.mp hd]
      exact ⟨hcscope, hcich, hkey, hich⟩
    · intro hadds d hd e he hid
      rw [mem_singleton.mp hd] at hid ⊢
      simp only [mem_append, mem_singleton] at he
      rcases he with (he | rfl) | he
      · exact hheld hadds req.ilkId (by simp) target htarget e he hid
      · rfl
      · exact hheld hadds oldId (by simp) source hsource e he hid

theorem checkOwnChannel_ok {ch : ChannelInput} (h : s.checkOwnChannel ilkId tenantId ch = .ok u) :
    isCanonicalId ch.ichId "ich" = true ∧
      s.checkChannelFree (ownChannel tenantId ch).key [ilkId] = .ok () ∧
      s.checkIchIdFree ch.ichId [ilkId] = .ok () := by
  simp only [checkOwnChannel, bind_ok] at h
  obtain ⟨⟨⟩, hvalid, -, -, -, -, ⟨⟩, hich, hkey⟩ := h
  exact ⟨validateChannelInput_ok hvalid, hkey, hich⟩

theorem checkOwnChannels_ok {channels : List ChannelInput}
    (h : s.checkOwnChannels ilkId tenantId channels = .ok u) :
    ∀ ch ∈ channels, s.checkOwnChannel ilkId tenantId ch = .ok () := by
  induction channels with
  | nil => simp
  | cons ch rest ih =>
    obtain ⟨⟨⟩, hch, hrest⟩ := bind_ok.mp h
    intro d hd
    rcases mem_cons.mp hd with rfl | hd
    · exact hch
    · exact ih hrest d hd

theorem updateIlk_turn (hk : s.Kept) {req : IlkUpdateRequest} {ok : UpdateIlkOk}
    (h : exec (updateIlk req) s = (.ok ok, next)) :
    TurnsTo s now (.updateIlk req) (commitIlkChanges s next persisted [ok.ilkId] none) := by
  simp only [updateIlk, exec_ok, Option.filter_eq_some_iff, Option.isNone_iff_eq_none] at h
  obtain ⟨-, -, entry, ⟨hentry, hact⟩, ⟨⟩, hcheck, rfl, rfl⟩ := h
  have htidy := hk.tidy _ _ hentry
  have hown := checkOwnChannels_ok hcheck
  have habs := absorbs_attach (req.addChannels.map (ownChannel entry.tenantId)) hentry hact
    fun c hc => by
      obtain ⟨ch, hch, rfl⟩ := List.mem_map.mp hc
      obtain ⟨hcid, hkey, hich⟩ := checkOwnChannel_ok (hown ch hch)
      exact ⟨htidy.tenant, hcid, hkey, hich⟩
  rw [List.map_map] at habs
  refine turn_commit_one (by rw [attach_lookup, if_pos rfl]) (.attach habs rfl ?_ rfl rfl)
  intro hadds c hc d hd hid
  obtain ⟨ch, hch, rfl⟩ := List.mem_map.mp hc
  obtain ⟨hheld, htwice⟩ := hadds entry hentry ch hch
  rw [append_nil] at hd
  rcases mem_append.mp hd with hd | hd
  · exact (channelKey_of_isTenantId (htidy.scopes d hd) entry.tenantId).symm.trans (hheld d hd hid)
  · obtain ⟨ch', hch', rfl⟩ := List.mem_map.mp hd
    exact htwice ch' hch' hid

theorem setEnabledIn_places (ichId : String) (enabled : Bool) (channels : List ChannelRecord) :
    (setEnabledIn ichId enabled channels).map (·.place) = channels.map (·.place) := by
  induction channels with
  | nil => rfl
  | cons c rest ih =>
    unfold setEnabledIn
    split_ifs
    · rfl
    · rw [map_cons, ih, map_cons]

variable {ichId : String}

theorem findIch_some {ilk : IlkRecord} {c : ChannelRecord}
    (h : s.findIch ichId = some (ilkId, ilk, c)) : s.ilks.lookup ilkId = some ilk := by
  obtain ⟨e, he, hfound⟩ := exists_of_findSome?_eq_some h
  split_ifs at hfound
  obtain ⟨c', -, hpair⟩ := Option.map_eq_some_iff.mp hfound
  rw [Prod.mk.injEq, Prod.mk.injEq] at hpair
  rw [← hpair.1, ← hpair.2.1]
  exact mem_entries_iff.mp he

theorem setIchEnabled_turn (hk : s.Kept) {enabled : Bool} {ok : SetEnabledOk}
    (h : exec (setIchEnabled ichId enabled) s = (.ok ok, next)) :
    TurnsTo s now q (commitIlkChanges s next persisted [ok.ilkId] none) := by
  simp only [setIchEnabled, exec_ok] at h
  obtain ⟨-, -, ⟨ilkId, ilk, c⟩, hfound, rfl, rfl⟩ := h
  have hilk := findIch_some hfound
  exact turn_commit_one (lookup_insert _)
    (.retouch hilk ⟨rfl, rfl, (hk.tidy _ _ hilk).tenant, setEnabledIn_places _ _ _⟩
      (.kept rfl rfl rfl))

theorem setIlkDefinition_turn (hk : s.Kept) {definition normalized : Json}
    (h : exec (setIlkDefinition ilkId definition) s = (.ok normalized, next)) :
    TurnsTo s now q (commitIlkChanges s next persisted [ilkId] none) := by
  simp only [setIlkDefinition, exec_ok] at h
  obtain ⟨-, -, entry, hentry, -, -, -, -, definition', -, -, rfl⟩ := h
  exact turn_commit_one (lookup_insert _)
    (.retouch hentry ⟨rfl, rfl, (hk.tidy _ _ hentry).tenant, rfl⟩ (.kept rfl rfl rfl))

theorem setIlkTenant_turn (hk : s.Kept) {changedBy : String}
    {ok : SetTenantOk × Option TenantChange}
    (h : exec (setIlkTenant ilkId tenantId changedBy) s = (.ok ok, next)) :
    TurnsTo s now q (commitIlkChanges s next persisted (ok.2.map (·.ilkId)).toList none) := by
  simp only [setIlkTenant, exec_ok, Option.filter_eq_some_iff] at h
  obtain ⟨-, -, uuid, htnt, -, -, -, -, -, -, -, -, ilk, ⟨hilk, -⟩, -, -, h⟩ := h
  split_ifs at h
  · simp only [exec_pure_ok] at h
    obtain ⟨rfl, rfl⟩ := h
    exact turn_commit_none
  · simp only [exec_ok] at h
    obtain ⟨-, -, ⟨⟩, hfree, rfl, rfl⟩ := h
    exact turn_commit_one (lookup_insert _)
      (.retouch hilk (retouched_tenant (hk.tidy _ _ hilk) (isCanonicalId_of_ok htnt))
        (.charged rfl rfl hfree))

theorem updateIlk_refuses {req : IlkUpdateRequest} : Refuses (updateIlk req) s := by
  simp [updateIlk]

theorem setIchEnabled_refuses {enabled : Bool} : Refuses (setIchEnabled ichId enabled) s := by
  simp [setIchEnabled]

theorem setIlkDefinition_refuses {definition : Json} :
    Refuses (setIlkDefinition ilkId definition) s := by
  simp [setIlkDefinition]

theorem setIlkTenant_refuses {changedBy : String} :
    Refuses (setIlkTenant ilkId tenantId changedBy) s := by
  simp only [setIlkTenant, refuses_get_bind, refuses_lift_bind]
  intros
  split_ifs <;> simp

end Fluxbee.Identity
