import Fluxbee.Identity.IlkSteps

/-! The lifecycle and tenant requests as turns of the store, and that every request is one. -/
namespace Fluxbee.Identity
open Text Fallible IdentityStore Option LifecycleChanges

variable {s : IdentityStore} {now : ℕ} {q : Request} {ok : LifecycleOk} {changes : LifecycleChanges}
  {next : IdentityStore} {tenantId : String} {persisted : Bool}

theorem deltas_ilks (ilks : List IlkRecord) (rescopedIchs : List String) :
    deltas { ilks, rescopedIchs } = ilks.map .ilkUpsert := by
  simp [deltas]

variable {ilkId approvedBy : String} {entry : IlkRecord} {req : IlkDeleteRequest} {t : TenantRecord}
  {newTenant : Uuid}

theorem checkIlkMarkable_ok (h : s.checkIlkMarkable ilkId = .ok entry) :
    s.ilks.lookup ilkId = some entry ∧ isWellKnownSystemIlk entry = false := by
  simp only [checkIlkMarkable, bind_ok, orFail_ok, ensure_ok, not_or, Bool.not_eq_true] at h
  obtain ⟨stored, hstored, -, ⟨hknown, -⟩, hpure⟩ := h
  cases hpure
  exact ⟨hstored, hknown⟩

theorem markIlkUnchecked_turn (hentry : s.ilks.lookup ilkId = some entry) :
    Turn s now q (s.markIlkUnchecked ilkId deletedReasonDirect now).1
      ((s.markIlkUnchecked ilkId deletedReasonDirect now).2.toList.map .ilkUpsert) := by
  unfold markIlkUnchecked
  rw [hentry]
  dsimp only
  split_ifs
  · exact .same
  · exact .mark hentry

section
variable {req : IlkDeleteRequest} {tenantId : String} {ok : LifecycleOk}
  {changes : LifecycleChanges} {next : IdentityStore}

theorem deleteIlk_ran (h : exec (deleteIlk req now) s = (.ok (ok, changes), next)) :
    (∃ entry, s.checkIlkMarkable req.ilkId = .ok entry) ∧
      next = (s.markIlkUnchecked req.ilkId deletedReasonDirect now).1 ∧
      changes = { ilks := (s.markIlkUnchecked req.ilkId deletedReasonDirect now).2.toList } := by
  simp only [deleteIlk, exec_ok] at h
  obtain ⟨-, -, entry, hentry, -, -, ⟨-, rfl⟩, rfl⟩ := h
  exact ⟨⟨entry, hentry⟩, rfl, rfl⟩

theorem restoreIlk_ran (h : exec (restoreIlk req) s = (.ok (ok, changes), next)) :
    ∃ entry, s.ilks.lookup req.ilkId = some entry ∧ entry.deletedAtMs ≠ none ∧
      s.checkIlkRestorable req.ilkId = .ok () ∧ next = (s.unmarkIlkUnchecked req.ilkId).1 ∧
      changes = (s.unmarkIlkUnchecked req.ilkId).2 := by
  simp only [restoreIlk, exec_ok] at h
  obtain ⟨-, -, -, -, entry, hentry, -, hmarked, -, -, ⟨⟩, hcheck, ⟨-, rfl⟩, rfl⟩ := h
  exact ⟨entry, hentry, hmarked, hcheck, rfl, rfl⟩

theorem purgeIlk_ran (h : exec (purgeIlk req) s = (.ok (ok, changes), next)) :
    (∃ entry, s.checkIlkMarkable req.ilkId = .ok entry) ∧
      next = (s.removeIlkPhysically req.ilkId).1 ∧
      changes = { purgedAliases := (s.removeIlkPhysically req.ilkId).2,
                  purgedIlks := [req.ilkId] } := by
  simp only [purgeIlk, exec_ok] at h
  obtain ⟨-, -, -, -, entry, hentry, -, -, ⟨-, rfl⟩, rfl⟩ := h
  exact ⟨⟨entry, hentry⟩, rfl, rfl⟩

theorem deleteTenant_ran (h : exec (deleteTenant tenantId now) s = (.ok (ok, changes), next)) :
    next = s ∧ changes = {} ∨ ∃ tenant, s.tenantRecordForLifecycle tenantId = .ok tenant ∧
      s.tenantChildren tenantId false = [] ∧ next = (s.setTenantMark tenantId (some now)).1 ∧
      changes = (s.setTenantMark tenantId (some now)).2 := by
  simp only [deleteTenant, exec_ok] at h
  obtain ⟨tenant, htenant, h⟩ := h
  split_ifs at h
  · simp only [exec_pure_ok] at h
    obtain ⟨⟨-, rfl⟩, rfl⟩ := h
    exact .inl ⟨rfl, rfl⟩
  · simp only [exec_ok] at h
    obtain ⟨-, hchildless, -, -, ⟨-, rfl⟩, rfl⟩ := h
    exact .inr ⟨tenant, htenant, hchildless, rfl, rfl⟩

theorem restoreTenant_ran (h : exec (restoreTenant tenantId) s = (.ok (ok, changes), next)) :
    ∃ tenant, s.tenantRecordForLifecycle tenantId = .ok tenant ∧
      (∀ sponsor ∈ tenant.sponsorTenantId, ¬ s.tenantIsDeleted sponsor) ∧
      next = (s.setTenantMark tenantId none).1 ∧ changes = (s.setTenantMark tenantId none).2 := by
  simp only [restoreTenant, exec_ok] at h
  obtain ⟨tenant, htenant, -, -, -, hsponsor, ⟨-, rfl⟩, rfl⟩ := h
  exact ⟨tenant, htenant, hsponsor, rfl, rfl⟩

end

theorem deleteIlk_turn (h : exec (deleteIlk req now) s = (.ok (ok, changes), next)) :
    Turn s now q next changes.deltas := by
  obtain ⟨⟨entry, hentry⟩, rfl, rfl⟩ := deleteIlk_ran h
  rw [deltas_ilks]
  exact markIlkUnchecked_turn (checkIlkMarkable_ok hentry).1

theorem restoreIlk_turn (h : exec (restoreIlk req) s = (.ok (ok, changes), next)) :
    Turn s now (.restoreIlk req) next changes.deltas := by
  obtain ⟨entry, hentry, hmarked, hcheck, rfl, rfl⟩ := restoreIlk_ran h
  have hdeltas : (s.unmarkIlkUnchecked req.ilkId).2.deltas =
      (s.unmarkIlkUnchecked req.ilkId).2.ilks.map .ilkUpsert := by
    unfold unmarkIlkUnchecked
    rw [hentry]
    exact deltas_ilks _ _
  rw [hdeltas]
  exact .restore hentry hmarked hcheck

theorem purgeIlk_turn (h : exec (purgeIlk req) s = (.ok (ok, changes), next)) :
    Turn s now q next changes.deltas := by
  obtain ⟨⟨entry, hentry⟩, rfl, rfl⟩ := purgeIlk_ran h
  obtain ⟨hstored, hknown⟩ := checkIlkMarkable_ok hentry
  simpa [deltas] using Turn.purgeIlk hstored hknown

theorem setTenantMark_turn (hk : s.Kept) {mark : Option ℕ} :
    Turn s now q (s.setTenantMark tenantId mark).1 (s.setTenantMark tenantId mark).2.deltas := by
  unfold setTenantMark
  cases htnt : s.tenants.lookup tenantId with
  | none => exact .same
  | some tenant =>
    obtain rfl := hk.tenantNamed _ _ htnt
    exact .tenantPut { tenant with deletedAtMs := mark }

theorem deleteTenant_turn (hk : s.Kept)
    (h : exec (deleteTenant tenantId now) s = (.ok (ok, changes), next)) :
    Turn s now q next changes.deltas := by
  obtain ⟨rfl, rfl⟩ | ⟨tenant, -, -, rfl, rfl⟩ := deleteTenant_ran h
  · exact .same
  · exact setTenantMark_turn hk

theorem restoreTenant_turn (hk : s.Kept)
    (h : exec (restoreTenant tenantId) s = (.ok (ok, changes), next)) :
    Turn s now q next changes.deltas := by
  obtain ⟨tenant, -, -, rfl, rfl⟩ := restoreTenant_ran h
  exact setTenantMark_turn hk

theorem purgeTenant_turn (h : exec (purgeTenant tenantId) s = (.ok (ok, changes), next)) :
    Turn s now (.purgeTenant tenantId) next changes.deltas := by
  simp only [purgeTenant, exec_ok] at h
  obtain ⟨tenant, -, -, -, -, -, -, -, -, -, -, hknown, ⟨-, rfl⟩, rfl⟩ := h
  have hturn := @Turn.purgeTenant s now tenantId hknown
  simpa [deltas, purgeDeltas, purgedStore, emptiedTenant] using hturn

theorem turn_commitTenant
    (h : ∀ t, next.tenants.lookup tenantId = some t → Turn s now q next [.tenantUpsert t])
    (hnone : next.tenants.lookup tenantId = none → next = s) :
    TurnsTo s now q (commitTenant s next persisted tenantId) := by
  unfold commitTenant
  cases ht : next.tenants.lookup tenantId with
  | none =>
    rw [hnone ht]
    exact .same
  | some t =>
    cases persisted with
    | false => exact .same
    | true => exact h t ht

theorem turn_commitTenant_put {id : String} (hid : t.tenantId = id) :
    TurnsTo s now q (commitTenant s { s with tenants := s.tenants.insert id t } persisted id) := by
  subst hid
  refine turn_commitTenant ?_ ?_
  · intro t' ht'
    rw [AList.lookup_insert] at ht'
    cases ht'
    exact .tenantPut t
  · intro hnone
    rw [AList.lookup_insert] at hnone
    cases hnone

theorem firstTenant_some {holds : TenantRecord → Bool}
    (h : s.firstTenant holds = some t) : ∃ id, s.tenants.lookup id = some t := by
  obtain ⟨id, -, hid⟩ := List.exists_of_findSome?_eq_some h
  exact ⟨id, (filter_eq_some_iff.mp hid).1⟩

theorem findTenantByHint_some {name : String} {domain : Option String}
    {matchedBy : MatchedBy} (h : s.findTenantByHint name domain = some (t, matchedBy)) :
    ∃ id, s.tenants.lookup id = some t := by
  rcases or_eq_some_iff.mp h with h | ⟨-, h⟩
  · obtain ⟨t', ht', hpair⟩ := map_eq_some_iff.mp h
    obtain ⟨expected, -, hfirst⟩ := bind_eq_some_iff.mp ht'
    cases hpair
    exact firstTenant_some hfirst
  · obtain ⟨t', hfirst, hpair⟩ := map_eq_some_iff.mp h
    cases hpair
    exact firstTenant_some hfirst

theorem createTenant_turn (hk : s.Kept) {req : TntCreateRequest}
    {ok : CreateTenantOk} (h : exec (createTenant req newTenant) s = (.ok ok, next)) :
    TurnsTo s now q (commitTenant s next persisted ok.tenantId) := by
  simp only [createTenant, exec_ok] at h
  obtain ⟨-, -, -, -, -, -, h⟩ := h
  split at h
  · rename_i tenant matchedBy hfound
    simp only [exec_ok] at h
    obtain ⟨-, -, rfl, rfl⟩ := h
    obtain ⟨id, hid⟩ := findTenantByHint_some hfound
    obtain rfl := hk.tenantNamed _ _ hid
    refine turn_commitTenant ?_ (fun _ => rfl)
    intro t ht
    rw [hid] at ht
    cases ht
    exact .tenantKept hid
  · simp only [exec_ok] at h
    obtain ⟨rfl, rfl⟩ := h
    exact turn_commitTenant_put rfl

theorem updateTenant_turn (hk : s.Kept) {req : TntUpdateRequest} {ok : UpdateTenantOk}
    (h : exec (updateTenant req) s = (.ok ok, next)) :
    TurnsTo s now q (commitTenant s next persisted ok.tenantId) := by
  simp only [updateTenant, exec_ok] at h
  obtain ⟨-, -, -, -, sponsor, -, -, -, current, hcurrent, -, -, name, -, status, -, -, -, -, -,
    rfl, rfl⟩ := h
  have hid := hk.tenantNamed _ _ hcurrent
  exact turn_commitTenant_put hid

theorem approveTenant_turn (hk : s.Kept) {answer : String}
    (h : exec (approveTenant tenantId approvedBy) s = (.ok answer, next)) :
    TurnsTo s now q (commitTenant s next persisted answer) := by
  simp only [approveTenant, exec_ok] at h
  obtain ⟨-, -, -, -, tenant, htenant, -, -, rfl, rfl⟩ := h
  have hid := hk.tenantNamed _ _ htenant
  exact turn_commitTenant_put hid

theorem createTenant_refuses {req : TntCreateRequest} : Refuses (createTenant req newTenant) s := by
  simp only [createTenant, refuses_get_bind, refuses_lift_bind]
  intro _ _ _ _ _ _
  split
  · exact refuses_lift_bind.mpr fun _ _ => refuses_pure
  · simp

theorem updateTenant_refuses {req : TntUpdateRequest} : Refuses (updateTenant req) s := by
  simp [updateTenant]

theorem approveTenant_refuses : Refuses (approveTenant tenantId approvedBy) s := by
  simp [approveTenant]

theorem handle_turn (hk : s.Kept) (cfg : Config) (e : Event) :
    Turn s e.now e.request (handle cfg s e).1 (handle cfg s e).2 := by
  unfold handle
  cases e.request with
  | provision req caller newIlk =>
    exact turn_runOp provisionTemporaryIlk_refuses fun _ _ h => provision_turn hk h
  | register req => exact turn_runOp (registerIlk_refuses hk) fun _ _ h => registerIlk_turn hk h
  | addChannel req caller => exact turn_runOp addChannel_refuses fun _ _ h => addChannel_turn hk h
  | updateIlk req => exact turn_runOp updateIlk_refuses fun _ _ h => updateIlk_turn hk h
  | setDefinition ilkId definition =>
    exact turn_runOp setIlkDefinition_refuses fun _ _ h => setIlkDefinition_turn hk h
  | setTenant ilkId tenantId onBehalfOf caller =>
    exact turn_runOp setIlkTenant_refuses fun _ _ h => setIlkTenant_turn hk h
  | setEnabled ichId enabled =>
    exact turn_runOp setIchEnabled_refuses fun _ _ h => setIchEnabled_turn hk h
  | deleteIlk req => exact turn_runLifecycleOp fun _ _ _ h => deleteIlk_turn h
  | restoreIlk req => exact turn_runLifecycleOp fun _ _ _ h => restoreIlk_turn h
  | purgeIlk req => exact turn_runLifecycleOp fun _ _ _ h => purgeIlk_turn h
  | createTenant req newTenant =>
    exact turn_runOp createTenant_refuses fun _ _ h => createTenant_turn hk h
  | updateTenant req => exact turn_runOp updateTenant_refuses fun _ _ h => updateTenant_turn hk h
  | setSponsor tenantId sponsor =>
    exact turn_runOp updateTenant_refuses fun _ _ h => updateTenant_turn hk h
  | approveTenant tenantId approvedBy =>
    exact turn_runOp approveTenant_refuses fun _ _ h => approveTenant_turn hk h
  | deleteTenant tenantId => exact turn_runLifecycleOp fun _ _ _ h => deleteTenant_turn hk h
  | restoreTenant tenantId => exact turn_runLifecycleOp fun _ _ _ h => restoreTenant_turn hk h
  | purgeTenant tenantId => exact turn_runLifecycleOp fun _ _ _ h => purgeTenant_turn h
  | aliasGc =>
    cases hp : e.persisted with
    | false => exact .same
    | true => exact .gc

end Fluxbee.Identity
