import Fluxbee.Identity.Announcements
import Fluxbee.Lib.Lineage

/-! What a request does to the tenants: it changes one of them at most, after the checks that the
sponsors, the names and the domains rest on. -/
namespace Fluxbee.Identity
open Text Fallible IdentityStore Lineage Relation List Option AList Function

variable {next : IdentityStore} {persisted : Bool} {changes : LifecycleChanges} {ok : LifecycleOk}
  {tenantId : String}

abbrev TenantMap := String → Option TenantRecord

def IdentityStore.tenantMap (s : IdentityStore) : TenantMap := fun id => s.tenants.lookup id

namespace TenantMap

variable (T : TenantMap)

def sponsorOf (id : String) : Option String := (T id).bind (·.sponsorTenantId)

def Active (id : String) : Prop := ∃ t, T id = some t ∧ t.deletedAtMs = none

def NameFree (id name : String) : Prop :=
  ∀ j t, T j = some t → j ≠ id → normalizeTenantName t.name ≠ normalizeTenantName name

def DomainFree (id : String) (domain : Option String) : Prop :=
  ∀ d ∈ normalizeTenantDomain domain, ∀ j t, T j = some t → j ≠ id →
    normalizeTenantDomain t.domain ≠ some d

end TenantMap

def newTenantId (newTenant : Uuid) : String := "tnt:" ++ newTenant.hyphenated

/-- What a request did to the tenants, and what it had checked of them. -/
inductive TenantStep (T : TenantMap) (now : ℕ) : Request → TenantMap → Prop
  | kept {q} : TenantStep T now q T
  | created {req newTenant} {t : TenantRecord} (active : t.deletedAtMs = none)
    (sponsor : ∀ p ∈ t.sponsorTenantId, T.Active p)
    (name : T.NameFree (newTenantId newTenant) t.name)
    (domain : T.DomainFree (newTenantId newTenant) t.domain) :
    TenantStep T now (.createTenant req newTenant)
      (Function.update T (newTenantId newTenant) (some t))
  | updated {q id} {old new : TenantRecord} (stored : T id = some old)
    (active : old.deletedAtMs = none) (unmarked : new.deletedAtMs = none)
    (sponsor : new.sponsorTenantId = old.sponsorTenantId ∨ ∀ p ∈ new.sponsorTenantId,
      T.Active p ∧ ¬ ReflTransGen (Under T.sponsorOf) p id)
    (name : normalizeTenantName new.name = normalizeTenantName old.name ∨ T.NameFree id new.name)
    (domain : normalizeTenantDomain new.domain = normalizeTenantDomain old.domain ∨
      T.DomainFree id new.domain) :
    TenantStep T now q (Function.update T id (some new))
  | marked {q id} {old : TenantRecord} (stored : T id = some old)
    (childless : ∀ j t, T j = some t → t.sponsorTenantId = some id → t.deletedAtMs ≠ none) :
    TenantStep T now q (Function.update T id (some { old with deletedAtMs := some now }))
  | restored {q id} {old : TenantRecord} (stored : T id = some old)
    (sponsor : ∀ p ∈ old.sponsorTenantId, ∀ r ∈ T p, r.deletedAtMs = none) :
    TenantStep T now q (Function.update T id (some { old with deletedAtMs := none }))
  | purged {q id} (childless : ∀ j t, T j = some t → t.sponsorTenantId ≠ some id) :
    TenantStep T now q (Function.update T id none)

variable {s s' : IdentityStore} {now : ℕ} {q : Request} {deltas : List IdentityDelta}

theorem tenantMap_insert (s : IdentityStore) (id : String) (t : TenantRecord) :
    tenantMap { s with tenants := s.tenants.insert id t } = update s.tenantMap id (some t) := by
  funext j
  simp only [tenantMap, update_apply]
  exact lookup_insert_eq _ _ _ _

theorem Turn.tenantMap_eq (h : Turn s now q s' deltas) (hk : s.Kept)
    (hdeltas : ∀ d ∈ deltas, ∀ id, ¬ d.OfTenant id) : s'.tenantMap = s.tenantMap := by
  funext id
  exact (h.announces hk).tenants id fun d hd => hdeltas d hd id

variable {α : Type} {op : Op (LifecycleOk × LifecycleChanges)} {req : IlkDeleteRequest}
  {sponsor domain requested : Option String} {u : Unit} {t current tenant : TenantRecord}

section

theorem commitIlkChanges_ofTenant {ilkIds : List String} {aliasLeft : Option AliasSnapshotRecord} :
    ∀ d ∈ (commitIlkChanges s next persisted ilkIds aliasLeft).2, ∀ id, ¬ d.OfTenant id := by
  intro d hd id
  unfold commitIlkChanges at hd
  dsimp only at hd
  split_ifs at hd
  · cases hd
  · rcases mem_append.mp hd with hd | hd
    · obtain ⟨r, -, rfl⟩ := List.mem_map.mp hd
      exact not_false
    · obtain ⟨a, -, rfl⟩ := List.mem_map.mp hd
      exact not_false
  · cases hd

theorem runOp_ofTenant {op : Op α} {commit : IdentityStore → α → Outcome}
    (h : ∀ next a, ∀ d ∈ (commit next a).2, ∀ id, ¬ d.OfTenant id) :
    ∀ d ∈ (runOp s op commit).2, ∀ id, ¬ d.OfTenant id := by
  refine runOp_rule (P := fun out => ∀ d ∈ out.2, ∀ id, ¬ d.OfTenant id) ?_ fun a next _ => h next a
  exact fun _ _ _ d hd => absurd hd not_mem_nil

theorem deltas_ofTenant (htenants : changes.tenants = []) (hpurged : changes.purgedTenants = []) :
    ∀ d ∈ changes.deltas, ∀ id, ¬ d.OfTenant id := by
  intro d hd id
  simp only [LifecycleChanges.deltas, htenants, hpurged, map_nil, nil_append,
    append_nil, mem_append, List.mem_map] at hd
  obtain (⟨r, -, rfl⟩ | ⟨old, -, rfl⟩) | ⟨ilkId, -, rfl⟩ := hd
  all_goals exact not_false

theorem runLifecycleOp_ofTenant (h : ∀ ok changes next, exec op s = (.ok (ok, changes), next) →
      changes.tenants = [] ∧ changes.purgedTenants = []) :
    ∀ d ∈ (runLifecycleOp s persisted op).2, ∀ id, ¬ d.OfTenant id := by
  refine runLifecycleOp_rule (P := fun out => ∀ d ∈ out.2, ∀ id, ¬ d.OfTenant id) ?_ ?_
  · exact fun d hd => absurd hd not_mem_nil
  · intro r changes next hx
    obtain ⟨htenants, hpurged⟩ := h r changes next hx
    exact deltas_ofTenant htenants hpurged

theorem deleteIlk_changes (h : exec (deleteIlk req now) s = (.ok (ok, changes), next)) :
    changes.tenants = [] ∧ changes.purgedTenants = [] := by
  obtain ⟨-, -, rfl⟩ := deleteIlk_ran h
  exact ⟨rfl, rfl⟩

theorem restoreIlk_changes (h : exec (restoreIlk req) s = (.ok (ok, changes), next)) :
    changes.tenants = [] ∧ changes.purgedTenants = [] := by
  obtain ⟨entry, hentry, -, -, -, rfl⟩ := restoreIlk_ran h
  unfold unmarkIlkUnchecked
  rw [hentry]
  exact ⟨rfl, rfl⟩

theorem purgeIlk_changes (h : exec (purgeIlk req) s = (.ok (ok, changes), next)) :
    changes.tenants = [] ∧ changes.purgedTenants = [] := by
  obtain ⟨-, -, rfl⟩ := purgeIlk_ran h
  exact ⟨rfl, rfl⟩

end

section

theorem runOp_commitTenant {op : Op α} {tenantId : α → String} (href : Refuses op s)
    (hok : ∀ a next, exec op s = (.ok a, next) → TenantStep s.tenantMap now q next.tenantMap) :
    TenantStep s.tenantMap now q
      (runOp s op fun next a => commitTenant s next persisted (tenantId a)).1.tenantMap := by
  refine runOp_rule (P := fun out => TenantStep s.tenantMap now q out.1.tenantMap) ?_ ?_
  · intro e next hx
    rw [href e next hx]
    exact .kept
  · intro a next hx
    dsimp only [commitTenant]
    cases next.tenants.lookup (tenantId a) with
    | none => exact hok a next hx
    | some t =>
      cases persisted with
      | false => exact .kept
      | true => exact hok a next hx

theorem runLifecycleOp_tenantStep (hok : ∀ ok changes next, exec op s = (.ok (ok, changes), next) →
      TenantStep s.tenantMap now q next.tenantMap) :
    TenantStep s.tenantMap now q (runLifecycleOp s persisted op).1.tenantMap :=
  runLifecycleOp_rule (P := fun out => TenantStep s.tenantMap now q out.1.tenantMap) .kept hok

theorem active_of_not_deleted {id : String} (hstored : (s.tenants.lookup id).isSome)
    (hmark : ¬ s.tenantIsDeleted id) : s.tenantMap.Active id := by
  obtain ⟨t, ht⟩ := isSome_iff_exists.mp hstored
  refine ⟨t, ht, ?_⟩
  simpa [tenantIsDeleted, ht] using hmark

theorem checkNewSponsor_ok
    (h : s.checkNewSponsor sponsor = .ok u) : ∀ p ∈ sponsor, s.tenantMap.Active p := by
  cases sponsor with
  | none => simp
  | some p =>
    simp only [checkNewSponsor, checkSponsor, bind_ok, ensure_ok] at h
    obtain ⟨-, -, -, hstored, hmark⟩ := h
    intro p' hp'
    rw [← Option.some.inj hp']
    exact active_of_not_deleted hstored hmark

theorem firstTenant_none {holds : TenantRecord → Bool} (h : s.firstTenant holds = none)
    {id : String} (ht : s.tenants.lookup id = some t) : holds t = false := by
  have hkey : id ∈ sortUnstable s.tenants.keys := by
    rw [sortUnstable, (perm_insertionSort _ _).mem_iff]
    exact AList.mem_keys.mp (lookup_isSome.mp (by rw [ht]; rfl))
  have hmiss := findSome?_eq_none_iff.mp h id hkey
  rw [ht, filter_some, ite_eq_right_iff] at hmiss
  by_contra hholds
  exact absurd (hmiss (by simpa using hholds)) (some_ne_none t)

theorem findTenantByHint_none {name : String}
    (h : s.findTenantByHint name domain = none) (id : String) :
    s.tenantMap.NameFree id name ∧ s.tenantMap.DomainFree id domain := by
  simp only [findTenantByHint, or_eq_none_iff, map_eq_none_iff, bind_eq_none_iff] at h
  obtain ⟨hdomain, hname⟩ := h
  constructor
  · intro j t ht _
    have hmiss := firstTenant_none hname ht
    simpa using hmiss
  · intro d hd j t ht _
    have hmiss := firstTenant_none (hdomain d hd) ht
    simpa using hmiss

theorem createTenant_tenantStep {req : TntCreateRequest} {newTenant : Uuid} {ok : CreateTenantOk}
    (h : exec (createTenant req newTenant) s = (.ok ok, s')) :
    TenantStep s.tenantMap now (.createTenant req newTenant) s'.tenantMap := by
  simp only [createTenant, exec_ok] at h
  obtain ⟨-, -, _, hsponsor, -, -, h⟩ := h
  split at h
  · simp only [exec_ok] at h
    obtain ⟨-, -, -, rfl⟩ := h
    exact .kept
  · rename_i hmiss
    simp only [exec_ok] at h
    obtain ⟨-, rfl⟩ := h
    obtain ⟨hname, hdomain⟩ := findTenantByHint_none hmiss (newTenantId newTenant)
    rw [tenantMap_insert]
    exact .created rfl (checkNewSponsor_ok hsponsor) hname hdomain

theorem sponsorWalk_eq (tenantId : String) (fuel : ℕ) (start : Option String) :
    s.sponsorWalk tenantId fuel start = walk s.tenantMap.sponsorOf tenantId fuel start := by
  induction fuel generalizing start with
  | zero => cases start <;> rfl
  | succ fuel ih =>
    cases start with
    | none => rfl
    | some current =>
      rw [sponsorWalk, walk, ih]
      rfl

theorem validateSponsorAssignment_ok
    (h : s.validateSponsorAssignment tenantId requested = .ok sponsor) :
    ∀ p ∈ sponsor, (s.tenants.lookup p).isSome ∧
      ¬ ReflTransGen (Under s.tenantMap.sponsorOf) p (trim tenantId) := by
  simp only [validateSponsorAssignment, bind_ok] at h
  obtain ⟨-, -, h⟩ := h
  cases hgiven : nonBlank requested with
  | none =>
    simp only [hgiven, pure, Except.pure, Except.ok.injEq] at h
    simp [← h]
  | some p =>
    simp only [hgiven, bind_ok, ensure_ok, orFail_ok, pure, Except.pure, Except.ok.injEq] at h
    obtain ⟨-, -, -, -, -, hstored, found, hwalk, -, hfound, rfl⟩ := h
    intro p' hp'
    rw [← Option.some.inj hp']
    rw [hfound, sponsorWalk_eq] at hwalk
    exact ⟨hstored, not_reaches_of_walk hwalk⟩

theorem parseOptionalSponsorUpdate_ok {requested : Option Json} {update : Option (Option String)}
    (h : s.parseOptionalSponsorUpdate tenantId requested = .ok update) :
    ∀ p ∈ update.join, (s.tenants.lookup p).isSome ∧
      ¬ ReflTransGen (Under s.tenantMap.sponsorOf) p (trim tenantId) := by
  unfold parseOptionalSponsorUpdate at h
  split at h
  · cases h
    simp
  · cases h
    simp
  · simp only [bind_ok, pure, Except.pure, Except.ok.injEq] at h
    obtain ⟨sponsor, hsponsor, rfl⟩ := h
    exact validateSponsorAssignment_ok hsponsor
  · cases h

theorem nameFree_of_checkTenantName (hk : s.Kept)
    {name : Option String} (h : s.checkTenantName current tenantId name = .ok u) :
    normalizeTenantName (name.getD current.name) = normalizeTenantName current.name ∨
      s.tenantMap.NameFree tenantId (name.getD current.name) := by
  cases name with
  | none => exact .inl rfl
  | some name =>
    simp only [checkTenantName, ensure_ok, not_and_or, not_not] at h
    refine h.imp_right ?_
    intro hfree j t ht hj heq
    apply hfree
    rw [anotherTenantHolds, List.any_eq_true]
    refine ⟨t, mem_values.mpr ⟨j, ht⟩, ?_⟩
    have hid : t.tenantId = j := hk.tenantNamed j t ht
    simpa [hid, hj] using heq

theorem normalizeTenantDomain_normalized :
    normalizeTenantDomain (normalizeTenantDomain domain) = normalizeTenantDomain domain := by
  cases domain with
  | none => rfl
  | some d =>
    by_cases hblank : trim d = ""
    · simp [normalizeTenantDomain, nonBlank, filter_some, hblank]
    · have hlower : toAsciiLowercase (trim d) ≠ "" := by
        intro hempty
        have hlist := congrArg String.toList hempty
        simp only [toAsciiLowercase, String.toList_ofList, String.toList_empty,
          map_eq_nil_iff] at hlist
        exact hblank (String.toList_inj.mp hlist)
      have htrim : trim (toAsciiLowercase (trim d)) = toAsciiLowercase (trim d) := by
        rw [trim_toAsciiLowercase, trim_trim]
      have hfirst : normalizeTenantDomain (some d) = some (toAsciiLowercase (trim d)) := by
        simp [normalizeTenantDomain, nonBlank, filter_some, hblank]
      rw [hfirst]
      simp [normalizeTenantDomain, nonBlank, filter_some, htrim, hlower,
        toAsciiLowercase_toAsciiLowercase]

theorem domainFree_of_checkTenantDomain (hk : s.Kept) (h : s.checkTenantDomain current tenantId
      (requested.map fun domain => normalizeTenantDomain (some domain)) = .ok u) :
    let domain := (requested.map fun domain => normalizeTenantDomain (some domain)).getD
      current.domain
    normalizeTenantDomain domain = normalizeTenantDomain current.domain ∨
      s.tenantMap.DomainFree tenantId domain := by
  cases requested with
  | none => exact .inl rfl
  | some requested =>
    simp only [map_some, getD_some] at h ⊢
    rw [normalizeTenantDomain_normalized]
    cases hd : normalizeTenantDomain (some requested) with
    | none =>
      right
      intro d hd'
      cases hd'
    | some d =>
      have hnormal : normalizeTenantDomain (some d) = some d := by
        rw [← hd, normalizeTenantDomain_normalized]
      rw [hd] at h
      simp only [checkTenantDomain, ensure_ok, not_and_or, not_not] at h
      refine h.imp Eq.symm ?_
      intro hfree d' hd' j t ht hj heq
      apply hfree
      rw [anotherTenantHolds, List.any_eq_true]
      refine ⟨t, mem_values.mpr ⟨j, ht⟩, ?_⟩
      have hid : t.tenantId = j := hk.tenantNamed j t ht
      rw [hnormal] at hd'
      rw [← Option.some.inj hd'] at heq
      simp [hid, hj, heq]

theorem updateTenant_tenantStep (hk : s.Kept) {req : TntUpdateRequest} {ok : UpdateTenantOk}
    (h : exec (updateTenant req) s = (.ok ok, s')) : TenantStep s.tenantMap now q s'.tenantMap := by
  simp only [updateTenant, exec_ok] at h
  obtain ⟨-, -, -, -, update, hupdate, -, hmark, current, hcurrent, -, hactive, name, -, status, -,
    _, hname, _, hdomain, -, rfl⟩ := h
  rw [tenantMap_insert]
  refine .updated hcurrent hactive hactive ?_ (nameFree_of_checkTenantName hk hname)
    (domainFree_of_checkTenantDomain hk hdomain)
  cases update with
  | none => exact .inl rfl
  | some sponsor =>
    right
    intro p hp
    obtain ⟨hstored, hapart⟩ := parseOptionalSponsorUpdate_ok hupdate p hp
    rw [trim_trim] at hapart
    exact ⟨active_of_not_deleted hstored (hmark p hp), hapart⟩

theorem approveTenant_tenantStep {approvedBy answer : String}
    (h : exec (approveTenant tenantId approvedBy) s = (.ok answer, s')) :
    TenantStep s.tenantMap now q s'.tenantMap := by
  simp only [approveTenant, exec_ok] at h
  obtain ⟨-, -, -, -, tenant, htenant, -, hactive, -, rfl⟩ := h
  rw [tenantMap_insert]
  exact .updated htenant hactive hactive (.inl rfl) (.inl rfl) (.inl rfl)

theorem tenantRecordForLifecycle_ok (h : s.tenantRecordForLifecycle tenantId = .ok tenant) :
    s.tenants.lookup tenantId = some tenant := by
  simp only [tenantRecordForLifecycle, bind_ok, orFail_ok, pure, Except.pure, Except.ok.injEq] at h
  obtain ⟨-, -, stored, hstored, -, -, rfl⟩ := h
  exact hstored

theorem setTenantMark_tenantMap {mark : Option ℕ} (h : s.tenants.lookup tenantId = some tenant) :
    (s.setTenantMark tenantId mark).1.tenantMap =
      update s.tenantMap tenantId (some { tenant with deletedAtMs := mark }) := by
  simp only [setTenantMark, h]
  exact tenantMap_insert _ _ _

theorem mem_tenantChildren {id : String} {includeDeleted : Bool}
    (ht : s.tenants.lookup id = some t) (hsponsor : t.sponsorTenantId = some tenantId)
    (hmark : includeDeleted = true ∨ t.deletedAtMs = none) :
    s.tenantChildren tenantId includeDeleted ≠ [] := by
  apply ne_nil_of_mem (a := t.tenantId)
  rw [tenantChildren, sortUnstable, (perm_insertionSort _ _).mem_iff]
  apply List.mem_map_of_mem
  rw [mem_filter]
  refine ⟨mem_values.mpr ⟨id, ht⟩, ?_⟩
  simpa [hsponsor] using hmark

theorem deleteTenant_tenantStep (h : exec (deleteTenant tenantId now) s = (.ok (ok, changes), s')) :
    TenantStep s.tenantMap now q s'.tenantMap := by
  obtain ⟨rfl, -⟩ | ⟨tenant, htenant, hchildless, rfl, -⟩ := deleteTenant_ran h
  · exact .kept
  · have hstored := tenantRecordForLifecycle_ok htenant
    rw [setTenantMark_tenantMap hstored]
    refine .marked hstored ?_
    intro j t ht hsponsor hactive
    exact mem_tenantChildren ht hsponsor (.inr hactive) hchildless

theorem restoreTenant_tenantStep (h : exec (restoreTenant tenantId) s = (.ok (ok, changes), s')) :
    TenantStep s.tenantMap now q s'.tenantMap := by
  obtain ⟨tenant, htenant, hsponsor, rfl, -⟩ := restoreTenant_ran h
  have hstored := tenantRecordForLifecycle_ok htenant
  rw [setTenantMark_tenantMap hstored]
  refine .restored hstored ?_
  intro p hp r hr
  have hlook : s.tenants.lookup p = some r := hr
  simpa [tenantIsDeleted, hlook] using hsponsor p hp

theorem purgeTenant_tenantStep (h : exec (purgeTenant tenantId) s = (.ok (ok, changes), s')) :
    TenantStep s.tenantMap now q s'.tenantMap := by
  simp only [purgeTenant, exec_ok] at h
  obtain ⟨tenant, -, -, -, -, hchildless, -, -, -, -, -, -, -, rfl⟩ := h
  have hmap : tenantMap (purgedStore s tenantId) = update s.tenantMap tenantId none := by
    funext j
    simp only [tenantMap, update_apply, purgedStore_tenants]
    exact lookup_erase_eq _ _ _
  have hstep : TenantStep s.tenantMap now q (update s.tenantMap tenantId none) := by
    refine .purged ?_
    intro j t ht hsponsor
    exact mem_tenantChildren ht hsponsor (.inl rfl) hchildless
  rw [← hmap] at hstep
  exact hstep

end

theorem handle_tenantStep (hk : s.Kept) (cfg : Config) (e : Event) :
    TenantStep s.tenantMap e.now e.request (handle cfg s e).1.tenantMap := by
  have hturn := handle_turn hk cfg e
  -- An ILK's request emits no delta of a tenant.
  have hilk : (∀ d ∈ (handle cfg s e).2, ∀ id, ¬ d.OfTenant id) →
      TenantStep s.tenantMap e.now e.request (handle cfg s e).1.tenantMap := by
    intro hdeltas
    rw [hturn.tenantMap_eq hk hdeltas]
    exact .kept
  clear hturn
  unfold handle at hilk ⊢
  cases hq : e.request with
  | createTenant req newTenant =>
    exact runOp_commitTenant createTenant_refuses fun _ _ h => createTenant_tenantStep h
  | updateTenant req | setSponsor tenantId sponsor =>
    exact runOp_commitTenant updateTenant_refuses fun _ _ h => updateTenant_tenantStep hk h
  | approveTenant tenantId approvedBy =>
    exact runOp_commitTenant approveTenant_refuses fun _ _ h => approveTenant_tenantStep h
  | deleteTenant tenantId =>
    exact runLifecycleOp_tenantStep fun _ _ _ h => deleteTenant_tenantStep h
  | restoreTenant tenantId =>
    exact runLifecycleOp_tenantStep fun _ _ _ h => restoreTenant_tenantStep h
  | purgeTenant tenantId =>
    exact runLifecycleOp_tenantStep fun _ _ _ h => purgeTenant_tenantStep h
  | deleteIlk req =>
    rw [hq] at hilk
    exact hilk (runLifecycleOp_ofTenant fun _ _ _ h => deleteIlk_changes h)
  | restoreIlk req =>
    rw [hq] at hilk
    exact hilk (runLifecycleOp_ofTenant fun _ _ _ h => restoreIlk_changes h)
  | purgeIlk req =>
    rw [hq] at hilk
    exact hilk (runLifecycleOp_ofTenant fun _ _ _ h => purgeIlk_changes h)
  | aliasGc =>
    rw [hq] at hilk
    apply hilk
    intro d hd id
    unfold runAliasGc at hd
    split_ifs at hd
    · obtain ⟨old, -, rfl | ⟨r, -, -, rfl⟩⟩ := mem_gcDeltas.mp hd
      · exact not_false
      · exact not_false
    · cases hd
  | provision | register | addChannel | updateIlk | setDefinition | setTenant | setEnabled =>
    rw [hq] at hilk
    exact hilk (runOp_ofTenant fun _ _ => commitIlkChanges_ofTenant)

end Fluxbee.Identity
