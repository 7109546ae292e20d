import Fluxbee.Identity.HivePush
import Fluxbee.Identity.TenantSteps

/-! What holds of the tenants in every store the primary comes to: sponsors are stored, make no
cycle and are not deleted before the tenants they sponsor, and no two tenants have one name or one
domain. -/
namespace Fluxbee.Identity
open Text Fallible IdentityStore Lineage Relation Option Function List TenantRecord TenantMap AList

variable {T T' : TenantMap} {now : ℕ} {q : Request} {s : IdentityStore} {id : String}

theorem sponsorOf_update (T : TenantMap) (id : String) (v : Option TenantRecord) (j : String) :
    sponsorOf (Function.update T id v) j =
      if j = id then v.bind (·.sponsorTenantId) else T.sponsorOf j := by
  unfold sponsorOf
  rw [update_apply]
  split_ifs <;> rfl

/-- Every sponsor is a stored tenant, which is active if the one it sponsors is; and nobody is
their own sponsor, however far up. -/
structure TenantMap.Sponsored (T : TenantMap) : Prop where
  stored : ∀ j t, T j = some t → ∀ p ∈ t.sponsorTenantId,
    ∃ r, T p = some r ∧ (t.deletedAtMs = none → r.deletedAtMs = none)
  acyclic : Acyclic T.sponsorOf

theorem TenantMap.Sponsored.not_reaches_new (h : T.Sponsored) (hnew : T id = none) {p : String}
    (hp : T.Active p) : ¬ ReflTransGen (Under T.sponsorOf) p id := by
  intro hreach
  obtain heq | ⟨x, -, hx⟩ := hreach.cases_tail
  · obtain ⟨t, ht, -⟩ := hp
    rw [← heq, hnew] at ht
    cases ht
  · obtain ⟨t, ht, hsponsor⟩ := bind_eq_some_iff.mp hx
    obtain ⟨r, hr, -⟩ := h.stored x t ht id hsponsor
    rw [hnew] at hr
    cases hr

def FreshTenant (T : TenantMap) : Request → Prop
  | .createTenant _ newTenant => T (newTenantId newTenant) = none
  | _ => True

theorem acyclic_update_same (h : Acyclic T.sponsorOf) {old new : TenantRecord}
    (hstored : T id = some old) (hsponsor : new.sponsorTenantId = old.sponsorTenantId) :
    Acyclic (sponsorOf (Function.update T id (some new))) := by
  apply h.of_fewer
  intro a b hab
  rw [sponsorOf_update] at hab
  split_ifs at hab with ha
  · rw [ha, sponsorOf, hstored]
    exact hsponsor.symm.trans hab
  · exact hab

/-- A new record for the tenant `id`. Its own sponsor and those it sponsors have to be looked at;
the others stay as they are. -/
theorem stored_update {new : TenantRecord} (h : T.Sponsored)
    (hown : ∀ p ∈ new.sponsorTenantId, p ≠ id →
      ∃ r, T p = some r ∧ (new.deletedAtMs = none → r.deletedAtMs = none))
    (hchildren : ∀ j t, T j = some t → t.sponsorTenantId = some id → t.deletedAtMs = none →
      new.deletedAtMs = none) :
    ∀ j t, Function.update T id (some new) j = some t → ∀ p ∈ t.sponsorTenantId,
      ∃ r, Function.update T id (some new) p = some r ∧
        (t.deletedAtMs = none → r.deletedAtMs = none) := by
  intro j t ht p hp
  rw [update_apply] at ht
  have hself : Function.update T id (some new) id = some new := update_self _ _ _
  split_ifs at ht with hj
  · have htn : new = t := Option.some.inj ht
    subst htn
    by_cases hpid : p = id
    · exact ⟨new, by rw [hpid, hself], fun hmark => hmark⟩
    · rw [update_of_ne hpid]
      exact hown p hp hpid
  · by_cases hpid : p = id
    · have hchild : t.sponsorTenantId = some id := by
        rw [← hpid]
        exact hp
      exact ⟨new, by rw [hpid, hself], hchildren j t ht hchild⟩
    · rw [update_of_ne hpid]
      exact h.stored j t ht p hp

theorem TenantStep.sponsored (h : TenantStep T now q T') (hs : T.Sponsored)
    (hfresh : FreshTenant T q) : T'.Sponsored := by
  cases h with
  | kept => exact hs
  | @created req newTenant t active sponsor name domain =>
    have hnew : T (newTenantId newTenant) = none := hfresh
    constructor
    · apply stored_update hs
      · intro p hp _
        obtain ⟨r, hr, hmark⟩ := sponsor p hp
        exact ⟨r, hr, fun _ => hmark⟩
      · intro _ _ _ _ _
        exact active
    · apply hs.acyclic.replace (a := newTenantId newTenant)
      · intro x hx
        rw [sponsorOf_update, if_neg hx]
      · intro p hp
        rw [sponsorOf_update, if_pos rfl] at hp
        exact hs.not_reaches_new hnew (sponsor p hp)
  | @updated q id old new stored active unmarked sponsor name domain =>
    have hchildren : ∀ j t, T j = some t → t.sponsorTenantId = some id →
        t.deletedAtMs = none → new.deletedAtMs = none := fun _ _ _ _ _ => unmarked
    obtain hsame | hchanged := sponsor
    · constructor
      · apply stored_update hs _ hchildren
        intro p hp _
        rw [hsame] at hp
        obtain ⟨r, hr, hmark⟩ := hs.stored id old stored p hp
        exact ⟨r, hr, fun _ => hmark active⟩
      · exact acyclic_update_same hs.acyclic stored hsame
    · constructor
      · apply stored_update hs _ hchildren
        intro p hp _
        obtain ⟨⟨r, hr, hmark⟩, -⟩ := hchanged p hp
        exact ⟨r, hr, fun _ => hmark⟩
      · apply hs.acyclic.replace (a := id)
        · intro x hx
          rw [sponsorOf_update, if_neg hx]
        · intro p hp
          rw [sponsorOf_update, if_pos rfl] at hp
          exact (hchanged p hp).2
  | @marked q id old stored childless =>
    constructor
    · apply stored_update hs
      · intro p hp _
        obtain ⟨r, hr, -⟩ := hs.stored id old stored p hp
        refine ⟨r, hr, fun hmark => ?_⟩
        cases hmark
      · intro j t ht hchild hactive
        exact absurd hactive (childless j t ht hchild)
    · exact acyclic_update_same hs.acyclic stored rfl
  | @restored q id old stored sponsor =>
    constructor
    · apply stored_update hs
      · intro p hp _
        obtain ⟨r, hr, -⟩ := hs.stored id old stored p hp
        exact ⟨r, hr, fun _ => sponsor p hp r hr⟩
      · intro _ _ _ _ _
        rfl
    · exact acyclic_update_same hs.acyclic stored rfl
  | @purged q id childless =>
    constructor
    · intro j t ht p hp
      rw [update_apply] at ht
      split_ifs at ht
      have hpid : p ≠ id := by
        intro heq
        rw [heq] at hp
        exact childless j t ht hp
      rw [update_of_ne hpid]
      exact hs.stored j t ht p hp
    · apply hs.acyclic.of_fewer
      intro a b hab
      rw [sponsorOf_update] at hab
      split_ifs at hab
      · cases hab
      · exact hab

section

variable {V K : Type*} {f : V → Option K} {m : String → Option V}

def KeyedBy (f : V → Option K) (m : String → Option V) : Prop :=
  ∀ i j vi vj k, m i = some vi → m j = some vj → f vi = some k → f vj = some k → i = j

theorem KeyedBy.put (h : KeyedBy f m) {v : V}
    (hfree : ∀ k ∈ f v, ∀ j w, m j = some w → j ≠ id → f w ≠ some k) :
    KeyedBy f (Function.update m id (some v)) := by
  intro i j vi vj k hi hj hki hkj
  rw [update_apply] at hi hj
  by_cases hii : i = id
  · by_cases hji : j = id
    · rw [hii, hji]
    · rw [if_pos hii] at hi
      rw [if_neg hji] at hj
      rw [← Option.some.inj hi] at hki
      exact absurd hkj (hfree k hki j vj hj hji)
  · rw [if_neg hii] at hi
    split_ifs at hj with hji
    · rw [← Option.some.inj hj] at hkj
      exact absurd hki (hfree k hkj i vi hi hii)
    · exact h i j vi vj k hi hj hki hkj

theorem KeyedBy.put_same (h : KeyedBy f m) {old v : V} (hold : m id = some old)
    (hsame : f v = f old) : KeyedBy f (Function.update m id (some v)) := by
  apply h.put
  intro k hk j w hj hne hkw
  have hkold : f old = some k := by
    rw [← hsame]
    exact hk
  exact hne (h j id w old k hj hold hkw hkold)

theorem KeyedBy.remove (h : KeyedBy f m) : KeyedBy f (Function.update m id none) := by
  intro i j vi vj k hi hj
  rw [update_apply] at hi hj
  split_ifs at hi hj
  exact h i j vi vj k hi hj

end

def TenantRecord.nameKey (t : TenantRecord) : Option String := some (normalizeTenantName t.name)

def TenantRecord.domainKey (t : TenantRecord) : Option String := normalizeTenantDomain t.domain

theorem TenantStep.keyed_name (h : TenantStep T now q T') (hs : KeyedBy nameKey T) :
    KeyedBy nameKey T' := by
  have hput : ∀ id (t : TenantRecord), T.NameFree id t.name →
      KeyedBy nameKey (Function.update T id (some t)) := by
    intro id t hfree
    apply hs.put
    intro k hk j w hj hne hkw
    exact hfree j w hj hne (Option.some.inj (hkw.trans (mem_def.mp hk).symm))
  cases h with
  | kept => exact hs
  | created active sponsor name domain => exact hput _ _ name
  | updated stored active unmarked sponsor name domain =>
    obtain hsame | hfree := name
    · exact hs.put_same stored (congrArg some hsame)
    · exact hput _ _ hfree
  | marked stored childless | restored stored sponsor => exact hs.put_same stored rfl
  | purged childless => exact hs.remove

theorem TenantStep.keyed_domain (h : TenantStep T now q T')
    (hs : KeyedBy domainKey T) : KeyedBy domainKey T' := by
  cases h with
  | kept => exact hs
  | created active sponsor name domain => exact hs.put domain
  | updated stored active unmarked sponsor name domain =>
    obtain hsame | hfree := domain
    · exact hs.put_same stored hsame
    · exact hs.put hfree
  | marked stored childless | restored stored sponsor => exact hs.put_same stored rfl
  | purged childless => exact hs.remove

section

variable {cfg : Config} {systemIlkId : String → String} {primaryHive : String}
  {okRequest : IdentityStore → Event → Prop} {okFrame : IdentityStore → IngestFrame → Prop}

/-- The rule of invariants of the tenants: a hive's frame leaves them alone, and so does another
order of the maps. -/
theorem Reaches.tenant_invariant {P : TenantMap → Prop} (hempty : P IdentityStore.empty.tenantMap)
    (hdefault : P IdentityStore.withDefaultTenant.tenantMap)
    (hstep : ∀ s e T', s.Kept → okRequest s e → P s.tenantMap →
      TenantStep s.tenantMap e.now e.request T' → P T')
    (h : Reaches (Serves cfg systemIlkId primaryHive okRequest okFrame) s) : P s.tenantMap := by
  have hboth : s.Kept ∧ P s.tenantMap := by
    refine Reaches.invariant (P := fun s => s.Kept ∧ P s.tenantMap) ⟨kept_empty, hempty⟩
      ⟨kept_withDefaultTenant, hdefault⟩ ?_ ?_ h
    · intro s t hre hs
      have hmap : t.tenantMap = s.tenantMap := funext hre.lookup_tenants
      rw [hmap]
      exact ⟨hs.1.reorder hre, hs.2⟩
    · intro s s' hs hserve
      cases hserve with
      | request e hok =>
        have hkept := (handle_turn hs.1 cfg e).kept hs.1
        exact ⟨hkept, hstep s e _ hs.1 hok hs.2 (handle_tenantStep hs.1 cfg e)⟩
      | frame f hok =>
        obtain ⟨hiso, hkept, -⟩ := ingest_isolates systemIlkId primaryHive hs.1
          (rfl : f.publisherHive = f.publisherHive)
        have hmap : (ingest systemIlkId primaryHive s f).1.tenantMap = s.tenantMap := by
          unfold tenantMap
          rw [hiso.tenants]
        rw [hmap]
        exact ⟨hkept, hs.2⟩
  exact hboth.2

theorem withDefaultTenant_lookup {j : String} {t : TenantRecord}
    (h : IdentityStore.withDefaultTenant.tenantMap j = some t) :
    j = defaultRootTenantId ∧ t = rootTenant := by
  have hroot : IdentityStore.withDefaultTenant.tenants =
      insert defaultRootTenantId rootTenant ∅ := rfl
  rw [tenantMap, hroot, lookup_insert_eq] at h
  split_ifs at h with hj
  · exact ⟨hj, (Option.some.inj h).symm⟩
  · cases h

theorem Reaches.sponsored
    (h : Reaches (Serves cfg systemIlkId primaryHive (fun s e => FreshTenant s.tenantMap e.request)
      okFrame) s) : s.tenantMap.Sponsored := by
  -- No tenant of the first stores has a sponsor.
  have hbare : ∀ T : TenantMap, (∀ j t, T j = some t → t.sponsorTenantId = none) → T.Sponsored := by
    intro T hnone
    constructor
    · intro j t ht p hp
      rw [hnone j t ht] at hp
      cases hp
    · intro a hcycle
      obtain ⟨b, hab, -⟩ := TransGen.head'_iff.mp hcycle
      obtain ⟨t, ht, hsponsor⟩ := bind_eq_some_iff.mp hab
      rw [hnone a t ht] at hsponsor
      cases hsponsor
  refine h.tenant_invariant (hbare _ ?_) (hbare _ ?_) ?_
  · intro j t ht
    simp [tenantMap, IdentityStore.empty] at ht
  · intro j t ht
    rw [(withDefaultTenant_lookup ht).2]
    rfl
  · intro s e T' _ hfresh hs hstep
    exact hstep.sponsored hs hfresh

theorem parsePrefixedUuid_ne_hang {value front : String} :
    parsePrefixedUuid value front ≠ .error .hang := by
  unfold parsePrefixedUuid
  split
  · simp
  · split_ifs <;> simp

theorem validateSponsorAssignment_ne_hang (h : s.tenantMap.Sponsored) (tenantId : String)
    (sponsor : Option String) : s.validateSponsorAssignment tenantId sponsor ≠ .error .hang := by
  have hwalk : ∀ p, s.sponsorWalk (trim tenantId) (s.tenants.entries.length + 1) (some p) ≠ none := by
    intro p
    rw [sponsorWalk_eq]
    apply walk_ends h.acyclic s.tenants.keys.toFinset
    · intro a b hab
      obtain ⟨t, ht, -⟩ := bind_eq_some_iff.mp hab
      rw [List.mem_toFinset]
      have hlook : s.tenants.lookup a = some t := ht
      exact mem_keys.mp (lookup_isSome.mp (by rw [hlook]; rfl))
    · have hle := s.tenants.keys.toFinset_card_le
      have hkeys : s.tenants.keys.length = s.tenants.entries.length := length_map _
      omega
  intro hang
  simp only [validateSponsorAssignment, bind_error] at hang
  obtain hparse | ⟨-, -, hang⟩ := hang
  · exact parsePrefixedUuid_ne_hang hparse
  · cases hgiven : nonBlank sponsor with
    | none =>
      rw [hgiven] at hang
      cases hang
    | some p =>
      simp only [hgiven, bind_error, ensure_error, orFail_error, reduceCtorEq, and_false, false_or,
        and_true] at hang
      obtain hparse | ⟨-, -, -, -, -, -, hnone | ⟨-, -, -, -, ⟨⟩⟩⟩ := hang
      · exact parsePrefixedUuid_ne_hang hparse
      · exact hwalk p hnone

/-- In every store the primary comes to, the ids of new tenants being unused: a tenant's sponsor is
stored, and is not deleted while the tenant is active; no chain of sponsors comes back to where it
started; and the check of a new sponsor always ends. -/
theorem sponsors_wellFounded
    (h : Reaches (Serves cfg systemIlkId primaryHive (fun s e => FreshTenant s.tenantMap e.request)
      okFrame) s) :
    (∀ id t, s.tenants.lookup id = some t → ∀ p ∈ t.sponsorTenantId,
      (s.tenants.lookup p).isSome ∧ (t.deletedAtMs = none → ¬ s.tenantIsDeleted p)) ∧
      (∀ id, ¬ TransGen (fun a b => ∃ t, s.tenants.lookup a = some t ∧ t.sponsorTenantId = some b)
        id id) ∧
      ∀ tenantId sponsor, s.validateSponsorAssignment tenantId sponsor ≠ .error .hang := by
  have hs := h.sponsored
  refine ⟨?_, ?_, validateSponsorAssignment_ne_hang hs⟩
  · intro id t ht p hp
    obtain ⟨r, hr, hmark⟩ := hs.stored id t ht p hp
    have hlook : s.tenants.lookup p = some r := hr
    constructor
    · rw [hlook]
      rfl
    · intro hactive
      simp [tenantIsDeleted, hlook, hmark hactive]
  · intro id hcycle
    apply hs.acyclic id
    apply TransGen.mono _ id id hcycle
    intro a b hab
    exact bind_eq_some_iff.mpr hab

theorem Reaches.keyed (h : Reaches (Serves cfg systemIlkId primaryHive okRequest okFrame) s) :
    KeyedBy nameKey s.tenantMap ∧ KeyedBy domainKey s.tenantMap := by
  -- The first stores have one tenant at most.
  have hempty : ∀ f : TenantRecord → Option String, KeyedBy f IdentityStore.empty.tenantMap := by
    intro f i j vi vj k hi
    simp [tenantMap, IdentityStore.empty] at hi
  have hdefault : ∀ f : TenantRecord → Option String,
      KeyedBy f IdentityStore.withDefaultTenant.tenantMap := by
    intro f i j vi vj k hi hj _ _
    rw [(withDefaultTenant_lookup hi).1, (withDefaultTenant_lookup hj).1]
  constructor
  · exact h.tenant_invariant (hempty _) (hdefault _) fun _ _ _ _ _ hs hstep => hstep.keyed_name hs
  · exact h.tenant_invariant (hempty _) (hdefault _) fun _ _ _ _ _ hs hstep => hstep.keyed_domain hs

theorem firstTenant_of_unique {holds : TenantRecord → Bool} {t : TenantRecord}
    (ht : s.tenants.lookup id = some t) (hholds : holds t = true)
    (hunique : ∀ j r, s.tenants.lookup j = some r → holds r = true → j = id) :
    s.firstTenant holds = some t := by
  cases hfirst : s.firstTenant holds with
  | none =>
    have hmiss := firstTenant_none hfirst ht
    rw [hholds] at hmiss
    cases hmiss
  | some r =>
    obtain ⟨j, -, hj⟩ := exists_of_findSome?_eq_some hfirst
    obtain ⟨hlook, hr⟩ := filter_eq_some_iff.mp hj
    have hjid := hunique j r hlook hr
    rw [hjid, ht] at hlook
    rw [Option.some.inj hlook]

/-- In every store the primary comes to, two tenants, deleted or not, differ in their normalized
names and domains; so a hint finds the tenant with its domain, whichever that is, and where no
tenant has its domain, the tenant with its name. -/
theorem tenant_keys_unique (h : Reaches (Serves cfg systemIlkId primaryHive okRequest okFrame) s) :
    (∀ i j ti tj, s.tenants.lookup i = some ti → s.tenants.lookup j = some tj →
      normalizeTenantName ti.name = normalizeTenantName tj.name → i = j) ∧
      (∀ i j ti tj d, s.tenants.lookup i = some ti → s.tenants.lookup j = some tj →
        normalizeTenantDomain ti.domain = some d → normalizeTenantDomain tj.domain = some d →
        i = j) ∧
      ∀ name domain id t, s.tenants.lookup id = some t →
        ((∃ d ∈ normalizeTenantDomain domain, normalizeTenantDomain t.domain = some d) →
          s.findTenantByHint name domain = some (t, .domain)) ∧
        ((∀ d ∈ normalizeTenantDomain domain, ∀ j r, s.tenants.lookup j = some r →
            normalizeTenantDomain r.domain ≠ some d) →
          normalizeTenantName t.name = normalizeTenantName name →
          s.findTenantByHint name domain = some (t, .name)) := by
  obtain ⟨hname, hdomain⟩ := h.keyed
  refine ⟨?_, hdomain, ?_⟩
  · intro i j ti tj hi hj heq
    exact hname i j ti tj _ hi hj rfl (congrArg some heq.symm)
  · intro name domain id t ht
    constructor
    · intro ⟨d, hd, htd⟩
      have hfirst : s.firstTenant (fun t => normalizeTenantDomain t.domain == some d) = some t := by
        apply firstTenant_of_unique ht
        · simp [htd]
        · intro j r hr hrd
          have heq : normalizeTenantDomain r.domain = some d := by simpa using hrd
          exact hdomain j id r t d hr ht heq htd
      simp [findTenantByHint, mem_def.mp hd, hfirst]
    · intro hnone htn
      have hmiss : ((normalizeTenantDomain domain).bind fun expected =>
          s.firstTenant fun t => normalizeTenantDomain t.domain == some expected) = none := by
        rw [bind_eq_none_iff]
        intro d hd
        cases hfirst : s.firstTenant (fun t => normalizeTenantDomain t.domain == some d) with
        | none => rfl
        | some r =>
          obtain ⟨j, -, hj⟩ := exists_of_findSome?_eq_some hfirst
          obtain ⟨hlook, hr⟩ := filter_eq_some_iff.mp hj
          exact absurd (by simpa using hr) (hnone d hd j r hlook)
      have hfirst : s.firstTenant (fun t => normalizeTenantName t.name == normalizeTenantName name) =
          some t := by
        apply firstTenant_of_unique ht
        · simp [htn]
        · intro j r hr hrn
          have heq : normalizeTenantName r.name = normalizeTenantName name := by simpa using hrn
          exact hname j id r t _ hr ht rfl (congrArg some (htn.trans heq.symm))
      simp [findTenantByHint, hmiss, hfirst]

end

namespace Guild

def newTenant : Uuid := .uniform 2

def create : Event :=
  ⟨.createTenant ⟨" Acme ", some "ACME.example", none, none, some defaultRootTenantId⟩ newTenant, 0,
    true⟩

def store : IdentityStore := (handle hourConfig .withDefaultTenant create).1

theorem store_holds : (store.tenants.lookup (newTenantId newTenant)).map
        (fun t => (t.name, t.domain, t.sponsorTenantId)) =
      some ("Acme", some "ACME.example", some defaultRootTenantId) := by
  decide +kernel

theorem unused : FreshTenant IdentityStore.withDefaultTenant.tenantMap create.request := by
  show IdentityStore.withDefaultTenant.tenants.lookup (newTenantId newTenant) = none
  decide +kernel

end Guild

open Guild

/-- The root tenant sponsors a new one, and the new one cannot be its sponsor in turn. -/
theorem sponsor_of_created_tenant :
    (Guild.store.tenants.lookup (newTenantId Guild.newTenant)).map (·.sponsorTenantId) =
        some (some defaultRootTenantId) ∧
      (Guild.store.tenants.lookup defaultRootTenantId).isSome ∧
      Guild.store.validateSponsorAssignment defaultRootTenantId
        (some (newTenantId Guild.newTenant)) ≠ .error .hang := by
  have hrun : Reaches (Serves hourConfig id "motherbee"
      (fun s e => FreshTenant s.tenantMap e.request) fun _ _ => True) store :=
    Reaches.withDefaultTenant.step (.refl _) (.request _ unused)
  obtain ⟨t, ht, hfields⟩ := map_eq_some_iff.mp store_holds
  have hsponsor : t.sponsorTenantId = some defaultRootTenantId :=
    congrArg (fun fields => fields.2.2) hfields
  obtain ⟨hstored, -, hends⟩ := sponsors_wellFounded hrun
  refine ⟨?_, (hstored _ t ht _ hsponsor).1, hends _ _⟩
  rw [ht, map_some, hsponsor]

/-- A hint in another case finds the tenant by its domain, whatever the name. -/
theorem hint_finds_created_tenant :
    (Guild.store.findTenantByHint "other" (some " acme.EXAMPLE ")).map (fun found => found.1.name) =
      some "Acme" := by
  have hrun : Reaches (Serves hourConfig id "motherbee" (fun _ _ => True) fun _ _ => True)
      store := Reaches.withDefaultTenant.step (.refl _) (.request _ trivial)
  obtain ⟨t, ht, hfields⟩ := map_eq_some_iff.mp store_holds
  have hname : t.name = "Acme" := congrArg Prod.fst hfields
  have hdomain : t.domain = some "ACME.example" := congrArg (fun fields => fields.2.1) hfields
  have hmatch : ∃ d ∈ normalizeTenantDomain (some " acme.EXAMPLE "),
      normalizeTenantDomain t.domain = some d := by
    rw [hdomain]
    exact ⟨"acme.example", by decide +kernel, by decide +kernel⟩
  have hfound := ((tenant_keys_unique hrun).2.2 "other" _ _ t ht).1 hmatch
  rw [hfound, map_some, hname]

end Fluxbee.Identity
