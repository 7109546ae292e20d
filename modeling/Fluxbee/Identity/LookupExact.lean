import Fluxbee.Identity.Runs

/-! The channel lookup is exact: along every run of safe requests it maps a key to an ILK just
where that ILK is active and holds the key. -/
namespace Fluxbee.Identity
open Text Fallible ReverseIndex IdentityStore List AList Option

variable {s s' : IdentityStore} {now : ℕ} {q : Request} {deltas : List IdentityDelta}

/-- A channel id is canonical and belongs to one channel of one ILK. -/
structure IdentityStore.IchsUnique (s : IdentityStore) : Prop where
  canonical : ∀ id r, s.ilks.lookup id = some r → ∀ c ∈ r.channels,
    isCanonicalId c.ichId "ich" = true
  distinct : ∀ id r, s.ilks.lookup id = some r → (r.channels.map (·.ichId)).Nodup
  apart : ∀ i j ri rj, s.ilks.lookup i = some ri → s.ilks.lookup j = some rj →
    ∀ c ∈ ri.channels, ∀ d ∈ rj.channels, c.ichId = d.ichId → i = j

variable {c : ChannelRecord} {r : IlkRecord} {d : ChannelRecord} {j : String} {entry : IlkRecord}

theorem eq_of_ichId {channels : List ChannelRecord} (h : (channels.map (·.ichId)).Nodup)
    (hc : c ∈ channels) (hd : d ∈ channels) (heq : c.ichId = d.ichId) :
    c = d := inj_on_of_nodup_map h hc hd heq

theorem IdentityStore.IchsUnique.shrink (h : s.IchsUnique)
    (hshrink : ∀ id r', s'.ilks.lookup id = some r' → r'.channels = [] ∨
      ∃ r, s.ilks.lookup id = some r ∧
        (r'.channels.map (·.ichId)).Sublist (r.channels.map (·.ichId))) : s'.IchsUnique := by
  have hfrom : ∀ id r', s'.ilks.lookup id = some r' → ∀ c ∈ r'.channels,
      ∃ r, s.ilks.lookup id = some r ∧ ∃ d ∈ r.channels, d.ichId = c.ichId := by
    intro id r' hr' c hc
    rcases hshrink id r' hr' with hnil | ⟨r, hr, hsub⟩
    · rw [hnil] at hc
      cases hc
    · obtain ⟨d, hd, hdc⟩ := List.mem_map.mp (hsub.subset (List.mem_map_of_mem hc))
      exact ⟨r, hr, d, hd, hdc⟩
  constructor
  · intro id r' hr' c hc
    obtain ⟨r, hr, d, hd, hdc⟩ := hfrom id r' hr' c hc
    rw [← hdc]
    exact h.canonical id r hr d hd
  · intro id r' hr'
    rcases hshrink id r' hr' with hnil | ⟨r, hr, hsub⟩
    · simp [hnil]
    · exact (h.distinct id r hr).sublist hsub
  · intro i j ri' rj' hri' hrj' c hc d hd heq
    obtain ⟨ri, hri, c₀, hc₀, hcc⟩ := hfrom i ri' hri' c hc
    obtain ⟨rj, hrj, d₀, hd₀, hdd⟩ := hfrom j rj' hrj' d hd
    exact h.apart i j ri rj hri hrj c₀ hc₀ d₀ hd₀ (hcc.trans (heq.trans hdd.symm))

theorem IdentityStore.IchsUnique.put {id : String} {next : IlkRecord} (hu : s.IchsUnique)
    (hnext : s'.ilks.lookup id = some next)
    (hcanonical : ∀ c ∈ next.channels, isCanonicalId c.ichId "ich" = true)
    (hdistinct : (next.channels.map (·.ichId)).Nodup)
    (hother : ∀ j r, j ≠ id → s'.ilks.lookup j = some r → ∀ d ∈ r.channels,
      s.ilks.lookup j = some r ∧ ∀ c ∈ next.channels, c.ichId ≠ d.ichId) : s'.IchsUnique := by
  have hself {r : IlkRecord} (hr : s'.ilks.lookup id = some r) : r = next :=
    Option.some.inj (hr.symm.trans hnext)
  constructor
  · intro j r hr c hc
    by_cases hj : j = id
    · subst hj
      exact hcanonical c (hself hr ▸ hc)
    · exact hu.canonical j r (hother j r hj hr c hc).1 c hc
  · intro j r hr
    by_cases hj : j = id
    · subst hj
      exact hself hr ▸ hdistinct
    · cases hch : r.channels with
      | nil => simp
      | cons c rest =>
        rw [← hch]
        exact hu.distinct j r (hother j r hj hr c (hch ▸ mem_cons_self)).1
  · intro i j ri rj hri hrj c hc d hd heq
    by_cases hi : i = id
    · by_cases hj : j = id
      · rw [hi, hj]
      · subst hi
        exact absurd heq ((hother j rj hj hrj d hd).2 c (hself hri ▸ hc))
    · obtain ⟨hri₀, hne⟩ := hother i ri hi hri c hc
      by_cases hj : j = id
      · subst hj
        exact absurd heq.symm (hne d (hself hrj ▸ hd))
      · exact hu.apart i j ri rj hri₀ (hother j rj hj hrj d hd).1 c hc d hd heq

theorem eqIgnoreAsciiCase_ich {a b : String} (ha : isCanonicalId a "ich" = true)
    (hb : isCanonicalId b "ich" = true) : eqIgnoreAsciiCase (trim a) (trim b) = true ↔ a = b := by
  have hpa := plain_of_isCanonicalId (by decide) ha
  have hpb := plain_of_isCanonicalId (by decide) hb
  rw [eqIgnoreAsciiCase, trim_of_plain hpa, trim_of_plain hpb, toAsciiLowercase_of_plain hpa,
    toAsciiLowercase_of_plain hpb, beq_iff_eq]

theorem IdentityStore.IchsUnique.mem_of_free (h : s.IchsUnique) (hk : s.Kept) {ichId : String}
    (hich : isCanonicalId ichId "ich" = true) {allowed : List String}
    (hfree : s.checkIchIdFree ichId allowed = .ok ())
    (hr : s.ilks.lookup j = some r) (hc : c ∈ r.channels)
    (hid : c.ichId = ichId) : j ∈ allowed := by
  unfold checkIchIdFree at hfree
  split at hfree
  · rename_i found hfound
    obtain ⟨i, hi⟩ := mem_values.mp (mem_of_find?_eq_some hfound)
    have hany := find?_some hfound
    obtain ⟨d, hd, hmatch⟩ := List.any_eq_true.mp hany
    have hdid := (eqIgnoreAsciiCase_ich (h.canonical i found hi d hd) hich).mp hmatch
    have hij := h.apart i j found r hi hr d hd c hc (hdid.trans hid.symm)
    have hnamed := hk.named i found hi
    rw [ensure_ok, hnamed, hij] at hfree
    exact hfree
  · rename_i hnone
    have hno := find?_eq_none.mp hnone r (mem_values_ilks hr)
    refine absurd (List.any_eq_true.mpr ⟨c, hc, ?_⟩) hno
    rw [eqIgnoreAsciiCase_ich (h.canonical j r hr c hc) hich]
    exact hid

section

variable {id : String} {old next : IlkRecord} {new moved : List ChannelRecord}
  {sources : List String}

section
variable (h : Absorbs s s' id old next new moved sources)
include h

theorem Absorbs.channel_cases (hc : c ∈ next.channels) :
    c ∈ new ∨ ∃ j ∈ id :: sources, ∃ r, s.ilks.lookup j = some r ∧ c ∈ r.channels := by
  rw [h.channels] at hc
  rcases mem_of_mem_pushMissing hc with hc | hc
  · exact .inr ⟨id, mem_cons_self, old, h.stored, hc⟩
  · rcases mem_append.mp hc with hc | hc
    · exact .inl hc
    · obtain ⟨j, hj, r, hr, hcr⟩ := h.movedFrom c hc
      exact .inr ⟨j, mem_cons_of_mem _ hj, r, hr, hcr⟩

theorem Absorbs.ichId_ne (hk : s.Kept) (hu : s.IchsUnique) (hc : c ∈ next.channels)
    (hj : j ∉ id :: sources) (hr : s.ilks.lookup j = some r)
    (hd : d ∈ r.channels) : c.ichId ≠ d.ichId := by
  intro heq
  rcases h.channel_cases hc with hnew | ⟨i, hi, ri, hri, hci⟩
  · exact hj (hu.mem_of_free hk (h.ichIds c hnew) (h.ichFree c hnew) hr hd heq.symm)
  · exact hj (hu.apart i j ri r hri hr c hci d hd heq ▸ hi)

theorem Absorbs.lookup_other (hj : j ≠ id) (hr : s'.ilks.lookup j = some r)
    (hc : c ∈ r.channels) : j ∉ id :: sources ∧ s.ilks.lookup j = some r := by
  have hkey : channelKey c r.tenantId ∈ r.keys := IlkRecord.mem_keys.mpr ⟨c, hc, rfl⟩
  obtain ⟨hsource, hr₀⟩ := h.other hj hr hkey
  exact ⟨by simp [hj, hsource], hr₀⟩

section
variable (hk : s.Kept) (hu : s.IchsUnique)
include hk hu

theorem Absorbs.ichsUnique : s'.IchsUnique := by
  have hnext : s'.ilks.lookup id = some next := by rw [h.ilks, if_pos rfl]
  refine hu.put hnext ?_ ?_ ?_
  · intro c hc
    rcases h.channel_cases hc with hnew | ⟨i, -, ri, hri, hci⟩
    · exact h.ichIds c hnew
    · exact hu.canonical i ri hri c hci
  · rw [h.channels]
    exact nodup_pushMissing _ (hu.distinct _ _ h.stored)
  · intro j r hj hr d hd
    obtain ⟨hout, hr₀⟩ := h.lookup_other hj hr hd
    exact ⟨hr₀, fun c hc => h.ichId_ne hk hu hc hout hr₀ hd⟩

theorem Absorbs.key_held (hreuse : NoReuse old.channels new moved) {k : IchKey}
    (hkey : k ∈ (new ++ moved).map (·.key)) : k ∈ next.keys := by
  obtain ⟨c, hc, rfl⟩ := List.mem_map.mp hkey
  obtain ⟨d, hd, hid⟩ := exists_mem_pushMissing old.channels hc
  refine (h.tidy hk).mem_keys.mpr ⟨d, h.channels ▸ hd, ?_⟩
  rcases mem_append.mp hc with hnew | hmoved
  · refine hreuse c hnew d ?_ hid
    rw [append_assoc, mem_append]
    exact mem_of_mem_pushMissing hd
  · obtain ⟨i, hi, ri, hri, hci⟩ := h.movedFrom c hmoved
    rcases mem_of_mem_pushMissing hd with hdold | hdin
    · -- The one that absorbs held this id before, and so did a source: they would be the same.
      have hij := hu.apart id i old ri h.stored hri d hdold c hci hid
      exact absurd hij.symm (h.sourced i hi).1
    · rcases mem_append.mp hdin with hdnew | hdmoved
      · refine (hreuse d hdnew c ?_ hid.symm).symm
        exact mem_append_right _ hmoved
      · obtain ⟨j, hj, rj, hrj, hdj⟩ := h.movedFrom d hdmoved
        have hij := hu.apart j i rj ri hrj hri d hdj c hci hid
        subst hij
        rw [hri] at hrj
        cases hrj
        rw [eq_of_ichId (hu.distinct _ _ hri) hdj hci hid]

theorem Absorbs.pointed (hp : s.Pointed) (hreuse : NoReuse old.channels new moved) :
    s'.Pointed := by
  have hnext : s'.ilks.lookup id = some next := by rw [h.ilks, if_pos rfl]
  refine hp.absorb id (fun k => k ∈ (new ++ moved).map (·.key)) ?_ ?_ ?_ ?_
  · intro k hkey
    rw [h.resolve, if_pos hkey]
  · intro k hkey
    rw [h.resolve, if_neg hkey]
  · rintro k (⟨r, hr, -, hkey⟩ | hkey)
    · rw [h.stored] at hr
      cases hr
      obtain ⟨c, hc, rfl⟩ := (hk.tidy _ _ h.stored).mem_keys.mp hkey
      have hcnext : c ∈ next.channels := by
        rw [h.channels]
        exact mem_pushMissing_of_held _ hc
      exact ⟨next, hnext, h.deletedAtMs, (h.tidy hk).mem_keys.mpr ⟨c, hcnext, rfl⟩⟩
    · exact ⟨next, hnext, h.deletedAtMs, h.key_held hk hu hreuse hkey⟩
  · rintro j k hj ⟨r, hr, hact, hkey⟩ hout
    have hsource : j ∉ sources := by
      intro hin
      obtain ⟨-, r', hr', -, hall⟩ := h.sourced j hin
      rw [hr] at hr'
      cases hr'
      obtain ⟨c, hc, rfl⟩ := (hk.tidy _ _ hr).mem_keys.mp hkey
      exact hout (List.mem_map_of_mem (mem_append_right _ (hall c hc)))
    refine ⟨r, ?_, hact, hkey⟩
    rw [h.ilks, if_neg hj, hr]
    simp [hsource]

end

end

end

theorem ichsUnique_provision (hu : s.IchsUnique) (hk : s.Kept) {id : String} (r : IlkRecord)
    (c : ChannelRecord) (hr : r.channels = [c]) (hich : isCanonicalId c.ichId "ich" = true)
    (hfree : s.checkIchIdFree c.ichId [] = .ok ()) (lookup : AList fun _ : IchKey => String) :
    ({ s with ichLookup := lookup, ilks := s.ilks.insert id r } : IdentityStore).IchsUnique := by
  refine hu.put (lookup_insert _) ?_ ?_ ?_
  · intro d hd
    rw [hr, mem_singleton] at hd
    rw [hd]
    exact hich
  · simp [hr]
  · intro j r' hj hr' d hd
    have hr₀ : s.ilks.lookup j = some r' := (lookup_insert_ne hj).symm.trans hr'
    refine ⟨hr₀, ?_⟩
    intro e he heq
    rw [hr, mem_singleton] at he
    rw [he] at heq
    exact absurd (hu.mem_of_free hk hich hfree hr₀ hd heq.symm) not_mem_nil

theorem Turn.ichsUnique (h : Turn s now q s' deltas) (hk : s.Kept) (hu : s.IchsUnique) :
    s'.IchsUnique := by
  cases h with
  | same | tenantPut | tenantKept => exact ⟨hu.canonical, hu.distinct, hu.apart⟩
  | @retouch q id old new stored h =>
    refine hu.shrink ?_
    intro j r hr
    rw [lookup_insert_eq] at hr
    split_ifs at hr with hj
    · cases hr
      refine .inr ⟨old, hj ▸ stored, ?_⟩
      have hids := congrArg (List.map Prod.fst) h.places
      simp only [List.map_map] at hids
      exact hids ▸ List.Sublist.refl _
    · exact .inr ⟨r, hr, List.Sublist.refl _⟩
  | @provision req caller newIlk ilkType tenantId scope ich tenant inScope missed unreserved free =>
    exact ichsUnique_provision hu hk (provisioned req newIlk ilkType tenantId scope)
      ⟨req.ichId, req.channelType, req.address, none, false, scope⟩ rfl ich free _
  | @registerNew q r absent tenant bare =>
    refine hu.shrink ?_
    intro j r' hr'
    rw [lookup_insert_eq] at hr'
    split_ifs at hr' with hj
    · cases hr'
      exact .inl bare
    · exact .inr ⟨r', hr', List.Sublist.refl _⟩
  | attach h | merge h => exact h.ichsUnique hk hu
  | @mark q id old stored =>
    refine hu.shrink ?_
    intro j r hr
    rw [lookup_insert_eq] at hr
    split_ifs at hr with hj
    · cases hr
      exact .inr ⟨old, hj ▸ stored, List.Sublist.refl _⟩
    · exact .inr ⟨r, hr, List.Sublist.refl _⟩
  | @restore req entry stored marked restorable =>
    obtain ⟨-, -, hother, r', hr', hres⟩ := unmarkIlkUnchecked_rescopes stored
    refine hu.shrink ?_
    intro j r hr
    by_cases hj : j = req.ilkId
    · subst hj
      rw [hr'] at hr
      cases hr
      exact .inr ⟨entry, stored, hres.ichIds ▸ List.Sublist.refl _⟩
    · exact .inr ⟨r, (hother j hj) ▸ hr, List.Sublist.refl _⟩
  | @purgeIlk q id entry stored =>
    refine hu.shrink ?_
    intro j r hr
    rw [removeIlkPhysically_lookup] at hr
    split_ifs at hr
    exact .inr ⟨r, hr, List.Sublist.refl _⟩
  | @purgeTenant tenantId =>
    refine hu.shrink ?_
    intro j r hr
    rw [purgedStore_lookup hk] at hr
    split_ifs at hr
    obtain ⟨r₀, hr₀, rfl⟩ := map_eq_some_iff.mp hr
    exact .inr ⟨r₀, hr₀, filter_sublist.map _⟩
  | gc =>
    refine hu.shrink ?_
    intro j r hr
    rw [gcExpiredAliases_lookup] at hr
    split_ifs at hr
    · obtain ⟨r₀, hr₀, rfl⟩ := map_eq_some_iff.mp hr
      refine .inr ⟨r₀, hr₀, ?_⟩
      unfold markExpired
      split_ifs <;> exact List.Sublist.refl _
    · exact .inr ⟨r, hr, List.Sublist.refl _⟩

def FreshIlk (s : IdentityStore) : Request → Prop
  | .provision _ _ newIlk => s.ilks.lookup (newIlkId newIlk) = none
  | _ => True

theorem Pointed.congr (hp : s.Pointed) (hres : ∀ k, s'.resolve k = s.resolve k)
    (hheld : ∀ j k, s.HoldsActive j k → s'.HoldsActive j k) : s'.Pointed := by
  intro j k hj
  rw [hres] at hj
  exact hheld j k (hp j k hj)

theorem pointed_provision (hp : s.Pointed) {id : String} {k₀ : IchKey}
    (hact : r.deletedAtMs = none) (hkeys : r.keys = [k₀]) (hfresh : s.ilks.lookup id = none) :
    ({ s with ichLookup := s.ichLookup.insert k₀ id, ilks := s.ilks.insert id r } :
      IdentityStore).Pointed := by
  refine hp.absorb id (fun k => k = k₀) ?_ ?_ ?_ ?_
  · rintro k rfl
    exact lookup_insert _
  · intro k hk
    exact lookup_insert_ne hk
  · rintro k (⟨r', hr', -⟩ | rfl)
    · rw [hfresh] at hr'
      cases hr'
    · exact ⟨r, lookup_insert _, hact, by simp [hkeys]⟩
  · rintro j k hj ⟨r', hr', hact', hkey⟩ -
    exact ⟨r', (lookup_insert_ne hj).trans hr', hact', hkey⟩

theorem pointed_unmark (hp : s.Pointed) {id : String}
    (hentry : s.ilks.lookup id = some entry) (hmarked : entry.deletedAtMs ≠ none) :
    (s.unmark id entry).Pointed := by
  refine hp.absorb id (fun k => k ∈ entry.keys) ?_ ?_ ?_ ?_
  · intro k hkey
    rw [unmark_resolve, if_pos hkey]
  · intro k hkey
    rw [unmark_resolve, if_neg hkey]
  · rintro k (⟨r, hr, hact, -⟩ | hkey)
    · rw [hentry] at hr
      cases hr
      exact absurd hact hmarked
    · exact ⟨{ entry with deletedAtMs := none, deletedReason := none },
        by rw [unmark_lookup, if_pos rfl], rfl, hkey⟩
  · rintro j k hj ⟨r, hr, hact, hkey⟩ -
    exact ⟨r, by rw [unmark_lookup, if_neg hj, hr], hact, hkey⟩

theorem pointed_purgedStore (hk : s.Kept) (hp : s.Pointed) (tenantId : String) :
    (purgedStore s tenantId).Pointed := by
  refine hp.release (fun i k => i ∈ s.tenantIlks tenantId ∨
    ∃ r, s.ilks.lookup i = some r ∧ k ∈ keysIn tenantId r) ?_ ?_
  · intro i k hres
    obtain ⟨hold, hi, hout⟩ := (purgedStore_resolve hk).mp hres
    exact ⟨hold, not_or.mpr ⟨hi, hout⟩⟩
  · rintro i k ⟨r, hr, hact, hkey⟩ hout
    rw [not_or] at hout
    refine ⟨dropScope tenantId r, ?_, hact, ?_⟩
    · rw [purgedStore_lookup hk, if_neg hout.1, hr, map_some]
    · exact (dropScope_key (hk.tidy _ _ hr)).mpr ⟨hkey, fun hin => hout.2 ⟨r, hr, hin⟩⟩

theorem Turn.pointed (h : Turn s now q s' deltas) (hk : s.Kept) (hu : s.IchsUnique)
    (hp : s.Pointed) (hfresh : FreshIlk s q) (hadds : AddsNoHeldIch s q)
    (hrestore : RestoresApart s q) (hgc : q = .aliasGc → CollectsNoHolder s now) : s'.Pointed := by
  cases h with
  | same | tenantPut | tenantKept => exact hp
  | retouch stored h =>
    exact Pointed.congr hp (fun _ => rfl) fun _ _ => (h.holdsActive hk stored).mpr
  | @provision req caller newIlk ilkType tenantId scope ich tenant inScope missed unreserved =>
    exact pointed_provision hp rfl (provisioned_keys tenant inScope) hfresh
  | registerNew absent tenant bare =>
    exact Pointed.congr hp (fun _ => rfl) fun _ _ => (holdsActive_bare absent bare).mpr
  | attach h aliases reuse | merge h sourced aliases reuse => exact h.pointed hk hu hp (reuse hadds)
  | @mark q id old stored =>
    refine hp.release (fun i _ => i = id) ?_ ?_
    · intro i k hres
      obtain ⟨hold, hi⟩ := lookup_retain_eq_some.mp hres
      exact ⟨hold, by simpa using hi⟩
    · rintro i k ⟨r, hr, hact, hkey⟩ hi
      exact ⟨r, (lookup_insert_ne hi).trans hr, hact, hkey⟩
  | @restore req entry stored marked restorable =>
    exact unmarkIlkUnchecked_induct stored (hk.tidy _ _ stored) (hrestore req rfl entry stored)
      (pointed_unmark hp stored marked) fun _ _ _ hmov => hmov.pointed
  | @purgeIlk q id entry stored =>
    refine hp.release (fun i _ => i = id) ?_ ?_
    · intro i k
      exact removeIlkPhysically_resolve.mp
    · rintro i k ⟨r, hr, hact, hkey⟩ hi
      exact ⟨r, by rw [removeIlkPhysically_lookup, if_neg hi, hr], hact, hkey⟩
  | purgeTenant => exact pointed_purgedStore hk hp _
  | gc =>
    refine hp.release (fun i _ => i ∈ s.expiredAliases now) ?_ ?_
    · intro i k
      exact gcExpiredAliases_resolve.mp
    · intro i k hheld hi
      exact (holdsActive_gc (hgc rfl)).mpr ⟨hheld, hi⟩

/-- A restored person's account channels outside the installation-wide scope have keys of their
own. -/
def RestoresDistinct (s : IdentityStore) (q : Request) : Prop :=
  ∀ req, q = .restoreIlk req → ∀ entry ∈ s.ilks.lookup req.ilkId, entry.isHuman →
    entry.registrationStatus = "complete" →
      ((accountCandidates entry).map (channelKey · entry.tenantId)).Nodup

theorem isCloudAccountChannel_key (c : ChannelRecord) :
    isCloudAccountChannel c.channelType = (c.key.1 == toAsciiLowercase cloudAccountChannel) := rfl

theorem mem_accountCandidates (ht : entry.Tidy) (hc : c ∈ entry.channels) :
    c ∈ accountCandidates entry ↔
      c.key.1 = toAsciiLowercase cloudAccountChannel ∧ c.key.2.2 ≠ installationScope := by
  have hscope := ht.scopes c hc
  simp only [accountCandidates, mem_filter, hc, true_and, Bool.and_eq_true, bne_iff_ne,
    isCloudAccountChannel_key, beq_iff_eq, channelScope_of_isTenantId hscope, key_scope hscope]

theorem apart_of_distinct (ht : entry.Tidy) (hids : (entry.channels.map (·.ichId)).Nodup)
    (hkeys : ((accountCandidates entry).map (channelKey · entry.tenantId)).Nodup) :
    Apart (accountCandidates entry) entry.channels := by
  refine (pairwise_map.mp hids).imp_of_mem ?_
  intro c d hc hd hne hor
  refine ⟨hne, fun heq => hne ?_⟩
  have hcand : c ∈ accountCandidates entry ∧ d ∈ accountCandidates entry := by
    rw [mem_accountCandidates ht hc, mem_accountCandidates ht hd, heq] at hor ⊢
    rw [or_self_iff] at hor
    exact ⟨hor, hor⟩
  have hkey : channelKey c entry.tenantId = channelKey d entry.tenantId := by
    rw [channelKey_of_isTenantId (ht.scopes c hc), channelKey_of_isTenantId (ht.scopes d hd)]
    exact heq
  rw [inj_on_of_nodup_map hkeys hcand.1 hcand.2 hkey]

/-- What a request must meet for the lookup to stay exact. -/
structure LookupSafe (s : IdentityStore) (e : Event) : Prop where
  fresh : FreshIlk s e.request
  ichs : AddsNoHeldIch s e.request
  accounts : RestoresDistinct s e.request
  collected : e.request = .aliasGc → CollectsNoHolder s e.now

structure IdentityStore.LookupExact (s : IdentityStore) : Prop where
  kept : s.Kept
  ichs : s.IchsUnique
  covered : s.Covered
  pointed : s.Pointed

theorem IdentityStore.LookupExact.restores (h : s.LookupExact) (hsafe : RestoresDistinct s q) :
    RestoresApart s q := by
  intro req hq entry hentry hhuman hcomplete
  exact apart_of_distinct (h.kept.tidy _ _ hentry) (h.ichs.distinct _ _ hentry)
    (hsafe req hq entry hentry hhuman hcomplete)

theorem IdentityStore.LookupExact.handle (h : s.LookupExact) {cfg : Config} {e : Event}
    (hsafe : LookupSafe s e) : (handle cfg s e).1.LookupExact := by
  have hturn := handle_turn h.kept cfg e
  have hrestore := h.restores hsafe.accounts
  exact ⟨hturn.kept h.kept, hturn.ichsUnique h.kept h.ichs,
    hturn.covered h.kept h.covered hrestore hsafe.collected,
    hturn.pointed h.kept h.ichs h.pointed hsafe.fresh hsafe.ichs hrestore hsafe.collected⟩

theorem lookupExact_of_bare (hk : s.Kept) (hilks : s.ilks = ∅) (hlookup : s.ichLookup = ∅) :
    s.LookupExact := by
  have hnone : ∀ id, s.ilks.lookup id = none := by
    intro id
    rw [hilks, lookup_empty]
  have hres : ∀ k, s.resolve k = none := by
    intro k
    rw [resolve, hlookup, lookup_empty]
  refine ⟨hk, ⟨?_, ?_, ?_⟩, ?_, ?_⟩
  · simp [hnone]
  · simp [hnone]
  · simp [hnone]
  · rintro i k ⟨r, hr, -⟩
    rw [hnone] at hr
    cases hr
  · intro i k hk
    rw [hres] at hk
    cases hk

theorem lookupExact_reorder {t : IdentityStore} (hre : Reorders s t) (h : s.LookupExact) :
    t.LookupExact := by
  have hilks := hre.lookup_ilks
  have hheld : ∀ j k, t.HoldsActive j k ↔ s.HoldsActive j k := by
    intro j k
    simp only [HoldsActive, hilks]
  refine ⟨h.kept.reorder hre, ⟨?_, ?_, ?_⟩, ?_, ?_⟩
  · simpa only [hilks] using h.ichs.canonical
  · simpa only [hilks] using h.ichs.distinct
  · simpa only [hilks] using h.ichs.apart
  · exact Covered.congr h.covered hre.lookup_ichLookup fun j k => (hheld j k).mp
  · exact Pointed.congr h.pointed hre.lookup_ichLookup fun j k => (hheld j k).mpr

theorem Reaches.lookupExact {cfg : Config} (h : Reaches (Handles cfg LookupSafe) s) :
    s.LookupExact := by
  refine h.invariant (lookupExact_of_bare kept_empty rfl rfl)
    (lookupExact_of_bare kept_withDefaultTenant rfl rfl) (fun _ _ => lookupExact_reorder) ?_
  rintro s s' hs ⟨e, hsafe, rfl⟩
  exact hs.handle hsafe

/-- In every run whose requests are safe, the lookup maps a key to an ILK just where the ILK is
stored, not marked, and holds a channel with the key. -/
theorem resolve_eq_some_iff_holdsActive {cfg : Config} (h : Reaches (Handles cfg LookupSafe) s)
    (key : IchKey) (id : String) : s.resolve key = some id ↔ s.HoldsActive id key :=
  ⟨h.lookupExact.pointed id key, h.lookupExact.covered id key⟩

namespace Reuse

def ichId : String := "ich:00000000-0000-4000-8000-000000000001"

def newIlk : Uuid := .uniform 1

def provision : Event :=
  ⟨.provision ⟨ichId, "phone", "+1", none, none, none⟩ none newIlk, 0, true⟩

/-- The same channel id with another address, for the ILK that holds it. -/
def addHeld : Event :=
  ⟨.addChannel ⟨newIlkId newIlk, ⟨ichId, "phone", "+2", none⟩, none, none⟩ none, 0, true⟩

def key (address : String) : IchKey := canonicalIchKey "phone" address defaultRootTenantId

end Reuse

open Reuse

/-- A channel added under an id that the ILK holds already is looked up and held by nobody. -/
theorem not_holdsActive_of_reused_ich :
    ∃ s, Reaches (Handles hourConfig fun _ _ => True) s ∧
      s.resolve (Reuse.key "+2") = some (newIlkId Reuse.newIlk) ∧
      ¬ s.HoldsActive (newIlkId Reuse.newIlk) (Reuse.key "+2") := by
  let s := runRequests hourConfig .withDefaultTenant [provision, addHeld]
  have hrun : s.resolve (key "+2") = some (newIlkId newIlk) ∧
      ∀ r ∈ s.ilks.lookup (newIlkId newIlk), key "+2" ∉ r.keys := by decide +kernel
  refine ⟨s, Reaches.withDefaultTenant.runRequests (meets_of_forall (fun _ _ => trivial) _ _), hrun.1, ?_⟩
  rintro ⟨r, hr, -, hkey⟩
  exact hrun.2 r hr hkey

theorem resolve_provisioned :
    ∃ s, Reaches (Handles hourConfig LookupSafe) s ∧
      (s.resolve (Reuse.key "+1") = some (newIlkId Reuse.newIlk) ↔
        s.HoldsActive (newIlkId Reuse.newIlk) (Reuse.key "+1")) ∧
      s.resolve (Reuse.key "+1") = some (newIlkId Reuse.newIlk) := by
  have hfresh : IdentityStore.withDefaultTenant.ilks.lookup (newIlkId newIlk) = none := by
    decide +kernel
  have hsafe : LookupSafe .withDefaultTenant provision :=
    ⟨hfresh, trivial, nofun, by rintro ⟨⟩⟩
  have hreach : Reaches (Handles hourConfig LookupSafe)
      (handle hourConfig .withDefaultTenant provision).1 :=
    Reaches.withDefaultTenant.step (.refl _) ⟨provision, hsafe, rfl⟩
  exact ⟨_, hreach, resolve_eq_some_iff_holdsActive hreach _ _, by decide +kernel⟩

end Fluxbee.Identity
