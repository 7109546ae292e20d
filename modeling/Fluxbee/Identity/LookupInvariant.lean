import Fluxbee.Identity.AccountMove

/-! What every turn of the store keeps: records under their own ids, and the lookup's cover of the
keys that active ILKs hold. -/
namespace Fluxbee.Identity
open Text Fallible ReverseIndex IdentityStore List Option AList

variable {s s' : IdentityStore} {now : ℕ} {q : Request} {deltas : List IdentityDelta}
  {old next r : IlkRecord} {new moved : List ChannelRecord} {id j : String} {sources : List String}
  {k : IchKey}

def placeKey (place : String × String × String × String) : IchKey :=
  canonicalIchKey place.2.1 place.2.2.1 place.2.2.2

section
variable {new : IlkRecord} (h : Retouched old new) (ht : old.Tidy)
include h ht

theorem Retouched.tidy : new.Tidy where
  tenant := h.tenant
  scopes := by
    intro c hc
    have hplace : c.place ∈ old.channels.map (·.place) := by
      rw [← h.places]
      exact List.mem_map_of_mem hc
    obtain ⟨d, hd, hdc⟩ := List.mem_map.mp hplace
    have hscope : d.scope = c.scope := congrArg (·.2.2.2) hdc
    rw [← hscope]
    exact ht.scopes d hd

theorem Retouched.keys_eq : new.keys = old.keys := by
  have hkeys : ∀ channels : List ChannelRecord,
      channels.map (·.key) = (channels.map (·.place)).map placeKey := by
    intro channels
    rw [List.map_map]
    rfl
  rw [(h.tidy ht).keys_eq, ht.keys_eq, hkeys, hkeys, h.places]

end

section
variable (h : Absorbs s s' id old next new moved sources) (hk : s.Kept)
include h hk

theorem Absorbs.tidy :
    next.Tidy where
  tenant := by
    rw [h.tenantId]
    exact (hk.tidy _ _ h.stored).tenant
  scopes := by
    intro c hc
    rw [h.channels] at hc
    rcases mem_of_mem_pushMissing hc with hc | hc
    · exact (hk.tidy _ _ h.stored).scopes c hc
    · rcases mem_append.mp hc with hc | hc
      · exact h.scopes c hc
      · obtain ⟨j, -, r, hr, hcr⟩ := h.movedFrom c hc
        exact (hk.tidy _ _ hr).scopes c hcr

theorem Absorbs.kept : s'.Kept := by
  refine hk.of_ilks ?_ ?_
  · intro j t ht
    rwa [h.tenants] at ht
  · intro j r hr
    rw [h.ilks] at hr
    split_ifs at hr with hj hsource
    · cases hr
      exact .inr ⟨by rw [h.ilkId, hk.named _ _ h.stored, hj], h.tidy hk⟩
    · obtain ⟨r₀, hr₀, rfl⟩ := map_eq_some_iff.mp hr
      have hid : r₀.ilkId = j := hk.named _ _ hr₀
      exact .inr ⟨hid, (hk.tidy _ _ hr₀).tenant, by simp⟩
    · rw [Option.map_id'] at hr
      exact .inl hr

end

theorem Kept.put_ilk (hk : s.Kept) (r : IlkRecord) (hid : r.ilkId = id)
    (ht : r.Tidy) (lookup : AList fun _ : IchKey => String) :
    ({ s with ilks := s.ilks.insert id r, ichLookup := lookup } : IdentityStore).Kept := by
  refine hk.of_ilks (fun _ _ h => h) ?_
  intro j r' hr'
  rw [lookup_insert_eq] at hr'
  split_ifs at hr' with hj
  · cases hr'
    exact .inr ⟨hid.trans hj.symm, ht⟩
  · exact .inl hr'

theorem markExpired_tidy (h : r.Tidy) (now : ℕ) :
    (markExpired now r).ilkId = r.ilkId ∧ (markExpired now r).Tidy := by
  unfold markExpired
  split_ifs
  · exact ⟨rfl, h.tenant, h.scopes⟩
  · exact ⟨rfl, h⟩

theorem kept_gc (hk : s.Kept) (now : ℕ) : (s.gcExpiredAliases now).Kept := by
  refine hk.of_ilks (fun _ _ h => h) ?_
  intro j r hr
  rw [gcExpiredAliases_lookup] at hr
  split_ifs at hr
  · obtain ⟨r₀, hr₀, rfl⟩ := map_eq_some_iff.mp hr
    obtain ⟨hid, htidy⟩ := markExpired_tidy (hk.tidy _ _ hr₀) now
    exact .inr ⟨hid.trans (hk.named _ _ hr₀), htidy⟩
  · exact .inl hr

theorem kept_purgedStore (hk : s.Kept) (tenantId : String) : (purgedStore s tenantId).Kept := by
  refine hk.of_ilks ?_ ?_
  · intro id t ht
    rw [purgedStore_tenants, lookup_erase_eq] at ht
    split_ifs at ht
    exact ht
  · intro j r hr
    rw [purgedStore_lookup hk] at hr
    split_ifs at hr
    obtain ⟨r₀, hr₀, rfl⟩ := map_eq_some_iff.mp hr
    have htidy := hk.tidy _ _ hr₀
    have hid : r₀.ilkId = j := hk.named _ _ hr₀
    exact .inr ⟨hid, htidy.tenant, fun c hc => htidy.scopes c (mem_of_mem_filter hc)⟩

theorem kept_unmarkIlkUnchecked (hk : s.Kept) {entry : IlkRecord}
    (hentry : s.ilks.lookup id = some entry) : (s.unmarkIlkUnchecked id).1.Kept := by
  obtain ⟨htenants, -, hother, r, hr, hres⟩ := unmarkIlkUnchecked_rescopes hentry
  have htidy := hk.tidy _ _ hentry
  refine hk.of_ilks ?_ ?_
  · intro id t ht
    rwa [htenants] at ht
  · intro j r' hr'
    by_cases hj : j = id
    · subst hj
      rw [hr] at hr'
      cases hr'
      have hid : entry.ilkId = j := hk.named _ _ hentry
      refine .inr ⟨?_, ?_, ?_⟩
      · rw [hres.record]
        exact hid
      · rw [hres.record]
        exact htidy.tenant
      · intro c hc
        rcases hres.scopes c hc with hinst | hold
        · rw [hinst]
          exact isTenantId_installationScope
        · exact htidy.scopes c hold
    · rw [hother j hj] at hr'
      exact .inl hr'

section

variable {req : IlkProvisionRequest} {newIlk : Uuid} {ilkType tenantId scope : String}

theorem provisioned_tidy (tenant : IsTenantId tenantId) (inScope : IsTenantId scope) :
    (provisioned req newIlk ilkType tenantId scope).Tidy :=
  ⟨tenant, by simpa [provisioned] using inScope⟩

theorem provisioned_keys (tenant : IsTenantId tenantId) (inScope : IsTenantId scope) :
    (provisioned req newIlk ilkType tenantId scope).keys =
      [canonicalIchKey req.channelType req.address scope] := by
  rw [(provisioned_tidy tenant inScope).keys_eq]
  rfl

end

theorem Turn.kept (h : Turn s now q s' deltas) (hk : s.Kept) : s'.Kept := by
  cases h with
  | same | tenantKept => exact hk
  | tenantPut t => exact hk.put_tenant t
  | retouch stored h =>
    have hid := hk.named _ _ stored
    exact Kept.put_ilk hk _ (h.ilkId.trans hid) (h.tidy (hk.tidy _ _ stored)) _
  | @provision req caller newIlk ilkType tenantId scope ich tenant inScope =>
    exact Kept.put_ilk hk (provisioned req newIlk ilkType tenantId scope) rfl
      (provisioned_tidy tenant inScope) _
  | @registerNew q r absent tenant bare =>
    exact Kept.put_ilk hk r rfl ⟨tenant, by simp [bare]⟩ s.ichLookup
  | attach h | merge h => exact h.kept hk
  | @mark q id old stored =>
    have htidy := hk.tidy _ _ stored
    have hid : old.ilkId = id := hk.named _ _ stored
    exact Kept.put_ilk hk
      { old with deletedAtMs := some now, deletedReason := some deletedReasonDirect } hid
      ⟨htidy.tenant, htidy.scopes⟩ _
  | restore stored => exact kept_unmarkIlkUnchecked hk stored
  | purgeIlk stored =>
    refine hk.of_ilks (fun _ _ h => h) ?_
    intro j r hr
    rw [removeIlkPhysically_lookup] at hr
    split_ifs at hr
    exact .inl hr
  | purgeTenant => exact kept_purgedStore hk _
  | gc => exact kept_gc hk _

theorem Covered.congr (hc : s.Covered) (hres : ∀ k, s'.resolve k = s.resolve k)
    (hheld : ∀ j k, s'.HoldsActive j k → s.HoldsActive j k) : s'.Covered := by
  intro j k hj
  rw [hres]
  exact hc j k (hheld j k hj)

section
variable (h : Absorbs s s' id old next new moved sources)
include h

theorem Absorbs.mem_keys (hk : s.Kept)
    (hkey : k ∈ next.keys) : k ∈ old.keys ∨ k ∈ (new ++ moved).map (·.key) := by
  obtain ⟨c, hc, rfl⟩ := (h.tidy hk).mem_keys.mp hkey
  rw [h.channels] at hc
  rcases mem_of_mem_pushMissing hc with hc | hc
  · exact .inl ((hk.tidy _ _ h.stored).mem_keys.mpr ⟨c, hc, rfl⟩)
  · exact .inr (List.mem_map_of_mem hc)

theorem Absorbs.other (hj : j ≠ id) (hr : s'.ilks.lookup j = some r)
    (hkey : k ∈ r.keys) : j ∉ sources ∧ s.ilks.lookup j = some r := by
  rw [h.ilks, if_neg hj] at hr
  split_ifs at hr with hsource
  · obtain ⟨r₀, -, rfl⟩ := map_eq_some_iff.mp hr
    simp [IlkRecord.keys] at hkey
  · rw [Option.map_id'] at hr
    exact ⟨hsource, hr⟩

theorem Absorbs.not_held (hk : s.Kept) (hc : s.Covered) (hheld : s.HoldsActive j k) (hj : j ≠ id)
    (hsource : j ∉ sources) : k ∉ (new ++ moved).map (·.key) := by
  intro hkey
  obtain ⟨c, hmem, rfl⟩ := List.mem_map.mp hkey
  rcases mem_append.mp hmem with hnew | hmoved
  · rcases mem_cons.mp (hk.mem_of_holds hc (h.keyFree c hnew) hheld.holds) with hid | hin
    · exact hj hid
    · exact hsource hin
  · obtain ⟨i, hi, r, hr, hcr⟩ := h.movedFrom c hmoved
    obtain ⟨-, r', hr', hact, -⟩ := h.sourced i hi
    rw [hr] at hr'
    cases hr'
    have hi' : s.HoldsActive i c.key := ⟨r, hr, hact, (hk.tidy _ _ hr).mem_keys.mpr ⟨c, hcr, rfl⟩⟩
    exact hsource (hc.unique hheld hi' ▸ hi)

theorem Absorbs.covered (hk : s.Kept) (hc : s.Covered) : s'.Covered := by
  refine hc.absorb id (fun k => k ∈ (new ++ moved).map (·.key)) ?_ ?_ ?_ ?_
  · intro k hkey
    rw [h.resolve, if_pos hkey]
  · intro k hkey
    rw [h.resolve, if_neg hkey]
  · rintro k ⟨r, hr, -, hkey⟩
    rw [h.ilks, if_pos rfl] at hr
    cases hr
    exact (h.mem_keys hk hkey).imp_left fun hold => ⟨old, h.stored, h.active, hold⟩
  · rintro j k hj ⟨r, hr, hact, hkey⟩
    obtain ⟨hsource, hr₀⟩ := h.other hj hr hkey
    have hheld : s.HoldsActive j k := ⟨r, hr₀, hact, hkey⟩
    exact ⟨hheld, h.not_held hk hc hheld hj hsource⟩

end

theorem covered_provision (hc : s.Covered) {k₀ : IchKey}
    (hkeys : r.keys = [k₀]) (hfree : ∀ j, ¬ s.Holds j k₀) :
    ({ s with ichLookup := s.ichLookup.insert k₀ id, ilks := s.ilks.insert id r } :
      IdentityStore).Covered := by
  refine hc.absorb id (fun k => k = k₀) ?_ ?_ ?_ ?_
  · rintro k rfl
    exact lookup_insert _
  · intro k hk
    exact lookup_insert_ne hk
  · rintro k ⟨r', hr', -, hkey⟩
    rw [lookup_insert] at hr'
    cases hr'
    rw [hkeys, mem_singleton] at hkey
    exact .inr hkey
  · rintro j k hj ⟨r', hr', hact, hkey⟩
    rw [lookup_insert_ne hj] at hr'
    have hheld : s.HoldsActive j k := ⟨r', hr', hact, hkey⟩
    refine ⟨hheld, ?_⟩
    rintro rfl
    exact hfree j hheld.holds

theorem unmark_resolve (s : IdentityStore) (id : String) (entry : IlkRecord) (k : IchKey) :
    (s.unmark id entry).resolve k = if k ∈ entry.keys then some id else s.resolve k := by
  split_ifs with hkey
  · rw [resolve, unmark, lookup_insertAll]
    exact if_pos hkey
  · rw [resolve, unmark, lookup_insertAll]
    exact if_neg hkey

theorem covered_unmark (hc : s.Covered) {entry : IlkRecord}
    (hentry : s.ilks.lookup id = some entry) (hcheck : s.checkIlkRestorable id = .ok ()) :
    (s.unmark id entry).Covered := by
  refine hc.absorb id (fun k => k ∈ entry.keys) ?_ ?_ ?_ ?_
  · intro k hkey
    rw [unmark_resolve, if_pos hkey]
  · intro k hkey
    rw [unmark_resolve, if_neg hkey]
  · rintro k ⟨r, hr, -, hkey⟩
    rw [unmark_lookup, if_pos rfl] at hr
    cases hr
    exact .inr hkey
  · rintro j k hj ⟨r, hr, hact, hkey⟩
    rw [unmark_lookup, if_neg hj] at hr
    have hheld : s.HoldsActive j k := ⟨r, hr, hact, hkey⟩
    refine ⟨hheld, fun hin => hj ?_⟩
    exact checkIlkRestorable_ok hentry hcheck hin (hc j k hheld)

theorem dropScope_key (ht : r.Tidy) {scope : String} :
    k ∈ (dropScope scope r).keys ↔ k ∈ r.keys ∧ k ∉ keysIn scope r := by
  have hscope : ∀ c ∈ r.channels, channelScope c r.tenantId = (channelKey c r.tenantId).2.2 := by
    intro c hc
    rw [channelScope_of_isTenantId (ht.scopes c hc), channelKey_scope (ht.scopes c hc)]
  rw [mem_keysIn, IlkRecord.mem_keys, IlkRecord.mem_keys]
  constructor
  · rintro ⟨c, hc, rfl⟩
    obtain ⟨hc, hout⟩ := mem_filter.mp hc
    refine ⟨⟨c, hc, rfl⟩, ?_⟩
    rintro ⟨d, hd, hin, hkey⟩
    simp only [Bool.not_eq_true', beq_eq_false_iff_ne] at hout
    apply hout
    rw [hscope c hc]
    rw [hscope d hd, hkey] at hin
    exact hin
  · rintro ⟨⟨c, hc, rfl⟩, hout⟩
    refine ⟨c, mem_filter.mpr ⟨hc, ?_⟩, rfl⟩
    simp only [Bool.not_eq_true', beq_eq_false_iff_ne]
    intro hin
    exact hout ⟨c, hc, hin, rfl⟩

theorem covered_purgedStore (hk : s.Kept) (hc : s.Covered) (tenantId : String) :
    (purgedStore s tenantId).Covered := by
  refine hc.release (fun i k => i ∈ s.tenantIlks tenantId ∨
    ∃ r, s.ilks.lookup i = some r ∧ k ∈ keysIn tenantId r) ?_ ?_
  · intro i k hres hout
    rw [not_or] at hout
    exact (purgedStore_resolve hk).mpr ⟨hres, hout⟩
  · rintro i k ⟨r, hr, hact, hkey⟩
    rw [purgedStore_lookup hk] at hr
    split_ifs at hr with hi
    obtain ⟨r₀, hr₀, rfl⟩ := map_eq_some_iff.mp hr
    obtain ⟨hkey₀, hout⟩ := (dropScope_key (hk.tidy _ _ hr₀)).mp hkey
    refine ⟨⟨r₀, hr₀, hact, hkey₀⟩, ?_⟩
    rintro (hin | ⟨r', hr', hgone⟩)
    · exact hi hin
    · rw [hr₀] at hr'
      cases hr'
      exact hout hgone

theorem Retouched.holdsActive {new : IlkRecord} (hk : s.Kept)
    (stored : s.ilks.lookup id = some old) (h : Retouched old new) :
    ({ s with ilks := s.ilks.insert id new } : IdentityStore).HoldsActive j k ↔
      s.HoldsActive j k := by
  have hkeys := h.keys_eq (hk.tidy _ _ stored)
  simp only [HoldsActive, lookup_insert_eq]
  by_cases hj : j = id
  · subst hj
    simp only [if_true, Option.some.injEq, exists_eq_left', stored, hkeys, h.deletedAtMs]
  · simp only [if_neg hj]

theorem holdsActive_bare (absent : s.ilks.lookup r.ilkId = none) (bare : r.channels = []) :
    ({ s with ilks := s.ilks.insert r.ilkId r } : IdentityStore).HoldsActive j k ↔
      s.HoldsActive j k := by
  simp only [HoldsActive, lookup_insert_eq]
  by_cases hj : j = r.ilkId
  · subst hj
    simp [absent, IlkRecord.keys, bare]
  · simp only [if_neg hj]

/-- The expired aliases' sources that stay active hold no channels. -/
def CollectsNoHolder (s : IdentityStore) (now : ℕ) : Prop :=
  ∀ old ∈ s.expiredAliases now, ∀ r ∈ s.ilks.lookup old, r.deletedAtMs = none →
    r.registrationStatus ≠ "temporary" → r.channels = []

theorem holdsActive_gc (h : CollectsNoHolder s now) :
    (s.gcExpiredAliases now).HoldsActive j k ↔ s.HoldsActive j k ∧ j ∉ s.expiredAliases now := by
  simp only [HoldsActive, gcExpiredAliases_lookup]
  split_ifs with hj
  · simp only [hj, not_true_eq_false, and_false, iff_false]
    rintro ⟨r, hr, hact, hkey⟩
    obtain ⟨r₀, hr₀, rfl⟩ := map_eq_some_iff.mp hr
    unfold markExpired at hact hkey
    split_ifs at hact hkey with hmark
    have hbare : r₀.channels = [] := h j hj r₀ hr₀ hact fun htmp => hmark ⟨htmp, hact⟩
    simp [IlkRecord.keys, hbare] at hkey
  · simp [hj]

/-- A restored person's account channels are told apart by their ids and keys. -/
def RestoresApart (s : IdentityStore) (q : Request) : Prop :=
  ∀ req, q = .restoreIlk req → ∀ entry ∈ s.ilks.lookup req.ilkId, entry.isHuman →
    entry.registrationStatus = "complete" → Apart (accountCandidates entry) entry.channels

theorem Turn.covered (h : Turn s now q s' deltas) (hk : s.Kept) (hc : s.Covered)
    (hrestore : RestoresApart s q) (hgc : q = .aliasGc → CollectsNoHolder s now) : s'.Covered := by
  cases h with
  | same | tenantPut | tenantKept => exact hc
  | retouch stored h =>
    exact Covered.congr hc (fun _ => rfl) fun _ _ => (h.holdsActive hk stored).mp
  | @provision req caller newIlk ilkType tenantId scope ich tenant inScope missed unreserved =>
    exact covered_provision hc (provisioned_keys tenant inScope)
      (not_holds_of_free hc missed unreserved)
  | registerNew absent tenant bare =>
    exact Covered.congr hc (fun _ => rfl) fun _ _ => (holdsActive_bare absent bare).mp
  | attach h | merge h => exact h.covered hk hc
  | @mark q id old stored =>
    refine hc.release (fun i _ => i = id) ?_ ?_
    · intro i k hres hout
      exact lookup_retain_eq_some.mpr ⟨hres, by simpa using hout⟩
    · rintro i k ⟨r, hr, hact, hkey⟩
      rw [lookup_insert_eq] at hr
      split_ifs at hr with hi
      · cases hr
        cases hact
      · exact ⟨⟨r, hr, hact, hkey⟩, hi⟩
  | @restore req entry stored marked restorable =>
    exact unmarkIlkUnchecked_induct stored (hk.tidy _ _ stored) (hrestore req rfl entry stored)
      (covered_unmark hc stored restorable) fun _ _ _ hmov => hmov.covered
  | @purgeIlk q id entry stored =>
    refine hc.release (fun i _ => i = id) ?_ ?_
    · intro i k hres hout
      exact removeIlkPhysically_resolve.mpr ⟨hres, hout⟩
    · rintro i k ⟨r, hr, hact, hkey⟩
      rw [removeIlkPhysically_lookup] at hr
      split_ifs at hr with hi
      exact ⟨⟨r, hr, hact, hkey⟩, hi⟩
  | purgeTenant => exact covered_purgedStore hk hc _
  | gc =>
    refine hc.release (fun i _ => i ∈ s.expiredAliases now) ?_ ?_
    · intro i k hres hout
      exact gcExpiredAliases_resolve.mpr ⟨hres, hout⟩
    · intro i k
      exact (holdsActive_gc (hgc rfl)).mp

end Fluxbee.Identity
