import Fluxbee.Identity.Steps

/-! What the operations over several records leave under each id and key: the purge of a tenant
and the garbage collection of aliases. -/
namespace Fluxbee.Identity
open Text Fallible List AList
variable {ids holders : List String} {r : IlkRecord} {tenantId : String} {now : ℕ}

namespace IdentityStore

variable {s : IdentityStore} {old i scope : String} {k : IchKey} {a : AliasRecord}

theorem mem_aliasOldIdsReferencing {ilkId : String} : old ∈ s.aliasOldIdsReferencing ilkId ↔
      ∃ a, s.aliases.lookup old = some a ∧ (old = ilkId ∨ a.canonicalIlkId = ilkId) := by
  simp only [aliasOldIdsReferencing, List.mem_map, mem_filter, Bool.or_eq_true, beq_iff_eq]
  constructor
  · rintro ⟨⟨old', a⟩, ⟨hmem, href⟩, rfl⟩
    exact ⟨a, mem_entries_iff.mp hmem, href⟩
  · rintro ⟨a, ha, href⟩
    exact ⟨⟨old, a⟩, ⟨mem_entries_iff.mpr ha, href⟩, rfl⟩

theorem removeIlkPhysically_lookup (s : IdentityStore) (id j : String) :
    (s.removeIlkPhysically id).1.ilks.lookup j = if j = id then none else s.ilks.lookup j :=
  lookup_erase_eq _ _ _

variable {id : String}

theorem removeIlkPhysically_resolve :
    (s.removeIlkPhysically id).1.resolve k = some i ↔ s.resolve k = some i ∧ i ≠ id := by
  simp only [removeIlkPhysically, resolve, lookup_retain_eq_some, bne_iff_ne]

theorem removeIlkPhysically_aliases : (s.removeIlkPhysically id).1.aliases.lookup old = some a ↔
      s.aliases.lookup old = some a ∧ old ≠ id ∧ a.canonicalIlkId ≠ id := by
  simp only [removeIlkPhysically, lookup_foldl_erase, mem_aliasOldIdsReferencing]
  constructor
  · intro h
    split_ifs at h with href
    refine ⟨h, ?_, ?_⟩
    · intro hid
      exact href ⟨a, h, .inl hid⟩
    · intro hcan
      exact href ⟨a, h, .inr hcan⟩
  · rintro ⟨ha, hid, hcan⟩
    rw [if_neg, ha]
    rintro ⟨b, hb, href⟩
    rw [ha] at hb
    cases hb
    exact href.elim hid hcan

theorem purgeLoop_lookup (ids : List String) (s : IdentityStore) (j : String) :
    (purgeLoop ids s).1.ilks.lookup j = if j ∈ ids then none else s.ilks.lookup j := by
  induction ids generalizing s with
  | nil => rfl
  | cons id rest ih =>
    simp only [purgeLoop, ih, removeIlkPhysically_lookup, mem_cons]
    by_cases hr : j ∈ rest
    · simp [hr]
    · by_cases hj : j = id <;> simp [hr, hj]

theorem purgeLoop_resolve :
    (purgeLoop ids s).1.resolve k = some i ↔ s.resolve k = some i ∧ i ∉ ids := by
  induction ids generalizing s with
  | nil => simp [purgeLoop]
  | cons id rest ih =>
    simp only [purgeLoop, ih, removeIlkPhysically_resolve, mem_cons, not_or, and_assoc]

theorem purgeLoop_aliases : (purgeLoop ids s).1.aliases.lookup old = some a ↔
      s.aliases.lookup old = some a ∧ old ∉ ids ∧ a.canonicalIlkId ∉ ids := by
  induction ids generalizing s with
  | nil => simp [purgeLoop]
  | cons id rest ih =>
    simp only [purgeLoop, ih, removeIlkPhysically_aliases, mem_cons, not_or]
    tauto

theorem purgeLoop_tenants (ids : List String) (s : IdentityStore) :
    (purgeLoop ids s).1.tenants = s.tenants := by
  induction ids generalizing s with
  | nil => rfl
  | cons id rest ih => exact ih _

theorem mem_purgeLoop_aliases : old ∈ (purgeLoop ids s).2 ↔
      ∃ a, s.aliases.lookup old = some a ∧ (old ∈ ids ∨ a.canonicalIlkId ∈ ids) := by
  induction ids generalizing s with
  | nil => simp [purgeLoop]
  | cons id rest ih =>
    have hfirst : (s.removeIlkPhysically id).2 = s.aliasOldIdsReferencing id := rfl
    simp only [purgeLoop, mem_append, ih, removeIlkPhysically_aliases, hfirst,
      mem_aliasOldIdsReferencing, mem_cons]
    constructor
    · rintro (⟨a, ha, href⟩ | ⟨a, ⟨ha, -, -⟩, href⟩)
      · exact ⟨a, ha, href.imp .inl .inl⟩
      · exact ⟨a, ha, href.imp .inr .inr⟩
    · rintro ⟨a, ha, href⟩
      by_cases hnow : old = id ∨ a.canonicalIlkId = id
      · exact .inl ⟨a, ha, hnow⟩
      · rw [not_or] at hnow
        exact .inr ⟨a, ⟨ha, hnow⟩, href.imp (·.resolve_left hnow.1) (·.resolve_left hnow.2)⟩

def dropScope (scope : String) (ilk : IlkRecord) : IlkRecord :=
  { ilk with channels := ilk.channels.filter fun c => !(channelScope c ilk.tenantId == scope) }

def keysIn (scope : String) (ilk : IlkRecord) : List IchKey :=
  (ilk.channels.filter fun c => channelScope c ilk.tenantId == scope).map (channelKey · ilk.tenantId)

theorem dropLoop_lookup (hnd : holders.Nodup) (s : IdentityStore) (j : String) :
    (dropLoop scope holders s).1.ilks.lookup j =
      if j ∈ holders then (s.ilks.lookup j).map (dropScope scope) else s.ilks.lookup j := by
  induction holders generalizing s with
  | nil => rfl
  | cons id rest ih =>
    obtain ⟨hid, hrest⟩ := nodup_cons.mp hnd
    unfold dropLoop
    cases hl : s.ilks.lookup id with
    | none =>
      rw [ih hrest]
      by_cases hj : j = id
      · subst hj
        simp [hid, hl]
      · simp [hj]
    | some ilk =>
      rw [ih hrest, lookup_insert_eq]
      by_cases hj : j = id
      · subst hj
        simp [hid, hl, dropScope]
      · simp [hj]

theorem dropLoop_resolve (hnd : holders.Nodup) : (dropLoop scope holders s).1.resolve k = some i ↔
      s.resolve k = some i ∧
        ¬ (i ∈ holders ∧ ∃ r, s.ilks.lookup i = some r ∧ k ∈ keysIn scope r) := by
  induction holders generalizing s with
  | nil => simp [dropLoop]
  | cons id rest ih =>
    obtain ⟨hid, hrest⟩ := nodup_cons.mp hnd
    unfold dropLoop
    cases hl : s.ilks.lookup id with
    | none =>
      rw [ih hrest]
      by_cases hi : i = id
      · subst hi
        simp [hid, hl]
      · simp [hi]
    | some ilk =>
      rw [ih hrest, resolve, lookup_eraseAll_eq_some, lookup_insert_eq, and_assoc]
      refine and_congr_right fun _ => ?_
      by_cases hi : i = id
      · subst hi
        simp [hid, hl, keysIn]
      · simp [hi]

theorem dropLoop_frame (scope : String) (holders : List String) (s : IdentityStore) :
    (dropLoop scope holders s).1.tenants = s.tenants ∧
      (dropLoop scope holders s).1.aliases = s.aliases := by
  induction holders generalizing s with
  | nil => exact ⟨rfl, rfl⟩
  | cons id rest ih =>
    unfold dropLoop
    cases s.ilks.lookup id with
    | none => exact ih s
    | some ilk => exact ih _

theorem mem_dropLoop_records (hnd : holders.Nodup) : r ∈ (dropLoop scope holders s).2.2 ↔
      ∃ id ∈ holders, ∃ r₀, s.ilks.lookup id = some r₀ ∧ r = dropScope scope r₀ := by
  induction holders generalizing s with
  | nil => simp [dropLoop]
  | cons id rest ih =>
    obtain ⟨hid, hrest⟩ := nodup_cons.mp hnd
    unfold dropLoop
    cases hl : s.ilks.lookup id with
    | none =>
      rw [ih hrest]
      simp [hl]
    | some ilk =>
      rw [mem_cons, ih hrest]
      have hother : ∀ j ∈ rest, ∀ next, (s.ilks.insert id next).lookup j = s.ilks.lookup j := by
        intro j hj next
        rw [lookup_insert_eq, if_neg]
        rintro rfl
        exact hid hj
      constructor
      · rintro (rfl | ⟨j, hj, r₀, hr₀, rfl⟩)
        · exact ⟨id, mem_cons_self, ilk, hl, rfl⟩
        · rw [hother j hj] at hr₀
          exact ⟨j, mem_cons_of_mem _ hj, r₀, hr₀, rfl⟩
      · rintro ⟨j, hj, r₀, hr₀, rfl⟩
        rcases mem_cons.mp hj with rfl | hj
        · rw [hl] at hr₀
          cases hr₀
          exact .inl rfl
        · exact .inr ⟨j, hj, r₀, by rw [hother j hj, hr₀], rfl⟩

theorem Kept.mem_ids (hk : s.Kept) {p : IlkRecord → Bool} :
    id ∈ sortUnstable ((s.ilks.values.filter p).map (·.ilkId)) ↔
      ∃ r, s.ilks.lookup id = some r ∧ p r = true := by
  simp only [sortUnstable, mem_insertionSort, List.mem_map, mem_filter, mem_values]
  constructor
  · rintro ⟨r, ⟨⟨j, hj⟩, hp⟩, rfl⟩
    exact ⟨r, by rw [hk.named j r hj, hj], hp⟩
  · rintro ⟨r, hr, hp⟩
    exact ⟨r, ⟨⟨id, hr⟩, hp⟩, hk.named id r hr⟩

theorem Kept.nodup_ids (hk : s.Kept) (p : IlkRecord → Bool) :
    (sortUnstable ((s.ilks.values.filter p).map (·.ilkId))).Nodup := by
  have hids : (s.ilks.values.filter p).map (·.ilkId) =
      (s.ilks.entries.filter fun e => p e.2).map Sigma.fst := by
    rw [AList.values, List.filter_map, List.map_map]
    apply map_congr_left
    intro e he
    exact hk.named e.1 e.2 (mem_entries_iff.mp (mem_of_mem_filter he))
  have hnd : (s.ilks.entries.map Sigma.fst).Nodup := s.ilks.nodupKeys
  rw [sortUnstable, (perm_insertionSort _ _).nodup_iff, hids]
  exact hnd.sublist (filter_sublist.map _)

theorem Kept.emptied (hk : s.Kept) (tenantId : String) : (emptiedTenant s tenantId).1.Kept := by
  refine hk.of_ilks ?_ ?_
  · intro id t ht
    rwa [emptiedTenant, purgeLoop_tenants] at ht
  · intro id r hr
    rw [emptiedTenant, purgeLoop_lookup] at hr
    split_ifs at hr
    exact .inl hr

theorem dropScope_of_none
    (h : ∀ c ∈ r.channels, channelScope c r.tenantId ≠ scope) : dropScope scope r = r := by
  have hall : r.channels.filter (fun c => !(channelScope c r.tenantId == scope)) = r.channels := by
    rw [filter_eq_self]
    intro c hc
    simp [h c hc]
  unfold dropScope
  rw [hall]

theorem nodup_scopeHolders (hk : s.Kept) (scope : String) : (s.scopeHolders scope).Nodup :=
  hk.nodup_ids _

theorem mem_scopeHolders (hk : s.Kept) : id ∈ s.scopeHolders scope ↔
      ∃ r, s.ilks.lookup id = some r ∧ ∃ c ∈ r.channels, channelScope c r.tenantId = scope := by
  rw [scopeHolders, hk.mem_ids]
  simp

theorem dropChannelsInScope_lookup (hk : s.Kept) (scope j : String) :
    (s.dropChannelsInScope scope).1.ilks.lookup j = (s.ilks.lookup j).map (dropScope scope) := by
  rw [dropChannelsInScope, dropLoop_lookup (nodup_scopeHolders hk scope)]
  split_ifs with hj
  · rfl
  · cases hl : s.ilks.lookup j with
    | none => rfl
    | some r =>
      rw [Option.map_some, dropScope_of_none]
      intro c hc hscope
      exact hj ((mem_scopeHolders hk).mpr ⟨r, hl, c, hc, hscope⟩)

theorem mem_keysIn : k ∈ keysIn scope r ↔
      ∃ c ∈ r.channels, channelScope c r.tenantId = scope ∧ channelKey c r.tenantId = k := by
  simp [keysIn, and_assoc]

theorem dropChannelsInScope_resolve (hk : s.Kept) :
    (s.dropChannelsInScope scope).1.resolve k = some i ↔
      s.resolve k = some i ∧ ¬ ∃ r, s.ilks.lookup i = some r ∧ k ∈ keysIn scope r := by
  rw [dropChannelsInScope, dropLoop_resolve (nodup_scopeHolders hk scope)]
  refine and_congr_right fun _ => not_congr ⟨And.right, ?_⟩
  rintro ⟨r, hr, hkey⟩
  obtain ⟨c, hc, hscope, -⟩ := mem_keysIn.mp hkey
  exact ⟨(mem_scopeHolders hk).mpr ⟨r, hr, c, hc, hscope⟩, r, hr, hkey⟩

theorem mem_tenantIlks (hk : s.Kept) :
    id ∈ s.tenantIlks tenantId ↔ ∃ r, s.ilks.lookup id = some r ∧ r.tenantId = tenantId := by
  rw [tenantIlks, hk.mem_ids]
  simp

theorem purgedStore_lookup (hk : s.Kept) (tenantId j : String) :
    (purgedStore s tenantId).ilks.lookup j =
      if j ∈ s.tenantIlks tenantId then none
      else (s.ilks.lookup j).map (dropScope tenantId) := by
  rw [purgedStore, dropChannelsInScope_lookup (hk.emptied tenantId), emptiedTenant,
    purgeLoop_lookup]
  split_ifs <;> rfl

theorem purgedStore_resolve (hk : s.Kept) : (purgedStore s tenantId).resolve k = some i ↔
      s.resolve k = some i ∧ i ∉ s.tenantIlks tenantId ∧
        ¬ ∃ r, s.ilks.lookup i = some r ∧ k ∈ keysIn tenantId r := by
  have hdrop : (purgedStore s tenantId).resolve k =
      ((emptiedTenant s tenantId).1.dropChannelsInScope tenantId).1.resolve k := by
    simp only [purgedStore, resolve]
  rw [hdrop, dropChannelsInScope_resolve (hk.emptied tenantId), emptiedTenant, purgeLoop_resolve,
    purgeLoop_lookup, and_assoc]
  constructor
  · rintro ⟨hres, hi, hno⟩
    rw [if_neg hi] at hno
    exact ⟨hres, hi, hno⟩
  · rintro ⟨hres, hi, hno⟩
    rw [if_neg hi]
    exact ⟨hres, hi, hno⟩

theorem purgedStore_tenants (s : IdentityStore) (tenantId : String) :
    (purgedStore s tenantId).tenants = s.tenants.erase tenantId := by
  simp only [purgedStore, dropChannelsInScope, (dropLoop_frame _ _ _).1, emptiedTenant,
    purgeLoop_tenants]

theorem purgedStore_aliases : (purgedStore s tenantId).aliases.lookup old = some a ↔
      s.aliases.lookup old = some a ∧ old ∉ s.tenantIlks tenantId ∧
        a.canonicalIlkId ∉ s.tenantIlks tenantId := by
  simp only [purgedStore, dropChannelsInScope, (dropLoop_frame _ _ _).2, emptiedTenant,
    purgeLoop_aliases]

theorem mem_expiredAliases :
    old ∈ s.expiredAliases now ↔ ∃ a, s.aliases.lookup old = some a ∧ a.expiresAtMs ≤ now := by
  simp only [expiredAliases, List.mem_map, mem_filter, decide_eq_true_eq]
  constructor
  · rintro ⟨⟨old', a⟩, ⟨hmem, hexp⟩, rfl⟩
    exact ⟨a, mem_entries_iff.mp hmem, hexp⟩
  · rintro ⟨a, ha, hexp⟩
    exact ⟨⟨old, a⟩, ⟨mem_entries_iff.mpr ha, hexp⟩, rfl⟩

theorem markExpired_twice (now : ℕ) (r : IlkRecord) :
    markExpired now (markExpired now r) = markExpired now r := by
  unfold markExpired
  split_ifs with h h' <;> simp_all

theorem gcExpiredAliases_lookup (s : IdentityStore) (now : ℕ) (j : String) :
    (s.gcExpiredAliases now).ilks.lookup j =
      if j ∈ s.expiredAliases now then (s.ilks.lookup j).map (markExpired now)
      else s.ilks.lookup j :=
  lookup_foldl_modify (markExpired_twice now) _ _ _

theorem gcExpiredAliases_resolve : (s.gcExpiredAliases now).resolve k = some i ↔
      s.resolve k = some i ∧ i ∉ s.expiredAliases now := by
  simp only [gcExpiredAliases, resolve, lookup_retain_eq_some, decide_eq_true_eq]

theorem gcExpiredAliases_aliases : (s.gcExpiredAliases now).aliases.lookup old = some a ↔
      s.aliases.lookup old = some a ∧ now < a.expiresAtMs := by
  simp only [gcExpiredAliases, lookup_retain_eq_some, gt_iff_lt, decide_eq_true_eq]

end IdentityStore
end Fluxbee.Identity
