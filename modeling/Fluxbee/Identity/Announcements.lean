import Fluxbee.Identity.LookupInvariant
import Fluxbee.Lib.Catchup

/-! What the deltas of a request say: each carries what the store ends with, and what no delta
names is as it was. -/
namespace Fluxbee.Identity
open Text Fallible IdentityStore Catchup List Option AList

variable {s s' : IdentityStore} {now : ℕ} {q : Request} {deltas : List IdentityDelta}

/-- The delta carries a change of the tenant, of the ILK, of the alias. -/
def IdentityDelta.OfTenant : IdentityDelta → String → Prop
  | .tenantUpsert t, id => t.tenantId = id
  | .tenantDelete tenantId, id => tenantId = id
  | _, _ => False

def IdentityDelta.OfIlk : IdentityDelta → String → Prop
  | .ilkUpsert ilk, id => ilk.ilkId = id
  | .ilkDelete ilkId, id => ilkId = id
  | _, _ => False

def IdentityDelta.OfAlias : IdentityDelta → String → Prop
  | .aliasUpsert entry, old => entry.oldIlkId = old
  | .aliasDelete oldIlkId, old => oldIlkId = old
  | _, _ => False

def AliasRecord.Touches (a : AliasRecord) (old id : String) : Prop :=
  old = id ∨ a.canonicalIlkId = id

/-- What the delta says of `s'`, the store after a change of `s`, is so. -/
def Tells (s s' : IdentityStore) : IdentityDelta → Prop
  | .tenantUpsert t => s'.tenants.lookup t.tenantId = some t
  | .tenantDelete id => s'.tenants.lookup id = none
  | .ilkUpsert ilk => s'.ilks.lookup ilk.ilkId = some ilk
  | .ilkDelete id => s'.ilks.lookup id = none ∧
    (∀ ilk ∈ s.ilks.lookup id, isWellKnownSystemIlk ilk = false) ∧
    ∀ old a, s.aliases.lookup old = some a ∨ s'.aliases.lookup old = some a →
      a.Touches old id → s'.aliases.lookup old = none
  | .aliasUpsert entry =>
    s'.aliases.lookup entry.oldIlkId = some ⟨entry.canonicalIlkId, entry.expiresAtMs⟩
  | .aliasDelete old => s'.aliases.lookup old = none

/-- The deltas tell the whole change of `s` to `s'`, next to its lookup. -/
structure Announces (s s' : IdentityStore) (deltas : List IdentityDelta) : Prop where
  told : ∀ d ∈ deltas, Tells s s' d
  tenants : ∀ id, (∀ d ∈ deltas, ¬ d.OfTenant id) → s'.tenants.lookup id = s.tenants.lookup id
  ilks : ∀ id, (∀ d ∈ deltas, ¬ d.OfIlk id) → s'.ilks.lookup id = s.ilks.lookup id
  aliases : ∀ old, (∀ d ∈ deltas, ¬ d.OfAlias old) → s'.aliases.lookup old = s.aliases.lookup old

variable {r entry : IlkRecord} {tenantId : String}

theorem announces_put (htenants : s'.tenants = s.tenants) (haliases : s'.aliases = s.aliases)
    (hilks : ∀ j, s'.ilks.lookup j = if j = r.ilkId then some r else s.ilks.lookup j) :
    Announces s s' [.ilkUpsert r] where
  told := by
    intro d hd
    rw [mem_singleton.mp hd]
    exact (hilks r.ilkId).trans (if_pos rfl)
  tenants := by
    intro id _
    rw [htenants]
  ilks := by
    intro id h
    rw [hilks, if_neg fun heq => h _ (mem_singleton.mpr rfl) heq.symm]
  aliases := by
    intro old _
    rw [haliases]

theorem announces_tenant {t : TenantRecord} (hilks : s'.ilks = s.ilks)
    (haliases : s'.aliases = s.aliases)
    (htenants : ∀ id, s'.tenants.lookup id = if id = t.tenantId then some t else
      s.tenants.lookup id) : Announces s s' [.tenantUpsert t] where
  told := by
    intro d hd
    rw [mem_singleton.mp hd]
    exact (htenants t.tenantId).trans (if_pos rfl)
  tenants := by
    intro id h
    rw [htenants, if_neg fun heq => h _ (mem_singleton.mpr rfl) heq.symm]
  ilks := by
    intro id _
    rw [hilks]
  aliases := by
    intro old _
    rw [haliases]

theorem announces_purgeIlk {id : String} (stored : s.ilks.lookup id = some entry)
    (hwk : isWellKnownSystemIlk entry = false) :
    Announces s (s.removeIlkPhysically id).1
      ((s.removeIlkPhysically id).2.map .aliasDelete ++ [.ilkDelete id]) where
  told := by
    have hgone : ∀ old a, s.aliases.lookup old = some a → a.Touches old id →
        (s.removeIlkPhysically id).1.aliases.lookup old = none := by
      intro old a ha htouch
      rw [eq_none_iff_forall_ne_some]
      intro b hb
      obtain ⟨hold, hne, hcan⟩ := removeIlkPhysically_aliases.mp hb
      rw [ha] at hold
      cases hold
      exact htouch.elim hne hcan
    intro d hd
    rcases mem_append.mp hd with hd | hd
    · obtain ⟨old, hold, rfl⟩ := List.mem_map.mp hd
      obtain ⟨a, ha, htouch⟩ := mem_aliasOldIdsReferencing.mp hold
      exact hgone old a ha htouch
    · rw [mem_singleton.mp hd]
      refine ⟨by rw [removeIlkPhysically_lookup, if_pos rfl], ?_, ?_⟩
      · intro ilk hilk
        rw [stored] at hilk
        rwa [← Option.some.inj hilk]
      · rintro old a (ha | ha) htouch
        · exact hgone old a ha htouch
        · exact hgone old a (removeIlkPhysically_aliases.mp ha).1 htouch
  tenants := fun _ _ => rfl
  ilks := by
    intro j h
    rw [removeIlkPhysically_lookup, if_neg]
    rintro rfl
    exact h (.ilkDelete j) (by simp) rfl
  aliases := by
    intro old h
    apply Option.ext
    intro a
    rw [removeIlkPhysically_aliases, and_iff_left_iff_imp]
    intro ha
    rw [← not_or]
    intro htouch
    refine h (.aliasDelete old) ?_ rfl
    exact mem_append_left _ (List.mem_map_of_mem (mem_aliasOldIdsReferencing.mpr ⟨a, ha, htouch⟩))

theorem purgedStore_lookup_emptied (hk : s.Kept) (tenantId j : String) :
    (purgedStore s tenantId).ilks.lookup j =
      ((emptiedTenant s tenantId).1.ilks.lookup j).map (dropScope tenantId) := by
  rw [purgedStore, dropChannelsInScope_lookup (hk.emptied tenantId)]

theorem mem_trimmed (hk : s.Kept) :
    r ∈ ((emptiedTenant s tenantId).1.dropChannelsInScope tenantId).2.2 ↔
      ∃ r₀, (emptiedTenant s tenantId).1.ilks.lookup r.ilkId = some r₀ ∧
        (∃ c ∈ r₀.channels, channelScope c r₀.tenantId = tenantId) ∧ r = dropScope tenantId r₀ := by
  have hke := hk.emptied tenantId
  rw [dropChannelsInScope, mem_dropLoop_records (nodup_scopeHolders hke tenantId)]
  constructor
  · rintro ⟨id, hid, r₀, hr₀, rfl⟩
    have hname : (dropScope tenantId r₀).ilkId = id := hke.named id r₀ hr₀
    obtain ⟨r₁, hr₁, hheld⟩ := (mem_scopeHolders hke).mp hid
    rw [hr₀] at hr₁
    cases hr₁
    exact ⟨r₀, by rw [hname, hr₀], hheld, rfl⟩
  · rintro ⟨r₀, hr₀, hheld, rfl⟩
    exact ⟨_, (mem_scopeHolders hke).mpr ⟨r₀, hr₀, hheld⟩, r₀, hr₀, rfl⟩

theorem announces_purgeTenant (hk : s.Kept)
    (hwk : ∀ id ∈ s.tenantIlks tenantId, ∀ r ∈ s.ilks.lookup id, ¬ isWellKnownSystemIlk r) :
    Announces s (purgedStore s tenantId) (purgeDeltas s tenantId) where
  told := by
    have hgone : ∀ id ∈ s.tenantIlks tenantId, ∀ old a, s.aliases.lookup old = some a →
        a.Touches old id → (purgedStore s tenantId).aliases.lookup old = none := by
      intro id hid old a ha htouch
      rw [eq_none_iff_forall_ne_some]
      intro b hb
      obtain ⟨hold, hne, hcan⟩ := purgedStore_aliases.mp hb
      rw [ha] at hold
      cases hold
      exact htouch.elim (fun h => hne (h ▸ hid)) fun h => hcan (h ▸ hid)
    intro d hd
    simp only [purgeDeltas, mem_append, List.mem_map, mem_singleton] at hd
    rcases hd with ((⟨r, hr, rfl⟩ | ⟨old, hold, rfl⟩) | ⟨id, hid, rfl⟩) | rfl
    · obtain ⟨r₀, hr₀, -, hr⟩ := (mem_trimmed hk).mp hr
      show (purgedStore s tenantId).ilks.lookup r.ilkId = some r
      rw [purgedStore_lookup_emptied hk, hr₀, map_some, ← hr]
    · obtain ⟨a, ha, hin⟩ := mem_purgeLoop_aliases.mp hold
      rcases hin with hin | hin
      · exact hgone old hin old a ha (.inl rfl)
      · exact hgone _ hin old a ha (.inr rfl)
    · refine ⟨by rw [purgedStore_lookup hk, if_pos hid], ?_, ?_⟩
      · intro r hr
        simpa using hwk id hid r hr
      · rintro old a (ha | ha) htouch
        · exact hgone id hid old a ha htouch
        · exact hgone id hid old a (purgedStore_aliases.mp ha).1 htouch
    · show (purgedStore s tenantId).tenants.lookup tenantId = none
      rw [purgedStore_tenants, lookup_erase_eq, if_pos rfl]
  tenants := by
    intro id h
    rw [purgedStore_tenants, lookup_erase_eq, if_neg]
    rintro rfl
    exact h (.tenantDelete id) (by simp [purgeDeltas]) rfl
  ilks := by
    intro j h
    have hj : j ∉ s.tenantIlks tenantId := by
      intro hin
      exact h (.ilkDelete j) (by simp [purgeDeltas, hin]) rfl
    have hemptied : (emptiedTenant s tenantId).1.ilks.lookup j = s.ilks.lookup j := by
      rw [emptiedTenant, purgeLoop_lookup, if_neg hj]
    rw [purgedStore_lookup_emptied hk, hemptied]
    cases hr : s.ilks.lookup j with
    | none => rfl
    | some r =>
      rw [map_some, dropScope_of_none]
      intro c hc hscope
      -- A record with a channel in the tenant's scope is among the trimmed ones.
      have hname : (dropScope tenantId r).ilkId = j := hk.named j r hr
      have hmem := (mem_trimmed hk).mpr ⟨r, by rw [hname, hemptied, hr], ⟨c, hc, hscope⟩, rfl⟩
      exact h (.ilkUpsert (dropScope tenantId r)) (by simp [purgeDeltas, hmem]) hname
  aliases := by
    intro old h
    apply Option.ext
    intro a
    rw [purgedStore_aliases, and_iff_left_iff_imp]
    intro ha
    rw [← not_or]
    intro hin
    have hmem : old ∈ (emptiedTenant s tenantId).2 := mem_purgeLoop_aliases.mpr ⟨a, ha, hin⟩
    exact h (.aliasDelete old) (by simp [purgeDeltas, hmem]) rfl

theorem mem_gcDeltas {t : IdentityStore} {ids : List String} {d : IdentityDelta} :
    d ∈ ids.flatMap (gcDeltas t) ↔ ∃ old ∈ ids, d = .aliasDelete old ∨
        ∃ r, t.ilks.lookup old = some r ∧ r.deletedAtMs.isSome ∧ d = .ilkUpsert r := by
  simp only [mem_flatMap, gcDeltas, mem_cons, List.mem_map, mem_toList,
    filter_eq_some_iff, and_assoc, eq_comm (b := d)]

theorem announces_gc (hk : s.Kept) : Announces s (s.gcExpiredAliases now)
      ((s.expiredAliases now).flatMap (gcDeltas (s.gcExpiredAliases now))) where
  told := by
    intro d hd
    obtain ⟨old, hold, rfl | ⟨r, hr, -, rfl⟩⟩ := mem_gcDeltas.mp hd
    · obtain ⟨a, ha, hexp⟩ := mem_expiredAliases.mp hold
      show (s.gcExpiredAliases now).aliases.lookup old = none
      rw [eq_none_iff_forall_ne_some]
      intro b hb
      obtain ⟨hb, hlive⟩ := gcExpiredAliases_aliases.mp hb
      rw [ha] at hb
      cases hb
      omega
    · have hname : r.ilkId = old := by
        have hr' := hr
        rw [gcExpiredAliases_lookup, if_pos hold] at hr'
        obtain ⟨r₀, hr₀, rfl⟩ := map_eq_some_iff.mp hr'
        rw [(markExpired_tidy (hk.tidy _ _ hr₀) now).1, hk.named old r₀ hr₀]
      show (s.gcExpiredAliases now).ilks.lookup r.ilkId = some r
      rw [hname, hr]
  tenants := fun _ _ => rfl
  ilks := by
    intro j h
    rw [gcExpiredAliases_lookup]
    split_ifs with hj
    · cases hr : s.ilks.lookup j with
      | none => rfl
      | some r =>
        -- A marked record is announced, so this one is not marked and stays as it is.
        have hnow : (s.gcExpiredAliases now).ilks.lookup j = some (markExpired now r) := by
          rw [gcExpiredAliases_lookup, if_pos hj, hr, map_some]
        have hname : (markExpired now r).ilkId = j := by
          rw [(markExpired_tidy (hk.tidy _ _ hr) now).1, hk.named j r hr]
        have hunmarked : ¬ (markExpired now r).deletedAtMs.isSome := fun hmarked =>
          h _ (mem_gcDeltas.mpr ⟨j, hj, .inr ⟨_, hnow, hmarked, rfl⟩⟩) hname
        rw [map_some]
        unfold markExpired at hunmarked ⊢
        split_ifs with hmark
        · rw [if_pos hmark] at hunmarked
          exact absurd rfl hunmarked
        · rfl
    · rfl
  aliases := by
    intro old h
    apply Option.ext
    intro a
    rw [gcExpiredAliases_aliases, and_iff_left_iff_imp]
    intro ha
    by_contra hexp
    refine h (.aliasDelete old) (mem_gcDeltas.mpr ⟨old, ?_, .inl rfl⟩) rfl
    exact mem_expiredAliases.mpr ⟨a, ha, by omega⟩

theorem announces_restore (hk : s.Kept) {id : String} (stored : s.ilks.lookup id = some entry) :
    Announces s (s.unmarkIlkUnchecked id).1 ((s.unmarkIlkUnchecked id).2.ilks.map .ilkUpsert) := by
  obtain ⟨htenants, haliases, hother, r, hr, hres⟩ := unmarkIlkUnchecked_rescopes stored
  have hname : r.ilkId = id := by
    rw [hres.record]
    exact hk.named id entry stored
  have hdeltas : (s.unmarkIlkUnchecked id).2.ilks = [r] := by
    have hlook : (s.unmarkIlkUnchecked id).2.ilks =
        ((s.unmarkIlkUnchecked id).1.ilks.lookup id).toList := by
      simp only [unmarkIlkUnchecked, stored]
    rw [hlook, hr]
    rfl
  rw [hdeltas]
  refine announces_put htenants haliases ?_
  intro j
  rw [hname]
  split_ifs with hj
  · rw [hj, hr]
  · exact hother j hj

theorem announces_merge {id sourceId : String} {expiresAtMs : ℕ} {old next source : IlkRecord}
    {new : List ChannelRecord} (hk : s.Kept)
    (h : Absorbs s s' id old next new source.channels [sourceId])
    (sourced : s.ilks.lookup sourceId = some source)
    (haliases : s'.aliases = s.aliases.insert sourceId ⟨id, expiresAtMs⟩) :
    Announces s s' [.ilkUpsert next, .ilkUpsert { source with channels := [] },
      .aliasUpsert ⟨sourceId, id, expiresAtMs⟩] := by
  have hne : sourceId ≠ id := (h.sourced sourceId (mem_singleton.mpr rfl)).1
  have hnext : next.ilkId = id := h.ilkId.trans (hk.named id old h.stored)
  have hsource : source.ilkId = sourceId := hk.named sourceId source sourced
  have hself : s'.ilks.lookup id = some next := by rw [h.ilks, if_pos rfl]
  have hleft : s'.ilks.lookup sourceId = some { source with channels := [] } := by
    rw [h.ilks, if_neg hne, sourced, map_some, if_pos (mem_singleton.mpr rfl)]
  refine ⟨?_, ?_, ?_, ?_⟩
  · intro d hd
    simp only [mem_cons, not_mem_nil, or_false] at hd
    rcases hd with rfl | rfl | rfl
    · show s'.ilks.lookup next.ilkId = some next
      rw [hnext, hself]
    · rw [← hsource] at hleft
      exact hleft
    · show s'.aliases.lookup sourceId = some ⟨id, expiresAtMs⟩
      rw [haliases, lookup_insert]
  · intro j _
    rw [h.tenants]
  · intro j hj
    have hjid : j ≠ id := fun heq => hj (.ilkUpsert next) (by simp) (hnext.trans heq.symm)
    have hjsource : j ≠ sourceId :=
      fun heq => hj (.ilkUpsert { source with channels := [] }) (by simp) (hsource.trans heq.symm)
    rw [h.ilks, if_neg hjid]
    simp only [mem_singleton, hjsource, if_false, Option.map_id']
  · intro j hj
    have hjsource : j ≠ sourceId := fun heq =>
      hj (.aliasUpsert ⟨sourceId, id, expiresAtMs⟩) (by simp) heq.symm
    rw [haliases, lookup_insert_ne hjsource]

theorem Turn.announces (h : Turn s now q s' deltas) (hk : s.Kept) : Announces s s' deltas := by
  cases h with
  | same => exact ⟨by simp, fun _ _ => rfl, fun _ _ => rfl, fun _ _ => rfl⟩
  | tenantPut t => exact announces_tenant rfl rfl fun _ => lookup_insert_eq _ _ _ _
  | @tenantKept q t h =>
    refine announces_tenant rfl rfl fun id => ?_
    split_ifs with hid
    · rw [hid, h]
    · rfl
  | @retouch q id old new stored h =>
    have hname : id = new.ilkId := (h.ilkId.trans (hk.named id old stored)).symm
    refine announces_put rfl rfl fun j => ?_
    rw [← hname]
    exact lookup_insert_eq _ _ _ _
  | provision | registerNew => exact announces_put rfl rfl fun _ => lookup_insert_eq _ _ _ _
  | @attach q s' id old next new h aliases =>
    have hname : next.ilkId = id := h.ilkId.trans (hk.named id old h.stored)
    refine announces_put h.tenants aliases fun j => ?_
    rw [hname, h.ilks]
    simp only [not_mem_nil, if_false, Option.map_id']
  | merge h sourced aliases => exact announces_merge hk h sourced aliases
  | @mark q id old stored =>
    have hname : id = old.ilkId := (hk.named id old stored).symm
    refine announces_put rfl rfl fun j => ?_
    show _ = if j = old.ilkId then _ else _
    rw [← hname]
    exact lookup_insert_eq _ _ _ _
  | restore stored => exact announces_restore hk stored
  | purgeIlk stored wellKnown => exact announces_purgeIlk stored wellKnown
  | purgeTenant wellKnown => exact announces_purgeTenant hk wellKnown
  | gc => exact announces_gc hk

end Fluxbee.Identity
