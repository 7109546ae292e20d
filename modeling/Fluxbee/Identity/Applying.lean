import Fluxbee.Identity.Holding

/-! What a store holds once it applied a delta, and what the checks on a pushed record say of it. -/
namespace Fluxbee.Identity
open Text Fallible IdentityStore AList List

variable {s : IdentityStore} {ilk : IlkRecord} {id j : String} {k : IchKey}

theorem applyDelta_upsert_lookup (s : IdentityStore) (ilk : IlkRecord) (j : String) :
    (s.applyDelta (.ilkUpsert ilk)).ilks.lookup j =
      if j = ilk.ilkId then some (fillChannelScopes ilk) else s.ilks.lookup j :=
  lookup_insert_eq _ _ _ _

theorem relinked_resolve : (s.relinked ilk).lookup k = some j ↔
      (if ilk.deletedAtMs = none ∧ k ∈ ilk.keys then j = ilk.ilkId
        else s.resolve k = some j ∧ j ≠ ilk.ilkId) := by
  have hcleared : (s.ichLookup.retain fun _ mapped => mapped != ilk.ilkId).lookup k = some j ↔
      s.resolve k = some j ∧ j ≠ ilk.ilkId := by
    simp only [lookup_retain_eq_some, bne_iff_ne, resolve]
  unfold relinked
  by_cases hact : ilk.deletedAtMs = none
  · simp only [hact, if_true, true_and]
    rw [lookup_insertAll]
    split_ifs with hkey
    · rw [Option.some.injEq, eq_comm]
    · exact hcleared
  · simp only [hact, if_false, false_and]
    exact hcleared

theorem applyDelta_upsert_resolve : (s.applyDelta (.ilkUpsert ilk)).resolve k = some j ↔
      (if ilk.deletedAtMs = none ∧ k ∈ (fillChannelScopes ilk).keys then j = ilk.ilkId
        else s.resolve k = some j ∧ j ≠ ilk.ilkId) := relinked_resolve

/-- The delta of a well-known system ILK's removal is ignored. -/
def wellKnown (s : IdentityStore) (id : String) : Bool :=
  ((s.ilks.lookup id).map isWellKnownSystemIlk).getD false

theorem applyDelta_delete_of_wellKnown (h : wellKnown s id = true) :
    s.applyDelta (.ilkDelete id) = s := if_pos h

section
variable (h : wellKnown s id = false)
include h

theorem applyDelta_delete_of_not : s.applyDelta (.ilkDelete id) = { s with
        aliases := s.aliases.retain fun old a => old != id && a.canonicalIlkId != id
        ichLookup := s.ichLookup.retain fun _ mapped => mapped != id
        ilks := s.ilks.erase id } := by
  unfold wellKnown at h
  simp only [applyDelta, h]
  rfl

theorem applyDelta_delete_lookup (j : String) :
    (s.applyDelta (.ilkDelete id)).ilks.lookup j = if j = id then none else s.ilks.lookup j := by
  rw [applyDelta_delete_of_not h]
  exact lookup_erase_eq _ _ _

theorem applyDelta_delete_resolve :
    (s.applyDelta (.ilkDelete id)).resolve k = some j ↔ s.resolve k = some j ∧ j ≠ id := by
  rw [applyDelta_delete_of_not h]
  exact lookup_retain_eq_some.trans (and_congr_right fun _ => bne_iff_ne)

theorem applyDelta_delete_aliases {old : String} {a : AliasRecord} :
    (s.applyDelta (.ilkDelete id)).aliases.lookup old = some a ↔
      s.aliases.lookup old = some a ∧ old ≠ id ∧ a.canonicalIlkId ≠ id := by
  rw [applyDelta_delete_of_not h]
  refine lookup_retain_eq_some.trans (and_congr_right fun _ => ?_)
  rw [Bool.and_eq_true, bne_iff_ne, bne_iff_ne]

end

theorem fillScope_key {tenantId : String} (h : IsTenantId tenantId) (c : ChannelRecord) :
    channelKey (c.fillScope tenantId) tenantId = channelKey c tenantId := by
  unfold ChannelRecord.fillScope
  split_ifs with hblank
  · simp only [channelKey, channelScope, h.trim_eq, hblank, if_true, ne_empty_of_isCanonicalId h,
      if_false]
  · rfl

theorem fillChannelScopes_keys (h : IsTenantId ilk.tenantId) :
    (fillChannelScopes ilk).keys = ilk.keys := by
  simp only [IlkRecord.keys, fillChannelScopes, map_map]
  exact map_congr_left fun c _ => fillScope_key h c

theorem ilkRecordIdsCanonical_tidy (h : ilkRecordIdsCanonical ilk = true) :
    IsTenantId ilk.tenantId ∧ (fillChannelScopes ilk).Tidy := by
  simp only [ilkRecordIdsCanonical, Bool.and_eq_true, all_eq_true, Bool.or_eq_true, beq_iff_eq] at h
  obtain ⟨⟨-, htenant⟩, hchannels⟩ := h
  refine ⟨htenant, htenant, ?_⟩
  intro c hc
  obtain ⟨d, hd, rfl⟩ := mem_map.mp hc
  obtain ⟨-, hscope⟩ := hchannels d hd
  unfold ChannelRecord.fillScope
  split_ifs with hblank
  · exact htenant
  · rcases hscope with hempty | hcanonical
    · rw [hempty] at hblank
      exact absurd (by decide) hblank
    · exact hcanonical

/-- A record that a hive may push: its ids are canonical, its tenant is the one it has, and its
keys are free of every other ILK. -/
structure Pushable (s : IdentityStore) (ilk : IlkRecord) : Prop where
  tenant : IsTenantId ilk.tenantId
  tidy : (fillChannelScopes ilk).Tidy
  sameTenant : ∀ r ∈ s.ilks.lookup ilk.ilkId, r.tenantId = ilk.tenantId
  free : ∀ k ∈ ilk.keys, s.checkChannelFree k [ilk.ilkId] = .ok ()

theorem replicaPushAcceptable_pushable (h : replicaPushAcceptable ilk s = true) :
    Pushable s ilk := by
  simp only [replicaPushAcceptable, Bool.and_eq_true, all_eq_true] at h
  obtain ⟨⟨⟨hids, htenant⟩, -⟩, hfree⟩ := h
  obtain ⟨htid, htidy⟩ := ilkRecordIdsCanonical_tidy hids
  refine ⟨htid, htidy, ?_, ?_⟩
  · intro r hr
    rw [Option.mem_def.mp hr] at htenant
    simpa using htenant
  · intro k hk
    have hok := hfree k hk
    cases hcheck : s.checkChannelFree k [ilk.ilkId] with
    | ok u => rfl
    | error e =>
      rw [hcheck] at hok
      cases hok

end Fluxbee.Identity
