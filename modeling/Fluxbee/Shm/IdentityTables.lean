import Fluxbee.Shm.IdentityWriter

/-! What the tables of the identity region stand for: a map of tenants, of ILKs, of channels and of
aliases, each under its id, that the operations of the writer define. -/
namespace Fluxbee.Shm
open DenseTable Function Option SlotTable IlkEntry

/-- An ILK without the place of its channels in the channel table. -/
def IlkEntry.plain (e : IlkEntry) : IlkEntry := withLayout e (0, 0)

structure IdentityMaps where
  tenants : Id16 → Option TenantEntry
  ilks : Id16 → Option IlkEntry
  ichs : Id16 → Option IchEntry
  aliases : Id16 → Option IlkAliasEntry

namespace IdentityMaps

def empty : IdentityMaps := ⟨fun _ => none, fun _ => none, fun _ => none, fun _ => none⟩

/-- The last write of an id is what the map has of it; a tenant or an ILK written again keeps the
time its first entry was created. -/
def exec (m : IdentityMaps) : WriterOp → IdentityMaps
  | .clear => empty
  | .writeSnapshot tenants ilks ichs aliases _ =>
    { tenants := assign TenantEntry.tenantId empty.tenants tenants
      ilks := assign IlkEntry.ilkId empty.ilks (ilks.map IlkEntry.plain)
      ichs := assign IchEntry.ichId empty.ichs ichs
      aliases := assign IlkAliasEntry.oldIlkId empty.aliases aliases }
  | .upsertTenant e =>
    { m with
      tenants := Function.update m.tenants e.tenantId
        (some ((m.tenants e.tenantId).elim e fun old => { e with createdAt := old.createdAt })) }
  | .upsertIlk e =>
    { m with
      ilks := Function.update m.ilks e.ilkId
        (some ((m.ilks e.ilkId).elim e.plain fun old =>
          { e.plain with createdAt := old.createdAt })) }
  | .removeIlk ilkId => { m with ilks := Function.update m.ilks ilkId none }
  | .replaceIchs ilkId entries =>
    { m with
      ichs := assign IchEntry.ichId
        (fun k => (m.ichs k).filter fun c => decide (c.ilkId ≠ ilkId)) entries }
  | .provision ilk entries =>
    { m with
      ilks := Function.update m.ilks ilk.ilkId (some ilk.plain)
      ichs := assign IchEntry.ichId m.ichs entries }
  | .upsertAlias e => { m with aliases := Function.update m.aliases e.oldIlkId (some e) }
  | .removeAlias oldIlkId => { m with aliases := Function.update m.aliases oldIlkId none }
  | .upsertMapping .. | .removeMapping .. | .clearMappings .. => m

/-- What the writer takes on trust: the entries it is given are active, a list names no id twice,
and no channel is written while the table holds it for another ILK. -/
def Trusts (m : IdentityMaps) : WriterOp → Prop
  | .writeSnapshot tenants ilks ichs aliases _ =>
    ((∀ e ∈ tenants, e.active = true) ∧ (tenants.map TenantEntry.tenantId).Nodup) ∧
      ((∀ e ∈ ilks, e.active = true) ∧ (ilks.map IlkEntry.ilkId).Nodup) ∧
      ((∀ e ∈ ichs, e.active = true) ∧ (ichs.map IchEntry.ichId).Nodup) ∧
      (∀ e ∈ aliases, e.active = true) ∧ (aliases.map IlkAliasEntry.oldIlkId).Nodup
  | .upsertTenant e => e.active = true
  | .upsertIlk e => e.active = true
  | .upsertAlias e => e.active = true
  | .replaceIchs ilkId entries =>
    ((∀ e ∈ entries, e.active = true) ∧ (entries.map IchEntry.ichId).Nodup) ∧
      ∀ e ∈ entries, ∀ c, m.ichs e.ichId = some c → c.ilkId = ilkId
  | .provision ilk entries =>
    ilk.active = true ∧ ((∀ e ∈ entries, e.active = true) ∧ (entries.map IchEntry.ichId).Nodup) ∧
      ∀ e ∈ entries, m.ichs e.ichId = none
  | .clear | .removeIlk .. | .removeAlias .. | .upsertMapping .. | .removeMapping .. |
    .clearMappings .. => True

end IdentityMaps

/-- A region and the maps that the operations which made it define, each of them successful. -/
inductive Wrote (S : Sections) : IdentityRegion S → IdentityMaps → Prop where
  | created (now : ℕ) : Wrote S (IdentityRegion.empty S now) IdentityMaps.empty
  | step {r : IdentityRegion S} {m : IdentityMaps} {op : WriterOp} (now : ℕ) (h : Wrote S r m)
      (htrust : m.Trusts op) (hok : (r.exec now op).2 = some (.ok ())) :
      Wrote S (r.exec now op).1 (m.exec op)

/-- In each table the first entries, as many as the header counts, are active and have ids of their
own, the rest are empty, and the entries are those of the map; ILKs up to their channel layout. -/
structure Tables {S : Sections} (r : IdentityRegion S) (m : IdentityMaps) : Prop where
  tenants : Dense TenantEntry.active TenantEntry.tenantId emptyTenantEntry r.tenants
    r.header.tenantCount m.tenants
  ilks : ∃ M, Dense IlkEntry.active IlkEntry.ilkId emptyIlkEntry r.ilks r.header.ilkCount M ∧
    ∀ id, (M id).map IlkEntry.plain = m.ilks id
  ichs : Dense IchEntry.active IchEntry.ichId emptyIchEntry r.ichs r.header.ichCount m.ichs
  aliases : Dense IlkAliasEntry.active IlkAliasEntry.oldIlkId emptyIlkAliasEntry r.aliases
    r.header.ilkAliasCount m.aliases

/-- No section has more entries than its count can tell. -/
structure Sections.Counted (S : Sections) : Prop where
  tenants : S.tenants ≤ u32Max
  ilks : S.ilks ≤ u32Max
  ichs : S.ichs ≤ u32Max
  aliases : S.aliases ≤ u32Max

theorem IdentityRegionLimits.counted (l : IdentityRegionLimits) : l.sections.Counted where
  tenants := Nat.le_of_lt_succ l.maxTenants.toNat_lt
  ilks := Nat.le_of_lt_succ l.maxIlks.toNat_lt
  ichs := Nat.min_le_right _ _
  aliases := Nat.le_of_lt_succ l.maxIlkAliases.toNat_lt

variable {count : ℕ} {ilkId : Id16} {entries : List IchEntry}

section

variable {α K : Type} {n : ℕ} {live : α → Bool} {key : α → K} {blank : α} {t : Vector α n}
  {m : K → Option α}

theorem saturatingAdd32_eq {a b n : ℕ} (h : a + b ≤ n) (hn : n ≤ u32Max) :
    saturatingAdd32 a b = a + b := Nat.min_eq_left (h.trans hn)

theorem dense_grown {fresh : Bool} (hn : n ≤ u32Max)
    (h : Dense live key blank t (if fresh then count + 1 else count) m) :
    Dense live key blank t (IdentityRegion.grown count fresh) m := by
  cases fresh with
  | false => exact h
  | true =>
    have hcount : IdentityRegion.grown count true = count + 1 := saturatingAdd32_eq h.used_le hn
    rw [hcount]
    exact h

theorem fill_eq_append (n : ℕ) (blank : α) (src : List α) :
    IdentityRegion.fill n blank src = append (Vector.replicate n blank) 0 src := by
  apply ext_get
  intro i
  rw [get_append, if_pos (Nat.zero_le _), Nat.sub_zero, IdentityRegion.fill, get_ofFn,
    List.getD_eq_getElem?_getD, get_replicate]

theorem dense_fill [DecidableEq K] (hblank : live blank = false) {es : List α}
    (hroom : ¬ es.length > n) (h : (∀ e ∈ es, live e = true) ∧ (es.map key).Nodup) :
    Dense live key blank (IdentityRegion.fill n blank es) es.length
      (assign key (fun _ => none) es) := by
  rw [fill_eq_append]
  exact dense_append_blank hblank (Nat.le_of_not_gt hroom) h.1 h.2

end

namespace Tables

variable {S : Sections} {r : IdentityRegion S} {m : IdentityMaps} {now : ℕ}

theorem empty (S : Sections) (now : ℕ) : Tables (IdentityRegion.empty S now) IdentityMaps.empty := by
  constructor
  · exact dense_blank rfl (get_replicate _)
  · exact ⟨_, dense_blank rfl (get_replicate _), fun _ => rfl⟩
  · exact dense_blank rfl (get_replicate _)
  · exact dense_blank rfl (get_replicate _)

theorem frame (h : Tables r m) {r' : IdentityRegion S} (ht : r'.tenants = r.tenants)
    (hi : r'.ilks = r.ilks) (hc : r'.ichs = r.ichs) (ha : r'.aliases = r.aliases)
    (hcounts : (r'.header.tenantCount, r'.header.ilkCount, r'.header.ichCount,
      r'.header.ilkAliasCount) = (r.header.tenantCount, r.header.ilkCount, r.header.ichCount,
      r.header.ilkAliasCount)) : Tables r' m := by
  simp only [Prod.mk.injEq] at hcounts
  obtain ⟨htc, hic, hcc, hac⟩ := hcounts
  constructor
  · rw [ht, htc]
    exact h.tenants
  · rw [hi, hic]
    exact h.ilks
  · rw [hc, hcc]
    exact h.ichs
  · rw [ha, hac]
    exact h.aliases

theorem writeSnapshot {tenants : List TenantEntry} {ilks : List IlkEntry} {ichs : List IchEntry}
    {aliases : List IlkAliasEntry} {vocabulary : List VocabularyEntry}
    (htrust : m.Trusts (.writeSnapshot tenants ilks ichs aliases vocabulary))
    (hok : (r.writeSnapshotEntries tenants ilks ichs aliases vocabulary now).2 = .ok ()) :
    Tables (r.writeSnapshotEntries tenants ilks ichs aliases vocabulary now).1
      (m.exec (.writeSnapshot tenants ilks ichs aliases vocabulary)) := by
  obtain ⟨hts, his, hcs, has⟩ := htrust
  unfold IdentityRegion.writeSnapshotEntries at hok ⊢
  split_ifs at hok ⊢ with ht hi hc ha hv
  constructor
  · exact dense_fill rfl ht hts
  · exact ⟨_, dense_fill rfl hi his, map_assign (f := plain) (fun _ => rfl) _ ilks⟩
  · exact dense_fill rfl hc hcs
  · exact dense_fill rfl ha has

section
variable (h : Tables r m)
include h

theorem upsertTenant (hS : S.Counted) {e : TenantEntry} (he : e.active = true)
    (hok : (r.upsertTenantEntry e now).2 = .ok ()) :
    Tables (r.upsertTenantEntry e now).1 (m.exec (.upsertTenant e)) := by
  unfold IdentityRegion.upsertTenantEntry at hok ⊢
  split_ifs at hok ⊢
  cases hup : upsert r.tenants r.header.tenantCount (IdentityRegion.isTenant e.tenantId)
      (fun old => { e with createdAt := old.createdAt }) e with
  | none =>
    rw [hup] at hok
    cases hok
  | some w =>
    obtain ⟨table, fresh⟩ := w
    have hnew := h.tenants.upsert rfl hup he (fun _ _ => he) (fun _ _ => rfl)
    exact ⟨dense_grown hS.tenants hnew, h.ilks, h.ichs, h.aliases⟩

theorem upsertIlk (hS : S.Counted) {e : IlkEntry} (he : e.active = true)
    (hok : (r.upsertIlkEntry e now).2 = .ok ()) :
    Tables (r.upsertIlkEntry e now).1 (m.exec (.upsertIlk e)) := by
  obtain ⟨M, hdense, hplain⟩ := h.ilks
  unfold IdentityRegion.upsertIlkEntry at hok ⊢
  split_ifs at hok ⊢
  cases hup : upsert r.ilks r.header.ilkCount (IdentityRegion.isIlk e.ilkId)
      (fun old => { e with createdAt := old.createdAt }) e with
  | none =>
    rw [hup] at hok
    cases hok
  | some w =>
    obtain ⟨table, fresh⟩ := w
    have hnew := hdense.upsert rfl hup he (fun _ _ => he) (fun _ _ => rfl)
    refine ⟨h.tenants, ⟨_, dense_grown hS.ilks hnew, ?_⟩, h.ichs, h.aliases⟩
    intro id
    simp only [IdentityMaps.exec, update_apply]
    split_ifs
    · rw [← hplain e.ilkId]
      cases M e.ilkId <;> rfl
    · exact hplain id

theorem upsertAlias (hS : S.Counted) {e : IlkAliasEntry} (he : e.active = true)
    (hok : (r.upsertIlkAliasEntry e now).2 = .ok ()) :
    Tables (r.upsertIlkAliasEntry e now).1 (m.exec (.upsertAlias e)) := by
  unfold IdentityRegion.upsertIlkAliasEntry at hok ⊢
  split_ifs at hok ⊢
  cases hup : upsert r.aliases r.header.ilkAliasCount (IdentityRegion.isAlias e.oldIlkId)
      (fun _ => e) e with
  | none =>
    rw [hup] at hok
    cases hok
  | some w =>
    obtain ⟨table, fresh⟩ := w
    have hnew := h.aliases.upsert rfl hup he (fun _ _ => he) (fun _ _ => rfl)
    have hlast : ((m.aliases e.oldIlkId).elim e fun _ => e) = e := by
      cases m.aliases e.oldIlkId <;> rfl
    rw [hlast] at hnew
    exact ⟨h.tenants, h.ilks, h.ichs, dense_grown hS.aliases hnew⟩

theorem removeIlk : Tables (r.removeIlkEntry ilkId now).1 (m.exec (.removeIlk ilkId)) := by
  obtain ⟨M, hdense, hplain⟩ := h.ilks
  have hmap : ∀ id, (update M ilkId none id).map plain = update m.ilks ilkId none id := by
    intro id
    rw [update_apply, update_apply]
    split_ifs
    · rfl
    · exact hplain id
  unfold IdentityRegion.removeIlkEntry
  rw [if_neg (Nat.not_lt.mpr hdense.used_le)]
  cases hrem : DenseTable.remove emptyIlkEntry r.ilks r.header.ilkCount
      (IdentityRegion.isIlk ilkId) with
  | none =>
    have hsame : update M ilkId none = M :=
      update_eq_self_iff.mpr (hdense.remove_none rfl hrem).symm
    rw [← hsame] at hdense
    exact ⟨h.tenants, ⟨_, hdense, hmap⟩, h.ichs, h.aliases⟩
  | some ilks => exact ⟨h.tenants, ⟨_, (hdense.remove rfl hrem).2, hmap⟩, h.ichs, h.aliases⟩

theorem removeAlias {oldIlkId : Id16} :
    Tables (r.removeIlkAliasEntry oldIlkId now).1 (m.exec (.removeAlias oldIlkId)) := by
  have hdense := h.aliases
  unfold IdentityRegion.removeIlkAliasEntry
  rw [if_neg (Nat.not_lt.mpr hdense.used_le)]
  cases hrem : DenseTable.remove emptyIlkAliasEntry r.aliases r.header.ilkAliasCount
      (IdentityRegion.isAlias oldIlkId) with
  | none =>
    have hsame : update m.aliases oldIlkId none = m.aliases :=
      update_eq_self_iff.mpr (hdense.remove_none rfl hrem).symm
    rw [← hsame] at hdense
    exact ⟨h.tenants, h.ilks, h.ichs, hdense⟩
  | some aliases => exact ⟨h.tenants, h.ilks, h.ichs, (hdense.remove rfl hrem).2⟩

end

theorem reindex {n : ℕ} {ilks : Vector IlkEntry n} {M : Id16 → Option IlkEntry}
    (h : Dense IlkEntry.active IlkEntry.ilkId emptyIlkEntry ilks count M) (ichs : List IchEntry) :
    ∃ M', Dense IlkEntry.active IlkEntry.ilkId emptyIlkEntry
        (reindexIlkChannelLayout ilks count ichs) count M' ∧
      ∀ id, (M' id).map plain = (M id).map plain := by
  let place : IlkEntry → IlkEntry := fun e => withLayout e (((perIlk ichs).lookup e.ilkId).getD (0, 0))
  have hget : ∀ i : Fin n, (reindexIlkChannelLayout ilks count ichs).get i =
      if i.val < count then place (ilks.get i) else ilks.get i := by
    intro i
    simp only [reindexIlkChannelLayout, get_ofFn]
    by_cases hi : i.val < count
    · rw [if_pos ⟨hi, h.live_of_lt i hi⟩, if_pos hi]
    · rw [if_neg fun hh => hi hh.1, if_neg hi]
  refine ⟨_, h.map (f := place) rfl (fun _ he => he) (fun _ => rfl) hget, ?_⟩
  intro id
  cases M id <;> rfl

theorem replaceIchs (h : Tables r m) (htrust : m.Trusts (.replaceIchs ilkId entries))
    (hok : (r.replaceIchEntriesForIlk ilkId entries now).2 = some (.ok ())) :
    Tables (r.replaceIchEntriesForIlk ilkId entries now).1
      (m.exec (.replaceIchs ilkId entries)) := by
  obtain ⟨⟨hlive, hkeys⟩, howner⟩ := htrust
  obtain ⟨M, hilks, hplain⟩ := h.ilks
  have hle := h.ichs.used_le
  unfold IdentityRegion.replaceIchEntriesForIlk at hok ⊢
  rw [dif_pos hle] at hok ⊢
  dsimp only at hok ⊢
  rw [if_pos hilks.used_le] at hok ⊢
  by_cases hfull : (r.withoutChannels ilkId hle).2 + entries.length > S.ichs
  · rw [if_pos hfull] at hok
    cases hok
  rw [if_neg hfull]
  -- The channels left are those of the other ILKs, all of them active.
  have hsweep : Dense IchEntry.active IchEntry.ichId emptyIchEntry (r.withoutChannels ilkId hle).1
      (r.withoutChannels ilkId hle).2
      fun k => (m.ichs k).filter fun c => decide (c.ilkId ≠ ilkId) := by
    have hdense : Dense IchEntry.active IchEntry.ichId emptyIchEntry r.ichs
        (0 + r.header.ichCount) m.ichs := by
      rw [Nat.zero_add]
      exact h.ichs
    have hswept := Dense.sweep (IdentityRegion.isChannelOf ilkId) rfl
      ((Nat.zero_add _).symm ▸ hle) hdense fun j hj => absurd hj (Nat.not_lt_zero _)
    have hmap : (fun k => (m.ichs k).filter fun c => !IdentityRegion.isChannelOf ilkId c) =
        fun k => (m.ichs k).filter fun c => decide (c.ilkId ≠ ilkId) := by
      funext k
      cases hm : m.ichs k with
      | none => rfl
      | some c =>
        have hactive := ((h.ichs.represents.value k c).mp hm).2.1
        rw [filter_some, filter_some, IdentityRegion.isChannelOf, hactive,
          Bool.true_and, decide_not]
    rw [hmap] at hswept
    exact hswept
  have hnew : ∀ e ∈ entries,
      ((m.ichs e.ichId).filter fun c => decide (c.ilkId ≠ ilkId)) = none := by
    intro e he
    cases hm : m.ichs e.ichId with
    | none => rfl
    | some c => simp [howner e he c hm]
  have happend := hsweep.append rfl entries (Nat.le_of_not_gt hfull) hlive hkeys hnew
  obtain ⟨M', hreindexed, hsame⟩ := reindex hilks
    (((append (r.withoutChannels ilkId hle).1 (r.withoutChannels ilkId hle).2 entries).toList).take
      ((r.withoutChannels ilkId hle).2 + entries.length))
  exact ⟨h.tenants, ⟨M', hreindexed, fun id => (hsame id).trans (hplain id)⟩, happend, h.aliases⟩

theorem provision (h : Tables r m) (hS : S.Counted) {ilk : IlkEntry}
    (htrust : m.Trusts (.provision ilk entries))
    (hok : (r.provisionTemporaryIlk ilk entries now).2 = .ok ()) :
    Tables (r.provisionTemporaryIlk ilk entries now).1 (m.exec (.provision ilk entries)) := by
  obtain ⟨hilk, ⟨hlive, hkeys⟩, hnew⟩ := htrust
  obtain ⟨M, hilks, hplain⟩ := h.ilks
  unfold IdentityRegion.provisionTemporaryIlk at hok ⊢
  cases hrefusal : r.provisionRefusal ilk entries with
  | some e =>
    rw [hrefusal] at hok
    cases hok
  | none =>
    unfold IdentityRegion.provisionRefusal at hrefusal
    split_ifs at hrefusal with hcounts hfull hfound
    have hroom : r.header.ilkCount < S.ilks ∧ r.header.ichCount + entries.length ≤ S.ichs := by
      omega
    have habsent : M ilk.ilkId = none := by
      apply hilks.position_none rfl
      exact not_isSome_iff_eq_none.mp hfound
    have hichs := h.ichs.append rfl entries hroom.2 hlive hkeys hnew
    have hpushed := hilks.append rfl
      [withLayout ilk (r.header.ichCount, min entries.length u16Max)] hroom.1
      (by simpa using hilk) (List.nodup_singleton _) (by simpa using habsent)
    rw [← saturatingAdd32_eq hroom.2 hS.ichs] at hichs
    rw [List.length_singleton, ← saturatingAdd32_eq hroom.1 hS.ilks] at hpushed
    refine ⟨h.tenants, ⟨_, hpushed, ?_⟩, hichs, h.aliases⟩
    intro id
    simp only [IdentityMaps.exec, assign, List.foldl_cons, List.foldl_nil, update_apply,
      ilkId_withLayout]
    split_ifs
    · rfl
    · exact hplain id

theorem exec (h : Tables r m) (hS : S.Counted) {op : WriterOp} (htrust : m.Trusts op)
    (hok : (r.exec now op).2 = some (.ok ())) : Tables (r.exec now op).1 (m.exec op) := by
  cases op with
  | clear => exact Tables.empty S now
  | writeSnapshot tenants ilks ichs aliases vocabulary =>
    exact writeSnapshot htrust (some.inj hok)
  | upsertTenant e => exact h.upsertTenant hS htrust (some.inj hok)
  | upsertIlk e => exact h.upsertIlk hS htrust (some.inj hok)
  | removeIlk ilkId => exact h.removeIlk
  | replaceIchs ilkId entries => exact h.replaceIchs htrust hok
  | provision ilk entries => exact h.provision hS htrust (some.inj hok)
  | upsertAlias e => exact h.upsertAlias hS htrust (some.inj hok)
  | removeAlias oldIlkId => exact h.removeAlias
  | upsertMapping channelType address ichId ilkId tenantId =>
    simp only [IdentityRegion.exec, IdentityRegion.upsertIchMapping]
    split_ifs
    · exact h
    · exact h
    · split
      · exact h.frame rfl rfl rfl rfl rfl
      · exact h
  | removeMapping channelType address tenantId =>
    simp only [IdentityRegion.exec, IdentityRegion.removeIchMapping]
    split <;> exact h.frame rfl rfl rfl rfl rfl
  | clearMappings ilkId =>
    simp only [IdentityRegion.exec, IdentityRegion.clearIchMappingsForIlk]
    split_ifs <;> exact h.frame rfl rfl rfl rfl rfl

end Tables

/-- After any run of successful operations the four tables are the maps those operations define. -/
theorem tables_refine_maps (l : IdentityRegionLimits) {r : IdentityRegion l.sections}
    {m : IdentityMaps} (h : Wrote l.sections r m) : Tables r m := by
  induction h with
  | created now => exact Tables.empty l.sections now
  | step now _ htrust hok ih => exact ih.exec l.counted htrust hok

section

open IdentityRegion

/-- The one channel of an ILK, written and then replaced by two others. -/
theorem tables_of_replaced_channel :
    Tables (oneChannel.exec 2 (.replaceIchs soleIlk [soleChannel 2, soleChannel 3])).1
      ((IdentityMaps.empty.exec (.replaceIchs soleIlk [soleChannel 1])).exec
        (.replaceIchs soleIlk [soleChannel 2, soleChannel 3])) := by
  have hone : Wrote soleLimits.sections oneChannel
      (IdentityMaps.empty.exec (.replaceIchs soleIlk [soleChannel 1])) := by
    apply Wrote.step 1 (Wrote.created 0)
    · refine ⟨by decide +kernel, ?_⟩
      intro e _ c hc
      cases hc
    · decide +kernel
  apply tables_refine_maps soleLimits
  apply Wrote.step 2 hone
  · refine ⟨by decide +kernel, ?_⟩
    intro e he c hc
    have hchannel : e = soleChannel 2 ∨ e = soleChannel 3 := by simpa using he
    have hother : e.ichId ≠ (soleChannel 1).ichId := by
      rcases hchannel with rfl | rfl <;> decide +kernel
    simp only [IdentityMaps.exec, assign, List.foldl_cons, List.foldl_nil,
      update_of_ne hother] at hc
    cases hc
  · decide +kernel

def soleTenant (createdAt : ℕ) : TenantEntry :=
  { emptyTenantEntry with tenantId := Vector.replicate 16 7, flags := flagActive, createdAt := createdAt }

def otherIlk : Id16 := Vector.replicate 16 2

/-- The region after a tenant is written twice and a channel is given to two ILKs in turn. -/
def twiceWritten : List (Option (Except ShmError Unit)) × IdentityRegion soleLimits.sections :=
  [.upsertTenant (soleTenant 1), .upsertTenant (soleTenant 2),
    .replaceIchs soleIlk [soleChannel 1],
    .replaceIchs otherIlk [{ soleChannel 1 with ilkId := otherIlk }]].foldl
    (fun s op => (s.1 ++ [(s.2.exec 1 op).2], (s.2.exec 1 op).1)) ([], empty soleLimits.sections 0)

/-- Every operation succeeds, yet the tenant has the creation time of its first write, not of its
last, and two channel entries have one id. -/
theorem first_creation_kept_and_channel_twice :
    (∀ result ∈ twiceWritten.1, result = some (.ok ())) ∧
      twiceWritten.2.header.tenantCount = 1 ∧
      (twiceWritten.2.tenants.get ⟨0, by decide⟩) = soleTenant 1 ∧ soleTenant 1 ≠ soleTenant 2 ∧
      twiceWritten.2.header.ichCount = 2 ∧
      (twiceWritten.2.ichs.get ⟨0, by decide⟩).ichId =
        (twiceWritten.2.ichs.get ⟨1, by decide⟩).ichId := by
  decide +kernel

end
end Fluxbee.Shm
