import Fluxbee.Identity.HivePush

/-! Aliases are flat: along every run whose merges and pushed aliases keep apart the ILKs that aliases
point to and the ILKs they start from, one hop ends at an ILK that is nobody's alias. -/
namespace Fluxbee.Identity
open Text Fallible IdentityStore Option AList

variable {s s' : IdentityStore} {now : ℕ} {q : Request} {deltas : List IdentityDelta}

structure IlkPayload where
  (queriedIlkId canonicalIlkId : String)
  aliasResolved : Bool
  queriedAlias : Option AliasSnapshotRecord
  mergedAliases : List AliasSnapshotRecord
  ilk : IlkRecord
  tenant : Option TenantRecord

/-- The ILK an id is read as: one hop along its alias. -/
def IdentityStore.followAlias (s : IdentityStore) (id : String) : String :=
  ((s.aliases.lookup id).map (·.canonicalIlkId)).getD id

def IdentityStore.getIlkPayload (s : IdentityStore) (requestedIlkId : String)
    (tenantScope : Option String) : Except Fault IlkPayload := do
  let requested := trim requestedIlkId
  require (requested ≠ "") "INVALID_REQUEST"
  let _ ← parsePrefixedUuid requested "ilk"
  let canonical := s.followAlias requested
  let ilk ← orRefuse (s.ilks.lookup canonical) "NOT_FOUND"
  require (∀ tenantId ∈ nonBlank tenantScope, ilk.tenantId = tenantId) "NOT_FOUND"
  let merged := s.aliases.entries.filter (·.2.canonicalIlkId == canonical)
  return ⟨requested, canonical, requested != ilk.ilkId,
    (s.aliases.lookup requested).map fun a => ⟨requested, a.canonicalIlkId, a.expiresAtMs⟩,
    merged.map fun e => ⟨e.1, e.2.canonicalIlkId, e.2.expiresAtMs⟩, ilk,
    s.tenants.lookup ilk.tenantId⟩

theorem getIlkPayload_canonical {requestedIlkId : String} {tenantScope : Option String}
    {p : IlkPayload} (h : s.getIlkPayload requestedIlkId tenantScope = .ok p) :
    p.canonicalIlkId = s.followAlias (trim requestedIlkId) ∧
      s.ilks.lookup p.canonicalIlkId = some p.ilk := by
  simp only [getIlkPayload, bind_ok, ensure_ok, orFail_ok] at h
  obtain ⟨-, -, -, -, ilk, hilk, -, -, hp⟩ := h
  rw [← Except.ok.inj hp]
  exact ⟨rfl, hilk⟩

/-- Every alias ends at a stored ILK that no alias starts from. -/
def IdentityStore.Flat (s : IdentityStore) : Prop :=
  ∀ old a, s.aliases.lookup old = some a →
    s.aliases.lookup a.canonicalIlkId = none ∧ (s.ilks.lookup a.canonicalIlkId).isSome

/-- No alias starts at the target of the merge, and none ends at its source. -/
def MergeApart (s : IdentityStore) (sourceId id : String) : Prop :=
  s.aliases.lookup id = none ∧ ∀ old a, s.aliases.lookup old = some a → a.canonicalIlkId ≠ sourceId

/-- The merge that a request asks for, if any, keeps sources and targets apart. -/
def MergesApart (s : IdentityStore) : Request → Prop
  | .addChannel req _ => ∀ sourceId ∈ req.mergeFromIlkId, MergeApart s sourceId req.ilkId
  | .register req => ∀ email ∈ identificationStr req.identification "email",
    ∀ holder ∈ s.ilkHoldingEmail req.tenantId email false, holder ≠ req.ilkId →
      MergeApart s req.ilkId holder
  | _ => True

theorem IdentityStore.Flat.mono (h : s.Flat)
    (hold : ∀ old a, s'.aliases.lookup old = some a → s.aliases.lookup old = some a)
    (hkept : ∀ old a, s'.aliases.lookup old = some a → (s.ilks.lookup a.canonicalIlkId).isSome →
      (s'.ilks.lookup a.canonicalIlkId).isSome) : s'.Flat := by
  intro old a ha
  obtain ⟨hend, hstored⟩ := h old a (hold old a ha)
  refine ⟨?_, hkept old a ha hstored⟩
  cases hl : s'.aliases.lookup a.canonicalIlkId with
  | none => rfl
  | some b =>
    rw [hold _ _ hl] at hend
    cases hend

theorem isSome_lookup_insert {ilks : AList fun _ : String => IlkRecord} {id j : String}
    (r : IlkRecord) (h : (ilks.lookup j).isSome) : ((ilks.insert id r).lookup j).isSome := by
  rw [lookup_insert_eq]
  split_ifs
  · rfl
  · exact h

theorem Absorbs.isSome_lookup {id : String} {old next : IlkRecord} {new moved : List ChannelRecord}
    {sources : List String} (h : Absorbs s s' id old next new moved sources) {j : String}
    (hj : (s.ilks.lookup j).isSome) : (s'.ilks.lookup j).isSome := by
  rw [h.ilks]
  split_ifs
  · rfl
  · rwa [isSome_map]
  · rwa [isSome_map]

theorem Merging.apart {sourceId id : String} {old next : IlkRecord}
    (h : Merging s sourceId id q old next) (hne : sourceId ≠ id) (hapart : MergesApart s q) :
    MergeApart s sourceId id := by
  cases h with
  | added source target =>
    rw [← target]
    exact hapart sourceId source
  | registered source given holder =>
    rw [← source]
    exact hapart _ given _ holder (source ▸ hne.symm)

theorem Turn.flat (h : Turn s now q s' deltas) (hk : s.Kept) (hf : s.Flat)
    (hapart : MergesApart s q) : s'.Flat := by
  cases h with
  | same | tenantPut | tenantKept => exact hf
  | retouch | provision | registerNew | mark =>
    exact IdentityStore.Flat.mono hf (fun _ _ h => h) fun _ _ _ => isSome_lookup_insert _
  | attach h aliases =>
    refine IdentityStore.Flat.mono hf ?_ fun _ _ _ => h.isSome_lookup
    intro old a ha
    rwa [aliases] at ha
  | @merge q s' id sourceId expiresAtMs old next source new h sourced aliases reuse temporary status
      why =>
    have hne : sourceId ≠ id := (h.sourced sourceId (List.mem_singleton.mpr rfl)).1
    obtain ⟨htarget, hsource⟩ := why.apart hne hapart
    intro o a ha
    rw [aliases, lookup_insert_eq] at ha
    rw [aliases, lookup_insert_eq]
    split_ifs at ha with ho
    · cases ha
      rw [if_neg hne.symm]
      exact ⟨htarget, h.isSome_lookup (by rw [h.stored]; rfl)⟩
    · obtain ⟨hend, hstored⟩ := hf o a ha
      rw [if_neg (hsource o a ha)]
      exact ⟨hend, h.isSome_lookup hstored⟩
  | @restore req entry stored =>
    obtain ⟨-, haliases, hother, r, hr, -⟩ := unmarkIlkUnchecked_rescopes stored
    refine IdentityStore.Flat.mono hf ?_ ?_
    · intro old a ha
      rwa [haliases] at ha
    · intro old a ha hstored
      by_cases hj : a.canonicalIlkId = req.ilkId
      · rw [hj, hr]
        rfl
      · rwa [hother _ hj]
  | purgeIlk stored =>
    refine IdentityStore.Flat.mono hf ?_ ?_
    · intro old a ha
      exact (removeIlkPhysically_aliases.mp ha).1
    · intro old a ha hstored
      obtain ⟨-, -, hne⟩ := removeIlkPhysically_aliases.mp ha
      rwa [removeIlkPhysically_lookup, if_neg hne]
  | purgeTenant =>
    refine IdentityStore.Flat.mono hf ?_ ?_
    · intro old a ha
      exact (purgedStore_aliases.mp ha).1
    · intro old a ha hstored
      obtain ⟨-, -, hne⟩ := purgedStore_aliases.mp ha
      rwa [purgedStore_lookup hk, if_neg hne, isSome_map]
  | gc =>
    refine IdentityStore.Flat.mono hf ?_ ?_
    · intro old a ha
      exact (gcExpiredAliases_aliases.mp ha).1
    · intro old a ha hstored
      rw [gcExpiredAliases_lookup]
      split_ifs
      · rwa [isSome_map]
      · exact hstored

theorem IdentityStore.Flat.gc_lookup (h : s.Flat) (now : ℕ) {old : String} {a : AliasRecord}
    (ha : s.aliases.lookup old = some a) :
    (s.gcExpiredAliases now).ilks.lookup a.canonicalIlkId = s.ilks.lookup a.canonicalIlkId := by
  have hout : a.canonicalIlkId ∉ s.expiredAliases now := by
    intro hin
    obtain ⟨b, hb, -⟩ := mem_expiredAliases.mp hin
    rw [(h old a ha).1] at hb
    cases hb
  rw [gcExpiredAliases_lookup, if_neg hout]

theorem IdentityStore.Flat.followAlias (h : s.Flat) (id : String) :
    s.aliases.lookup (s.followAlias id) = none := by
  unfold IdentityStore.followAlias
  cases hl : s.aliases.lookup id with
  | none => exact hl
  | some a => exact (h id a hl).1

theorem flat_reorder {t : IdentityStore} (hre : Reorders s t) (h : s.Flat) : t.Flat := by
  simpa only [IdentityStore.Flat, hre.lookup_aliases, hre.lookup_ilks] using h

theorem flat_of_bare (h : s.aliases = ∅) : s.Flat := by
  intro old a ha
  rw [h, lookup_empty] at ha
  cases ha

/-- An alias that a hive pushes, if the frame is one, keeps sources and targets apart. -/
def PushesApart (s : IdentityStore) : IngestFrame → Prop
  | .delta _ (.aliasUpsert entry) =>
    entry.oldIlkId ≠ entry.canonicalIlkId ∧ MergeApart s entry.oldIlkId entry.canonicalIlkId
  | _ => True

theorem IdentityStore.Flat.upsert (h : s.Flat) (ilk : IlkRecord) :
    (s.applyDelta (.ilkUpsert ilk)).Flat := by
  refine h.mono (fun _ _ ha => ha) fun old a _ hstored => ?_
  rw [applyDelta_upsert_lookup]
  split_ifs
  · rfl
  · exact hstored

theorem IdentityStore.Flat.delete (h : s.Flat) (id : String) :
    (s.applyDelta (.ilkDelete id)).Flat := by
  cases hwk : wellKnown s id with
  | true => rwa [applyDelta_delete_of_wellKnown hwk]
  | false =>
    refine h.mono (fun old a ha => ((applyDelta_delete_aliases hwk).mp ha).1) ?_
    intro old a ha hstored
    rwa [applyDelta_delete_lookup hwk, if_neg ((applyDelta_delete_aliases hwk).mp ha).2.2]

theorem IdentityStore.Flat.reconcileUpserts {hive : String} {records : List IlkRecord} (h : s.Flat) :
    (s.reconcileUpserts hive records).1.Flat := by
  induction records generalizing s with
  | nil => exact h
  | cons ilk rest ih =>
    unfold IdentityStore.reconcileUpserts
    dsimp only
    split_ifs
    · exact ih h
    · exact ih (h.upsert ilk)

theorem IdentityStore.Flat.deletes (h : s.Flat) (ids : List String) :
    (s.applyDeltas (ids.map .ilkDelete)).Flat := by
  induction ids generalizing s with
  | nil => exact h
  | cons id rest ih => exact ih (h.delete id)

theorem stored_of_ownedBy {hive id : String} (h : ownedBy s hive id = true) :
    (s.ilks.lookup id).isSome := by
  unfold ownedBy at h
  cases hr : s.ilks.lookup id with
  | none => simp [hr] at h
  | some r => rfl

theorem IdentityStore.Flat.ingest {systemIlkId : String → String} {primaryHive : String}
    {frame : IngestFrame} (h : s.Flat) (hapart : PushesApart s frame) :
    (ingest systemIlkId primaryHive s frame).1.Flat := by
  cases frame with
  | snapshot publisher ilks =>
    unfold Identity.ingest
    dsimp only
    split_ifs
    · exact h
    · exact h.reconcileUpserts.deletes _
    · exact h
  | delta publisher delta =>
    unfold Identity.ingest
    dsimp only
    split_ifs with hself hauth
    · exact h
    · cases delta with
      | tenantUpsert | tenantDelete => simp [deltaAuthorizedForHive] at hauth
      | ilkUpsert ilk => exact h.upsert ilk
      | ilkDelete id => exact h.delete id
      | aliasDelete id =>
        refine h.mono (fun old a ha => ?_) fun _ _ _ hstored => hstored
        change (s.aliases.erase id).lookup old = some a at ha
        rw [lookup_erase_eq] at ha
        split_ifs at ha
        exact ha
      | aliasUpsert entry =>
        obtain ⟨hne, htarget, hsource⟩ := hapart
        simp only [deltaAuthorizedForHive, Bool.and_eq_true] at hauth
        intro o a ha
        change (s.aliases.insert _ _).lookup o = some a at ha
        change (s.aliases.insert _ _).lookup _ = none ∧ (s.ilks.lookup _).isSome
        rw [lookup_insert_eq] at ha ⊢
        split_ifs at ha with ho
        · cases ha
          rw [if_neg hne.symm]
          exact ⟨htarget, stored_of_ownedBy hauth.2.2⟩
        · rw [if_neg (hsource o a ha)]
          exact h o a ha
    · exact h

/-- In every run whose merges and pushed aliases keep apart, an alias ends at a stored ILK that is
nobody's alias, an ILK is read as one that is nobody's alias, and the collection of expired aliases
leaves every ILK that an alias points to. -/
theorem alias_hop_is_canonical {s : IdentityStore} {cfg : Config} {systemIlkId : String → String}
    {primaryHive : String}
    (h : Reaches (Serves cfg systemIlkId primaryHive (fun s e => MergesApart s e.request)
      PushesApart) s) :
    (∀ old a, s.aliases.lookup old = some a →
      s.aliases.lookup a.canonicalIlkId = none ∧ (s.ilks.lookup a.canonicalIlkId).isSome) ∧
    (∀ requested scope p, s.getIlkPayload requested scope = .ok p →
      s.aliases.lookup p.canonicalIlkId = none) ∧
    ∀ now old a, s.aliases.lookup old = some a →
      (s.gcExpiredAliases now).ilks.lookup a.canonicalIlkId =
        s.ilks.lookup a.canonicalIlkId := by
  have hf : s.Kept ∧ s.Flat := by
    refine h.invariant (P := fun s => s.Kept ∧ s.Flat) ⟨kept_empty, flat_of_bare rfl⟩
      ⟨kept_withDefaultTenant, flat_of_bare rfl⟩
      (fun s t hre hs => ⟨hs.1.reorder hre, flat_reorder hre hs.2⟩) ?_
    rintro s s' ⟨hk, hf⟩ (⟨e, hapart⟩ | ⟨f, hapart⟩)
    · have hturn := handle_turn hk cfg e
      exact ⟨hturn.kept hk, hturn.flat hk hf hapart⟩
    · exact ⟨(ingest_isolates systemIlkId primaryHive hk rfl).2.1, hf.ingest hapart⟩
  refine ⟨hf.2, ?_, fun now old a => hf.2.gc_lookup now⟩
  intro requested scope p hp
  rw [(getIlkPayload_canonical hp).1]
  exact hf.2.followAlias _

theorem mergeApart_of_bare (h : s.aliases = ∅) (sourceId id : String) :
    MergeApart s sourceId id := by
  simp [MergeApart, h]

namespace Merged

def a : String := "ilk:11111111-1111-1111-1111-111111111111"

def b : String := "ilk:22222222-2222-2222-2222-222222222222"

def provision (d : Fin 16) (ichId address : String) : Event :=
  ⟨.provision ⟨ichId, "phone", address, none, none, none⟩ none (.uniform d), 0, true⟩

def provisionA : Event := provision 1 "ich:00000000-0000-4000-8000-000000000001" "1"

def provisionB : Event := provision 2 "ich:00000000-0000-4000-8000-000000000002" "2"

def mergeInto (target source ichId address : String) (now : ℕ) : Event :=
  ⟨.addChannel ⟨target, ⟨ichId, "phone", address, none⟩, some source, none⟩ none, now, true⟩

def aIntoB : Event := mergeInto b a "ich:00000000-0000-4000-8000-000000000003" "3" 0

def bIntoA : Event := mergeInto a b "ich:00000000-0000-4000-8000-000000000004" "4" 1000

end Merged

open Merged

/-- Two merges leave a cycle of aliases, and the collection of the first alias marks the ILK that
the second, not expired yet, points to. -/
theorem alias_cycle_of_merges :
    ∃ s, Reaches (Serves hourConfig id "motherbee" (fun _ _ => True) fun _ _ => True) s ∧
      s.aliases.lookup Merged.a = some ⟨Merged.b, 3600000⟩ ∧
      s.aliases.lookup Merged.b = some ⟨Merged.a, 3601000⟩ ∧
      (s.ilks.lookup Merged.a).map (·.deletedAtMs) = some none ∧
      ((s.gcExpiredAliases 3600000).ilks.lookup Merged.a).map (·.deletedAtMs) =
        some (some 3600000) ∧
      (s.gcExpiredAliases 3600000).aliases.lookup Merged.b = some ⟨Merged.a, 3601000⟩ := by
  refine ⟨runRequests hourConfig .withDefaultTenant [provisionA, provisionB, aIntoB, bIntoA],
    Reaches.withDefaultTenant.serveRequests (meets_of_forall (fun _ _ => trivial) _ _), ?_⟩
  decide +kernel

/-- A single merge keeps apart, and its alias ends at an ILK that is nobody's alias. -/
theorem alias_hop_of_one_merge :
    ∃ s, Reaches (Serves hourConfig id "motherbee" (fun s e => MergesApart s e.request)
        PushesApart) s ∧
      s.aliases.lookup Merged.a = some ⟨Merged.b, 3600000⟩ ∧ s.aliases.lookup Merged.b = none := by
  let provisioned := runRequests hourConfig .withDefaultTenant [provisionA, provisionB]
  let merged := runRequests hourConfig .withDefaultTenant
    [provisionA, provisionB, aIntoB]
  have hrun : provisioned.aliases.entries.isEmpty = true ∧
      merged.aliases.lookup a = some ⟨b, 3600000⟩ := by decide +kernel
  have hbare : provisioned.aliases = ∅ := AList.ext (List.isEmpty_iff.mp hrun.1)
  have hmerged : Reaches (Serves hourConfig id "motherbee" (fun s e => MergesApart s e.request) PushesApart)
      merged :=
    Reaches.withDefaultTenant.serveRequests
      ⟨trivial, trivial, fun _ _ => mergeApart_of_bare hbare _ _, trivial⟩
  exact ⟨merged, hmerged, hrun.2, ((alias_hop_is_canonical hmerged).1 _ _ hrun.2).1⟩

end Fluxbee.Identity
