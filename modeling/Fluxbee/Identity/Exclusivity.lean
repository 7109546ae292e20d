import Fluxbee.Identity.Applying
import Fluxbee.Identity.Runs

/-! No channel key has two holders: what keeps it so along the primary's requests and the pushes of
the hives. -/
namespace Fluxbee.Identity
open Text Fallible ReverseIndex IdentityStore List AList

variable {s s' : IdentityStore} {now : ℕ} {q : Request} {deltas : List IdentityDelta} {j : String}
  {k : IchKey}

theorem Retouched.holds {id : String} {old new : IlkRecord} (hk : s.Kept)
    (stored : s.ilks.lookup id = some old) (h : Retouched old new) :
    ({ s with ilks := s.ilks.insert id new } : IdentityStore).Holds j k → s.Holds j k := by
  have hkeys := h.keys_eq (hk.tidy _ _ stored)
  rintro ⟨r, hr, hkey⟩
  rw [lookup_insert_eq] at hr
  split_ifs at hr with hj
  · cases hr
    exact ⟨old, hj ▸ stored, hkeys ▸ hkey⟩
  · exact ⟨r, hr, hkey⟩

theorem Absorbs.exclusive {id : String} {old next : IlkRecord} {new moved : List ChannelRecord}
    {sources : List String} (h : Absorbs s s' id old next new moved sources) (hk : s.Kept)
    (hc : s.Covered) (hx : Exclusive s.Holds) : Exclusive s'.Holds := by
  refine hx.absorb id (fun k => k ∈ (new ++ moved).map (·.key)) ?_ ?_
  · rintro k ⟨r, hr, hkey⟩
    rw [h.ilks, if_pos rfl] at hr
    cases hr
    exact (h.mem_keys hk hkey).imp_left fun hold => ⟨old, h.stored, hold⟩
  · rintro j k hj ⟨r, hr, hkey⟩
    obtain ⟨hsource, hr₀⟩ := h.other hj hr hkey
    have hheld : s.Holds j k := ⟨r, hr₀, hkey⟩
    refine ⟨hheld, fun hin => ?_⟩
    obtain ⟨c, hmem, rfl⟩ := List.mem_map.mp hin
    rcases mem_append.mp hmem with hnew | hmoved
    · rcases mem_cons.mp (hk.mem_of_holds hc (h.keyFree c hnew) hheld) with hid | hfrom
      · exact hj hid
      · exact hsource hfrom
    · obtain ⟨i, hi, r', hr', hcr⟩ := h.movedFrom c hmoved
      have hi' : s.Holds i c.key := ⟨r', hr', (hk.tidy _ _ hr').mem_keys.mpr ⟨c, hcr, rfl⟩⟩
      exact hsource (hx i j c.key hi' hheld ▸ hi)

theorem IdentityStore.Movable.exclusive {id tenantId : String} {r : IlkRecord} {c : ChannelRecord}
    (h : Movable id tenantId s r c) (hc : s.Covered) (hx : Exclusive s.Holds) :
    Exclusive (moveAccount id tenantId s c).Holds := by
  refine hx.absorb id (fun k => k = (installed c).key) ?_ ?_
  · rintro k ⟨r', hr', hkey⟩
    rw [h.lookup, if_pos rfl] at hr'
    cases hr'
    exact (h.mem_keys.mp hkey).symm.imp_left fun hold => ⟨r, h.stored, hold.1⟩
  · rintro j k hj ⟨r', hr', hkey⟩
    rw [h.lookup, if_neg hj] at hr'
    have hheld : s.Holds j k := ⟨r', hr', hkey⟩
    refine ⟨hheld, ?_⟩
    rintro rfl
    exact h.not_holds_installed hc j hheld

theorem unmark_holds {id : String} {entry : IlkRecord} (stored : s.ilks.lookup id = some entry)
    : (s.unmark id entry).Holds j k → s.Holds j k := by
  rintro ⟨r, hr, hkey⟩
  rw [unmark_lookup] at hr
  split_ifs at hr with hj
  · cases hr
    exact ⟨entry, hj ▸ stored, hkey⟩
  · exact ⟨r, hr, hkey⟩

theorem purgedStore_holds (hk : s.Kept) {tenantId : String} :
    (purgedStore s tenantId).Holds j k → s.Holds j k := by
  rintro ⟨r, hr, hkey⟩
  rw [purgedStore_lookup hk] at hr
  split_ifs at hr
  obtain ⟨r₀, hr₀, rfl⟩ := Option.map_eq_some_iff.mp hr
  exact ⟨r₀, hr₀, ((dropScope_key (hk.tidy _ _ hr₀)).mp hkey).1⟩

theorem gcExpiredAliases_holds : (s.gcExpiredAliases now).Holds j k → s.Holds j k := by
  rintro ⟨r, hr, hkey⟩
  rw [gcExpiredAliases_lookup] at hr
  split_ifs at hr
  · obtain ⟨r₀, hr₀, rfl⟩ := Option.map_eq_some_iff.mp hr
    refine ⟨r₀, hr₀, ?_⟩
    unfold markExpired at hkey
    split_ifs at hkey <;> exact hkey
  · exact ⟨r, hr, hkey⟩

theorem Turn.exclusive (h : Turn s now q s' deltas) (hk : s.Kept) (hc : s.Covered)
    (hx : Exclusive s.Holds) (hrestore : RestoresApart s q) : Exclusive s'.Holds := by
  cases h with
  | same | tenantPut | tenantKept => exact hx
  | retouch stored h => exact hx.mono fun _ _ => h.holds hk stored
  | @provision req caller newIlk ilkType tenantId scope ich tenant inScope missed unreserved =>
    have hkeys : (provisioned req newIlk ilkType tenantId scope).keys =
        [canonicalIchKey req.channelType req.address scope] := provisioned_keys tenant inScope
    refine hx.absorb (newIlkId newIlk)
      (fun k => k = canonicalIchKey req.channelType req.address scope) ?_ ?_
    · rintro k ⟨r, hr, hkey⟩
      rw [lookup_insert] at hr
      cases hr
      rw [hkeys, mem_singleton] at hkey
      exact .inr hkey
    · rintro j k hj ⟨r, hr, hkey⟩
      rw [lookup_insert_ne hj] at hr
      refine ⟨⟨r, hr, hkey⟩, ?_⟩
      rintro rfl
      exact not_holds_of_free hc missed unreserved j ⟨r, hr, hkey⟩
  | @registerNew req r absent tenant bare =>
    refine hx.mono ?_
    rintro j k ⟨r', hr', hkey⟩
    rw [lookup_insert_eq] at hr'
    split_ifs at hr' with hj
    · cases hr'
      simp [IlkRecord.keys, bare] at hkey
    · exact ⟨r', hr', hkey⟩
  | attach h | merge h => exact h.exclusive hk hc hx
  | @mark q id old stored =>
    refine hx.mono ?_
    rintro j k ⟨r, hr, hkey⟩
    rw [lookup_insert_eq] at hr
    split_ifs at hr with hj
    · cases hr
      exact ⟨old, hj ▸ stored, hkey⟩
    · exact ⟨r, hr, hkey⟩
  | @restore req entry stored marked restorable =>
    -- The account's new key is free of every holder only because the lookup covers the active ones.
    have hboth : (s.unmarkIlkUnchecked req.ilkId).1.Covered ∧
        Exclusive (s.unmarkIlkUnchecked req.ilkId).1.Holds :=
      unmarkIlkUnchecked_induct (P := fun t => t.Covered ∧ Exclusive t.Holds) stored
        (hk.tidy _ _ stored) (hrestore req rfl entry stored)
        ⟨covered_unmark hc stored restorable, hx.mono fun _ _ => unmark_holds stored⟩
        fun _ _ _ hmov ht => ⟨hmov.covered ht.1, hmov.exclusive ht.1 ht.2⟩
    exact hboth.2
  | purgeIlk stored =>
    refine hx.mono ?_
    rintro j k ⟨r, hr, hkey⟩
    rw [removeIlkPhysically_lookup] at hr
    split_ifs at hr
    exact ⟨r, hr, hkey⟩
  | purgeTenant => exact hx.mono fun _ _ => purgedStore_holds hk
  | gc => exact hx.mono fun _ _ => gcExpiredAliases_holds

/-- What the primary keeps along its requests and the pushes it takes in. -/
structure IdentityStore.Reserved (s : IdentityStore) : Prop where
  kept : s.Kept
  covered : s.Covered
  exclusive : Exclusive s.Holds

variable {ilk : IlkRecord}

theorem IdentityStore.Reserved.upsert (h : s.Reserved)
    (htenant : IsTenantId ilk.tenantId) (htidy : (fillChannelScopes ilk).Tidy)
    (hfree : ∀ k ∈ ilk.keys, ∀ j, s.Holds j k → j = ilk.ilkId) :
    (s.applyDelta (.ilkUpsert ilk)).Reserved := by
  have hkeys := fillChannelScopes_keys htenant
  have hother : ∀ j k, j ≠ ilk.ilkId → (s.applyDelta (.ilkUpsert ilk)).Holds j k →
      s.Holds j k ∧ k ∉ ilk.keys := by
    rintro j k hj ⟨r, hr, hkey⟩
    rw [applyDelta_upsert_lookup, if_neg hj] at hr
    exact ⟨⟨r, hr, hkey⟩, fun hin => hj (hfree k hin j ⟨r, hr, hkey⟩)⟩
  have hself : ∀ k, (s.applyDelta (.ilkUpsert ilk)).Holds ilk.ilkId k → k ∈ ilk.keys := by
    rintro k ⟨r, hr, hkey⟩
    rw [applyDelta_upsert_lookup, if_pos rfl] at hr
    cases hr
    rwa [hkeys] at hkey
  refine ⟨?_, ?_, ?_⟩
  · exact Kept.put_ilk h.kept (fillChannelScopes ilk) rfl htidy _
  · rintro j k ⟨r, hr, hact, hkey⟩
    rw [applyDelta_upsert_resolve, hkeys]
    by_cases hj : j = ilk.ilkId
    · rw [applyDelta_upsert_lookup, if_pos hj] at hr
      cases hr
      have hact' : ilk.deletedAtMs = none := hact
      rw [hkeys] at hkey
      rw [if_pos ⟨hact', hkey⟩]
      exact hj
    · have hout := (hother j k hj ⟨r, hr, hkey⟩).2
      rw [applyDelta_upsert_lookup, if_neg hj] at hr
      rw [if_neg fun hin => hout hin.2]
      exact ⟨h.covered j k ⟨r, hr, hact, hkey⟩, hj⟩
  · exact h.exclusive.absorb ilk.ilkId (fun k => k ∈ ilk.keys) (fun k hk => .inr (hself k hk)) hother

theorem IdentityStore.Reserved.delete (h : s.Reserved) (id : String) :
    (s.applyDelta (.ilkDelete id)).Reserved := by
  cases hwk : wellKnown s id with
  | true => rwa [applyDelta_delete_of_wellKnown hwk]
  | false =>
    have hsub : ∀ j r, (s.applyDelta (.ilkDelete id)).ilks.lookup j = some r →
        j ≠ id ∧ s.ilks.lookup j = some r := by
      intro j r hr
      rw [applyDelta_delete_lookup hwk] at hr
      split_ifs at hr with hj
      exact ⟨hj, hr⟩
    refine ⟨h.kept.of_ilks ?_ fun j r hr => .inl (hsub j r hr).2, ?_, h.exclusive.mono ?_⟩
    · rw [applyDelta_delete_of_not hwk]
      exact fun _ _ ht => ht
    · rintro j k ⟨r, hr, hact, hkey⟩
      obtain ⟨hj, hr⟩ := hsub j r hr
      exact (applyDelta_delete_resolve hwk).mpr ⟨h.covered j k ⟨r, hr, hact, hkey⟩, hj⟩
    · rintro j k ⟨r, hr, hkey⟩
      exact ⟨r, (hsub j r hr).2, hkey⟩

theorem IdentityStore.Reserved.deletes (h : s.Reserved) (ids : List String) :
    (s.applyDeltas (ids.map .ilkDelete)).Reserved := by
  induction ids generalizing s with
  | nil => exact h
  | cons id rest ih => exact ih (h.delete id)

theorem IdentityStore.Reserved.of_same (h : s.Reserved) (htenants : s'.tenants = s.tenants)
    (hilks : s'.ilks = s.ilks) (hlookup : s'.ichLookup = s.ichLookup) : s'.Reserved := by
  obtain ⟨tenants, ilks, ichLookup, aliases, ambiguous⟩ := s'
  cases htenants
  cases hilks
  cases hlookup
  exact ⟨⟨h.kept.tenantNamed, h.kept.named, h.kept.tidy⟩, h.covered, h.exclusive⟩

/-- Two records of a snapshot that the primary accepts, of different ILKs, share no key. -/
def SnapshotApart (s : IdentityStore) (ilks : List IlkRecord) : Prop :=
  ∀ a ∈ s.acceptedPush ilks, ∀ b ∈ s.acceptedPush ilks, ∀ k ∈ a.keys, k ∈ b.keys →
    a.ilkId = b.ilkId

theorem IdentityStore.Reserved.reconcileUpserts {hiveId : String} {records : List IlkRecord}
    (h : s.Reserved) (hids : ∀ r ∈ records, IsTenantId r.tenantId ∧ (fillChannelScopes r).Tidy)
    (hfree : ∀ r ∈ records, ∀ k ∈ r.keys, ∀ j, s.Holds j k → j = r.ilkId)
    (hapart : ∀ a ∈ records, ∀ b ∈ records, ∀ k ∈ a.keys, k ∈ b.keys → a.ilkId = b.ilkId) :
    (reconcileUpserts hiveId records s).1.Reserved := by
  induction records generalizing s with
  | nil => exact h
  | cons ilk rest ih =>
    have hids' := fun r hr => hids r (mem_cons_of_mem ilk hr)
    have hapart' := fun a ha b hb =>
      hapart a (mem_cons_of_mem ilk ha) b (mem_cons_of_mem ilk hb)
    unfold IdentityStore.reconcileUpserts
    dsimp only
    split_ifs with hskip
    · exact ih h hids' (fun r hr => hfree r (mem_cons_of_mem ilk hr)) hapart'
    · obtain ⟨htenant, htidy⟩ := hids ilk mem_cons_self
      refine ih (h.upsert htenant htidy (hfree ilk mem_cons_self)) hids' ?_ hapart'
      rintro r hr k hk j ⟨r', hr', hkey⟩
      have hmem := mem_cons_of_mem ilk hr
      rw [applyDelta_upsert_lookup] at hr'
      split_ifs at hr' with hj
      · cases hr'
        rw [fillChannelScopes_keys htenant] at hkey
        exact hj.trans (hapart ilk mem_cons_self r hmem k hkey hk)
      · exact hfree r hmem k hk j ⟨r', hr', hkey⟩

section

variable {systemIlkId : String → String} {primaryHive : String}

def FrameApart (s : IdentityStore) : IngestFrame → Prop
  | .delta _ _ => True
  | .snapshot _ ilks => SnapshotApart s ilks

theorem Pushable.free_of_holds (h : Pushable s ilk) (hr : s.Reserved)
    (hk : k ∈ ilk.keys) (hj : s.Holds j k) : j = ilk.ilkId :=
  mem_singleton.mp (hr.kept.mem_of_holds hr.covered (h.free k hk) hj)

theorem IdentityStore.Reserved.pushDelta {delta : IdentityDelta} {publisher : String}
    (h : s.Reserved) (hauth : deltaAuthorizedForHive systemIlkId delta publisher s = true) :
    (s.applyDelta delta).Reserved := by
  cases delta with
  | ilkUpsert ilk =>
    simp only [deltaAuthorizedForHive, Bool.and_eq_true] at hauth
    have hpush := replicaPushAcceptable_pushable hauth.1.2
    exact h.upsert hpush.tenant hpush.tidy fun k hk j => hpush.free_of_holds h hk
  | ilkDelete id => exact h.delete id
  | aliasUpsert | aliasDelete => exact h.of_same rfl rfl rfl
  | tenantUpsert | tenantDelete => simp [deltaAuthorizedForHive] at hauth

theorem IdentityStore.Reserved.ingest {frame : IngestFrame} (h : s.Reserved)
    (hapart : FrameApart s frame) : (ingest systemIlkId primaryHive s frame).1.Reserved := by
  cases frame with
  | delta publisher delta =>
    unfold Identity.ingest
    dsimp only
    split_ifs with hself hauth
    · exact h
    · exact h.pushDelta hauth
    · exact h
  | snapshot publisher ilks =>
    unfold Identity.ingest
    dsimp only
    split_ifs with hself hauth
    · exact h
    · have hpush : ∀ r ∈ s.acceptedPush ilks, Pushable s r := fun r hr =>
        replicaPushAcceptable_pushable (mem_filter.mp hr).2
      exact (h.reconcileUpserts (fun r hr => ⟨(hpush r hr).tenant, (hpush r hr).tidy⟩)
        (fun r hr k hk j => (hpush r hr).free_of_holds h hk) hapart).deletes _
    · exact h

/-- A step of the primary: a request it handles, or a frame of a hive it takes in. -/
inductive Serves (cfg : Config) (systemIlkId : String → String) (primaryHive : String)
    (okRequest : IdentityStore → Event → Prop) (okFrame : IdentityStore → IngestFrame → Prop)
    (s : IdentityStore) : IdentityStore → Prop
  | request (e : Event) (h : okRequest s e) :
    Serves cfg systemIlkId primaryHive okRequest okFrame s (handle cfg s e).1
  | frame (f : IngestFrame) (h : okFrame s f) :
    Serves cfg systemIlkId primaryHive okRequest okFrame s
      (Identity.ingest systemIlkId primaryHive s f).1

/-- What a request must meet for the lookup to keep its cover. -/
structure CoverSafe (s : IdentityStore) (e : Event) : Prop where
  accounts : RestoresApart s e.request
  collected : e.request = .aliasGc → CollectsNoHolder s e.now

theorem reserved_of_bare (hk : s.Kept) (hilks : s.ilks = ∅) : s.Reserved := by
  have hnone : ∀ j k, ¬ s.Holds j k := by
    rintro j k ⟨r, hr, -⟩
    rw [hilks, lookup_empty] at hr
    cases hr
  exact ⟨hk, fun j k hj => absurd hj.holds (hnone j k), fun i _ k hi => absurd hi (hnone i k)⟩

theorem IdentityStore.Reserved.reorder {t : IdentityStore} (h : s.Reserved) (hre : Reorders s t) :
    t.Reserved := by
  have hheld : ∀ j k, t.HoldsActive j k → s.HoldsActive j k := by
    rintro j k ⟨r, hr, hact, hkey⟩
    exact ⟨r, by rw [← hre.lookup_ilks, hr], hact, hkey⟩
  refine ⟨h.kept.reorder hre, Covered.congr h.covered hre.lookup_ichLookup hheld,
    h.exclusive.mono ?_⟩
  rintro j k ⟨r, hr, hkey⟩
  exact ⟨r, by rw [← hre.lookup_ilks, hr], hkey⟩

theorem Reaches.reserved {cfg : Config}
    (h : Reaches (Serves cfg systemIlkId primaryHive CoverSafe FrameApart) s) : s.Reserved := by
  refine h.invariant (reserved_of_bare kept_empty rfl)
    (reserved_of_bare kept_withDefaultTenant rfl) (fun s t hre hs => hs.reorder hre) ?_
  intro s s' hs hstep
  cases hstep with
  | request e hok =>
    have hturn := handle_turn hs.kept cfg e
    exact ⟨hturn.kept hs.kept, hturn.covered hs.kept hs.covered hok.accounts hok.collected,
      hturn.exclusive hs.kept hs.covered hs.exclusive hok.accounts⟩
  | frame f hok => exact hs.ingest hok

/-- In every run whose requests and frames are safe, no two stored ILKs, active or marked, hold
channels with one key. -/
theorem channel_key_has_one_holder {cfg : Config}
    (h : Reaches (Serves cfg systemIlkId primaryHive CoverSafe FrameApart) s)
    {i j : String} {ri rj : IlkRecord} {k : IchKey} (hi : s.ilks.lookup i = some ri)
    (hj : s.ilks.lookup j = some rj) (hki : k ∈ ri.keys) (hkj : k ∈ rj.keys) : i = j :=
  h.reserved.exclusive i j k ⟨ri, hi, hki⟩ ⟨rj, hj, hkj⟩

end

namespace Twins

def tenantId : String := "tnt:00000000-0000-0000-0000-000000000002"

def node (ilkId ichId name : String) : IlkRecord :=
  { ilkId, ilkType := "agent", registrationStatus := "complete", tenantId,
    identification := .obj [("node_name", .str name)], definition := .obj [],
    channels := [⟨ichId, "phone", "+1", none, false, tenantId⟩],
    deletedAtMs := none, deletedReason := none }

def a : IlkRecord :=
  node "ilk:11111111-1111-1111-1111-111111111111" "ich:00000000-0000-4000-8000-000000000001"
    "AI.a@worker"

def b : IlkRecord :=
  node "ilk:22222222-2222-2222-2222-222222222222" "ich:00000000-0000-4000-8000-000000000002"
    "AI.b@worker"

def key : IchKey := canonicalIchKey "phone" "+1" tenantId

end Twins

open Twins

/-- Two nodes of one snapshot are both accepted with one channel key. -/
theorem two_holders_of_one_push :
    ∃ s, Reaches (Serves hourConfig id "motherbee" (fun _ _ => True) fun _ _ => True) s ∧
      s.ilks.lookup Twins.a.ilkId = some Twins.a ∧ s.ilks.lookup Twins.b.ilkId = some Twins.b ∧
      Twins.key ∈ Twins.a.keys ∧ Twins.key ∈ Twins.b.keys ∧ Twins.a.ilkId ≠ Twins.b.ilkId := by
  refine ⟨(ingest id "motherbee" .withDefaultTenant (.snapshot "worker" [a, b])).1,
    Reaches.withDefaultTenant.step (.refl _) (.frame _ trivial), ?_⟩
  decide +kernel

/-- A snapshot of one node is apart, and the node alone holds its key. -/
theorem one_holder_of_one_push :
    ∃ s, Reaches (Serves hourConfig id "motherbee" CoverSafe FrameApart) s ∧
      s.ilks.lookup Twins.a.ilkId = some Twins.a ∧
      ∀ j rj, s.ilks.lookup j = some rj → Twins.key ∈ rj.keys → Twins.a.ilkId = j := by
  have hapart : FrameApart .withDefaultTenant (.snapshot "worker" [a]) := by
    have hone : ∀ r ∈ IdentityStore.withDefaultTenant.acceptedPush [a],
        r = fillChannelScopes a := by
      intro r hr
      exact mem_singleton.mp (mem_filter.mp hr).1
    intro x hx y hy _ _ _
    rw [hone x hx, hone y hy]
  have hreach : Reaches (Serves hourConfig id "motherbee" CoverSafe FrameApart)
      (ingest id "motherbee" .withDefaultTenant (.snapshot "worker" [a])).1 :=
    Reaches.withDefaultTenant.step (.refl _) (.frame _ hapart)
  have hrun : (ingest id "motherbee" .withDefaultTenant
      (.snapshot "worker" [a])).1.ilks.lookup a.ilkId = some a ∧
      key ∈ a.keys := by decide +kernel
  refine ⟨_, hreach, hrun.1, ?_⟩
  intro j rj hj hkey
  exact channel_key_has_one_holder hreach hrun.1 hj hrun.2 hkey

end Fluxbee.Identity
