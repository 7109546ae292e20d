import Fluxbee.Shm.IchMappingProbe
import Fluxbee.Shm.IdentityRegion

/-! The ICH mapping table as a finite map. Under every sequence of operations in
which no clear of an ILK opens a hole in another key's probe path, the table
refines the map of the upserts still standing. -/
namespace Fluxbee.Shm
open OpenAddressing IdentityRegion Text Option Function RawKey Vector Slot Finset

variable {S : Sections} {r : IdentityRegion S} {m : IchMap}

inductive MappingOp where
  | upsert (k : IchKey) (ichId ilkId : Id16) (now : ℕ)
  | remove (k : IchKey) (now : ℕ)
  | clearIlk (ilkId : Id16) (now : ℕ)
  | rewrite (tenants : List TenantEntry) (ilks : List IlkEntry) (ichs : List IchEntry)
      (aliases : List IlkAliasEntry) (vocabulary : List VocabularyEntry) (now : ℕ)
  | clear (now : ℕ)

def applyMappingOp (r : IdentityRegion S) : MappingOp → IdentityRegion S × Bool
  | .upsert k ichId ilkId now =>
    let (r', result) := r.upsertIchMapping k.channelType k.address ichId ilkId k.tenantId now
    (r', result.isOk)
  | .remove k now => ((r.removeIchMapping k.channelType k.address k.tenantId now).1, true)
  | .clearIlk ilkId now => ((r.clearIchMappingsForIlk ilkId now).1, true)
  | .rewrite tenants ilks ichs aliases vocabulary now =>
    let (r', result) := r.writeSnapshotEntries tenants ilks ichs aliases vocabulary now
    (r', result.isOk)
  | .clear now => (r.clear now, true)

/-- What the table is for: channel keys to the channel and ILK they belong to. -/
abbrev IchMap := IchKey → Option (Id16 × Id16)

def IchMap.apply (m : IchMap) : MappingOp → Bool → IchMap
  | _, false => m
  | .upsert k ichId ilkId _, true => Function.update m k (some (ichId, ilkId))
  | .remove k _, true => Function.update m k none
  | .clearIlk ilkId _, true => fun k => (m k).filter fun v => v.2 != ilkId
  | .rewrite .., true => fun _ => none
  | .clear _, true => fun _ => none

def runMappingOps (r : IdentityRegion S) (m : IchMap) : List MappingOp → IdentityRegion S × IchMap
  | [] => (r, m)
  | op :: ops =>
    let (r', ok) := applyMappingOp r op
    runMappingOps r' (m.apply op ok) ops

def ownedSlot (mappings : Vector IchMappingEntry S.mappings) (ilkId : Id16) (j : ℕ) : Bool :=
  if h : j < S.mappings then ownedBy ilkId mappings[j] else false

/-- Clearing the ILK opens no hole before a key of another one: no slot on the probe
path of such a key holds an entry of this ILK. -/
def ClearSafe (r : IdentityRegion S) (ilkId : Id16) : Prop :=
  ChainsAvoid S.mappings RawKey.home (ownedSlot r.mappings ilkId) (slots r.mappings)

instance (r : IdentityRegion S) (ilkId : Id16) : Decidable (ClearSafe r ilkId) :=
  inferInstanceAs (Decidable (ChainsAvoid _ _ _ _))

def OpSafe (r : IdentityRegion S) : MappingOp → Prop
  | .clearIlk ilkId _ => ClearSafe r ilkId
  | _ => True

instance (r : IdentityRegion S) : (op : MappingOp) → Decidable (OpSafe r op)
  | .clearIlk ilkId _ => inferInstanceAs (Decidable (ClearSafe r ilkId))
  | .upsert .. => inferInstanceAs (Decidable True)
  | .remove .. => inferInstanceAs (Decidable True)
  | .rewrite .. => inferInstanceAs (Decidable True)
  | .clear _ => inferInstanceAs (Decidable True)

def ClearsSafe (r : IdentityRegion S) : List MappingOp → Prop
  | [] => True
  | op :: ops => OpSafe r op ∧ ClearsSafe (applyMappingOp r op).1 ops

/-- The table holds exactly the map, in well-formed slots, and the header counts them. -/
structure Refines (r : IdentityRegion S) (m : IchMap) : Prop where
  valid : AllValid r.mappings
  wellFormed : WellFormed S.mappings RawKey.home (slots r.mappings)
  keyed : ∀ j < S.mappings, ∀ rk v, slots r.mappings j = .live rk v → ∃ k : IchKey, rk = k.raw
  stores : ∀ k v, Stores S.mappings (slots r.mappings) k.raw v ↔ m k = some v
  count : r.header.ichMappingCount = liveCount S.mappings (slots r.mappings)

theorem slots_replicate_empty {n : ℕ} (j : ℕ) :
    slots (replicate n emptyIchMappingEntry) j = .free := by
  unfold slots
  split_ifs with h
  · rw [getElem_replicate, slot_empty]
  · rfl

theorem refines_of_replicate (hm : r.mappings = replicate _ emptyIchMappingEntry)
    (hc : r.header.ichMappingCount = 0) : Refines r fun _ => none := by
  have hfree (j : ℕ) : slots r.mappings j = .free := by rw [hm]; exact slots_replicate_empty j
  refine ⟨?_, wellFormed_of_forall_free fun j _ => hfree j, ?_, ?_, ?_⟩
  · intro i
    rw [hm]
    change (replicate _ emptyIchMappingEntry)[i.val].Valid
    rw [getElem_replicate]
    exact .empty
  · intro j _ rk v hlive
    rw [hfree] at hlive
    cases hlive
  · intro k v
    constructor
    · rintro ⟨j, _, hlive⟩
      rw [hfree] at hlive
      cases hlive
    · intro h
      cases h
  · have hnone : ((Finset.range S.mappings).filter fun j => (slots r.mappings j).isLive) = ∅ :=
      Finset.filter_eq_empty_iff.mpr fun j _ => by simp [hfree, isLive]
    rw [hc, liveCount, hnone, card_empty]

theorem Refines.resolve (h : Refines r m) (k : IchKey) :
    r.resolveIchMapping k.channelType k.address k.tenantId = m k := by
  unfold resolveIchMapping resolveIchMappingFromEntries
  rw [computeIchHash_eq]
  split_ifs with hn
  · have hp := passed_zero S.mappings home (slots r.mappings) k.raw
    rcases resolveProbe_spec h.valid hn k (Nat.zero_add _) hp with ⟨v, hr, hs⟩ | ⟨hr, hm⟩
    · exact hr.trans ((h.stores k v).mp hs).symm
    · have hnone : m k = none := eq_none_iff_forall_ne_some.mpr fun v hv =>
        h.wellFormed.not_stores_of_missed hm v ((h.stores k v).mpr hv)
      exact hr.trans hnone.symm
  · have hnone : m k = none := eq_none_iff_forall_ne_some.mpr fun v hv => by
      obtain ⟨j, hj, _⟩ := (h.stores k v).mpr hv
      omega
    exact hnone.symm

variable {mappings : Vector IchMappingEntry S.mappings}

theorem Refines.written (h : Refines r m) {k : IchKey} {value : Id16 × Id16} {i : ℕ}
    (hw : WrittenAt r.mappings mappings k value i)
    (honly : ∀ j < S.mappings, ∀ w, slots r.mappings j = .live k.raw w →
      j = slotAt S.mappings (home k.raw) i)
    (hold : ∀ rk w, slots r.mappings (slotAt S.mappings (home k.raw) i) = .live rk w → rk = k.raw)
    {r' : IdentityRegion S} (hmap : r'.mappings = mappings)
    (hcount : r'.header.ichMappingCount = liveCount S.mappings (slots mappings)) :
    Refines r' (Function.update m k (some value)) := by
  subst hmap
  have hj : slotAt S.mappings (home k.raw) i < S.mappings := slotAt_lt (by have := hw.lt; omega) _ _
  refine ⟨hw.valid, ?_, ?_, ?_, hcount⟩
  · rw [hw.slots_eq]
    exact h.wellFormed.set_live hw.lt value hw.before honly
  · intro j hjn rk v hlive
    rw [hw.slots_eq, update_apply] at hlive
    split_ifs at hlive with hij
    · rw [live.injEq] at hlive
      exact ⟨k, hlive.1.symm⟩
    · exact h.keyed j hjn rk v hlive
  · intro k' v
    rw [hw.slots_eq, stores_update_live hj honly hold, update_apply]
    by_cases hk : k' = k
    · simp [hk, eq_comm]
    · have hraw : k'.raw ≠ k.raw := fun he => hk (IchKey.raw_injective he)
      simp [hk, hraw, h.stores]

theorem upsertIchMapping_eq (r : IdentityRegion S) (k : IchKey) (ichId ilkId : Id16) (now : ℕ) :
    r.upsertIchMapping k.channelType k.address ichId ilkId k.tenantId now =
      match upsertIchMappingEntry r.mappings (hash k.raw) k.channelType k.address ichId
          ilkId k.tenantId with
      | .ok (mappings, inserted) => ({ r with
           mappings := mappings
           header := { r.header with
             ichMappingCount := if inserted then saturatingAdd32 r.header.ichMappingCount 1
               else r.header.ichMappingCount
             updatedAt := now
             heartbeat := now } }, .ok ())
      | .error e => (r, .error e) := by
  unfold upsertIchMapping
  rw [if_neg (Nat.not_lt.mpr k.channelType_le), if_neg (Nat.not_lt.mpr k.address_le)]
  rfl

/-- An upsert either stands in the table and the map, or changes nothing because
every slot is live with another key. -/
theorem Refines.upsert (h : Refines r m) (k : IchKey) (ichId ilkId : Id16) (now : ℕ) :
    let out := r.upsertIchMapping k.channelType k.address ichId ilkId k.tenantId now
    (out.2 = .ok () ∧ Refines out.1 (Function.update m k (some (ichId, ilkId)))) ∨
      (out = (r, .error .slotFull) ∧ m k = none ∧
        ∀ j < S.mappings, (slots r.mappings j).isLive = true) := by
  intro out
  have hout : out = _ := upsertIchMapping_eq r k ichId ilkId now
  by_cases hn : 0 < S.mappings
  · have hseen : TombstoneSeen r.mappings k 0 none := fun i hi => absurd hi (Nat.not_lt_zero i)
    have hspec := upsertProbe_spec h.valid hn k ichId ilkId (Nat.zero_add _)
      (passed_zero S.mappings home (slots r.mappings) k.raw) hseen
    rw [upsertIchMappingEntry, dif_pos hn] at hout
    rcases hspec with ⟨m', i, w, hr, hw, hs⟩ | ⟨m', i, hr, hw, hs, hmiss⟩ | ⟨hr, hp, hfull⟩
    · rw [hr] at hout
      have hj := slotAt_lt hn (home k.raw) i
      have hc := liveCount_update hj (slots r.mappings) (.live k.raw (ichId, ilkId))
      rw [← hw.slots_eq, hs] at hc
      refine .inl ⟨by rw [hout], h.written hw ?_ ?_ (by rw [hout]) ?_⟩
      · exact fun j hjn v hv => h.wellFormed.single j hjn _ hj k.raw v w hv hs
      · intro rk v hv
        rw [hs, live.injEq] at hv
        exact hv.1.symm
      · rw [hout]
        change r.header.ichMappingCount = _
        rw [h.count]
        exact (Nat.add_right_cancel hc).symm
    · rw [hr] at hout
      have hj := slotAt_lt hn (home k.raw) i
      have hc := liveCount_update hj (slots r.mappings) (.live k.raw (ichId, ilkId))
      rw [← hw.slots_eq, hs] at hc
      have hle := liveCount_le S.mappings (slots m')
      refine .inl ⟨by rw [hout], h.written hw ?_ ?_ (by rw [hout]) ?_⟩
      · exact fun j hjn v hv => absurd ⟨j, hjn, hv⟩ (h.wellFormed.not_stores_of_missed hmiss v)
      · intro rk v hv
        rw [hv] at hs
        cases hs
      · rw [hout]
        change saturatingAdd32 r.header.ichMappingCount 1 = _
        have hu := S.mappings_le
        simp only [saturatingAdd32, isLive, Bool.toNat_false, Bool.toNat_true] at hc ⊢
        rw [h.count, Nat.min_eq_left (by omega)]
        omega
    · rw [hr] at hout
      refine .inr ⟨hout, eq_none_iff_forall_ne_some.mpr fun v hv => ?_, hfull⟩
      exact not_stores_of_passed hp v ((h.stores k v).mpr hv)
  · rw [upsertIchMappingEntry, dif_neg hn] at hout
    refine .inr ⟨hout, eq_none_iff_forall_ne_some.mpr fun v hv => ?_, fun j hj => ?_⟩
    · obtain ⟨j, hj, _⟩ := (h.stores k v).mpr hv
      omega
    · omega

theorem Refines.update_none (h : Refines r m) {k : IchKey}
    (hk : ∀ v, ¬ Stores S.mappings (slots r.mappings) k.raw v) :
    Refines r (Function.update m k none) := by
  have hnone : m k = none := eq_none_iff_forall_ne_some.mpr fun v hv => hk v ((h.stores k v).mpr hv)
  rwa [← hnone, update_eq_self]

theorem Refines.remove (h : Refines r m) (k : IchKey)
    (now : ℕ) : Refines (r.removeIchMapping k.channelType k.address k.tenantId now).1
      (Function.update m k none) := by
  unfold removeIchMapping removeIchMappingEntry
  rw [computeIchHash_eq]
  split_ifs with hn
  · have hp := passed_zero S.mappings home (slots r.mappings) k.raw
    rcases removeProbe_spec h.valid hn k (Nat.zero_add _) hp with ⟨hr, hv, j, hj, w, hs, heq⟩ |
      ⟨hr, hm⟩
    · generalize removeProbe r.mappings hn (hash k.raw) k.channelType k.address k.tenantId
        S.mappings 0 = out at hr hv heq
      obtain ⟨mappings, removed⟩ := out
      subst hr
      have hc := liveCount_update hj (slots r.mappings) .tombstone
      rw [← heq, hs] at hc
      refine ⟨hv, ?_, ?_, ?_, ?_⟩
      · exact heq ▸ h.wellFormed.set_tombstone j
      · intro i hi rk v hlive
        change slots mappings i = _ at hlive
        rw [heq, update_apply] at hlive
        split_ifs at hlive
        exact h.keyed i hi rk v hlive
      · intro k' v
        change Stores _ (slots mappings) _ _ ↔ _
        rw [heq, h.wellFormed.single.stores_update_tombstone hj hs, update_apply]
        by_cases hk : k' = k
        · simp [hk]
        · have hraw : k'.raw ≠ k.raw := fun he => hk (IchKey.raw_injective he)
          simp [hk, hraw, h.stores]
      · change r.header.ichMappingCount - 1 = liveCount S.mappings (slots mappings)
        simp only [isLive, Bool.toNat_true, Bool.toNat_false] at hc
        rw [h.count]
        omega
    · rw [hr]
      exact h.update_none fun v => h.wellFormed.not_stores_of_missed hm v
  · refine h.update_none ?_
    rintro v ⟨j, hj, _⟩
    omega

theorem IchMappingEntry.Valid.ownedBy_iff {e : IchMappingEntry} (he : e.Valid) (ilkId : Id16) :
    ownedBy ilkId e = true ↔ e.slot = .live e.key (e.ichId, ilkId) := by
  unfold ownedBy
  rcases he.cases with ⟨h0, hs⟩ | ⟨h0, ht, hs⟩ | ⟨h0, ht, ho, hh, hs⟩
  · simp [h0, hs]
  · have hflags : e.flags = ichMapFlagTombstone := by
      rcases he.flags with h | h | h
      · exact absurd h h0
      · rw [h] at ht
        exact absurd (by decide) ht
      · exact h
    have hno : ¬ e.flags &&& ichMapFlagOccupied ≠ 0 := by rw [hflags]; decide
    simp [hs, hno]
  · simp [hs, ho]

theorem slots_clear (ilkId : Id16) :
    slots (mappings.map fun e => if ownedBy ilkId e then emptyIchMappingEntry else e) =
      freeWhere (ownedSlot mappings ilkId) (slots mappings) := by
  funext j
  unfold freeWhere ownedSlot slots
  by_cases hj : j < S.mappings
  · simp only [dif_pos hj, getElem_map]
    split_ifs
    · exact slot_empty
    · rfl
  · simp only [dif_neg hj]
    rfl

theorem card_ownedSlot (hv : AllValid mappings) (ilkId : Id16) :
    ((Finset.range S.mappings).filter fun j => ownedSlot mappings ilkId j &&
      (slots mappings j).isLive).card = mappings.countP (ownedBy ilkId) := by
  rw [← Vector.countP_toList, countP_eq_card_filter, Vector.length_toList]
  congr 1
  apply filter_congr
  intro j hj
  have hjn := mem_range.mp hj
  have hvj : mappings[j].Valid := hv ⟨j, hjn⟩
  have hget : mappings.toList[j]? = some mappings[j] := by simp [hjn]
  simp only [ownedSlot, slots, dif_pos hjn, hget, any_some, Bool.and_eq_true, and_iff_left_iff_imp]
  intro ho
  rw [(hvj.ownedBy_iff ilkId).mp ho]
  rfl

section
variable (h : Refines r m) (ilkId : Id16)
include h

theorem clearIchMappingsForIlk_spec (now : ℕ) :
    let r' := (r.clearIchMappingsForIlk ilkId now).1
    AllValid r'.mappings ∧
      slots r'.mappings = freeWhere (ownedSlot r.mappings ilkId) (slots r.mappings) ∧
      r'.header.ichMappingCount = liveCount S.mappings (slots r'.mappings) := by
  intro r'
  have hmap : r'.mappings =
      r.mappings.map fun e => if ownedBy ilkId e then emptyIchMappingEntry else e := by
    change (r.clearIchMappingsForIlk ilkId now).1.mappings = _
    simp only [clearIchMappingsForIlk]
    split_ifs <;> rfl
  have hslots : slots r'.mappings = _ := (congrArg slots hmap).trans (slots_clear ilkId)
  refine ⟨?_, hslots, ?_⟩
  · intro i
    have hget : r'.mappings.get i = _ := (congrArg (·.get i) hmap).trans (getElem_map _ i.isLt)
    rw [hget]
    split_ifs
    · exact .empty
    · exact h.valid i
  · have hcard := card_ownedSlot h.valid ilkId
    have hsplit := liveCount_freeWhere S.mappings (ownedSlot r.mappings ilkId) (slots r.mappings)
    have hle := liveCount_le S.mappings (slots r.mappings)
    have hu := S.mappings_le
    have hremoved : min (r.mappings.countP (ownedBy ilkId)) u32Max =
        r.mappings.countP (ownedBy ilkId) := Nat.min_eq_left (by omega)
    have hcount : r'.header.ichMappingCount =
        r.header.ichMappingCount - r.mappings.countP (ownedBy ilkId) := by
      change (r.clearIchMappingsForIlk ilkId now).1.header.ichMappingCount = _
      simp only [clearIchMappingsForIlk, hremoved]
      split_ifs with hpos
      · rfl
      · change r.header.ichMappingCount = _
        omega
    rw [hcount, hslots, h.count]
    omega

theorem stores_clear_iff (k : IchKey) (v : Id16 × Id16) :
    Stores S.mappings (freeWhere (ownedSlot r.mappings ilkId) (slots r.mappings)) k.raw v ↔
      ((m k).filter fun v => v.2 != ilkId) = some v := by
  have howned : ∀ j < S.mappings, slots r.mappings j = .live k.raw v →
      (ownedSlot r.mappings ilkId j = false ↔ v.2 ≠ ilkId) := by
    intro j hj hlive
    have hvj : r.mappings[j].Valid := h.valid ⟨j, hj⟩
    unfold slots at hlive
    rw [dif_pos hj] at hlive
    rw [ownedSlot, dif_pos hj, ← not_iff_not, Bool.not_eq_false, hvj.ownedBy_iff, not_not]
    rcases hvj.cases with ⟨_, hs⟩ | ⟨_, _, hs⟩ | ⟨_, _, _, _, hs⟩
    · rw [hs] at hlive
      cases hlive
    · rw [hs] at hlive
      cases hlive
    · rw [hs, live.injEq] at hlive
      rw [hs, ← hlive.2]
      simp
  rw [stores_freeWhere, filter_eq_some_iff, bne_iff_ne, ← h.stores k v]
  constructor
  · rintro ⟨j, hj, hlive, hno⟩
    exact ⟨⟨j, hj, hlive⟩, (howned j hj hlive).mp hno⟩
  · rintro ⟨⟨j, hj, hlive⟩, hne⟩
    exact ⟨j, hj, hlive, (howned j hj hlive).mpr hne⟩

theorem Refines.clearIlk (now : ℕ) (hsafe : ClearSafe r ilkId) :
    Refines (r.clearIchMappingsForIlk ilkId now).1 fun k => (m k).filter fun v => v.2 != ilkId := by
  obtain ⟨hv, hslots, hcount⟩ := clearIchMappingsForIlk_spec h ilkId now
  refine ⟨hv, ?_, ?_, ?_, hcount⟩
  · rw [hslots]
    exact ⟨(unbroken_freeWhere_iff h.wellFormed.unbroken).mpr hsafe,
      h.wellFormed.single.freeWhere _⟩
  · intro j hj rk v hlive
    rw [hslots, freeWhere] at hlive
    split_ifs at hlive
    exact h.keyed j hj rk v hlive
  · intro k v
    rw [hslots]
    exact stores_clear_iff h ilkId k v

end

theorem writeSnapshotEntries_refines (r : IdentityRegion S) (tenants : List TenantEntry)
    (ilks : List IlkEntry) (ichs : List IchEntry) (aliases : List IlkAliasEntry)
    (vocabulary : List VocabularyEntry) (now : ℕ) :
    let out := r.writeSnapshotEntries tenants ilks ichs aliases vocabulary now
    (out.2 = .ok () ∧ Refines out.1 fun _ => none) ∨ (out.2.isOk = false ∧ out.1 = r) := by
  intro out
  have hout : out = r.writeSnapshotEntries tenants ilks ichs aliases vocabulary now := rfl
  unfold writeSnapshotEntries at hout
  split_ifs at hout
  all_goals rw [hout]
  case neg => exact .inl ⟨rfl, refines_of_replicate rfl rfl⟩
  all_goals exact .inr ⟨rfl, rfl⟩

theorem Refines.step (h : Refines r m) (op : MappingOp) (hsafe : OpSafe r op) :
    Refines (applyMappingOp r op).1 (m.apply op (applyMappingOp r op).2) := by
  cases op with
  | upsert k ichId ilkId now =>
    rcases h.upsert k ichId ilkId now with ⟨hok, hr⟩ | ⟨hout, _, _⟩
    · simp only [applyMappingOp, hok]
      exact hr
    · simp only [applyMappingOp, hout]
      exact h
  | remove k now => exact h.remove k now
  | clearIlk ilkId now => exact h.clearIlk ilkId now hsafe
  | rewrite tenants ilks ichs aliases vocabulary now =>
    rcases writeSnapshotEntries_refines r tenants ilks ichs aliases vocabulary now with
      ⟨hok, hr⟩ | ⟨hfail, hsame⟩
    · simp only [applyMappingOp, hok]
      exact hr
    · simp only [applyMappingOp, hfail, hsame]
      exact h
  | clear now => exact refines_of_replicate rfl rfl

theorem Refines.run (h : Refines r m) (ops : List MappingOp) (hsafe : ClearsSafe r ops) :
    Refines (runMappingOps r m ops).1 (runMappingOps r m ops).2 := by
  induction ops generalizing r m with
  | nil => exact h
  | cons op ops ih => exact ih (h.step op hsafe.1) hsafe.2

/-- After a sequence of operations on a new region: a lookup answers as the map does, no
key has two live slots, the header counts the live slots, and a new key is refused only
by a table with no slot left. -/
def TableIsMap (S : Sections) (now : ℕ) (ops : List MappingOp) : Prop :=
  let out := runMappingOps (IdentityRegion.empty S now) (fun _ => none) ops
  (∀ k : IchKey, out.1.resolveIchMapping k.channelType k.address k.tenantId = out.2 k) ∧
    Single S.mappings (slots out.1.mappings) ∧
    out.1.header.ichMappingCount = liveCount S.mappings (slots out.1.mappings) ∧
    ∀ (k : IchKey) (ichId ilkId : Id16) (later : ℕ), out.2 k = none →
      (out.1.upsertIchMapping k.channelType k.address ichId ilkId k.tenantId later).2 ≠ .ok () →
      ∀ j < S.mappings, (slots out.1.mappings j).isLive = true

/-- The table is a finite map in every run whose clears open no hole in another key's path. -/
theorem tableIsMap_of_clearsSafe (S : Sections) (now : ℕ) (ops : List MappingOp)
    (hsafe : ClearsSafe (IdentityRegion.empty S now) ops) : TableIsMap S now ops := by
  have h := (refines_of_replicate (r := IdentityRegion.empty S now) rfl rfl).run ops hsafe
  refine ⟨h.resolve, h.wellFormed.single, h.count, ?_⟩
  intro k ichId ilkId later _ hfail
  rcases h.upsert k ichId ilkId later with ⟨hok, _⟩ | ⟨_, _, hfull⟩
  · exact absurd hok hfail
  · exact hfull

/-- A key of the installation's default tenant whose texts are checked by evaluation. -/
def smsKey (address : String) (hpos : asBytes address ≠ [])
    (hlen : (asBytes address).length ≤ ichAddressMaxLen) (hnul : (0 : UInt8) ∉ asBytes address) :
    IchKey :=
  ⟨"sms", address, zeroId.set 15 1, by decide, hpos, by decide, hlen, by decide, hnul⟩

def twoIlkLimits : IdentityRegionLimits := ⟨2, 1, 0, 1⟩

/-- Two ILKs whose only channels hash to the same slot; the first one is cleared. -/
def collidingOps : List MappingOp :=
  [.upsert (smsKey "+100" (by decide) (by decide) (by decide)) (zeroId.set 0 1) (zeroId.set 0 2) 1,
   .upsert (smsKey "+117" (by decide) (by decide) (by decide)) (zeroId.set 0 3) (zeroId.set 0 4) 2,
   .clearIlk (zeroId.set 0 2) 3]

/-- The second ILK keeps its mapping but is no longer found: the probe for it stops at
the slot the clear freed. -/
theorem not_tableIsMap_collidingOps : ¬ TableIsMap twoIlkLimits.sections 0 collidingOps := by
  intro h
  have hk := h.1 (smsKey "+117" (by decide) (by decide) (by decide))
  revert hk
  decide +kernel

/-- A run with a clear that is safe: the two channels do not share a path. -/
theorem tableIsMap_disjointOps : TableIsMap twoIlkLimits.sections 0
    [.upsert (smsKey "+100" (by decide) (by decide) (by decide)) (zeroId.set 0 1)
      (zeroId.set 0 2) 1,
     .upsert (smsKey "+101" (by decide) (by decide) (by decide)) (zeroId.set 0 3)
      (zeroId.set 0 4) 2,
     .clearIlk (zeroId.set 0 2) 3] :=
  tableIsMap_of_clearsSafe _ _ _ ⟨trivial, trivial, by decide +kernel, trivial⟩

end Fluxbee.Shm
