import Fluxbee.Shm.IchMapping

/-! What the probe loops do to the table seen as slots: where they stop, and which
slot they change. -/
namespace Fluxbee.Shm
open OpenAddressing Text RawKey IchMappingEntry Function

variable {n : ℕ}

section
variable (mappings : Vector IchMappingEntry n)

/-- The table as slots; past its end there is nothing. -/
def slots (j : ℕ) : Slot RawKey (Id16 × Id16) :=
  if h : j < n then (mappings[j]).slot else .free

def AllValid : Prop := ∀ i : Fin n, (mappings.get i).Valid

theorem slots_fin (i : Fin n) : slots mappings i = (mappings.get i).slot := dif_pos i.isLt

theorem slots_set (i : Fin n) (e : IchMappingEntry) :
    slots (mappings.set i e i.isLt) = update (slots mappings) i e.slot := by
  funext j
  simp only [slots, update_apply]
  by_cases hj : j < n
  · rw [dif_pos hj, dif_pos hj, Vector.getElem_set]
    split_ifs with h h' h'
    · rfl
    · exact absurd h.symm h'
    · exact absurd h'.symm h
    · rfl
  · have hne : j ≠ i := fun h => hj (h ▸ i.isLt)
    rw [dif_neg hj, dif_neg hj, if_neg hne]

end

variable {mappings : Vector IchMappingEntry n} {e : IchMappingEntry} {steps probe : ℕ}
  {seen : Option (Fin n)}

theorem AllValid.set (hv : AllValid mappings) (i : Fin n)
    (he : e.Valid) : AllValid (mappings.set i e i.isLt) := by
  intro j
  change (mappings.set i e i.isLt)[j.val].Valid
  rw [Vector.getElem_set]
  split_ifs with h
  · exact he
  · exact hv j

theorem IchMappingEntry.Valid.empty : emptyIchMappingEntry.Valid :=
  ⟨.inl rfl, fun h => absurd h (by decide)⟩

theorem IchMappingEntry.Valid.tombstone (hash : UInt64) : (tombstoneEntry hash).Valid := by
  have hne : ichMapFlagTombstone ≠ ichMapFlagOccupied := by decide
  exact ⟨.inr (.inr rfl), fun h => absurd h hne⟩

@[simp] theorem slot_empty : emptyIchMappingEntry.slot = .free := if_pos rfl

@[simp] theorem slot_tombstone (hash : UInt64) : (tombstoneEntry hash).slot = .tombstone := by
  have h0 : ichMapFlagTombstone ≠ 0 := by decide
  have ht : ichMapFlagTombstone &&& ichMapFlagTombstone ≠ 0 := by decide
  exact (if_neg h0).trans (if_pos ht)

section
variable (k : IchKey)

theorem key_writeIchMappingEntry (hash : UInt64) (ichId ilkId : Id16) :
    (writeIchMappingEntry hash k.channelType k.address ichId ilkId k.tenantId).key = k.raw := by
  have hct := usedBytes_copyBytesWithLen k.channelType_le k.channelType_nul
  have ha := usedBytes_copyBytesWithLen k.address_le k.address_nul
  exact Prod.ext hct (Prod.ext ha rfl)

theorem slot_writeIchMappingEntry (hash : UInt64) (ichId ilkId : Id16) :
    (writeIchMappingEntry hash k.channelType k.address ichId ilkId k.tenantId).slot =
      .live k.raw (ichId, ilkId) := by
  have h0 : ichMapFlagOccupied ≠ 0 := by decide
  have ht : ¬ ichMapFlagOccupied &&& ichMapFlagTombstone ≠ 0 := by decide
  rw [← key_writeIchMappingEntry k hash ichId ilkId]
  exact (if_neg h0).trans (if_neg ht)

theorem IchMappingEntry.Valid.write (ichId ilkId : Id16) :
    (writeIchMappingEntry (RawKey.hash k.raw) k.channelType k.address ichId ilkId
      k.tenantId).Valid :=
  ⟨.inr (.inl rfl), fun _ => by rw [key_writeIchMappingEntry]; rfl⟩

theorem computeIchHash_eq :
    computeIchHash k.channelType k.address k.tenantId = RawKey.hash k.raw := rfl

theorem IchMappingEntry.Valid.cases (he : e.Valid) : (e.flags = 0 ∧ e.slot = .free) ∨
    (e.flags ≠ 0 ∧ e.flags &&& ichMapFlagTombstone ≠ 0 ∧ e.slot = .tombstone) ∨
    (e.flags ≠ 0 ∧ ¬ e.flags &&& ichMapFlagTombstone ≠ 0 ∧ e.flags &&& ichMapFlagOccupied ≠ 0 ∧
      e.hash = RawKey.hash e.key ∧ e.slot = .live e.key (e.ichId, e.ilkId)) := by
  rcases he.flags with h | h | h
  · exact .inl ⟨h, if_pos h⟩
  · have h0 : e.flags ≠ 0 := by rw [h]; decide
    have ht : ¬ e.flags &&& ichMapFlagTombstone ≠ 0 := by rw [h]; decide
    refine .inr (.inr ⟨h0, ht, by rw [h]; decide, he.hash h, ?_⟩)
    rw [slot, if_neg h0, if_neg ht]
  · have h0 : e.flags ≠ 0 := by rw [h]; decide
    have ht : e.flags &&& ichMapFlagTombstone ≠ 0 := by rw [h]; decide
    refine .inr (.inl ⟨h0, ht, ?_⟩)
    rw [slot, if_neg h0, if_pos ht]

theorem isMatch_iff (ho : e.flags &&& ichMapFlagOccupied ≠ 0) (hh : e.hash = RawKey.hash e.key) :
    e.isMatch (RawKey.hash k.raw) k.channelType k.address k.tenantId = true ↔ e.key = k.raw := by
  simp only [isMatch, fixedStrMatches, Bool.and_eq_true, decide_eq_true_eq, beq_iff_eq]
  constructor
  · rintro ⟨⟨⟨_, ht⟩, hct⟩, ha⟩
    exact Prod.ext hct (Prod.ext ha ht)
  · intro h
    have hct : usedBytes e.channelType = asBytes k.channelType := congrArg Prod.fst h
    have ha : usedBytes e.address = asBytes k.address := congrArg (fun x => x.2.1) h
    have ht : e.tenantId = k.tenantId := congrArg (fun x => x.2.2) h
    exact ⟨⟨⟨⟨ho, hh.trans (congrArg RawKey.hash h)⟩, ht⟩, hct⟩, ha⟩

end

theorem probeIdx_val (hn : 0 < n) (k : IchKey) (probe : ℕ) :
    (probeIdx hn (RawKey.hash k.raw) probe).val = slotAt n (home k.raw) probe :=
  Nat.mod_add_mod _ _ _

theorem probe_cases (hv : AllValid mappings) (hn : 0 < n) (k : IchKey) (probe : ℕ) :
    let e := mappings.get (probeIdx hn (RawKey.hash k.raw) probe)
    let hit := e.isMatch (RawKey.hash k.raw) k.channelType k.address k.tenantId
    let s := slots mappings (slotAt n (home k.raw) probe)
    (e.flags = 0 ∧ s = .free) ∨
    (e.flags ≠ 0 ∧ e.flags &&& ichMapFlagTombstone ≠ 0 ∧ s = .tombstone) ∨
    (e.flags ≠ 0 ∧ ¬ e.flags &&& ichMapFlagTombstone ≠ 0 ∧ hit = true ∧
      s = .live k.raw (e.ichId, e.ilkId)) ∨
    (e.flags ≠ 0 ∧ ¬ e.flags &&& ichMapFlagTombstone ≠ 0 ∧ ¬ hit = true ∧
      s.isLive = true ∧ ∀ v, s ≠ .live k.raw v) := by
  intro e hit s
  have hs : s = e.slot := by
    change slots mappings _ = _
    rw [← probeIdx_val hn k probe]
    exact slots_fin mappings _
  rcases (hv (probeIdx hn (RawKey.hash k.raw) probe)).cases with h | h | ⟨h0, ht, ho, hh, hl⟩
  · exact .inl ⟨h.1, hs.trans h.2⟩
  · exact .inr (.inl ⟨h.1, h.2.1, hs.trans h.2.2⟩)
  · have hiff : hit = true ↔ e.key = k.raw := isMatch_iff k ho hh
    by_cases hkey : e.key = k.raw
    · exact .inr (.inr (.inl ⟨h0, ht, hiff.mpr hkey, hs.trans (hl.trans (by rw [hkey]))⟩))
    · refine .inr (.inr (.inr ⟨h0, ht, fun h => hkey (hiff.mp h), ?_, ?_⟩))
      · rw [hs, hl]
        rfl
      · intro v hlive
        rw [hs, hl, Slot.live.injEq] at hlive
        exact hkey hlive.1

section
variable {mappings : Vector IchMappingEntry n} (hv : AllValid mappings) (hn : 0 < n) (k : IchKey)

include hv in
theorem resolveProbe_spec (hlen : probe + steps = n)
    (hp : Passed n home (slots mappings) k.raw probe) :
    let r := resolveProbe mappings hn (RawKey.hash k.raw) k.channelType k.address k.tenantId
      steps probe
    (∃ v, r = some v ∧ Stores n (slots mappings) k.raw v) ∨
      (r = none ∧ Missed n home (slots mappings) k.raw) := by
  induction steps generalizing probe with
  | zero =>
    obtain rfl : probe = n := by omega
    exact .inr ⟨rfl, .inr hp⟩
  | succ steps ih =>
    simp only [resolveProbe]
    rcases probe_cases hv hn k probe with ⟨h0, hs⟩ | ⟨h0, ht, hs⟩ | ⟨h0, ht, hm, hs⟩ |
      ⟨h0, ht, hm, hlive, hne⟩
    · rw [if_pos h0]
      exact .inr ⟨rfl, .inl ⟨probe, by omega, hp, hs⟩⟩
    · rw [if_neg h0, if_pos ht]
      exact ih (by omega) (hp.succ (by simp [hs]) (by simp [hs]))
    · rw [if_neg h0, if_neg ht, if_pos hm]
      exact .inl ⟨_, rfl, _, slotAt_lt hn _ _, hs⟩
    · rw [if_neg h0, if_neg ht, if_neg hm]
      exact ih (by omega) (hp.succ (Slot.ne_free_of_isLive hlive) hne)

include hv in
theorem removeProbe_spec (hlen : probe + steps = n)
    (hp : Passed n home (slots mappings) k.raw probe) :
    let r := removeProbe mappings hn (RawKey.hash k.raw) k.channelType k.address k.tenantId
      steps probe
    (r.2 = true ∧ AllValid r.1 ∧ ∃ j < n, ∃ v, slots mappings j = .live k.raw v ∧
        slots r.1 = update (slots mappings) j .tombstone) ∨
      (r = (mappings, false) ∧ Missed n home (slots mappings) k.raw) := by
  induction steps generalizing probe with
  | zero =>
    obtain rfl : probe = n := by omega
    exact .inr ⟨rfl, .inr hp⟩
  | succ steps ih =>
    simp only [removeProbe]
    rcases probe_cases hv hn k probe with ⟨h0, hs⟩ | ⟨h0, ht, hs⟩ | ⟨h0, ht, hm, hs⟩ |
      ⟨h0, ht, hm, hlive, hne⟩
    · rw [if_pos h0]
      exact .inr ⟨rfl, .inl ⟨probe, by omega, hp, hs⟩⟩
    · rw [if_neg h0, if_pos ht]
      exact ih (by omega) (hp.succ (by simp [hs]) (by simp [hs]))
    · rw [if_neg h0, if_neg ht, if_pos hm]
      refine .inl ⟨rfl, hv.set _ (.tombstone _), _, slotAt_lt hn _ probe, _, hs, ?_⟩
      rw [slots_set, slot_tombstone, probeIdx_val]
    · rw [if_neg h0, if_neg ht, if_neg hm]
      exact ih (by omega) (hp.succ (Slot.ne_free_of_isLive hlive) hne)

/-- What the upsert loop remembers of the tombstones it passed. -/
def TombstoneSeen (mappings : Vector IchMappingEntry n) (k : IchKey) (probe : ℕ) :
    Option (Fin n) → Prop
  | some target => ∃ i < probe, target.val = slotAt n (RawKey.home k.raw) i ∧
      slots mappings target = .tombstone
  | none => ∀ i < probe, slots mappings (slotAt n (RawKey.home k.raw) i) ≠ .tombstone

theorem TombstoneSeen.pass (h : TombstoneSeen mappings k probe seen)
    (hs : slots mappings (slotAt n (home k.raw) probe) ≠ .tombstone) :
    TombstoneSeen mappings k (probe + 1) seen := by
  cases seen with
  | some target =>
    obtain ⟨i, hi, hrest⟩ := h
    exact ⟨i, by omega, hrest⟩
  | none =>
    intro i hi
    rcases Nat.lt_succ_iff_lt_or_eq.mp hi with hlt | rfl
    · exact h i hlt
    · exact hs

theorem TombstoneSeen.see (h : TombstoneSeen mappings k probe seen)
    (hs : slots mappings (slotAt n (home k.raw) probe) = .tombstone) :
    TombstoneSeen mappings k (probe + 1)
      (seen.or (some (probeIdx hn (RawKey.hash k.raw) probe))) := by
  cases seen with
  | some target =>
    obtain ⟨i, hi, hrest⟩ := h
    exact ⟨i, by omega, hrest⟩
  | none =>
    have hval := probeIdx_val hn k probe
    exact ⟨probe, by omega, hval, by rw [hval]; exact hs⟩

/-- The table after `k` was written at a step of its own probe. -/
structure WrittenAt (mappings mappings' : Vector IchMappingEntry n) (k : IchKey)
    (value : Id16 × Id16) (i : ℕ) : Prop where
  valid : AllValid mappings'
  lt : i < n
  slots_eq : slots mappings' =
    Function.update (slots mappings) (slotAt n (RawKey.home k.raw) i) (.live k.raw value)
  before : ∀ i' < i, slots mappings (slotAt n (RawKey.home k.raw) i') ≠ .free

include hv in
theorem writtenAt_set (ichId ilkId : Id16) {target : Fin n} {i : ℕ} (hi : i < n)
    (ht : target.val = slotAt n (home k.raw) i)
    (hbefore : ∀ i' < i, slots mappings (slotAt n (home k.raw) i') ≠ .free) :
    WrittenAt mappings (mappings.set target (writeIchMappingEntry (RawKey.hash k.raw)
      k.channelType k.address ichId ilkId k.tenantId) target.isLt) k (ichId, ilkId) i where
  valid := hv.set target (.write k ichId ilkId)
  lt := hi
  slots_eq := by rw [slots_set, slot_writeIchMappingEntry, ht]
  before := hbefore

include hv in
/-- The loop overwrites the key where it is live, or makes it live at the first
tombstone or free slot of its probe, or finds every slot live with other keys. -/
theorem upsertProbe_spec (ichId ilkId : Id16)
    (hlen : probe + steps = n) (hp : Passed n home (slots mappings) k.raw probe)
    (hseen : TombstoneSeen mappings k probe seen) :
    let r := upsertProbe mappings hn (RawKey.hash k.raw) k.channelType k.address ichId ilkId
      k.tenantId steps probe seen
    (∃ m' i w, r = .ok (m', false) ∧ WrittenAt mappings m' k (ichId, ilkId) i ∧
        slots mappings (slotAt n (home k.raw) i) = .live k.raw w) ∨
      (∃ m' i, r = .ok (m', true) ∧ WrittenAt mappings m' k (ichId, ilkId) i ∧
        (slots mappings (slotAt n (home k.raw) i)).isLive = false ∧
        Missed n home (slots mappings) k.raw) ∨
      (r = .error .slotFull ∧ Passed n home (slots mappings) k.raw n ∧
        ∀ j < n, (slots mappings j).isLive = true) := by
  induction steps generalizing probe seen with
  | zero =>
    obtain rfl : probe = n := by omega
    cases seen with
    | some target =>
      obtain ⟨i, hi, ht, hs⟩ := hseen
      have hw := writtenAt_set hv k ichId ilkId hi ht fun i' hi' => (hp i' (by omega)).1
      refine .inr (.inl ⟨_, i, rfl, hw, ?_, .inr hp⟩)
      rw [← ht, hs]
      rfl
    | none =>
      refine .inr (.inr ⟨rfl, hp, fun j hj => ?_⟩)
      obtain ⟨i, hi, rfl⟩ := exists_slotAt (home k.raw) hj
      have hfree := (hp i hi).1
      have htomb := hseen i hi
      cases hs : slots mappings (slotAt probe (home k.raw) i) with
      | free => exact absurd hs hfree
      | tombstone => exact absurd hs htomb
      | live => rfl
  | succ steps ih =>
    have hval := probeIdx_val hn k probe
    simp only [upsertProbe]
    rcases probe_cases hv hn k probe with ⟨h0, hs⟩ | ⟨h0, ht, hs⟩ | ⟨h0, ht, hm, hs⟩ |
      ⟨h0, ht, hm, hlive, hne⟩
    · rw [if_pos h0]
      have hmiss : Missed n home (slots mappings) k.raw := .inl ⟨probe, by omega, hp, hs⟩
      cases seen with
      | some target =>
        obtain ⟨i, hi, htgt, hts⟩ := hseen
        have hw := writtenAt_set hv k ichId ilkId (by omega) htgt fun i' hi' => (hp i' (by omega)).1
        refine .inr (.inl ⟨_, i, rfl, hw, ?_, hmiss⟩)
        rw [← htgt, hts]
        rfl
      | none =>
        have hw := writtenAt_set hv k ichId ilkId (by omega) hval fun i' hi' => (hp i' hi').1
        refine .inr (.inl ⟨_, probe, rfl, hw, ?_, hmiss⟩)
        rw [hs]
        rfl
    · rw [if_neg h0, if_pos ht]
      exact ih (by omega) (hp.succ (by simp [hs]) (by simp [hs])) (hseen.see hn k hs)
    · rw [if_neg h0, if_neg ht, if_pos hm]
      have hw := writtenAt_set hv k ichId ilkId (by omega) hval fun i' hi' => (hp i' hi').1
      exact .inl ⟨_, probe, _, rfl, hw, hs⟩
    · rw [if_neg h0, if_neg ht, if_neg hm]
      have hnt : slots mappings (slotAt n (home k.raw) probe) ≠ .tombstone := by
        intro h
        rw [h] at hlive
        cases hlive
      exact ih (by omega) (hp.succ (Slot.ne_free_of_isLive hlive) hne) (hseen.pass k hnt)

end

end Fluxbee.Shm
