import Mathlib.Data.List.AList

/-! Association lists as hash maps whose iteration order is the order of their entries: what
`retain`, updates in place and a batch of insertions leave under each key. -/
namespace AList
open List Option

variable {α : Type*} [DecidableEq α] {β : Type*} {m : AList fun _ : α => β} {a : α} {b : β}

def values {α β : Type*} (m : AList fun _ : α => β) : List β := m.entries.map Sigma.snd

def retain {α β : Type*} (p : α → β → Bool) (m : AList fun _ : α => β) : AList fun _ : α => β :=
  ⟨m.entries.filter fun e => p e.1 e.2, m.nodupKeys.sublist List.filter_sublist⟩

def mapValues {α β : Type*} (f : α → β → β) (m : AList fun _ : α => β) : AList fun _ : α => β where
  entries := m.entries.map fun e => ⟨e.1, f e.1 e.2⟩
  nodupKeys := by
    rw [List.NodupKeys, List.keys, List.map_map]
    exact m.nodupKeys

def mapTo {α β γ : Type*} (f : β → γ) (m : AList fun _ : α => β) : AList fun _ : α => γ where
  entries := m.entries.map fun e => ⟨e.1, f e.2⟩
  nodupKeys := by
    rw [List.NodupKeys, List.keys, List.map_map]
    exact m.nodupKeys

def modify (a : α) (f : β → β) (m : AList fun _ : α => β) : AList fun _ : α => β :=
  match m.lookup a with
  | some b => m.insert a (f b)
  | none => m

def insertAll (keys : List α) (b : β) (m : AList fun _ : α => β) : AList fun _ : α => β :=
  keys.foldl (fun m a => m.insert a b) m

def eraseAll [DecidableEq β] (keys : List α) (b : β) (m : AList fun _ : α => β) :
    AList fun _ : α => β :=
  keys.foldl (fun m a => if m.lookup a = some b then m.erase a else m) m

theorem mem_entries_iff : ⟨a, b⟩ ∈ m.entries ↔ m.lookup a = some b := (mem_lookup_iff).symm

theorem mem_values : b ∈ m.values ↔ ∃ a, m.lookup a = some b := by
  simp only [values, List.mem_map, ← mem_entries_iff]
  constructor
  · rintro ⟨⟨a, c⟩, hmem, rfl⟩
    exact ⟨a, hmem⟩
  · rintro ⟨a, hmem⟩
    exact ⟨⟨a, b⟩, hmem, rfl⟩

theorem lookup_insert_eq (m : AList fun _ : α => β) (a a' : α) (b : β) :
    (m.insert a b).lookup a' = if a' = a then some b else m.lookup a' := by
  by_cases h : a' = a
  · subst h
    simp
  · rw [if_neg h, lookup_insert_ne h]

theorem lookup_erase_eq (m : AList fun _ : α => β) (a a' : α) :
    (m.erase a).lookup a' = if a' = a then none else m.lookup a' := by
  by_cases h : a' = a
  · subst h
    simp
  · rw [if_neg h, lookup_erase_ne h]

theorem lookup_retain (p : α → β → Bool) (m : AList fun _ : α => β) (a : α) :
    (m.retain p).lookup a = (m.lookup a).filter (p a) := by
  apply Option.ext
  intro b
  rw [← mem_entries_iff, filter_eq_some_iff, ← mem_entries_iff]
  simp [retain]

variable {p : α → β → Bool}

theorem lookup_retain_eq_some :
    (m.retain p).lookup a = some b ↔ m.lookup a = some b ∧ p a b = true := by
  rw [lookup_retain, filter_eq_some_iff]

theorem mem_of_mem_retain (h : a ∈ m.retain p) : a ∈ m := by
  obtain ⟨b, hb⟩ := isSome_iff_exists.mp (lookup_isSome.mpr h)
  exact lookup_isSome.mp (isSome_iff_exists.mpr ⟨b, (lookup_retain_eq_some.mp hb).1⟩)

theorem lookup_mapValues (f : α → β → β) (m : AList fun _ : α => β) (a : α) :
    (m.mapValues f).lookup a = (m.lookup a).map (f a) := by
  apply Option.ext
  intro b
  rw [← mem_entries_iff, map_eq_some_iff]
  simp only [← mem_entries_iff, mapValues, List.mem_map]
  constructor
  · rintro ⟨⟨a', c⟩, hmem, heq⟩
    cases heq
    exact ⟨c, hmem, rfl⟩
  · rintro ⟨c, hmem, rfl⟩
    exact ⟨⟨a, c⟩, hmem, rfl⟩

theorem lookup_mapTo {γ : Type*} {f : β → γ}
    (h : m.lookup a = some b) : (m.mapTo f).lookup a = some (f b) :=
  mem_entries_iff.mp (mem_map_of_mem (mem_entries_iff.mpr h))

theorem lookup_modify (f : β → β) (m : AList fun _ : α => β) (a a' : α) :
    (m.modify a f).lookup a' = if a' = a then (m.lookup a).map f else m.lookup a' := by
  unfold modify
  cases hm : m.lookup a with
  | none =>
    by_cases h : a' = a
    · subst h
      simp [hm]
    · simp [h]
  | some b =>
    rw [lookup_insert_eq]
    rfl

theorem lookup_foldl_insert {γ : Type*} {key : γ → α} {val : γ → β} {l : List γ}
    (hone : ∀ x ∈ l, ∀ y ∈ l, key x = key y → val x = val y)
    : (l.foldl (fun m x => m.insert (key x) (val x)) m).lookup a = some b ↔
      (∃ x ∈ l, key x = a ∧ val x = b) ∨ ((∀ x ∈ l, key x ≠ a) ∧ m.lookup a = some b) := by
  induction l generalizing m with
  | nil => simp
  | cons x l ih =>
    have hrest : ∀ y ∈ l, ∀ z ∈ l, key y = key z → val y = val z := fun y hy z hz =>
      hone y (mem_cons_of_mem _ hy) z (mem_cons_of_mem _ hz)
    rw [foldl_cons, ih hrest, lookup_insert_eq]
    by_cases ha : a = key x
    · subst ha
      rw [if_pos rfl, some.injEq]
      constructor
      · rintro (⟨y, hy, hkey, hval⟩ | ⟨-, hval⟩)
        · exact .inl ⟨y, mem_cons_of_mem _ hy, hkey, hval⟩
        · exact .inl ⟨x, mem_cons_self, rfl, hval⟩
      · rintro (⟨y, hy, hkey, hval⟩ | ⟨hnone, -⟩)
        · have hx : val x = b := (hone x mem_cons_self y hy hkey.symm).trans hval
          by_cases hother : ∃ z ∈ l, key z = key x
          · obtain ⟨z, hz, hkz⟩ := hother
            have hzx := hone z (mem_cons_of_mem _ hz) x mem_cons_self hkz
            exact .inl ⟨z, hz, hkz, hzx.trans hx⟩
          · exact .inr ⟨fun z hz hkz => hother ⟨z, hz, hkz⟩, hx⟩
        · exact absurd rfl (hnone x mem_cons_self)
    · rw [if_neg ha]
      have hne : key x ≠ a := fun h => ha h.symm
      constructor
      · rintro (⟨y, hy, hkey⟩ | ⟨hnone, hm⟩)
        · exact .inl ⟨y, mem_cons_of_mem _ hy, hkey⟩
        · refine .inr ⟨?_, hm⟩
          intro y hy
          rcases mem_cons.mp hy with rfl | hy
          · exact hne
          · exact hnone y hy
      · rintro (⟨y, hy, hkey⟩ | ⟨hnone, hm⟩)
        · rcases mem_cons.mp hy with rfl | hy
          · exact absurd hkey.1 hne
          · exact .inl ⟨y, hy, hkey⟩
        · exact .inr ⟨fun y hy => hnone y (mem_cons_of_mem _ hy), hm⟩

theorem lookup_insertAll (keys : List α) (b : β) (m : AList fun _ : α => β) (a : α) :
    (m.insertAll keys b).lookup a = if a ∈ keys then some b else m.lookup a := by
  unfold insertAll
  induction keys generalizing m with
  | nil => simp
  | cons k rest ih =>
    rw [foldl_cons, ih, lookup_insert_eq]
    by_cases hr : a ∈ rest
    · simp [hr]
    · by_cases hk : a = k <;> simp [hr, hk]

section
variable {γ : Type*} {keys : γ → List α} {val : γ → β} {l : List γ} {m : AList fun _ : α => β} {a : α}
  {b : β}

theorem mem_or_lookup_of_foldl_insertAll
    (h : (l.foldl (fun m x => m.insertAll (keys x) (val x)) m).lookup a = some b) :
    (∃ x ∈ l, a ∈ keys x ∧ val x = b) ∨ m.lookup a = some b := by
  induction l generalizing m with
  | nil => exact .inr h
  | cons x rest ih =>
    rcases ih h with ⟨y, hy, hkey, hval⟩ | hm
    · exact .inl ⟨y, mem_cons_of_mem x hy, hkey, hval⟩
    · rw [lookup_insertAll] at hm
      split_ifs at hm with hkey
      · exact .inl ⟨x, mem_cons_self, hkey, some.inj hm⟩
      · exact .inr hm

theorem isSome_lookup_foldl_insertAll (h : (∃ x ∈ l, a ∈ keys x) ∨ (m.lookup a).isSome) :
    ((l.foldl (fun m x => m.insertAll (keys x) (val x)) m).lookup a).isSome := by
  induction l generalizing m with
  | nil => simpa using h
  | cons x rest ih =>
    apply ih
    by_cases hkey : a ∈ keys x
    · simp [lookup_insertAll, hkey]
    · simpa [lookup_insertAll, hkey] using h

theorem lookup_foldl_insertAll (hall : ∀ x ∈ l, a ∈ keys x → val x = b)
    (hany : (∃ x ∈ l, a ∈ keys x) ∨ m.lookup a = some b) :
    (l.foldl (fun m x => m.insertAll (keys x) (val x)) m).lookup a = some b := by
  induction l generalizing m with
  | nil =>
    rcases hany with ⟨x, hx, -⟩ | hm
    · cases hx
    · exact hm
  | cons x rest ih =>
    apply ih fun y hy => hall y (mem_cons_of_mem x hy)
    by_cases hkey : a ∈ keys x
    · right
      rw [lookup_insertAll, if_pos hkey, hall x mem_cons_self hkey]
    · rw [lookup_insertAll, if_neg hkey]
      rcases hany with ⟨y, hy, hin⟩ | hm
      · rcases mem_cons.mp hy with rfl | hrest
        · exact absurd hin hkey
        · exact .inl ⟨y, hrest, hin⟩
      · exact .inr hm

end

theorem lookup_eraseAll [DecidableEq β] (keys : List α) (b : β) (m : AList fun _ : α => β) (a : α) :
    (m.eraseAll keys b).lookup a =
      if a ∈ keys ∧ m.lookup a = some b then none else m.lookup a := by
  unfold eraseAll
  induction keys generalizing m with
  | nil => simp
  | cons k rest ih =>
    rw [foldl_cons, ih]
    by_cases hk : m.lookup k = some b
    · rw [if_pos hk, lookup_erase_eq]
      by_cases hak : a = k
      · subst hak
        simp [hk]
      · simp [hak]
    · rw [if_neg hk]
      by_cases hak : a = k
      · subst hak
        simp [hk]
      · simp [hak]

theorem lookup_eraseAll_eq_some [DecidableEq β] {keys : List α} {c : β} :
    (m.eraseAll keys b).lookup a = some c ↔ m.lookup a = some c ∧ ¬ (a ∈ keys ∧ c = b) := by
  rw [lookup_eraseAll]
  split_ifs with h
  · simp only [h.1, true_and, false_iff, not_and, not_not]
    intro hc
    exact some.inj (hc.symm.trans h.2)
  · constructor
    · intro hc
      refine ⟨hc, ?_⟩
      rintro ⟨hk, rfl⟩
      exact h ⟨hk, hc⟩
    · exact And.left

theorem lookup_foldl_erase (keys : List α) (m : AList fun _ : α => β) (a : α) :
    (keys.foldl (fun m a => m.erase a) m).lookup a = if a ∈ keys then none else m.lookup a := by
  induction keys generalizing m with
  | nil => simp
  | cons k rest ih =>
    rw [foldl_cons, ih, lookup_erase_eq]
    by_cases hr : a ∈ rest
    · simp [hr]
    · by_cases hk : a = k <;> simp [hr, hk]

theorem lookup_foldl_modify {f : β → β} (hf : ∀ b, f (f b) = f b) (keys : List α)
    (m : AList fun _ : α => β) (a : α) :
    (keys.foldl (fun m a => m.modify a f) m).lookup a =
      if a ∈ keys then (m.lookup a).map f else m.lookup a := by
  induction keys generalizing m with
  | nil => simp
  | cons k rest ih =>
    rw [foldl_cons, ih, lookup_modify]
    by_cases hk : a = k
    · subst hk
      by_cases hr : a ∈ rest <;> simp [hr, Function.comp_def, hf]
    · by_cases hr : a ∈ rest <;> simp [hr, hk]

end AList
