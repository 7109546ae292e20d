import Mathlib.Data.List.FinRange
import Mathlib.Data.List.Nodup

/-! A table of slots, some of them live, each live one with a key of its own: it stands for a
finite map. Slots are freed and taken again in any order, so live ones may lie anywhere. -/
namespace Fluxbee.SlotTable
open Vector Function

variable {α K : Type*} {n : ℕ}

def put (t : Vector α n) (i : Fin n) (e : α) : Vector α n := t.set i e i.isLt

theorem get_put (t : Vector α n) (i j : Fin n) (e : α) :
    (put t i e).get j = if j = i then e else t.get j := by
  change (put t i e)[j] = if j = i then e else t[j]
  by_cases h : j = i
  · rw [if_pos h, h]
    simp [put]
  · have hne : (i : ℕ) ≠ j := fun heq => h (Fin.ext heq.symm)
    rw [if_neg h]
    simp [put, hne]

theorem get_replicate (e : α) (i : Fin n) : (replicate n e).get i = e := getElem_replicate i.isLt

theorem get_ofFn (f : Fin n → α) (i : Fin n) : (ofFn f).get i = f i := getElem_ofFn i.isLt

variable {t : Vector α n} {used : ℕ} {p : α → Bool} {e : α}

theorem ext_get {t' : Vector α n} (h : ∀ i : Fin n, t.get i = t'.get i) : t = t' :=
  Vector.ext fun i hi => h ⟨i, hi⟩

def position (t : Vector α n) (used : ℕ) (p : α → Bool) : Option (Fin n) :=
  (List.finRange n).find? fun i => decide (i.val < used) && p (t.get i)

variable {i : Fin n}

theorem position_some (h : position t used p = some i) : i.val < used ∧ p (t.get i) = true := by
  have hp := List.find?_some h
  simpa using hp

theorem position_none (h : position t used p = none) (hi : i.val < used) : p (t.get i) = false := by
  have hp := List.find?_eq_none.mp h i (List.mem_finRange i)
  simpa [hi] using hp

section

variable {live : α → Bool} {key : α → K} {t : Vector α n} {m : K → Option α}

/-- The live entries of the table are the values of the map, each under its key and in one slot
only. -/
structure Represents (live : α → Bool) (key : α → K) (t : Vector α n) (m : K → Option α) :
    Prop where
  distinct : ∀ i j : Fin n, live (t.get i) = true → live (t.get j) = true → key (t.get i) = key (t.get j) →
    i = j
  value : ∀ k e, m k = some e ↔ key e = k ∧ live e = true ∧ ∃ i : Fin n, t.get i = e

theorem Represents.lookup (h : Represents live key t m) (hi : live (t.get i) = true) :
    m (key (t.get i)) = some (t.get i) := (h.value _ _).mpr ⟨rfl, hi, i, rfl⟩

theorem Represents.key_eq (h : Represents live key t m) {k : K} (he : m k = some e) :
    key e = k := ((h.value k e).mp he).1

theorem represents_blank (hdead : ∀ i : Fin n, live (t.get i) = false) :
    Represents live key t fun _ => none := by
  constructor
  · intro i j hi
    rw [hdead i] at hi
    cases hi
  · intro k e
    constructor
    · intro he
      cases he
    · intro ⟨_, hlive, i, hi⟩
      rw [← hi, hdead i] at hlive
      cases hlive

variable [DecidableEq K]

theorem Represents.put_live (h : Represents live key t m)
    (he : live e = true) (hslot : live (t.get i) = true → key (t.get i) = key e)
    (hfree : ∀ j : Fin n, j ≠ i → live (t.get j) = true → key (t.get j) ≠ key e) :
    Represents live key (put t i e) (update m (key e) (some e)) := by
  constructor
  · intro a b ha hb hab
    rw [get_put] at ha hb hab
    rw [get_put] at hab
    by_cases hai : a = i
    · by_cases hbi : b = i
      · rw [hai, hbi]
      · rw [if_neg hbi] at hb
        rw [if_pos hai, if_neg hbi] at hab
        exact absurd hab.symm (hfree b hbi hb)
    · rw [if_neg hai] at ha
      by_cases hbi : b = i
      · rw [if_neg hai, if_pos hbi] at hab
        exact absurd hab (hfree a hai ha)
      · rw [if_neg hbi] at hb
        rw [if_neg hai, if_neg hbi] at hab
        exact h.distinct a b ha hb hab
  · intro k v
    rw [update_apply]
    split_ifs with hk
    · constructor
      · intro hv
        have hev : e = v := Option.some.inj hv
        subst hev
        exact ⟨hk.symm, he, i, by rw [get_put, if_pos rfl]⟩
      · intro ⟨hkey, hlive, j, hj⟩
        rw [get_put] at hj
        split_ifs at hj with hji
        · rw [hj]
        · rw [← hj] at hlive hkey
          exact absurd (hkey.trans hk) (hfree j hji hlive)
    · rw [h.value]
      constructor
      · intro ⟨hkey, hlive, j, hj⟩
        have hji : j ≠ i := by
          intro hji
          rw [← hji, hj] at hslot
          exact hk (hkey.symm.trans (hslot hlive))
        exact ⟨hkey, hlive, j, by rw [get_put, if_neg hji, hj]⟩
      · intro ⟨hkey, hlive, j, hj⟩
        rw [get_put] at hj
        split_ifs at hj with hji
        · rw [← hj] at hkey
          exact absurd hkey.symm hk
        · exact ⟨hkey, hlive, j, hj⟩

theorem Represents.put_dead (h : Represents live key t m) {d : α}
    (hi : live (t.get i) = true) (hd : live d = false) :
    Represents live key (put t i d) (update m (key (t.get i)) none) := by
  have hother : ∀ j : Fin n, live ((put t i d).get j) = true → j ≠ i ∧ live (t.get j) = true := by
    intro j hj
    rw [get_put] at hj
    split_ifs at hj with hji
    · rw [hd] at hj
      cases hj
    · exact ⟨hji, hj⟩
  constructor
  · intro a b ha hb hab
    obtain ⟨hai, hla⟩ := hother a ha
    obtain ⟨hbi, hlb⟩ := hother b hb
    rw [get_put, get_put, if_neg hai, if_neg hbi] at hab
    exact h.distinct a b hla hlb hab
  · intro k v
    rw [update_apply]
    split_ifs with hk
    · constructor
      · intro hv
        cases hv
      · intro ⟨hkey, hlive, j, hj⟩
        rw [← hj] at hlive
        obtain ⟨hji, hlj⟩ := hother j hlive
        rw [get_put, if_neg hji] at hj
        rw [← hj] at hkey
        exact absurd (h.distinct j i hlj hi (hkey.trans hk)) hji
    · rw [h.value]
      constructor
      · intro ⟨hkey, hlive, j, hj⟩
        have hji : j ≠ i := by
          intro hji
          rw [← hj, hji] at hkey
          exact hk hkey.symm
        exact ⟨hkey, hlive, j, by rw [get_put, if_neg hji, hj]⟩
      · intro ⟨hkey, hlive, j, hj⟩
        rw [← hj] at hlive
        obtain ⟨hji, hlj⟩ := hother j hlive
        rw [get_put, if_neg hji] at hj
        rw [hj] at hlj
        exact ⟨hkey, hlj, j, hj⟩

end

section

variable {live : α → Bool} {key : α → K} {t : Vector α n} {m : K → Option α}

def entries (live : α → Bool) (t : Vector α n) : List α := t.toList.filter live

theorem mem_toList_iff : e ∈ t.toList ↔ ∃ i : Fin n, t.get i = e := by
  rw [List.mem_iff_getElem]
  constructor
  · intro ⟨i, hi, he⟩
    have hlt : i < n := by simpa using hi
    have hget : t[i] = e := by simpa using he
    exact ⟨⟨i, hlt⟩, hget⟩
  · intro ⟨i, he⟩
    have hget : t[i] = e := he
    exact ⟨i, by simp, by simpa using hget⟩

theorem Represents.mem_entries (h : Represents live key t m) :
    e ∈ entries live t ↔ m (key e) = some e := by
  rw [entries, List.mem_filter, mem_toList_iff, h.value]
  constructor
  · intro ⟨hi, hlive⟩
    exact ⟨rfl, hlive, hi⟩
  · intro ⟨_, hlive, hi⟩
    exact ⟨hi, hlive⟩

theorem Represents.nodup_keys (h : Represents live key t m) : ((entries live t).map key).Nodup := by
  rw [List.Nodup, List.pairwise_map, entries, List.pairwise_filter, List.pairwise_iff_getElem]
  intro i j hi hj hij hli hlj heq
  have hin : i < n := by simpa using hi
  have hjn : j < n := by simpa using hj
  simp only [getElem_toList] at hli hlj heq
  have hsame := h.distinct ⟨i, hin⟩ ⟨j, hjn⟩ hli hlj heq
  have : i = j := congrArg Fin.val hsame
  omega

end
end Fluxbee.SlotTable
