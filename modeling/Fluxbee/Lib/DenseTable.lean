import Fluxbee.Lib.SlotTable

/-! A table whose live entries are its first `used` slots, the rest blank. A removal moves the last
entry into the hole, so the entries keep no order, but they stand for a finite map all along. -/
namespace Fluxbee.DenseTable
open SlotTable Function Option Bool Fin

variable {α K : Type*} {n : ℕ}

/-- Changes the first entry that `same` holds of, or puts `e` in the next slot; `none` when there
is no next slot. The flag tells whether a slot was taken. -/
def upsert (t : Vector α n) (used : ℕ) (same : α → Bool) (merge : α → α) (e : α) :
    Option (Vector α n × Bool) :=
  match position t used same with
  | some i => some (put t i (merge (t.get i)), false)
  | none => if h : used < n then some (put t ⟨used, h⟩ e, true) else none

/-- Moves the entry of the last slot in use to the slot `i`. -/
def vacate (blank : α) (t : Vector α n) (i last : Fin n) : Vector α n :=
  put (if i = last then t else put t i (t.get last)) last blank

def remove (blank : α) (t : Vector α n) (used : ℕ) (same : α → Bool) : Option (Vector α n) :=
  match position t used same with
  | some i => if h : used - 1 < n then some (vacate blank t i ⟨used - 1, h⟩) else none
  | none => none

/-- Removes every entry that `out` holds of from the `gap` slots at `idx`, the last ones in use.
The slot a removal fills is looked at again. The second component is what is in use after. -/
def sweep (out : α → Bool) (blank : α) :
    (gap : ℕ) → (t : Vector α n) → (idx : ℕ) → idx + gap ≤ n → Vector α n × ℕ
  | 0, t, idx, _ => (t, idx)
  | gap + 1, t, idx, h =>
    if out (t.get ⟨idx, by omega⟩) then
      sweep out blank gap (vacate blank t ⟨idx, by omega⟩ ⟨idx + gap, by omega⟩) idx (by omega)
    else sweep out blank gap t (idx + 1) (by omega)

def append (t : Vector α n) (used : ℕ) : List α → Vector α n
  | [] => t
  | e :: rest => append (if h : used < n then put t ⟨used, h⟩ e else t) (used + 1) rest

def assign [DecidableEq K] (key : α → K) (m : K → Option α) (es : List α) : K → Option α :=
  es.foldl (fun m e => Function.update m (key e) (some e)) m

/-! ## What each write leaves in a slot -/

theorem get_vacate (blank : α) (t : Vector α n) (i last j : Fin n) :
    ((vacate blank t i last).get j) = if j = last then blank else if j = i then (t.get last) else (t.get j) := by
  rw [vacate, get_put]
  by_cases hj : j = last
  · rw [if_pos hj, if_pos hj]
  · rw [if_neg hj, if_neg hj]
    by_cases hi : i = last
    · have hji : j ≠ i := fun h => hj (h.trans hi)
      rw [if_pos hi, if_neg hji]
    · rw [if_neg hi, get_put]

theorem get_append (t : Vector α n) (used : ℕ) (es : List α) (j : Fin n) :
    ((append t used es).get j) =
      if used ≤ j.val then (es[j.val - used]?).getD (t.get j) else (t.get j) := by
  induction es generalizing t used with
  | nil => simp [append]
  | cons e rest ih =>
    rw [append, ih]
    by_cases hlt : used < n
    · rw [dif_pos hlt, get_put]
      rcases Nat.lt_trichotomy j.val used with hj | hj | hj
      · have hne : j ≠ ⟨used, hlt⟩ := fun h => Nat.ne_of_lt hj (congrArg val h)
        rw [if_neg hne, if_neg (by omega), if_neg (by omega)]
      · have heq : j = ⟨used, hlt⟩ := Fin.ext hj
        have hzero : j.val - used = 0 := by omega
        rw [if_pos heq, if_neg (by omega), if_pos (by omega), hzero, List.getElem?_cons_zero,
          getD_some]
      · have hne : j ≠ ⟨used, hlt⟩ := fun h => Nat.ne_of_gt hj (congrArg val h)
        have hsub : j.val - used = j.val - (used + 1) + 1 := by omega
        rw [if_neg hne, if_pos (by omega), if_pos (by omega), hsub, List.getElem?_cons_succ]
    · have hj := j.isLt
      rw [dif_neg hlt, if_neg (by omega), if_neg (by omega)]

variable {gap idx : ℕ} {t : Vector α n} {j i : Fin n} {f : α → α} {t' : Vector α n} {k : K} {e : α}

section

variable {out : α → Bool} {blank : α}

theorem get_sweep_outside (h : idx + gap ≤ n)
    (hj : j.val < idx ∨ idx + gap ≤ j.val) : (sweep out blank gap t idx h).1[j] = (t.get j) := by
  induction gap generalizing t idx with
  | zero => rfl
  | succ gap ih =>
    rw [sweep]
    split_ifs
    · have hlast : j ≠ ⟨idx + gap, by omega⟩ := fun heq => by
        have := congrArg val heq
        dsimp only at this
        omega
      have hidx : j ≠ ⟨idx, by omega⟩ := fun heq => by
        have := congrArg val heq
        dsimp only at this
        omega
      rw [ih _ (by omega), get_vacate, if_neg hlast, if_neg hidx]
    · exact ih _ (by omega)

theorem sweep_clean (hblank : out blank = false)
    (h : idx + gap ≤ n) (hlo : idx ≤ j.val) (hhi : j.val < idx + gap) :
    out (sweep out blank gap t idx h).1[j] = false := by
  induction gap generalizing t idx with
  | zero => omega
  | succ gap ih =>
    rw [sweep]
    split_ifs with hout
    · by_cases hlast : j.val = idx + gap
      · have heq : j = ⟨idx + gap, by omega⟩ := Fin.ext hlast
        rw [get_sweep_outside _ (Or.inr hlast.ge), get_vacate, if_pos heq, hblank]
      · exact ih _ hlo (by omega)
    · by_cases hfirst : j.val = idx
      · have heq : j = ⟨idx, by omega⟩ := Fin.ext hfirst
        rw [get_sweep_outside _ (Or.inl (by omega)), heq]
        exact eq_false_iff.mpr hout
      · exact ih _ (by omega) (by omega)

theorem sweep_of_clean (h : idx + gap ≤ n)
    (hclean : ∀ j : Fin n, idx ≤ j.val → j.val < idx + gap → out (t.get j) = false) :
    sweep out blank gap t idx h = (t, idx + gap) := by
  induction gap generalizing idx with
  | zero => rfl
  | succ gap ih =>
    have hfirst : out (t.get ⟨idx, by omega⟩) = false :=
      hclean ⟨idx, by omega⟩ le_rfl (Nat.lt_add_of_pos_right (Nat.succ_pos gap))
    rw [sweep, if_neg (eq_false_iff.mp hfirst), ih]
    · rw [Nat.add_assoc, Nat.add_comm 1 gap]
    · intro j hlo hhi
      exact hclean j (by omega) (by omega)

theorem sweep_eq_iff (hblank : out blank = false) (h : idx + gap ≤ n) :
    (sweep out blank gap t idx h).1 = t ↔
      ∀ j : Fin n, idx ≤ j.val → j.val < idx + gap → out (t.get j) = false := by
  constructor
  · intro hsame j hlo hhi
    have hclean := sweep_clean hblank h (t := t) hlo hhi
    rwa [hsame] at hclean
  · intro hclean
    rw [sweep_of_clean h hclean]

end

/-! ## The map of a dense table -/

structure Dense (live : α → Bool) (key : α → K) (blank : α) (t : Vector α n) (used : ℕ)
    (m : K → Option α) : Prop where
  used_le : used ≤ n
  live_of_lt : ∀ i : Fin n, i.val < used → live (t.get i) = true
  blank_of_le : ∀ i : Fin n, used ≤ i.val → (t.get i) = blank
  represents : Represents live key t m

section

variable {live : α → Bool} {key : α → K} {blank : α} {t : Vector α n} {used : ℕ}
  {m : K → Option α}

theorem dense_blank (hblank : live blank = false) (h : ∀ i : Fin n, (t.get i) = blank) :
    Dense live key blank t 0 fun _ => none := by
  constructor
  · exact Nat.zero_le n
  · intro i hi
    omega
  · intro i _
    exact h i
  · apply represents_blank
    intro i
    rw [h i, hblank]

section
variable (h : Dense live key blank t used m) (hblank : live blank = false)
include h hblank

theorem Dense.lt_of_live (hi : live (t.get i) = true) : i.val < used := by
  by_contra hge
  rw [h.blank_of_le i (Nat.le_of_not_lt hge), hblank] at hi
  cases hi

theorem Dense.map (hlive : ∀ e, live e = true → live (f e) = true) (hkey : ∀ e, key (f e) = key e)
    (ht : ∀ i : Fin n, (t'.get i) = if i.val < used then f (t.get i) else (t.get i)) :
    Dense live key blank t' used fun k => (m k).map f := by
  have hslot : ∀ i : Fin n, live (t'.get i) = true → live (t.get i) = true ∧ (t'.get i) = f (t.get i) := by
    intro i hi
    rw [ht] at hi ⊢
    by_cases hlt : i.val < used
    · rw [if_pos hlt]
      exact ⟨h.live_of_lt i hlt, rfl⟩
    · rw [if_neg hlt] at hi
      exact absurd (h.lt_of_live hblank hi) hlt
  constructor
  · exact h.used_le
  · intro i hi
    rw [ht, if_pos hi]
    exact hlive _ (h.live_of_lt i hi)
  · intro i hi
    rw [ht, if_neg (Nat.not_lt.mpr hi)]
    exact h.blank_of_le i hi
  · constructor
    · intro i j hi hj hij
      obtain ⟨hli, hfi⟩ := hslot i hi
      obtain ⟨hlj, hfj⟩ := hslot j hj
      rw [hfi, hfj, hkey, hkey] at hij
      exact h.represents.distinct i j hli hlj hij
    · intro k e
      rw [map_eq_some_iff]
      constructor
      · intro ⟨o, ho, hfo⟩
        obtain ⟨hk, hlo, i, hi⟩ := (h.represents.value k o).mp ho
        have hlt := h.lt_of_live hblank (hi ▸ hlo)
        rw [← hfo]
        exact ⟨(hkey o).trans hk, hlive o hlo, i, by rw [ht, if_pos hlt, hi]⟩
      · intro ⟨hk, hle, i, hi⟩
        rw [← hi] at hle
        obtain ⟨hlo, hfi⟩ := hslot i hle
        have hkey' : key (t.get i) = k := by
          rw [← hkey, ← hfi, hi, hk]
        exact ⟨(t.get i), hkey' ▸ h.represents.lookup hlo, hfi.symm.trans hi⟩

end

variable [DecidableEq K]

theorem map_assign (hkey : ∀ e, key (f e) = key e) (m : K → Option α) (es : List α)
    (k : K) : (assign key m es k).map f = assign key (fun k => (m k).map f) (es.map f) k := by
  unfold assign
  induction es generalizing m with
  | nil => rfl
  | cons e rest ih =>
    have hwrite : (fun k => (update m (key e) (some e) k).map f) =
        update (fun k => (m k).map f) (key (f e)) (some (f e)) := by
      funext k
      rw [update_apply, update_apply, hkey, apply_ite (Option.map f), map_some]
    rw [List.foldl_cons, List.map_cons, List.foldl_cons, ih, hwrite]

section
variable (h : Dense live key blank t used m)
include h

theorem Dense.position_some
    (hp : position t used (fun e => live e && decide (key e = k)) = some i) :
    i.val < used ∧ key (t.get i) = k ∧ m k = some (t.get i) := by
  obtain ⟨hi, hsame⟩ := SlotTable.position_some hp
  rw [and_eq_true, decide_eq_true_iff] at hsame
  have hm := h.represents.lookup hsame.1
  rw [hsame.2] at hm
  exact ⟨hi, hsame.2, hm⟩

theorem Dense.position_none (hblank : live blank = false)
    (hp : position t used (fun e => live e && decide (key e = k)) = none) : m k = none := by
  cases hm : m k with
  | none => rfl
  | some e =>
    obtain ⟨hk, hlive, i, hi⟩ := (h.represents.value k e).mp hm
    have hlt : i.val < used := h.lt_of_live hblank (hi ▸ hlive)
    have hfalse := SlotTable.position_none hp hlt
    rw [hi, hlive, Bool.true_and, decide_eq_false_iff_not] at hfalse
    exact absurd hk hfalse

theorem Dense.overwrite (hi : i.val < used) (he : live e = true) (hkey : key e = key (t.get i)) :
    Dense live key blank (put t i e) used (update m (key e) (some e)) := by
  have hlive := h.live_of_lt i hi
  constructor
  · exact h.used_le
  · intro j hj
    rw [get_put]
    split_ifs
    · exact he
    · exact h.live_of_lt j hj
  · intro j hj
    have hne : j ≠ i := by
      intro heq
      rw [heq] at hj
      omega
    rw [get_put, if_neg hne]
    exact h.blank_of_le j hj
  · apply h.represents.put_live he
    · intro _
      exact hkey.symm
    · intro j hj hlj heq
      exact hj (h.represents.distinct j i hlj hlive (heq.trans hkey))

section
variable (hblank : live blank = false)
include hblank

theorem Dense.push (hroom : used < n) (he : live e = true) (hnew : m (key e) = none) :
    Dense live key blank (put t ⟨used, hroom⟩ e) (used + 1) (update m (key e) (some e)) := by
  constructor
  · exact hroom
  · intro j hj
    rw [get_put]
    split_ifs with heq
    · exact he
    · have hne : j.val ≠ used := fun hval => heq (Fin.ext hval)
      exact h.live_of_lt j (by omega)
  · intro j hj
    have hne : j ≠ ⟨used, hroom⟩ := by
      intro heq
      rw [heq] at hj
      dsimp only at hj
      omega
    rw [get_put, if_neg hne]
    exact h.blank_of_le j (by omega)
  · apply h.represents.put_live he
    · intro hlive
      have hlt := h.lt_of_live hblank hlive
      dsimp only at hlt
      omega
    · intro j _ hlj heq
      have hm := h.represents.lookup hlj
      rw [heq, hnew] at hm
      cases hm

theorem Dense.vacate (i last : Fin n) (hlast : last.val + 1 = used) (hi : i.val < used) :
    Dense live key blank (vacate blank t i last) last.val (update m (key (t.get i)) none) := by
  have hlive := h.live_of_lt i hi
  have hlivelast := h.live_of_lt last (by omega)
  constructor
  · omega
  · intro j hj
    have hne : j ≠ last := fun heq => Nat.ne_of_lt hj (congrArg val heq)
    rw [get_vacate, if_neg hne]
    split_ifs
    · exact hlivelast
    · exact h.live_of_lt j (by omega)
  · intro j hj
    rw [get_vacate]
    by_cases heq : j = last
    · rw [if_pos heq]
    · have hval : j.val ≠ last.val := fun hv => heq (Fin.ext hv)
      have hne : j ≠ i := by
        intro hji
        rw [hji] at hj hval
        omega
      rw [if_neg heq, if_neg hne]
      exact h.blank_of_le j (by omega)
  -- The slot dies, and unless it was the last, the last dies too and its entry is written to it.
  have hdead := h.represents.put_dead hlive hblank
  by_cases heq : i = last
  · rw [DenseTable.vacate, if_pos heq, ← heq]
    exact hdead
  · have hget : ((put t i blank).get last) = (t.get last) := by
      rw [get_put, if_neg fun hli => heq hli.symm]
    have hkeys : key (t.get last) ≠ key (t.get i) := by
      intro hk
      exact heq (h.represents.distinct i last hlive hlivelast hk.symm)
    have hdead' := hdead.put_dead (i := last) (d := blank) (hget ▸ hlivelast) hblank
    rw [hget] at hdead'
    have hfree : ∀ j : Fin n, j ≠ i → live ((put (put t i blank) last blank).get j) = true →
        key ((put (put t i blank) last blank).get j) ≠ key (t.get last) := by
      intro j hji hlj
      rw [get_put, get_put, if_neg hji] at hlj ⊢
      by_cases hjl : j = last
      · rw [if_pos hjl, hblank] at hlj
        cases hlj
      · rw [if_neg hjl] at hlj ⊢
        intro hk
        exact hjl (h.represents.distinct j last hlj hlivelast hk)
    have hslot : live ((put (put t i blank) last blank).get i) = true →
        key ((put (put t i blank) last blank).get i) = key (t.get last) := by
      intro hli
      rw [get_put, if_neg heq, get_put, if_pos rfl, hblank] at hli
      cases hli
    have hmoved := hdead'.put_live hlivelast hslot hfree
    have htable : put (put (put t i blank) last blank) i (t.get last) =
        DenseTable.vacate blank t i last := by
      apply ext_get
      intro j
      rw [get_vacate, get_put, get_put, get_put]
      by_cases hji : j = i
      · rw [if_pos hji, if_pos hji, if_neg (hji ▸ heq)]
      · rw [if_neg hji, if_neg hji, if_neg hji]
    have hmap : update (update (update m (key (t.get i)) none)
          (key (t.get last)) none) (key (t.get last)) (some (t.get last)) =
        update m (key (t.get i)) none := by
      rw [update_idem, update_eq_self_iff, update_of_ne hkeys, h.represents.lookup hlivelast]
    rw [htable, hmap] at hmoved
    exact hmoved

theorem Dense.upsert {merge : α → α} {fresh : Bool}
    (hup : upsert t used (fun o => live o && decide (key o = key e)) merge e = some (t', fresh))
    (he : live e = true) (hlive : ∀ o, live o = true → live (merge o) = true)
    (hkey : ∀ o, key o = key e → key (merge o) = key e) :
    Dense live key blank t' (if fresh then used + 1 else used)
      (update m (key e) (some ((m (key e)).elim e merge))) := by
  unfold DenseTable.upsert at hup
  cases hp : position t used (fun o => live o && decide (key o = key e)) with
  | some i =>
    rw [hp] at hup
    cases hup
    obtain ⟨hi, hk, hm⟩ := h.position_some hp
    have hput := h.overwrite hi (hlive _ (h.live_of_lt i hi)) ((hkey _ hk).trans hk.symm)
    rw [hkey _ hk] at hput
    rw [hm]
    exact hput
  | none =>
    rw [hp] at hup
    have hm := h.position_none hblank hp
    by_cases hroom : used < n
    · rw [dif_pos hroom] at hup
      cases hup
      rw [hm]
      exact h.push hblank hroom he hm
    · rw [dif_neg hroom] at hup
      cases hup

theorem Dense.remove (hrem : remove blank t used (fun o => live o && decide (key o = k)) = some t')
    : 0 < used ∧ Dense live key blank t' (used - 1) (update m k none) := by
  unfold DenseTable.remove at hrem
  cases hp : position t used (fun o => live o && decide (key o = k)) with
  | none =>
    rw [hp] at hrem
    cases hrem
  | some i =>
    rw [hp] at hrem
    obtain ⟨hi, hk, -⟩ := h.position_some hp
    have hpos : 0 < used := Nat.lt_of_le_of_lt (Nat.zero_le _) hi
    have hlast : used - 1 < n := by
      have := h.used_le
      omega
    dsimp only at hrem
    rw [dif_pos hlast] at hrem
    cases hrem
    have hvac := h.vacate hblank i ⟨used - 1, hlast⟩ (by dsimp only; omega) hi
    rw [hk] at hvac
    exact ⟨hpos, hvac⟩

theorem Dense.remove_none
    (hrem : DenseTable.remove blank t used (fun o => live o && decide (key o = k)) = none) :
    m k = none := by
  unfold DenseTable.remove at hrem
  cases hp : position t used (fun o => live o && decide (key o = k)) with
  | none => exact h.position_none hblank hp
  | some i =>
    rw [hp] at hrem
    have hi := (h.position_some hp).1
    have hlast : used - 1 < n := by
      have := h.used_le
      omega
    dsimp only at hrem
    rw [dif_pos hlast] at hrem
    cases hrem

end

end

theorem Dense.sweep (out : α → Bool) (hblank : live blank = false)
    (hle : idx + gap ≤ n) (h : Dense live key blank t (idx + gap) m)
    (hclean : ∀ j : Fin n, j.val < idx → out (t.get j) = false) :
    Dense live key blank (sweep out blank gap t idx hle).1 (sweep out blank gap t idx hle).2
      fun k => (m k).filter fun e => !out e := by
  induction gap generalizing t idx m with
  | zero =>
    have hsame : (fun k => (m k).filter fun e => !out e) = m := by
      funext k
      cases hm : m k with
      | none => rfl
      | some e =>
        obtain ⟨-, hlive, i, hi⟩ := (h.represents.value k e).mp hm
        have hout := hclean i (h.lt_of_live hblank (hi ▸ hlive))
        rw [hi] at hout
        rw [filter_some, hout]
        rfl
    rw [hsame]
    exact h
  | succ gap ih =>
    rw [DenseTable.sweep]
    split_ifs with hout
    · have hidx : idx < n := by omega
      have hlast : idx + gap < n := by omega
      have hvac := h.vacate hblank ⟨idx, hidx⟩ ⟨idx + gap, hlast⟩ rfl (by dsimp only; omega)
      have hclean' : ∀ j : Fin n, j.val < idx →
          out ((DenseTable.vacate blank t ⟨idx, hidx⟩ ⟨idx + gap, hlast⟩).get j) = false := by
        intro j hj
        have hjl : j ≠ ⟨idx + gap, hlast⟩ := fun heq => by
          have := congrArg val heq
          dsimp only at this
          omega
        have hji : j ≠ ⟨idx, hidx⟩ := fun heq => Nat.ne_of_lt hj (congrArg val heq)
        rw [get_vacate, if_neg hjl, if_neg hji]
        exact hclean j hj
      have hrest := ih (by omega) hvac hclean'
      -- The entry that went was one to remove, so the filter had dropped it already.
      have hmap : (fun k => (update m (key (t.get ⟨idx, hidx⟩)) none k).filter
          fun e => !out e) = fun k => (m k).filter fun e => !out e := by
        funext k
        rw [update_apply]
        split_ifs with hk
        · have hm := h.represents.lookup (h.live_of_lt ⟨idx, hidx⟩ (by dsimp only; omega))
          have hout' : out (t.get ⟨idx, hidx⟩) = true := hout
          rw [hk, hm, filter_some, hout', filter_none]
          rfl
        · rfl
      rw [hmap] at hrest
      exact hrest
    · have hnext : Dense live key blank t (idx + 1 + gap) m := by
        rw [Nat.add_assoc, Nat.add_comm 1 gap]
        exact h
      apply ih (by omega) hnext
      intro j hj
      by_cases hval : j.val = idx
      · have heq : j = ⟨idx, by omega⟩ := Fin.ext hval
        rw [heq]
        exact eq_false_iff.mpr hout
      · exact hclean j (by omega)

theorem Dense.append (h : Dense live key blank t used m) (hblank : live blank = false)
    (es : List α) (hroom : used + es.length ≤ n) (hlive : ∀ e ∈ es, live e = true)
    (hkeys : (es.map key).Nodup) (hnew : ∀ e ∈ es, m (key e) = none) :
    Dense live key blank (append t used es) (used + es.length) (assign key m es) := by
  induction es generalizing t used m with
  | nil => exact h
  | cons e rest ih =>
    rw [List.length_cons] at hroom ⊢
    rw [List.map_cons, List.nodup_cons] at hkeys
    have hlt : used < n := by omega
    have hpush := h.push hblank hlt (hlive e List.mem_cons_self) (hnew e List.mem_cons_self)
    have hrest : ∀ e' ∈ rest, update m (key e) (some e) (key e') = none := by
      intro e' he'
      have hne : key e' ≠ key e := by
        intro heq
        exact hkeys.1 (heq ▸ List.mem_map_of_mem he')
      rw [update_of_ne hne]
      exact hnew e' (List.mem_cons_of_mem e he')
    have hall := ih hpush (by omega) (fun e' he' => hlive e' (List.mem_cons_of_mem e he')) hkeys.2
      hrest
    rw [DenseTable.append, dif_pos hlt, Nat.add_comm rest.length 1, ← Nat.add_assoc]
    exact hall

theorem dense_append_blank (hblank : live blank = false) {es : List α} (hroom : es.length ≤ n)
    (hlive : ∀ e ∈ es, live e = true) (hkeys : (es.map key).Nodup) :
    Dense live key blank (append (Vector.replicate n blank) 0 es) es.length
      (assign key (fun _ => none) es) := by
  have hempty : Dense live key blank (Vector.replicate n blank) 0 fun _ => none := by
    exact dense_blank hblank (get_replicate blank)
  have hall := hempty.append hblank es (by omega) hlive hkeys fun _ _ => rfl
  rw [Nat.zero_add] at hall
  exact hall

end
end Fluxbee.DenseTable
