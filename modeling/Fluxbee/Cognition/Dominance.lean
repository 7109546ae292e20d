import Fluxbee.Lib.AssocMap
import Mathlib.Algebra.Order.Ring.Unbundled.Rat
import Mathlib.Data.List.Sort
import Mathlib.Data.Prod.Lex
import Mathlib.Data.String.Basic

/-! Which context and reason of a communication dominate: as its package ranks them, and as the
binding of its scope selects them. A map's values stand in the order it is walked in. -/
namespace Fluxbee.Cognition
open List

/-- A context or a reason. Its weight is of any linear order, as `total_cmp` makes one of `f64`. -/
structure Item (W : Type) where
  (id label : String)
  weight : W
  deriving DecidableEq

structure MemoryState (W : Type) where
  memoryId : String
  weight : W
  deriving DecidableEq

structure FeelingState (W : Type) where
  feelingId : String
  weight : W
  lastFeltAt : String

structure Derived (W : Type) where
  (contexts reasons : List (Item W))
  memories : List (MemoryState W)
  feelings : List (FeelingState W)

/-- What a turn does to a weight: `weight × decay + score`, or `weight × decay`. -/
structure Decay (W : Type) where
  zero : W
  bump : W → W → W
  fade : W → W
  closeThreshold : W

structure Package (W : Type) where
  (dominantContext dominantReason : Option (Item W))
  (contexts reasons : List (Item W))
  memories : List (MemoryState W)
  feelings : List (FeelingState W)
  dropped : List ℕ

section
variable {W : Type} [LinearOrder W]

/-- `update_contexts_for_thread` and `update_reasons_for_thread`, from the labels and scores of the
turn's candidates. -/
def updateItems (decay : Decay W) (entityId : String → String) (candidates : List (String × W))
    (items : AList fun _ : String => Item W) : AList fun _ : String => Item W :=
  let matched := candidates.foldl (fun items c =>
    let item := (items.lookup c.1).getD ⟨entityId c.1, c.1, decay.zero⟩
    items.insert c.1 { item with weight := decay.bump item.weight c.2 }) items
  let faded := matched.mapValues fun label item =>
    if label ∈ candidates.map Prod.fst then item else { item with weight := decay.fade item.weight }
  faded.retain fun label item =>
    label ∈ candidates.map Prod.fst || decide (decay.closeThreshold ≤ item.weight)

def dominance (incumbent : Option String) (item : Item W) : W ×ₗ Bool ×ₗ Stringᵒᵈ :=
  toLex (item.weight, toLex (decide (some item.id = incumbent), .toDual item.label))

/-- `max_by`: of equal ones the last. -/
def selectDominant (incumbent : Option String) (items : List (Item W)) : Option (Item W) :=
  items.foldl (fun best item => some <| best.elim item fun best =>
    if dominance incumbent item < dominance incumbent best then best else item) none

def sortByKey {α K : Type} [LinearOrder K] (key : α → K) (l : List α) : List α :=
  l.insertionSort fun a b => key a ≤ key b

def heaviestFirst {α : Type} (weight : α → W) (l : List α) : List α :=
  sortByKey (fun a => OrderDual.toDual (weight a)) l

def feelingRank (f : FeelingState W) : Wᵒᵈ ×ₗ Stringᵒᵈ ×ₗ String :=
  toLex (.toDual f.weight, toLex (.toDual f.lastFeltAt, f.feelingId))

def maxItems : ℕ := 6

def cognitionPackageMaxFeelings : ℕ := 12

def buildMemoryPackage (d : Derived W) : Package W where
  dominantContext := (heaviestFirst Item.weight d.contexts).head?
  dominantReason := (heaviestFirst Item.weight d.reasons).head?
  contexts := (heaviestFirst Item.weight d.contexts).take maxItems
  reasons := (heaviestFirst Item.weight d.reasons).take maxItems
  memories := (heaviestFirst MemoryState.weight d.memories).take maxItems
  feelings := (sortByKey feelingRank d.feelings).take cognitionPackageMaxFeelings
  dropped := [d.contexts.length - maxItems, d.reasons.length - maxItems,
    d.memories.length - maxItems, d.feelings.length - cognitionPackageMaxFeelings]

end

section
variable {W : Type} [LinearOrder W] {α K : Type} [LinearOrder K] {key : α → K}

/-- No two have the same key. -/
def Untied (key : α → K) (l : List α) : Prop := ∀ a ∈ l, ∀ b ∈ l, key a = key b → a = b

/-- The same maps walked in another order. -/
structure Derived.Reorders (d e : Derived W) : Prop where
  contexts : d.contexts.Perm e.contexts
  reasons : d.reasons.Perm e.reasons
  memories : d.memories.Perm e.memories
  feelings : d.feelings.Perm e.feelings

/-- No two that fewer than `maxItems` outweigh have the same weight. -/
def UntiedAtTop (weight : α → W) (l : List α) : Prop :=
  ∀ a ∈ l, ∀ b ∈ l, weight a = weight b → l.countP (fun c => weight a < weight c) < maxItems → a = b

structure Derived.UntiedAtTop (d : Derived W) : Prop where
  contexts : Cognition.UntiedAtTop Item.weight d.contexts
  reasons : Cognition.UntiedAtTop Item.weight d.reasons
  memories : Cognition.UntiedAtTop MemoryState.weight d.memories

variable {l l' : List α} {items : List (Item W)} {incumbent : Option String}

theorem sortByKey_sorted : (sortByKey key l).Pairwise fun a b => key a ≤ key b :=
  haveI : Std.Total fun a b => key a ≤ key b := ⟨fun a b => le_total (key a) (key b)⟩
  haveI : IsTrans α fun a b => key a ≤ key b := ⟨fun _ _ _ => le_trans⟩
  pairwise_insertionSort _ _

theorem sortByKey_perm (key : α → K) (l : List α) : (sortByKey key l).Perm l :=
  perm_insertionSort ..

theorem sortByKey_eq (h : l.Perm l') (huntied : Untied key l) :
    sortByKey key l = sortByKey key l' := by
  have hperm := (sortByKey_perm key l).trans (h.trans (sortByKey_perm key l').symm)
  refine hperm.eq_of_pairwise (fun a b ha hb hab hba => ?_) sortByKey_sorted sortByKey_sorted
  exact huntied a ((sortByKey_perm ..).mem_iff.mp ha) b
    (h.mem_iff.mpr ((sortByKey_perm ..).mem_iff.mp hb)) (le_antisymm hab hba)

theorem heaviestFirst_sorted (weight : α → W) (l : List α) :
    (heaviestFirst weight l).Pairwise fun a b => weight b ≤ weight a :=
  sortByKey_sorted (K := Wᵒᵈ)

/-- Those that fill the first places weigh the same in every walk, and fewer than `maxItems` outweigh
each of them. -/
theorem take_heaviestFirst_eq {weight : α → W} (h : l.Perm l') (huntied : UntiedAtTop weight l) :
    (heaviestFirst weight l).take maxItems = (heaviestFirst weight l').take maxItems := by
  have hperm : (heaviestFirst weight l).Perm l := sortByKey_perm ..
  have hperm' : (heaviestFirst weight l').Perm l' := sortByKey_perm ..
  have hsorted := heaviestFirst_sorted weight l
  have hsorted' := heaviestFirst_sorted weight l'
  generalize heaviestFirst weight l = s at *
  generalize heaviestFirst weight l' = s' at *
  have hweights : s.map weight = s'.map weight := by
    refine ((hperm.trans (h.trans hperm'.symm)).map weight).eq_of_pairwise
      (fun a b _ _ hab hba => le_antisymm hba hab) ?_ ?_ <;> rwa [pairwise_map]
  refine ext_getElem (by simp [(hperm.trans (h.trans hperm'.symm)).length_eq]) fun i hi hi' => ?_
  simp only [length_take, lt_min_iff] at hi hi'
  rw [getElem_take, getElem_take]
  have hsame : weight s[i] = weight s'[i] := by
    have heq := congrArg (fun w : List W => w[i]?) hweights
    simpa [hi.2, hi'.2] using heq
  refine huntied _ (hperm.mem_iff.mp (getElem_mem _)) _
    (h.mem_iff.mpr (hperm'.mem_iff.mp (getElem_mem _))) hsame ?_
  -- what outweighs the one in place `i` stands before it
  have hdrop : (s.drop i).countP (fun c => weight s[i] < weight c) = 0 := by
    have hlater := hsorted.drop (i := i)
    rw [drop_eq_getElem_cons hi.2] at hlater ⊢
    rw [countP_cons_of_neg (by simp), countP_eq_zero]
    exact fun c hc => by simpa using rel_of_pairwise_cons hlater hc
  calc l.countP (fun c => weight s[i] < weight c)
      = (s.take i ++ s.drop i).countP (fun c => weight s[i] < weight c) := by
        rw [take_append_drop, hperm.countP_eq]
    _ ≤ (s.take i).length := by rw [countP_append, hdrop]; exact countP_le_length
    _ < maxItems := by rw [length_take]; omega

/-- Walked first, an item is the first of its weight. -/
theorem find_heaviestFirst {weight : α → W} {a : α} {rest : List α}
    (hfew : (a :: rest).countP (fun c => weight a < weight c) < maxItems) :
    ((heaviestFirst weight (a :: rest)).take maxItems).find? (fun c => weight c ≤ weight a) =
      some a := by
  have hsort : heaviestFirst weight (a :: rest) =
      (heaviestFirst weight rest).takeWhile (fun c => weight a < weight c) ++
        a :: (heaviestFirst weight rest).dropWhile (fun c => weight a < weight c) := by
    unfold heaviestFirst sortByKey
    rw [insertionSort_cons, orderedInsert_eq_take_drop]
    simp
  generalize hs : heaviestFirst weight rest = s at hsort
  have hall : ∀ c ∈ s.takeWhile (fun c => weight a < weight c), weight a < weight c := by
    simpa using all_eq_true.mp (@all_takeWhile _ (fun c => decide (weight a < weight c)) s)
  have hheavier : (s.takeWhile fun c => weight a < weight c).length < maxItems := by
    have hperm : s.Perm rest := hs ▸ sortByKey_perm ..
    rw [countP_cons_of_neg (by simp), ← hperm.countP_eq] at hfew
    refine lt_of_le_of_lt ?_ hfew
    rw [← countP_eq_length.mpr fun c hc => decide_eq_true (hall c hc)]
    exact (takeWhile_sublist _).countP_le
  obtain ⟨n, hn⟩ := Nat.exists_eq_add_of_lt hheavier
  rw [hsort, take_append, find?_append, find?_eq_none.mpr, Option.none_or, hn]
  · simp [Nat.add_assoc]
  · exact fun c hc => by simpa using hall c (mem_of_mem_take hc)

theorem untiedAtTop_of_same [DecidableEq α] {weight : α → W}
    (h : ∀ l', l.Perm l' → (heaviestFirst weight l).take maxItems =
      (heaviestFirst weight l').take maxItems) : UntiedAtTop weight l := by
  intro a ha b hb hab hfew
  have hfirst {c : α} (hc : c ∈ l) (hw : weight c = weight a) :
      ((heaviestFirst weight l).take maxItems).find? (fun x => weight x ≤ weight a) = some c := by
    have hperm := perm_cons_erase hc
    rw [h _ hperm, ← hw]
    refine find_heaviestFirst ?_
    rwa [← hperm.countP_eq, hw]
  exact Option.some.inj ((hfirst ha rfl).symm.trans (hfirst hb hab.symm))

theorem foldl_select (incumbent : Option String) (items : List (Item W)) (best : Item W) :
    ∃ m ∈ best :: items, items.foldl (fun best item => some <| best.elim item fun best =>
        if dominance incumbent item < dominance incumbent best then best else item) (some best) =
      some m ∧ ∀ item ∈ best :: items, dominance incumbent item ≤ dominance incumbent m := by
  induction items generalizing best with
  | nil => exact ⟨best, mem_cons_self, rfl, by simp⟩
  | cons item rest ih =>
    rw [foldl_cons, Option.elim_some]
    split_ifs with hlt
    · obtain ⟨m, hm, heq, hmax⟩ := ih best
      refine ⟨m, by grind, heq, ?_⟩
      simp only [mem_cons, forall_eq_or_imp] at hmax ⊢
      exact ⟨hmax.1, hlt.le.trans hmax.1, hmax.2⟩
    · obtain ⟨m, hm, heq, hmax⟩ := ih item
      refine ⟨m, by grind, heq, ?_⟩
      simp only [mem_cons, forall_eq_or_imp] at hmax ⊢
      exact ⟨(le_of_not_gt hlt).trans hmax.1, hmax⟩

theorem selectDominant_eq_head (huntied : UntiedAtTop Item.weight items) :
    selectDominant incumbent items = (heaviestFirst Item.weight items).head? := by
  cases items with
  | nil => rfl
  | cons first rest =>
    obtain ⟨m, hm, heq, hmax⟩ := foldl_select incumbent rest first
    have hperm : (heaviestFirst Item.weight (first :: rest)).Perm _ := sortByKey_perm ..
    have hsorted := heaviestFirst_sorted Item.weight (first :: rest)
    cases hsort : heaviestFirst Item.weight (first :: rest) with
    | nil =>
      rw [hsort] at hperm
      cases hperm.nil_eq
    | cons top others =>
      rw [hsort] at hperm hsorted
      have htop : top ∈ first :: rest := hperm.mem_iff.mp mem_cons_self
      have hle : m.weight ≤ top.weight := by
        rcases mem_cons.mp (hperm.mem_iff.mpr hm) with rfl | hmem
        · exact le_rfl
        · exact rel_of_pairwise_cons hsorted hmem
      have hge : top.weight ≤ m.weight := Prod.Lex.monotone_fst _ _ (hmax top htop)
      have hfew : (first :: rest).countP (fun c => top.weight < c.weight) < maxItems := by
        rw [← hperm.countP_eq, countP_eq_zero.mpr]
        · decide
        · simpa using fun c hc => rel_of_pairwise_cons hsorted hc
      rw [head?_cons, huntied top htop m hm (le_antisymm hge hle) hfew]
      exact heq

/-- Every walk of the maps makes the same package, whose pair is the one that the scope's binding
selects, exactly if no two of a kind that compete for its places weigh the same. -/
theorem package_same_iff_untied {d : Derived W}
    (hfeelings : Untied FeelingState.feelingId d.feelings) :
    (∀ e, d.Reorders e → ∀ context reason : Option String,
      buildMemoryPackage d = buildMemoryPackage e ∧
        (buildMemoryPackage d).dominantContext = selectDominant context d.contexts ∧
        (buildMemoryPackage d).dominantReason = selectDominant reason d.reasons) ↔
      d.UntiedAtTop := by
  constructor
  · intro h
    refine ⟨untiedAtTop_of_same fun l' hl' => ?_, untiedAtTop_of_same fun l' hl' => ?_,
      untiedAtTop_of_same fun l' hl' => ?_⟩
    · exact congrArg Package.contexts
        (h { d with contexts := l' } ⟨hl', .refl _, .refl _, .refl _⟩ none none).1
    · exact congrArg Package.reasons
        (h { d with reasons := l' } ⟨.refl _, hl', .refl _, .refl _⟩ none none).1
    · exact congrArg Package.memories
        (h { d with memories := l' } ⟨.refl _, .refl _, hl', .refl _⟩ none none).1
  · intro huntied e h context reason
    refine ⟨?_, (selectDominant_eq_head huntied.contexts).symm,
      (selectDominant_eq_head huntied.reasons).symm⟩
    have hrank : Untied feelingRank d.feelings := by
      intro a ha b hb heq
      exact hfeelings a ha b hb (congrArg (fun r => (ofLex (ofLex r).2).2) heq)
    have hcontexts := take_heaviestFirst_eq h.contexts huntied.contexts
    have hreasons := take_heaviestFirst_eq h.reasons huntied.reasons
    have hhead (l : List (Item W)) : l.head? = (l.take maxItems).head? := by
      cases l <;> rfl
    unfold buildMemoryPackage
    rw [hhead, hhead (heaviestFirst _ d.reasons), hcontexts, hreasons,
      take_heaviestFirst_eq h.memories huntied.memories, sortByKey_eq h.feelings hrank,
      h.contexts.length_eq, h.reasons.length_eq, h.memories.length_eq, h.feelings.length_eq,
      ← hhead, ← hhead]

end

namespace FirstTurn

def contextDecay : Decay ℚ :=
  ⟨0, fun weight score => weight * (17 / 20) + score, (· * (17 / 20)), 1 / 4⟩

def contexts (scores : List (String × ℚ)) : List (Item ℚ) :=
  (updateItems contextDecay id scores ∅).values

end FirstTurn

/-- Two of eight contexts weigh the same and are cut in every walk. -/
theorem package_same_eight :
    let d : Derived ℚ := ⟨FirstTurn.contexts [("a", 8), ("b", 7), ("c", 6), ("d", 5), ("e", 4),
      ("f", 3), ("g", 1), ("h", 1)], [], [], []⟩
    let e : Derived ℚ := { d with contexts := d.contexts.reverse }
    d.contexts.length = 8 ∧ buildMemoryPackage d = buildMemoryPackage e := by
  intro d e
  have hreorders : d.Reorders e := ⟨(reverse_perm _).symm, .nil, .nil, .nil⟩
  have huntied : d.UntiedAtTop := ⟨by unfold UntiedAtTop; decide +kernel, nofun, nofun⟩
  exact ⟨by decide +kernel, ((package_same_iff_untied (by simp [Untied, d])).mpr huntied e hreorders none none).1⟩

/-- Two contexts that a first turn opens alike: the package names the one the walk comes to first. -/
theorem tied_package_follows_walk :
    let d : Derived ℚ := ⟨FirstTurn.contexts [("billing", 1), ("travel", 1)], [], [], []⟩
    let e : Derived ℚ := { d with contexts := d.contexts.reverse }
    d.Reorders e ∧ selectDominant none d.contexts = selectDominant none e.contexts ∧
      (buildMemoryPackage d).dominantContext ≠ (buildMemoryPackage e).dominantContext := by
  intro d e
  exact ⟨⟨(reverse_perm _).symm, .nil, .nil, .nil⟩, by decide +kernel, by decide +kernel⟩

end Fluxbee.Cognition
