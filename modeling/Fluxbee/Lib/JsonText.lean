import Fluxbee.Lib.Json
import Fluxbee.Lib.JsonNumber
import Fluxbee.Lib.JsonString
import Mathlib.Data.String.Basic

/-! JSON texts: what a writer makes of a value, what a reader with a limit on nesting takes back, and
that the reader gives back what was written exactly when the value is not nested past the limit. -/
namespace Fluxbee.Json
open List

section
variable {V : Type} {key : String} {v : V} {before : List (String × V)}

def Sorted (fields : List (String × V)) : Prop := (fields.map Prod.fst).Pairwise (· < ·)

theorem mem_setField {field : String × V} (h : field ∈ setField key v before) :
    field = (key, v) ∨ field ∈ before := by
  induction before with
  | nil => exact .inl (by simpa [setField] using h)
  | cons other before ih =>
    obtain ⟨k, w⟩ := other
    rw [setField] at h
    split_ifs at h with heq hlt
    · rcases mem_cons.mp h with rfl | h
      · exact .inl (by rw [heq])
      · exact .inr (mem_cons_of_mem _ h)
    · rcases mem_cons.mp h with rfl | h
      · exact .inl rfl
      · exact .inr h
    · rcases mem_cons.mp h with rfl | h
      · exact .inr (by simp)
      · exact (ih h).imp_right (mem_cons_of_mem _)

theorem Sorted.setField (h : Sorted before) : Sorted (setField key v before) := by
  induction before with
  | nil => simp [Sorted, Json.setField]
  | cons other before ih =>
    obtain ⟨k, w⟩ := other
    obtain ⟨hk, hbefore⟩ := pairwise_cons.mp h
    rw [Json.setField]
    split_ifs with heq hlt
    · exact pairwise_cons.mpr ⟨hk, hbefore⟩
    · refine pairwise_cons.mpr ⟨?_, h⟩
      intro l hl
      rcases mem_cons.mp hl with rfl | hl
      · exact hlt
      · exact hlt.trans (hk l hl)
    · refine pairwise_cons.mpr ⟨?_, ih hbefore⟩
      intro l hl
      obtain ⟨field, hfield, rfl⟩ := List.mem_map.mp hl
      rcases mem_setField hfield with rfl | hfield
      · exact lt_of_le_of_ne (not_lt.mp hlt) (Ne.symm heq)
      · exact hk _ (List.mem_map_of_mem hfield)

theorem setField_append (h : ∀ field ∈ before, field.1 < key) :
    setField key v before = before ++ [(key, v)] := by
  induction before with
  | nil => rfl
  | cons field before ih =>
    obtain ⟨k, w⟩ := field
    have hk : k < key := h (k, w) (by simp)
    rw [setField, if_neg (ne_of_gt hk), if_neg (lt_asymm hk),
      ih fun field hf => h field (by simp [hf])]
    rfl

end

section

def isSpace (c : Char) : Bool := c == ' ' || c == '\t' || c == '\n' || c == '\r'

def skipSpace (cs : List Char) : List Char := cs.dropWhile isSpace

theorem skipSpace_cons {c : Char} (h : isSpace c = false) (cs : List Char) :
    skipSpace (c :: cs) = c :: cs := by
  simp [skipSpace, h]

def elements (item : List Char → Option (Json × List Char)) :
    ℕ → List Char → Option (List Json × List Char)
  | 0, _ => none
  | fuel + 1, cs =>
    match item cs with
    | none => none
    | some (j, cs) =>
      match skipSpace cs with
      | ',' :: cs => (elements item fuel cs).map fun r => (j :: r.1, r.2)
      | ']' :: cs => some ([j], cs)
      | _ => none

/-- The fields of an object, put one by one over those before: the last of a key counts. -/
def members (item : List Char → Option (Json × List Char)) :
    ℕ → List (String × Json) → List Char → Option (List (String × Json) × List Char)
  | 0, _, _ => none
  | fuel + 1, before, cs =>
    match skipSpace cs with
    | '"' :: cs =>
      match string cs with
      | none => none
      | some (key, cs) =>
        match skipSpace cs with
        | ':' :: cs =>
          match item cs with
          | none => none
          | some (j, cs) =>
            match skipSpace cs with
            | ',' :: cs => members item fuel (setField key j before) cs
            | '}' :: cs => some (setField key j before, cs)
            | _ => none
        | _ => none
    | _ => none

section
variable (item : List Char → Option (Json × List Char)) (cs : List Char)

def array : Option (Json × List Char) :=
  match skipSpace cs with
  | ']' :: rest => some (.arr [], rest)
  | _ => (elements item cs.length cs).map fun r => (.arr r.1, r.2)

def object : Option (Json × List Char) :=
  match skipSpace cs with
  | '}' :: rest => some (.obj [], rest)
  | _ => (members item cs.length [] cs).map fun r => (.obj r.1, r.2)

end

/-- A value, with room for so many brackets inside one another. -/
def value : ℕ → List Char → Option (Json × List Char)
  | room, cs =>
    match skipSpace cs with
    | 'n' :: 'u' :: 'l' :: 'l' :: rest => some (.null, rest)
    | 't' :: 'r' :: 'u' :: 'e' :: rest => some (.bool true, rest)
    | 'f' :: 'a' :: 'l' :: 's' :: 'e' :: rest => some (.bool false, rest)
    | '"' :: rest => (string rest).map fun r => (.str r.1, r.2)
    | '[' :: rest =>
      match room with
      | 0 => none
      | room + 1 => array (value room) rest
    | '\x7b' :: rest =>
      match room with
      | 0 => none
      | room + 1 => object (value room) rest
    | cs => (literal cs).map fun r => (.num (String.ofList r.1.text), r.2)

end

section

mutual

def render : Json → List Char
  | .null => ['n', 'u', 'l', 'l']
  | .bool true => ['t', 'r', 'u', 'e']
  | .bool false => ['f', 'a', 'l', 's', 'e']
  | .num text => text.toList
  | .str text => quote text
  | .arr items => '[' :: renderItems [] items
  | .obj fields => '\x7b' :: renderFields [] fields

/-- The items with a separator before each but the first, and the closing bracket. -/
def renderItems (separator : List Char) : List Json → List Char
  | [] => [']']
  | j :: js => separator ++ (render j ++ renderItems [','] js)

def renderFields (separator : List Char) : List (String × Json) → List Char
  | [] => ['\x7d']
  | (key, j) :: fields => separator ++ (quote key ++ ':' :: (render j ++ renderFields [','] fields))

end

end

section

mutual

def depth : Json → ℕ
  | .null | .bool _ | .num _ | .str _ => 0
  | .arr items => depthItems items + 1
  | .obj fields => depthFields fields + 1

def depthItems : List Json → ℕ
  | [] => 0
  | j :: js => max (depth j) (depthItems js)

def depthFields : List (String × Json) → ℕ
  | [] => 0
  | (_, j) :: fields => max (depth j) (depthFields fields)

end

mutual

/-- A value as a reader makes it: its numbers are literals and its keys are in order. -/
def WellFormed : Json → Prop
  | .null | .bool _ | .str _ => True
  | .num text => ∃ l : Literal, l.Valid ∧ text = String.ofList l.text
  | .arr items => WellFormedItems items
  | .obj fields => Sorted fields ∧ WellFormedFields fields

def WellFormedItems : List Json → Prop
  | [] => True
  | j :: js => WellFormed j ∧ WellFormedItems js

def WellFormedFields : List (String × Json) → Prop
  | [] => True
  | (_, j) :: fields => WellFormed j ∧ WellFormedFields fields

end

end

section
variable {rest : List Char} {c : Char} {item : List Char → Option (Json × List Char)}

theorem array_of_ne (hspace : isSpace c = false) (hc : c ≠ ']') : array item (c :: rest) =
      (elements item (rest.length + 1) (c :: rest)).map fun r => (.arr r.1, r.2) := by
  rw [array, skipSpace_cons hspace]
  split
  · rename_i hcs
    cases hcs
    exact (hc rfl).elim
  · rfl

theorem value_of_number (hc : c.isDigit = true ∨ c = '-') (room : ℕ) : value room (c :: rest) =
      (literal (c :: rest)).map fun r => (.num (String.ofList r.1.text), r.2) := by
  have hne : ∀ d : Char, d.isDigit = false → d ≠ '-' → c ≠ d := by
    intro d hd hminus hcd
    subst hcd
    rcases hc with hc | hc
    · rw [hc] at hd
      cases hd
    · exact hminus hc
  have hspace : isSpace c = false := by
    simp only [isSpace, Bool.or_eq_false_iff, beq_eq_false_iff_ne]
    exact ⟨⟨⟨hne _ rfl (by decide), hne _ rfl (by decide)⟩, hne _ rfl (by decide)⟩,
      hne _ rfl (by decide)⟩
  rw [value, skipSpace_cons hspace]
  split
  case h_7 => rfl
  all_goals
    rename_i hcs
    cases hcs
    exact (hne _ rfl (by decide) rfl).elim

theorem stop_renderItems (js : List Json) (rest : List Char) :
    Stop (renderItems [','] js ++ rest) := by
  cases js <;> exact stop_cons rfl

theorem stop_renderFields (fields : List (String × Json)) (rest : List Char) :
    Stop (renderFields [','] fields ++ rest) := by
  cases fields <;> exact stop_cons rfl

theorem Literal.Valid.head {l : Literal} (hl : l.Valid) :
    ∃ c cs, l.text = c :: cs ∧ (c.isDigit = true ∨ c = '-') := by
  unfold Literal.text
  cases l.negative with
  | true => exact ⟨'-', _, rfl, .inr rfl⟩
  | false =>
    cases hwhole : l.whole with
    | nil => exact (hl.whole.1 hwhole).elim
    | cons d ds => exact ⟨d, _, rfl, .inl (hl.whole.2 d (by rw [hwhole]; simp))⟩

theorem render_head {j : Json} (hj : WellFormed j) :
    ∃ c cs, render j = c :: cs ∧ isSpace c = false ∧ c ≠ ']' := by
  cases j with
  | null => exact ⟨'n', _, rfl, rfl, by decide⟩
  | bool b => cases b <;> exact ⟨_, _, rfl, rfl, by decide⟩
  | str text => exact ⟨'"', _, rfl, rfl, by decide⟩
  | arr items => exact ⟨'[', _, rfl, rfl, by decide⟩
  | obj fields => exact ⟨'\x7b', _, rfl, rfl, by decide⟩
  | num text =>
    obtain ⟨l, hl, rfl⟩ := hj
    obtain ⟨c, cs, htext, hc⟩ := hl.head
    refine ⟨c, cs, by rw [render, String.toList_ofList, htext], ?_, ?_⟩
    · rcases hc with hc | rfl
      · simp only [isSpace, Bool.or_eq_false_iff, beq_eq_false_iff_ne]
        refine ⟨⟨⟨?_, ?_⟩, ?_⟩, ?_⟩ <;> rintro rfl <;> cases hc
      · rfl
    · rintro rfl
      rcases hc with hc | hc <;> cases hc

theorem length_renderItems (js : List Json) : js.length < (renderItems [','] js).length := by
  induction js with
  | nil => exact Nat.zero_lt_one
  | cons j js ih =>
    simp only [renderItems, List.length_append, List.length_cons, List.length_nil]
    omega

theorem length_renderFields (fields : List (String × Json)) :
    fields.length < (renderFields [','] fields).length := by
  induction fields with
  | nil => exact Nat.zero_lt_one
  | cons field fields ih =>
    obtain ⟨key, j⟩ := field
    simp only [renderFields, List.length_append, List.length_cons, List.length_nil]
    omega

theorem elements_more {fuel : ℕ} {cs : List Char} {j : Json} (hitem : item cs = some (j, ',' :: rest)) :
    elements item (fuel + 1) cs = (elements item fuel rest).map fun r => (j :: r.1, r.2) := by
  rw [elements, hitem]
  simp only [skipSpace_cons (show isSpace ',' = false from rfl)]

theorem elements_last {fuel : ℕ} {cs : List Char} {j : Json} (hitem : item cs = some (j, ']' :: rest)) :
    elements item (fuel + 1) cs = some ([j], rest) := by
  rw [elements, hitem]
  simp only [skipSpace_cons (show isSpace ']' = false from rfl)]

theorem members_field {fuel : ℕ} {before : List (String × Json)} (key : String) (cs : List Char) :
    members item (fuel + 1) before (quote key ++ ':' :: cs) =
      match item cs with
      | none => none
      | some (j, cs) =>
        match skipSpace cs with
        | ',' :: cs => members item fuel (setField key j before) cs
        | '\x7d' :: cs => some (setField key j before, cs)
        | _ => none := by
  have hquote : quote key ++ ':' :: cs =
      '"' :: (key.toList.flatMap escape ++ '"' :: (':' :: cs)) := by
    simp [quote]
  rw [hquote, members, skipSpace_cons rfl]
  simp only [string_quoted, skipSpace_cons (show isSpace ':' = false from rfl)]

theorem value_open_array (room : ℕ) (cs : List Char) :
    value (room + 1) ('[' :: cs) = array (value room) cs := by
  rw [value]
  rfl

theorem value_open_object (room : ℕ) (cs : List Char) :
    value (room + 1) ('\x7b' :: cs) = object (value room) cs := by
  rw [value]
  rfl

theorem object_of_field (key : String) (j : Json) (fields : List (String × Json)) :
    object item (renderFields [] ((key, j) :: fields) ++ rest) =
      (members item (renderFields [] ((key, j) :: fields) ++ rest).length []
        (renderFields [] ((key, j) :: fields) ++ rest)).map fun r => (.obj r.1, r.2) := by
  rfl

mutual

theorem value_render : (j : Json) → WellFormed j → ∀ (room : ℕ) {rest : List Char}, Stop rest →
    value room (render j ++ rest) = if j.depth ≤ room then some (j, rest) else none
  | .null, _, room, rest, _ | .bool true, _, room, rest, _ | .bool false, _, room, rest, _ => by
    rw [value, render]
    rfl
  | .str text, _, room, rest, _ => by
    have hquote : quote text ++ rest = '"' :: (text.toList.flatMap escape ++ '"' :: rest) := by
      simp [quote]
    rw [render, hquote, value, skipSpace_cons rfl]
    simp only [string_quoted, Option.map_some, depth, Nat.zero_le, if_true]
  | .num text, hj, room, rest, hstop => by
    obtain ⟨l, hl, rfl⟩ := hj
    obtain ⟨c, cs, htext, hc⟩ := hl.head
    have hread := literal_append hl hstop
    rw [htext, cons_append] at hread
    rw [render, String.toList_ofList, htext, cons_append, value_of_number hc, hread]
    simp only [Option.map_some, depth, Nat.zero_le, if_true, htext]
  | .arr [], _, room, rest, _ => by
    cases room with
    | zero | succ room => rfl
  | .arr (j :: js), hj, room, rest, _ => by
    cases room with
    | zero => rfl
    | succ room =>
      obtain ⟨c, cs, hhead, hspace, hc⟩ := render_head hj.1
      have htext : renderItems [] (j :: js) ++ rest = c :: (cs ++ (renderItems [','] js ++ rest)) := by
        simp [renderItems, hhead]
      have hfuel : (j :: js).length ≤ (cs ++ (renderItems [','] js ++ rest)).length + 1 := by
        have hlen := length_renderItems js
        simp only [length_append, length_cons]
        omega
      have hitems := elements_render (j :: js) hj room _ (by simp) hfuel rest
      rw [render, cons_append, value_open_array, htext, array_of_ne hspace hc, ← htext, hitems]
      simp only [depth, Nat.add_le_add_iff_right]
      split_ifs <;> rfl
  | .obj [], _, room, rest, _ => by
    cases room with
    | zero | succ room => rfl
  | .obj ((key, j) :: fields), hj, room, rest, _ => by
    cases room with
    | zero => rfl
    | succ room =>
      have hfuel : ((key, j) :: fields).length ≤ (renderFields [] ((key, j) :: fields) ++ rest).length := by
        have hlen := length_renderFields fields
        simp only [renderFields, length_append, length_cons]
        omega
      have hfields := members_render ((key, j) :: fields) hj.2 room _ (by simp) hfuel [] hj.1 rest
      rw [render, cons_append, value_open_object, object_of_field, hfields]
      simp only [depth, Nat.add_le_add_iff_right]
      split_ifs <;> rfl

theorem elements_render : (js : List Json) → WellFormedItems js → ∀ (room fuel : ℕ), js ≠ [] →
    js.length ≤ fuel → ∀ rest : List Char,
    elements (value room) fuel (renderItems [] js ++ rest) =
      if depthItems js ≤ room then some (js, rest) else none
  | [], _, _, _, hne, _, _ => (hne rfl).elim
  | j :: js, hj, room, 0, _, hfuel, _ => by
    cases hfuel
  | j :: js, hj, room, fuel + 1, _, hfuel, rest => by
    have hitem := value_render j hj.1 room (stop_renderItems js rest)
    have htext : renderItems [] (j :: js) ++ rest = render j ++ (renderItems [','] js ++ rest) := by
      simp [renderItems]
    rw [htext]
    split_ifs at hitem with hdepth
    · cases js with
      | nil =>
        rw [elements_last hitem]
        simp [depthItems, hdepth]
      | cons k ks =>
        have hmore := elements_render (k :: ks) hj.2 room fuel (by simp) (Nat.le_of_succ_le_succ hfuel)
          rest
        have hdepths : depthItems (j :: k :: ks) ≤ room ↔ depthItems (k :: ks) ≤ room := by
          rw [depthItems, max_le_iff, and_iff_right hdepth]
        rw [elements_more hitem]
        change (elements (value room) fuel (renderItems [] (k :: ks) ++ rest)).map _ = _
        rw [hmore, if_congr hdepths rfl rfl]
        split_ifs <;> rfl
    · rw [elements, hitem, if_neg]
      intro hle
      exact hdepth (le_trans (le_max_left _ _) hle)

theorem members_render : (fields : List (String × Json)) → WellFormedFields fields →
    ∀ (room fuel : ℕ), fields ≠ [] → fields.length ≤ fuel → ∀ (before : List (String × Json)),
    Sorted (before ++ fields) → ∀ rest : List Char,
    members (value room) fuel before (renderFields [] fields ++ rest) =
      if depthFields fields ≤ room then some (before ++ fields, rest) else none
  | [], _, _, _, hne, _, _, _, _ => (hne rfl).elim
  | field :: fields, hj, room, 0, _, hfuel, _, _, _ => by
    cases hfuel
  | (key, j) :: fields, hj, room, fuel + 1, _, hfuel, before, hsorted, rest => by
    have hitem := value_render j hj.1 room (stop_renderFields fields rest)
    have htext : renderFields [] ((key, j) :: fields) ++ rest =
        quote key ++ ':' :: (render j ++ (renderFields [','] fields ++ rest)) := by
      simp [renderFields]
    rw [htext, members_field, hitem]
    by_cases hdepth : j.depth ≤ room
    · have hset : setField key j before = before ++ [(key, j)] := by
        apply setField_append
        intro field hfield
        rw [Sorted, map_append, pairwise_append] at hsorted
        exact hsorted.2.2 _ (List.mem_map_of_mem hfield) _ (by simp)
      rw [if_pos hdepth]
      cases fields with
      | nil => simp [renderFields, skipSpace_cons, isSpace, hset, depthFields, hdepth]
      | cons next fields =>
        obtain ⟨next, k⟩ := next
        have hmore := members_render ((next, k) :: fields) hj.2 room fuel (by simp)
          (Nat.le_of_succ_le_succ hfuel) (before ++ [(key, j)]) (by simpa using hsorted) rest
        have hdepths : depthFields ((key, j) :: (next, k) :: fields) ≤ room ↔
            depthFields ((next, k) :: fields) ≤ room := by
          rw [depthFields, max_le_iff, and_iff_right hdepth]
        change members (value room) fuel (setField key j before)
          (renderFields [] ((next, k) :: fields) ++ rest) = _
        rw [hset, hmore, if_congr hdepths rfl rfl, append_assoc]
        rfl
    · rw [if_neg hdepth, if_neg]
      intro hle
      exact hdepth (le_trans (le_max_left _ _) hle)

end

end

section
variable {item : List Char → Option (Json × List Char)} {cs rest : List Char} {js : List Json}

theorem wellFormedItems_iff : WellFormedItems js ↔ ∀ j ∈ js, WellFormed j := by
  induction js with
  | nil => simp [WellFormedItems]
  | cons j js ih => simp [WellFormedItems, ih]

variable {fields : List (String × Json)}

theorem wellFormedFields_iff : WellFormedFields fields ↔ ∀ field ∈ fields, WellFormed field.2 := by
  induction fields with
  | nil => simp [WellFormedFields]
  | cons field fields ih => simp [WellFormedFields, ih]

theorem depthItems_le_iff {n : ℕ} : depthItems js ≤ n ↔ ∀ j ∈ js, depth j ≤ n := by
  induction js with
  | nil => simp [depthItems]
  | cons j js ih => simp [depthItems, ih]

theorem depthFields_le_iff {n : ℕ} :
    depthFields fields ≤ n ↔ ∀ field ∈ fields, depth field.2 ≤ n := by
  induction fields with
  | nil => simp [depthFields]
  | cons field fields ih => simp [depthFields, ih]

variable {P : Json → Prop}

theorem elements_all (hitem : ∀ {cs j rest}, item cs = some (j, rest) → P j) {fuel : ℕ}
    (h : elements item fuel cs = some (js, rest)) : ∀ j ∈ js, P j := by
  induction fuel generalizing cs js with
  | zero => cases h
  | succ fuel ih =>
    rw [elements] at h
    cases hfirst : item cs with
    | none => simp [hfirst] at h
    | some first =>
      obtain ⟨j, cs'⟩ := first
      simp only [hfirst] at h
      split at h
      · rename_i cs₂ _
        cases hmore : elements item fuel cs₂ with
        | none => simp [hmore] at h
        | some more =>
          rw [hmore] at h
          cases h
          intro k hk
          rcases mem_cons.mp hk with rfl | hk
          · exact hitem hfirst
          · exact ih hmore k hk
      · cases h
        intro k hk
        cases mem_singleton.mp hk
        exact hitem hfirst
      · cases h

/-- Fields in the order of their keys, each value with the property. -/
def Fields (P : Json → Prop) (fields : List (String × Json)) : Prop :=
  Sorted fields ∧ ∀ field ∈ fields, P field.2

variable {j : Json}

theorem Fields.setField {key : String} {before : List (String × Json)} (h : Fields P before)
    (hj : P j) : Fields P (Json.setField key j before) := by
  refine ⟨h.1.setField, fun field hfield => ?_⟩
  rcases mem_setField hfield with rfl | hfield
  · exact hj
  · exact h.2 field hfield

section
variable (hitem : ∀ {cs j rest}, item cs = some (j, rest) → P j)
include hitem

theorem members_all {fuel : ℕ} {before fields : List (String × Json)} (hbefore : Fields P before)
    (h : members item fuel before cs = some (fields, rest)) : Fields P fields := by
  induction fuel generalizing cs before with
  | zero => cases h
  | succ fuel ih =>
    rw [members] at h
    split at h
    · split at h
      · cases h
      · rename_i key cs₂ _
        split at h
        · rename_i cs₃ _
          cases hvalue : item cs₃ with
          | none => simp [hvalue] at h
          | some found =>
            obtain ⟨j, cs₄⟩ := found
            simp only [hvalue] at h
            have hset : Fields P (Json.setField key j before) := hbefore.setField (hitem hvalue)
            split at h
            · exact ih hset h
            · cases h
              exact hset
            · cases h
        · cases h
    · cases h

theorem array_all (h : array item cs = some (j, rest)) : ∃ js, j = .arr js ∧ ∀ k ∈ js, P k := by
  unfold array at h
  split at h
  · cases h
    exact ⟨[], rfl, by simp⟩
  · cases hjs : elements item cs.length cs with
    | none => simp [hjs] at h
    | some r =>
      rw [hjs] at h
      cases h
      exact ⟨r.1, rfl, elements_all hitem hjs⟩

theorem object_all (h : object item cs = some (j, rest)) :
    ∃ fields, j = .obj fields ∧ Fields P fields := by
  have hnil : Fields P [] := ⟨by simp [Sorted], by simp⟩
  unfold object at h
  split at h
  · cases h
    exact ⟨[], rfl, hnil⟩
  · cases hfields : members item cs.length [] cs with
    | none => simp [hfields] at h
    | some r =>
      rw [hfields] at h
      cases h
      exact ⟨r.1, rfl, members_all hitem hnil hfields⟩

end

/-- What a value is read from: no bracket, or one that takes a place of the room. -/
theorem value_inv {room : ℕ} (h : value room cs = some (j, rest)) :
    (WellFormed j ∧ j.depth = 0) ∨ ∃ inner cs', room = inner + 1 ∧
      (array (value inner) cs' = some (j, rest) ∨ object (value inner) cs' = some (j, rest)) := by
  rw [value] at h
  split at h
  · cases h
    exact .inl ⟨trivial, rfl⟩
  · cases h
    exact .inl ⟨trivial, rfl⟩
  · cases h
    exact .inl ⟨trivial, rfl⟩
  · rename_i text _
    cases hs : string text with
    | none => simp [hs] at h
    | some r =>
      rw [hs] at h
      cases h
      exact .inl ⟨trivial, rfl⟩
  · rename_i text _
    cases room with
    | zero => cases h
    | succ room => exact .inr ⟨room, text, rfl, .inl h⟩
  · rename_i text _
    cases room with
    | zero => cases h
    | succ room => exact .inr ⟨room, text, rfl, .inr h⟩
  · cases hl : literal (skipSpace cs) with
    | none => simp [hl] at h
    | some r =>
      rw [hl] at h
      cases h
      exact .inl ⟨⟨r.1, literal_valid hl, rfl⟩, rfl⟩

theorem value_wellFormed {room : ℕ} {cs : List Char} {rest : List Char}
    (h : value room cs = some (j, rest)) : WellFormed j ∧ j.depth ≤ room := by
  induction room generalizing cs j rest with
  | zero =>
    rcases value_inv h with ⟨hj, hdepth⟩ | ⟨inner, _, hroom, _⟩
    · exact ⟨hj, hdepth.le⟩
    · cases hroom
  | succ room ih =>
    rcases value_inv h with ⟨hj, hdepth⟩ | ⟨inner, _, hroom, harray | hobject⟩
    · exact ⟨hj, hdepth ▸ Nat.zero_le _⟩
    · cases hroom
      obtain ⟨js, rfl, hjs⟩ := array_all ih harray
      constructor
      · exact wellFormedItems_iff.mpr fun k hk => (hjs k hk).1
      · exact Nat.succ_le_succ (depthItems_le_iff.mpr fun k hk => (hjs k hk).2)
    · cases hroom
      obtain ⟨fields, rfl, hsorted, hfields⟩ := object_all ih hobject
      constructor
      · exact ⟨hsorted, wellFormedFields_iff.mpr fun field hf => (hfields field hf).1⟩
      · exact Nat.succ_le_succ (depthFields_le_iff.mpr fun field hf => (hfields field hf).2)

end

end Fluxbee.Json
