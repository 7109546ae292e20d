import Fluxbee.Lib.JsonText

/-! The values a workflow holds: how they are read from JSON and written to it, so that an integer
stays an int64 and every other number a float64, and what a result of CEL is kept as. -/
namespace Fluxbee.Workflow
open Json Option List Literal String

/-- What the Go library does for the values: `float64`s in `F`, and the texts of its errors. -/
structure Library (F : Type) where
  /-- ParseFloat of a sign and a number, none past the largest float64. -/
  nearest : Bool → ℚ → Option F
  /-- The absolute value, none for a NaN or an infinity. -/
  magnitude : F → Option ℚ
  /-- Printf's %v. -/
  verb : F → String
  /-- FormatFloat with the formats f and e, as few digits as tell the number. -/
  fixed : F → String
  scientific : F → String
  ofNat : ℕ → F
  /-- The decoder's error for a text it refuses. -/
  decodeError : String → String
  /-- Printf's %q. -/
  quoted : String → String

/-- A value as the engine holds it. A map is its fields in the order of the keys. -/
inductive Value (F : Type) where
  | null
  | bool (b : Bool)
  | int (i : Int64)
  | double (f : F)
  | str (text : String)
  | list (items : List (Value F))
  | map (fields : List (String × Value F))

inductive Cel (F : Type) where
  | null
  | bool (b : Bool)
  | int (i : Int64)
  | uint (n : UInt64)
  | double (f : F)
  | string (text : String)
  | timestamp (text : String)
  | duration (text : String)
  | map (entries : List (Cel F × Cel F))
  | list (items : List (Cel F))
  | err (message : String)
  | other (typeName : String)

variable {F : Type}

def Cel.typeName : Cel F → String
  | .null => "null_type"
  | .bool _ => "bool"
  | .int _ => "int"
  | .uint _ => "uint"
  | .double _ => "double"
  | .string _ => "string"
  | .timestamp _ => "google.protobuf.Timestamp"
  | .duration _ => "google.protobuf.Duration"
  | .map _ => "map"
  | .list _ => "list"
  | .err _ => "error"
  | .other typeName => typeName

section
variable (L : Library F)

/-- The decoder of encoding/json opens no more brackets inside one another. -/
def maxNestingDepth : ℕ := 10000

def numberInt64 (text : String) : Option Int64 :=
  match (Literal.ofText text).bind Literal.integer with
  | some i => if -2 ^ 63 ≤ i ∧ i < 2 ^ 63 then some (Int64.ofInt i) else none
  | none => none

def numberFloat64 (text : String) : Option F :=
  (Literal.ofText text).bind fun l => L.nearest l.negative l.magnitude

mutual

def normalizeNumbers : Json → Value F
  | .null => .null
  | .bool b => .bool b
  | .num text =>
    match numberInt64 text with
    | some i => .int i
    | none =>
      match numberFloat64 L text with
      | some f => .double f
      | none => .str text
  | .str text => .str text
  | .arr items => .list (normalizeItems items)
  | .obj fields => .map (normalizeFields fields)

def normalizeItems : List Json → List (Value F)
  | [] => []
  | j :: js => normalizeNumbers j :: normalizeItems js

def normalizeFields : List (String × Json) → List (String × Value F)
  | [] => []
  | (key, j) :: fields => (key, normalizeNumbers j) :: normalizeFields fields

end

def decodeJSON (data : String) : Except String (Value F) :=
  match value maxNestingDepth data.toList with
  | none => .error (L.decodeError data)
  | some (j, rest) =>
    if skipSpace rest = [] then .ok (normalizeNumbers L j)
    else .error "invalid JSON: data after the top-level value"

def decodeJSONObject (data : String) : Except String (List (String × Value F)) :=
  match decodeJSON L data with
  | .error err => .error err
  | .ok (.map fields) => .ok fields
  | .ok _ => .error "not a JSON object"

/-- A constant of the source, as a float64. -/
def Library.constant (q : ℚ) : ℚ := ((L.nearest false q).bind L.magnitude).getD q

def Library.notANumber (f : F) : String := L.verb f ++ " is not a JSON number"

def doubleLiteral (f : F) : Except String String :=
  match L.magnitude f with
  | none => .error (L.notANumber f)
  | some abs =>
    let literal := if abs ≠ 0 ∧ (abs < L.constant (1 / 10 ^ 6) ∨ L.constant (10 ^ 21) ≤ abs)
      then L.scientific f else L.fixed f
    if literal.toList.any (fun c => c = '.' || c = 'e' || c = 'E') then .ok literal
    else .ok (literal ++ ".0")

mutual

/-- The value with every float64 as its literal. The other leaves are as encoding/json writes them:
an int64 in decimal. -/
def keepDoubles : Value F → Except String Json
  | .null => .ok .null
  | .bool b => .ok (.bool b)
  | .int i => .ok (.num (String.ofList (Literal.ofInt i.toInt).text))
  | .double f => (doubleLiteral L f).map .num
  | .str text => .ok (.str text)
  | .list items => (keepItems 0 items).map .arr
  | .map fields => (keepFields fields).map .obj

def keepItems (i : ℕ) : List (Value F) → Except String (List Json)
  | [] => .ok []
  | v :: vs =>
    match keepDoubles v with
    | .error err => .error s!"[{i}]: {err}"
    | .ok j => (keepItems (i + 1) vs).map fun js => j :: js

/-- Go walks a map in any order: here the error is of the first key. -/
def keepFields : List (String × Value F) → Except String (List (String × Json))
  | [] => .ok []
  | (key, v) :: fields =>
    match keepDoubles v with
    | .error err => .error s!"{key}: {err}"
    | .ok j => (keepFields fields).map fun rest => (key, j) :: rest

end

def encodeJSON (v : Value F) : Except String String :=
  (keepDoubles L v).map fun j => String.ofList j.render

mutual

def valueToJSON : Cel F → Except String (Value F)
  | .null => .ok .null
  | .bool b => .ok (.bool b)
  | .int i => .ok (.int i)
  | .uint n =>
    if n.toNat ≤ 2 ^ 63 - 1 then .ok (.int (Int64.ofNat n.toNat)) else .ok (.double (L.ofNat n.toNat))
  | .double f =>
    match L.magnitude f with
    | none => .error (L.notANumber f)
    | some _ => .ok (.double f)
  | .string text => .ok (.str text)
  | .timestamp text => .ok (.str text)
  | .duration text => .ok (.str text)
  | .map entries => (mapToJSON [] entries).map .map
  | .list items => (listToJSON 0 items).map .list
  | .err message => .error message
  | .other typeName => .error s!"a {typeName} value cannot be kept as JSON"

def mapToJSON (out : List (String × Value F)) :
    List (Cel F × Cel F) → Except String (List (String × Value F))
  | [] => .ok out
  | (.string name, child) :: entries =>
    match valueToJSON child with
    | .error err => .error s!"{name}: {err}"
    | .ok v => mapToJSON (setField name v out) entries
  | (key, _) :: _ =>
    .error s!"a map key must be a string to be kept as JSON, not {key.typeName}"

def listToJSON (i : ℕ) : List (Cel F) → Except String (List (Value F))
  | [] => .ok []
  | item :: items =>
    match valueToJSON item with
    | .error err => .error s!"[{i}]: {err}"
    | .ok v => (listToJSON (i + 1) items).map fun vs => v :: vs

end

end

section

mutual

def Value.depth : Value F → ℕ
  | .null | .bool _ | .int _ | .double _ | .str _ => 0
  | .list items => depthItems items + 1
  | .map fields => depthFields fields + 1

def Value.depthItems : List (Value F) → ℕ
  | [] => 0
  | v :: vs => max v.depth (Value.depthItems vs)

def Value.depthFields : List (String × Value F) → ℕ
  | [] => 0
  | (_, v) :: fields => max v.depth (Value.depthFields fields)

end

variable (L : Library F)

mutual

/-- A JSON-like value of finite numbers: every key of a map once. -/
def Value.Plain : Value F → Prop
  | .null | .bool _ | .int _ | .str _ => True
  | .double f => (L.magnitude f).isSome = true
  | .list items => PlainItems items
  | .map fields => Sorted fields ∧ PlainFields fields

def Value.PlainItems : List (Value F) → Prop
  | [] => True
  | v :: vs => v.Plain ∧ Value.PlainItems vs

def Value.PlainFields : List (String × Value F) → Prop
  | [] => True
  | (_, v) :: fields => v.Plain ∧ Value.PlainFields fields

end

def Library.Gives (f : F) (text : String) : Prop :=
  ∃ l : Literal, l.Valid ∧ text = String.ofList l.text ∧ L.nearest l.negative l.magnitude = some f

/-- The shortest formats are exact, and parsing makes finite numbers only. -/
structure Library.Exact : Prop where
  fixed : ∀ f, (L.magnitude f).isSome = true → L.Gives f (L.fixed f)
  scientific : ∀ f, (L.magnitude f).isSome = true → L.Gives f (L.scientific f)
  nearest : ∀ negative q f, L.nearest negative q = some f → (L.magnitude f).isSome = true
  ofNat : ∀ n < 2 ^ 64, (L.magnitude (L.ofNat n)).isSome = true

end

variable {f : F} {v : Value F} {fields : List (String × Value F)}

section
variable {L : Library F}

theorem numberInt64_ofInt (i : Int64) : numberInt64 (ofList (ofInt i.toInt).text) = some i := by
  have hmin := i.le_toInt
  have hmax := i.toInt_lt
  unfold numberInt64
  rw [ofText_text (ofInt_valid _), bind_some, integer_ofInt]
  dsimp only
  rw [if_pos ⟨hmin, hmax⟩, Int64.ofInt_toInt]

theorem normalizeNumbers_int (i : Int64) :
    normalizeNumbers L (.num (ofList (ofInt i.toInt).text)) = .int i := by
  rw [normalizeNumbers, numberInt64_ofInt]

theorem normalizeNumbers_double {l : Literal} (hl : l.Valid) (hint : l.integer = none)
    (hf : L.nearest l.negative l.magnitude = some f) :
    normalizeNumbers L (.num (ofList l.text)) = .double f := by
  have hnot : numberInt64 (ofList l.text) = none := by
    rw [numberInt64, ofText_text hl, bind_some, hint]
  have hfloat : numberFloat64 L (ofList l.text) = some f := by
    rw [numberFloat64, ofText_text hl, bind_some, hf]
  rw [normalizeNumbers, hnot, hfloat]

/-- The literal of a double is never an integer's, so it is read as the double it was. -/
theorem doubleLiteral_exact (hL : L.Exact) (hf : (L.magnitude f).isSome = true) :
    ∃ l : Literal, doubleLiteral L f = .ok (ofList l.text) ∧ l.Valid ∧ l.integer = none ∧
      L.nearest l.negative l.magnitude = some f := by
  obtain ⟨abs, habs⟩ := isSome_iff_exists.mp hf
  have hgives : L.Gives f (if abs ≠ 0 ∧ (abs < L.constant (1 / 10 ^ 6) ∨ L.constant (10 ^ 21) ≤ abs)
      then L.scientific f else L.fixed f) := by
    split_ifs
    · exact hL.scientific f hf
    · exact hL.fixed f hf
  obtain ⟨l, hl, htext, hnearest⟩ := hgives
  unfold doubleLiteral
  simp only [habs, htext, toList_ofList, any_text hl]
  by_cases hmark : (l.fraction.isSome || l.exponent.isSome) = true
  · refine ⟨l, if_pos hmark, hl, ?_, hnearest⟩
    unfold integer
    split
    · rename_i hfraction hexponent
      simp [hfraction, hexponent] at hmark
    · rfl
  · simp only [Bool.or_eq_true, not_or, not_isSome_iff_eq_none] at hmark
    refine ⟨l.pointed, ?_, hl.pointed, rfl, ?_⟩
    · rw [if_neg (by simp [hmark.1, hmark.2]), text_pointed hmark.1 hmark.2, ofList_append]
    · rw [magnitude_pointed hmark.1]
      exact hnearest

mutual

theorem keepDoubles_exact (hL : L.Exact) : (v : Value F) → v.Plain L →
    ∃ j, keepDoubles L v = .ok j ∧ WellFormed j ∧ j.depth = v.depth ∧ normalizeNumbers L j = v
  | .null, _ => ⟨.null, rfl, trivial, rfl, rfl⟩
  | .bool b, _ => ⟨.bool b, rfl, trivial, rfl, rfl⟩
  | .str text, _ => ⟨.str text, rfl, trivial, rfl, rfl⟩
  | .int i, _ => ⟨.num (ofList (ofInt i.toInt).text), rfl,
      ⟨_, ofInt_valid _, rfl⟩, rfl, normalizeNumbers_int i⟩
  | .double f, hf => by
    obtain ⟨l, htext, hl, hint, hnearest⟩ := doubleLiteral_exact hL hf
    refine ⟨.num (ofList l.text), by rw [keepDoubles, htext]; rfl, ⟨l, hl, rfl⟩, rfl, ?_⟩
    exact normalizeNumbers_double hl hint hnearest
  | .list items, h => by
    obtain ⟨js, hkeep, hwell, hdepth, hback⟩ := keepItems_exact hL items h 0
    refine ⟨.arr js, by rw [keepDoubles, hkeep]; rfl, hwell, ?_, ?_⟩
    · rw [Json.depth, hdepth, Value.depth]
    · rw [normalizeNumbers, hback]
  | .map fields, h => by
    obtain ⟨js, hkeep, hkeys, hwell, hdepth, hback⟩ := keepFields_exact hL fields h.2
    refine ⟨.obj js, by rw [keepDoubles, hkeep]; rfl, ⟨?_, hwell⟩, ?_, ?_⟩
    · rw [Sorted, hkeys]
      exact h.1
    · rw [Json.depth, hdepth, Value.depth]
    · rw [normalizeNumbers, hback]

theorem keepItems_exact (hL : L.Exact) : (vs : List (Value F)) → Value.PlainItems L vs → ∀ i : ℕ,
    ∃ js, keepItems L i vs = .ok js ∧ WellFormedItems js ∧
      Json.depthItems js = Value.depthItems vs ∧ normalizeItems L js = vs
  | [], _, _ => ⟨[], rfl, trivial, rfl, rfl⟩
  | v :: vs, h, i => by
    obtain ⟨j, hj, hjwell, hjdepth, hjback⟩ := keepDoubles_exact hL v h.1
    obtain ⟨js, hjs, hwell, hdepth, hback⟩ := keepItems_exact hL vs h.2 (i + 1)
    refine ⟨j :: js, ?_, ⟨hjwell, hwell⟩, ?_, ?_⟩
    · rw [keepItems, hj]
      simp only [hjs]
      rfl
    · rw [Json.depthItems, hjdepth, hdepth, Value.depthItems]
    · rw [normalizeItems, hjback, hback]

theorem keepFields_exact (hL : L.Exact) : (fields : List (String × Value F)) →
    Value.PlainFields L fields →
    ∃ js, keepFields L fields = .ok js ∧ js.map Prod.fst = fields.map Prod.fst ∧
      WellFormedFields js ∧ Json.depthFields js = Value.depthFields fields ∧
      normalizeFields L js = fields
  | [], _ => ⟨[], rfl, rfl, trivial, rfl, rfl⟩
  | (key, v) :: fields, h => by
    obtain ⟨j, hj, hjwell, hjdepth, hjback⟩ := keepDoubles_exact hL v h.1
    obtain ⟨js, hjs, hkeys, hwell, hdepth, hback⟩ := keepFields_exact hL fields h.2
    refine ⟨(key, j) :: js, ?_, ?_, ⟨hjwell, hwell⟩, ?_, ?_⟩
    · rw [keepFields, hj]
      simp only [hjs]
      rfl
    · rw [map_cons, map_cons, hkeys]
    · rw [Json.depthFields, hjdepth, hdepth, Value.depthFields]
    · rw [normalizeFields, hjback, hback]

end

/-- A written value is read back when it is not nested past the decoder's limit, and refused when
it is. -/
theorem decodeJSON_encodeJSON (hL : L.Exact) (hv : v.Plain L) :
    ∃ text, encodeJSON L v = .ok text ∧ decodeJSON L text =
      if v.depth ≤ maxNestingDepth then .ok v else .error (L.decodeError text) := by
  obtain ⟨j, hkeep, hwell, hdepth, hback⟩ := keepDoubles_exact hL v hv
  refine ⟨ofList j.render, by rw [encodeJSON, hkeep]; rfl, ?_⟩
  have hread := value_render j hwell maxNestingDepth stop_nil
  rw [append_nil] at hread
  rw [decodeJSON, toList_ofList, hread, hdepth]
  split_ifs with hdeep
  · simp only [skipSpace, dropWhile_nil, if_true, hback]
  · rfl

end

section
variable {L : Library F}

theorem Value.plainFields_iff : Value.PlainFields L fields ↔ ∀ field ∈ fields, field.2.Plain L := by
  induction fields with
  | nil => simp [Value.PlainFields]
  | cons field fields ih => simp [Value.PlainFields, ih]

theorem Value.depthFields_le_iff {n : ℕ} :
    Value.depthFields fields ≤ n ↔ ∀ field ∈ fields, field.2.depth ≤ n := by
  induction fields with
  | nil => simp [Value.depthFields]
  | cons field fields ih => simp [Value.depthFields, ih]

theorem normalizeNumbers_num (hL : L.Exact) (text : String) :
    (normalizeNumbers L (.num text)).Plain L ∧ (normalizeNumbers L (.num text)).depth = 0 := by
  rw [normalizeNumbers]
  cases numberInt64 text with
  | some i => exact ⟨trivial, rfl⟩
  | none =>
    cases hf : numberFloat64 L text with
    | none => exact ⟨trivial, rfl⟩
    | some f =>
      rw [numberFloat64, bind_eq_some_iff] at hf
      obtain ⟨l, -, hnearest⟩ := hf
      exact ⟨hL.nearest _ _ f hnearest, rfl⟩

mutual

theorem normalizeNumbers_plain (hL : L.Exact) : (j : Json) → WellFormed j →
    (normalizeNumbers L j).Plain L ∧ (normalizeNumbers L j).depth = j.depth
  | .null, _ => ⟨trivial, rfl⟩
  | .bool _, _ => ⟨trivial, rfl⟩
  | .str _, _ => ⟨trivial, rfl⟩
  | .num text, _ => normalizeNumbers_num hL text
  | .arr items, h => by
    obtain ⟨hplain, hdepth⟩ := normalizeItems_plain hL items h
    exact ⟨hplain, congrArg (· + 1) hdepth⟩
  | .obj fields, h => by
    obtain ⟨hkeys, hplain, hdepth⟩ := normalizeFields_plain hL fields h.2
    refine ⟨⟨?_, hplain⟩, congrArg (· + 1) hdepth⟩
    rw [Sorted, hkeys]
    exact h.1

theorem normalizeItems_plain (hL : L.Exact) : (js : List Json) → WellFormedItems js →
    Value.PlainItems L (normalizeItems L js) ∧
      Value.depthItems (normalizeItems L js) = Json.depthItems js
  | [], _ => ⟨trivial, rfl⟩
  | j :: js, h => by
    obtain ⟨hj, hjdepth⟩ := normalizeNumbers_plain hL j h.1
    obtain ⟨hjs, hdepth⟩ := normalizeItems_plain hL js h.2
    refine ⟨⟨hj, hjs⟩, ?_⟩
    rw [normalizeItems, Value.depthItems, hjdepth, hdepth, Json.depthItems]

theorem normalizeFields_plain (hL : L.Exact) : (fields : List (String × Json)) →
    WellFormedFields fields → (normalizeFields L fields).map Prod.fst = fields.map Prod.fst ∧
      Value.PlainFields L (normalizeFields L fields) ∧
      Value.depthFields (normalizeFields L fields) = Json.depthFields fields
  | [], _ => ⟨rfl, trivial, rfl⟩
  | (key, j) :: fields, h => by
    obtain ⟨hj, hjdepth⟩ := normalizeNumbers_plain hL j h.1
    obtain ⟨hkeys, hfields, hdepth⟩ := normalizeFields_plain hL fields h.2
    refine ⟨congrArg (key :: ·) hkeys, ⟨hj, hfields⟩, ?_⟩
    rw [normalizeFields, Value.depthFields, hjdepth, hdepth, Json.depthFields]

end

theorem decodeJSON_plain (hL : L.Exact) {data : String}
    (h : decodeJSON L data = .ok v) : v.Plain L ∧ v.depth ≤ maxNestingDepth := by
  unfold decodeJSON at h
  cases hread : value maxNestingDepth data.toList with
  | none => simp [hread] at h
  | some r =>
    simp only [hread] at h
    split_ifs at h
    cases h
    obtain ⟨hwell, hdeep⟩ := value_wellFormed hread
    obtain ⟨hplain, hdepth⟩ := normalizeNumbers_plain hL r.1 hwell
    exact ⟨hplain, hdepth.trans_le hdeep⟩

end

section
variable {L : Library F}

mutual

theorem valueToJSON_plain (hL : L.Exact) : (c : Cel F) → ∀ {v : Value F},
    valueToJSON L c = .ok v → v.Plain L
  | .null, _, h | .bool _, _, h | .int _, _, h | .string _, _, h | .timestamp _, _, h
  | .duration _, _, h => by
    cases h
    trivial
  | .err _, _, h | .other _, _, h => by cases h
  | .uint n, _, h => by
    rw [valueToJSON] at h
    split_ifs at h <;> cases h
    · trivial
    · exact hL.ofNat _ n.toNat_lt
  | .double f, _, h => by
    rw [valueToJSON] at h
    cases hf : L.magnitude f with
    | none => simp [hf] at h
    | some abs =>
      rw [hf] at h
      cases h
      rw [Value.Plain, hf]
      rfl
  | .map entries, v, h => by
    rw [valueToJSON] at h
    cases hmap : mapToJSON L [] entries with
    | error err =>
      rw [hmap] at h
      cases h
    | ok fields =>
      rw [hmap] at h
      cases h
      have hnil : Sorted ([] : List (String × Value F)) ∧ Value.PlainFields L [] :=
        ⟨by simp [Sorted], trivial⟩
      exact mapToJSON_plain hL entries hnil hmap
  | .list items, v, h => by
    rw [valueToJSON] at h
    cases hlist : listToJSON L 0 items with
    | error err =>
      rw [hlist] at h
      cases h
    | ok vs =>
      rw [hlist] at h
      cases h
      exact listToJSON_plain hL items hlist

theorem mapToJSON_plain (hL : L.Exact) : (entries : List (Cel F × Cel F)) →
    ∀ {out fields : List (String × Value F)}, Sorted out ∧ Value.PlainFields L out →
    mapToJSON L out entries = .ok fields → Sorted fields ∧ Value.PlainFields L fields
  | [], _, _, hout, h => by
    cases h
    exact hout
  | (key, child) :: entries, out, fields, hout, h => by
    cases key with
    | string name =>
      rw [mapToJSON] at h
      cases hchild : valueToJSON L child with
      | error err => simp [hchild] at h
      | ok v =>
        simp only [hchild] at h
        have hv := valueToJSON_plain hL child hchild
        refine mapToJSON_plain hL entries ⟨hout.1.setField, ?_⟩ h
        rw [Value.plainFields_iff] at hout ⊢
        intro field hfield
        rcases mem_setField hfield with rfl | hfield
        · exact hv
        · exact hout.2 field hfield
    | _ => cases h

theorem listToJSON_plain (hL : L.Exact) : (items : List (Cel F)) → ∀ {i : ℕ} {vs : List (Value F)},
    listToJSON L i items = .ok vs → Value.PlainItems L vs
  | [], _, _, h => by
    cases h
    trivial
  | item :: items, i, vs, h => by
    rw [listToJSON] at h
    cases hitem : valueToJSON L item with
    | error err => simp [hitem] at h
    | ok v =>
      cases hitems : listToJSON L (i + 1) items with
      | error err => simp [hitem, hitems, Except.map] at h
      | ok rest =>
        simp only [hitem, hitems] at h
        cases h
        exact ⟨valueToJSON_plain hL item hitem, listToJSON_plain hL items hitems⟩

end

end

end Fluxbee.Workflow
