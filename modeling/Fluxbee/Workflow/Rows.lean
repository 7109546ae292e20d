import Fluxbee.Workflow.Values

/-! Definitions, an instance and its row: what serializing an instance and restoring it keeps. -/
namespace Fluxbee.Workflow
open Json Text Value List

/-- A definition, of which an instance reads where it starts. -/
structure WorkflowDefinition where
  initialState : String

/-- A message, without what the engine only passes on. -/
structure Message where
  srcL2Name : Option String := none
  traceId : String := ""
  msgType : String := "user"
  msg : Option String := none
  threadId : Option String := none
  srcIlk : Option String := none
  ich : Option String := none
  payload : String := ""

inductive Status where
  | running
  | completed
  | cancelled
  | failed

structure KeptMessageRow where
  (instanceId name : String)
  message : Message
  keptAtMs : ℤ

variable {F : Type}

structure WFInstance (F : Type) where
  (instanceId threadId workflowType definitionHash : String)
  definition : WorkflowDefinition
  status : Status := .running
  currentState : String
  input : List (String × Value F)
  stateVars : List (String × Value F) := []
  currentTraceId : String := ""
  (createdAtMs updatedAtMs : ℤ)
  terminatedAtMs : Option ℤ := none
  personIlk : String := ""
  personIch : String := ""
  personIo : String := ""
  kept : List KeptMessageRow := []

structure WFInstanceRow where
  (instanceId threadId workflowType definitionHash : String)
  status : Status
  (currentState inputJson stateJson currentTraceId : String)
  (createdAtMs updatedAtMs : ℤ)
  terminatedAtMs : Option ℤ
  (personIlk personIch personIo : String)

def newInstance (definition : WorkflowDefinition)
    (instanceId threadId workflowType definitionHash : String) (input : List (String × Value F))
    (now : ℤ) : WFInstance F where
  instanceId := instanceId
  threadId := threadId
  workflowType := workflowType
  definitionHash := definitionHash
  definition := definition
  currentState := definition.initialState
  input := input
  createdAtMs := now
  updatedAtMs := now

section
variable (L : Library F)

def marshalJSON (fields : List (String × Value F)) : Except String String :=
  encodeJSON L (.map fields)

def unmarshalJSON (text : String) : Except String (List (String × Value F)) :=
  if text = "" ∨ text = "\x7b\x7d" then .ok [] else decodeJSONObject L text

def fromRow (row : WFInstanceRow) (definition : WorkflowDefinition) (kept : List KeptMessageRow) :
    Except String (WFInstance F) :=
  match unmarshalJSON L row.inputJson with
  | .error err => .error s!"instance {row.instanceId}: bad input_json: {err}"
  | .ok input =>
    match unmarshalJSON L row.stateJson with
    | .error err => .error s!"instance {row.instanceId}: bad state_json: {err}"
    | .ok stateVars => .ok
      { instanceId := row.instanceId
        threadId := row.threadId
        workflowType := row.workflowType
        definitionHash := row.definitionHash
        definition := definition
        status := row.status
        currentState := row.currentState
        input := input
        stateVars := stateVars
        currentTraceId := row.currentTraceId
        createdAtMs := row.createdAtMs
        updatedAtMs := row.updatedAtMs
        terminatedAtMs := row.terminatedAtMs
        personIlk := row.personIlk
        personIch := row.personIch
        personIo := row.personIo
        kept := kept }

def WFInstance.toRow (inst : WFInstance F) (now : ℤ) : Except String WFInstanceRow :=
  match marshalJSON L inst.input with
  | .error err => .error err
  | .ok inputJson =>
    match marshalJSON L inst.stateVars with
    | .error err => .error err
    | .ok stateJson => .ok
      { instanceId := inst.instanceId
        threadId := inst.threadId
        workflowType := inst.workflowType
        definitionHash := inst.definitionHash
        status := inst.status
        currentState := inst.currentState
        inputJson := inputJson
        stateJson := stateJson
        currentTraceId := inst.currentTraceId
        createdAtMs := inst.createdAtMs
        updatedAtMs := now
        terminatedAtMs := inst.terminatedAtMs
        personIlk := inst.personIlk
        personIch := inst.personIch
        personIo := inst.personIo }

/-- The input a message starts an instance with: its payload, a JSON object or none, that the
definition's input schema takes. -/
def creationInput (validateInputPayload : List (String × Value F) → Except String Unit)
    (payload : String) : Except String (List (String × Value F)) :=
  let check (input : List (String × Value F)) : Except String (List (String × Value F)) :=
    (validateInputPayload input).map fun _ => input
  if trim payload = "" ∨ trim payload = "null" then check []
  else
    match decodeJSONObject L (trim payload) with
    | .error _ => .error "payload is not a JSON object"
    | .ok input => check input

/-- A set_variable: `evalValue` compiles its expression and evaluates it on the input, the state and
the event. -/
def execSetVariable (name : String) (value : Option String)
    (evalValue : String → List (String × Value F) → List (String × Value F) →
      Except String (Cel F)) (inst : WFInstance F) : Except String (WFInstance F) :=
  if trim (value.getD "") = "" then
    .error s!"set_variable {L.quoted name}: value must be a non-empty string"
  else
    match evalValue (value.getD "") inst.input inst.stateVars with
    | .error err => .error s!"set_variable {L.quoted name}: {err}"
    | .ok cel =>
      match valueToJSON L cel with
      | .error err => .error s!"set_variable {L.quoted name}: {err}"
      | .ok v => .ok { inst with stateVars := setField name v inst.stateVars }

end

variable {fields : List (String × Value F)}

section
variable {L : Library F}

/-- Input and state as the engine makes them. -/
structure WFInstance.Plain (L : Library F) (inst : WFInstance F) : Prop where
  input : (Value.map inst.input).Plain L
  shallow : (Value.map inst.input).depth ≤ maxNestingDepth
  state : (Value.map inst.stateVars).Plain L

theorem plain_empty : (map [] : Value F).Plain L := ⟨by simp [Sorted], trivial⟩

theorem decodeJSONObject_ok {data : String} :
    decodeJSONObject L data = .ok fields ↔ decodeJSON L data = .ok (.map fields) := by
  unfold decodeJSONObject
  cases hdecode : decodeJSON L data with
  | error err => simp
  | ok v => cases v <;> simp

theorem creationInput_plain (hL : L.Exact)
    {validate : List (String × Value F) → Except String Unit} {payload : String}
    {input : List (String × Value F)} (h : creationInput L validate payload = .ok input) :
    (map input).Plain L ∧ (map input).depth ≤ maxNestingDepth := by
  have hcheck : ∀ {fields : List (String × Value F)},
      (validate fields).map (fun _ => fields) = .ok input → fields = input := by
    intro fields hfields
    cases hv : validate fields with
    | error err =>
      rw [hv] at hfields
      cases hfields
    | ok u =>
      rw [hv] at hfields
      cases hfields
      rfl
  unfold creationInput at h
  split_ifs at h with hempty
  · rw [← hcheck h]
    exact ⟨plain_empty, Nat.succ_le_succ (Nat.zero_le _)⟩
  · cases hdecode : decodeJSONObject L (trim payload) with
    | error err => simp [hdecode] at h
    | ok fields =>
      simp only [hdecode] at h
      rw [← hcheck h]
      exact decodeJSON_plain hL (decodeJSONObject_ok.mp hdecode)

theorem execSetVariable_plain (hL : L.Exact) {name : String} {value : Option String}
    {evalValue : String → List (String × Value F) → List (String × Value F) →
      Except String (Cel F)} {inst inst' : WFInstance F} (hinst : inst.Plain L)
    (h : execSetVariable L name value evalValue inst = .ok inst') : inst'.Plain L := by
  unfold execSetVariable at h
  split_ifs at h with hblank
  cases heval : evalValue (value.getD "") inst.input inst.stateVars with
  | error err => simp [heval] at h
  | ok cel =>
    simp only [heval] at h
    cases hv : valueToJSON L cel with
    | error err => simp [hv] at h
    | ok v =>
      simp only [hv] at h
      cases h
      refine ⟨hinst.input, hinst.shallow, hinst.state.1.setField, ?_⟩
      have hfields := plainFields_iff.mp hinst.state.2
      refine plainFields_iff.mpr fun field hfield => ?_
      rcases mem_setField hfield with rfl | hfield
      · exact valueToJSON_plain hL cel hv
      · exact hfields field hfield

theorem marshalJSON_ne_empty {text : String} (h : marshalJSON L fields = .ok text) : text ≠ "" := by
  unfold marshalJSON encodeJSON at h
  rw [keepDoubles] at h
  cases hkeep : keepFields L fields with
  | error err =>
    rw [hkeep] at h
    cases h
  | ok js =>
    rw [hkeep] at h
    cases h
    simp [Json.render]

theorem decodeJSON_braces : decodeJSON L "\x7b\x7d" = .ok (.map []) := by
  have hread : value maxNestingDepth "\x7b\x7d".toList = some (.obj [], []) :=
    value_open_object 9999 ['\x7d']
  unfold decodeJSON
  rw [hread]
  rfl

/-- A stored map is restored when it is not nested past the decoder's limit, and refused when it
is. -/
theorem unmarshalJSON_marshalJSON (hL : L.Exact) (h : (map fields).Plain L) :
    ∃ text, marshalJSON L fields = .ok text ∧ unmarshalJSON L text =
      if (map fields).depth ≤ maxNestingDepth then .ok fields
      else .error (L.decodeError text) := by
  obtain ⟨text, hencode, hdecode⟩ := decodeJSON_encodeJSON hL h
  refine ⟨text, hencode, ?_⟩
  unfold unmarshalJSON
  by_cases hbraces : text = "\x7b\x7d"
  · subst hbraces
    rw [decodeJSON_braces] at hdecode
    rw [if_pos (.inr rfl)]
    split_ifs at hdecode ⊢
    cases hdecode
    rfl
  · rw [if_neg (not_or.mpr ⟨marshalJSON_ne_empty hencode, hbraces⟩), decodeJSONObject, hdecode]
    split_ifs <;> rfl

variable {inst : WFInstance F}

/-- An instance is restored from its row when its state is not nested past the decoder's limit, and
refused when it is. -/
theorem fromRow_toRow (hL : L.Exact) (h : inst.Plain L) (now : ℤ) (definition : WorkflowDefinition)
    (kept : List KeptMessageRow) :
    ∃ row, inst.toRow L now = .ok row ∧
      if (map inst.stateVars).depth ≤ maxNestingDepth then
        fromRow L row definition kept = .ok { inst with
          definition := definition, updatedAtMs := now, kept := kept }
      else
        fromRow L row definition kept =
          .error s!"instance {inst.instanceId}: bad state_json: {L.decodeError row.stateJson}" := by
  obtain ⟨inputJson, hinput, hinputBack⟩ := unmarshalJSON_marshalJSON hL h.input
  obtain ⟨stateJson, hstate, hstateBack⟩ := unmarshalJSON_marshalJSON hL h.state
  rw [if_pos h.shallow] at hinputBack
  refine ⟨_, by simp only [WFInstance.toRow, hinput, hstate]; rfl, ?_⟩
  split_ifs at hstateBack ⊢
  · simp only [fromRow, hinputBack, hstateBack]
  · simp only [fromRow, hinputBack, hstateBack]

structure SetVariable (F : Type) where
  name : String
  value : Option String
  evalValue : String → List (String × Value F) → List (String × Value F) → Except String (Cel F)

/-- Runs set_variables one after another; one that fails leaves the instance as it was. -/
def WFInstance.setVariables (L : Library F) (inst : WFInstance F) (sets : List (SetVariable F)) :
    WFInstance F :=
  sets.foldl (fun inst set =>
    match execSetVariable L set.name set.value set.evalValue inst with
    | .ok inst' => inst'
    | .error _ => inst) inst

theorem WFInstance.Plain.setVariables (hL : L.Exact) (h : inst.Plain L)
    (sets : List (SetVariable F)) : (inst.setVariables L sets).Plain L := by
  induction sets generalizing inst with
  | nil => exact h
  | cons set sets ih =>
    apply ih
    dsimp only
    cases hset : execSetVariable L set.name set.value set.evalValue inst with
    | error err => exact h
    | ok inst' => exact execSetVariable_plain hL h hset

/-- Restoring the row gives the instance's input and state variables back. -/
def Restores (L : Library F) (row : WFInstanceRow) (inst : WFInstance F)
    (definition : WorkflowDefinition) (kept : List KeptMessageRow) : Prop :=
  ∃ inst', fromRow L row definition kept = .ok inst' ∧ inst'.input = inst.input ∧
    inst'.stateVars = inst.stateVars

theorem restores_iff (hL : L.Exact) (h : inst.Plain L) (now : ℤ) (definition : WorkflowDefinition)
    (kept : List KeptMessageRow) :
    ∃ row, inst.toRow L now = .ok row ∧ (Restores L row inst definition kept ↔
      ∀ field ∈ inst.stateVars, field.2.depth < maxNestingDepth) := by
  obtain ⟨row, hrow, hback⟩ := fromRow_toRow hL h now definition kept
  refine ⟨row, hrow, ?_⟩
  have hdepth : (map inst.stateVars).depth ≤ maxNestingDepth ↔
      ∀ field ∈ inst.stateVars, field.2.depth < maxNestingDepth := by
    rw [Value.depth, Nat.succ_le_iff, maxNestingDepth, Nat.lt_succ_iff, Value.depthFields_le_iff]
    simp only [Nat.lt_succ_iff]
  rw [← hdepth]
  split_ifs at hback with hshallow
  · refine iff_of_true ⟨_, hback, rfl, rfl⟩ hshallow
  · refine iff_of_false ?_ hshallow
    rintro ⟨inst', hok, -⟩
    rw [hback] at hok
    cases hok

/-- Values are read back as they were written, and an instance restored as it was stored, exactly
when they are not nested past what the decoder takes. -/
theorem restored_iff_shallow (hL : L.Exact) :
    (∀ v : Value F, v.Plain L → ∃ text, encodeJSON L v = .ok text ∧
      (decodeJSON L text = .ok v ↔ v.depth ≤ maxNestingDepth)) ∧
    ∀ (validate : List (String × Value F) → Except String Unit) (payload : String)
      (inst : WFInstance F), creationInput L validate payload = .ok inst.input →
      inst.stateVars = [] → ∀ (sets : List (SetVariable F)) (now : ℤ)
      (definition : WorkflowDefinition) (kept : List KeptMessageRow),
      ∃ row, (inst.setVariables L sets).toRow L now = .ok row ∧
        (Restores L row (inst.setVariables L sets) definition kept ↔
          ∀ field ∈ (inst.setVariables L sets).stateVars, field.2.depth < maxNestingDepth) := by
  constructor
  · intro v hv
    obtain ⟨text, hencode, hdecode⟩ := decodeJSON_encodeJSON hL hv
    refine ⟨text, hencode, ?_⟩
    rw [hdecode]
    split_ifs with hdepth
    · exact iff_of_true rfl hdepth
    · exact iff_of_false nofun hdepth
  · intro validate payload inst hinput hstate sets now definition kept
    obtain ⟨hplain, hshallow⟩ := creationInput_plain hL hinput
    have hinst : inst.Plain L := ⟨hplain, hshallow, by rw [hstate]; exact plain_empty⟩
    exact restores_iff hL (hinst.setVariables hL sets) now definition kept

end

namespace Sample

inductive Number where
  | negativeZero
  | half
  | seven
  | huge
  | infinity
deriving DecidableEq

def exponent (sign : Char) (digits : List Char) : Exponent := ⟨'e', some sign, digits⟩

def fixed : Number → Literal
  | .negativeZero => ⟨true, ['0'], none, none⟩
  | .half => ⟨false, ['0'], some ['5'], none⟩
  | .seven => ⟨false, ['7'], none, none⟩
  | .huge | .infinity => ⟨false, '1' :: List.replicate 21 '0', none, none⟩

def scientific : Number → Literal
  | .negativeZero => ⟨true, ['0'], none, some (exponent '+' ['0', '0'])⟩
  | .half => ⟨false, ['5'], none, some (exponent '-' ['0', '1'])⟩
  | .seven => ⟨false, ['7'], none, some (exponent '+' ['0', '0'])⟩
  | .huge | .infinity => ⟨false, ['1'], none, some (exponent '+' ['2', '1'])⟩

def library : Library Number where
  nearest negative q :=
    if negative = true ∧ q = 0 then some .negativeZero
    else if negative = false ∧ q = 1 / 2 then some .half
    else if negative = false ∧ q = 7 then some .seven
    else if negative = false ∧ q = 10 ^ 21 then some .huge
    else none
  magnitude
    | .negativeZero => some 0
    | .half => some (1 / 2)
    | .seven => some 7
    | .huge => some (10 ^ 21)
    | .infinity => none
  verb
    | .infinity => "+Inf"
    | f => String.ofList (fixed f).text
  fixed f := String.ofList (fixed f).text
  scientific f := String.ofList (scientific f).text
  ofNat _ := .huge
  decodeError _ := "exceeded max depth"
  quoted text := "\"" ++ text ++ "\""

theorem digits_zeros (n : ℕ) : Digits ('1' :: replicate n '0') := by
  refine ⟨by simp, fun c hc => ?_⟩
  rcases mem_cons.mp hc with rfl | hc
  · rfl
  · rw [eq_of_mem_replicate hc]
    rfl

theorem digits_of_all {ds : List Char} (hne : ds ≠ []) (hall : ds.all Char.isDigit = true) :
    Digits ds :=
  ⟨hne, all_eq_true.mp hall⟩

theorem fixed_valid (f : Number) : (fixed f).Valid := by
  cases f with
  | huge | infinity => exact ⟨digits_zeros 21, nofun, nofun, nofun⟩
  | half =>
    refine ⟨digits_of_all (by decide) rfl, fun _ => rfl, fun ds hds => ?_, nofun⟩
    cases hds
    exact digits_of_all (by decide) rfl
  | negativeZero => exact ⟨digits_of_all (by decide) rfl, fun _ => rfl, nofun, nofun⟩
  | seven => exact ⟨digits_of_all (by decide) rfl, nofun, nofun, nofun⟩

theorem scientific_valid (f : Number) : (scientific f).Valid := by
  cases f
  all_goals
    refine ⟨digits_of_all (by decide) rfl, by decide, nofun, fun e he => ?_⟩
    cases he
    exact ⟨by decide, by decide, digits_of_all (by decide) rfl⟩

theorem exact : library.Exact where
  fixed f hf := by
    refine ⟨fixed f, fixed_valid f, rfl, ?_⟩
    cases f
    · decide +kernel
    · decide +kernel
    · decide +kernel
    · decide +kernel
    · cases hf
  scientific f hf := by
    refine ⟨scientific f, scientific_valid f, rfl, ?_⟩
    cases f
    · decide +kernel
    · decide +kernel
    · decide +kernel
    · decide +kernel
    · cases hf
  nearest negative q f h := by
    simp only [library] at h
    split_ifs at h <;> cases h <;> rfl
  ofNat _ _ := rfl

def nested : ℕ → Cel Number
  | 0 => .list []
  | n + 1 => .list [nested n]

def nestedValue : ℕ → Value Number
  | 0 => .list []
  | n + 1 => .list [nestedValue n]

theorem valueToJSON_nested (n : ℕ) : valueToJSON library (nested n) = .ok (nestedValue n) := by
  induction n with
  | zero => rfl
  | succ n ih =>
    rw [nested, valueToJSON, listToJSON, ih]
    rfl

theorem depth_nestedValue (n : ℕ) : (nestedValue n).depth = n + 1 := by
  induction n with
  | zero => rfl
  | succ n ih => rw [nestedValue, Value.depth, Value.depthItems, ih, Value.depthItems, Nat.max_zero]

def set (n : ℕ) : SetVariable Number := ⟨"answer", some "[[event.payload]]", fun _ _ _ => .ok (nested n)⟩

def definition : WorkflowDefinition where
  initialState := "open"

def inst : WFInstance Number := newInstance definition "wfi:1" "thread-1" "support" "h1" [] 0

theorem setVariables_set (n : ℕ) : inst.setVariables library [set n] =
    { inst with stateVars := [("answer", nestedValue n)] } := by
  have hexpr : trim "[[event.payload]]" ≠ "" := by decide +kernel
  simp only [WFInstance.setVariables, foldl, execSetVariable, set, Option.getD_some,
    if_neg hexpr, valueToJSON_nested]
  rfl

theorem inst_plain : inst.Plain library :=
  ⟨plain_empty, Nat.succ_le_succ (Nat.zero_le _), plain_empty⟩

theorem deep_refused (n : ℕ) (h : maxNestingDepth ≤ n + 1) :
    ∃ row, (inst.setVariables library [set n]).toRow library 0 = .ok row ∧
      ∀ definition kept, fromRow library row definition kept =
        .error "instance wfi:1: bad state_json: exceeded max depth" := by
  have hplain := inst_plain.setVariables exact [set n]
  rw [setVariables_set] at hplain ⊢
  have hdeep : ¬(map [("answer", nestedValue n)]).depth ≤ maxNestingDepth := by
    rw [Value.depth, Value.depthFields, depth_nestedValue, Value.depthFields, Nat.max_zero]
    omega
  obtain ⟨row, hrow, -⟩ := fromRow_toRow exact hplain 0 definition []
  refine ⟨row, hrow, fun definition kept => ?_⟩
  obtain ⟨row', hrow', hback⟩ := fromRow_toRow exact hplain 0 definition kept
  rw [if_neg hdeep] at hback
  rw [hrow] at hrow'
  cases hrow'
  exact hback

def each : Value Number :=
  .map [("a", .int 7), ("b", .double .seven),
    ("c", .list [.double .negativeZero, .double .half, .double .huge, .str "7", .null])]

theorem each_plain : each.Plain library := by
  have hkeys : ["a", "b", "c"].Pairwise (· < ·) := by decide +kernel
  exact ⟨hkeys, trivial, rfl, ⟨rfl, rfl, rfl, trivial, trivial, trivial⟩, trivial⟩

end Sample

/-- A value of each kind is read back as it was written. -/
theorem restored_iff_shallow_sample :
    ∃ text, encodeJSON Sample.library Sample.each = .ok text ∧
      decodeJSON Sample.library text = .ok Sample.each := by
  obtain ⟨text, hencode, hdecode⟩ :=
    (restored_iff_shallow Sample.exact).1 Sample.each Sample.each_plain
  refine ⟨text, hencode, hdecode.mpr ?_⟩
  simp [Sample.each, Value.depth, Value.depthFields, Value.depthItems, maxNestingDepth]

/-- A state with a list in a list, ten thousand deep, is stored and never restored. -/
theorem deep_state_not_restored :
    ∃ row, (Sample.inst.setVariables Sample.library [Sample.set 9999]).toRow Sample.library 0 =
        .ok row ∧
      ∀ definition kept, fromRow Sample.library row definition kept =
        .error "instance wfi:1: bad state_json: exceeded max depth" :=
  Sample.deep_refused 9999 le_rfl

end Fluxbee.Workflow
