
/-! JSON values. An object is the list of its fields in key order; a number is its text. -/
namespace Fluxbee

inductive Json where
  | null
  | bool (value : Bool)
  | num (text : String)
  | str (text : String)
  | arr (items : List Json)
  | obj (fields : List (String × Json))

namespace Json

mutual

def decEq : (a b : Json) → Decidable (a = b)
  | .null, .null => isTrue rfl
  | .bool a, .bool b => decidable_of_iff (a = b) (by simp)
  | .num a, .num b => decidable_of_iff (a = b) (by simp)
  | .str a, .str b => decidable_of_iff (a = b) (by simp)
  | .arr a, .arr b => @decidable_of_iff _ (a = b) (by simp) (decEqItems a b)
  | .obj a, .obj b => @decidable_of_iff _ (a = b) (by simp) (decEqFields a b)
  | .null, .bool _ | .null, .num _ | .null, .str _ | .null, .arr _ | .null, .obj _
  | .bool _, .null | .bool _, .num _ | .bool _, .str _ | .bool _, .arr _ | .bool _, .obj _
  | .num _, .null | .num _, .bool _ | .num _, .str _ | .num _, .arr _ | .num _, .obj _
  | .str _, .null | .str _, .bool _ | .str _, .num _ | .str _, .arr _ | .str _, .obj _
  | .arr _, .null | .arr _, .bool _ | .arr _, .num _ | .arr _, .str _ | .arr _, .obj _
  | .obj _, .null | .obj _, .bool _ | .obj _, .num _ | .obj _, .str _ | .obj _, .arr _ =>
    isFalse nofun

def decEqItems : (a b : List Json) → Decidable (a = b)
  | [], [] => isTrue rfl
  | [], _ :: _ | _ :: _, [] => isFalse nofun
  | a :: as, b :: bs =>
    @decidable_of_iff _ (a = b ∧ as = bs) (by simp)
      (@instDecidableAnd _ _ (decEq a b) (decEqItems as bs))

def decEqFields : (a b : List (String × Json)) → Decidable (a = b)
  | [], [] => isTrue rfl
  | [], _ :: _ | _ :: _, [] => isFalse nofun
  | (k, a) :: as, (l, b) :: bs =>
    @decidable_of_iff _ (k = l ∧ a = b ∧ as = bs) (by simp [and_assoc])
      (@instDecidableAnd _ _ _ (@instDecidableAnd _ _ (decEq a b) (decEqFields as bs)))

end

instance : DecidableEq Json := decEq

def get (key : String) : Json → Option Json
  | .obj fields => fields.lookup key
  | _ => none

def asStr : Json → Option String
  | .str text => some text
  | _ => none

def asArray : Json → Option (List Json)
  | .arr items => some items
  | _ => none

def setField {V : Type} (key : String) (value : V) : List (String × V) → List (String × V)
  | [] => [(key, value)]
  | (k, v) :: rest =>
    if key = k then (k, value) :: rest
    else if key < k then (key, value) :: (k, v) :: rest
    else (k, v) :: setField key value rest

end Json
end Fluxbee
