import Fluxbee.Lib.Text

/-! The names of nodes, `role@hive`, and the patterns that routes match them with. -/
namespace Fluxbee.Router
open Text List Option

def primaryHiveId : String := "motherbee"

section
variable (name : String)

def extractHive : Option String := (splitOnce '@' name).map Prod.snd

def roleOf : String := ((splitOnce '@' name).map Prod.fst).getD name

/-- `role@hive` with neither part empty. -/
def nodeIsOnHive (name hive : String) : Bool :=
  hive != "" &&
    match splitOnce '@' name with
    | some (role, nameHive) => role != "" && nameHive == hive
    | none => false

def isSystemNode : Bool := startsWith name "SY." || startsWith name "RT."

def isEdgeNode : Bool := roleOf name == "SY.edge"

def isIoNode : Bool := startsWith (roleOf name) "IO."

def isVaultNode : Bool := roleOf name == "SY.vault"

def canonicalWanSrcName (name bucketHive : String) : String :=
  trim (roleOf name) ++ "@" ++ bucketHive

theorem roleOf_no_at : '@' ∉ (roleOf name).toList := by
  unfold roleOf
  cases hsplit : splitOnce '@' name with
  | some parts => exact (splitOnce_eq_some hsplit).1
  | none => exact splitOnce_eq_none.mp hsplit

end

theorem extractHive_canonicalWanSrcName (name bucketHive : String) :
    extractHive (canonicalWanSrcName name bucketHive) = some bucketHive := by
  have hrole : '@' ∉ (trim (roleOf name)).toList := fun h => roleOf_no_at name (mem_of_mem_trim h)
  have hsplit := splitOnce_append hrole bucketHive
  rw [extractHive, canonicalWanSrcName]
  exact congrArg (Option.map Prod.snd) hsplit

def matchExact : UInt8 := 0
def matchPrefix : UInt8 := 1
def matchGlob : UInt8 := 2

def star : UInt8 := 42

/-- The loop of `wildcard_match` over what is left of both texts. After a `*` it keeps the pattern
that follows it and the text from where that pattern was last tried. -/
def wildcardLoop (pattern text : List UInt8) (retry : Option (List UInt8 × List UInt8))
    (h : ∀ r ∈ retry, text.length ≤ r.2.length) : Bool :=
  match text with
  | [] => pattern.all (· == star)
  | b :: rest =>
    if pattern.head? = some b then
      wildcardLoop pattern.tail rest retry fun r hr => (Nat.le_succ _).trans (h r hr)
    else if pattern.head? = some star then
      wildcardLoop pattern.tail (b :: rest) (some (pattern.tail, b :: rest)) fun r hr =>
        Option.some.inj hr ▸ le_rfl
    else match retry with
      | some (after, tried) =>
        wildcardLoop after tried.tail (some (after, tried.tail)) fun r hr =>
          Option.some.inj hr ▸ le_rfl
      | none => false
termination_by ((retry.map fun r => r.2.length).getD (text.length + 1), pattern.length + text.length)
decreasing_by
  · cases retry with
    | none => exact Prod.Lex.left _ _ (Nat.lt_succ_self _)
    | some r =>
      refine Prod.Lex.right _ ?_
      rw [length_tail, length_cons]
      omega
  · have hpos : 0 < pattern.length := by
      cases pattern with
      | nil => simp_all
      | cons c more => simp
    cases retry with
    | none => exact Prod.Lex.left _ _ (Nat.lt_succ_self _)
    | some r =>
      rcases Nat.lt_or_eq_of_le (h r rfl) with hlt | heq
      · exact Prod.Lex.left _ _ hlt
      · simp only [map_some, getD_some, heq]
        refine Prod.Lex.right _ ?_
        rw [length_tail]
        omega
  · have htried : (b :: rest).length ≤ tried.length := h (after, tried) rfl
    refine Prod.Lex.left _ _ ?_
    simp only [map_some, getD_some, length_tail]
    rw [length_cons] at htried
    omega

def wildcardMatch (pattern text : List UInt8) : Bool :=
  wildcardLoop pattern text none fun _ hr => nomatch hr

def patternMatch (pattern name : String) : Bool :=
  if '*' ∈ pattern.toList then wildcardMatch (asBytes pattern) (asBytes name) else pattern == name

/-- The reversed text without the `.*` at its end, however many there are. -/
def dropDotStars : List Char → List Char
  | '*' :: '.' :: rest => dropDotStars rest
  | cs => cs

def trimDotStars (pattern : String) : String :=
  String.ofList (dropDotStars pattern.toList.reverse).reverse

def patternMatchKind (matchKind : UInt8) (pattern name : String) : Bool :=
  if matchKind = matchExact then pattern == name
  else if matchKind = matchPrefix then startsWith name (trimDotStars pattern)
  else if matchKind = matchGlob then wildcardMatch (asBytes pattern) (asBytes name)
  else false

/-- Whether a route that `advertisedBy` put in its LSA applies to `target`. -/
def lsaRouteApplies (advertisedBy target : String) : Bool :=
  (stripBack "@*" target).isSome || nodeIsOnHive target advertisedBy

def matchAnyHive (base fullName : String) : Bool :=
  match splitOnce '@' fullName with
  | none => false
  | some (nameBase, _) =>
    if '*' ∈ base.toList then wildcardMatch (asBytes base) (asBytes nameBase) else nameBase == base

end Fluxbee.Router
