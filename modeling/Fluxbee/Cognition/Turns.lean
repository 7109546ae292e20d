import Fluxbee.Lib.RecentWindow
import Fluxbee.Lib.Text
import Mathlib.Algebra.Order.BigOperators.Group.List
import Mathlib.Algebra.Order.Group.Nat

/-! The last turns of a communication (`sy_cognition.rs`): how the intake holds a turn, the two
bounds on what is held, and how the worker's result is merged back. -/
namespace Fluxbee.Cognition
open Text RecentWindow List

structure MemoryTurnParty where
  ilk : Option String := none
  name : Option String := none
  kind : Option String := none
  deriving DecidableEq

structure MemoryTurnChoice where
  (option params : String)
  deriving DecidableEq

/-- `In` when the agent received the turn, `Out` when it sent it. -/
inductive MemoryTurnDirection
  | received
  | sent
  deriving DecidableEq

structure MemoryTurn where
  direction : MemoryTurnDirection
  srcIlk : Option String := none
  via : Option String := none
  writer : Option MemoryTurnParty := none
  toParty : Option MemoryTurnParty := none
  toVia : Option String := none
  text : String
  attachments : ℕ := 0
  choice : Option MemoryTurnChoice := none
  ts : String
  deriving DecidableEq

structure CommunicationKey where
  (threadId agentIlk : String)
  deriving DecidableEq

structure RecentTurn where
  key : CommunicationKey
  (turnKey agentNode : String)
  (srcIlk dstIlk ich : Option String)
  turn : MemoryTurn

/-- What the intake writes of a communication. -/
structure IntakeState where
  agentNode : String := ""
  srcIlk : Option String := none
  dstIlk : Option String := none
  ich : Option String := none
  turns : List MemoryTurn := []
  turnKeys : List String := []
  deriving DecidableEq

/-- A communication as it is held: what the intake writes, and the worker's derivations. -/
structure ThreadCognitionState (R : Type) extends IntakeState where
  derived : R
  deriving DecidableEq

/-- The time a turn's text gives (the epoch where it gives none), and the bytes of a turn as JSON
with one more for its comma. -/
structure Format where
  epochMs : String → ℤ
  size : MemoryTurn → ℕ

def cognitionRecentTurns : ℕ := 20

def cognitionRecentTurnsMaxBytes : ℕ := 48 * 1024

section
variable (fmt : Format)

def Format.time (turn : MemoryTurn) : ℤ := fmt.epochMs turn.ts

section
variable (turns : List MemoryTurn)

def Format.bytes : ℕ := (turns.map fmt.size).sum

/-- The loop of `bound_recent_turns`: the oldest goes while the bytes are too many and it is not
the only one. -/
def dropOldest : List MemoryTurn → List MemoryTurn
  | [] => []
  | [turn] => [turn]
  | oldest :: next :: rest =>
    if cognitionRecentTurnsMaxBytes < fmt.bytes (oldest :: next :: rest) then
      dropOldest (next :: rest)
    else oldest :: next :: rest

def boundRecentTurns : List MemoryTurn :=
  dropOldest fmt (turns.drop (turns.length - cognitionRecentTurns))

def pushRecentTurn (turn : MemoryTurn) : List MemoryTurn :=
  if turn ∈ turns then turns
  else boundRecentTurns fmt (inTimeOrder fmt.time (turns ++ [turn]))

/-- Where a relay went is left out: the intake may clear it. -/
def sameTurn (a b : MemoryTurn) : Bool :=
  a.ts = b.ts && a.direction = b.direction && a.srcIlk = b.srcIlk && a.via = b.via &&
    a.writer = b.writer && a.text = b.text && a.attachments = b.attachments && a.choice = b.choice

def addMissing (merged worker : List MemoryTurn) : List MemoryTurn :=
  worker.foldl (fun merged turn => if merged.any (sameTurn · turn) then merged
    else merged ++ [turn]) merged

def mergeRecentTurns (worker held : List MemoryTurn) : List MemoryTurn :=
  boundRecentTurns fmt (inTimeOrder fmt.time (addMissing held worker))

def clearRelay (copy : MemoryTurn) : List MemoryTurn → List MemoryTurn
  | [] => []
  | turn :: rest =>
    if turn.direction = .received && turn.toVia.isSome && turn.writer = copy.writer &&
        turn.via = copy.via && turn.text = copy.text then
      { turn with toParty := none, toVia := none } :: rest
    else turn :: clearRelay copy rest

/-- The latest relay the agent's own copy comes after no longer names where else it went. -/
def saidToTheAgentToo (copy : MemoryTurn) : List MemoryTurn :=
  if copy.direction ≠ .received then turns else (clearRelay copy turns.reverse).reverse

end

section
variable (held : IntakeState) (recent : RecentTurn)

def echoesOwnAnswer : Bool :=
  recent.turn.direction = .received &&
    (recent.turn.writer.bind (·.ilk)).any (fun ilk => eqIgnoreAsciiCase (trim ilk) recent.key.agentIlk) &&
    held.turns.any fun turn => turn.direction = .sent && turn.text = recent.turn.text

def isDuplicate : Bool :=
  recent.turnKey ∈ held.turnKeys || echoesOwnAnswer held recent

def holdDuplicate : IntakeState :=
  if recent.turn.toVia.isNone then
    { held with turns := saidToTheAgentToo held.turns recent.turn }
  else held

def keepKeys (keys : List String) : List String := keys.drop (keys.length - 2 * cognitionRecentTurns)

def holdNew : IntakeState where
  agentNode := if recent.agentNode.isEmpty then held.agentNode else recent.agentNode
  srcIlk := recent.srcIlk
  dstIlk := recent.dstIlk
  ich := recent.ich
  turns := pushRecentTurn fmt held.turns recent.turn
  turnKeys := keepKeys (held.turnKeys ++ [recent.turnKey])

def holdRecentTurn : IntakeState :=
  if isDuplicate held recent then holdDuplicate held recent else holdNew fmt held recent

end

/-- The worker's copy of a communication for a turn through `agentNode`. -/
def copyForTurn {R : Type} (held : ThreadCognitionState R) (agentNode : String) :
    ThreadCognitionState R :=
  if agentNode.isEmpty then held else { held with agentNode }

def writeBackTurn {R : Type} (held updated : ThreadCognitionState R) : ThreadCognitionState R :=
  { updated with
    turns := mergeRecentTurns fmt updated.turns held.turns
    turnKeys := held.turnKeys
    srcIlk := held.srcIlk
    dstIlk := held.dstIlk
    ich := held.ich }

end

section
variable {fmt : Format} {turns turns' : List MemoryTurn}

/-- The count bound and the byte bound; one turn alone stays whatever its size. -/
def Fits (fmt : Format) (turns : List MemoryTurn) : Prop :=
  turns.length ≤ cognitionRecentTurns ∧
    (turns.length ≤ 1 ∨ fmt.bytes turns ≤ cognitionRecentTurnsMaxBytes)

instance : DecidablePred (Fits fmt) := fun turns =>
  inferInstanceAs (Decidable (turns.length ≤ cognitionRecentTurns ∧
    (turns.length ≤ 1 ∨ fmt.bytes turns ≤ cognitionRecentTurnsMaxBytes)))

theorem fits_nil : Fits fmt [] := ⟨Nat.zero_le _, .inl (Nat.zero_le _)⟩

theorem Format.bytes_le_of_sublist (h : turns.Sublist turns') : fmt.bytes turns ≤ fmt.bytes turns' :=
  (h.map fmt.size).sum_le_sum fun _ _ => Nat.zero_le _

theorem Fits.of_sublist (turns turns' : List MemoryTurn) (hsub : turns.Sublist turns')
    (h : Fits fmt turns') : Fits fmt turns := by
  obtain ⟨hcount, hbytes⟩ := h
  have hlen := hsub.length_le
  constructor
  · omega
  · rcases hbytes with hone | hbytes
    · left; omega
    · right; exact (Format.bytes_le_of_sublist hsub).trans hbytes

theorem dropOldest_eq (h : turns.length ≤ cognitionRecentTurns) :
    dropOldest fmt turns = lastFitting (Fits fmt) turns := by
  fun_induction dropOldest fmt turns with
  | case1 => rfl
  | case2 turn => exact (lastFitting_eq_self ⟨h, .inl le_rfl⟩).symm
  | case3 oldest next rest hbytes ih =>
    have hout : ¬ Fits fmt (oldest :: next :: rest) := by
      rintro ⟨-, hone | hfit⟩
      · simp at hone
      · omega
    rw [lastFitting, if_neg hout]
    exact ih ((Nat.le_succ _).trans h)
  | case4 oldest next rest hbytes =>
    exact (lastFitting_eq_self ⟨h, .inr (by omega)⟩).symm

theorem boundRecentTurns_eq : boundRecentTurns fmt turns = lastFitting (Fits fmt) turns := by
  have hlen : (turns.drop (turns.length - cognitionRecentTurns)).length ≤ cognitionRecentTurns := by
    rw [length_drop]
    omega
  have hsplit := take_append_drop (turns.length - cognitionRecentTurns) turns
  rw [boundRecentTurns, dropOldest_eq hlen]
  conv_rhs => rw [← hsplit]
  refine (lastFitting_append Fits.of_sublist fun y hy hfits => ?_).symm
  -- something was cut, so what is left is full by count
  have hmem := mem_of_getLast? hy
  have hcut : turns.length - cognitionRecentTurns ≠ 0 := by
    intro h0
    rw [h0, take_zero] at hmem
    cases hmem
  have hcount := hfits.1
  rw [length_cons, length_drop] at hcount
  omega

end

section
variable {fmt : Format} {held worker : List MemoryTurn}

/-- The turns of the worker's copy that the held ones lack, each once. -/
def missing (held worker : List MemoryTurn) : List MemoryTurn :=
  (addMissing held worker).drop held.length

theorem addMissing_eq : addMissing held worker = held ++ missing held worker := by
  have hfront : held <+: addMissing held worker := by
    unfold addMissing
    generalize hm : held = merged
    conv_lhs => rw [← hm]
    have hpre : held <+: merged := hm ▸ prefix_rfl
    clear hm
    induction worker generalizing merged with
    | nil => exact hpre
    | cons turn worker ih =>
      rw [foldl_cons]
      apply ih
      split_ifs
      · exact hpre
      · exact hpre.trans (prefix_append ..)
  obtain ⟨rest, hrest⟩ := hfront
  rw [missing, ← hrest, drop_left]

/-- Nothing of a worker's copy comes back: what the held turns lack of it is older than all of them,
and the newest of it does not fit beside them. -/
def StaysOut (fmt : Format) (held worker : List MemoryTurn) : Prop :=
  (∀ turn ∈ missing held worker, ∀ kept ∈ held, fmt.time turn < fmt.time kept) ∧
    ∀ newest ∈ (inTimeOrder fmt.time (missing held worker)).getLast?, ¬ Fits fmt (newest :: held)

theorem mergeRecentTurns_eq (hsorted : held.Pairwise fun a b => fmt.time a ≤ fmt.time b)
    (hfits : Fits fmt held) (hout : StaysOut fmt held worker) :
    mergeRecentTurns fmt worker held = held := by
  rw [mergeRecentTurns, boundRecentTurns_eq, addMissing_eq]
  exact lastFitting_inTimeOrder_append Fits.of_sublist hsorted hfits hout.1 hout.2

end

end Fluxbee.Cognition
