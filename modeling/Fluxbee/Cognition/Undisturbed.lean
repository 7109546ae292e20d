import Fluxbee.Cognition.Turns
import Fluxbee.Lib.GuardedRun

/-! The intake and the worker on one communication: what the worker's write-backs leave of what the
intake holds, against what the intake alone would hold. -/
namespace Fluxbee.Cognition
open Text RecentWindow GuardedRun List

variable {R : Type}

/-- One communication as the intake and the worker change it. `alone` is what the intake alone would
hold, `taken` the distinct turns it took as they arrived. -/
structure Communication (R : Type) where
  held : ThreadCognitionState R
  copy : Option (ThreadCognitionState R) := none
  alone : IntakeState := {}
  taken : List MemoryTurn := []

/-- The worker copies the communication for a turn through a node of the agent, and writes back
what its derivations make of the copy. -/
inductive Step (R : Type)
  | take (recent : RecentTurn)
  | copy (agentNode : String)
  | writeBack (derive : R → R)

def Communication.taking (s : Communication R) (recent : RecentTurn) : List MemoryTurn :=
  if isDuplicate s.alone recent = true ∨ recent.turn ∈ s.taken then s.taken
  else s.taken ++ [recent.turn]

def Communication.step (fmt : Format) (s : Communication R) : Step R → Communication R
  | .take recent =>
    { s with
      held := { s.held with toIntakeState := holdRecentTurn fmt s.held.toIntakeState recent }
      alone := holdRecentTurn fmt s.alone recent
      taken := s.taking recent }
  | .copy agentNode => { s with copy := some (copyForTurn s.held agentNode) }
  | .writeBack derive =>
    match s.copy with
    | none => s
    | some copy =>
      { s with
        held := writeBackTurn fmt s.held { copy with derived := derive copy.derived }
        copy := none }

def Communication.start (derived : R) : Communication R := { held := { derived } }

/-- The turns are the longest suffix that fits, of those taken in the order of their times, those of
one time as they arrived. -/
structure Latest (fmt : Format) (taken turns : List MemoryTurn) : Prop where
  suffix : turns <:+ inTimeOrder fmt.time taken
  fits : Fits fmt turns
  longest : ∀ other, other <:+ inTimeOrder fmt.time taken → Fits fmt other → other <:+ turns

/-- A turn that is new to the communication and no earlier than any it left out; or one that does
not come in, being older than all the held turns and not fitting beside them. -/
def Arrives (fmt : Format) (taken held : List MemoryTurn) (turn : MemoryTurn) : Prop :=
  turn ∉ taken ∧ (∀ left ∈ taken, left ∉ held → fmt.time left ≤ fmt.time turn) ∨
    (∀ kept ∈ held, fmt.time turn < fmt.time kept) ∧ ¬ Fits fmt (turn :: held)

/-- A duplicate clears no relay mark, a turn not held arrives after those left out or stays out, and
a write-back brings no turn back and carries the agent node that is held. -/
def Undisturbing (fmt : Format) (s : Communication R) : Step R → Prop
  | .take recent =>
    if isDuplicate s.held.toIntakeState recent then
      holdDuplicate s.held.toIntakeState recent = s.held.toIntakeState
    else recent.turn ∉ s.held.turns → Arrives fmt s.taken s.held.turns recent.turn
  | .copy _ => True
  | .writeBack _ => ∀ copy ∈ s.copy,
      copy.agentNode = s.held.agentNode ∧ StaysOut fmt s.held.turns copy.turns

instance (fmt : Format) (held worker : List MemoryTurn) : Decidable (StaysOut fmt held worker) :=
  inferInstanceAs (Decidable ((∀ turn ∈ missing held worker, ∀ kept ∈ held,
      fmt.time turn < fmt.time kept) ∧
    ∀ newest ∈ (inTimeOrder fmt.time (missing held worker)).getLast?, ¬ Fits fmt (newest :: held)))

instance (fmt : Format) (taken held : List MemoryTurn) (turn : MemoryTurn) :
    Decidable (Arrives fmt taken held turn) :=
  inferInstanceAs (Decidable (
    turn ∉ taken ∧ (∀ left ∈ taken, left ∉ held → fmt.time left ≤ fmt.time turn) ∨
      (∀ kept ∈ held, fmt.time turn < fmt.time kept) ∧ ¬ Fits fmt (turn :: held)))

instance (fmt : Format) (s : Communication R) : (e : Step R) → Decidable (Undisturbing fmt s e)
  | .take recent => inferInstanceAs (Decidable (if isDuplicate s.held.toIntakeState recent then
      holdDuplicate s.held.toIntakeState recent = s.held.toIntakeState
    else recent.turn ∉ s.held.turns → Arrives fmt s.taken s.held.turns recent.turn))
  | .copy _ => inferInstanceAs (Decidable True)
  | .writeBack _ => inferInstanceAs (Decidable (∀ copy ∈ s.copy,
      copy.agentNode = s.held.agentNode ∧ StaysOut fmt s.held.turns copy.turns))

variable {turns : List MemoryTurn}

section
variable {fmt : Format} {s : Communication R}

structure Communication.Undisturbed (fmt : Format) (s : Communication R) : Prop where
  held_eq : s.held.toIntakeState = s.alone
  turns_eq : s.alone.turns = lastFitting (Fits fmt) (inTimeOrder fmt.time s.taken)
  nodup : s.taken.Nodup

theorem Communication.Undisturbed.latest (h : s.Undisturbed fmt) : Latest fmt s.taken s.alone.turns where
  suffix := h.turns_eq ▸ lastFitting_suffix
  fits := h.turns_eq ▸ fits_lastFitting fits_nil
  longest _ hsuffix hfits := h.turns_eq ▸ lastFitting_longest hsuffix hfits

theorem Latest.sorted {taken : List MemoryTurn} (h : Latest fmt taken turns) :
    turns.Pairwise fun a b => fmt.time a ≤ fmt.time b :=
  inTimeOrder_sorted.sublist h.suffix.sublist

variable {turn : MemoryTurn}

theorem Latest.mem_taken {taken : List MemoryTurn} (h : Latest fmt taken turns)
    (hturn : turn ∈ turns) : turn ∈ taken :=
  mem_inTimeOrder.mp (h.suffix.mem hturn)

section
variable (hsorted : turns.Pairwise fun a b => fmt.time a ≤ fmt.time b)
include hsorted

theorem pushRecentTurn_of_not_mem (h : turn ∉ turns) :
    pushRecentTurn fmt turns turn = lastFitting (Fits fmt) (insertAfter fmt.time turn turns) := by
  rw [pushRecentTurn, if_neg h, boundRecentTurns_eq, inTimeOrder_concat,
    inTimeOrder_eq_self hsorted]

theorem pushRecentTurn_of_stays_out (hfits : Fits fmt turns) (h : turn ∉ turns)
    (holder : ∀ kept ∈ turns, fmt.time turn < fmt.time kept) (hout : ¬ Fits fmt (turn :: turns)) :
    pushRecentTurn fmt turns turn = turns := by
  rw [pushRecentTurn_of_not_mem hsorted h, insertAfter_of_lt holder, lastFitting, if_neg hout,
    lastFitting_eq_self hfits]

end

section
variable (h : s.Undisturbed fmt)
include h

theorem Communication.Undisturbed.push
    (harrives : turn ∉ s.alone.turns → Arrives fmt s.taken s.alone.turns turn) :
    pushRecentTurn fmt s.alone.turns turn = lastFitting (Fits fmt)
      (inTimeOrder fmt.time (if turn ∈ s.taken then s.taken else s.taken ++ [turn])) := by
  have hlatest := h.latest
  by_cases hheld : turn ∈ s.alone.turns
  · rw [pushRecentTurn, if_pos hheld, if_pos (hlatest.mem_taken hheld), h.turns_eq]
  · have harr := harrives hheld
    by_cases htaken : turn ∈ s.taken
    · rw [if_pos htaken, ← h.turns_eq]
      rcases harr with ⟨hnew, -⟩ | ⟨holder, hout⟩
      · exact absurd htaken hnew
      · exact pushRecentTurn_of_stays_out hlatest.sorted hlatest.fits hheld holder hout
    · have hnodup : (inTimeOrder fmt.time s.taken).Nodup :=
        (perm_insertionSort _ _).nodup_iff.mpr h.nodup
      rw [if_neg htaken, inTimeOrder_concat, pushRecentTurn_of_not_mem hlatest.sorted hheld,
        h.turns_eq]
      rw [h.turns_eq] at harr
      refine (lastFitting_insertAfter Fits.of_sublist hnodup ?_).symm
      rcases harr with ⟨-, hlate⟩ | hout
      · exact .inl fun y hy hleft => hlate y (mem_inTimeOrder.mp hy) hleft
      · exact .inr hout

theorem Communication.Undisturbed.take {recent : RecentTurn}
    (hcond : Undisturbing fmt s (.take recent)) : (s.step fmt (.take recent)).Undisturbed fmt := by
  obtain ⟨heq, hturns, hnodup⟩ := h
  simp only [Undisturbing, heq] at hcond
  split_ifs at hcond with hdup
  · have hsame : holdRecentTurn fmt s.alone recent = s.alone := by
      rw [holdRecentTurn, if_pos hdup, hcond]
    have htaking : s.taking recent = s.taken := if_pos (.inl hdup)
    constructor
    · show holdRecentTurn fmt s.held.toIntakeState recent = holdRecentTurn fmt s.alone recent
      rw [heq]
    · show (holdRecentTurn fmt s.alone recent).turns = _
      rw [hsame, hturns, ← htaking]
      rfl
    · show (s.taking recent).Nodup
      rw [htaking]
      exact hnodup
  · have htaking : s.taking recent =
        if recent.turn ∈ s.taken then s.taken else s.taken ++ [recent.turn] := by
      simp [Communication.taking, hdup]
    have hpush := Communication.Undisturbed.push ⟨heq, hturns, hnodup⟩ hcond
    constructor
    · show holdRecentTurn fmt s.held.toIntakeState recent = holdRecentTurn fmt s.alone recent
      rw [heq]
    · show (holdRecentTurn fmt s.alone recent).turns =
        lastFitting (Fits fmt) (inTimeOrder fmt.time (s.taking recent))
      rw [htaking, ← hpush, holdRecentTurn, if_neg hdup]
      rfl
    · show (s.taking recent).Nodup
      rw [htaking]
      split_ifs with htaken
      · exact hnodup
      · exact nodup_append.mpr ⟨hnodup, nodup_singleton _, fun a ha b hb => by
          rintro rfl
          exact htaken (mem_singleton.mp hb ▸ ha)⟩

theorem Communication.Undisturbed.writeBack {derive : R → R}
    (hcond : Undisturbing fmt s (.writeBack derive)) :
    (s.step fmt (.writeBack derive)).Undisturbed fmt := by
  rw [Communication.step]
  cases hcopy : s.copy with
  | none => exact h
  | some copy =>
    obtain ⟨hnode, hout⟩ := hcond copy hcopy
    have hlatest := h.latest
    rw [← h.held_eq] at hlatest
    have hmerge := mergeRecentTurns_eq hlatest.sorted hlatest.fits hout
    refine ⟨?_, h.turns_eq, h.nodup⟩
    show (writeBackTurn fmt s.held { copy with derived := derive copy.derived }).toIntakeState = _
    rw [← h.held_eq, writeBackTurn, hmerge, hnode]

theorem Communication.Undisturbed.step {e : Step R} (hcond : Undisturbing fmt s e) :
    (s.step fmt e).Undisturbed fmt := by
  cases e with
  | take recent => exact h.take hcond
  | copy agentNode => exact ⟨h.held_eq, h.turns_eq, h.nodup⟩
  | writeBack derive => exact h.writeBack hcond

end

/-- Along undisturbing steps the worker leaves exactly what the intake alone would hold, and the
turns held are the latest of those taken. -/
theorem worker_never_disturbs_turns (fmt : Format) (derived : R) (steps : List (Step R))
    (h : Along (Communication.step fmt) (Undisturbing fmt) (.start derived) steps) :
    (steps.foldl (Communication.step fmt) (.start derived)).held.toIntakeState =
        (steps.foldl (Communication.step fmt) (.start derived)).alone ∧
      Latest fmt (steps.foldl (Communication.step fmt) (.start derived)).taken
        (steps.foldl (Communication.step fmt) (.start derived)).held.turns := by
  have hend := h.invariant (P := fun s => s.Undisturbed fmt) (fun s e hcond hs => hs.step hcond)
    ⟨rfl, rfl, nodup_nil⟩
  refine ⟨hend.held_eq, ?_⟩
  rw [hend.held_eq]
  exact hend.latest

end

namespace Runs

/-- Times and sizes that stand in the turns' own fields. -/
def fmt : Format := { epochMs := fun ts => ts.length, size := fun turn => turn.attachments }

def turn (ts : String) (bytes : ℕ) (agentNode : String) : RecentTurn where
  key := { threadId := "thread:1", agentIlk := "ilk:agent" }
  turnKey := ts
  agentNode
  srcIlk := some "ilk:person"
  dstIlk := none
  ich := none
  turn := { direction := .received, text := ts, attachments := bytes, ts }

/-- The worker copies one turn; the last of the five that come meanwhile pushes it out with the
first of them. -/
def pushedOut : List (Step Unit) :=
  [.take (turn "t" 150 "AI.a@h"), .copy "AI.a@h"] ++
    ["tt", "ttt", "tttt", "ttttt", "tttttt"].map (fun ts => .take (turn ts 12000 "AI.a@h")) ++
    [.writeBack id]

/-- The agent moves to another node while the worker is at its first turn. -/
def moved : List (Step Unit) :=
  [.take (turn "t" 1 "AI.a@h"), .copy "AI.a@h", .take (turn "tt" 1 "AI.b@h"), .writeBack id]

def quiet : List (Step Unit) :=
  [.take (turn "t" 1 "AI.a@h"), .copy "AI.a@h", .take (turn "tt" 10000 "AI.a@h"), .writeBack id]

end Runs

/-- A turn pushed out comes back with the write-back, and so does an agent node that was replaced. -/
theorem worker_brings_turn_back :
    ((Runs.pushedOut.foldl (Communication.step Runs.fmt) (.start ())).held.turns.map (·.text) =
        ["t", "ttt", "tttt", "ttttt", "tttttt"] ∧
      (Runs.pushedOut.foldl (Communication.step Runs.fmt) (.start ())).alone.turns.map (·.text) =
        ["ttt", "tttt", "ttttt", "tttttt"]) ∧
    (Runs.moved.foldl (Communication.step Runs.fmt) (.start ())).held.agentNode = "AI.a@h" ∧
      (Runs.moved.foldl (Communication.step Runs.fmt) (.start ())).alone.agentNode = "AI.b@h" := by
  decide +kernel

theorem worker_never_disturbs_turns_quiet :
    (Runs.quiet.foldl (Communication.step Runs.fmt) (.start ())).held.toIntakeState =
        (Runs.quiet.foldl (Communication.step Runs.fmt) (.start ())).alone ∧
      Latest Runs.fmt (Runs.quiet.foldl (Communication.step Runs.fmt) (.start ())).taken
        (Runs.quiet.foldl (Communication.step Runs.fmt) (.start ())).held.turns :=
  worker_never_disturbs_turns Runs.fmt () Runs.quiet (by decide +kernel)

end Fluxbee.Cognition
