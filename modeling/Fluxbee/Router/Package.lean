import Fluxbee.Lib.RecentWindow
import Mathlib.Algebra.Ring.Nat

/-! A message with its memory package, serialized within a frame (`serialize_with_package`). The
length of a JSON text is the sum of its parts. -/
namespace Fluxbee.Router
open List RecentWindow

@[irreducible] def maxFrameSize : ℕ := 128 * 1024

/-- `bytes` is what the package adds to a message without its turns. -/
structure MemoryPackage (Turn : Type) where
  bytes : ℕ
  turns : List Turn

variable {Turn : Type} (len : Turn → ℕ) (bare : ℕ)

/-- The field `,"turns":[]`, which no turns leave out, with its turns and a comma between two. -/
def turnsBytes : List Turn → ℕ
  | [] => 0
  | turn :: rest => 11 + len turn + (rest.map fun turn => len turn + 1).sum

/-- The frame of a message of `bare` bytes. -/
def frameBytes : Option (MemoryPackage Turn) → ℕ
  | none => bare
  | some package => bare + package.bytes + turnsBytes len package.turns

/-- How many turns free the excess, `freed` bytes of it by those before. -/
def oldest (excess : ℕ) : ℕ → List Turn → ℕ
  | _, [] => 0
  | freed, turn :: rest =>
    if excess ≤ freed then 0 else oldest excess (freed + (len turn + 1)) rest + 1

/-- The package the frame has in the end. -/
def serializeWithPackage : Option (MemoryPackage Turn) → Option (MemoryPackage Turn)
  | none => none
  | some package =>
    let excess := frameBytes len bare (some package) - maxFrameSize
    if excess = 0 then some package
    else if package.turns = [] then serializeWithPackage none
    else
      serializeWithPackage (some { package with
        turns := package.turns.drop (max (oldest len excess 0 package.turns) 1) })
termination_by package => package.elim 0 fun package => package.turns.length + 1
decreasing_by
  · exact Nat.succ_pos _
  · have := length_pos_iff.mpr ‹_›
    simp only [Option.elim_some, length_drop]
    omega

variable {len bare} {package : MemoryPackage Turn} {turns : List Turn}

def MemoryPackage.Fits (package : MemoryPackage Turn) (len : Turn → ℕ) (bare : ℕ)
    (turns : List Turn) : Prop :=
  frameBytes len bare (some { package with turns }) ≤ maxFrameSize

instance : DecidablePred (package.Fits len bare) := fun _ => inferInstanceAs (Decidable (_ ≤ _))

theorem MemoryPackage.Fits.nil (h : package.Fits len bare turns) : package.Fits len bare [] :=
  (Nat.add_le_add_left (Nat.zero_le _) _).trans h

/-- No suffix longer than the one `oldest` leaves fits. -/
theorem lastFitting_drop_oldest {excess freed : ℕ} (h : turns ≠ [] →
    frameBytes len bare (some { package with turns }) + freed = maxFrameSize + excess) :
    lastFitting (package.Fits len bare) (turns.drop (oldest len excess freed turns)) =
      lastFitting (package.Fits len bare) turns := by
  induction turns generalizing freed with
  | nil => rfl
  | cons turn rest ih =>
    rw [oldest]
    split_ifs with hfreed
    · rfl
    · have hbytes := h (cons_ne_nil _ _)
      have hout : ¬ package.Fits len bare (turn :: rest) := by
        unfold MemoryPackage.Fits
        omega
      rw [drop_succ_cons, lastFitting, if_neg hout]
      refine ih fun hne => ?_
      obtain ⟨next, rest, rfl⟩ := exists_cons_of_ne_nil hne
      simp only [frameBytes, turnsBytes, map_cons, sum_cons] at hbytes ⊢
      omega

theorem serializeWithPackage_eq (package : MemoryPackage Turn) :
    serializeWithPackage len bare (some package) =
      if package.Fits len bare [] then
        some { package with turns := lastFitting (package.Fits len bare) package.turns }
      else none := by
  induction hn : package.turns.length using Nat.strong_induction_on generalizing package with
  | _ n ih =>
  subst hn
  unfold serializeWithPackage
  dsimp only
  by_cases hfits : package.Fits len bare package.turns
  · have hle : frameBytes len bare (some package) ≤ maxFrameSize := hfits
    rw [if_pos (Nat.sub_eq_zero_of_le hle), lastFitting_eq_self hfits, if_pos hfits.nil]
  · have hexcess : maxFrameSize < frameBytes len bare (some package) := Nat.lt_of_not_le hfits
    rw [if_neg (Nat.sub_ne_zero_of_lt hexcess)]
    by_cases hnil : package.turns = []
    · rw [if_pos hnil, if_neg (hnil ▸ hfits), serializeWithPackage]
    · have hpos := length_pos_iff.mpr hnil
      rw [if_neg hnil, ih _ (by simp only [length_drop]; omega) _ rfl]
      generalize hex : frameBytes len bare (some package) - maxFrameSize = excess
      have holdest : 1 ≤ oldest len excess 0 package.turns := by
        obtain ⟨turn, rest, heq⟩ := exists_cons_of_ne_nil hnil
        rw [heq, oldest, if_neg (by omega)]
        exact Nat.le_add_left ..
      have hbytes : frameBytes len bare (some package) + 0 = maxFrameSize + excess := by omega
      rw [max_eq_left holdest, ← lastFitting_drop_oldest fun _ => hbytes]
      rfl

/-- The message never pays for its package, and the package loses no turn more than it must. -/
theorem package_costs_no_message (len : Turn → ℕ) (bare : ℕ) (package : MemoryPackage Turn) :
    (bare ≤ maxFrameSize →
      frameBytes len bare (serializeWithPackage len bare (some package)) ≤ maxFrameSize) ∧
    match serializeWithPackage len bare (some package) with
    | none => ¬ package.Fits len bare []
    | some sent => sent.bytes = package.bytes ∧ sent.turns <:+ package.turns ∧
        package.Fits len bare sent.turns ∧
        ∀ turns, turns <:+ package.turns → package.Fits len bare turns → turns <:+ sent.turns := by
  rw [serializeWithPackage_eq]
  split_ifs with hfits
  · have hsent := fits_lastFitting (l := package.turns) hfits
    exact ⟨fun _ => hsent, rfl, lastFitting_suffix, hsent, fun _ => lastFitting_longest⟩
  · exact ⟨id, hfits⟩

end Fluxbee.Router
