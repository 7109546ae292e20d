import Fluxbee.Lib.GuardedRun

/-! Outputs of a run that are spaced in time: a machine that keeps a record of when it last acted
for a group, acts for a group only when no record of it is younger than a lifetime, and forgets only
records that are older, gives two outputs under one key only a lifetime apart. -/
namespace Fluxbee.GuardedRun
open List

variable {σ ε ω κ ι : Type*}

/-- The outputs of a step are grouped; a record says that a group was acted for at a time. -/
structure Deduplicates (step : σ → ε → σ) (C : σ → ε → Prop) (out : σ → ε → List ω)
    (group : ω → κ) (time : ω → ℕ) (clock : σ → κ → ℕ) (Record : σ → κ → ℕ → Prop)
    (life : ℕ) : Prop where
  clock_mono : ∀ s e k, clock s k ≤ clock (step s e) k
  timed : ∀ s e, ∀ w ∈ out s e, time w = clock s (group w)
  fresh : ∀ s e, C s e → ∀ w ∈ out s e, ∀ t, Record s (group w) t → life < time w - t
  leaves : ∀ s e, ∀ w ∈ out s e, Record (step s e) (group w) (time w)
  kept : ∀ s e k t, Record s k t → Record (step s e) k t ∨ life < clock (step s e) k - t

variable {step : σ → ε → σ} {C : σ → ε → Prop} {out : σ → ε → List ω} {group : ω → κ}
  {time : ω → ℕ} {clock : σ → κ → ℕ} {Record : σ → κ → ℕ → Prop} {life : ℕ} {s : σ}
  {events : List ε}

section
variable (h : Deduplicates step C out group time clock Record life)
include h

theorem Deduplicates.clock_le_time
    {w : ω} (hw : w ∈ log step out s events) : clock s (group w) ≤ time w := by
  induction events generalizing s with
  | nil => cases hw
  | cons e events ih =>
    rcases mem_append.mp hw with hnow | hlater
    · exact (h.timed s e w hnow).ge
    · exact (h.clock_mono s e (group w)).trans (ih hlater)

theorem Deduplicates.quiet
    (hrun : Along step C s events) {w : ω} (hw : w ∈ log step out s events) {t : ℕ}
    (hrecord : Record s (group w) t) : life < time w - t := by
  induction events generalizing s with
  | nil => cases hw
  | cons e events ih =>
    rcases mem_append.mp hw with hnow | hlater
    · exact h.fresh s e hrun.1 w hnow t hrecord
    · rcases h.kept s e (group w) t hrecord with hkept | hold
      · exact ih hrun.2 hlater hkept
      · have hclock := h.clock_le_time hlater
        omega

theorem Deduplicates.spaced (key : ω → ι) (hkey : ∀ a b, key a = key b → group a = group b)
    (hdistinct : ∀ s e, ((out s e).map key).Nodup) (hrun : Along step C s events) :
    (log step out s events).Pairwise fun a b => key a = key b → life < time b - time a := by
  induction events generalizing s with
  | nil => exact List.Pairwise.nil
  | cons e events ih =>
    refine pairwise_append.mpr ⟨?_, ih hrun.2, ?_⟩
    · have hpairs := pairwise_map.mp (hdistinct s e)
      exact hpairs.imp fun hne heq => absurd heq hne
    · intro a ha b hb heq
      have hrecord := h.leaves s e a ha
      rw [hkey a b heq] at hrecord
      exact h.quiet hrun.2 hb hrecord

end

end Fluxbee.GuardedRun
