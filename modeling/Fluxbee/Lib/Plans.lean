import Fluxbee.Lib.GuardedRun

/-! Plans: actions carried out one after another, each of which finds its guard, up to a goal. A
plan that is cut short leaves a state in which the guard of its next action holds. -/
namespace Fluxbee.Plans
open GuardedRun List

variable {σ α : Type*} {act : σ → α → σ} {G : σ → α → Prop} {Q Q' : σ → Prop} {s : σ} {a : α}
  {acts more : List α}

/-- From `s` every action finds its guard, and the last one leaves a state of the goal. -/
def Ready (act : σ → α → σ) (G : σ → α → Prop) (Q : σ → Prop) (s : σ) (acts : List α) : Prop :=
  Along act G s acts ∧ Q (acts.foldl act s)

theorem ready_nil : Ready act G Q s [] ↔ Q s := by simp [Ready, Along]

theorem ready_cons : Ready act G Q s (a :: acts) ↔ G s a ∧ Ready act G Q (act s a) acts := by
  simp [Ready, Along, and_assoc]

theorem Ready.mono {G' : σ → α → Prop} (hG : ∀ s a, G s a → G' s a) (hQ : ∀ s, Q s → Q' s)
    (h : Ready act G Q s acts) : Ready act G' Q' s acts :=
  ⟨h.1.mono hG, hQ _ h.2⟩

theorem Ready.append (h : Ready act G Q' s acts) (hmore : ∀ s', Q' s' → Ready act G Q s' more) :
    Ready act G Q s (acts ++ more) := by
  induction acts generalizing s with
  | nil => exact hmore s (ready_nil.mp h)
  | cons a acts ih =>
    obtain ⟨hg, hrest⟩ := ready_cons.mp h
    exact ready_cons.mpr ⟨hg, ih hrest⟩

theorem ready_of_invariant (hG : ∀ a ∈ acts, ∀ s, Q s → G s a)
    (hact : ∀ a ∈ acts, ∀ s, Q s → Q (act s a)) (hs : Q s) : Ready act G Q s acts := by
  induction acts generalizing s with
  | nil => exact ready_nil.mpr hs
  | cons a acts ih =>
    have hhead : a ∈ a :: acts := mem_cons_self ..
    refine ready_cons.mpr ⟨hG a hhead s hs, ih (fun b hb => ?_) (fun b hb => ?_) (hact a hhead s hs)⟩
    · exact hG b (mem_cons_of_mem _ hb)
    · exact hact b (mem_cons_of_mem _ hb)

end Fluxbee.Plans
