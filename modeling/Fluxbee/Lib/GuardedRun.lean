import Mathlib.Data.List.Infix

/-! Runs of a state machine whose steps meet a condition on the state they start from. -/
namespace Fluxbee.GuardedRun
open List

variable {σ ε : Type*} (step : σ → ε → σ) (C : σ → ε → Prop)

/-- Every event of the run meets `C` at the state it finds. -/
def Along : σ → List ε → Prop
  | _, [] => True
  | s, e :: events => C s e ∧ Along (step s e) events

instance decidableAlong [∀ s e, Decidable (C s e)] :
    (s : σ) → (events : List ε) → Decidable (Along step C s events)
  | _, [] => inferInstanceAs (Decidable True)
  | s, e :: events =>
    have := decidableAlong (step s e) events
    inferInstanceAs (Decidable (C s e ∧ Along step C (step s e) events))

def log {ω : Type*} (out : σ → ε → List ω) : σ → List ε → List ω
  | _, [] => []
  | s, e :: events => out s e ++ log out (step s e) events

variable {step C} {s : σ} {events : List ε}

variable {P : σ → Prop} {C' : σ → ε → Prop} {ω : Type*}

theorem Along.invariant (hstep : ∀ s e, C s e → P s → P (step s e))
    (h : Along step C s events) (hs : P s) : P (events.foldl step s) := by
  induction events generalizing s with
  | nil => exact hs
  | cons e events ih => exact ih h.2 (hstep s e h.1 hs)

theorem Along.mono (hC : ∀ s e, C s e → C' s e) (h : Along step C s events) :
    Along step C' s events := by
  induction events generalizing s with
  | nil => trivial
  | cons e events ih => exact ⟨hC s e h.1, ih h.2⟩

theorem Along.and (h : Along step C s events) (h' : Along step C' s events) :
    Along step (fun s e => C s e ∧ C' s e) s events := by
  induction events generalizing s with
  | nil => trivial
  | cons e events ih => exact ⟨⟨h.1, h'.1⟩, ih h.2 h'.2⟩

theorem along_of_forall {Q : ε → Prop} (h : ∀ e ∈ events, Q e) :
    Along step (fun _ e => Q e) s events := by
  induction events generalizing s with
  | nil => trivial
  | cons e events ih =>
    exact ⟨h e (mem_cons_self ..), ih fun e' he' => h e' (mem_cons_of_mem _ he')⟩

theorem Along.log_invariant {P : σ → List ω → Prop} {given : List ω}
    (h : Along step C s events) (out : σ → ε → List ω) (hs : P s given)
    (hstep : ∀ s e given, C s e → P s given → P (step s e) (given ++ out s e)) :
    P (events.foldl step s) (given ++ log step out s events) := by
  induction events generalizing s given with
  | nil =>
    rw [log, append_nil]
    exact hs
  | cons e events ih =>
    have hnext := ih h.2 (hstep s e given h.1 hs)
    rw [append_assoc] at hnext
    exact hnext

theorem exists_of_mem_log {out : σ → ε → List ω} {w : ω}
    (h : w ∈ log step out s events) : ∃ s', ∃ e ∈ events, w ∈ out s' e := by
  induction events generalizing s with
  | nil => cases h
  | cons e events ih =>
    rcases mem_append.mp h with hw | hw
    · exact ⟨s, e, mem_cons_self .., hw⟩
    · obtain ⟨s', e', he', hw'⟩ := ih hw
      exact ⟨s', e', mem_cons_of_mem _ he', hw'⟩

theorem along_log (out : σ → ε → List ω) :
    Along step (fun s' e => ∀ w ∈ out s' e, w ∈ log step out s events) s events := by
  induction events generalizing s with
  | nil => trivial
  | cons e events ih =>
    refine ⟨fun w hw => mem_append_left _ hw, ?_⟩
    exact ih.mono fun s' e' h w hw => mem_append_right _ (h w hw)

/-- Where `C` is exactly what a step needs to keep `P`, a run keeps `P` in every state exactly when
all its steps meet `C`. -/
theorem states_iff_along (hstep : ∀ s e, P s → (P (step s e) ↔ C s e)) (hs : P s) :
    (∀ front, front <+: events → P (front.foldl step s)) ↔ Along step C s events := by
  induction events generalizing s with
  | nil =>
    refine iff_of_true ?_ trivial
    intro front hfront
    rw [prefix_nil.mp hfront]
    exact hs
  | cons e events ih =>
    constructor
    · intro h
      have hnext : P (step s e) := h [e] (prefix_append [e] events)
      refine ⟨(hstep s e hs).mp hnext, (ih hnext).mp ?_⟩
      intro front hfront
      exact h (e :: front) (prefix_cons_inj e |>.mpr hfront)
    · rintro ⟨he, hrest⟩ front hfront
      cases front with
      | nil => exact hs
      | cons e' front =>
        obtain ⟨rfl, hshort⟩ := cons_prefix_cons.mp hfront
        exact (ih ((hstep s e' hs).mpr he)).mpr hrest front hshort

end Fluxbee.GuardedRun
