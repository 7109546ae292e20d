
/-! Operations on a state that may fail, where a failure keeps the state it was reached in, and
the inversion of a run into the runs of its parts. -/
namespace Fluxbee

abbrev Fallible (ε σ α : Type) := ExceptT ε (StateM σ) α

namespace Fallible

variable {ε σ α β : Type}

def exec (x : Fallible ε σ α) (s : σ) : Except ε α × σ := x.run.run s

def ensure (p : Prop) [Decidable p] (e : ε) : Except ε Unit := if p then .ok () else .error e

def orFail (o : Option α) (e : ε) : Except ε α :=
  match o with
  | some a => .ok a
  | none => .error e

@[simp] theorem ensure_ok {p : Prop} [Decidable p] {e : ε} {u : Unit} : ensure p e = .ok u ↔ p := by
  by_cases h : p <;> simp [ensure, h]

@[simp] theorem orFail_ok {o : Option α} {e : ε} {a : α} : orFail o e = .ok a ↔ o = some a := by
  cases o <;> simp [orFail]

variable {x : Except ε α} {f : α → Except ε β}

@[simp] theorem bind_ok {b : β} : (x >>= f) = .ok b ↔ ∃ a, x = .ok a ∧ f a = .ok b := by
  cases x with
  | error e =>
    constructor
    · intro h
      cases h
    · rintro ⟨a, h, -⟩
      cases h
  | ok a =>
    constructor
    · intro h
      exact ⟨a, rfl, h⟩
    · rintro ⟨a', h, hf⟩
      cases h
      exact hf

theorem bind_error {e : ε} :
    (x >>= f) = .error e ↔ x = .error e ∨ ∃ a, x = .ok a ∧ f a = .error e := by
  cases x with
  | error e' | ok a => simp [bind, Except.bind]

theorem ensure_error {p : Prop} [Decidable p] {e e' : ε} :
    ensure p e = .error e' ↔ ¬ p ∧ e = e' := by
  by_cases h : p <;> simp [ensure, h]

theorem orFail_error {o : Option α} {e e' : ε} : orFail o e = .error e' ↔ o = none ∧ e = e' := by
  cases o <;> simp [orFail]

theorem exec_bind (x : Fallible ε σ α) (f : α → Fallible ε σ β) (s : σ) : exec (x >>= f) s =
      match exec x s with
      | (.ok a, t) => exec (f a) t
      | (.error e, t) => (.error e, t) := by
  show (ExceptT.bindCont f (x s).1 (x s).2) = _
  unfold exec
  show _ = match x s with
      | (.ok a, t) => (f a) t
      | (.error e, t) => (.error e, t)
  cases x s with
  | mk r t => cases r <;> rfl

variable {f : α → Fallible ε σ β}

@[simp] theorem exec_bind_ok {x : Fallible ε σ α} {s s' : σ} {b : β} :
    exec (x >>= f) s = (.ok b, s') ↔ ∃ a t, exec x s = (.ok a, t) ∧ exec (f a) t = (.ok b, s') := by
  rw [exec_bind]
  cases hx : exec x s with
  | mk r t => cases r <;> simp [and_assoc]

variable {s : σ} {a : α}

@[simp] theorem exec_pure : exec (pure a : Fallible ε σ α) s = (.ok a, s) := rfl

theorem exec_pure_ok {b : α} {s t : σ} :
    exec (pure a : Fallible ε σ α) s = (.ok b, t) ↔ a = b ∧ s = t := by
  rw [exec_pure, Prod.mk.injEq, Except.ok.injEq]

@[simp] theorem exec_get : exec (get : Fallible ε σ σ) s = (.ok s, s) := rfl

@[simp] theorem exec_set {s t : σ} : exec (set t : Fallible ε σ PUnit) s = (.ok ⟨⟩, t) := rfl

@[simp] theorem exec_modify {f : σ → σ} :
    exec (modify f : Fallible ε σ PUnit) s = (.ok ⟨⟩, f s) := rfl

@[simp] theorem exec_lift : exec (liftM x : Fallible ε σ α) s = (x, s) := rfl

theorem exec_lift_bind_ok {s s' : σ} {b : β} :
    exec (liftM x >>= f) s = (.ok b, s') ↔ ∃ a, x = .ok a ∧ exec (f a) s = (.ok b, s') := by
  rw [exec_bind, exec_lift]
  cases x <;> simp

theorem exec_get_bind {f : σ → Fallible ε σ β} : exec (get >>= f) s = exec (f s) s := by
  rw [exec_bind, exec_get]

theorem exec_set_bind {f : PUnit → Fallible ε σ β} {s t : σ} :
    exec (set t >>= f) s = exec (f ⟨⟩) t := by
  rw [exec_bind, exec_set]

/-- What a success says about the steps of a program, as the rules of one `simp only`. -/
theorem exec_ok : (∀ {ε σ α β} {x : Except ε α} {f : α → Fallible ε σ β} {s s' b},
      exec (liftM x >>= f) s = (.ok b, s') ↔ ∃ a, x = .ok a ∧ exec (f a) s = (.ok b, s')) ∧
    (∀ {ε σ β} {f : σ → Fallible ε σ β} {s}, exec (get >>= f) s = exec (f s) s) ∧
    (∀ {ε σ β} {f : PUnit → Fallible ε σ β} {s t}, exec (set t >>= f) s = exec (f ⟨⟩) t) ∧
    (∀ {ε σ α} {a b : α} {s t}, exec (pure a : Fallible ε σ α) s = (.ok b, t) ↔ a = b ∧ s = t) ∧
    (∀ {ε p} [Decidable p] {e : ε} {u}, ensure p e = .ok u ↔ p) ∧
    ∀ {ε α} {o : Option α} {e : ε} {a}, orFail o e = .ok a ↔ o = some a :=
  ⟨exec_lift_bind_ok, exec_get_bind, exec_set_bind, exec_pure_ok, ensure_ok, orFail_ok⟩

/-- A failure from `s` leaves `s` as it was. -/
def Refuses (x : Fallible ε σ α) (s : σ) : Prop := ∀ e s', exec x s = (.error e, s') → s' = s

@[simp] theorem refuses_lift_bind :
    Refuses (liftM x >>= f) s ↔ ∀ a, x = .ok a → Refuses (f a) s := by
  cases x with
  | error e =>
    refine iff_of_true (fun e' s' h => ?_) nofun
    rw [exec_bind, exec_lift] at h
    cases h
    rfl
  | ok a => exact ⟨fun h b hb => Except.ok.inj hb ▸ h, fun h => h a rfl⟩

@[simp] theorem refuses_get_bind {f : σ → Fallible ε σ β} :
    Refuses (get >>= f) s ↔ Refuses (f s) s := .rfl

@[simp] theorem refuses_pure : Refuses (pure a : Fallible ε σ α) s := by
  intro e s' h
  rw [exec_pure] at h
  cases h

theorem refuses_of_ok {x : Fallible ε σ α} (h : ∃ a t, exec x s = (.ok a, t)) : Refuses x s := by
  obtain ⟨a, t, ha⟩ := h
  intro e s' hx
  rw [ha] at hx
  cases hx

theorem refuses_bind {x : Fallible ε σ α} (hx : Refuses x s)
    (hf : ∀ a t, exec x s = (.ok a, t) → ∃ b t', exec (f a) t = (.ok b, t')) :
    Refuses (x >>= f) s := by
  intro e s' h
  rw [exec_bind] at h
  cases hr : exec x s with
  | mk r t =>
    rw [hr] at h
    cases r with
    | error e' =>
      cases h
      exact hx _ _ hr
    | ok a =>
      obtain ⟨b, t', hb⟩ := hf a t hr
      dsimp only at h
      rw [hb] at h
      cases h

@[simp] theorem refuses_map_set {f : PUnit → α} {s t : σ} :
    Refuses (f <$> set t : Fallible ε σ α) s := nofun

end Fallible
end Fluxbee
