import Mathlib.Algebra.Ring.Nat
import Mathlib.Logic.Function.Basic

/-! A sequence lock with one writer and one reader, as an interleaving of single
stores and loads. The writer brackets its stores by two increments of a counter of
`2 ^ 64` values; the reader loads between two loads of it and keeps what it read if
they agree. What a reader loads after the second one is outside the window: the run
condition `TailOk` says when that does no harm. -/
namespace Fluxbee.Seqlock
open List

variable {Cell : Type} {Val : Cell → Type}

/-- A program of single loads. -/
inductive Loads (Val : Cell → Type) (α : Type) where
  | ret (a : α)
  | load (c : Cell) (k : Val c → Loads Val α)

namespace Loads
variable {α β : Type}

def bind : Loads Val α → (α → Loads Val β) → Loads Val β
  | .ret a, f => f a
  | .load c k, f => .load c fun v => (k v).bind f

instance : Monad (Loads Val) where
  pure := .ret
  bind := bind

def get (c : Cell) : Loads Val (Val c) := .load c .ret

def eval (cells : ∀ c, Val c) : Loads Val α → α
  | .ret a => a
  | .load c k => (k (cells c)).eval cells

section
variable (cells : ∀ c, Val c)

@[simp] theorem eval_pure (a : α) : (pure a : Loads Val α).eval cells = a := rfl

@[simp] theorem eval_get (c : Cell) : (get c : Loads Val (Val c)).eval cells = cells c := rfl

@[simp] theorem eval_bind (p : Loads Val α) (f : α → Loads Val β) :
    (p >>= f).eval cells = (f (p.eval cells)).eval cells := by
  induction p with
  | ret a => rfl
  | load c k ih => exact ih (cells c)

def each (f : α → Loads Val β) : List α → Loads Val (List β)
  | [] => pure []
  | x :: xs => do
    let y ← f x
    let ys ← each f xs
    pure (y :: ys)

@[simp] theorem eval_each (f : α → Loads Val β) (l : List α) :
    (each f l).eval cells = l.map fun x => (f x).eval cells := by
  induction l with
  | nil => rfl
  | cons x l ih => simp only [each, eval_bind, eval_pure, ih, map_cons]

end

def MayLoad (c : Cell) : Loads Val α → Prop
  | .ret _ => False
  | .load c' k => c' = c ∨ ∃ v, (k v).MayLoad c

theorem eval_congr {cells cells' : ∀ c, Val c} (p : Loads Val α)
    (h : ∀ c, p.MayLoad c → cells c = cells' c) : p.eval cells = p.eval cells' := by
  induction p with
  | ret a => rfl
  | load c k ih =>
    have hc : cells c = cells' c := h c (Or.inl rfl)
    simp only [eval, hc]
    exact ih (cells' c) fun c' hc' => h c' (Or.inr ⟨_, hc'⟩)

end Loads

structure Store (Val : Cell → Type) where
  cell : Cell
  value : Val cell

inductive WriterStep (Val : Cell → Type) where
  | beginWrite
  | store (s : Store Val)
  | endWrite

/-- The cells, and how often the counter has been incremented. -/
structure Memory (Val : Cell → Type) where
  turns : ℕ
  cells : ∀ c, Val c

def Memory.seq (m : Memory Val) : ℕ := m.turns % 2 ^ 64

section
variable [DecidableEq Cell]

def Store.apply (cells : ∀ c, Val c) (s : Store Val) : ∀ c, Val c :=
  Function.update cells s.cell s.value

def WriterStep.apply (m : Memory Val) : WriterStep Val → Memory Val
  | .beginWrite => { m with turns := m.turns + 1 }
  | .store s => { m with cells := s.apply m.cells }
  | .endWrite => { m with turns := m.turns + 1 }

def guarded (stores : List (Store Val)) : List (WriterStep Val) :=
  .beginWrite :: (stores.map .store ++ [.endWrite])

def content (cells : ∀ c, Val c) (writes : List (List (Store Val))) (j : ℕ) : ∀ c, Val c :=
  (writes.take j).foldl (fun cells stores => stores.foldl Store.apply cells) cells

end

/-- A reader: what it loads inside the window (giving up where that returns nothing), and
what it still loads after the second look at the counter. -/
structure Reader (Val : Cell → Type) (β α : Type) where
  body : Loads Val (Option β)
  tail : β → Loads Val α

/-- What the reader returns of a content nobody is changing. -/
def Reader.snapshot {α β : Type} (R : Reader Val β α) (cells : ∀ c, Val c) : Option α :=
  (R.body.eval cells).map fun b => (R.tail b).eval cells

/-- Where a reader is. `start` holds the attempts left before its timeout; `inside` the
increments it saw when it entered the window. -/
inductive ReaderState (Val : Cell → Type) (β α : Type) where
  | start (attempts : ℕ)
  | inside (entered : ℕ) (p : Loads Val (Option β)) (attempts : ℕ)
  | after (p : Loads Val α)
  | done (result : Option α)

def Reader.next {α β : Type} (R : Reader Val β α) (m : Memory Val) :
    ReaderState Val β α → Option (ReaderState Val β α)
  | .start 0 => some (.done none)
  | .start (attempts + 1) =>
    if m.seq % 2 ≠ 0 then some (.start attempts) else some (.inside m.turns R.body attempts)
  | .inside entered (.load c k) attempts => some (.inside entered (k (m.cells c)) attempts)
  | .inside _ (.ret none) _ => some (.done none)
  | .inside entered (.ret (some b)) attempts =>
    if entered % 2 ^ 64 = m.seq then some (.after (R.tail b)) else some (.start attempts)
  | .after (.load c k) => some (.after (k (m.cells c)))
  | .after (.ret a) => some (.done (some a))
  | .done _ => none

structure System (Val : Cell → Type) (β α : Type) where
  mem : Memory Val
  writer : List (WriterStep Val)
  reader : ReaderState Val β α

section
variable {α β : Type} [DecidableEq Cell]

inductive Step (R : Reader Val β α) : System Val β α → System Val β α → Prop
  | write (m : Memory Val) (w : WriterStep Val) (ws : List (WriterStep Val))
      (r : ReaderState Val β α) : Step R ⟨m, w :: ws, r⟩ ⟨w.apply m, ws, r⟩
  | read (m : Memory Val) (ws : List (WriterStep Val)) (r r' : ReaderState Val β α)
      (h : R.next m r = some r') : Step R ⟨m, ws, r⟩ ⟨m, ws, r'⟩

/-- The step from `s` to `t` is not a check made a whole turn of the counter after the first look
at it. -/
def TurnOk (s t : System Val β α) : Prop :=
  ∀ entered b attempts, s.reader = .inside entered (.ret (some b)) attempts →
    t.writer = s.writer → s.mem.turns < entered + 2 ^ 64

/-- The step from `s` to `t` is not a store to a cell that a reader past its check still loads. -/
def TailOk (s t : System Val β α) : Prop :=
  ∀ p st, s.reader = .after p → s.writer = .store st :: t.writer → ¬ p.MayLoad st.cell

def StepOk (s t : System Val β α) : Prop := TailOk s t ∧ TurnOk s t

/-- Runs whose steps satisfy `ok`. -/
inductive Run (R : Reader Val β α) (ok : System Val β α → System Val β α → Prop) :
    System Val β α → System Val β α → Prop
  | refl (s : System Val β α) : Run R ok s s
  | tail {s t u : System Val β α} : Run R ok s t → ok t u → Step R t u → Run R ok s u

/-- Whatever the writer and the reader do, step by step and within `ok`, a snapshot that is
returned is the content between two complete writes. -/
def Atomic (R : Reader Val β α) (ok : System Val β α → System Val β α → Prop) : Prop :=
  ∀ (base : ℕ) (cells : ∀ c, Val c) (writes : List (List (Store Val))) (attempts : ℕ)
    (s : System Val β α) (a : α), base % 2 = 0 →
    Run R ok ⟨⟨base, cells⟩, writes.flatMap guarded, .start attempts⟩ s →
    s.reader = .done (some a) →
    ∃ j ≤ writes.length, R.snapshot (content cells writes j) = some a

/-- Where the writer is in its writes: between two of them, or inside the one after the
first `j`, with `rest` still to store. -/
inductive WriterAt (cells : ∀ c, Val c) (base : ℕ) (writes : List (List (Store Val)))
    (m : Memory Val) : List (WriterStep Val) → Prop
  | between (j : ℕ) (hj : j ≤ writes.length) (ht : m.turns = base + 2 * j)
      (hc : m.cells = content cells writes j) :
      WriterAt cells base writes m ((writes.drop j).flatMap guarded)
  | inside (j : ℕ) (hj : j < writes.length) (rest : List (Store Val))
      (ht : m.turns = base + 2 * j + 1)
      (hc : rest.foldl Store.apply m.cells = content cells writes (j + 1)) :
      WriterAt cells base writes m
        (rest.map .store ++ .endWrite :: (writes.drop (j + 1)).flatMap guarded)

theorem content_succ (cells : ∀ c, Val c) (writes : List (List (Store Val))) {j : ℕ}
    (hj : j < writes.length) :
    content cells writes (j + 1) = writes[j].foldl Store.apply (content cells writes j) := by
  simp only [content, take_succ_eq_append_getElem hj, foldl_append, foldl_cons, foldl_nil]

variable {ws : List (WriterStep Val)} {writes : List (List (Store Val))} {m : Memory Val}
  {cells : ∀ c, Val c} {base : ℕ} {w : WriterStep Val}

theorem WriterAt.step (h : WriterAt cells base writes m (w :: ws)) :
    WriterAt cells base writes (w.apply m) ws := by
  generalize hl : w :: ws = l at h
  cases h with
  | between j hj ht hc =>
    rcases Nat.lt_or_ge j writes.length with hlt | hge
    · rw [drop_eq_getElem_cons hlt, flatMap_cons, guarded, cons_append,
        append_assoc, singleton_append, List.cons.injEq] at hl
      obtain ⟨rfl, rfl⟩ := hl
      refine .inside j hlt writes[j] ?_ ?_
      · simp only [WriterStep.apply, ht]
      · rw [content_succ cells writes hlt, ← hc]
        rfl
    · rw [drop_eq_nil_of_le hge] at hl
      cases hl
  | inside j hj rest ht hc =>
    cases rest with
    | nil =>
      rw [map_nil, nil_append, List.cons.injEq] at hl
      obtain ⟨rfl, rfl⟩ := hl
      refine .between (j + 1) hj ?_ hc
      simp only [WriterStep.apply, ht]
      omega
    | cons s rest =>
      rw [map_cons, cons_append, List.cons.injEq] at hl
      obtain ⟨rfl, rfl⟩ := hl
      exact .inside j hj rest ht hc

theorem WriterAt.content_of_even (h : WriterAt cells base writes m ws) (hb : base % 2 = 0)
    (he : m.turns % 2 = 0) : ∃ j ≤ writes.length, m.cells = content cells writes j := by
  cases h with
  | between j hj ht hc => exact ⟨j, hj, hc⟩
  | inside j hj rest ht hc => omega

section
variable (R : Reader Val β α)

/-- What is known of a reader: inside the window it agrees with the memory for as long as the
count has not moved, and after it what it will return is some content's snapshot. -/
def ReaderInv (cells : ∀ c, Val c) (writes : List (List (Store Val))) (m : Memory Val) :
    ReaderState Val β α → Prop
  | .start _ => True
  | .inside entered p _ => entered % 2 = 0 ∧ entered ≤ m.turns ∧
      (m.turns = entered → p.eval m.cells = R.body.eval m.cells)
  | .after p => ∃ j ≤ writes.length, R.snapshot (content cells writes j) = some (p.eval m.cells)
  | .done none => True
  | .done (some a) => ∃ j ≤ writes.length, R.snapshot (content cells writes j) = some a

theorem WriterAt.odd_of_store {s : Store Val} (hb : base % 2 = 0)
    (h : WriterAt cells base writes m (.store s :: ws)) : m.turns % 2 = 1 := by
  generalize hl : WriterStep.store s :: ws = l at h
  cases h with
  | between j hj ht hc =>
    rcases Nat.lt_or_ge j writes.length with hlt | hge
    · rw [drop_eq_getElem_cons hlt, flatMap_cons, guarded] at hl
      cases hl
    · rw [drop_eq_nil_of_le hge] at hl
      cases hl
  | inside j hj rest ht hc => omega

variable {R : Reader Val β α}

theorem ReaderInv.write (hb : base % 2 = 0) {r : ReaderState Val β α}
    (hw : WriterAt cells base writes m (w :: ws)) (hr : ReaderInv R cells writes m r)
    (hok : TailOk ⟨m, w :: ws, r⟩ ⟨w.apply m, ws, r⟩) : ReaderInv R cells writes (w.apply m) r := by
  cases r with
  | start attempts => trivial
  | inside entered p attempts =>
    obtain ⟨he, hle, hp⟩ := hr
    cases w with
    | beginWrite | endWrite =>
      refine ⟨he, Nat.le_succ_of_le hle, fun ht => ?_⟩
      simp only [WriterStep.apply] at ht
      omega
    | store s =>
      have hodd := hw.odd_of_store hb
      refine ⟨he, hle, fun ht => ?_⟩
      simp only [WriterStep.apply] at ht
      omega
  | after p =>
    obtain ⟨j, hj, hs⟩ := hr
    cases w with
    | beginWrite | endWrite => exact ⟨j, hj, hs⟩
    | store s =>
      have hno := hok p s rfl rfl
      have heval : p.eval (s.apply m.cells) = p.eval m.cells := p.eval_congr fun c hc => by
        have hne : c ≠ s.cell := fun h => hno (h ▸ hc)
        exact Function.update_of_ne hne _ _
      exact ⟨j, hj, by rw [hs, WriterStep.apply, heval]⟩
  | done result =>
    cases result with
    | none => trivial
    | some a => exact hr

theorem ReaderInv.read (hb : base % 2 = 0) {r r' : ReaderState Val β α}
    (hw : WriterAt cells base writes m ws) (hr : ReaderInv R cells writes m r)
    (hok : TurnOk ⟨m, ws, r⟩ ⟨m, ws, r'⟩) (hnext : R.next m r = some r') : ReaderInv R cells writes m r' := by
  cases r with
  | start attempts =>
    cases attempts with
    | zero =>
      cases hnext
      trivial
    | succ attempts =>
      simp only [Reader.next] at hnext
      split_ifs at hnext with hodd
      · cases hnext
        trivial
      · cases hnext
        refine ⟨?_, Nat.le_refl _, fun _ => rfl⟩
        unfold Memory.seq at hodd
        omega
  | inside entered p attempts =>
    obtain ⟨he, hle, hp⟩ := hr
    cases p with
    | load c k =>
      cases hnext
      exact ⟨he, hle, hp⟩
    | ret out =>
      cases out with
      | none =>
        cases hnext
        trivial
      | some b =>
        have hturn := hok entered b attempts rfl rfl
        simp only [Reader.next] at hnext
        split_ifs at hnext with hsame
        · cases hnext
          -- the two counter values agree and less than a turn lies between them
          have heq : m.turns = entered := by
            unfold Memory.seq at hsame
            change m.turns < entered + 2 ^ 64 at hturn
            omega
          obtain ⟨j, hj, hc⟩ := hw.content_of_even hb (by omega)
          refine ⟨j, hj, ?_⟩
          have hbody : R.body.eval m.cells = some b := (hp heq).symm
          rw [Reader.snapshot, ← hc, hbody]
          rfl
        · cases hnext
          trivial
  | after p =>
    obtain ⟨j, hj, hs⟩ := hr
    cases p with
    | load c k | ret a =>
      cases hnext
      exact ⟨j, hj, hs⟩
  | done result => cases hnext

theorem Reader.atomic : Atomic R StepOk := by
  intro base cells writes attempts s a hb h hdone
  have hinv : WriterAt cells base writes s.mem s.writer ∧
      ReaderInv R cells writes s.mem s.reader := by
    clear hdone
    induction h with
    | refl => exact ⟨.between 0 (Nat.zero_le _) rfl rfl, trivial⟩
    | tail _ hok hstep ih =>
      cases hstep with
      | write m w ws r => exact ⟨ih.1.step, ReaderInv.write hb ih.1 ih.2 hok.1⟩
      | read m ws r r' hnext => exact ⟨ih.1, ReaderInv.read hb ih.1 ih.2 hok.2 hnext⟩
  have hr := hinv.2
  rw [hdone] at hr
  exact hr

theorem Reader.atomic_of_tail_ret (f : β → α) (htail : ∀ b, R.tail b = .ret (f b)) :
    Atomic R TurnOk := by
  intro base cells writes attempts s a hb h hdone
  suffices hrun : Run R StepOk ⟨⟨base, cells⟩, writes.flatMap guarded, .start attempts⟩ s ∧
      ∀ p, s.reader = .after p → ∃ out, p = .ret out from
    R.atomic base cells writes attempts s a hb hrun.1 hdone
  clear hdone
  induction h with
  | refl => exact ⟨.refl _, nofun⟩
  | @tail t u _ hok hstep ih =>
    obtain ⟨hrun, hret⟩ := ih
    have htail_ok : TailOk t u := by
      intro p st hp _
      obtain ⟨out, rfl⟩ := hret p hp
      exact id
    refine ⟨hrun.tail ⟨htail_ok, hok⟩ hstep, ?_⟩
    cases hstep with
    | write m w ws r => exact hret
    | read m ws r r' hnext =>
      intro p hp
      change r' = .after p at hp
      subst hp
      cases r with
      | start n =>
        cases n <;> simp only [Reader.next] at hnext
        · cases hnext
        · split_ifs at hnext <;> cases hnext
      | inside entered q n =>
        cases q with
        | load c k => cases hnext
        | ret out =>
          cases out with
          | none => cases hnext
          | some b =>
            simp only [Reader.next] at hnext
            split_ifs at hnext
            · cases hnext
              exact ⟨f b, htail b⟩
            · cases hnext
      | after q =>
        obtain ⟨out, rfl⟩ := hret q rfl
        cases hnext
      | done result => cases hnext

end

section
variable {R : Reader Val β α} {s : System Val β α}

theorem Run.load_inside {entered attempts : ℕ} {p : Loads Val (Option β)}
    {ok : System Val β α → System Val β α → Prop}
    (hok : ∀ c k r, ok ⟨m, ws, .inside entered (.load c k) attempts⟩ ⟨m, ws, r⟩)
    (h : Run R ok s ⟨m, ws, .inside entered p attempts⟩) :
    Run R ok s ⟨m, ws, .inside entered (.ret (p.eval m.cells)) attempts⟩ := by
  induction p with
  | ret out => exact h
  | load c k ih => exact ih (m.cells c) (h.tail (hok ..) (.read m ws _ _ rfl))

theorem Run.load_after {p : Loads Val α} {ok : System Val β α → System Val β α → Prop}
    (hok : ∀ p r, ok ⟨m, ws, .after p⟩ ⟨m, ws, r⟩) (h : Run R ok s ⟨m, ws, .after p⟩) :
    Run R ok s ⟨m, ws, .done (some (p.eval m.cells))⟩ := by
  induction p with
  | ret a => exact h.tail (hok ..) (.read m ws _ _ rfl)
  | load c k ih => exact ih (m.cells c) (h.tail (hok ..) (.read m ws _ _ rfl))

theorem Run.write_all {ws ws' : List (WriterStep Val)} {r : ReaderState Val β α}
    (h : Run R (fun _ _ => True) s ⟨m, ws ++ ws', r⟩) :
    Run R (fun _ _ => True) s ⟨ws.foldl WriterStep.apply m, ws', r⟩ := by
  induction ws generalizing m with
  | nil => exact h
  | cons w ws ih => exact ih (h.tail trivial (.write m w (ws ++ ws') r))

theorem cells_foldl_guarded (m : Memory Val) (stores : List (Store Val)) :
    ((guarded stores).foldl WriterStep.apply m).cells = stores.foldl Store.apply m.cells := by
  have hstores (m : Memory Val) : ((stores.map WriterStep.store).foldl WriterStep.apply m).cells =
      stores.foldl Store.apply m.cells := by
    induction stores generalizing m with
    | nil => rfl
    | cons st stores ih => exact ih _
  rw [guarded, foldl_cons, foldl_append]
  exact hstores _

/-- A reader alone comes past its check. -/
theorem Run.checked (R : Reader Val β α) (cells : ∀ c, Val c) (ws : List (WriterStep Val)) {b : β}
    (hb : R.body.eval cells = some b) (ok : System Val β α → System Val β α → Prop)
    (hok : ∀ r r', (∀ p, r ≠ .after p) → ok ⟨⟨0, cells⟩, ws, r⟩ ⟨⟨0, cells⟩, ws, r'⟩) :
    Run R ok ⟨⟨0, cells⟩, ws, .start 1⟩ ⟨⟨0, cells⟩, ws, .after (R.tail b)⟩ := by
  have hstart : Run R ok ⟨⟨0, cells⟩, ws, .start 1⟩ ⟨⟨0, cells⟩, ws, .inside 0 R.body 0⟩ :=
    (Run.refl _).tail (hok _ _ (by simp)) (.read _ _ _ _ rfl)
  have hinside := hstart.load_inside fun _ _ _ => hok _ _ (by simp)
  rw [hb] at hinside
  exact hinside.tail (hok _ _ (by simp)) (.read _ _ _ _ rfl)

/-- A write that comes between the check and the last loads gives a reader that still
loads there the entries of one content and the tail of the next. -/
theorem Run.mixed (R : Reader Val β α) (cells : ∀ c, Val c) (stores : List (Store Val)) {b : β}
    (hb : R.body.eval cells = some b) :
    ∃ t : System Val β α,
      Run R (fun _ _ => True) ⟨⟨0, cells⟩, [stores].flatMap guarded, .start 1⟩ t ∧
        t.reader = .done (some ((R.tail b).eval (content cells [stores] 1))) := by
  have hafter := Run.checked R cells (guarded stores ++ []) hb (fun _ _ => True)
    fun _ _ _ => trivial
  have hdone := hafter.write_all.load_after fun _ _ => trivial
  rw [cells_foldl_guarded] at hdone
  exact ⟨_, hdone, rfl⟩

/-- A write that has begun by the last loads, its stores still to come, does no harm. -/
theorem Run.begun (R : Reader Val β α) (cells : ∀ c, Val c) (stores : List (Store Val)) {b : β}
    (hb : R.body.eval cells = some b) :
    ∃ t : System Val β α, Run R StepOk ⟨⟨0, cells⟩, [stores].flatMap guarded, .start 1⟩ t ∧
      t.reader = .done (some ((R.tail b).eval cells)) ∧ t.mem.turns = 1 := by
  have hchecked := Run.checked R cells (guarded stores ++ []) hb StepOk
    fun r r' hr => ⟨fun p _ hp => absurd hp (hr p), fun entered _ _ _ _ => by simp⟩
  have hbegun := hchecked.tail ⟨fun _ _ _ h => by simp [guarded] at h, fun _ _ _ h => by simp at h⟩
    (.write _ _ _ _)
  refine ⟨_, hbegun.load_after fun p r => ?_, rfl, rfl⟩
  exact ⟨fun _ _ _ h => by simp at h, fun _ _ _ h => by simp at h⟩

end

end

end Fluxbee.Seqlock
