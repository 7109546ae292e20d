import Fluxbee.Timer.Fires

/-! No pending timer is forgotten: each has an entry in the scheduler's heap, or a thread is about
to queue it, unless the scheduler could not read its row or compute its next fire. -/
namespace Fluxbee.Timer
open Node GuardedRun AList List

/-- The heap has an entry that fires the timer `u`; one that only sends a fire again is not it. -/
def Node.Queued (s : Node) (u : String) : Prop :=
  ∃ entry ∈ s.items, entry.timerUuid = u ∧ entry.retry = none

instance (s : Node) (u : String) : Decidable (s.Queued u) :=
  inferInstanceAs (Decidable (∃ entry ∈ s.items, _))

/-- The timer the scheduler has taken off the heap, until it is queued again or has fired. -/
def Firing.charge : Firing → Option String
  | .readFire _ timerUuid => some timerUuid
  | .writeFire _ _ row | .requeue _ _ row => some row.uuid
  | _ => none

/-- The timer the handler has stored and not queued yet. -/
def Handling.charge : Handling → Option String
  | .enqueue timerUuid _ _ => some timerUuid
  | _ => none

/-- Who sees to it that the pending timer `u` fires. -/
def Node.Watched (s : Node) (u : String) : Prop :=
  match s.phase with
  | .replaying _ rows => s.Queued u ∨ ∃ row ∈ rows, row.uuid = u
  | .serving h f => s.Queued u ∨ h.charge = some u ∨ f.charge = some u
  | _ => True

def Node.Attended (s : Node) : Prop :=
  ∀ u row, s.timers.lookup u = some row → row.status = .pending → s.Watched u

structure Node.Tracked (s : Node) : Prop where
  keyed : s.timers.Keyed
  watched : ∀ u row, s.timers.lookup u = some row → row.status = .pending → s.Watched u
  saves : ∀ now fire saved, s.firing = .writeFire now fire saved → Saves fire.row saved

/-- The step drops the only entry of a pending timer: its row could not be read, or the next fire
of a recurring timer not be computed. -/
def Loses (cfg : Config) (s : Node) : Event → Prop
  | .fire env =>
    match s.firing with
    | .readFire now u => ¬ s.Queued u ∧
      match s.timers.lookup u with
      | some row => row.status = .pending ∧
        (env.fails = true ∨ row.fireAtUtc ≤ now ∧ fireOf cfg row env.now = none)
      | none => False
    | _ => False
  | .startup _ =>
    match s.phase with
    | .replaying now (row :: _) => ¬ s.Queued row.uuid ∧ row.kind = .recurring ∧
      (nextRecurringFireAt cfg.calendar row now).isOk = false
    | _ => False
  | _ => False

variable {f : Firing} {h : Handling} {now : ℤ} {h' : Handling} {f' : Firing} {env : Env}
  {rest : List TimerRow}

section
variable {cfg : Config} {s s' : Node} {e : Event} {u : String} {row : TimerRow}

theorem Node.Queued.push (h : s.Queued u) (entry : HeapEntry) : (s.push entry).Queued u := by
  obtain ⟨found, hin, hu⟩ := h
  exact ⟨found, mem_push hin, hu⟩

theorem queued_push (s : Node) (u : String) (fireAt : ℤ) : (s.push ⟨u, fireAt, none⟩).Queued u :=
  ⟨⟨u, fireAt, none⟩, mem_append_right _ mem_cons_self, rfl, rfl⟩

theorem Firing.Quiet.charge (hq : f.Quiet) : f.charge = none := by
  cases f <;> first | rfl | exact hq.elim

theorem charge_of_ne_enqueue (hne : ∀ u fireAt answer, h ≠ .enqueue u fireAt answer) :
    h.charge = none := by
  cases h
  case enqueue u fireAt answer => exact absurd rfl (hne u fireAt answer)
  all_goals rfl

theorem Node.Tracked.serving (hs : s.Tracked)
    (hp : s.phase = .serving h f) (hrow : s.timers.lookup u = some row)
    (hpending : row.status = .pending) : s.Queued u ∨ h.charge = some u ∨ f.charge = some u := by
  have hw := hs.watched u row hrow hpending
  rw [Node.Watched, hp] at hw
  exact hw

theorem Node.Tracked.replaying (hs : s.Tracked) {rows : List TimerRow}
    (hp : s.phase = .replaying now rows) (hrow : s.timers.lookup u = some row)
    (hpending : row.status = .pending) : s.Queued u ∨ ∃ row ∈ rows, row.uuid = u := by
  have hw := hs.watched u row hrow hpending
  rw [Node.Watched, hp] at hw
  exact hw

theorem Moved.keyed (hm : Moved cfg s e s') (hk : s.timers.Keyed) : s'.timers.Keyed := by
  cases hm
  case collected | purged => exact hk.retain _
  case inserted => exact hk.insert
  case requeued row _ fireAt _ _ | rescheduled row fireAt _ _ _ _ =>
    exact hk.modify { row with fireAtUtc := fireAt }
  case dropped row _ _ _ | canceled row _ _ => exact hk.modify { row with status := .canceled }
  case savedRecurring saved _ _ | savedOneShot saved _ _ => exact hk.modify saved
  all_goals exact hk

theorem Moved.saves (hm : Moved cfg s e s')
    (hs : ∀ now fire saved, s.firing = .writeFire now fire saved → Saves fire.row saved) :
    ∀ now fire saved, s'.firing = .writeFire now fire saved → Saves fire.row saved := by
  intro now fire saved heq
  cases hm
  case memory => exact hs now fire saved heq
  case taken hsaves =>
    cases heq
    exact hsaves
  case scheduler hto _ =>
    cases heq
    exact hto.elim
  -- the handler's steps leave the scheduler where it is, the scheduler's other ones are elsewhere
  all_goals first
    | cases heq
      done
    | exact hs now fire saved ((firing_of (by assumption)).trans heq)

section
variable (hs : s.Tracked) (hp : s.phase = .serving h f)
include hs hp

/-- A step that leaves the table alone keeps every timer watched if what watched it still does. -/
theorem watched_of_serving (hp' : s'.phase = .serving h' f') (htimers : s'.timers = s.timers)
    (hkeeps : ∀ u row, s.timers.lookup u = some row → row.status = .pending →
      s.Queued u ∨ h.charge = some u ∨ f.charge = some u →
      s'.Queued u ∨ h'.charge = some u ∨ f'.charge = some u) :
    s'.Attended := by
  intro u row hrow hpending
  rw [htimers] at hrow
  rw [Node.Watched, hp']
  exact hkeeps u row hrow hpending (hs.serving hp hrow hpending)

theorem watched_of_handler (hp' : s'.phase = .serving h' f) (htimers : s'.timers = s.timers)
    (hqueue : ∀ u, s.Queued u → s'.Queued u) (hcharge : ∀ u, h.charge = some u → s'.Queued u) :
    s'.Attended := by
  refine watched_of_serving hs hp hp' htimers ?_
  rintro u row _ _ (hq | hh | hf)
  · exact .inl (hqueue u hq)
  · exact .inl (hcharge u hh)
  · exact .inr (.inr hf)

/-- A step of the scheduler that leaves the table alone queues what it saw to, or goes on with it. -/
theorem watched_of_scheduler (hp' : s'.phase = .serving h f') (htimers : s'.timers = s.timers)
    (hqueue : ∀ u, s.Queued u → s'.Queued u)
    (hcharge : ∀ u row, s.timers.lookup u = some row → row.status = .pending →
      f.charge = some u → s'.Queued u ∨ f'.charge = some u) :
    s'.Attended := by
  refine watched_of_serving hs hp hp' htimers ?_
  rintro u row hrow hpending (hq | hh | hf)
  · exact .inl (hqueue u hq)
  · exact .inr (.inl hh)
  · exact (hcharge u row hrow hpending hf).imp id .inr

/-- A row is written back by a thread that then sees to its timer, or is no longer pending. -/
theorem watched_of_write {r : TimerRow} (hp' : s'.phase = .serving h' f')
    (htimers : s'.timers = s.timers.modify r.uuid fun _ => r) (hitems : s'.items = s.items)
    (hwritten : r.status = .pending → h'.charge = some r.uuid ∨ f'.charge = some r.uuid)
    (hhandling : ∀ u, u ≠ r.uuid → h.charge = some u → h'.charge = some u)
    (hfiring : ∀ u, u ≠ r.uuid → f.charge = some u → f'.charge = some u) : s'.Attended := by
  intro u row hrow hpending
  rw [htimers, Table.lookup_modify_const] at hrow
  rw [Node.Watched, hp']
  split_ifs at hrow with hu
  · obtain ⟨-, rfl⟩ := hrow
    subst hu
    exact .inr (hwritten hpending)
  · rcases hs.serving hp hrow hpending with hq | hh | hf
    · left
      rw [Node.Queued, hitems]
      exact hq
    · exact .inr (.inl (hhandling u hu hh))
    · exact .inr (.inr (hfiring u hu hf))

end

theorem Node.Queued.of_items (h : s.Queued u)
    (hitems : ∀ entry ∈ s.items, entry.retry = none → entry ∈ s'.items) : s'.Queued u := by
  obtain ⟨entry, hin, hu, hretry⟩ := h
  exact ⟨entry, hitems entry hin hretry, hu, hretry⟩

theorem queued_of_not_loses
    (hp : s.phase = .serving h (.readFire now u)) (hlose : ¬ Loses cfg s (.fire env))
    (hrow : s.timers.lookup u = some row) (hpending : row.status = .pending)
    (hbad : env.fails = true ∨ row.fireAtUtc ≤ now ∧ fireOf cfg row env.now = none) :
    s.Queued u := by
  by_contra hq
  apply hlose
  unfold Loses
  rw [firing_of hp]
  dsimp only
  rw [hrow]
  exact ⟨hq, hpending, hbad⟩

theorem queued_of_not_loses_replay {err : TimeError}
    (hp : s.phase = .replaying now (row :: rest)) (hlose : ¬ Loses cfg s (.startup env))
    (hkind : row.kind = .recurring)
    (hnext : nextRecurringFireAt cfg.calendar row now = .error err) : s.Queued row.uuid := by
  by_contra hq
  apply hlose
  unfold Loses
  rw [hp]
  refine ⟨hq, hkind, ?_⟩
  rw [hnext]
  rfl

/-- One row of the replay is done with: it is queued, or no longer pending. -/
theorem watched_of_replay {first : TimerRow} (hs : s.Tracked)
    (hp : s.phase = .replaying now (first :: rest)) (hp' : s'.phase = .replaying now rest)
    (hothers : ∀ u, u ≠ first.uuid → s'.timers.lookup u = s.timers.lookup u)
    (hitems : ∀ u, s.Queued u → s'.Queued u)
    (hfirst : ∀ row, s'.timers.lookup first.uuid = some row → row.status = .pending →
      s'.Queued first.uuid) : s'.Attended := by
  intro u row hrow hpending
  rw [Node.Watched, hp']
  by_cases hu : u = first.uuid
  · subst hu
    exact .inl (hfirst row hrow hpending)
  · rw [hothers u hu] at hrow
    rcases hs.replaying hp hrow hpending with hq | ⟨listed, hin, hlisted⟩
    · exact .inl (hitems u hq)
    · rcases mem_cons.mp hin with rfl | hin
      · exact absurd hlisted.symm hu
      · exact .inr ⟨listed, hin, hlisted⟩

theorem Moved.watched_replay (hm : Moved cfg s e s') (hlose : ¬ Loses cfg s e) (hs : s.Tracked)
    (hnot : ∀ h f, s.phase ≠ .serving h f) : s'.Attended := by
  cases hm
  case memory hitems =>
    intro u row hrow hpending
    have hw := hs.watched u row hrow hpending
    unfold Node.Watched at hw ⊢
    cases hp : s.phase with
    | serving h f => exact absurd hp (hnot h f)
    | replaying now rows =>
      rw [hp] at hw
      exact hw.imp_left fun hq => Node.Queued.of_items hq fun entry hin _ => hitems entry hin
    | down | collecting | listing => trivial
  case listed hp =>
    intro u row hrow hpending
    have hkey := hs.keyed u row hrow
    have hmem : row ∈ s.timers.values := mem_values.mpr ⟨u, hrow⟩
    exact .inr ⟨row, Table.mem_listPendingTimers.mpr ⟨hmem, hpending⟩, hkey⟩
  case skipped hp hkind hnext =>
    apply watched_of_replay hs hp rfl
    · exact fun _ _ => rfl
    · exact fun _ hq => hq
    · intro row _ _
      have hq : s.Queued _ := queued_of_not_loses_replay hp hlose hkind hnext
      exact hq
  case requeued hp hkind =>
    apply watched_of_replay hs hp rfl
    · intro u hu
      rw [lookup_modify, if_neg hu]
    · intro u hq
      exact hq.push _
    · intro row _ _
      exact queued_push s _ _
  case kept hp hkind =>
    apply watched_of_replay hs hp rfl
    · exact fun _ _ => rfl
    · intro u hq
      exact hq.push _
    · intro row _ _
      exact queued_push s _ _
  case dropped first _ hp hkind =>
    apply watched_of_replay hs hp rfl
    · intro u hu
      rw [lookup_modify, if_neg hu]
    · exact fun _ hq => hq
    · intro row hrow hpending
      rw [lookup_modify, if_pos rfl] at hrow
      obtain ⟨old, -, rfl⟩ := Option.map_eq_some_iff.mp hrow
      cases hpending
  case served hp =>
    intro u row hrow hpending
    rcases hs.replaying hp hrow hpending with hq | ⟨listed, hin, -⟩
    · exact .inl hq
    · cases hin
  case stopped | booted | collected => exact fun _ _ _ _ => trivial
  all_goals exact absurd (by assumption) (hnot _ _)

section
variable {h : Handling} {f : Firing}

theorem Moved.watched_serving (hm : Moved cfg s e s') (hlose : ¬ Loses cfg s e) (hs : s.Tracked)
    (hserving : s.phase = .serving h f) : s'.Attended := by
  cases hm
  case memory hitems =>
    refine watched_of_serving hs hserving hserving rfl ?_
    intro u row _ _ hw
    exact hw.imp_left fun hq => Node.Queued.of_items hq fun entry hin _ => hitems entry hin
  case stopped => exact fun _ _ _ _ => trivial
  case handler hp hfrom _ | readForCancel hp hfrom _ _ | readForReschedule hp hfrom _ _ _ =>
    refine watched_of_handler hs hp rfl rfl (fun _ hq => hq) ?_
    intro u hh
    cases (charge_of_ne_enqueue hfrom).symm.trans hh
  case drew hp | answered hp =>
    refine watched_of_handler hs hp rfl rfl (fun _ hq => hq) ?_
    intro u hh
    cases hh
  case inserted hp hanswer =>
    intro u row hrow hpending
    replace hrow := (lookup_insert_eq s.timers _ u _).symm.trans hrow
    split_ifs at hrow with hu
    · subst hu
      exact .inr (.inl rfl)
    · rcases hs.serving hp hrow hpending with hq | hh | hf
      · exact .inl hq
      · cases hh
      · exact .inr (.inr hf)
  case enqueued hp =>
    refine watched_of_handler hs hp rfl rfl (fun _ hq => hq.push _) ?_
    intro u hh
    cases hh
    exact queued_push s _ _
  case canceled row _ hp =>
    refine watched_of_write (r := { row with status := .canceled }) hs hp rfl rfl rfl ?_ ?_ ?_
    · intro hpending
      cases hpending
    · intro u _ hh
      cases hh
    · exact fun _ _ hf => hf
  case rescheduled row fireAt _ _ hp _ =>
    refine watched_of_write (r := { row with fireAtUtc := fireAt }) hs hp rfl rfl rfl ?_ ?_ ?_
    · exact fun _ => .inl rfl
    · intro u _ hh
      cases hh
    · exact fun _ _ hf => hf
  case purged hp hto =>
    intro u row hrow hpending
    have hold := (lookup_retain_eq_some.mp hrow).1
    rcases hs.serving hp hold hpending with hq | hh | hf
    · exact .inl hq
    · cases hh
    · exact .inr (.inr hf)
  case scheduler hp hfrom hto hitems =>
    refine watched_of_scheduler hs hp rfl rfl (fun _ hq => hq.of_items hitems) ?_
    intro u row _ _ hf
    cases hfrom.charge.symm.trans hf
  case popped hp hitems =>
    refine watched_of_serving hs hp rfl rfl ?_
    rintro u row _ _ (⟨entry, hin, hu, hretry⟩ | hh | hf)
    · rcases hitems entry hin with hin' | htaken
      · exact .inl ⟨entry, hin', hu, hretry⟩
      · exact .inr (.inr (congrArg some (htaken.symm.trans hu)))
    · exact .inr (.inl hh)
    · cases hf
  case unread hp hfails =>
    refine watched_of_scheduler hs hp rfl rfl (fun _ hq => hq) ?_
    intro u row hrow hpending hf
    cases hf
    have hq : s.Queued _ := queued_of_not_loses hp hlose hrow hpending (.inl hfails)
    exact .inl hq
  case settled hp hover =>
    refine watched_of_scheduler hs hp rfl rfl (fun _ hq => hq) ?_
    intro u row hrow hpending hf
    cases hf
    exact absurd hpending (hover row hrow)
  case early hp hread =>
    refine watched_of_scheduler hs hp rfl rfl (fun _ hq => hq.push _) ?_
    intro u row hrow hpending hf
    cases hf
    rw [hs.keyed _ _ hread]
    exact .inl (queued_push s _ _)
  case uncomputed hp hread hstatus hdue hfire =>
    refine watched_of_scheduler hs hp rfl rfl (fun _ hq => hq) ?_
    intro u row hrow hpending hf
    cases hf
    have hq : s.Queued _ := queued_of_not_loses hp hlose hread hstatus (.inr ⟨hdue, hfire⟩)
    exact .inl hq
  case taken hp hread hstatus hdue hsaves =>
    refine watched_of_scheduler hs hp rfl rfl (fun _ hq => hq) ?_
    intro u row hrow hpending hf
    cases hf
    have hu := hsaves.uuid.trans (hs.keyed _ _ hread)
    exact .inr (congrArg some hu)
  case savedRecurring saved hp hkind =>
    refine watched_of_write (r := saved) hs hp rfl rfl rfl ?_ ?_ ?_
    · exact fun _ => .inr rfl
    · exact fun _ _ hh => hh
    · intro u hu hf
      exact absurd (Option.some.inj hf).symm hu
  case savedOneShot saved hp hkind =>
    have hsaves := hs.saves _ _ _ (firing_of hp)
    refine watched_of_write (r := saved) hs hp rfl rfl rfl ?_ ?_ ?_
    · intro hpending
      cases hpending.symm.trans (hsaves.oneshot (hsaves.kind.symm.trans hkind)).1
    · exact fun _ _ hh => hh
    · intro u hu hf
      exact absurd (Option.some.inj hf).symm hu
  case unsaved hp | again hp =>
    refine watched_of_scheduler hs hp rfl rfl (fun _ hq => hq.push _) ?_
    intro u row hrow hpending hf
    cases hf
    exact .inl (queued_push s _ _)
  case started hp =>
    refine watched_of_scheduler hs hp rfl rfl (fun _ hq => hq) ?_
    intro u row hrow hpending hf
    cases hf
  all_goals cases hserving.symm.trans (by assumption)

end

theorem Moved.tracked (hm : Moved cfg s e s') (hlose : ¬ Loses cfg s e) (hs : s.Tracked) :
    s'.Tracked where
  keyed := hm.keyed hs.keyed
  watched := by
    by_cases hserving : ∃ h f, s.phase = .serving h f
    · obtain ⟨h, f, hp⟩ := hserving
      exact hm.watched_serving hlose hs hp
    · exact hm.watched_replay hlose hs fun h f hp => hserving ⟨h, f, hp⟩
  saves := hm.saves hs.saves

end

/-- In every run whose steps drop no pending timer's only entry, every pending timer has an entry in
the heap whenever both threads are idle. -/
theorem pending_timers_queued (cfg : Config) {t : Table} (ht : t.Keyed) (events : List Event)
    (hkept : Along (step cfg) (fun s e => ¬ Loses cfg s e) (Node.stopped t) events)
    (hidle : (events.foldl (step cfg) (Node.stopped t)).phase = .serving .idle .idle) :
    ∀ u row, (events.foldl (step cfg) (Node.stopped t)).timers.lookup u = some row →
      row.status = .pending → (events.foldl (step cfg) (Node.stopped t)).Queued u := by
  have hstart : (Node.stopped t).Tracked :=
    ⟨ht, fun _ _ _ _ => trivial, fun _ _ _ heq => by cases heq⟩
  have htracked := hkept.invariant (fun s e hlose hs => (step_moved cfg s e).tracked hlose hs) hstart
  intro u row hrow hpending
  rcases htracked.serving hidle hrow hpending with hq | hh | hf
  · exact hq
  · cases hh
  · cases hf

instance (cfg : Config) (s : Node) : DecidablePred (Loses cfg s)
  | .fire env => by
    unfold Loses
    dsimp only
    split <;> first | infer_instance | (split <;> infer_instance)
  | .startup env => by
    unfold Loses
    dsimp only
    split <;> infer_instance
  | .crash | .boot | .request .. | .unreachable .. | .handle _ | .wake _ =>
    inferInstanceAs (Decidable False)

namespace Contention

/-- The scheduler takes the due timer off its heap, and the read of its row fails. -/
def unreadable : List Event :=
  scheduled ++ [.wake 60000, .fire (clock 60000), .fire { now := 60000, fails := true },
    .fire (clock 60000)]

def row : TimerRow where
  uuid := "t"
  ownerL2Name := "WF.a@hive"
  targetL2Name := "WF.a@hive"
  kind := .oneshot
  fireAtUtc := 60000
  createdAtUtc := 0

end Contention

open Contention in
/-- A timer whose row could not be read once stays pending with no entry in the heap. -/
theorem unread_timer_forgotten :
    (run unreadable).phase = .serving .idle .idle ∧
      ((run unreadable).timers.lookup "t").map TimerRow.status = some .pending ∧
      ¬ (run unreadable).Queued "t" := by
  decide +kernel

open Contention in
/-- The timer just scheduled is in the heap. -/
theorem pending_timers_queued_scheduled : (run scheduled).Queued "t" :=
  pending_timers_queued cfg Table.keyed_empty scheduled (by decide +kernel) (by decide +kernel) "t"
    row (by decide +kernel) rfl

end Fluxbee.Timer
