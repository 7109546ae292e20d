import Fluxbee.Timer.Node

/-! What one step of SY.timer can do to the table, the heap and where its two threads are. -/
namespace Fluxbee.Timer
open Node List Table

def Handling.holds : Handling → Option TimerRow
  | .writeCancel row | .writeReschedule row _ => some row
  | _ => none

def Handling.cancels : Handling → Option String
  | .reply (.canceled timerUuid) | .enqueue _ _ (.canceled timerUuid) => some timerUuid
  | _ => none

/-- The handler holds no row, has no entry to queue and no cancel to answer. -/
def Handling.Quiet : Handling → Prop
  | .insert _ _ | .enqueue _ _ _ | .writeCancel _ | .writeReschedule _ _ => False
  | .reply answer => ∀ timerUuid, answer ≠ .canceled timerUuid
  | _ => True

def Firing.holds : Firing → Option TimerRow
  | .writeFire _ fire _ => some fire.row
  | _ => none

def Firing.Quiet : Firing → Prop
  | .readFire _ _ | .writeFire _ _ _ | .requeue _ _ _ | .sendFire _ _ => False
  | _ => True

structure Saves (row saved : TimerRow) : Prop where
  uuid : saved.uuid = row.uuid
  kind : saved.kind = row.kind
  oneshot : row.kind = .oneshot → saved.status = .fired ∧ saved.fireAtUtc = row.fireAtUtc

inductive Moved (cfg : Config) (s : Node) : Event → Node → Prop
  | memory {e : Event} {items : List HeapEntry} {sent : AList fun _ : String => FireAttempt}
    (hitems : ∀ entry ∈ s.items, entry ∈ items) :
    Moved cfg s e { s with items := items, sent := sent }
  | stopped {e : Event} {items : List HeapEntry} {sent : AList fun _ : String => FireAttempt} :
    Moved cfg s e { s with phase := .down, items := items, sent := sent }
  | booted {e : Event} (hp : s.phase = .down) :
    Moved cfg s e { s with phase := .collecting, items := [], sent := ∅ }
  | collected {e : Event} {p : String → TimerRow → Bool} (hp : s.phase = .collecting) :
    Moved cfg s e { s with timers := s.timers.retain p, phase := .listing }
  | listed {e : Event} {now : ℤ} (hp : s.phase = .listing) :
    Moved cfg s e { s with phase := .replaying now s.timers.listPendingTimers }
  | skipped {env : Env} {now : ℤ} {row : TimerRow} {rest : List TimerRow} {err : TimeError}
    (hp : s.phase = .replaying now (row :: rest)) (hkind : row.kind = .recurring)
    (hnext : nextRecurringFireAt cfg.calendar row now = .error err) :
    Moved cfg s (.startup env) { s with phase := .replaying now rest }
  | requeued {e : Event} {now : ℤ} {row : TimerRow} {rest : List TimerRow} {fireAt : ℤ}
    (hp : s.phase = .replaying now (row :: rest)) (hkind : row.kind = .recurring) :
    Moved cfg s e { s with
      timers := s.timers.modify row.uuid fun _ => { row with fireAtUtc := fireAt }
      items := s.items ++ [⟨row.uuid, fireAt, none⟩]
      phase := .replaying now rest }
  | kept {e : Event} {now : ℤ} {row : TimerRow} {rest : List TimerRow}
    (hp : s.phase = .replaying now (row :: rest)) (hkind : row.kind = .oneshot) :
    Moved cfg s e { s with
      items := s.items ++ [⟨row.uuid, row.fireAtUtc, none⟩], phase := .replaying now rest }
  | dropped {e : Event} {now : ℤ} {row : TimerRow} {rest : List TimerRow}
    (hp : s.phase = .replaying now (row :: rest)) (hkind : row.kind = .oneshot) :
    Moved cfg s e { s with
      timers := s.timers.modify row.uuid fun _ => { row with status := .canceled }
      phase := .replaying now rest }
  | served {e : Event} {now : ℤ} (hp : s.phase = .replaying now []) :
    Moved cfg s e (s.enter .idle .idle)
  | handler {e : Event} {h h' : Handling} {f : Firing} (hp : s.phase = .serving h f)
    (hfrom : ∀ u at' answer, h ≠ .enqueue u at' answer) (hto : h'.Quiet) :
    Moved cfg s e (s.enter h' f)
  | drew {env : Env} {verb : String} {draft : TimerRow} {f : Firing}
    (hp : s.phase = .serving (.countAll verb draft) f) :
    Moved cfg s (.handle env) ({ s with issued := env.uuid :: s.issued }.enter
      (.insert verb { draft with uuid := env.uuid }) f)
  | inserted {e : Event} {verb : String} {row : TimerRow} {answer : Answer} {f : Firing}
    (hp : s.phase = .serving (.insert verb row) f)
    (hanswer : ∀ timerUuid, answer ≠ .canceled timerUuid) :
    Moved cfg s e ({ s with
      timers := s.timers.insert row.uuid row
      given := s.given.insert row.uuid row.fireAtUtc }.enter
        (.enqueue row.uuid row.fireAtUtc answer) f)
  | enqueued {e : Event} {u : String} {fireAt : ℤ} {answer : Answer} {f : Firing}
    (hp : s.phase = .serving (.enqueue u fireAt answer) f) :
    Moved cfg s e ((s.push ⟨u, fireAt, none⟩).enter (.reply answer) f)
  | readForCancel {e : Event} {h : Handling} {u : String} {row : TimerRow} {f : Firing}
    (hp : s.phase = .serving h f) (hfrom : ∀ u at' answer, h ≠ .enqueue u at' answer)
    (hrow : s.timers.lookup u = some row) (hstatus : row.status ≠ .fired) :
    Moved cfg s e (s.enter (.writeCancel row) f)
  | readForReschedule {e : Event} {h : Handling} {u : String} {row : TimerRow} {fireAt : ℤ}
    {f : Firing} (hp : s.phase = .serving h f)
    (hfrom : ∀ u at' answer, h ≠ .enqueue u at' answer)
    (hrow : s.timers.lookup u = some row) (hkind : row.kind = .oneshot)
    (hstatus : row.status = .pending) :
    Moved cfg s e (s.enter (.writeReschedule row fireAt) f)
  | canceled {env : Env} {row : TimerRow} {f : Firing}
    (hp : s.phase = .serving (.writeCancel row) f) :
    Moved cfg s (.handle env) ({ s with
      timers := s.timers.modify row.uuid fun _ => { row with status := .canceled } }.enter
        (.reply (.canceled row.uuid)) f)
  | rescheduled {env : Env} {row : TimerRow} {fireAt : ℤ} {answer : Answer} {f : Firing}
    (hp : s.phase = .serving (.writeReschedule row fireAt) f)
    (hanswer : ∀ timerUuid, answer ≠ .canceled timerUuid) :
    Moved cfg s (.handle env) ({ s with
      timers := s.timers.modify row.uuid fun _ => { row with fireAtUtc := fireAt }
      given := s.given.insert row.uuid fireAt }.enter (.enqueue row.uuid fireAt answer) f)
  | purged {e : Event} {h' : Handling} {owner : String} {f : Firing}
    {p : String → TimerRow → Bool} (hp : s.phase = .serving (.deleteOwned owner) f)
    (hto : h'.Quiet) : Moved cfg s e ({ s with timers := s.timers.retain p }.enter h' f)
  | answered {e : Event} {u : String} {f : Firing}
    (hp : s.phase = .serving (.reply (.canceled u)) f) :
    Moved cfg s e ({ s with log := s.log ++ [Note.cancelAnswered u] }.enter .idle f)
  | scheduler {e : Event} {h : Handling} {f f' : Firing} {items : List HeapEntry}
    {sent : AList fun _ : String => FireAttempt} (hp : s.phase = .serving h f)
    (hfrom : f.Quiet) (hto : f'.Quiet)
    (hitems : ∀ entry ∈ s.items, entry.retry = none → entry ∈ items) :
    Moved cfg s e ({ s with items := items, sent := sent }.enter h f')
  | popped {e : Event} {h : Handling} {now : ℤ} {u : String} {items : List HeapEntry}
    (hp : s.phase = .serving h (.draining now))
    (hitems : ∀ entry ∈ s.items, entry ∈ items ∨ entry.timerUuid = u) :
    Moved cfg s e ({ s with items := items }.enter h (.readFire now u))
  | unread {env : Env} {h : Handling} {now : ℤ} {u : String}
    (hp : s.phase = .serving h (.readFire now u)) (hfails : env.fails = true) :
    Moved cfg s (.fire env) (s.enter h (.draining now))
  | settled {e : Event} {h : Handling} {now : ℤ} {u : String}
    (hp : s.phase = .serving h (.readFire now u))
    (hrow : ∀ row, s.timers.lookup u = some row → row.status ≠ .pending) :
    Moved cfg s e (s.enter h (.draining now))
  | early {e : Event} {h : Handling} {now : ℤ} {u : String} {row : TimerRow}
    (hp : s.phase = .serving h (.readFire now u)) (hrow : s.timers.lookup u = some row) :
    Moved cfg s e ((s.push ⟨row.uuid, row.fireAtUtc, none⟩).enter h (.draining now))
  | uncomputed {env : Env} {h : Handling} {now : ℤ} {u : String} {row : TimerRow}
    (hp : s.phase = .serving h (.readFire now u)) (hrow : s.timers.lookup u = some row)
    (hstatus : row.status = .pending) (hdue : row.fireAtUtc ≤ now)
    (hfire : fireOf cfg row env.now = none) :
    Moved cfg s (.fire env) (s.enter h (.draining now))
  | taken {e : Event} {h : Handling} {now : ℤ} {u : String} {fire : FireAttempt}
    {saved : TimerRow} (hp : s.phase = .serving h (.readFire now u))
    (hrow : s.timers.lookup u = some fire.row) (hstatus : fire.row.status = .pending)
    (hdue : fire.row.fireAtUtc ≤ now) (hsaves : Saves fire.row saved) :
    Moved cfg s e (s.enter h (.writeFire now fire saved))
  | unsaved {e : Event} {h : Handling} {now fireAt : ℤ} {fire : FireAttempt} {saved : TimerRow}
    (hp : s.phase = .serving h (.writeFire now fire saved)) :
    Moved cfg s e ((s.push ⟨saved.uuid, fireAt, none⟩).enter h (.draining now))
  | savedRecurring {env : Env} {h : Handling} {now : ℤ} {fire : FireAttempt} {saved : TimerRow}
    (hp : s.phase = .serving h (.writeFire now fire saved)) (hkind : saved.kind = .recurring) :
    Moved cfg s (.fire env) ({ s with
      timers := s.timers.modify saved.uuid fun _ => saved }.enter h (.requeue now fire saved))
  | savedOneShot {env : Env} {h : Handling} {now : ℤ} {fire : FireAttempt} {saved : TimerRow}
    (hp : s.phase = .serving h (.writeFire now fire saved)) (hkind : saved.kind = .oneshot) :
    Moved cfg s (.fire env) ({ s with
      timers := s.timers.modify saved.uuid fun _ => saved }.enter h (.sendFire now fire))
  | again {e : Event} {h : Handling} {now : ℤ} {fire : FireAttempt} {saved : TimerRow}
    (hp : s.phase = .serving h (.requeue now fire saved)) :
    Moved cfg s e ((s.push ⟨saved.uuid, saved.fireAtUtc, none⟩).enter h (.sendFire now fire))
  | started {e : Event} {h : Handling} {now : ℤ} {fire fire' : FireAttempt} {traceId : String}
    {sent : AList fun _ : String => FireAttempt}
    (hp : s.phase = .serving h (.sendFire now fire)) :
    Moved cfg s e ({ s with
      sent := sent
      log := s.log ++ [Note.started ⟨fire.row.uuid, fire.row.kind, now,
        s.given.lookup fire.row.uuid⟩] }.enter h
        (.emit now traceId fire'))

variable {cfg : Config} {s : Node} {env : Env} {e : Event} {row : TimerRow} {source : String}

theorem Moved.still : Moved cfg s e s := .memory fun _ h => h

variable {saved : TimerRow} {fire : FireAttempt} {entry : HeapEntry} {now : ℤ} {ref : Reference}

theorem saves_of_fireOf {actual : ℤ}
    (h : fireOf cfg row actual = some (fire, saved)) : fire.row = row ∧ Saves row saved := by
  unfold fireOf at h
  cases hkind : row.kind with
  | oneshot =>
    rw [hkind] at h
    cases h
    exact ⟨rfl, ⟨rfl, hkind ▸ rfl, fun _ => ⟨rfl, rfl⟩⟩⟩
  | recurring =>
    rw [hkind] at h
    dsimp only at h
    split at h
    · cases h
    · cases h
      refine ⟨rfl, ⟨rfl, hkind ▸ rfl, ?_⟩⟩
      intro hone
      cases hone.symm.trans hkind

theorem mem_push {new : HeapEntry} (h : entry ∈ s.items) : entry ∈ (s.push new).items :=
  mem_append_left _ h

theorem retryLater_eq (s : Node) (fire : FireAttempt) (now : ℤ) :
    ∃ items, s.retryLater fire now = { s with items := items } ∧ ∀ entry ∈ s.items, entry ∈ items := by
  unfold retryLater
  dsimp only
  split_ifs with hlate
  · exact ⟨s.items, rfl, fun _ h => h⟩
  · exact ⟨_, rfl, fun _ h => mem_push h⟩

theorem popDue_some {s' : Node} (h : s.popDue env now = some (entry, s')) :
    ∃ items, s' = { s with items := items } ∧ ∀ other ∈ s.items, other ∈ items ∨ other = entry := by
  unfold popDue at h
  split at h
  · rename_i found hfound
    split_ifs at h with hdue
    cases h
    refine ⟨_, rfl, ?_⟩
    intro other hother
    obtain ⟨i, hi, hget⟩ := mem_iff_getElem.mp hother
    by_cases hpick : i = env.pick
    · subst hpick
      right
      rw [getElem?_eq_getElem hi, Option.some.injEq] at hfound
      exact hget.symm.trans hfound
    · left
      exact mem_eraseIdx_iff_getElem.mpr ⟨i, hi, hpick, hget⟩
  · cases h

theorem resolve_some
    (h : s.resolve env source ref = .ok (some row)) : ∃ u, s.timers.lookup u = some row := by
  have hfound : s.referred source ref = some row := by
    unfold resolve at h
    split_ifs at h with hfails
    split at h
    · cases h
    · rename_i found hfound
      split_ifs at h with howner
      cases h
      exact hfound
  unfold referred at hfound
  split_ifs at hfound with hby
  · exact ⟨_, hfound⟩
  · exact AList.mem_values.mp (findPending_mem hfound).1

theorem quiet_begin (q : Request) : (begin cfg env source q).Quiet := by
  cases q <;> unfold begin <;> dsimp only
  case schedule | scheduleRecurring =>
    split
    · intro u hu
      cases hu
    · split_ifs <;> trivial
  case cancel | reschedule =>
    split
    · intro u hu
      cases hu
    · trivial
  case purgeOwner owner =>
    generalize isCanonicalL2Name (Text.trim owner) = canonical
    generalize cfg.localOrchestratorL2Name = orchestrator
    by_cases hsource : source ≠ orchestrator
    · rw [if_pos hsource]
      intro u hu
      cases hu
    · rw [if_neg hsource]
      cases canonical with
      | true => trivial
      | false =>
        intro u hu
        cases hu

section
variable {f : Firing}

theorem cancelFound_moved (hp : s.phase = .serving (.resolveCancel source ref) f) :
    Moved cfg s e (s.enter (cancelFound ref (s.resolve env source ref)) f) := by
  cases hfound : s.resolve env source ref with
  | error fault => exact .handler hp nofun nofun
  | ok found =>
    cases found with
    | none =>
      unfold cancelFound
      split_ifs
      · exact .handler hp nofun nofun
      · exact .handler hp nofun nofun
    | some row =>
      obtain ⟨u, hu⟩ := resolve_some hfound
      unfold cancelFound
      dsimp only
      split_ifs with hstatus
      · exact .handler hp nofun nofun
      · exact .readForCancel hp nofun hu hstatus

theorem rescheduleFound_moved {newAt newIn : Option ℤ}
    (hp : s.phase = .serving (.resolveReschedule source ref newAt newIn) f) :
    Moved cfg s e (s.enter (rescheduleFound env newAt newIn (s.resolve env source ref)) f) := by
  cases hfound : s.resolve env source ref with
  | error fault => exact .handler hp nofun nofun
  | ok found =>
    cases found with
    | none => exact .handler hp nofun nofun
    | some row =>
      obtain ⟨u, hu⟩ := resolve_some hfound
      unfold rescheduleFound
      dsimp only
      split_ifs with hkind hstatus
      · exact .handler hp nofun nofun
      · exact .handler hp nofun nofun
      · have hone : row.kind = .oneshot := by
          cases hk : row.kind with
          | oneshot => rfl
          | recurring => exact absurd hk hkind
        split
        · exact .handler hp nofun nofun
        · exact .readForReschedule hp nofun hu hone (not_not.mp hstatus)

theorem handleStep_moved {h : Handling} (hp : s.phase = .serving h f) :
    Moved cfg s (.handle env) (s.handleStep cfg env f h) := by
  cases h <;> unfold handleStep <;> dsimp only
  case idle => exact .still
  case findExisting verb draft =>
    split_ifs
    · exact .handler hp nofun nofun
    · split
      · exact .handler hp nofun nofun
      · exact .handler hp nofun trivial
  case countOwned verb draft =>
    split_ifs
    · exact .handler hp nofun nofun
    · exact .handler hp nofun nofun
    · exact .handler hp nofun trivial
  case countAll verb draft =>
    split_ifs
    · exact .handler hp nofun nofun
    · exact .handler hp nofun nofun
    · exact .drew hp
  case insert verb row =>
    split_ifs
    · exact .handler hp nofun nofun
    · split
      · rename_i timers hok
        obtain ⟨rfl, -⟩ := insertTimer_ok hok
        exact .inserted hp nofun
      · exact .handler hp nofun trivial
      · exact .handler hp nofun nofun
  case findWinner verb row =>
    split
    · split_ifs
      · exact .handler hp nofun nofun
      · exact .handler hp nofun nofun
    · exact .handler hp nofun nofun
  case enqueue u fireAt answer => exact .enqueued hp
  case resolveCancel source ref => exact cancelFound_moved hp
  case writeCancel row =>
    split_ifs
    · exact .handler hp nofun nofun
    · split
      · rename_i timers hok
        rw [updateTimer_some hok]
        exact @Moved.canceled cfg s env row f hp
      · exact .handler hp nofun nofun
  case resolveReschedule source ref newAt newIn => exact rescheduleFound_moved hp
  case writeReschedule row fireAt =>
    split_ifs
    · exact .handler hp nofun nofun
    · split
      · rename_i timers hok
        rw [updateTimer_some hok]
        exact @Moved.rescheduled cfg s env row fireAt _ f hp nofun
      · exact .handler hp nofun nofun
  case deleteOwned owner =>
    split_ifs
    · exact .handler hp nofun nofun
    · exact .purged hp nofun
  case reply answer =>
    split
    · exact .answered hp
    · exact .handler hp nofun trivial

end

section
variable {h : Handling} {now : ℤ}

theorem draining_moved (hp : s.phase = .serving h (.draining now)) :
    Moved cfg s e (s.fireStep cfg env h (.draining now)) := by
  unfold fireStep
  dsimp only
  split
  · rename_i entry s' hpop
    obtain ⟨items, rfl, hitems⟩ := popDue_some hpop
    cases hretry : entry.retry with
    | some fire =>
      refine .scheduler hp trivial trivial ?_
      intro other hother hnone
      rcases hitems other hother with hin | rfl
      · exact hin
      · cases hretry.symm.trans hnone
    | none =>
      refine .popped hp ?_
      intro other hother
      rcases hitems other hother with hin | rfl
      · exact .inl hin
      · exact .inr rfl
  · split_ifs
    · exact .scheduler hp trivial trivial fun _ hin _ => hin
    · exact .still

theorem readFire_moved {u : String} (hp : s.phase = .serving h (.readFire now u)) :
    Moved cfg s (.fire env) (s.fireStep cfg env h (.readFire now u)) := by
  unfold fireStep
  dsimp only
  split_ifs with hfails
  · exact .unread hp hfails
  · cases hrow : s.timers.getTimer u with
    | none =>
      refine .settled hp ?_
      intro row hsome
      cases hrow.symm.trans hsome
    | some row =>
      dsimp only
      split_ifs with hstatus hearly
      · refine .settled hp ?_
        intro row' hrow'
        rw [← Option.some.inj (hrow.symm.trans hrow')]
        exact hstatus
      · exact .early hp hrow
      · cases hfire : fireOf cfg row env.now with
        | none => exact .uncomputed hp hrow (not_not.mp hstatus) (not_lt.mp hearly) hfire
        | some made =>
          obtain ⟨fire, saved⟩ := made
          obtain ⟨hfrom, hsaves⟩ := saves_of_fireOf hfire
          subst hfrom
          exact .taken hp hrow (not_not.mp hstatus) (not_lt.mp hearly) hsaves

theorem writeFire_moved (hp : s.phase = .serving h (.writeFire now fire saved)) :
    Moved cfg s (.fire env) (s.fireStep cfg env h (.writeFire now fire saved)) := by
  unfold fireStep
  dsimp only
  split
  · exact .unsaved hp
  · rename_i timers hwrite
    split_ifs at hwrite with hfails
    rw [updateTimer_some hwrite]
    split_ifs with hkind
    · exact .savedRecurring hp hkind
    · have hone : saved.kind = .oneshot := by
        cases hk : saved.kind with
        | oneshot => rfl
        | recurring => exact absurd hk hkind
      exact .savedOneShot hp hone

theorem fireStep_moved {f : Firing} (hp : s.phase = .serving h f) :
    Moved cfg s (.fire env) (s.fireStep cfg env h f) := by
  cases f
  case idle => exact .still
  case draining now => exact draining_moved hp
  case readFire now u => exact readFire_moved hp
  case writeFire now fire saved => exact writeFire_moved hp
  case requeue now fire saved => exact .again hp
  case sendFire now fire => exact .started hp
  case readRetry now fire =>
    unfold fireStep
    dsimp only
    split_ifs
    · obtain ⟨items, heq, hitems⟩ := retryLater_eq s fire env.now
      rw [heq]
      exact .scheduler hp trivial trivial fun entry hin _ => hitems entry hin
    · split
      · exact .scheduler hp trivial trivial fun _ hin _ => hin
      · split_ifs
        · exact .scheduler hp trivial trivial fun _ hin _ => hin
        · exact .scheduler hp trivial trivial fun _ hin _ => hin
  case sendRetry now fire => exact .scheduler hp trivial trivial fun _ hin _ => hin
  case emit now traceId fire =>
    unfold fireStep
    dsimp only
    split_ifs
    · exact .scheduler hp trivial trivial fun _ hin _ => hin
    · obtain ⟨items, heq, hitems⟩ :=
        retryLater_eq { s with sent := s.sent.erase traceId } fire env.now
      rw [heq]
      exact .scheduler hp trivial trivial fun entry hin _ => hitems entry hin
    · exact .scheduler hp trivial trivial fun _ hin _ => hin

end

theorem saveReplayed_moved {next : Node → Node}
    (hnext : Moved cfg s e (next { s with timers := s.timers.modify row.uuid fun _ => row })) :
    Moved cfg s e (s.saveReplayed cfg env row next) := by
  unfold saveReplayed
  split
  · exact .stopped
  · rename_i timers hwrite
    split_ifs at hwrite with hfails
    rw [updateTimer_some hwrite]
    exact hnext

theorem replayRow_moved {rest : List TimerRow} (hp : s.phase = .replaying now (row :: rest)) :
    Moved cfg s (.startup env) (s.replayRow cfg env now row rest) := by
  unfold replayRow
  split
  · rename_i hkind
    split
    · rename_i err hnext
      exact .skipped hp hkind hnext
    · exact saveReplayed_moved (@Moved.requeued cfg s _ now row rest _ hp hkind)
  · rename_i hkind
    split_ifs
    · exact .kept hp hkind
    · exact saveReplayed_moved (@Moved.dropped cfg s _ now row rest hp hkind)

theorem startupStep_moved : Moved cfg s (.startup env) (s.startupStep cfg env s.phase) := by
  cases hp : s.phase with
  | down | serving h f => exact .still
  | collecting =>
    unfold startupStep
    split_ifs
    · have hall : s.timers.retain (fun _ _ => true) = s.timers := AList.ext (filter_true _)
      have hmoved := @Moved.collected cfg s (.startup env) (fun _ _ => true) hp
      rwa [hall] at hmoved
    · exact .collected hp
  | listing =>
    unfold startupStep
    split_ifs
    · exact .stopped
    · exact .listed hp
  | replaying now rows =>
    cases rows with
    | nil => exact .served hp
    | cons row rest => exact replayRow_moved hp

theorem undelivered_moved {traceId reason : String} :
    Moved cfg s e (s.undelivered traceId reason now) := by
  unfold undelivered
  split
  · exact .still
  · dsimp only
    split_ifs
    · obtain ⟨items, heq, hitems⟩ := retryLater_eq { s with sent := s.sent.erase traceId } _ now
      rw [heq]
      exact .memory hitems
    · exact .memory fun _ hin => hin

theorem step_moved (cfg : Config) (s : Node) (e : Event) : Moved cfg s e (step cfg s e) := by
  cases e with
  | crash => exact .stopped
  | boot =>
    unfold step
    split_ifs with hp
    · exact .booted hp
    · exact .still
  | startup env => exact startupStep_moved
  | request source q env =>
    unfold step
    dsimp only
    split
    · rename_i f hp
      exact .handler hp nofun (quiet_begin q)
    · exact .still
  | unreachable traceId reason now =>
    unfold step
    dsimp only
    split
    · exact undelivered_moved
    · exact .still
  | handle env =>
    unfold step
    dsimp only
    split
    · rename_i h f hp
      exact handleStep_moved hp
    · exact .still
  | wake now =>
    unfold step
    dsimp only
    split
    · rename_i h hp
      exact .scheduler hp trivial trivial fun _ hin _ => hin
    · exact .still
  | fire env =>
    unfold step
    dsimp only
    split
    · rename_i h f hp
      exact fireStep_moved hp
    · exact .still

end Fluxbee.Timer
