import Fluxbee.Lib.GuardedRun
import Fluxbee.Timer.Moves

/-! A one-shot timer fires once, on time, and not after its cancel was answered, as long as no
thread writes a row back while the other one is about to. -/
namespace Fluxbee.Timer
open Node GuardedRun List AList Option Table

def Node.handling (s : Node) : Handling :=
  match s.phase with
  | .serving h _ => h
  | _ => .idle

def Node.firing (s : Node) : Firing :=
  match s.phase with
  | .serving _ f => f
  | _ => .idle

/-- The row of the fire the scheduler is at, from the read of its row to its start. -/
def Firing.carries : Firing → Option TimerRow
  | .writeFire _ fire _ | .requeue _ fire _ | .sendFire _ fire => some fire.row
  | _ => none

def Note.timerUuid : Note → String
  | .started start => start.timerUuid
  | .cancelAnswered timerUuid => timerUuid

/-- After this note its timer must not start a fire. -/
def Note.Ends : Note → Prop
  | .started start => start.kind = .oneshot
  | .cancelAnswered _ => True

/-- Each one-shot starts at most one fire, none before its fire time as the table has it, and none
once a cancel of it was answered as found. -/
structure FiresOnce (log : List Note) : Prop where
  once : log.Pairwise fun earlier later => ∀ start again, earlier = .started start →
    later = .started again → start.kind = .oneshot → again.kind = .oneshot →
    start.timerUuid ≠ again.timerUuid
  onTime : ∀ start, .started start ∈ log → start.kind = .oneshot →
    ∀ fireAt, start.fireAtUtc = some fireAt → fireAt ≤ start.now
  notCanceled : log.Pairwise fun earlier later => ∀ timerUuid start,
    earlier = .cancelAnswered timerUuid → later = .started start → start.kind = .oneshot →
    start.timerUuid ≠ timerUuid

/-- Nothing can start another fire of the one-shot `u`. -/
structure Ended (t : Table) (f : Firing) (u : String) : Prop where
  row : ∀ row, t.lookup u = some row → row.kind = .oneshot → row.status ≠ .pending
  carried : ∀ row, f.carries = some row → row.uuid = u → row.kind ≠ .oneshot

structure Sound (t : Table) (given : AList fun _ : String => ℤ) (h : Handling) (f : Firing)
    (issued : List String) (log : List Note) : Prop where
  keyed : t.Keyed
  stored : ∀ u row, t.lookup u = some row → u ∈ issued ∧
    (row.kind = .oneshot → given.lookup u = some row.fireAtUtc)
  carried : ∀ row, f.carries = some row → row.uuid ∈ issued ∧
    (row.kind = .oneshot → given.lookup row.uuid = some row.fireAtUtc) ∧
    ∀ row', t.lookup row.uuid = some row' → row'.kind = row.kind
  writing : ∀ now fire saved, f = .writeFire now fire saved → Saves fire.row saved ∧
    fire.row.fireAtUtc ≤ now ∧
    (fire.row.kind = .oneshot → ∀ row, t.lookup fire.row.uuid = some row → row = fire.row)
  requeuing : ∀ now fire saved, f = .requeue now fire saved → fire.row.kind = .recurring
  sending : ∀ now fire, f = .sendFire now fire → fire.row.kind = .oneshot →
    fire.row.fireAtUtc ≤ now ∧ ∀ row, t.lookup fire.row.uuid = some row → row.status = .fired
  inserting : ∀ verb row, h = .insert verb row → row.uuid ∈ issued ∧
    t.lookup row.uuid = none ∧ (∀ row', f.carries = some row' → row'.uuid ≠ row.uuid) ∧
    ∀ note ∈ log, note.timerUuid ≠ row.uuid
  holding : ∀ row, h.holds = some row → ∃ row', t.lookup row.uuid = some row' ∧
    row'.kind = row.kind ∧ (row.kind = .oneshot → row' = row ∧ row.status ≠ .fired)
  rescheduling : ∀ row fireAt, h = .writeReschedule row fireAt →
    row.kind = .oneshot ∧ row.status = .pending
  canceling : ∀ u, h.cancels = some u → u ∈ issued ∧ Ended t f u
  ended : ∀ note ∈ log, note.timerUuid ∈ issued ∧ (note.Ends → Ended t f note.timerUuid)
  log : FiresOnce log

variable {row : TimerRow} {fire : FireAttempt} {verb : String} {log : List Note} {fireAt : ℤ}
  {answer : Answer} {h : Handling} {f : Firing} {t : Table}

section
variable {h : Handling} {f : Firing}

theorem Handling.Quiet.holds (hq : h.Quiet) : h.holds = none := by
  cases h <;> first | rfl | exact hq.elim

theorem Handling.Quiet.cancels (hq : h.Quiet) : h.cancels = none := by
  cases h
  case reply answer =>
    cases answer
    case canceled u => exact absurd rfl (hq u)
    all_goals rfl
  case enqueue => exact hq.elim
  all_goals rfl

theorem Handling.Quiet.not_insert (hq : h.Quiet) : h ≠ .insert verb row := by
  rintro rfl
  exact hq

theorem Firing.Quiet.carries (hq : f.Quiet) : f.carries = none := by
  cases f <;> first | rfl | exact hq.elim

end

namespace Sound
variable {t : Table} {given : AList fun _ : String => ℤ} {h h' : Handling} {f f' : Firing}
  {issued : List String} {log : List Note} {u : String} {row : TimerRow}

section
variable (hs : Sound t given h f issued log)
include hs

theorem handled (hinsert : ∀ verb row, h' ≠ .insert verb row)
    (hholds : ∀ row, h'.holds = some row → ∃ row', t.lookup row.uuid = some row' ∧
      row'.kind = row.kind ∧ (row.kind = .oneshot → row' = row ∧ row.status ≠ .fired))
    (hresched : ∀ row fireAt, h' = .writeReschedule row fireAt →
      row.kind = .oneshot ∧ row.status = .pending)
    (hcancels : ∀ u, h'.cancels = some u → u ∈ issued ∧ Ended t f u) :
    Sound t given h' f issued log :=
  { hs with
    inserting := fun verb row heq => absurd heq (hinsert verb row)
    holding := hholds
    rescheduling := hresched
    canceling := hcancels }

theorem letGo (hholds : h'.holds = none) (hinsert : ∀ verb row, h' ≠ .insert verb row)
    (hcancels : ∀ u, h'.cancels = some u → u ∈ issued ∧ Ended t f u) :
    Sound t given h' f issued log := by
  refine hs.handled hinsert (fun row hrow => nomatch hholds.symm.trans hrow) ?_ hcancels
  rintro row fireAt rfl
  cases hholds

theorem toQuiet (hq : h'.Quiet) : Sound t given h' f issued log :=
  hs.letGo hq.holds (fun _ _ => hq.not_insert) fun _ hu => nomatch hq.cancels.symm.trans hu

end

theorem Ended.quiet (he : Ended t f u) (hf : f'.carries = none) : Ended t f' u :=
  ⟨he.row, fun _ hrow => nomatch hf.symm.trans hrow⟩

section
variable (hs : Sound t given h f issued log)
include hs

theorem fireQuiet (hf : f'.carries = none) : Sound t given h f' issued log where
  keyed := hs.keyed
  stored := hs.stored
  carried := fun _ hrow => nomatch hf.symm.trans hrow
  writing := by
    rintro now fire saved rfl
    cases hf
  requeuing := by
    rintro now fire saved rfl
    cases hf
  sending := by
    rintro now fire rfl
    cases hf
  inserting := by
    intro verb row heq
    obtain ⟨hin, hnone, -, hlog⟩ := hs.inserting verb row heq
    exact ⟨hin, hnone, fun row' hrow' => (nomatch hf.symm.trans hrow'), hlog⟩
  holding := hs.holding
  rescheduling := hs.rescheduling
  canceling := fun u hu => ⟨(hs.canceling u hu).1, Ended.quiet (hs.canceling u hu).2 hf⟩
  ended := fun note hn =>
    ⟨(hs.ended note hn).1, fun hends => Ended.quiet ((hs.ended note hn).2 hends) hf⟩
  log := hs.log

theorem retain (hh : h.holds = none)
    (p : String → TimerRow → Bool) : Sound (t.retain p) given h f issued log := by
  have hkeeps {u : String} {row : TimerRow} (hrow : (t.retain p).lookup u = some row) :
      t.lookup u = some row := (lookup_retain_eq_some.mp hrow).1
  have hends {u : String} (he : Ended t f u) : Ended (t.retain p) f u :=
    ⟨fun row hrow => he.row row (hkeeps hrow), he.carried⟩
  exact {
    keyed := hs.keyed.retain p
    stored := fun u row hrow => hs.stored u row (hkeeps hrow)
    carried := by
      intro row hrow
      obtain ⟨hin, hgiven, hkind⟩ := hs.carried row hrow
      exact ⟨hin, hgiven, fun row' hrow' => hkind row' (hkeeps hrow')⟩
    writing := fun now fire saved heq =>
      have hw := hs.writing now fire saved heq
      ⟨hw.1, hw.2.1, fun hone row hrow => hw.2.2 hone row (hkeeps hrow)⟩
    requeuing := hs.requeuing
    sending := fun now fire heq hone =>
      have hw := hs.sending now fire heq hone
      ⟨hw.1, fun row hrow => hw.2 row (hkeeps hrow)⟩
    inserting := by
      intro verb row heq
      obtain ⟨hin, hnone, hcarried, hlog⟩ := hs.inserting verb row heq
      refine ⟨hin, ?_, hcarried, hlog⟩
      rw [lookup_retain, hnone]
      rfl
    holding := fun row hrow => nomatch hh.symm.trans hrow
    rescheduling := hs.rescheduling
    canceling := fun u hu => ⟨(hs.canceling u hu).1, hends (hs.canceling u hu).2⟩
    ended := fun note hn =>
      ⟨(hs.ended note hn).1, fun hnote => hends ((hs.ended note hn).2 hnote)⟩
    log := hs.log }

/-- A row is written back. A one-shot stays pending only if it was, and a thread that is about to
write the same row back is about to write a recurring one. -/
theorem write {r : TimerRow}
    {given' : AList fun _ : String => ℤ} (hgiven : ∀ u, u ≠ r.uuid → given'.lookup u = given.lookup u)
    (hdue : r.kind = .oneshot → ∀ old, t.lookup r.uuid = some old →
      given'.lookup r.uuid = some r.fireAtUtc) (hlive : r.kind = .oneshot → r.status = .pending →
      ∀ old, t.lookup r.uuid = some old → old.kind = .oneshot ∧ old.status = .pending)
    (hfire : ∀ row, f.carries = some row → row.uuid = r.uuid → row.kind = .recurring ∧
      r.kind = .recurring)
    (hhold : ∀ row, h.holds = some row → row.uuid = r.uuid → row.kind = .recurring ∧
      r.kind = .recurring) : Sound (t.modify r.uuid fun _ => r) given' h f issued log := by
  have hread {u : String} {row : TimerRow}
      (hrow : (t.modify r.uuid fun _ => r).lookup u = some row) :
      (u = r.uuid ∧ row = r ∧ ∃ old, t.lookup u = some old) ∨
        (u ≠ r.uuid ∧ t.lookup u = some row) := by
    rw [lookup_modify_const] at hrow
    split_ifs at hrow with hu
    · exact .inl ⟨hu, hrow.2, isSome_iff_exists.mp hrow.1⟩
    · exact .inr ⟨hu, hrow⟩
  have hends {u : String} (he : Ended t f u) : Ended (t.modify r.uuid fun _ => r) f u := by
    refine ⟨?_, he.carried⟩
    intro row hrow hone hpending
    rcases hread hrow with ⟨rfl, rfl, old, hold⟩ | ⟨-, hrow⟩
    · obtain ⟨hkind, hstatus⟩ := hlive hone hpending old hold
      exact he.row old hold hkind hstatus
    · exact he.row row hrow hone hpending
  refine {
    keyed := hs.keyed.modify r
    stored := ?_
    carried := ?_
    writing := ?_
    requeuing := hs.requeuing
    sending := ?_
    inserting := ?_
    holding := ?_
    rescheduling := hs.rescheduling
    canceling := fun u hu => ⟨(hs.canceling u hu).1, hends (hs.canceling u hu).2⟩
    ended := fun note hn =>
      ⟨(hs.ended note hn).1, fun hnote => hends ((hs.ended note hn).2 hnote)⟩
    log := hs.log }
  · intro u row hrow
    rcases hread hrow with ⟨rfl, rfl, old, hold⟩ | ⟨hu, hrow⟩
    · exact ⟨(hs.stored _ old hold).1, fun hone => hdue hone old hold⟩
    · rw [hgiven u hu]
      exact hs.stored u row hrow
  · intro row hrow
    obtain ⟨hin, hold, hkind⟩ := hs.carried row hrow
    refine ⟨hin, ?_, ?_⟩
    · intro hone
      have hu : row.uuid ≠ r.uuid := by
        intro hu
        cases hone.symm.trans (hfire row hrow hu).1
      rw [hgiven _ hu]
      exact hold hone
    · intro row' hrow'
      rcases hread hrow' with ⟨hu, rfl, -⟩ | ⟨-, hrow'⟩
      · obtain ⟨hrec, hr⟩ := hfire row hrow hu
        rw [hrec, hr]
      · exact hkind row' hrow'
  · intro now fire saved heq
    obtain ⟨hsaves, hdue, hcur⟩ := hs.writing now fire saved heq
    refine ⟨hsaves, hdue, ?_⟩
    intro hone row hrow
    rcases hread hrow with ⟨hu, -, -⟩ | ⟨-, hrow⟩
    · have hkind := (hfire fire.row (by rw [heq]; rfl) hu).1
      cases hone.symm.trans hkind
    · exact hcur hone row hrow
  · intro now fire heq hone
    obtain ⟨hdue, hcur⟩ := hs.sending now fire heq hone
    refine ⟨hdue, ?_⟩
    intro row hrow
    rcases hread hrow with ⟨hu, -, -⟩ | ⟨-, hrow⟩
    · have hkind := (hfire fire.row (by rw [heq]; rfl) hu).1
      cases hone.symm.trans hkind
    · exact hcur row hrow
  · intro verb row heq
    obtain ⟨hin, hnone, hcarried, hlog⟩ := hs.inserting verb row heq
    refine ⟨hin, ?_, hcarried, hlog⟩
    rw [eq_none_iff_forall_ne_some]
    intro row' hrow'
    rcases hread hrow' with ⟨-, -, old, hold⟩ | ⟨-, hrow'⟩
    · cases hnone.symm.trans hold
    · cases hnone.symm.trans hrow'
  · intro row hrow
    obtain ⟨row', hrow', hkind, hone⟩ := hs.holding row hrow
    by_cases hu : row.uuid = r.uuid
    · obtain ⟨hrec, hr⟩ := hhold row hrow hu
      refine ⟨r, ?_, hr.trans hrec.symm, ?_⟩
      · rw [lookup_modify_const, if_pos hu, hrow']
        exact ⟨rfl, rfl⟩
      · intro hsame
        cases hsame.symm.trans hrec
    · refine ⟨row', ?_, hkind, hone⟩
      rw [lookup_modify_const, if_neg hu]
      exact hrow'

theorem insert (hq : h.Quiet) (hin : row.uuid ∈ issued)
    (hcarried : ∀ row', f.carries = some row' → row'.uuid ≠ row.uuid)
    (hlog : ∀ note ∈ log, note.timerUuid ≠ row.uuid) :
    Sound (t.insert row.uuid row) (given.insert row.uuid row.fireAtUtc) h f issued log := by
  have hgiven {u : String} (hu : u ≠ row.uuid) :
      (given.insert row.uuid row.fireAtUtc).lookup u = given.lookup u := lookup_insert_ne hu
  have hread {u : String} (hu : u ≠ row.uuid) : (t.insert row.uuid row).lookup u = t.lookup u :=
    lookup_insert_ne hu
  refine {
    keyed := hs.keyed.insert
    stored := ?_
    carried := ?_
    writing := ?_
    requeuing := hs.requeuing
    sending := ?_
    inserting := fun _ _ heq => absurd heq hq.not_insert
    holding := fun row hrow => nomatch hq.holds.symm.trans hrow
    rescheduling := by
      rintro row fireAt rfl
      exact hq.elim
    canceling := fun u hu => nomatch hq.cancels.symm.trans hu
    ended := ?_
    log := hs.log }
  · intro u row' hrow'
    by_cases hu : u = row.uuid
    · subst hu
      rw [lookup_insert, Option.some.injEq] at hrow'
      subst hrow'
      exact ⟨hin, fun _ => lookup_insert _⟩
    · rw [hread hu] at hrow'
      rw [hgiven hu]
      exact hs.stored u row' hrow'
  · intro row' hrow'
    rw [hread (hcarried row' hrow'), hgiven (hcarried row' hrow')]
    exact hs.carried row' hrow'
  · intro now fire saved heq
    rw [hread (hcarried fire.row (by rw [heq]; rfl))]
    exact hs.writing now fire saved heq
  · intro now fire heq
    rw [hread (hcarried fire.row (by rw [heq]; rfl))]
    exact hs.sending now fire heq
  · intro note hn
    refine ⟨(hs.ended note hn).1, ?_⟩
    intro hnote
    have he := (hs.ended note hn).2 hnote
    refine ⟨?_, he.carried⟩
    rw [hread (hlog note hn)]
    exact he.row

theorem drawn (hfresh : u ∉ issued) (hrow : row.uuid = u)
    (verb : String) : Sound t given (.insert verb row) f (u :: issued) log where
  keyed := hs.keyed
  stored := fun u' row' h' =>
    ⟨mem_cons_of_mem _ (hs.stored u' row' h').1, (hs.stored u' row' h').2⟩
  carried := fun row' h' => ⟨mem_cons_of_mem _ (hs.carried row' h').1, (hs.carried row' h').2⟩
  writing := hs.writing
  requeuing := hs.requeuing
  sending := hs.sending
  inserting := by
    rintro verb' row' heq
    cases heq
    subst hrow
    refine ⟨mem_cons_self, ?_, ?_, ?_⟩
    · rw [eq_none_iff_forall_ne_some]
      intro row' h'
      exact hfresh (hs.stored _ row' h').1
    · intro row' h' heq
      exact hfresh (heq ▸ (hs.carried row' h').1)
    · intro note hn heq
      exact hfresh (heq ▸ (hs.ended note hn).1)
  holding := by
    intro row' h'
    cases h'
  rescheduling := by
    intro row' fireAt heq
    cases heq
  canceling := by
    intro u' h'
    cases h'
  ended := fun note hn => ⟨mem_cons_of_mem _ (hs.ended note hn).1, (hs.ended note hn).2⟩
  log := hs.log

end

/-- No one expects the row's one-shot not to fire, and it is not a new row. -/
structure Clear (h : Handling) (log : List Note) (row : TimerRow) : Prop where
  new : ∀ verb new, h = .insert verb new → row.uuid ≠ new.uuid
  canceling : row.kind = .oneshot → ∀ u, h.cancels = some u → row.uuid ≠ u
  ended : row.kind = .oneshot → ∀ note ∈ log, note.Ends → row.uuid ≠ note.timerUuid

section
variable (hs : Sound t given h f issued log)
include hs

theorem clear_of_carried (hrow : f.carries = some row) : Clear h log row where
  new := fun verb new heq => (hs.inserting verb new heq).2.2.1 row hrow
  canceling := fun hone u hu heq => (hs.canceling u hu).2.carried row hrow heq hone
  ended := fun hone note hn hnote heq =>
    ((hs.ended note hn).2 hnote).carried row hrow heq hone

theorem clear_of_pending (hrow : t.lookup row.uuid = some row)
    (hstatus : row.status = .pending) : Clear h log row where
  new := by
    intro verb new heq hu
    have hnone := (hs.inserting verb new heq).2.1
    rw [← hu, hrow] at hnone
    cases hnone
  canceling := by
    rintro hone u hu rfl
    exact (hs.canceling _ hu).2.row row hrow hone hstatus
  ended := by
    intro hone note hn hnote hu
    rw [hu] at hrow
    exact ((hs.ended note hn).2 hnote).row row hrow hone hstatus

theorem carry (hclear : ∀ row, f'.carries = some row → Clear h log row)
    (hcarried : ∀ row, f'.carries = some row → row.uuid ∈ issued ∧
      (row.kind = .oneshot → given.lookup row.uuid = some row.fireAtUtc) ∧
      ∀ row', t.lookup row.uuid = some row' → row'.kind = row.kind)
    (hwriting : ∀ now fire saved, f' = .writeFire now fire saved → Saves fire.row saved ∧
      fire.row.fireAtUtc ≤ now ∧
      (fire.row.kind = .oneshot → ∀ row, t.lookup fire.row.uuid = some row → row = fire.row))
    (hrequeuing : ∀ now fire saved, f' = .requeue now fire saved → fire.row.kind = .recurring)
    (hsending : ∀ now fire, f' = .sendFire now fire → fire.row.kind = .oneshot →
      fire.row.fireAtUtc ≤ now ∧ ∀ row, t.lookup fire.row.uuid = some row → row.status = .fired) :
    Sound t given h f' issued log :=
  { hs with
    carried := hcarried
    writing := hwriting
    requeuing := hrequeuing
    sending := hsending
    inserting := by
      intro verb new heq
      obtain ⟨hin, hnone, -, hlog⟩ := hs.inserting verb new heq
      exact ⟨hin, hnone, fun row hrow => (hclear row hrow).new verb new heq, hlog⟩
    canceling := by
      intro u hu
      obtain ⟨hin, hend⟩ := hs.canceling u hu
      refine ⟨hin, hend.row, ?_⟩
      intro row hrow heq hone
      exact (hclear row hrow).canceling hone u hu heq
    ended := by
      intro note hn
      obtain ⟨hin, hend⟩ := hs.ended note hn
      refine ⟨hin, ?_⟩
      intro hnote
      refine ⟨(hend hnote).row, ?_⟩
      intro row hrow heq hone
      exact (hclear row hrow).ended hone note hn hnote heq }

theorem noted {note : Note} (hin : note.timerUuid ∈ issued)
    (hends : note.Ends → Ended t f note.timerUuid)
    (hnew : ∀ verb new, h = .insert verb new → note.timerUuid ≠ new.uuid)
    (hlog : FiresOnce (log ++ [note])) : Sound t given h f issued (log ++ [note]) :=
  { hs with
    inserting := by
      intro verb new heq
      obtain ⟨hissued, hnone, hcarried, hold⟩ := hs.inserting verb new heq
      refine ⟨hissued, hnone, hcarried, ?_⟩
      intro other hother
      rcases mem_append.mp hother with hother | hother
      · exact hold other hother
      · rw [mem_singleton.mp hother]
        exact hnew verb new heq
    ended := by
      intro other hother
      rcases mem_append.mp hother with hother | hother
      · exact hs.ended other hother
      · rw [mem_singleton.mp hother]
        exact ⟨hin, hends⟩
    log := hlog }

end

end Sound

theorem FiresOnce.answered (hl : FiresOnce log) (u : String) :
    FiresOnce (log ++ [.cancelAnswered u]) where
  once := by
    rw [pairwise_append]
    refine ⟨hl.once, pairwise_singleton _ _, ?_⟩
    intro earlier _ later hlater start again _ hagain
    cases (mem_singleton.mp hlater).symm.trans hagain
  onTime := by
    intro start hstart
    rcases mem_append.mp hstart with hstart | hstart
    · exact hl.onTime start hstart
    · cases mem_singleton.mp hstart
  notCanceled := by
    rw [pairwise_append]
    refine ⟨hl.notCanceled, pairwise_singleton _ _, ?_⟩
    intro earlier _ later hlater u' start _ hstart
    cases (mem_singleton.mp hlater).symm.trans hstart

theorem FiresOnce.started (hl : FiresOnce log) {start : Start}
    (hnew : start.kind = .oneshot → ∀ note ∈ log, note.Ends → start.timerUuid ≠ note.timerUuid)
    (htime : start.kind = .oneshot → ∀ fireAt, start.fireAtUtc = some fireAt →
      fireAt ≤ start.now) : FiresOnce (log ++ [.started start]) where
  once := by
    rw [pairwise_append]
    refine ⟨hl.once, pairwise_singleton _ _, ?_⟩
    rintro earlier hearlier later hlater first again rfl rfl hfirst hagain heq
    cases mem_singleton.mp hlater
    exact hnew hagain _ hearlier hfirst heq.symm
  onTime := by
    intro other hother
    rcases mem_append.mp hother with hother | hother
    · exact hl.onTime other hother
    · cases mem_singleton.mp hother
      exact htime
  notCanceled := by
    rw [pairwise_append]
    refine ⟨hl.notCanceled, pairwise_singleton _ _, ?_⟩
    rintro earlier hearlier later hlater u again rfl rfl hagain heq
    cases mem_singleton.mp hlater
    exact hnew hagain _ hearlier trivial heq

namespace Sound
variable {t : Table} {given : AList fun _ : String => ℤ} {h : Handling} {f : Firing}
  {issued : List String} {log : List Note} {u : String} {row : TimerRow}

section
variable (hs : Sound t given h f issued log)
include hs

theorem readForCancel (hrow : t.lookup u = some row) (hstatus : row.status ≠ .fired) :
    Sound t given (.writeCancel row) f issued log := by
  have hu := hs.keyed u row hrow
  apply hs.handled
  · intro verb row'
    exact nofun
  · intro held hheld
    cases hheld
    rw [hu]
    exact ⟨row, hrow, rfl, fun _ => ⟨rfl, hstatus⟩⟩
  · intro row' fireAt heq
    cases heq
  · intro u' hu'
    cases hu'

theorem readForReschedule (hrow : t.lookup u = some row) (hkind : row.kind = .oneshot)
    (hstatus : row.status = .pending) (fireAt : ℤ) :
    Sound t given (.writeReschedule row fireAt) f issued log := by
  have hu := hs.keyed u row hrow
  apply hs.handled
  · intro verb row'
    exact nofun
  · intro held hheld
    cases hheld
    rw [hu]
    refine ⟨row, hrow, rfl, fun _ => ⟨rfl, ?_⟩⟩
    rw [hstatus]
    exact nofun
  · intro row' fireAt' heq
    cases heq
    exact ⟨hkind, hstatus⟩
  · intro u' hu'
    cases hu'

theorem carried_of_held (hheld : h.holds = some row)
    (hapart : ∀ held, f.holds = some held → held.kind = .oneshot → held.uuid ≠ row.uuid)
    {carried : TimerRow} (hcarried : f.carries = some carried) (hu : carried.uuid = row.uuid) :
    carried.kind = .recurring ∧ row.kind = .recurring := by
  obtain ⟨row', hrow', hkind, hone⟩ := hs.holding row hheld
  have hsame : row'.kind = carried.kind := (hs.carried carried hcarried).2.2 row' (hu ▸ hrow')
  suffices hrec : carried.kind = .recurring from ⟨hrec, hkind.symm.trans (hsame.trans hrec)⟩
  cases hk : carried.kind with
  | recurring => rfl
  | oneshot =>
    exfalso
    obtain ⟨rfl, hfired⟩ := hone (hkind.symm.trans (hsame.trans hk))
    cases f with
    | writeFire now fire saved =>
      cases hcarried
      exact hapart fire.row rfl hk hu
    | requeue now fire saved =>
      cases hcarried
      cases hk.symm.trans (hs.requeuing now fire saved rfl)
    | sendFire now fire =>
      cases hcarried
      exact hfired ((hs.sending now fire rfl hk).2 row' (hu ▸ hrow'))
    | idle | draining | readFire | readRetry | sendRetry | emit => cases hcarried

end

theorem canceled (hs : Sound t given (.writeCancel row) f issued log)
    (hapart : ∀ held, f.holds = some held → held.kind = .oneshot → held.uuid ≠ row.uuid) :
    Sound (t.modify row.uuid fun _ => { row with status := .canceled }) given
      (.reply (.canceled row.uuid)) f issued log := by
  obtain ⟨row', hrow', -, hone⟩ := hs.holding row rfl
  have hquiet : Sound t given .idle f issued log := hs.toQuiet trivial
  have hwritten := hquiet.write (r := { row with status := .canceled }) (fun _ _ => rfl)
    (fun hkind _ _ => by
      obtain ⟨rfl, -⟩ := hone hkind
      exact (hs.stored row'.uuid row' hrow').2 hkind)
    (fun _ hpending => by cases hpending)
    (fun carried hcarried hu => hs.carried_of_held rfl hapart hcarried hu)
    (fun held hheld => by cases hheld)
  refine hwritten.letGo rfl (fun _ _ => nofun) ?_
  intro u hu
  cases hu
  refine ⟨(hs.stored row.uuid row' hrow').1, ?_, ?_⟩
  · intro found hfound
    have hsame := (@Table.lookup_modify_const t { row with status := .canceled } found
      row.uuid).mp hfound
    rw [if_pos rfl] at hsame
    rw [hsame.2]
    exact nofun
  · intro carried hcarried hu hone
    cases hone.symm.trans (hs.carried_of_held rfl hapart hcarried hu).1

theorem rescheduled (hs : Sound t given (.writeReschedule row fireAt) f issued log)
    (hapart : ∀ held, f.holds = some held → held.kind = .oneshot → held.uuid ≠ row.uuid)
    (hanswer : ∀ u, answer ≠ .canceled u) :
    Sound (t.modify row.uuid fun _ => { row with fireAtUtc := fireAt })
      (given.insert row.uuid fireAt) (.enqueue row.uuid fireAt answer) f issued log := by
  obtain ⟨row', hrow', -, hone⟩ := hs.holding row rfl
  obtain ⟨hkind, hstatus⟩ := hs.rescheduling row fireAt rfl
  have hquiet : Sound t given .idle f issued log := hs.toQuiet trivial
  have hwritten := hquiet.write (r := { row with fireAtUtc := fireAt })
    (fun u hu => lookup_insert_ne hu) (fun _ _ _ => lookup_insert _)
    (by
      intro _ _ old hold
      rw [← Option.some.inj (hrow'.symm.trans hold), (hone hkind).1]
      exact ⟨hkind, hstatus⟩)
    (fun carried hcarried hu => hs.carried_of_held rfl hapart hcarried hu)
    (fun held hheld => by cases hheld)
  refine hwritten.letGo rfl (fun _ _ => nofun) ?_
  intro u hu
  cases answer <;> cases hu
  exact absurd rfl (hanswer u)

variable {now : ℤ}

theorem taken (hs : Sound t given h f issued log) {saved : TimerRow}
    (hrow : t.lookup u = some fire.row) (hstatus : fire.row.status = .pending)
    (hdue : fire.row.fireAtUtc ≤ now) (hsaves : Saves fire.row saved) :
    Sound t given h (.writeFire now fire saved) issued log := by
  have hu := hs.keyed u fire.row hrow
  subst hu
  apply hs.carry
  · intro row hcarried
    cases hcarried
    exact hs.clear_of_pending hrow hstatus
  · intro row hcarried
    cases hcarried
    obtain ⟨hin, hgiven⟩ := hs.stored _ _ hrow
    refine ⟨hin, hgiven, ?_⟩
    intro row' hrow'
    rw [Option.some.inj (hrow'.symm.trans hrow)]
  · intro now' fire' saved' heq
    cases heq
    refine ⟨hsaves, hdue, ?_⟩
    intro _ row' hrow'
    exact Option.some.inj (hrow'.symm.trans hrow)
  · intro now' fire' saved' heq
    cases heq
  · intro now' fire' heq
    cases heq

theorem saved {saved : TimerRow} (hs : Sound t given h (.writeFire now fire saved) issued log)
    (hapart : ∀ row, h.holds = some row → fire.row.kind = .oneshot → row.uuid ≠ fire.row.uuid) :
    Sound (t.modify saved.uuid fun _ => saved) given h (.draining now) issued log := by
  obtain ⟨hsaves, -, -⟩ := hs.writing now fire saved rfl
  have hquiet : Sound t given h (.draining now) issued log := hs.fireQuiet rfl
  apply hquiet.write
  · exact fun _ _ => rfl
  · intro hone old _
    have hkind := hsaves.kind.symm.trans hone
    rw [hsaves.uuid, (hsaves.oneshot hkind).2]
    exact (hs.carried fire.row rfl).2.1 hkind
  · intro hone hpending
    rw [(hsaves.oneshot (hsaves.kind.symm.trans hone)).1] at hpending
    cases hpending
  · intro row hrow
    cases hrow
  · intro row hrow hu
    rw [hsaves.uuid] at hu
    obtain ⟨row', hrow', hkind, -⟩ := hs.holding row hrow
    have hsame : row'.kind = fire.row.kind := (hs.carried fire.row rfl).2.2 row' (hu ▸ hrow')
    have hrec : fire.row.kind = .recurring := by
      cases hk : fire.row.kind with
      | recurring => rfl
      | oneshot => exact absurd hu (hapart row hrow hk)
    exact ⟨hkind.symm.trans (hsame.trans hrec), hsaves.kind.trans hrec⟩

theorem eq_saved {saved found : TimerRow}
    (hs : Sound t given h (.writeFire now fire saved) issued log)
    (hfound : (t.modify saved.uuid fun _ => saved).lookup fire.row.uuid = some found) :
    found = saved := by
  obtain ⟨hsaves, -, -⟩ := hs.writing now fire saved rfl
  rw [lookup_modify_const, if_pos hsaves.uuid.symm] at hfound
  exact hfound.2

theorem carrySaved {saved : TimerRow} {f' : Firing}
    (hs : Sound t given h (.writeFire now fire saved) issued log)
    (hapart : ∀ row, h.holds = some row → fire.row.kind = .oneshot → row.uuid ≠ fire.row.uuid)
    (hf : f' = .requeue now fire saved ∧ saved.kind = .recurring ∨ f' = .sendFire now fire) :
    Sound (t.modify saved.uuid fun _ => saved) given h f' issued log := by
  obtain ⟨hsaves, hdue, -⟩ := hs.writing now fire saved rfl
  have hcarries : f'.carries = some fire.row := by rcases hf with ⟨rfl, -⟩ | rfl <;> rfl
  apply (hs.saved hapart).carry
  · intro row hcarried
    cases hcarries.symm.trans hcarried
    exact hs.clear_of_carried rfl
  · intro row hcarried
    cases hcarries.symm.trans hcarried
    refine ⟨(hs.carried fire.row rfl).1, (hs.carried fire.row rfl).2.1, ?_⟩
    intro row' hrow'
    rw [hs.eq_saved hrow', hsaves.kind]
  · rintro now' fire' saved' rfl
    rcases hf with ⟨heq, -⟩ | heq <;> cases heq
  · rintro now' fire' saved' rfl
    rcases hf with ⟨heq, hkind⟩ | heq <;> cases heq
    exact hsaves.kind.symm.trans hkind
  · rintro now' fire' rfl hone
    rcases hf with ⟨heq, -⟩ | heq <;> cases heq
    refine ⟨hdue, ?_⟩
    intro row' hrow'
    rw [hs.eq_saved hrow']
    exact (hsaves.oneshot hone).1

theorem again {saved : TimerRow} (hs : Sound t given h (.requeue now fire saved) issued log) :
    Sound t given h (.sendFire now fire) issued log := by
  have hrec := hs.requeuing now fire saved rfl
  apply hs.carry
  · intro row hcarried
    cases hcarried
    exact hs.clear_of_carried rfl
  · intro row hcarried
    cases hcarried
    exact hs.carried fire.row rfl
  · intro now' fire' saved' heq
    cases heq
  · intro now' fire' saved' heq
    cases heq
  · intro now' fire' heq hone
    cases heq
    cases hone.symm.trans hrec

theorem started (hs : Sound t given h (.sendFire now fire) issued log) {f' : Firing}
    (hf : f'.carries = none) :
    Sound t given h f' issued (log ++ [.started ⟨fire.row.uuid, fire.row.kind, now,
      given.lookup fire.row.uuid⟩]) := by
  have hclear := hs.clear_of_carried rfl
  apply (hs.fireQuiet hf).noted
  · exact (hs.carried fire.row rfl).1
  · intro hone
    refine ⟨?_, fun row hcarried => (nomatch hf.symm.trans hcarried)⟩
    intro row hrow _ hpending
    cases hpending.symm.trans ((hs.sending now fire rfl hone).2 row hrow)
  · exact hclear.new
  · apply hs.log.started
    · exact hclear.ended
    · intro hone fireAt hfireAt
      have hgiven := (hs.carried fire.row rfl).2.1 hone
      rw [← Option.some.inj (hgiven.symm.trans hfireAt)]
      exact (hs.sending now fire rfl hone).1

theorem replayed (hs : Sound t given .idle .idle issued log) (r : TimerRow)
    (hdone : r.kind = .recurring ∨ r.status ≠ .pending)
    (hdue : r.kind = .oneshot → given.lookup r.uuid = some r.fireAtUtc) :
    Sound (t.modify r.uuid fun _ => r) given .idle .idle issued log := by
  apply hs.write
  · exact fun _ _ => rfl
  · exact fun hone _ _ => hdue hone
  · intro hone hpending
    rcases hdone with hrec | hstatus
    · cases hone.symm.trans hrec
    · exact absurd hpending hstatus
  · intro row hrow
    cases hrow
  · intro row hrow
    cases hrow

theorem inserted (hs : Sound t given (.insert verb row) f issued log)
    (hanswer : ∀ u, answer ≠ .canceled u) :
    Sound (t.insert row.uuid row) (given.insert row.uuid row.fireAtUtc)
      (.enqueue row.uuid row.fireAtUtc answer) f issued log := by
  obtain ⟨hin, -, hcarried, hlog⟩ := hs.inserting verb row rfl
  have hquiet : Sound t given .idle f issued log := hs.toQuiet trivial
  refine (hquiet.insert trivial hin hcarried hlog).letGo rfl (fun _ _ => nofun) ?_
  intro u hu
  cases answer <;> cases hu
  exact absurd rfl (hanswer u)

theorem enqueued (hs : Sound t given (.enqueue u fireAt answer) f issued log) :
    Sound t given (.reply answer) f issued log := by
  refine hs.letGo rfl (fun _ _ => nofun) ?_
  intro u' hu'
  apply hs.canceling
  cases answer <;> cases hu'
  rfl

theorem answered (hs : Sound t given (.reply (.canceled u)) f issued log) :
    Sound t given .idle f issued (log ++ [.cancelAnswered u]) := by
  obtain ⟨hin, hend⟩ := hs.canceling u rfl
  have hquiet : Sound t given .idle f issued log := hs.toQuiet trivial
  apply hquiet.noted
  · exact hin
  · exact fun _ => hend
  · intro verb new heq
    cases heq
  · exact hs.log.answered u

end Sound

/-- The rows `replayPending` has still to go through. -/
def Node.replays (s : Node) : List TimerRow :=
  match s.phase with
  | .replaying _ rows => rows
  | _ => []

structure Node.Sound (s : Node) : Prop where
  now : Timer.Sound s.timers s.given s.handling s.firing s.issued s.log
  replayed : ∀ row ∈ s.replays, row.kind = .oneshot →
    s.given.lookup row.uuid = some row.fireAtUtc

/-- Both threads have read the same one-shot and are about to write it back. -/
def Node.Contended (s : Node) : Prop :=
  match s.handling.holds, s.firing.holds with
  | some row, some held => row.uuid = held.uuid ∧ held.kind = .oneshot
  | _, _ => False

instance (s : Node) : Decidable s.Contended := by
  unfold Node.Contended
  split <;> infer_instance

/-- No thread writes a one-shot back while the other one is about to. -/
def Apart (s : Node) : Event → Prop
  | .handle _ | .fire _ => ¬ s.Contended
  | _ => True

instance (s : Node) : DecidablePred (Apart s)
  | .handle _ | .fire _ => inferInstanceAs (Decidable (¬ s.Contended))
  | .crash | .boot | .startup _ | .request .. | .unreachable .. | .wake _ =>
    inferInstanceAs (Decidable True)

def Fresh (s : Node) : Event → Prop
  | .handle env =>
    match s.handling with
    | .countAll _ _ => env.uuid ∉ s.issued
    | _ => True
  | _ => True

instance (s : Node) : DecidablePred (Fresh s) := fun e => by
  cases e <;> unfold Fresh <;> dsimp only <;> first | infer_instance | (split <;> infer_instance)

section
variable {cfg : Config} {s s' : Node} {e : Event}

section
variable (hp : s.phase = .serving h f)
include hp

theorem handling_of : s.handling = h := by
  rw [Node.handling, hp]

theorem firing_of : s.firing = f := by
  rw [Node.firing, hp]

theorem Node.Contended.serving {held : TimerRow} (hrow : h.holds = some row)
    (hheld : f.holds = some held) (hu : row.uuid = held.uuid) (hkind : held.kind = .oneshot) :
    s.Contended := by
  rw [Node.Contended, handling_of hp, firing_of hp, hrow, hheld]
  exact ⟨hu, hkind⟩

end

theorem Node.Sound.serving (hs : s.Sound)
    (hp : s.phase = .serving h f) : Timer.Sound s.timers s.given h f s.issued s.log := by
  rw [← handling_of hp, ← firing_of hp]
  exact hs.now

theorem Node.Sound.halted (hs : s.Sound) :
    Timer.Sound s.timers s.given .idle .idle s.issued s.log :=
  have hquiet : Timer.Sound s.timers s.given .idle s.firing s.issued s.log := hs.now.toQuiet trivial
  hquiet.fireQuiet rfl

theorem Node.Sound.next {now : ℤ} {rest : List TimerRow} (hs : s.Sound)
    (hp : s.phase = .replaying now (row :: rest)) (hone : row.kind = .oneshot) :
    s.given.lookup row.uuid = some row.fireAtUtc := by
  apply hs.replayed row _ hone
  rw [Node.replays, hp]
  exact mem_cons_self

theorem Node.Sound.rest {now : ℤ} {rest : List TimerRow} (hs : s.Sound)
    (hp : s.phase = .replaying now (row :: rest)) :
    ∀ row ∈ rest, row.kind = .oneshot → s.given.lookup row.uuid = some row.fireAtUtc := by
  intro later hlater
  apply hs.replayed later
  rw [Node.replays, hp]
  exact mem_cons_of_mem _ hlater

theorem Moved.replayed (hm : Moved cfg s e s') (hs : s.Sound) :
    ∀ row ∈ s'.replays, row.kind = .oneshot → s'.given.lookup row.uuid = some row.fireAtUtc := by
  cases hm
  case memory => exact hs.replayed
  case listed hp =>
    intro row hrow hone
    have hmem : row ∈ s.timers.values := (mem_listPendingTimers.mp hrow).1
    have hlookup := hs.now.keyed.lookup_of_mem hmem
    exact (hs.now.stored row.uuid row hlookup).2 hone
  case skipped hp _ _ | requeued hp _ | kept hp _ | dropped hp _ => exact hs.rest hp
  all_goals
    intro row hrow
    cases hrow

theorem Moved.now (hm : Moved cfg s e s') (hfresh : Fresh s e) (hapart : Apart s e)
    (hs : s.Sound) : Timer.Sound s'.timers s'.given s'.handling s'.firing s'.issued s'.log := by
  cases hm with
  | memory => exact hs.now
  | stopped | booted | listed | skipped | kept | served => exact hs.halted
  | collected => exact hs.halted.retain rfl _
  | @requeued _ _ row _ fireAt hp hkind =>
    refine hs.halted.replayed { row with fireAtUtc := fireAt } (.inl hkind) ?_
    intro hone
    cases hone.symm.trans hkind
  | @dropped _ _ row _ hp hkind =>
    have hgiven := hs.next hp
    exact hs.halted.replayed { row with status := .canceled } (.inr nofun) hgiven
  | handler hp hfrom hto => exact (hs.serving hp).toQuiet hto
  | @drew env verb draft f hp =>
    have hnew : env.uuid ∉ s.issued := by
      unfold Fresh at hfresh
      rw [handling_of hp] at hfresh
      exact hfresh
    exact (hs.serving hp).drawn hnew rfl _
  | inserted hp hanswer => exact (hs.serving hp).inserted hanswer
  | enqueued hp => exact (hs.serving hp).enqueued
  | readForCancel hp hfrom hrow hstatus => exact (hs.serving hp).readForCancel hrow hstatus
  | readForReschedule hp hfrom hrow hkind hstatus =>
    exact (hs.serving hp).readForReschedule hrow hkind hstatus _
  | canceled hp =>
    refine (hs.serving hp).canceled ?_
    intro held hheld hkind hu
    exact hapart (.serving hp rfl hheld hu.symm hkind)
  | rescheduled hp hanswer =>
    refine (hs.serving hp).rescheduled ?_ hanswer
    intro held hheld hkind hu
    exact hapart (.serving hp rfl hheld hu.symm hkind)
  | purged hp hto => exact ((hs.serving hp).toQuiet hto).retain hto.holds _
  | answered hp => exact (hs.serving hp).answered
  | scheduler hp hfrom hto hitems => exact (hs.serving hp).fireQuiet hto.carries
  | popped hp | unread hp | settled hp | early hp | uncomputed hp =>
    exact (hs.serving hp).fireQuiet rfl
  | taken hp hrow hstatus hdue hsaves => exact (hs.serving hp).taken hrow hstatus hdue hsaves
  | unsaved hp => exact (hs.serving hp).fireQuiet rfl
  | savedRecurring hp hkind =>
    refine (hs.serving hp).carrySaved ?_ (.inl ⟨rfl, hkind⟩)
    intro row hrow hone hu
    exact hapart (.serving hp hrow rfl hu hone)
  | savedOneShot hp hkind =>
    refine (hs.serving hp).carrySaved ?_ (.inr rfl)
    intro row hrow hone hu
    exact hapart (.serving hp hrow rfl hu hone)
  | again hp => exact (hs.serving hp).again
  | started hp => exact (hs.serving hp).started rfl

theorem now_stopped (ht : t.Keyed) :
    Timer.Sound t (t.mapTo TimerRow.fireAtUtc) .idle .idle (t.entries.map Sigma.fst) [] where
  keyed := ht
  stored := by
    intro u row hrow
    have hentry := mem_entries_iff.mpr hrow
    exact ⟨List.mem_map_of_mem hentry, fun _ => lookup_mapTo hrow⟩
  carried := by
    intro row hrow
    cases hrow
  writing := by
    intro now fire saved heq
    cases heq
  requeuing := by
    intro now fire saved heq
    cases heq
  sending := by
    intro now fire heq
    cases heq
  inserting := by
    intro verb row heq
    cases heq
  holding := by
    intro row hrow
    cases hrow
  rescheduling := by
    intro row fireAt heq
    cases heq
  canceling := by
    intro u hu
    cases hu
  ended := by
    intro note hn
    cases hn
  log := by
    refine ⟨.nil, ?_, .nil⟩
    intro start hstart
    cases hstart

theorem sound_stopped (ht : t.Keyed) : (Node.stopped t).Sound where
  now := now_stopped ht
  replayed := by
    intro row hrow
    cases hrow

theorem run_sound {events : List Event} (ht : t.Keyed)
    (hfresh : Along (step cfg) Fresh (Node.stopped t) events)
    (hapart : Along (step cfg) Apart (Node.stopped t) events) :
    (events.foldl (step cfg) (Node.stopped t)).Sound := by
  refine (hfresh.and hapart).invariant ?_ (sound_stopped ht)
  intro s e hok hs
  have hm := step_moved cfg s e
  exact ⟨hm.now hok.1 hok.2 hs, hm.replayed hs⟩

/-- In every run in which no thread writes a one-shot back while the other one is about to, each
one-shot starts at most one fire, not before its fire time, and none once its cancel was
answered. -/
theorem one_shot_fires_once (cfg : Config) {t : Table} (ht : t.Keyed) (events : List Event)
    (hfresh : Along (step cfg) Fresh (Node.stopped t) events)
    (hapart : Along (step cfg) Apart (Node.stopped t) events) :
    FiresOnce (events.foldl (step cfg) (Node.stopped t)).log :=
  (run_sound ht hfresh hapart).now.log

end

namespace Contention

def calendar : Calendar where
  Schedule := Unit
  loadLocation := fun _ => .ok ()
  parse := fun _ => .error "expected exactly 5 fields"
  next := fun _ _ _ => none

def cfg : Config := { nodeName := "SY.timer@hive", validJson := fun _ => true, calendar := calendar }

def clock (now : ℤ) : Env := { now := now }

/-- SY.timer starts over an empty table, and a node schedules the timer `t` in a minute. -/
def scheduled : List Event :=
  [.boot, .startup (clock 0), .startup (clock 0), .startup (clock 0),
    .request "WF.a@hive" (.schedule none (some 60000) {}) (clock 0),
    .handle (clock 0), .handle { uuid := "t" }, .handle (clock 0), .handle (clock 0), .handle (clock 0)]

/-- The timer is read by its cancel and by the scheduler before either writes it back. -/
def cancelBetween : List Event :=
  scheduled ++ [.wake 60000, .fire (clock 60000), .fire (clock 60000),
    .request "WF.a@hive" (.cancel "t" "") (clock 60000), .handle (clock 60000), .handle (clock 60000),
    .handle (clock 60000), .fire (clock 60000), .fire { now := 60000, uuid := "trace" }]

/-- The timer is read by its reschedule before it fires, and written back pending after. -/
def rescheduleAcross : List Event :=
  scheduled ++ [.request "WF.a@hive" (.reschedule "t" "" none (some 60000)) (clock 60000),
    .handle (clock 60000), .wake 60000, .fire (clock 60000), .fire (clock 60000), .fire (clock 60000),
    .fire { now := 60000, uuid := "trace" }, .handle (clock 60000), .handle (clock 60000),
    .handle (clock 60000), .fire (clock 60000), .fire (clock 60000), .wake 120000, .fire (clock 120000),
    .fire (clock 120000), .fire (clock 120000), .fire { now := 120000, uuid := "again" }]

/-- The timer is rescheduled between the scheduler's read of its row and the write. -/
def rescheduleBetween : List Event :=
  scheduled ++ [.wake 60000, .fire (clock 60000), .fire (clock 60000),
    .request "WF.a@hive" (.reschedule "t" "" none (some 60000)) (clock 60000), .handle (clock 60000),
    .handle (clock 60000), .handle (clock 60000), .handle (clock 60000), .fire (clock 60000),
    .fire { now := 60000, uuid := "trace" }]

/-- The fire goes through before the cancel is read: it is refused. -/
def cancelAfter : List Event :=
  scheduled ++ [.wake 60000, .fire (clock 60000), .fire (clock 60000), .fire (clock 60000),
    .fire { now := 60000, uuid := "trace" }, .request "WF.a@hive" (.cancel "t" "") (clock 60000),
    .handle (clock 60000), .handle (clock 60000)]

def run (events : List Event) : Node := events.foldl (step cfg) (Node.stopped ∅)

theorem cancelBetween_log : (run cancelBetween).log =
    [.cancelAnswered "t", .started ⟨"t", .oneshot, 60000, some 60000⟩] := by decide +kernel

theorem rescheduleAcross_log : (run rescheduleAcross).log =
    [.started ⟨"t", .oneshot, 60000, some 60000⟩,
      .started ⟨"t", .oneshot, 120000, some 120000⟩] := by decide +kernel

theorem rescheduleBetween_log : (run rescheduleBetween).log =
    [.started ⟨"t", .oneshot, 60000, some 120000⟩] := by decide +kernel

end Contention

open Contention in
/-- A cancel answered between the scheduler's read and write does not stop the fire, a reschedule
read before the fire and written after it fires the timer again, and one written before the
scheduler's write is fired early. -/
theorem contended_one_shot_misfires :
    (Along (step cfg) Fresh (Node.stopped ∅) cancelBetween ∧ ¬ FiresOnce (run cancelBetween).log) ∧
      (Along (step cfg) Fresh (Node.stopped ∅) rescheduleAcross ∧
        ¬ FiresOnce (run rescheduleAcross).log) ∧
      Along (step cfg) Fresh (Node.stopped ∅) rescheduleBetween ∧
        ¬ FiresOnce (run rescheduleBetween).log := by
  refine ⟨⟨by decide +kernel, ?_⟩, ⟨by decide +kernel, ?_⟩, by decide +kernel, ?_⟩
  · intro h
    have hpair := h.notCanceled
    rw [cancelBetween_log] at hpair
    exact rel_of_pairwise_cons hpair mem_cons_self "t" _ rfl rfl rfl rfl
  · intro h
    have hpair := h.once
    rw [rescheduleAcross_log] at hpair
    exact rel_of_pairwise_cons hpair mem_cons_self _ _ rfl rfl rfl rfl rfl
  · intro h
    have htime := h.onTime ⟨"t", .oneshot, 60000, some 120000⟩
    rw [rescheduleBetween_log] at htime
    have hle := htime mem_cons_self rfl 120000 rfl
    exact absurd hle (by decide)

open Contention in
/-- A cancel read after the fire was saved is refused, and the timer fired once. -/
theorem one_shot_fires_once_cancel_after :
    (run cancelAfter).log = [.started ⟨"t", .oneshot, 60000, some 60000⟩] ∧
      FiresOnce (run cancelAfter).log :=
  ⟨by decide +kernel, one_shot_fires_once cfg Table.keyed_empty cancelAfter (by decide +kernel)
    (by decide +kernel)⟩

end Fluxbee.Timer
