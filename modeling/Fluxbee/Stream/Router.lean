import Fluxbee.Stream.DiskOrder

/-! A router's stream over its restarts: the disk thread, the senders, crashes and recovery, with
the history of what each sink was handed. -/
namespace Fluxbee.Stream

/-- What the disk thread took from the log, under its lock, to save and trim by. -/
structure Housekeeping where
  keepFrom : ℕ
  nothingLeft : Bool
  nextSeq : ℕ
  cursors : List (String × ℕ)

/-- Where the disk thread is. A record is in the log before it is written, the state is saved before
the segments go, and the senders run in between. -/
inductive DiskThread where
  | idle
  | writing (r : Record)
  | saving (h : Housekeeping)
  | trimming (keepFrom : ℕ) (nothingLeft : Bool)

structure World where
  sys : System
  epoch : ℕ
  /-- Absent where the directory could not be used: the stream is in memory only. -/
  disk : Option Disk
  thread : DiskThread
  lastSaved : Option (ℕ × List (String × ℕ))
  dir : Dir
  /-- The saved states a crash may fall back to, the newest first. -/
  stateFile : List SavedState
  /-- What the last start recovered and the records taken in since. No modelled function reads
  these, nor `handed`. -/
  opened : Recovered
  appended : List Record
  /-- The records each sink was sent, with the epoch they were sent under. -/
  handed : String → List (ℕ × Record)

/-- A crash and the restart after it. -/
structure Restart where
  /-- How many bytes of each segment survive, beyond those synced. -/
  keep : ℕ → ℕ
  /-- How many of the latest saved states are lost. -/
  lost : ℕ
  uuid : ℕ
  /-- Whether the restart can read its directory. -/
  readable : Bool
  now : ℕ

inductive RouterEvent where
  | take (incoming : Incoming) (now : ℕ)
  | write (io : WriteIo)
  | fsync (ok : Bool)
  | housekeep (now : ℕ)
  | save (ok : Bool)
  | trimDisk (removeOk : ℕ → Bool)
  | plan (sink : String) (now : ℕ)
  | settle (sink : String) (reply : Option Reply) (now : ℕ)
  | restart (restart : Restart)

def newEpoch (uuid : ℕ) : ℕ := max uuid 1

/-- The cursors to save, none past what is synced. -/
def Shared.savedCursors (s : Shared) : List (String × ℕ) :=
  (allSinks s.role s.hiveId).map fun sink => (sink, min (s.cursor sink) s.fsyncedSeq)

def SavedState.ofCursors (epoch nextSeq : ℕ) (cursors : List (String × ℕ)) : SavedState :=
  ⟨some epoch, some nextSeq, fun sink => cursors.lookup sink⟩

namespace World

def sinks (w : World) : List String := allSinks w.sys.shared.role w.sys.shared.hiveId

section
variable (w : World) (restart : Restart)

def crashedDir : Dir := w.dir.crash restart.keep

def survivingState : SavedState :=
  (w.stateFile.drop restart.lost).headD .absent

def recovered : Recovered :=
  (recover (w.crashedDir restart) (w.survivingState restart) (newEpoch restart.uuid) w.sinks).1

end

def openOn (role hiveId : String) (dir : Dir) (state : SavedState) (restart : Restart)
    (handed : String → List (ℕ × Record)) : World :=
  if restart.readable then
    let (recovered, disk, dir) :=
      recover dir state (newEpoch restart.uuid) (allSinks role hiveId)
    ⟨System.start role hiveId recovered restart.now, recovered.epoch, some disk, .idle, none, dir,
      [state], recovered, [], handed⟩
  else
    let recovered := Recovered.ofLog [] .absent (newEpoch restart.uuid) (allSinks role hiveId)
    ⟨System.start role hiveId recovered restart.now, recovered.epoch, none, .idle, none, dir,
      [state], recovered, [], handed⟩

def init (role hiveId : String) (restart : Restart) : World :=
  openOn role hiveId [] .absent restart fun _ => []

def newBatch (sys sys' : System) (sink : String) : List Record :=
  if (sys.inFlight sink).isNone then ((sys'.inFlight sink).map Batch.records).getD [] else []

def step (w : World) : RouterEvent → World
  | .take incoming now =>
    match w.thread with
    | .idle =>
      let taken := (w.sys.shared.takeIncoming w.sys.counters incoming now).2.2
      { w with
        sys := w.sys.step (.append incoming now)
        thread := match taken with
          | some r => .writing r
          | none => .idle
        appended := w.appended ++ taken.toList }
    | _ => w
  | .write io =>
    match w.thread with
    | .writing r =>
      match w.disk with
      | some d =>
        let (d, dir) := d.append w.dir r io
        { w with disk := some d, dir, thread := .idle }
      | none => { w with thread := .idle }
    | _ => w
  | .fsync ok =>
    match w.thread, w.disk with
    | .idle, some d =>
      let (d, dir, seq) := d.fsync w.dir ok
      let shared := { w.sys.shared with fsyncedSeq := seq.getD w.sys.shared.fsyncedSeq }
      { w with sys := { w.sys with shared }, disk := some d, dir }
    | _, _ => w
  | .housekeep now =>
    match w.thread with
    | .idle =>
      let sys := w.sys.step (.trim now)
      let h : Housekeeping :=
        ⟨(w.sys.shared.trim now).2, sys.shared.records.isEmpty, sys.shared.nextSeq,
          sys.shared.savedCursors⟩
      { w with sys, thread := if w.disk.isSome then .saving h else .idle }
    | _ => w
  | .save ok =>
    match w.thread with
    | .saving h =>
      if w.lastSaved = some (h.nextSeq, h.cursors) then
        { w with thread := .trimming h.keepFrom h.nothingLeft }
      else if ok then
        { w with
          stateFile := SavedState.ofCursors w.epoch h.nextSeq h.cursors :: w.stateFile
          lastSaved := some (h.nextSeq, h.cursors)
          thread := .trimming h.keepFrom h.nothingLeft }
      else { w with thread := .trimming h.keepFrom false }
    | _ => w
  | .trimDisk removeOk =>
    match w.thread with
    | .trimming keepFrom nothingLeft =>
      match w.disk with
      | some d =>
        let (d, dir) := d.trim w.dir keepFrom nothingLeft removeOk
        { w with disk := some d, dir, thread := .idle }
      | none => { w with thread := .idle }
    | _ => w
  | .plan sink now =>
    let sys := w.sys.step (.plan sink now)
    { w with
      sys
      handed := Function.update w.handed sink
        (w.handed sink ++ (newBatch w.sys sys sink).map fun r => (w.epoch, r)) }
  | .settle sink reply now => { w with sys := w.sys.step (.settle sink reply now) }
  | .restart restart =>
    openOn w.sys.shared.role w.sys.shared.hiveId (w.crashedDir restart) (w.survivingState restart)
      restart w.handed

end World

/-- Everything a turn can do, with what enables it. -/
inductive Turn (w : World) : RouterEvent → World → Prop
  | stutter (e : RouterEvent) : Turn w e w
  | refused {i : Incoming} {now : ℕ} (idle : w.thread = .idle)
      (taken : (w.sys.shared.takeIncoming w.sys.counters i now).2.2 = none) :
      Turn w (.take i now)
        { w with sys := w.sys.step (.append i now), thread := .idle, appended := w.appended ++ [] }
  | taken {i : Incoming} {now : ℕ} {r : Record} (idle : w.thread = .idle)
      (taken : (w.sys.shared.takeIncoming w.sys.counters i now).2.2 = some r) :
      Turn w (.take i now)
        { w with
          sys := w.sys.step (.append i now), thread := .writing r, appended := w.appended ++ [r] }
  | written {io : WriteIo} {r : Record} {d : Disk} (writing : w.thread = .writing r)
      (disk : w.disk = some d) :
      Turn w (.write io)
        { w with
          disk := some (d.append w.dir r io).1, dir := (d.append w.dir r io).2, thread := .idle }
  | inMemory {io : WriteIo} {r : Record} (writing : w.thread = .writing r)
      (disk : w.disk = none) : Turn w (.write io) { w with thread := .idle }
  | fsynced {ok : Bool} {d : Disk} (idle : w.thread = .idle) (disk : w.disk = some d) (seq : ℕ) :
      Turn w (.fsync ok)
        { w with
          sys := { w.sys with shared := { w.sys.shared with fsyncedSeq := seq } }
          disk := some (d.fsync w.dir ok).1
          dir := (d.fsync w.dir ok).2.1 }
  | housekept {now : ℕ} {thread : DiskThread} (idle : w.thread = .idle)
      (next : thread = .idle ∨ w.disk.isSome = true ∧ ∃ keepFrom nothingLeft,
        thread = .saving ⟨keepFrom, nothingLeft, (w.sys.step (.trim now)).shared.nextSeq,
          (w.sys.step (.trim now)).shared.savedCursors⟩) :
      Turn w (.housekeep now) { w with sys := w.sys.step (.trim now), thread }
  | kept {ok : Bool} {h : Housekeeping} {keepFrom : ℕ} {nothingLeft : Bool}
      (saving : w.thread = .saving h) :
      Turn w (.save ok) { w with thread := .trimming keepFrom nothingLeft }
  | saved {ok : Bool} {h : Housekeeping} {keepFrom : ℕ} {nothingLeft : Bool}
      (saving : w.thread = .saving h) :
      Turn w (.save ok)
        { w with
          stateFile := SavedState.ofCursors w.epoch h.nextSeq h.cursors :: w.stateFile
          lastSaved := some (h.nextSeq, h.cursors)
          thread := .trimming keepFrom nothingLeft }
  | trimmed {removeOk : ℕ → Bool} {d : Disk} {keepFrom : ℕ} {nothingLeft : Bool}
      (trimming : w.thread = .trimming keepFrom nothingLeft) (disk : w.disk = some d) :
      Turn w (.trimDisk removeOk)
        { w with
          disk := some (d.trim w.dir keepFrom nothingLeft removeOk).1
          dir := (d.trim w.dir keepFrom nothingLeft removeOk).2
          thread := .idle }
  | nothingToTrim {removeOk : ℕ → Bool} {keepFrom : ℕ} {nothingLeft : Bool}
      (trimming : w.thread = .trimming keepFrom nothingLeft) (disk : w.disk = none) :
      Turn w (.trimDisk removeOk) { w with thread := .idle }
  | plan (sink : String) (now : ℕ) :
      Turn w (.plan sink now)
        { w with
          sys := w.sys.step (.plan sink now)
          handed := Function.update w.handed sink (w.handed sink ++
            (World.newBatch w.sys (w.sys.step (.plan sink now)) sink).map fun r => (w.epoch, r)) }
  | settle (sink : String) (reply : Option Reply) (now : ℕ) :
      Turn w (.settle sink reply now) { w with sys := w.sys.step (.settle sink reply now) }
  | restart (restart : Restart) :
      Turn w (.restart restart)
        (World.openOn w.sys.shared.role w.sys.shared.hiveId (w.crashedDir restart)
          (w.survivingState restart) restart w.handed)

theorem turn_step (w : World) (e : RouterEvent) : Turn w e (w.step e) := by
  cases e with
  | take i now =>
    cases ht : w.thread with
    | idle =>
      cases htaken : (w.sys.shared.takeIncoming w.sys.counters i now).2.2 with
      | none =>
        simp only [World.step, ht, htaken, Option.toList_none]
        exact .refused ht htaken
      | some r =>
        simp only [World.step, ht, htaken, Option.toList_some]
        exact .taken ht htaken
    | writing | saving | trimming =>
      simp only [World.step, ht]
      exact .stutter _
  | write io =>
    cases ht : w.thread with
    | writing r =>
      cases hd : w.disk with
      | none =>
        simp only [World.step, ht, hd]
        exact hd ▸ .inMemory ht hd
      | some d =>
        simp only [World.step, ht, hd]
        exact .written ht hd
    | idle | saving | trimming =>
      simp only [World.step, ht]
      exact .stutter _
  | fsync ok =>
    cases ht : w.thread with
    | idle =>
      cases hd : w.disk with
      | none =>
        simp only [World.step, ht, hd]
        exact .stutter _
      | some d =>
        simp only [World.step, ht, hd]
        exact ht ▸ .fsynced ht hd _
    | writing | saving | trimming =>
      simp only [World.step, ht]
      exact .stutter _
  | housekeep now =>
    cases ht : w.thread with
    | idle =>
      simp only [World.step, ht]
      refine .housekept ht ?_
      by_cases hd : w.disk.isSome = true
      · exact .inr ⟨hd, _, _, if_pos hd⟩
      · exact .inl (if_neg hd)
    | writing | saving | trimming =>
      simp only [World.step, ht]
      exact .stutter _
  | save ok =>
    cases ht : w.thread with
    | saving h =>
      simp only [World.step, ht]
      split_ifs
      · exact .kept ht
      · exact .saved ht
      · exact .kept ht
    | idle | writing | trimming =>
      simp only [World.step, ht]
      exact .stutter _
  | trimDisk removeOk =>
    cases ht : w.thread with
    | trimming keepFrom nothingLeft =>
      cases hd : w.disk with
      | none =>
        simp only [World.step, ht, hd]
        exact hd ▸ .nothingToTrim ht hd
      | some d =>
        simp only [World.step, ht, hd]
        exact .trimmed ht hd
    | idle | writing | saving =>
      simp only [World.step, ht]
      exact .stutter _
  | plan sink now => exact .plan sink now
  | settle sink reply now => exact .settle sink reply now
  | restart restart => exact .restart restart

/-- The worlds reached by events that meet a condition on the world before them. -/
inductive Reaches (ok : World → RouterEvent → Prop) (w : World) : World → Prop
  | refl : Reaches ok w w
  | tail {w' : World} {e : RouterEvent} (h : Reaches ok w w') (hok : ok w' e) :
      Reaches ok w (w'.step e)

def World.run (w : World) (events : List RouterEvent) : World := events.foldl World.step w

def RunOk (ok : World → RouterEvent → Prop) : World → List RouterEvent → Prop
  | _, [] => True
  | w, e :: events => ok w e ∧ RunOk ok (w.step e) events

instance RunOk.decidable {ok : World → RouterEvent → Prop} [∀ w e, Decidable (ok w e)] :
    (w : World) → (events : List RouterEvent) → Decidable (RunOk ok w events)
  | _, [] => inferInstanceAs (Decidable True)
  | w, e :: events =>
    have : Decidable (RunOk ok (w.step e) events) := RunOk.decidable (w.step e) events
    inferInstanceAs (Decidable (ok w e ∧ RunOk ok (w.step e) events))

theorem Reaches.run {ok : World → RouterEvent → Prop} {w w' : World} {events : List RouterEvent}
    (h : Reaches ok w w') (hok : RunOk ok w' events) : Reaches ok w (w'.run events) := by
  induction events generalizing w' with
  | nil => exact h
  | cons e events ih => exact ih (.tail h hok.1) hok.2

end Fluxbee.Stream
