import Fluxbee.Lib.GuardedRun
import Fluxbee.Stream.Conservation
import Fluxbee.Stream.Disk

/-! The number reported as synced, against the records whose segment had no sync since they were
written. -/
namespace Fluxbee.Stream
open List GuardedRun Disk Option

/-- What the disk thread does to its disk; a record appended has the next number. -/
inductive DiskEvent
  | append (r : Record) (io : WriteIo)
  | fsync (ok : Bool)
  | trim (keepFrom : ℕ) (nothingLeft : Bool) (removeOk : ℕ → Bool)

/-- The segment file that an event syncs. -/
def Disk.syncs (d : Disk) : DiskEvent → Option ℕ
  | .append _ io => (d.current.filter fun c => streamSegmentBytes ≤ c.2 && io.syncOk).map Prod.fst
  | .fsync ok => (d.current.filter fun _ => d.dirty && ok).map Prod.fst
  | .trim .. => none

/-- `unsynced` are the records whose write succeeded, each with its segment, that had no sync of it
since; `written` those whose file is there, with their segment and where they end in it. -/
structure Watch where
  disk : Disk
  dir : Dir
  (nextSeq fsyncedSeq : ℕ)
  unsynced : List (ℕ × ℕ)
  written : List (ℕ × ℕ × ℕ)

namespace Watch

/-- An append that leaves a segment open has written its record there. -/
def step (w : Watch) (e : DiskEvent) : Watch :=
  let unsynced := w.unsynced.filter (w.disk.syncs e ≠ some ·.2)
  let still (dir : Dir) := w.written.filter fun x => (dir.lookup x.2.1).isSome
  match e with
  | .append r io =>
    let out := w.disk.append w.dir { r with seq := w.nextSeq } io
    let new := (out.1.current.map fun c => (w.nextSeq, c.1)).toList
    let ends := out.1.current.bind fun c => (out.2.lookup c.1).map fun file =>
      (w.nextSeq, c.1, file.bytes.length)
    ⟨out.1, out.2, w.nextSeq + 1, w.fsyncedSeq, new ++ unsynced, ends.toList ++ still out.2⟩
  | .fsync ok =>
    let out := w.disk.fsync w.dir ok
    ⟨out.1, out.2.1, w.nextSeq, out.2.2.getD w.fsyncedSeq, unsynced, still out.2.1⟩
  | .trim keepFrom nothingLeft removeOk =>
    let out := w.disk.trim w.dir keepFrom nothingLeft removeOk
    ⟨out.1, out.2, w.nextSeq, w.fsyncedSeq, unsynced, still out.2⟩

/-- The disk that a restart opens. -/
def start (dir : Dir) (state : SavedState) (newEpoch : ℕ) (sinks : List String) : Watch :=
  let out := recover dir state newEpoch sinks
  ⟨out.2.1, out.2.2, out.1.nextSeq, out.1.nextSeq - 1, [], []⟩

/-- No segment is given up that was written since its last sync. -/
def Keeps (w : Watch) : DiskEvent → Prop
  | .append _ io => w.disk.dirty = true → ∀ c ∈ w.disk.current,
      if streamSegmentBytes ≤ c.2 then io.syncOk = true else io.failedAfter = none
  | .fsync _ => True
  | .trim _ nothingLeft _ => nothingLeft = true → w.disk.dirty = true → w.disk.current = none

structure Inv (w : Watch) : Prop where
  pending : ∀ x ∈ w.unsynced,
    w.fsyncedSeq < x.1 ∧ w.disk.dirty = true ∧ w.disk.current.map Prod.fst = some x.2
  fsynced_lt : w.fsyncedSeq < w.nextSeq
  last_lt : w.disk.lastWrittenSeq < w.nextSeq

variable {w : Watch} {r : Record} {io : WriteIo}

theorem append_spec (d : Disk) (dir : Dir) (r : Record) (io : WriteIo) :
    let d' := (d.append dir r io).1
    d'.current = none ∧ d'.lastWrittenSeq = d.lastWrittenSeq ∨
      d'.dirty = true ∧ d'.lastWrittenSeq = r.seq := by
  obtain ⟨segments, current, last, dirty⟩ := d
  obtain ⟨syncOk, openOk, failedAfter⟩ := io
  cases current with
  | none =>
    cases openOk <;> cases failedAfter <;>
      simp [append, write, roll, writeCurrent]
  | some c =>
    by_cases hfull : streamSegmentBytes ≤ c.2 <;> cases syncOk <;> cases openOk <;>
      cases failedAfter <;> simp [append, write, roll, writeCurrent, hfull]

theorem append_of_room {d : Disk} {dir : Dir} {c : ℕ × ℕ} (hcur : d.current = some c)
    (hroom : ¬ streamSegmentBytes ≤ c.2) (hio : io.failedAfter = none) :
    (d.append dir r io).1.dirty = true ∧ (d.append dir r io).1.current.map Prod.fst = some c.1 := by
  simp [append, write, writeCurrent, hcur, hroom, hio]

theorem fsync_spec (d : Disk) (dir : Dir) (ok : Bool) :
    (d.fsync dir ok).1.lastWrittenSeq = d.lastWrittenSeq ∧
      ∀ seq ∈ (d.fsync dir ok).2.2, seq = d.lastWrittenSeq := by
  unfold Disk.fsync
  by_cases hdirty : d.dirty = true
  · cases d.current <;> cases ok <;> simp [hdirty]
  · simp [hdirty]

theorem Inv.append (h : w.Inv) (hkeeps : w.Keeps (.append r io)) : (w.step (.append r io)).Inv := by
  have hspec := append_spec w.disk w.dir { r with seq := w.nextSeq } io
  refine ⟨fun x hx => ?_, Nat.lt_succ_of_lt h.fsynced_lt, ?_⟩
  · rcases mem_append.mp hx with hnew | hold
    · obtain ⟨c, hc, rfl⟩ := map_eq_some_iff.mp (mem_toList.mp hnew)
      refine ⟨h.fsynced_lt, ?_, map_eq_some_iff.mpr ⟨c, hc, rfl⟩⟩
      rcases hspec with ⟨hnone, -⟩ | ⟨hdirty, -⟩
      · cases hnone.symm.trans hc
      · exact hdirty
    · obtain ⟨hx, hsyncs⟩ := mem_filter.mp hold
      obtain ⟨hlt, hdirty, hname⟩ := h.pending x hx
      obtain ⟨c, hcur, hc⟩ := map_eq_some_iff.mp hname
      have hio := hkeeps hdirty c hcur
      split_ifs at hio with hfull
      · simp [syncs, hcur, Option.filter, hio, hfull, hc] at hsyncs
      · exact ⟨hlt, hc ▸ append_of_room hcur hfull hio⟩
  · change (w.disk.append w.dir _ io).1.lastWrittenSeq < w.nextSeq + 1
    rcases hspec with ⟨-, hlast⟩ | ⟨-, hlast⟩ <;> rw [hlast]
    · exact Nat.lt_succ_of_lt h.last_lt
    · exact Nat.lt_succ_self _

theorem Inv.fsync (h : w.Inv) (ok : Bool) : (w.step (.fsync ok)).Inv := by
  obtain ⟨hlast, hseq⟩ := fsync_spec w.disk w.dir ok
  refine ⟨fun x hx => ?_, ?_, hlast.trans_lt h.last_lt⟩
  · obtain ⟨hx, hsyncs⟩ := mem_filter.mp hx
    obtain ⟨hlt, hdirty, hname⟩ := h.pending x hx
    obtain ⟨c, hcur, hc⟩ := map_eq_some_iff.mp hname
    -- the segment of a record that is still without a sync is open, and its sync failed
    cases ok with
    | false => simp [step, Disk.fsync, hdirty, hcur, hlt, hc]
    | true => simp [syncs, hcur, hdirty, hc, Option.filter] at hsyncs
  · change (w.disk.fsync w.dir ok).2.2.getD w.fsyncedSeq < w.nextSeq
    cases hout : (w.disk.fsync w.dir ok).2.2 with
    | none => exact h.fsynced_lt
    | some seq => exact (hseq seq hout).trans_lt h.last_lt

theorem Inv.trim (h : w.Inv) {keepFrom : ℕ} {nothingLeft : Bool} {removeOk : ℕ → Bool}
    (hkeeps : w.Keeps (.trim keepFrom nothingLeft removeOk)) :
    (w.step (.trim keepFrom nothingLeft removeOk)).Inv := by
  cases nothingLeft with
  | false => exact ⟨fun x hx => h.pending x (mem_of_mem_filter hx), h.fsynced_lt, h.last_lt⟩
  | true =>
    refine ⟨fun x hx => ?_, h.fsynced_lt, h.last_lt⟩
    obtain ⟨-, hdirty, hname⟩ := h.pending x (mem_of_mem_filter hx)
    rw [hkeeps rfl hdirty] at hname
    cases hname

/-- What was reported last is not above what a sync would report now. -/
def Forward (w : Watch) : Prop :=
  w.fsyncedSeq < w.nextSeq ∧ w.disk.lastWrittenSeq < w.nextSeq ∧
    (w.disk.dirty = true → w.fsyncedSeq ≤ w.disk.lastWrittenSeq)

theorem append_dirty (d : Disk) (dir : Dir) (r : Record) (io : WriteIo) :
    let d' := (d.append dir r io).1
    d'.dirty = d.dirty ∧ d'.lastWrittenSeq = d.lastWrittenSeq ∨ d'.lastWrittenSeq = r.seq := by
  simp only [Disk.append, Disk.write, Disk.roll, Disk.writeCurrent]
  grind

theorem Forward.step (h : w.Forward) (e : DiskEvent) :
    (w.step e).Forward ∧ w.fsyncedSeq ≤ (w.step e).fsyncedSeq := by
  obtain ⟨hnext, hlast, hdirty⟩ := h
  cases e with
  | append r io =>
    have hspec := append_dirty w.disk w.dir { r with seq := w.nextSeq } io
    refine ⟨⟨Nat.lt_succ_of_lt hnext, ?_⟩, le_rfl⟩
    simp only [Watch.step]
    grind
  | fsync | trim =>
    simp only [Watch.step, Disk.fsync, Disk.trim, Forward]
    grind

theorem lookup_modify (dir : Dir) (name n : ℕ) (g : SegmentFile → SegmentFile) :
    (dir.modify name g).lookup n = (dir.lookup n).map fun file => if n = name then g file else file := by
  induction dir with
  | nil => rfl
  | cons entry dir ih =>
    unfold Dir.modify at ih ⊢
    rw [map_cons, lookup_cons, lookup_cons, ih]
    grind

theorem lookup_openAppend {dir : Dir} {n : ℕ} {file : SegmentFile} (h : dir.lookup n = some file)
    (name : ℕ) : (dir.openAppend name).lookup n = some file := by
  unfold Dir.openAppend
  split_ifs
  · exact h
  · simp [lookup_append, h]

theorem lookup_filter (dir : Dir) (p : ℕ → Bool) (n : ℕ) :
    lookup n (dir.filter fun entry => p entry.1) = if p n then dir.lookup n else none := by
  induction dir with
  | nil => simp
  | cons entry dir ih => grind

/-- A file that stays loses no bytes and none of those synced, and its sync is one of them all. -/
theorem step_lookup (w : Watch) (e : DiskEvent) {n : ℕ} {old new : SegmentFile}
    (hold : w.dir.lookup n = some old) (hnew : (w.step e).dir.lookup n = some new) :
    old.bytes.length ≤ new.bytes.length ∧ min old.synced old.bytes.length ≤ new.synced ∧
      (w.disk.syncs e = some n → old.bytes.length ≤ new.synced) := by
  obtain ⟨⟨segments, current, last, dirty⟩, dir⟩ := w
  cases e with
  | append r io =>
    obtain ⟨syncOk, openOk, failedAfter⟩ := io
    cases current with
    | none =>
      cases openOk <;> cases failedAfter <;>
        simp [step, append, write, roll, writeCurrent, syncs, Dir.write, lookup_modify, hold,
          lookup_openAppend hold] at hnew ⊢ <;> grind
    | some c =>
      have hsync : (dir.sync c.1).lookup n =
          some (if n = c.1 then { old with synced := old.bytes.length } else old) := by
        simp [Dir.sync, lookup_modify, hold]
      by_cases hfull : streamSegmentBytes ≤ c.2 <;> cases syncOk <;> cases openOk <;>
        cases failedAfter <;>
        simp [step, append, write, roll, writeCurrent, syncs, Dir.write, lookup_modify, hold, hfull,
          hsync, lookup_openAppend hsync, Option.filter] at hnew ⊢ <;> grind
  | fsync ok =>
    cases dirty <;> cases ok <;> cases current <;>
      simp [step, Disk.fsync, syncs, Dir.sync, lookup_modify, hold, Option.filter] at hnew ⊢ <;> grind
  | trim keepFrom nothingLeft removeOk =>
    have hsame (gone : List Segment) (h : lookup n (dir.filter fun entry =>
        !(gone.any (·.name == entry.1) && removeOk entry.1)) = some new) : old = new := by
      rw [lookup_filter dir fun name => !(gone.any (·.name == name) && removeOk name)] at h
      grind
    cases nothingLeft <;> cases hsame _ hnew <;> simp [syncs]

/-- A record that had a sync of its segment lies in the synced bytes of its file. -/
def Tied (w : Watch) : Prop :=
  ∀ x ∈ w.written, ∃ file, w.dir.lookup x.2.1 = some file ∧ x.2.2 ≤ file.bytes.length ∧
    ((x.1, x.2.1) ∈ w.unsynced ∨ x.2.2 ≤ file.synced)

theorem Tied.keep {w : Watch} (h : w.Tied) (e : DiskEvent) {x : ℕ × ℕ × ℕ} (hx : x ∈ w.written)
    (hthere : ((w.step e).dir.lookup x.2.1).isSome) (hun : (x.1, x.2.1) ∈ w.unsynced →
      w.disk.syncs e ≠ some x.2.1 → (x.1, x.2.1) ∈ (w.step e).unsynced) :
    ∃ file, (w.step e).dir.lookup x.2.1 = some file ∧ x.2.2 ≤ file.bytes.length ∧
      ((x.1, x.2.1) ∈ (w.step e).unsynced ∨ x.2.2 ≤ file.synced) := by
  obtain ⟨new, hnew⟩ := isSome_iff_exists.mp hthere
  obtain ⟨old, hold, hend, hsynced⟩ := h x hx
  obtain ⟨hlength, hkept, hsync⟩ := step_lookup w e hold hnew
  refine ⟨new, hnew, hend.trans hlength, ?_⟩
  by_cases hs : w.disk.syncs e = some x.2.1
  · exact .inr (hend.trans (hsync hs))
  · rcases hsynced with hin | hle
    · exact .inl (hun hin hs)
    · exact .inr (by omega)

theorem Tied.step {w : Watch} (h : w.Tied) (e : DiskEvent) : (w.step e).Tied := by
  intro x hx
  have hun : (x.1, x.2.1) ∈ w.unsynced → w.disk.syncs e ≠ some x.2.1 →
      (x.1, x.2.1) ∈ (w.step e).unsynced := by
    intro hin hs
    have hfilter : (x.1, x.2.1) ∈ w.unsynced.filter (w.disk.syncs e ≠ some ·.2) :=
      mem_filter.mpr ⟨hin, decide_eq_true hs⟩
    cases e with
    | append r io => exact mem_append_right _ hfilter
    | fsync ok | trim keepFrom nothingLeft removeOk => exact hfilter
  cases e with
  | append r io =>
    rcases mem_append.mp hx with hnew | hstill
    · obtain ⟨c, hc, hfile⟩ := bind_eq_some_iff.mp (mem_toList.mp hnew)
      obtain ⟨file, hlookup, rfl⟩ := map_eq_some_iff.mp hfile
      refine ⟨file, hlookup, le_rfl, .inl (mem_append_left _ (mem_toList.mpr ?_))⟩
      exact map_eq_some_iff.mpr ⟨c, hc, rfl⟩
    · exact h.keep _ (mem_filter.mp hstill).1 (mem_filter.mp hstill).2 hun
  | fsync ok | trim keepFrom nothingLeft removeOk =>
    exact h.keep _ (mem_filter.mp hx).1 (mem_filter.mp hx).2 hun

end Watch

/-- Where no segment is given up that was written since its last sync, every record up to the number
reported had a sync of its segment since it was written, and lies in the synced bytes of the file if
that is still there. -/
theorem synced_up_to_watermark {dir : Dir} {state : SavedState} {newEpoch : ℕ} {sinks : List String}
    {events : List DiskEvent}
    (h : Along Watch.step Watch.Keeps (.start dir state newEpoch sinks) events) :
    let w := events.foldl Watch.step (.start dir state newEpoch sinks)
    (∀ x ∈ w.unsynced, w.fsyncedSeq < x.1) ∧ ∀ x ∈ w.written, x.1 ≤ w.fsyncedSeq →
      ∃ file, w.dir.lookup x.2.1 = some file ∧ x.2.2 ≤ file.synced := by
  intro w
  have hlast := @lastOnDisk_lt_nextSeq dir.sorted.decoded state newEpoch sinks
  have hstart : (Watch.start dir state newEpoch sinks).Inv :=
    ⟨nofun, Nat.sub_lt (Nat.zero_lt_of_lt hlast) Nat.one_pos, hlast⟩
  have htied : w.Tied := foldlRecOn events Watch.step (by simp [Watch.Tied, Watch.start])
    fun w hw e _ => hw.step e
  have habove : ∀ x ∈ w.unsynced, w.fsyncedSeq < x.1 := by
    refine fun x hx => ((h.invariant (fun w e hkeeps hw => ?_) hstart).pending x hx).1
    cases e with
    | append r io => exact hw.append hkeeps
    | fsync ok => exact hw.fsync ok
    | trim keepFrom nothingLeft removeOk => exact hw.trim hkeeps
  refine ⟨habove, fun x hx hle => ?_⟩
  obtain ⟨file, hfile, -, hin | hsynced⟩ := htied x hx
  · exact absurd (habove _ hin) (Nat.not_lt.mpr hle)
  · exact ⟨file, hfile, hsynced⟩

/-- Whatever fails, the number reported as synced never goes back and stays below the next one. -/
theorem fsynced_goes_forward (dir : Dir) (state : SavedState) (newEpoch : ℕ) (sinks : List String)
    (events : List DiskEvent) (e : DiskEvent) :
    let w := events.foldl Watch.step (.start dir state newEpoch sinks)
    w.fsyncedSeq ≤ (w.step e).fsyncedSeq ∧ w.fsyncedSeq < w.nextSeq := by
  have hlast := @lastOnDisk_lt_nextSeq dir.sorted.decoded state newEpoch sinks
  have hstart : (Watch.start dir state newEpoch sinks).Forward :=
    ⟨Nat.sub_lt (Nat.zero_lt_of_lt hlast) Nat.one_pos, hlast, nofun⟩
  have hw := foldlRecOn events Watch.step hstart fun w hw e _ => (hw.step e).1
  exact ⟨(hw.step e).2, hw.1⟩

namespace GivenUp

def appended (failedAfter : Option ℕ) : DiskEvent :=
  .append ⟨0, 0, .turns, subjectStorageTurns, "", []⟩ ⟨true, true, failedAfter⟩

def run (events : List DiskEvent) : Watch := events.foldl Watch.step (.start [] .absent 1 [])

end GivenUp

/-- The second write fails in the segment of the first, which is then reported as synced. -/
theorem failed_write_leaves_unsynced :
    let w := GivenUp.run [GivenUp.appended none, GivenUp.appended (some 0), .fsync true]
    w.unsynced = [(1, 1)] ∧ w.fsyncedSeq = 1 ∧ (w.dir.lookup 1).map SegmentFile.synced = some 0 := by
  decide +kernel

/-- A record that was synced, and one whose sync failed. -/
theorem synced_up_to_watermark_second :
    let w := GivenUp.run [GivenUp.appended none, .fsync true, GivenUp.appended none, .fsync false]
    w.written.map Prod.fst = [2, 1] ∧ w.unsynced = [(2, 1)] ∧ w.fsyncedSeq = 1 ∧
      ∀ x ∈ w.written, x.1 ≤ w.fsyncedSeq →
        ∃ file, w.dir.lookup x.2.1 = some file ∧ x.2.2 ≤ file.synced := by
  refine ⟨by decide +kernel, by decide +kernel, by decide +kernel, ?_⟩
  exact (@synced_up_to_watermark [] .absent 1 [] [GivenUp.appended none, .fsync true,
    GivenUp.appended none, .fsync false] ⟨nofun, trivial, nofun, trivial, trivial⟩).2

end Fluxbee.Stream
