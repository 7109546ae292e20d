import Fluxbee.Stream.RouterInvariant

/-! A restart finds again what it held: the records on disk past a sink's cursor are pending for it,
and the numbers given out after it are new. -/
namespace Fluxbee.Stream
open List Recovered Shared

def SavedState.cursor (v : SavedState) (sink : String) : ℕ := (v.cursors sink).getD 0

namespace World

/-- Whatever a crash leaves, a record decoded from disk that was past a sink's cursor is pending for
it again, before what is past the window leaves. -/
def RestartKeeps (w : World) : Prop :=
  ∀ restart : Restart, ∀ sink ∈ w.sinks, ∀ r ∈ (w.recovered restart).records,
    w.sys.shared.takes sink r = true → w.sys.shared.cursor sink < r.seq →
      r ∈ (Shared.ofRecovered w.sys.shared.role w.sys.shared.hiveId
        (w.recovered restart)).pending sink

/-- No record taken in since the last start has a number at or below a recovered cursor, or that of
a recovered record. -/
def AppendsFresh (w : World) : Prop :=
  ∀ r ∈ w.appended, (∀ sink ∈ w.sinks, (w.opened.cursors sink).getD 0 < r.seq) ∧
    ∀ q ∈ w.opened.records, q.seq ≠ r.seq

end World

/-- As `OrderedEvent`, and every restart can read its directory. -/
def ReadableEvent (w : World) (e : RouterEvent) : Prop :=
  OrderedEvent w e ∧ match e with
    | .restart restart => restart.readable = true
    | _ => True

instance (w : World) (e : RouterEvent) : Decidable (ReadableEvent w e) :=
  have : Decidable (match e with
      | .restart restart => restart.readable = true
      | _ => True) := match e with
    | .restart restart => inferInstanceAs (Decidable (restart.readable = true))
    | .take _ _ | .write _ | .fsync _ | .housekeep _ | .save _ | .trimDisk _ | .plan _ _
    | .settle _ _ _ => inferInstanceAs (Decidable True)
  inferInstanceAs (Decidable (OrderedEvent w e ∧ _))

/-- What the saved states and the last start say of the records, in every world. -/
structure World.Held (w : World) : Prop where
  ordered : w.Ordered
  saved_lt : ∀ v ∈ w.stateFile, ∀ sink ∈ w.sinks, v.cursor sink < w.writeSeq
  saved_next : ∀ v ∈ w.stateFile, ∀ sink ∈ w.sinks, v.cursor sink < v.nextSeq.getD 1
  /-- A record past the cursor now is past every cursor a crash may fall back to. -/
  saved_owed : ∀ v ∈ w.stateFile, ∀ sink ∈ w.sinks, ∀ q ∈ w.dir.decoded,
    w.sys.shared.cursor sink < q.seq → v.cursor sink < q.seq
  saving : ∀ h, w.thread = .saving h → ∀ sink ∈ w.sinks,
    (h.cursors.lookup sink).getD 0 ≤ w.sys.shared.cursor sink ∧
      (h.cursors.lookup sink).getD 0 < h.nextSeq
  opened_cursor : ∀ sink ∈ w.sinks, (w.opened.cursors sink).getD 0 < w.opened.nextSeq
  opened_records : ∀ q ∈ w.opened.records, q.seq < w.opened.nextSeq
  opened_le : w.opened.nextSeq ≤ w.sys.shared.nextSeq
  appended_ge : ∀ r ∈ w.appended, w.opened.nextSeq ≤ r.seq

variable {w : World} {sink : String} {sys : System} {restart : Restart}

theorem World.Held.appendsFresh (h : w.Held) : w.AppendsFresh := by
  intro r hr
  have hge := h.appended_ge r hr
  refine ⟨fun sink hsink => ?_, fun q hq he => ?_⟩
  · have := h.opened_cursor sink hsink
    omega
  · have := h.opened_records q hq
    omega

theorem survivingState_mem (w : World) (restart : Restart) :
    w.survivingState restart ∈ w.stateFile ∨ w.survivingState restart = .absent := by
  unfold World.survivingState
  cases hd : w.stateFile.drop restart.lost with
  | nil => exact .inr rfl
  | cons v rest =>
    refine .inl (mem_of_mem_drop (i := restart.lost) ?_)
    rw [hd]
    exact mem_cons_self

section
variable (records : List Record) (state : SavedState) (epoch : ℕ)

theorem ofLog_cursor_le (sinks : List String) (sink : String) :
    ((ofLog records state epoch sinks).cursors sink).getD 0 ≤ state.cursor sink := by
  simp only [ofLog, SavedState.cursor]
  split_ifs
  · cases state.cursors sink with
    | none => exact le_rfl
    | some c => exact Nat.min_le_left c _
  · exact Nat.zero_le _

theorem ofLog_cursor {sinks : List String} (hsink : sink ∈ sinks) :
    ((ofLog records state epoch sinks).cursors sink).getD 0 =
      min (state.cursor sink) (lastOnDisk records) := by
  simp only [ofLog, SavedState.cursor, if_pos hsink]
  cases state.cursors sink with
  | none => simp
  | some c => rfl

end

theorem World.Ordered.recovered_eq (h : w.Ordered) (restart : Restart) :
    w.recovered restart = ofLog (w.crashedDir restart).decoded (w.survivingState restart)
      (newEpoch restart.uuid) w.sinks :=
  (recover_records (h.order.crash restart.keep) _ _ _).1

theorem World.Held.restartKeeps (h : w.Held) : w.RestartKeeps := by
  intro restart sink hsink r hr htakes hcursor
  rw [h.ordered.recovered_eq] at hr ⊢
  have hmem : r ∈ w.dir.decoded := decoded_crash restart.keep r hr
  have hstate : (w.survivingState restart).cursor sink < r.seq := by
    rcases survivingState_mem w restart with hv | hv
    · exact h.saved_owed _ hv sink hsink r hmem hcursor
    · rw [hv]
      exact lt_of_le_of_lt (Nat.zero_le _) hcursor
  have hle := ofLog_cursor_le (w.crashedDir restart).decoded (w.survivingState restart)
    (newEpoch restart.uuid) w.sinks sink
  have hsink' : sink ∈ allSinks w.sys.shared.role w.sys.shared.hiveId := hsink
  refine mem_filter.mpr ⟨hr, ?_⟩
  have hlt : (ofRecovered w.sys.shared.role w.sys.shared.hiveId (ofLog
      (w.crashedDir restart).decoded (w.survivingState restart) (newEpoch restart.uuid)
      w.sinks)).cursor sink < r.seq := by
    simp only [cursor, ofRecovered, if_pos hsink', Option.map_some, Option.getD_some]
    omega
  unfold owed
  rw [Bool.and_eq_true]
  exact ⟨htakes, decide_eq_true hlt⟩

theorem lookup_savedCursors_le (s : Shared) (sink : String) :
    (s.savedCursors.lookup sink).getD 0 ≤ s.cursor sink := by
  unfold savedCursors
  induction allSinks s.role s.hiveId with
  | nil => exact Nat.zero_le _
  | cons k rest ih =>
    rw [map_cons, lookup_cons]
    cases he : sink == k with
    | true =>
      rw [eq_of_beq he]
      exact Nat.min_le_left _ _
    | false => exact ih

section

variable {w w' : World}

theorem Advances.sinks_eq (h : Advances w.sys.shared w'.sys.shared) : w'.sinks = w.sinks := by
  unfold World.sinks
  rw [h.role, h.hiveId]

theorem World.Held.advance (h : w.Held) (hord : w'.Ordered)
    (hadv : Advances w.sys.shared w'.sys.shared) (hstate : w'.stateFile = w.stateFile)
    (hopened : w'.opened = w.opened) (hseq : w.writeSeq ≤ w'.writeSeq)
    (hdecoded : ∀ q ∈ w'.dir.decoded, q ∈ w.dir.decoded ∨ w.writeSeq ≤ q.seq)
    (happended : ∀ r ∈ w'.appended, r ∈ w.appended ∨ w.sys.shared.nextSeq ≤ r.seq)
    (hsaving : ∀ k, w'.thread = .saving k → w.thread = .saving k ∨ ∀ sink ∈ w'.sinks,
      (k.cursors.lookup sink).getD 0 ≤ w'.sys.shared.cursor sink ∧
        (k.cursors.lookup sink).getD 0 < k.nextSeq) : w'.Held := by
  have hsinks := hadv.sinks_eq
  refine ⟨hord, ?_, ?_, ?_, fun k hk sink hsink => ?_, ?_, ?_, ?_, fun r hr => ?_⟩
  · rw [hstate, hsinks]
    exact fun v hv sink hsink => lt_of_lt_of_le (h.saved_lt v hv sink hsink) hseq
  · rw [hstate, hsinks]
    exact h.saved_next
  · rw [hstate, hsinks]
    intro v hv sink hsink q hq hlt
    have hle := hadv.cursor_le sink hsink
    rcases hdecoded q hq with hq | hq
    · exact h.saved_owed v hv sink hsink q hq (by omega)
    · have := h.saved_lt v hv sink hsink
      omega
  · rcases hsaving k hk with hk | hk
    · have hsink' : sink ∈ w.sinks := hsinks ▸ hsink
      have hsaved := h.saving k hk sink hsink'
      have hle := hadv.cursor_le sink hsink'
      exact ⟨hsaved.1.trans hle, hsaved.2⟩
    · exact hk sink hsink
  · rw [hopened, hsinks]
    exact h.opened_cursor
  · rw [hopened]
    exact h.opened_records
  · rw [hopened]
    exact h.opened_le.trans hadv.nextSeq_le
  · rw [hopened]
    rcases happended r hr with hr | hr
    · exact h.appended_ge r hr
    · exact h.opened_le.trans hr

section
variable (h : sys.Inv) (hsink : sink ∈ allSinks sys.shared.role sys.shared.hiveId)
include h hsink

theorem SinkInv.cursor_lt_nextSeq : sys.shared.cursor sink < sys.shared.nextSeq := by
  obtain ⟨state, hs⟩ := h.sinks sink hsink
  rw [cursor_eq hs.state_eq]
  exact hs.cursor_lt

theorem savedCursors_bounds :
    (sys.shared.savedCursors.lookup sink).getD 0 ≤ sys.shared.cursor sink ∧
      (sys.shared.savedCursors.lookup sink).getD 0 < sys.shared.nextSeq := by
  have hle := lookup_savedCursors_le sys.shared sink
  exact ⟨hle, Nat.lt_of_le_of_lt hle (SinkInv.cursor_lt_nextSeq h hsink)⟩

end

namespace World

theorem Held.housekeep {thread : DiskThread} (h : w.Held)
    (hord : ({ w with sys, thread } : World).Ordered) (hadv : Advances w.sys.shared sys.shared)
    (hnext : sys.shared.nextSeq = w.sys.shared.nextSeq) (hidle : w.thread = .idle)
    (hthread : thread = .idle ∨ ∃ keepFrom nothingLeft,
      thread = .saving ⟨keepFrom, nothingLeft, sys.shared.nextSeq, sys.shared.savedCursors⟩) :
    ({ w with sys, thread } : World).Held := by
  have hsys : sys.Inv := hord.sys
  have hne : ∀ r, thread ≠ .writing r := by
    rcases hthread with rfl | ⟨keepFrom, nothingLeft, rfl⟩ <;> simp
  refine h.advance hord hadv rfl rfl ?_ (fun _ => .inl) (fun _ => .inl)
    (fun k hk => .inr fun sink hsink => ?_)
  · rw [writeSeq_of_ne (by simp [hidle]), writeSeq_of_ne hne]
    exact hnext.ge
  · have hk : thread = .saving k := hk
    rcases hthread with rfl | ⟨keepFrom, nothingLeft, rfl⟩
    · cases hk
    · have hsink : sink ∈ allSinks sys.shared.role sys.shared.hiveId := hsink
      have hbounds := savedCursors_bounds hsys hsink
      rw [← DiskThread.saving.inj hk]
      dsimp only
      exact hbounds

/-- The state that `k` read is saved, and the trim comes next. -/
def saved (w : World) (k : Housekeeping) (keepFrom : ℕ) (nothingLeft : Bool) : World :=
  { w with
    stateFile := SavedState.ofCursors w.epoch k.nextSeq k.cursors :: w.stateFile
    lastSaved := some (k.nextSeq, k.cursors)
    thread := .trimming keepFrom nothingLeft }

theorem Held.save {k : Housekeeping} {keepFrom : ℕ} {nothingLeft : Bool} (h : w.Held)
    (hk : w.thread = .saving k) (hord : (w.saved k keepFrom nothingLeft).Ordered) :
    (w.saved k keepFrom nothingLeft).Held := by
  have hseq : w.writeSeq = w.sys.shared.nextSeq := writeSeq_of_ne (by simp [hk])
  refine ⟨hord, fun v hv sink hsink => ?_, fun v hv sink hsink => ?_,
    fun v hv sink hsink q hq hlt => ?_, fun k' hk' => (by cases hk'), h.opened_cursor,
    h.opened_records, h.opened_le, h.appended_ge⟩
  · have hw : (w.saved k keepFrom nothingLeft).writeSeq = w.sys.shared.nextSeq := rfl
    rw [hw]
    rcases mem_cons.mp hv with rfl | hv
    · exact lt_of_le_of_lt (h.saving k hk sink hsink).1
        (SinkInv.cursor_lt_nextSeq h.ordered.sys hsink)
    · exact hseq ▸ h.saved_lt v hv sink hsink
  · rcases mem_cons.mp hv with rfl | hv
    · exact (h.saving k hk sink hsink).2
    · exact h.saved_next v hv sink hsink
  · rcases mem_cons.mp hv with rfl | hv
    · exact lt_of_le_of_lt (h.saving k hk sink hsink).1 hlt
    · exact h.saved_owed v hv sink hsink q hq hlt

theorem held_openOn {role hiveId : String} {dir : Dir} {state : SavedState}
    {handed : String → List (ℕ × Record)} (hread : restart.readable = true) (hdir : DirOk dir)
    (hstate : ∀ sink ∈ allSinks role hiveId, state.cursor sink < state.nextSeq.getD 1)
    (hord : (openOn role hiveId dir state restart handed).Ordered) :
    (openOn role hiveId dir state restart handed).Held := by
  revert hord
  simp only [openOn, if_pos hread]
  obtain ⟨hrec, hdecoded⟩ := recover_records hdir state (newEpoch restart.uuid)
    (allSinks role hiveId)
  generalize hrecovered : (recover dir state (newEpoch restart.uuid) (allSinks role hiveId)).1 =
    recovered at hrec ⊢
  intro hord
  obtain ⟨hrole, hhive, hnext, hcursor, -⟩ := start_shared role hiveId recovered restart.now
  have hlast : lastOnDisk dir.decoded < recovered.nextSeq := hrec ▸ lastOnDisk_lt_nextSeq _ _ _
  have hnextSaved : state.nextSeq.getD 1 ≤ recovered.nextSeq := by
    rw [hrec]
    simp only [ofLog]
    omega
  have hrecords : recovered.records = dir.decoded := by rw [hrec]; rfl
  have hsinks : ∀ sink, sink ∈ allSinks (System.start role hiveId recovered restart.now).shared.role
      (System.start role hiveId recovered restart.now).shared.hiveId →
      sink ∈ allSinks role hiveId := by
    rw [hrole, hhive]
    exact fun _ hs => hs
  refine ⟨hord, fun v hv sink hsink => ?_, fun v hv sink hsink => ?_,
    fun v hv sink hsink q hq hlt => ?_, by simp, fun sink hsink => ?_,
    fun q hq => ?_, hnext.ge, by simp⟩
  · rw [mem_singleton.mp hv, writeSeq_of_ne (by simp)]
    have := hstate sink (hsinks sink hsink)
    simp only [hnext]
    omega
  · rw [mem_singleton.mp hv]
    exact hstate sink (hsinks sink hsink)
  · -- a cursor past the disk was cut to its last record, which no record is past
    rw [mem_singleton.mp hv]
    have hcut : (recovered.cursors sink).getD 0 =
        min (state.cursor sink) (lastOnDisk dir.decoded) := by
      rw [hrec]
      exact ofLog_cursor _ _ _ (hsinks sink hsink)
    have hlt : (System.start role hiveId recovered restart.now).shared.cursor sink < q.seq := hlt
    rw [hcursor sink (hsinks sink hsink), hcut] at hlt
    have hq' : q ∈ dir.decoded := hdecoded ▸ hq
    have := hdir.increasing_decoded.le_lastOnDisk q hq'
    omega
  · have hle := @recoveredCursor_le dir.decoded state (newEpoch restart.uuid)
      (allSinks role hiveId) sink
    rw [← hrec] at hle
    exact lt_of_le_of_lt hle hlast
  · have := hdir.increasing_decoded.le_lastOnDisk q (hrecords ▸ hq)
    simp only
    omega

theorem held_init (role hiveId : String)
    (hread : restart.readable = true) : (init role hiveId restart).Held :=
  held_openOn hread .nil (fun _ _ => Nat.one_pos) (ordered_init role hiveId restart)

theorem Held.turn {e : RouterEvent} (h : w.Held) (hok : ReadableEvent w e)
    (ht : Turn w e w') : w'.Held := by
  have hord := h.ordered.turn hok.1 ht
  have hseq : (∀ r, w.thread ≠ .writing r) → w.writeSeq = w.sys.shared.nextSeq := writeSeq_of_ne
  cases ht with
  | stutter => exact h
  | @refused i now idle taken =>
    obtain ⟨hadv, happend⟩ := @append_step w.sys i now
    rw [taken] at happend
    refine h.advance hord hadv rfl rfl ?_ (fun _ => .inl)
      (fun r hr => .inl (by simpa using hr)) (by simp)
    rw [hseq (by simp [idle])]
    exact happend.1.ge
  | @taken i now r idle taken =>
    obtain ⟨hadv, happend⟩ := @append_step w.sys i now
    rw [taken] at happend
    obtain ⟨hr, -⟩ := happend
    have hrseq : r.seq = w.sys.shared.nextSeq := by rw [hr]; rfl
    refine h.advance hord hadv rfl rfl ?_ (fun _ => .inl) (fun q hq => ?_) (by simp)
    · rw [hseq (by simp [idle])]
      exact hrseq.ge
    · rcases mem_append.mp hq with hq | hq
      · exact .inl hq
      · rw [mem_singleton.mp hq]
        exact .inr hrseq.ge
  | @written io r d writing disk =>
    obtain ⟨hnext, hrep, -⟩ := h.ordered.writing r writing
    have hw : w.writeSeq = r.seq := by simp only [writeSeq, writing]
    have hdisk := h.ordered.disk d disk
    rw [hw] at hdisk
    refine h.advance hord (.refl _) rfl rfl ?_ (fun q hq => ?_) (fun _ => .inl) (by simp)
    · rw [hw, writeSeq_of_ne (by simp)]
      simp only
      omega
    · rcases (appended_append io hrep hdisk).decoded q hq with hq | rfl
      · exact .inl hq
      · exact .inr hw.le
  | @inMemory io r writing disk =>
    obtain ⟨hnext, -⟩ := h.ordered.writing r writing
    have hw : w.writeSeq = r.seq := by simp only [writeSeq, writing]
    refine h.advance hord (.refl _) rfl rfl ?_ (fun _ => .inl) (fun _ => .inl) (by simp)
    rw [hw, writeSeq_of_ne (by simp)]
    simp only
    omega
  | @fsynced ok d idle disk seq =>
    have hw := hseq (by simp [idle])
    have hdisk := h.ordered.disk d disk
    refine h.advance hord ⟨rfl, rfl, le_rfl, fun _ _ => le_rfl⟩ rfl rfl ?_
      (fun q hq => .inl ((hdisk.fsync ok).2 q hq)) (fun _ => .inl) (fun _ => .inl)
    rw [hw, writeSeq_of_ne (by simp [idle])]
  | @housekept now thread idle next =>
    obtain ⟨hadv, hnext, -⟩ := @trim_step w.sys now
    exact h.housekeep hord hadv hnext idle (next.imp_right And.right)
  | @kept ok k keepFrom nothingLeft saving =>
    refine h.advance hord (.refl _) rfl rfl ?_ (fun _ => .inl) (fun _ => .inl) (by simp)
    rw [hseq (by simp [saving]), writeSeq_of_ne (by simp)]
  | saved saving => exact h.save saving hord
  | @trimmed removeOk d keepFrom nothingLeft trimming disk =>
    have hdisk := h.ordered.disk d disk
    refine h.advance hord (.refl _) rfl rfl ?_
      (fun q hq => .inl ((hdisk.trim keepFrom nothingLeft removeOk).2 q hq)) (fun _ => .inl)
      (by simp)
    rw [hseq (by simp [trimming]), writeSeq_of_ne (by simp)]
  | nothingToTrim trimming disk =>
    refine h.advance hord (.refl _) rfl rfl ?_ (fun _ => .inl) (fun _ => .inl) (by simp)
    rw [hseq (by simp [trimming]), writeSeq_of_ne (by simp)]
  | plan sink now =>
    obtain ⟨hadv, hnext, -⟩ := plan_step h.ordered.sys sink now
    refine h.advance hord hadv rfl rfl ?_ (fun _ => .inl) (fun _ => .inl) (fun _ => .inl)
    unfold writeSeq
    simp only [hnext, le_refl]
  | settle sink reply now =>
    obtain ⟨hadv, hnext, -⟩ := settle_step h.ordered.sys sink reply now
    refine h.advance hord hadv rfl rfl ?_ (fun _ => .inl) (fun _ => .inl) (fun _ => .inl)
    unfold writeSeq
    simp only [hnext, le_refl]
  | restart restart =>
    refine held_openOn hok.2 (h.ordered.order.crash restart.keep) (fun sink hsink => ?_) hord
    rcases survivingState_mem w restart with hv | hv
    · exact h.saved_next _ hv sink hsink
    · rw [hv]
      exact Nat.one_pos

end World

end

/-- Where every restart can read its directory and none goes on below the name of a segment, a
crash at any point loses nothing past a cursor that is still on disk, and numbers are new. -/
theorem restarts_keep_records {role hiveId : String} {first : Restart}
    (hfirst : first.readable = true) {w : World}
    (h : Reaches ReadableEvent (World.init role hiveId first) w) :
    w.RestartKeeps ∧ w.AppendsFresh := by
  have hheld : w.Held := h.invariant (World.held_init role hiveId hfirst)
    fun _ _ _ hw hok ht => hw.turn hok ht
  exact ⟨hheld.restartKeeps, hheld.appendsFresh⟩

/-- A restart that keeps `keep` bytes of each segment, loses no saved state and reads the rest. -/
def plainRestart (keep uuid : ℕ) : Restart := ⟨fun _ => keep, 0, uuid, true, 0⟩

def storageTurn (producer : String) : Incoming := ⟨.turns, 0, subjectStorageTurns, producer, []⟩

/-- A write that works, one whose segment cannot be opened, and one that fails at once. -/
def writeDone : WriteIo := ⟨true, true, none⟩
def writeNotOpened : WriteIo := ⟨true, false, none⟩
def writeFailed : WriteIo := ⟨true, true, some 0⟩

/-- A record synced, the state saved, a crash, and one more record. -/
def syncedRun : List RouterEvent :=
  [.take (storageTurn "A") 0, .write writeDone, .fsync true, .housekeep 0, .save true,
    .trimDisk fun _ => true, .plan "SY.storage@motherbee" 0, .restart (plainRestart 0 2),
    .take (storageTurn "B") 0]

theorem restarts_keep_records_synced :
    RunOk ReadableEvent (World.init "worker" "h" (plainRestart 0 1)) syncedRun ∧
      ((World.init "worker" "h" (plainRestart 0 1)).run syncedRun).RestartKeeps ∧
      ((World.init "worker" "h" (plainRestart 0 1)).run syncedRun).AppendsFresh := by
  have hok : RunOk ReadableEvent (World.init "worker" "h" (plainRestart 0 1)) syncedRun := by
    decide +kernel
  exact ⟨hok, restarts_keep_records rfl (Reaches.refl.run hok)⟩

/-- Three records whose segment cannot be opened, and a fourth that a crash takes out of its segment.
The stream starts again at 1 in the segment named 4; a write fails, and the third record
opens a segment that sorts before the first's. After one more restart the number 3, which a
recovered record has, is given out again. -/
def failedWritesRun : List RouterEvent :=
  [.take (storageTurn "A") 0, .write writeNotOpened, .take (storageTurn "B") 0,
    .write writeNotOpened, .take (storageTurn "C") 0, .write writeNotOpened,
    .take (storageTurn "D") 0, .write writeDone, .restart (plainRestart 0 2),
    .take (storageTurn "E") 0, .write writeDone, .take (storageTurn "F") 0, .write writeFailed,
    .take (storageTurn "G") 0, .write writeDone, .restart (plainRestart 1000 3),
    .take (storageTurn "H") 0, .write writeDone, .take (storageTurn "I") 0]

theorem not_appendsFresh_failed_writes :
    ¬ ((World.init "worker" "h" (plainRestart 0 1)).run failedWritesRun).AppendsFresh := by
  intro h
  have hrecovered : (⟨3, 0, .turns, subjectStorageTurns, "G", []⟩ : Record) ∈
      ((World.init "worker" "h" (plainRestart 0 1)).run failedWritesRun).opened.records := by
    decide +kernel
  have happended : (⟨3, 0, .turns, subjectStorageTurns, "I", []⟩ : Record) ∈
      ((World.init "worker" "h" (plainRestart 0 1)).run failedWritesRun).appended := by
    decide +kernel
  exact (h _ happended).2 _ hrecovered rfl

theorem Reaches.ordered {role hiveId : String} {first : Restart} {w : World}
    (h : Reaches OrderedEvent (World.init role hiveId first) w) : w.Ordered :=
  h.invariant (World.ordered_init role hiveId first) fun _ _ _ hw hok ht => hw.turn hok ht

/-- Over any crashes and failed writes, the segments read in the order of their names give
increasing numbers, all below that of the next record written. -/
theorem segments_in_order {role hiveId : String} {first : Restart} {w : World}
    (h : Reaches OrderedEvent (World.init role hiveId first) w) :
    Increasing w.dir.sorted.decoded ∧
      (w.disk.isSome → ∀ r ∈ w.dir.sorted.decoded, r.seq < w.writeSeq) := by
  rw [h.ordered.order.sorted_eq]
  refine ⟨h.ordered.order.increasing_decoded, fun hdisk r hr => ?_⟩
  obtain ⟨d, hd⟩ := Option.isSome_iff_exists.mp hdisk
  obtain ⟨f, hf, hr⟩ := mem_flatMap.mp hr
  exact (h.ordered.disk d hd).below.decoded_lt f hf r hr

/-- Between any crashes, too, no record is lost or counted twice. -/
theorem restarts_conserve {role hiveId : String} {first : Restart} {w : World}
    (h : Reaches OrderedEvent (World.init role hiveId first) w) : w.sys.Conserves :=
  h.ordered.sys.conserves

/-- No append, plan, reply or trim moves a cursor or the next number back. -/
theorem cursors_never_go_back {role hiveId : String} {first : Restart} {w : World}
    (h : Reaches OrderedEvent (World.init role hiveId first) w) (e : Event) :
    Advances w.sys.shared (w.sys.step e).shared :=
  h.ordered.sys.advances e

def syncedWorld : World := (World.init "worker" "h" (plainRestart 0 1)).run syncedRun

theorem syncedWorld_reached :
    Reaches OrderedEvent (World.init "worker" "h" (plainRestart 0 1)) syncedWorld :=
  Reaches.refl.run (by decide +kernel)

theorem segments_in_order_synced : Increasing syncedWorld.dir.sorted.decoded :=
  (segments_in_order syncedWorld_reached).1

theorem restarts_conserve_synced : syncedWorld.sys.Conserves :=
  restarts_conserve syncedWorld_reached

theorem cursors_never_go_back_synced :
    Advances syncedWorld.sys.shared
      (syncedWorld.sys.step (.settle "SY.storage@motherbee" none 0)).shared :=
  cursors_never_go_back syncedWorld_reached _

end Fluxbee.Stream
