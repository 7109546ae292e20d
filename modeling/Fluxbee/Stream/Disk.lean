import Fluxbee.Stream.Codec
import Fluxbee.Stream.Shared
import Mathlib.Data.List.Sort

/-! The stream's directory: segment files, the disk thread's view of them, recovery and what a
crash leaves. Whether an I/O call succeeds is an argument. -/
namespace Fluxbee.Stream

/-- A segment file; its first `synced` bytes survive a crash. -/
structure SegmentFile where
  bytes : List UInt8
  synced : ℕ

/-- The segment files by the number in their name, as they were created. -/
abbrev Dir := List (ℕ × SegmentFile)

namespace Dir

section
variable (dir : Dir) (name : ℕ)

def openAppend : Dir :=
  if dir.any (·.1 == name) then dir else dir ++ [(name, ⟨[], 0⟩)]

/-- A file that was removed while open is no longer in the directory. -/
def modify (f : SegmentFile → SegmentFile) : Dir :=
  dir.map fun entry => if entry.1 = name then (entry.1, f entry.2) else entry

def write (bytes : List UInt8) : Dir :=
  dir.modify name fun file => { file with bytes := file.bytes ++ bytes }

def sync : Dir :=
  dir.modify name fun file => { file with synced := file.bytes.length }

end

/-- Every file keeps its synced bytes and any number of those after them, which are still not
synced. -/
def crash (dir : Dir) (keep : ℕ → ℕ) : Dir :=
  dir.map fun entry =>
    let bytes := entry.2.bytes.take (max entry.2.synced (keep entry.1))
    (entry.1, ⟨bytes, min entry.2.synced bytes.length⟩)

end Dir

structure Segment where
  (lastSeq name : ℕ)

structure Disk where
  segments : List Segment
  /-- The segment open for writing and its size. -/
  current : Option (ℕ × ℕ)
  lastWrittenSeq : ℕ
  dirty : Bool

/-- How the calls of one write go: the sync of a segment that is closed, the opening of the next
one, and the write itself, which fails after some of its bytes or succeeds. -/
structure WriteIo where
  (syncOk openOk : Bool)
  failedAfter : Option ℕ

namespace Disk

def setLastSeq (segments : List Segment) (seq : ℕ) : List Segment :=
  match segments.getLast? with
  | none => segments
  | some last => segments.dropLast ++ [{ last with lastSeq := seq }]

section
variable (d : Disk) (dir : Dir) (r : Record) (io : WriteIo)

def writeCurrent : Disk × Dir × Bool :=
  match d.current with
  | none => (d, dir, false)
  | some (name, size) =>
    let bytes := encodeRecord r
    match io.failedAfter with
    | some k => (d, dir.write name (bytes.take (min k (bytes.length - 1))), false)
    | none =>
      ({ d with
          segments := setLastSeq d.segments r.seq
          current := some (name, size + bytes.length)
          lastWrittenSeq := r.seq
          dirty := true },
        dir.write name bytes, true)

def roll : Disk × Dir × Bool :=
  if io.openOk then
    writeCurrent { d with segments := d.segments ++ [⟨r.seq, r.seq⟩], current := some (r.seq, 0) }
      (dir.openAppend r.seq) r io
  else (d, dir, false)

def write : Disk × Dir × Bool :=
  match d.current with
  | none => d.roll dir r io
  | some (name, size) =>
    if size ≥ streamSegmentBytes then
      if io.syncOk then { d with current := none }.roll (dir.sync name) r io
      else ({ d with current := none }, dir, false)
    else d.writeCurrent dir r io

/-- A failed write closes the segment, without a sync. -/
def append : Disk × Dir :=
  let (d, dir, ok) := d.write dir r io
  (if ok then d else { d with current := none }, dir)

end

/-- The sequence number is the one reported as synced, if any. -/
def fsync (d : Disk) (dir : Dir) (ok : Bool) : Disk × Dir × Option ℕ :=
  if !d.dirty then (d, dir, none)
  else
    match d.current with
    | some (name, _) =>
      if ok then ({ d with dirty := false }, dir.sync name, some d.lastWrittenSeq)
      else (d, dir, none)
    | none => ({ d with dirty := false }, dir, some d.lastWrittenSeq)

/-- The leading segments that go, and those that stay: the last always does. -/
def splitTrim (keepFrom : ℕ) : List Segment → List Segment × List Segment
  | [] => ([], [])
  | [last] => ([], [last])
  | first :: next :: rest =>
    if first.lastSeq ≥ keepFrom then ([], first :: next :: rest)
    else
      let (gone, kept) := splitTrim keepFrom (next :: rest)
      (first :: gone, kept)

/-- Deletes the segments whose records are all below `keepFrom`; with `nothingLeft` the newest goes
too. A file whose removal fails stays in the directory. -/
def trim (d : Disk) (dir : Dir) (keepFrom : ℕ) (nothingLeft : Bool) (removeOk : ℕ → Bool) :
    Disk × Dir :=
  let remove (gone : List Segment) : Dir :=
    dir.filter fun entry => !(gone.any (·.name == entry.1) && removeOk entry.1)
  if nothingLeft then ({ d with segments := [], current := none, dirty := false }, remove d.segments)
  else
    let (gone, kept) := splitTrim keepFrom d.segments
    ({ d with segments := kept }, remove gone)

end Disk

namespace SegmentFile

def decoded (file : SegmentFile) : List Record := (decodeRecords file.bytes).1

def cut (file : SegmentFile) : SegmentFile :=
  let whole := (decodeRecords file.bytes).2
  ⟨file.bytes.take whole, min file.synced whole⟩

end SegmentFile

def Dir.sorted (dir : Dir) : Dir := dir.insertionSort fun a b => a.1 ≤ b.1

def Dir.cutLast (dir : Dir) : Dir :=
  match dir.getLast? with
  | none => dir
  | some (name, file) => dir.dropLast ++ [(name, file.cut)]

def Dir.decoded (dir : Dir) : List Record := dir.flatMap fun entry => entry.2.decoded

/-- What a restart makes of its directory: the recovered stream, the disk and the files left. -/
def recover (dir : Dir) (state : SavedState) (newEpoch : ℕ) (sinks : List String) :
    Recovered × Disk × Dir :=
  let sorted := dir.sorted
  let records := sorted.decoded
  let dir := sorted.cutLast
  (Recovered.ofLog records state newEpoch sinks,
    { segments := sorted.map fun entry =>
        ⟨(entry.2.decoded.getLast?.map Record.seq).getD entry.1, entry.1⟩
      current := dir.getLast?.map fun entry => (entry.1, entry.2.bytes.length)
      lastWrittenSeq := lastOnDisk records
      dirty := false },
    dir)

end Fluxbee.Stream
