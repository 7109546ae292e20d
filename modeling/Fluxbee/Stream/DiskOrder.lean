import Fluxbee.Stream.Disk
import Fluxbee.Stream.Conservation

/-! The order of the records on disk: what keeps the decoded records of the segments, taken by
name, in sequence order. -/
namespace Fluxbee.Stream
open List SegmentFile Disk Prod Option Recovered

def SegmentFile.Whole (file : SegmentFile) : Prop :=
  (decodeRecords file.bytes).2 = file.bytes.length

/-- The files stand in the order of their names, and every record is in the file whose name is the
last at or below its sequence number. -/
structure DirOk (dir : Dir) : Prop where
  ordered : dir.Pairwise fun f g => f.1 < g.1 ∧ ∀ r ∈ f.2.decoded, r.seq < g.1
  increasing : ∀ f ∈ dir, Increasing f.2.decoded
  name_le : ∀ f ∈ dir, ∀ r ∈ f.2.decoded, f.1 ≤ r.seq

/-- A record with this sequence number, or a later one, can be written next. -/
structure Below (dir : Dir) (seq : ℕ) : Prop where
  name_le : ∀ f ∈ dir, f.1 ≤ seq
  decoded_lt : ∀ f ∈ dir, ∀ r ∈ f.2.decoded, r.seq < seq
  whole : ∀ f ∈ dir, f.1 = seq → f.2.Whole

/-- The segment open for writing is the newest, and whole; its name is not above `seq`. -/
def CurrentOk (d : Disk) (dir : Dir) (seq : ℕ) : Prop :=
  ∀ name size, d.current = some (name, size) →
    name ≤ seq ∧ ∀ f ∈ dir, f.1 ≤ name ∧ (f.1 = name → f.2.Whole)

theorem whole_empty : SegmentFile.Whole ⟨[], 0⟩ := rfl

theorem DirOk.nil : DirOk [] := ⟨List.Pairwise.nil, by simp, by simp⟩

variable {dir : Dir} {seq name : ℕ}

theorem DirOk.map (h : DirOk dir) {g : ℕ × SegmentFile → ℕ × SegmentFile}
    (hname : ∀ f, (g f).1 = f.1) (hdecoded : ∀ f ∈ dir, (g f).2.decoded <+: f.2.decoded) :
    DirOk (dir.map g) := by
  refine ⟨?_, ?_, ?_⟩
  · rw [pairwise_map]
    refine h.ordered.imp_of_mem fun {a b} ha _ hab => ?_
    rw [hname, hname]
    exact ⟨hab.1, fun r hr => hab.2 r ((hdecoded a ha).subset hr)⟩
  · intro f hf
    obtain ⟨a, ha, rfl⟩ := List.mem_map.mp hf
    exact (h.increasing a ha).sublist (hdecoded a ha).sublist
  · intro f hf r hr
    obtain ⟨a, ha, rfl⟩ := List.mem_map.mp hf
    rw [hname]
    exact h.name_le a ha r ((hdecoded a ha).subset hr)

theorem DirOk.filter (h : DirOk dir) (p : ℕ × SegmentFile → Bool) : DirOk (dir.filter p) :=
  ⟨h.ordered.filter p, fun f hf => h.increasing f (mem_of_mem_filter hf),
    fun f hf => h.name_le f (mem_of_mem_filter hf)⟩

theorem DirOk.increasing_decoded (h : DirOk dir) : Increasing dir.decoded := by
  unfold Dir.decoded Increasing
  rw [pairwise_flatMap]
  refine ⟨h.increasing, ?_⟩
  refine h.ordered.imp_of_mem fun {a b} _ hb hab r hr q hq => ?_
  have := hab.2 r hr
  have := h.name_le b hb q hq
  omega

theorem DirOk.sorted_eq (h : DirOk dir) : dir.sorted = dir := by
  unfold Dir.sorted
  refine List.Pairwise.insertionSort_eq ?_
  exact h.ordered.imp fun {a b} hab => hab.1.le

theorem mem_decoded {r : Record} : r ∈ dir.decoded ↔ ∃ f ∈ dir, r ∈ f.2.decoded := mem_flatMap

theorem Below.mono {a b : ℕ} (h : Below dir a) (hab : a < b) : Below dir b := by
  refine ⟨fun f hf => ?_, fun f hf r hr => ?_, fun f hf he => ?_⟩
  · have := h.name_le f hf
    omega
  · have := h.decoded_lt f hf r hr
    omega
  · have := h.name_le f hf
    omega

theorem Below.filter (h : Below dir seq) (p : ℕ × SegmentFile → Bool) : Below (dir.filter p) seq :=
  ⟨fun f hf => h.name_le f (mem_of_mem_filter hf),
    fun f hf => h.decoded_lt f (mem_of_mem_filter hf),
    fun f hf => h.whole f (mem_of_mem_filter hf)⟩

section

variable {dir : Dir} {name : ℕ} {r : Record}

theorem mem_modify {g : SegmentFile → SegmentFile} {f : ℕ × SegmentFile}
    (hf : f ∈ dir.modify name g) :
    (f ∈ dir ∧ f.1 ≠ name) ∨ ∃ file, (name, file) ∈ dir ∧ f = (name, g file) := by
  obtain ⟨a, ha, rfl⟩ := List.mem_map.mp hf
  split_ifs with he
  · exact .inr ⟨a.2, he ▸ ha, by rw [he]⟩
  · exact .inl ⟨ha, he⟩

/-- Bytes at the end of the newest file, which is whole, that decode to records at or above the
number the directory is below. -/
theorem DirOk.write {bytes : List UInt8} {new : List Record} (h : DirOk dir)
    (hbelow : ∀ f ∈ dir, ∀ r ∈ f.2.decoded, r.seq < seq)
    (hlast : ∀ f ∈ dir, f.1 ≤ name ∧ (f.1 = name → f.2.Whole)) (hname : name ≤ seq)
    (hbytes : (decodeRecords bytes).1 = new) (hinc : Increasing new) (hnew : ∀ r ∈ new, seq ≤ r.seq) :
    DirOk (dir.write name bytes) ∧ ∀ f ∈ dir.write name bytes, ∀ r ∈ f.2.decoded,
        (∃ f' ∈ dir, f'.1 = f.1 ∧ r ∈ f'.2.decoded) ∨ r ∈ new := by
  have hdecoded : ∀ file, (name, file) ∈ dir →
      decoded { file with bytes := file.bytes ++ bytes } = file.decoded ++ new := by
    intro file hfile
    have hwhole : (decodeRecords file.bytes).2 = file.bytes.length := (hlast _ hfile).2 rfl
    simp only [decoded, decodeRecords_append hwhole, hbytes]
  refine ⟨⟨?_, ?_, ?_⟩, ?_⟩
  · unfold Dir.write Dir.modify
    rw [pairwise_map]
    refine h.ordered.imp_of_mem fun {a b} ha hb hab => ?_
    -- the file written is last, so it stands before no other
    have hne : a.1 ≠ name := by
      have := (hlast b hb).1
      omega
    rw [if_neg hne]
    split_ifs with he
    · exact hab
    · exact hab
  · intro f hf
    rcases mem_modify hf with ⟨hf, -⟩ | ⟨file, hfile, rfl⟩
    · exact h.increasing f hf
    · rw [hdecoded file hfile]
      refine pairwise_append.mpr ⟨h.increasing _ hfile, hinc, fun a ha b hb => ?_⟩
      have := hbelow _ hfile a ha
      have := hnew b hb
      omega
  · intro f hf r hr
    rcases mem_modify hf with ⟨hf, -⟩ | ⟨file, hfile, rfl⟩
    · exact h.name_le f hf r hr
    · rw [hdecoded file hfile] at hr
      rcases mem_append.mp hr with hr | hr
      · exact h.name_le _ hfile r hr
      · have := hnew r hr
        simp only
        omega
  · intro f hf r hr
    rcases mem_modify hf with ⟨hf, -⟩ | ⟨file, hfile, rfl⟩
    · exact .inl ⟨f, hf, rfl, hr⟩
    · rw [hdecoded file hfile] at hr
      rcases mem_append.mp hr with hr | hr
      · exact .inl ⟨_, hfile, rfl, hr⟩
      · exact .inr hr

end

/-- What a directory and the disk's view of it hold between two records. -/
structure DiskOk (d : Disk) (dir : Dir) (seq : ℕ) : Prop where
  order : DirOk dir
  below : Below dir seq
  current : CurrentOk d dir seq

theorem CurrentOk.none {d : Disk} (h : d.current = none) : CurrentOk d dir seq := by
  intro name size hc
  rw [h] at hc
  cases hc

section

variable {d : Disk} {dir : Dir} {r : Record} {f : ℕ × SegmentFile}

theorem mem_sync (hf : f ∈ dir.sync name) : ∃ f' ∈ dir, f'.1 = f.1 ∧ f'.2.bytes = f.2.bytes := by
  rcases mem_modify hf with ⟨hf, -⟩ | ⟨file, hfile, rfl⟩
  · exact ⟨f, hf, rfl, rfl⟩
  · exact ⟨_, hfile, rfl, rfl⟩

theorem DirOk.sync (h : DirOk dir) (name : ℕ) : DirOk (dir.sync name) := by
  refine h.map (fun f => ?_) (fun f _ => ?_)
  · by_cases he : f.1 = name <;> simp [he]
  · split_ifs with he
    · exact prefix_rfl
    · rfl

theorem Below.sync (h : Below dir seq) (name : ℕ) : Below (dir.sync name) seq := by
  refine ⟨fun f hf => ?_, fun f hf r hr => ?_, fun f hf he => ?_⟩ <;>
    obtain ⟨f', hf', hname, hbytes⟩ := mem_sync hf
  · exact hname ▸ h.name_le f' hf'
  · unfold decoded at hr
    rw [← hbytes] at hr
    exact h.decoded_lt f' hf' r hr
  · have := h.whole f' hf' (hname.trans he)
    unfold SegmentFile.Whole at this ⊢
    rwa [← hbytes]

theorem CurrentOk.sync (h : CurrentOk d dir seq) (name : ℕ) : CurrentOk d (dir.sync name) seq := by
  intro cur size hcur
  refine ⟨(h cur size hcur).1, fun f hf => ?_⟩
  obtain ⟨f', hf', hname, hbytes⟩ := mem_sync hf
  have := (h cur size hcur).2 f' hf'
  refine ⟨hname ▸ this.1, fun he => ?_⟩
  have hwhole := this.2 (hname.trans he)
  unfold SegmentFile.Whole at hwhole ⊢
  rwa [← hbytes]

theorem decoded_sync (name : ℕ) : ∀ q ∈ Dir.decoded (dir.sync name), q ∈ dir.decoded := by
  intro q hq
  obtain ⟨f, hf, hq⟩ := mem_decoded.mp hq
  obtain ⟨f', hf', -, hbytes⟩ := mem_sync hf
  refine mem_decoded.mpr ⟨f', hf', ?_⟩
  unfold decoded at hq ⊢
  rwa [hbytes]

/-- What is left after a record was written, in whole or in part, or not at all. -/
structure Appended (dir : Dir) (r : Record) (d' : Disk) (dir' : Dir) : Prop where
  ok : DiskOk d' dir' (r.seq + 1)
  decoded : ∀ q ∈ dir'.decoded, q ∈ dir.decoded ∨ q = r

theorem Appended.untouched (h : DirOk dir) (hb : Below dir r.seq) (hd : d.current = none) :
    Appended dir r d dir :=
  ⟨⟨h, hb.mono (Nat.lt_succ_self _), .none hd⟩, fun _ => .inl⟩

theorem Below.write {bytes : List UInt8} {new : List Record} (h : Below dir r.seq)
    (hname : name ≤ r.seq) (hnew : ∀ q ∈ new, q = r)
    (hmem : ∀ f ∈ dir.write name bytes, ∀ q ∈ f.2.decoded,
      (∃ f' ∈ dir, f'.1 = f.1 ∧ q ∈ f'.2.decoded) ∨ q ∈ new) :
    Below (dir.write name bytes) (r.seq + 1) ∧
      ∀ q ∈ (dir.write name bytes).decoded, q ∈ dir.decoded ∨ q = r := by
  have hle : ∀ f ∈ dir.write name bytes, f.1 ≤ r.seq := by
    intro f hf
    rcases mem_modify hf with ⟨hf, -⟩ | ⟨file, hfile, rfl⟩
    · exact h.name_le f hf
    · exact hname
  refine ⟨⟨fun f hf => (hle f hf).trans (Nat.le_succ _), fun f hf q hq => ?_, fun f hf he => ?_⟩,
    fun q hq => ?_⟩
  · rcases hmem f hf q hq with ⟨f', hf', -, hq⟩ | hq
    · have := h.decoded_lt f' hf' q hq
      omega
    · rw [hnew q hq]
      omega
  · have := hle f hf
    omega
  · obtain ⟨f, hf, hq⟩ := mem_decoded.mp hq
    rcases hmem f hf q hq with ⟨f', hf', -, hq⟩ | hq
    · exact .inl (mem_decoded.mpr ⟨f', hf', hq⟩)
    · exact .inr (hnew q hq)

theorem appended_writeCurrent {size : ℕ} {io : WriteIo} (hrep : r.Representable)
    (h : DiskOk d dir r.seq) (hcur : d.current = some (name, size)) :
    let out := d.writeCurrent dir r io
    Appended dir r (if out.2.2 then out.1 else { out.1 with current := none }) out.2.1 := by
  obtain ⟨hname, hlast⟩ := h.current name size hcur
  simp only [writeCurrent, hcur]
  cases hio : io.failedAfter with
  | some k =>
    have hpos : 0 < (encodeRecord r).length := by
      rw [length_encodeRecord]
      omega
    have htorn := decodeRecords_torn hrep (show min k ((encodeRecord r).length - 1) <
      (encodeRecord r).length by omega)
    obtain ⟨horder, hmem⟩ := h.order.write h.below.decoded_lt hlast hname (congrArg fst htorn)
      List.Pairwise.nil (by simp)
    obtain ⟨hbelow, hdecoded⟩ := h.below.write hname (by simp) hmem
    exact ⟨⟨horder, hbelow, .none rfl⟩, hdecoded⟩
  | none =>
    have hrecord := decodeRecords_encodeRecord hrep
    obtain ⟨horder, hmem⟩ := h.order.write h.below.decoded_lt hlast hname
      (congrArg fst hrecord) (pairwise_singleton _ r) (by simp)
    obtain ⟨hbelow, hdecoded⟩ := h.below.write hname (by simp) hmem
    refine ⟨⟨horder, hbelow, fun cur size' hcur' => ?_⟩, hdecoded⟩
    simp only [if_true, some.injEq, Prod.mk.injEq] at hcur'
    obtain ⟨rfl, -⟩ := hcur'
    refine ⟨by omega, fun f hf => ?_⟩
    have hf : f ∈ dir.write name (encodeRecord r) := hf
    rcases mem_modify hf with ⟨hf, hne⟩ | ⟨file, hfile, rfl⟩
    · exact ⟨(hlast f hf).1, fun he => absurd he hne⟩
    · refine ⟨le_rfl, fun _ => ?_⟩
      have hwhole : (decodeRecords file.bytes).2 = file.bytes.length := (hlast _ hfile).2 rfl
      simp only [SegmentFile.Whole, decodeRecords_append hwhole, hrecord, length_append]

theorem mem_openAppend (hf : f ∈ dir.openAppend name) :
    f ∈ dir ∨ (f = (name, ⟨[], 0⟩) ∧ ∀ g ∈ dir, g.1 ≠ name) := by
  unfold Dir.openAppend at hf
  split_ifs at hf with hany
  · exact .inl hf
  · rcases mem_append.mp hf with hf | hf
    · exact .inl hf
    · refine .inr ⟨mem_singleton.mp hf, fun g hg he => hany ?_⟩
      exact List.any_eq_true.mpr ⟨g, hg, by simpa using he⟩

theorem DiskOk.openAppend (h : DiskOk d dir r.seq) (segments : List Segment) :
    DiskOk { d with segments, current := some (r.seq, 0) } (dir.openAppend r.seq) r.seq := by
  refine ⟨?_, ⟨fun f hf => ?_, fun f hf q hq => ?_, fun f hf he => ?_⟩, fun cur size hcur => ?_⟩
  · unfold Dir.openAppend
    split_ifs with hany
    · exact h.order
    · refine ⟨pairwise_append.mpr ⟨h.order.ordered, pairwise_singleton _ _, ?_⟩, ?_, ?_⟩
      · intro f hf g hg
        rw [mem_singleton.mp hg]
        have hne : f.1 ≠ r.seq := fun he => hany (List.any_eq_true.mpr ⟨f, hf, by simpa using he⟩)
        have hle := h.below.name_le f hf
        exact ⟨by simp only; omega, h.below.decoded_lt f hf⟩
      · intro f hf
        rcases mem_append.mp hf with hf | hf
        · exact h.order.increasing f hf
        · rw [mem_singleton.mp hf]
          exact List.Pairwise.nil
      · intro f hf q hq
        rcases mem_append.mp hf with hf | hf
        · exact h.order.name_le f hf q hq
        · rw [mem_singleton.mp hf] at hq
          cases hq
  · rcases mem_openAppend hf with hf | ⟨rfl, -⟩
    · exact h.below.name_le f hf
    · exact le_rfl
  · rcases mem_openAppend hf with hf | ⟨rfl, -⟩
    · exact h.below.decoded_lt f hf q hq
    · cases hq
  · rcases mem_openAppend hf with hf | ⟨rfl, -⟩
    · exact h.below.whole f hf he
    · exact whole_empty
  · simp only [some.injEq, Prod.mk.injEq] at hcur
    obtain ⟨rfl, -⟩ := hcur
    refine ⟨le_rfl, fun f hf => ?_⟩
    rcases mem_openAppend hf with hf | ⟨rfl, -⟩
    · exact ⟨h.below.name_le f hf, h.below.whole f hf⟩
    · exact ⟨le_rfl, fun _ => whole_empty⟩

theorem decoded_openAppend (name : ℕ) : ∀ q ∈ (dir.openAppend name).decoded, q ∈ dir.decoded := by
  intro q hq
  obtain ⟨f, hf, hq⟩ := mem_decoded.mp hq
  rcases mem_openAppend hf with hf | ⟨rfl, -⟩
  · exact mem_decoded.mpr ⟨f, hf, hq⟩
  · cases hq

theorem appended_roll {io : WriteIo} (hrep : r.Representable) (h : DiskOk d dir r.seq) :
    let out := d.roll dir r io
    Appended dir r (if out.2.2 then out.1 else { out.1 with current := none }) out.2.1 := by
  unfold roll
  by_cases hopen : io.openOk = true
  · simp only [if_pos hopen]
    have hout := @appended_writeCurrent r.seq _ _ _ 0 io hrep
      (h.openAppend (d.segments ++ [⟨r.seq, r.seq⟩])) rfl
    obtain ⟨hok, hdecoded⟩ := hout
    refine ⟨hok, fun q hq => ?_⟩
    rcases hdecoded q hq with hq | hq
    · exact .inl (decoded_openAppend _ q hq)
    · exact .inr hq
  · simp only [if_neg hopen]
    exact .untouched h.order h.below rfl

theorem appended_append (io : WriteIo) (hrep : r.Representable) (h : DiskOk d dir r.seq) :
    Appended dir r (d.append dir r io).1 (d.append dir r io).2 := by
  cases hcur : d.current with
  | none =>
    simp only [append, write, hcur]
    exact appended_roll hrep h
  | some cur =>
    obtain ⟨name, size⟩ := cur
    simp only [append, write, hcur]
    by_cases hfull : size ≥ streamSegmentBytes
    · simp only [if_pos hfull]
      by_cases hsync : io.syncOk = true
      · simp only [if_pos hsync]
        have hout := @appended_roll { d with current := none } _ _ io hrep
          ⟨h.order.sync name, h.below.sync name, .none rfl⟩
        obtain ⟨hok, hdecoded⟩ := hout
        refine ⟨hok, fun q hq => ?_⟩
        rcases hdecoded q hq with hq | hq
        · exact .inl (decoded_sync name q hq)
        · exact .inr hq
      · simp only [if_neg hsync]
        exact .untouched h.order h.below rfl
    · simp only [if_neg hfull]
      exact appended_writeCurrent hrep h hcur

end

section

variable {d : Disk} {dir : Dir} {seq : ℕ}

theorem DiskOk.fsync (h : DiskOk d dir seq) (ok : Bool) :
    DiskOk (d.fsync dir ok).1 (d.fsync dir ok).2.1 seq ∧
      ∀ q ∈ (d.fsync dir ok).2.1.decoded, q ∈ dir.decoded := by
  unfold Disk.fsync
  by_cases hdirty : (!d.dirty) = true
  · rw [if_pos hdirty]
    exact ⟨h, fun _ hq => hq⟩
  · rw [if_neg hdirty]
    cases hcur : d.current with
    | none => exact ⟨⟨h.order, h.below, .none rfl⟩, fun _ hq => hq⟩
    | some cur =>
      obtain ⟨name, size⟩ := cur
      simp only
      split_ifs with hok
      · refine ⟨⟨h.order.sync name, h.below.sync name, ?_⟩, decoded_sync name⟩
        intro cur size' hcur'
        exact h.current.sync name cur size' (hcur ▸ hcur')
      · exact ⟨h, fun _ hq => hq⟩

theorem decoded_filter (p : ℕ × SegmentFile → Bool) :
    ∀ q ∈ Dir.decoded (dir.filter p), q ∈ dir.decoded := by
  intro q hq
  obtain ⟨f, hf, hq⟩ := mem_decoded.mp hq
  exact mem_decoded.mpr ⟨f, mem_of_mem_filter hf, hq⟩

theorem DiskOk.trim (h : DiskOk d dir seq) (keepFrom : ℕ) (nothingLeft : Bool)
    (removeOk : ℕ → Bool) :
    let out := d.trim dir keepFrom nothingLeft removeOk
    DiskOk out.1 out.2 seq ∧ ∀ q ∈ out.2.decoded, q ∈ dir.decoded := by
  unfold Disk.trim
  cases nothingLeft with
  | true => exact ⟨⟨h.order.filter _, h.below.filter _, .none rfl⟩, decoded_filter _⟩
  | false =>
    refine ⟨⟨h.order.filter _, h.below.filter _, ?_⟩, decoded_filter _⟩
    intro name size hcur
    obtain ⟨hname, hlast⟩ := h.current name size hcur
    exact ⟨hname, fun f hf => hlast f (mem_of_mem_filter hf)⟩

end

section

variable {dir : Dir}

theorem DirOk.crash (h : DirOk dir) (keep : ℕ → ℕ) : DirOk (dir.crash keep) :=
  h.map (fun _ => rfl) fun _ _ => decodeRecords_take_front _ _

theorem decoded_crash (keep : ℕ → ℕ) : ∀ q ∈ (dir.crash keep).decoded, q ∈ dir.decoded := by
  intro q hq
  obtain ⟨f, hf, hq⟩ := mem_decoded.mp hq
  obtain ⟨a, ha, rfl⟩ := List.mem_map.mp hf
  exact mem_decoded.mpr ⟨a, ha, (decodeRecords_take_front _ _).subset hq⟩

theorem decoded_cut (file : SegmentFile) : file.cut.decoded = file.decoded :=
  congrArg fst (decodeRecords_take_whole file.bytes)

theorem whole_cut (file : SegmentFile) : file.cut.Whole := by
  unfold SegmentFile.Whole cut
  rw [decodeRecords_take_whole, length_take, Nat.min_eq_left (whole_le file.bytes)]

theorem DirOk.cutLast (h : DirOk dir) : DirOk dir.cutLast ∧ dir.cutLast.decoded = dir.decoded ∧
      ∀ f ∈ dir.cutLast, ∃ f' ∈ dir, f'.1 = f.1 := by
  unfold Dir.cutLast
  cases hlast : dir.getLast? with
  | none => exact ⟨h, rfl, fun f hf => ⟨f, hf, rfl⟩⟩
  | some last =>
    obtain ⟨front, rfl⟩ := getLast?_eq_some_iff.mp hlast
    simp only [dropLast_concat]
    have hpair := pairwise_append.mp h.ordered
    refine ⟨⟨?_, fun f hf => ?_, fun f hf r hr => ?_⟩, ?_, fun f hf => ?_⟩
    · refine pairwise_append.mpr ⟨hpair.1, pairwise_singleton _ _, fun f hf g hg => ?_⟩
      rw [mem_singleton.mp hg]
      exact hpair.2.2 f hf last (by simp)
    · rcases mem_append.mp hf with hf | hf
      · exact h.increasing f (mem_append_left _ hf)
      · rw [mem_singleton.mp hf]
        simp only [decoded_cut]
        exact h.increasing last (by simp)
    · rcases mem_append.mp hf with hf | hf
      · exact h.name_le f (mem_append_left _ hf) r hr
      · rw [mem_singleton.mp hf] at hr ⊢
        simp only [decoded_cut] at hr
        exact h.name_le last (by simp) r hr
    · simp [Dir.decoded, decoded_cut]
    · rcases mem_append.mp hf with hf | hf
      · exact ⟨f, mem_append_left _ hf, rfl⟩
      · rw [mem_singleton.mp hf]
        exact ⟨last, by simp, rfl⟩

theorem DirOk.cutLast_newest (h : DirOk dir) {file : SegmentFile}
    (hlast : dir.cutLast.getLast? = some (name, file)) :
    ∀ f ∈ dir.cutLast, f.1 ≤ name ∧ (f.1 = name → f.2.Whole) := by
  have hwhole : file.Whole := by
    unfold Dir.cutLast at hlast
    cases hd : dir.getLast? with
    | none =>
      rw [hd] at hlast
      simp only [hd] at hlast
      cases hlast
    | some last =>
      simp only [hd, getLast?_concat, some.injEq, Prod.mk.injEq] at hlast
      exact hlast.2 ▸ whole_cut last.2
  obtain ⟨front, hsplit⟩ := getLast?_eq_some_iff.mp hlast
  have hpair := h.cutLast.1.ordered
  rw [hsplit] at hpair ⊢
  intro f hf
  rcases mem_append.mp hf with hf | hf
  · have := ((pairwise_append.mp hpair).2.2 f hf (name, file) (by simp)).1
    exact ⟨this.le, fun he => by simp only at this; omega⟩
  · rw [mem_singleton.mp hf]
    exact ⟨le_rfl, fun _ => hwhole⟩

section
variable (h : DirOk dir) (state : SavedState) (newEpoch : ℕ) (sinks : List String)
include h

/-- A restart on a directory in order recovers its records in order, and can go on from the number
it recovers unless a segment is named above it. -/
theorem recover_ok (hname : ∀ f ∈ dir, f.1 ≤ (recover dir state newEpoch sinks).1.nextSeq) :
    let out := recover dir state newEpoch sinks
    DiskOk out.2.1 out.2.2 out.1.nextSeq := by
  obtain ⟨hcut, hdecoded, hmem⟩ := h.cutLast
  simp only [recover, h.sorted_eq] at hname ⊢
  have hlt : ∀ r ∈ dir.decoded, r.seq < (ofLog dir.decoded state newEpoch sinks).nextSeq := by
    intro r hr
    have := h.increasing_decoded.le_lastOnDisk r hr
    have := @lastOnDisk_lt_nextSeq dir.decoded state newEpoch sinks
    omega
  have hnames : ∀ f ∈ dir.cutLast, f.1 ≤ (ofLog dir.decoded state newEpoch sinks).nextSeq := by
    intro f hf
    obtain ⟨f', hf', he⟩ := hmem f hf
    exact he ▸ hname f' hf'
  refine ⟨hcut, ⟨hnames, fun f hf r hr => ?_, fun f hf he => ?_⟩, fun name size hcur => ?_⟩
  · refine hlt r ?_
    rw [← hdecoded]
    exact mem_decoded.mpr ⟨f, hf, hr⟩
  · -- a file with the next number as its name has no name above it, so it is the newest
    cases hlast : dir.cutLast.getLast? with
    | none =>
      rw [getLast?_eq_none_iff.mp hlast] at hf
      cases hf
    | some last =>
      have hle := (h.cutLast_newest hlast f hf).1
      have hge := hnames last (mem_of_getLast? hlast)
      exact (h.cutLast_newest hlast f hf).2 (by omega)
  · obtain ⟨last, hlast, he⟩ := map_eq_some_iff.mp hcur
    obtain ⟨rfl, -⟩ := mk.inj he
    exact ⟨hnames last (mem_of_getLast? hlast), h.cutLast_newest hlast⟩

theorem recover_records :
    (recover dir state newEpoch sinks).1 = ofLog dir.decoded state newEpoch sinks ∧
      (recover dir state newEpoch sinks).2.2.decoded = dir.decoded := by
  simp only [recover, h.sorted_eq, h.cutLast.2.1, and_self]

end

end

end Fluxbee.Stream
