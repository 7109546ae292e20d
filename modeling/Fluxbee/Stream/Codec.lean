import Fluxbee.Lib.Bytes
import Fluxbee.Stream.Record
import Mathlib.Data.List.Infix

/-! The records of a segment file: length, checksum and body. Decoding stops at the first record
that is cut short or fails its checksum. -/
namespace Fluxbee.Stream
open Bytes Text List Option Source Prod

def Source.byte : Source → UInt8
  | .turns => 0
  | .nodes => 1

def Source.fromByte (b : UInt8) : Option Source :=
  if b = 0 then some .turns else if b = 1 then some .nodes else none

/-- FNV-1a, folded to 32 bits. -/
def checksum (bytes : List UInt8) : UInt32 :=
  let hash := bytes.foldl (fun hash b => (hash ^^^ b.toUInt64) * 0x100000001b3)
    (0xcbf29ce484222325 : UInt64)
  (hash ^^^ (hash >>> 32)).toUInt32

def encodeBody (r : Record) : List UInt8 :=
  toBe 8 r.seq ++ toBe 8 r.tsMs ++ [r.source.byte] ++ toBe 2 (len r.subject) ++ asBytes r.subject ++
    toBe 2 (len r.producer) ++ asBytes r.producer ++ r.payload

def encodeRecord (r : Record) : List UInt8 :=
  toBe 4 (encodeBody r).length ++ toBe 4 (checksum (encodeBody r)).toNat ++ encodeBody r

def decodeBody (body : List UInt8) : Option Record := do
  let (seq, rest) ← takeBytes 8 body
  let (tsMs, rest) ← takeBytes 8 rest
  let (source, rest) ← takeBytes 1 rest
  let source ← Source.fromByte (source.headD 0)
  let (subjectLen, rest) ← takeBytes 2 rest
  let (subject, rest) ← takeBytes (fromBe subjectLen) rest
  let subject ← fromUtf8 subject
  let (producerLen, rest) ← takeBytes 2 rest
  let (producer, payload) ← takeBytes (fromBe producerLen) rest
  let producer ← fromUtf8 producer
  pure ⟨fromBe seq, fromBe tsMs, source, subject, producer, payload⟩

def decodeHead (bytes : List UInt8) : Option (Record × ℕ) :=
  -- the loop asks for four bytes more than the header has
  if bytes.length < recordHeaderBytes then none
  else
    let length := fromBe (bytes.take 4)
    let sum := fromBe ((bytes.drop 4).take 4)
    let rest := bytes.drop 8
    if rest.length < length then none
    else if (checksum (rest.take length)).toNat ≠ sum then none
    else (decodeBody (rest.take length)).map fun r => (r, 8 + length)

def decodeLoop : ℕ → List UInt8 → List Record × ℕ
  | 0, _ => ([], 0)
  | fuel + 1, bytes =>
    match decodeHead bytes with
    | none => ([], 0)
    | some (r, n) =>
      let (records, whole) := decodeLoop fuel (bytes.drop n)
      (r :: records, n + whole)

def decodeRecords (bytes : List UInt8) : List Record × ℕ := decodeLoop bytes.length bytes

structure Record.Representable (r : Record) : Prop where
  seq : r.seq < 2 ^ 64
  tsMs : r.tsMs < 2 ^ 64
  subject : len r.subject < 2 ^ 16
  producer : len r.producer < 2 ^ 16
  body : (encodeBody r).length < 2 ^ 32

instance (r : Record) : Decidable r.Representable :=
  decidable_of_iff (r.seq < 2 ^ 64 ∧ r.tsMs < 2 ^ 64 ∧ len r.subject < 2 ^ 16 ∧
      len r.producer < 2 ^ 16 ∧ (encodeBody r).length < 2 ^ 32)
    ⟨fun ⟨seq, tsMs, subject, producer, body⟩ => ⟨seq, tsMs, subject, producer, body⟩,
      fun h => ⟨h.seq, h.tsMs, h.subject, h.producer, h.body⟩⟩

variable {r : Record} {bytes : List UInt8}

theorem decodeBody_encodeBody (h : r.Representable) : decodeBody (encodeBody r) = some r := by
  have hseq : fromBe (toBe 8 r.seq) = r.seq := fromBe_toBe (by have := h.seq; omega)
  have htsMs : fromBe (toBe 8 r.tsMs) = r.tsMs := fromBe_toBe (by have := h.tsMs; omega)
  have hsubject : fromBe (toBe 2 (len r.subject)) = len r.subject :=
    fromBe_toBe (by have := h.subject; omega)
  have hproducer : fromBe (toBe 2 (len r.producer)) = len r.producer :=
    fromBe_toBe (by have := h.producer; omega)
  have hsource : fromByte r.source.byte = some r.source := by cases r.source <;> rfl
  unfold decodeBody encodeBody
  simp only [append_assoc, takeBytes_append (length_toBe 8 _),
    takeBytes_append (length_toBe 2 _), takeBytes_append (length_singleton), hsubject, hproducer,
    takeBytes_append (show (asBytes r.subject).length = len r.subject from rfl),
    takeBytes_append (show (asBytes r.producer).length = len r.producer from rfl),
    bind_eq_bind, bind_some, headD_cons, hsource, fromUtf8_asBytes, hseq, htsMs]
  rfl

theorem Source.byte_of_fromByte {b : UInt8} {source : Source} (h : fromByte b = some source) :
    source.byte = b := by
  unfold fromByte at h
  split_ifs at h with hzero hone
  · rw [← Option.some.inj h, hzero]
    rfl
  · rw [← Option.some.inj h, hone]
    rfl

theorem encodeBody_of_decodeBody {body : List UInt8} (h : decodeBody body = some r) :
    encodeBody r = body := by
  simp only [decodeBody, bind_eq_bind, bind_eq_some_iff, Prod.exists, pure, Option.some.injEq] at h
  obtain ⟨seq, rest₁, hseq, tsMs, rest₂, htsMs, kind, rest₃, hkind, source, hsource,
    subjectLen, rest₄, hsubjectLen, subject, rest₅, hsubject, subjectText, hsubjectText,
    producerLen, rest₆, hproducerLen, producer, payload, hproducer, producerText,
    hproducerText, rfl⟩ := h
  obtain ⟨hseqLen, rfl⟩ := takeBytes_spec hseq
  obtain ⟨htsMsLen, rfl⟩ := takeBytes_spec htsMs
  obtain ⟨hkindLen, rfl⟩ := takeBytes_spec hkind
  obtain ⟨hsubjectLenLen, rfl⟩ := takeBytes_spec hsubjectLen
  obtain ⟨hsubjectBytes, rfl⟩ := takeBytes_spec hsubject
  obtain ⟨hproducerLenLen, rfl⟩ := takeBytes_spec hproducerLen
  obtain ⟨hproducerBytes, rfl⟩ := takeBytes_spec hproducer
  obtain ⟨b, rfl⟩ := length_eq_one_iff.mp hkindLen
  have hbyte : source.byte = b := byte_of_fromByte hsource
  simp only [encodeBody, len, asBytes_of_fromUtf8 hsubjectText, asBytes_of_fromUtf8 hproducerText,
    hsubjectBytes, hproducerBytes, toBe_fromBe hseqLen, toBe_fromBe htsMsLen,
    toBe_fromBe hsubjectLenLen, toBe_fromBe hproducerLenLen, hbyte, append_assoc]

theorem length_encodeRecord (r : Record) : (encodeRecord r).length = 8 + (encodeBody r).length := by
  simp only [encodeRecord, length_append, length_toBe]

theorem eight_le_length_encodeBody (r : Record) : 8 ≤ (encodeBody r).length := by
  simp only [encodeBody, length_append, length_toBe]
  omega

theorem decodeHead_encodeRecord (h : r.Representable) (tail : List UInt8) :
    decodeHead (encodeRecord r ++ tail) = some (r, (encodeRecord r).length) := by
  have hbody : fromBe (toBe 4 (encodeBody r).length) = (encodeBody r).length :=
    fromBe_toBe (by have := h.body; omega)
  have hsum : fromBe (toBe 4 (checksum (encodeBody r)).toNat) = (checksum (encodeBody r)).toNat :=
    fromBe_toBe (by have := (checksum (encodeBody r)).toNat_lt; omega)
  have height := eight_le_length_encodeBody r
  have hfour : (encodeRecord r ++ tail).take 4 = toBe 4 (encodeBody r).length := by
    simp [encodeRecord, append_assoc]
  have hnext : ((encodeRecord r ++ tail).drop 4).take 4 =
      toBe 4 (checksum (encodeBody r)).toNat := by
    simp [encodeRecord, append_assoc]
  have hrest : (encodeRecord r ++ tail).drop 8 = encodeBody r ++ tail := by
    simp [encodeRecord, append_assoc, drop_append]
  have hlong : ¬ (encodeRecord r ++ tail).length < recordHeaderBytes := by
    rw [length_append, length_encodeRecord, recordHeaderBytes]
    omega
  have hfits : ¬ (encodeBody r ++ tail).length < (encodeBody r).length := by
    rw [length_append]
    omega
  simp only [decodeHead, if_neg hlong, hfour, hnext, hrest, hbody, hsum, if_neg hfits,
    take_left, ne_eq, not_true_eq_false, if_false, decodeBody_encodeBody h, map_some,
    length_encodeRecord]

variable {n : ℕ}

theorem decodeHead_bounds (h : decodeHead bytes = some (r, n)) :
    recordHeaderBytes ≤ n ∧ n ≤ bytes.length := by
  simp only [decodeHead] at h
  split_ifs at h with hlong hfits hsum
  obtain ⟨r', hbody, he⟩ := map_eq_some_iff.mp h
  obtain ⟨-, rfl⟩ := mk.inj he
  have hle : 8 ≤ ((bytes.drop 8).take (fromBe (bytes.take 4))).length := by
    by_contra hlt
    have hnone : takeBytes 8 ((bytes.drop 8).take (fromBe (bytes.take 4))) = none := if_neg hlt
    simp [decodeBody, hnone] at hbody
  simp only [length_take, length_drop, recordHeaderBytes] at hle hlong hfits ⊢
  omega

theorem decodeHead_take (h : decodeHead bytes = some (r, n)) (m : ℕ) :
    decodeHead (bytes.take m) = if n ≤ m then some (r, n) else none := by
  obtain ⟨hlow, hhigh⟩ := decodeHead_bounds h
  have h' := h
  simp only [decodeHead] at h'
  split_ifs at h' with hlong hfits hsum
  obtain ⟨r', hbody, he⟩ := map_eq_some_iff.mp h'
  obtain ⟨rfl, hn⟩ := mk.inj he
  by_cases hshort : (bytes.take m).length < recordHeaderBytes
  · have hm : ¬ n ≤ m := by
      rw [length_take] at hshort
      omega
    simp only [decodeHead, if_pos hshort, if_neg hm]
  · have hm : 12 ≤ m := by
      rw [length_take, recordHeaderBytes] at hshort
      omega
    have hfour : (bytes.take m).take 4 = bytes.take 4 := by
      rw [take_take, Nat.min_eq_left (by omega)]
    have hnext : ((bytes.take m).drop 4).take 4 = (bytes.drop 4).take 4 := by
      rw [drop_take, take_take, Nat.min_eq_left (by omega)]
    by_cases hnm : n ≤ m
    · have hrest : ((bytes.take m).drop 8).take (fromBe (bytes.take 4)) =
          (bytes.drop 8).take (fromBe (bytes.take 4)) := by
        rw [drop_take, take_take, Nat.min_eq_left (by omega)]
      have hfits' : ¬ ((bytes.take m).drop 8).length < fromBe (bytes.take 4) := by
        simp only [length_drop, length_take]
        omega
      simp only [decodeHead, if_neg hshort, hfour, hnext, if_neg hfits', hrest, if_neg hsum, hbody,
        map_some, hn, if_pos hnm]
    · have hcut : ((bytes.take m).drop 8).length < fromBe (bytes.take 4) := by
        simp only [length_drop, length_take]
        omega
      simp only [decodeHead, if_neg hshort, hfour, if_pos hcut, if_neg hnm]

theorem decodeLoop_fuel {fuel : ℕ} (h : bytes.length ≤ fuel) :
    decodeLoop fuel bytes = decodeRecords bytes := by
  unfold decodeRecords
  induction fuel using Nat.strong_induction_on generalizing bytes with
  | _ fuel ih =>
    cases hhead : decodeHead bytes with
    | none => cases fuel <;> cases hl : bytes.length <;> simp [decodeLoop, hhead]
    | some rn =>
      obtain ⟨r, n⟩ := rn
      have hb := decodeHead_bounds hhead
      simp only [recordHeaderBytes] at hb
      obtain ⟨fuel, rfl⟩ := Nat.exists_eq_succ_of_ne_zero (show fuel ≠ 0 by omega)
      obtain ⟨size, hsize⟩ := Nat.exists_eq_succ_of_ne_zero (show bytes.length ≠ 0 by omega)
      have hdrop : (bytes.drop n).length ≤ size := by
        rw [length_drop]
        omega
      have h₁ := ih fuel (by omega) (show (bytes.drop n).length ≤ fuel by omega)
      have h₂ := ih size (by omega) hdrop
      simp only [hsize, decodeLoop, hhead, h₁, h₂]

theorem decodeRecords_eq (bytes : List UInt8) : decodeRecords bytes = match decodeHead bytes with
      | none => ([], 0)
      | some (r, n) =>
        (r :: (decodeRecords (bytes.drop n)).1, n + (decodeRecords (bytes.drop n)).2) := by
  cases hhead : decodeHead bytes with
  | none => cases hl : bytes.length <;> simp [decodeRecords, hl, decodeLoop, hhead]
  | some rn =>
    obtain ⟨r, n⟩ := rn
    have hb := decodeHead_bounds hhead
    simp only [recordHeaderBytes] at hb
    obtain ⟨size, hsize⟩ := Nat.exists_eq_succ_of_ne_zero (show bytes.length ≠ 0 by omega)
    have hdrop : (bytes.drop n).length ≤ size := by
      rw [length_drop]
      omega
    rw [decodeRecords, hsize]
    simp only [decodeLoop, hhead, decodeLoop_fuel hdrop]

section

variable {bytes : List UInt8}

theorem decodeRecords_of_none (h : decodeHead bytes = none) : decodeRecords bytes = ([], 0) := by
  rw [decodeRecords_eq, h]

theorem decodeRecords_of_some (h : decodeHead bytes = some (r, n)) : decodeRecords bytes =
      (r :: (decodeRecords (bytes.drop n)).1, n + (decodeRecords (bytes.drop n)).2) := by
  rw [decodeRecords_eq, h]

theorem decode_induction {motive : List UInt8 → Prop}
    (stop : ∀ bytes, decodeHead bytes = none → motive bytes)
    (next : ∀ bytes r n, decodeHead bytes = some (r, n) → motive (bytes.drop n) → motive bytes)
    (bytes : List UInt8) : motive bytes := by
  induction hsize : bytes.length using Nat.strong_induction_on generalizing bytes with
  | _ size ih =>
    cases hhead : decodeHead bytes with
    | none => exact stop bytes hhead
    | some rn =>
      obtain ⟨r, n⟩ := rn
      have hb := decodeHead_bounds hhead
      simp only [recordHeaderBytes] at hb
      refine next bytes r n hhead (ih _ ?_ _ rfl)
      rw [length_drop]
      omega

theorem whole_le (bytes : List UInt8) : (decodeRecords bytes).2 ≤ bytes.length := by
  induction bytes using decode_induction with
  | stop bytes h =>
    rw [decodeRecords_of_none h]
    exact Nat.zero_le _
  | next bytes r n h ih =>
    have hb := decodeHead_bounds h
    rw [decodeRecords_of_some h]
    rw [length_drop] at ih
    simp only
    omega

theorem decodeRecords_take_front (bytes : List UInt8) (m : ℕ) :
    (decodeRecords (bytes.take m)).1 <+: (decodeRecords bytes).1 := by
  induction bytes using decode_induction generalizing m with
  | stop bytes h =>
    -- no record in front, so none in what is left of it
    have hnone : decodeHead (bytes.take m) = none := by
      cases hcut : decodeHead (bytes.take m) with
      | none => rfl
      | some rn =>
        obtain ⟨r, n⟩ := rn
        have hb := decodeHead_bounds hcut
        simp only [length_take, recordHeaderBytes] at hb
        have hwhole : decodeHead bytes = some (r, n) := by
          simp only [decodeHead] at hcut ⊢
          split_ifs at hcut with hlong hfits hsum
          obtain ⟨r', hbody, he⟩ := map_eq_some_iff.mp hcut
          have hfour : (bytes.take m).take 4 = bytes.take 4 := by
            rw [take_take, Nat.min_eq_left (by omega)]
          have hnext : ((bytes.take m).drop 4).take 4 = (bytes.drop 4).take 4 := by
            rw [drop_take, take_take, Nat.min_eq_left (by omega)]
          rw [hfour] at hfits hsum hbody he
          rw [hnext] at hsum
          simp only [length_take, length_drop] at hfits
          have hrest : ((bytes.take m).drop 8).take (fromBe (bytes.take 4)) =
              (bytes.drop 8).take (fromBe (bytes.take 4)) := by
            rw [drop_take, take_take, Nat.min_eq_left (by omega)]
          rw [hrest] at hsum hbody
          have hlong' : ¬ bytes.length < recordHeaderBytes := by
            simp only [recordHeaderBytes]
            omega
          have hfits' : ¬ (bytes.drop 8).length < fromBe (bytes.take 4) := by
            rw [length_drop]
            omega
          rw [if_neg hlong', if_neg hfits', if_neg hsum, hbody, map_some, he]
        rw [h] at hwhole
        cases hwhole
    rw [decodeRecords_of_none hnone, decodeRecords_of_none h]
  | next bytes r n h ih =>
    have hcut := decodeHead_take h m
    rw [decodeRecords_of_some h]
    split_ifs at hcut with hnm
    · rw [decodeRecords_of_some hcut, drop_take]
      exact prefix_cons_inj r |>.mpr (ih (m - n))
    · rw [decodeRecords_of_none hcut]
      exact nil_prefix

theorem decodeRecords_take_whole (bytes : List UInt8) :
    decodeRecords (bytes.take (decodeRecords bytes).2) = decodeRecords bytes := by
  induction bytes using decode_induction with
  | stop bytes h =>
    rw [decodeRecords_of_none h, take_zero]
    rfl
  | next bytes r n h ih =>
    have hcut := decodeHead_take h (decodeRecords bytes).2
    rw [decodeRecords_of_some h] at hcut ⊢
    rw [if_pos (Nat.le_add_right n _)] at hcut
    rw [decodeRecords_of_some hcut, drop_take, Nat.add_sub_cancel_left, ih]

theorem decodeRecords_append {tail : List UInt8} (h : (decodeRecords bytes).2 = bytes.length) :
    decodeRecords (bytes ++ tail) =
      ((decodeRecords bytes).1 ++ (decodeRecords tail).1, bytes.length + (decodeRecords tail).2) := by
  induction bytes using decode_induction with
  | stop bytes hnone =>
    rw [decodeRecords_of_none hnone] at h ⊢
    have hnil : bytes = [] := length_eq_zero_iff.mp h.symm
    simp [hnil]
  | next bytes r n hsome ih =>
    have hb := decodeHead_bounds hsome
    have hhead : decodeHead (bytes ++ tail) = some (r, n) := by
      cases hfull : decodeHead (bytes ++ tail) with
      | none =>
        have hprefix := decodeRecords_take_front (bytes ++ tail) bytes.length
        rw [take_left, decodeRecords_of_some hsome, decodeRecords_of_none hfull] at hprefix
        exact absurd (prefix_nil.mp hprefix) (cons_ne_nil _ _)
      | some rn =>
        obtain ⟨r', n'⟩ := rn
        have hcut := decodeHead_take hfull bytes.length
        rw [take_left, hsome] at hcut
        split_ifs at hcut
        exact hcut.symm
    rw [decodeRecords_of_some hsome] at h
    have hrest : (decodeRecords (bytes.drop n)).2 = (bytes.drop n).length := by
      simp only at h
      rw [length_drop]
      omega
    rw [decodeRecords_of_some hhead, decodeRecords_of_some hsome, drop_append_of_le_length hb.2,
      ih hrest, length_drop]
    simp only [cons_append, mk.injEq, true_and]
    omega

theorem decodeRecords_encodeRecord (h : r.Representable) :
    decodeRecords (encodeRecord r) = ([r], (encodeRecord r).length) := by
  have hhead := decodeHead_encodeRecord h []
  rw [append_nil] at hhead
  have hnil : decodeRecords [] = ([], 0) := rfl
  rw [decodeRecords_of_some hhead, drop_length, hnil, Nat.add_zero]

theorem decodeRecords_torn (h : r.Representable) {k : ℕ}
    (hk : k < (encodeRecord r).length) : decodeRecords ((encodeRecord r).take k) = ([], 0) := by
  have hhead := decodeHead_encodeRecord h []
  rw [append_nil] at hhead
  refine decodeRecords_of_none ?_
  rw [decodeHead_take hhead, if_neg (by omega)]

theorem encodeRecord_of_decodeHead (h : decodeHead bytes = some (r, n)) :
    encodeRecord r = bytes.take n := by
  have hbounds := decodeHead_bounds h
  simp only [decodeHead] at h
  split_ifs at h with hlong hfits hsum
  obtain ⟨r', hbody, he⟩ := map_eq_some_iff.mp h
  obtain ⟨rfl, rfl⟩ := mk.inj he
  have hencoded := encodeBody_of_decodeBody hbody
  simp only [recordHeaderBytes] at hlong hbounds
  have hlength : (encodeBody r').length = fromBe (bytes.take 4) := by
    rw [hencoded, length_take_of_le (by omega)]
  have hchecksum : (checksum (encodeBody r')).toNat = fromBe ((bytes.drop 4).take 4) := by
    rw [hencoded]
    exact not_not.mp hsum
  have hfour : (bytes.take 4).length = 4 := length_take_of_le (by omega)
  have hnext : ((bytes.drop 4).take 4).length = 4 := length_take_of_le (by rw [length_drop]; omega)
  rw [encodeRecord, hlength, hchecksum, toBe_fromBe hfour, toBe_fromBe hnext, hencoded,
    take_add, take_add (i := 4) (j := 4)]

theorem decodeRecords_flatMap {records : List Record} (h : ∀ r ∈ records, r.Representable)
    (tail : List UInt8) :
    decodeRecords (records.flatMap encodeRecord ++ tail) = (records ++ (decodeRecords tail).1,
        (records.flatMap encodeRecord).length + (decodeRecords tail).2) := by
  induction records with
  | nil => simp
  | cons r rest ih =>
    have hhead := decodeHead_encodeRecord (h r mem_cons_self) (rest.flatMap encodeRecord ++ tail)
    rw [flatMap_cons, append_assoc, decodeRecords_of_some hhead, drop_left,
      ih fun x hx => h x (mem_cons_of_mem r hx), length_append, Nat.add_assoc,
      cons_append]

theorem flatMap_encodeRecord_decodeRecords (bytes : List UInt8) :
    (decodeRecords bytes).1.flatMap encodeRecord = bytes.take (decodeRecords bytes).2 := by
  induction bytes using decode_induction with
  | stop bytes h =>
    rw [decodeRecords_of_none h]
    rfl
  | next bytes r n h ih =>
    rw [decodeRecords_of_some h, flatMap_cons, ih, encodeRecord_of_decodeHead h, take_add]

end

/-- Whole records followed by a part of one more decode to the whole ones; and whatever the bytes,
the records they decode to encode to the part that decoding went over. -/
theorem decodeRecords_inverts (records : List Record) (h : ∀ r ∈ records, r.Representable)
    (next : Record) (hnext : next.Representable) (front : List UInt8)
    (hfront : front <+: encodeRecord next) (hstrict : front ≠ encodeRecord next)
    (bytes : List UInt8) :
    decodeRecords (records.flatMap encodeRecord ++ front) =
        (records, (records.flatMap encodeRecord).length) ∧
      (decodeRecords bytes).1.flatMap encodeRecord = bytes.take (decodeRecords bytes).2 := by
  refine ⟨?_, flatMap_encodeRecord_decodeRecords bytes⟩
  have hshort : front.length < (encodeRecord next).length := by
    refine lt_of_le_of_ne hfront.length_le fun heq => ?_
    exact hstrict (hfront.eq_of_length heq)
  have htorn : decodeRecords front = ([], 0) := by
    rw [prefix_iff_eq_take.mp hfront]
    exact decodeRecords_torn hnext hshort
  rw [decodeRecords_flatMap h, htorn, append_nil, Nat.add_zero]

/-- A usage record after a turn, the usage record cut after its header. -/
theorem decodeRecords_inverts_torn_usage :
    let turn : Record := ⟨1, 1000, .turns, subjectStorageTurns, "AI.a@worker", [1, 2]⟩
    let usage : Record := ⟨2, 1000, .nodes, subjectStorageUsage, "AI.a@worker", [3]⟩
    decodeRecords (encodeRecord turn ++ (encodeRecord usage).take 12) =
      ([turn], (encodeRecord turn).length) := by
  intro turn usage
  have hturn : ∀ r ∈ [turn], r.Representable := by decide +kernel
  have hcut := (decodeRecords_inverts [turn] hturn usage (by decide +kernel)
    ((encodeRecord usage).take 12) (List.take_prefix _ _) (by decide +kernel) []).1
  simpa using hcut

end Fluxbee.Stream
