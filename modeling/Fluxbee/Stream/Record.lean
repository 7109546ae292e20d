import Fluxbee.Lib.Text
import Fluxbee.Router.Names
import Mathlib.Data.List.Nodup

/-! Records of the router's stream, and which sinks take which of them. -/
namespace Fluxbee.Stream
open Text List

inductive Source where
  | turns
  | nodes
  deriving DecidableEq

structure Record where
  (seq tsMs : ℕ)
  source : Source
  (subject producer : String)
  payload : List UInt8
  deriving DecidableEq

def subjectStorageTurns : String := "storage.turns"
def subjectStorageUsage : String := "storage.usage"
def subjectCognitionTurns : String := "cognition.turns"
def streamMaxAgeSecs : ℕ := 120
def streamMaxBytes : ℕ := 32 * 1024 * 1024
def streamNodeAppendsSharePercent : ℕ := 25
def streamSegmentBytes : ℕ := 4 * 1024 * 1024
def streamBatchMaxRecords : ℕ := 256
def streamBatchMaxBytes : ℕ := 96 * 1024
def streamUsageReserveBytes : ℕ := 1024 * 1024
def batchEnvelopeBytes : ℕ := 1024
def batchRecordOverheadBytes : ℕ := 96
def recordHeaderBytes : ℕ := 12

def len (s : String) : ℕ := (asBytes s).length

section
variable (r : Record)

def Record.size : ℕ :=
  recordHeaderBytes + 8 + 8 + 1 + 2 + len r.subject + 2 + len r.producer + r.payload.length

def Record.batchSize : ℕ :=
  r.payload.length + len r.subject + len r.producer + batchRecordOverheadBytes

def Record.aged (now : ℕ) : Bool := now - r.tsMs > streamMaxAgeSecs * 1000

def Record.tooBig : Bool := r.batchSize + batchEnvelopeBytes > streamBatchMaxBytes

def Record.isUsage : Bool := r.subject == subjectStorageUsage

end

def roleRunsCognition (role : String) : Bool :=
  toAsciiLowercase (trim role) == "motherbee" || toAsciiLowercase (trim role) == "worker"

def sinksFor (subject role hiveId : String) : List String :=
  if subject == subjectCognitionTurns then
    if roleRunsCognition role then ["SY.cognition@" ++ hiveId] else []
  else if subject == subjectStorageTurns || subject == subjectStorageUsage then
    ["SY.storage@" ++ Router.primaryHiveId]
  else []

def allSinks (role hiveId : String) : List String :=
  [subjectStorageTurns, subjectStorageUsage, subjectCognitionTurns].foldl
    (fun sinks subject => (sinksFor subject role hiveId).foldl
      (fun sinks sink => if sinks.contains sink then sinks else sinks ++ [sink]) sinks) []

theorem sinksFor_length_le_one (subject role hiveId : String) :
    (sinksFor subject role hiveId).length ≤ 1 := by
  unfold sinksFor
  split_ifs <;> simp

private theorem addSinks_spec (new sinks : List String) (hn : sinks.Nodup) :
    let out := new.foldl (fun sinks sink => if sinks.contains sink then sinks else sinks ++ [sink])
      sinks
    out.Nodup ∧ ∀ s, s ∈ out ↔ s ∈ sinks ∨ s ∈ new := by
  induction new generalizing sinks with
  | nil => exact ⟨hn, by simp⟩
  | cons sink new ih =>
    rw [foldl_cons]
    split_ifs with hc
    · obtain ⟨hnodup, hmem⟩ := ih sinks hn
      refine ⟨hnodup, fun s => ?_⟩
      have hin : sink ∈ sinks := by simpa using hc
      rw [hmem, mem_cons]
      constructor
      · rintro (h | h)
        · exact .inl h
        · exact .inr (.inr h)
      · rintro (h | rfl | h)
        · exact .inl h
        · exact .inl hin
        · exact .inr h
    · have hnin : sink ∉ sinks := by simpa using hc
      have hnew : (sinks ++ [sink]).Nodup := by
        rw [nodup_append]
        refine ⟨hn, nodup_singleton _, fun a ha b hb => ?_⟩
        rw [mem_singleton.mp hb]
        exact fun h => hnin (h ▸ ha)
      obtain ⟨hnodup, hmem⟩ := ih _ hnew
      refine ⟨hnodup, fun s => ?_⟩
      rw [hmem, mem_append, mem_singleton, mem_cons, or_assoc]

theorem mem_allSinks {subject role hiveId sink : String}
    (h : sink ∈ sinksFor subject role hiveId) : sink ∈ allSinks role hiveId := by
  have h₁ := addSinks_spec (sinksFor subjectStorageTurns role hiveId) [] nodup_nil
  have h₂ := addSinks_spec (sinksFor subjectStorageUsage role hiveId) _ h₁.1
  have h₃ := addSinks_spec (sinksFor subjectCognitionTurns role hiveId) _ h₂.1
  unfold allSinks
  simp only [foldl_cons, foldl_nil]
  rw [h₃.2, h₂.2, h₁.2]
  unfold sinksFor at h
  split_ifs at h with hc hr hs
  · refine .inr ?_
    simpa [sinksFor, hr] using h
  · cases h
  · refine .inl (.inl (.inr ?_))
    simpa [sinksFor, subjectStorageTurns, subjectCognitionTurns] using h
  · cases h

end Fluxbee.Stream
