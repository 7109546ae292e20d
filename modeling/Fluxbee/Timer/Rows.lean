import Fluxbee.Lib.Text
import Mathlib.Data.List.MinMax
import Mathlib.Data.List.Sort
import Fluxbee.Lib.AssocMap

/-! The timers table: its rows, and each statement SY.timer runs on it as one step. Times are UTC
milliseconds. -/
namespace Fluxbee.Timer
open List Option AList

inductive Kind
  | oneshot
  | recurring
deriving DecidableEq

inductive Status
  | pending
  | fired
  | canceled
deriving DecidableEq

inductive MissedPolicy
  | fire
  | drop
  | fireIfWithin
deriving DecidableEq

structure TimerRow where
  (uuid ownerL2Name targetL2Name : String)
  clientRef : Option String := none
  kind : Kind
  fireAtUtc : ℤ
  cronSpec : Option String := none
  cronTz : Option String := none
  missedPolicy : MissedPolicy := .fire
  missedWithinMs : Option ℤ := none
  payload : String := "\x7b\x7d"
  metadata : Option String := none
  status : Status := .pending
  createdAtUtc : ℤ
  lastFiredAtUtc : Option ℤ := none
  fireCount : ℤ := 0
deriving DecidableEq

/-- What `validateTimerRow` asks of a row; its enumerated columns are never empty. -/
def validateTimerRow (validJson : String → Bool) (row : TimerRow) : Bool :=
  row.uuid ≠ "" && row.ownerL2Name ≠ "" && row.targetL2Name ≠ "" &&
    validJson (if row.payload = "" then "\x7b\x7d" else row.payload) &&
    row.metadata.all validJson

abbrev Table := AList fun _ : String => TimerRow

namespace Table

variable (t : Table)

def getTimer (uuid : String) : Option TimerRow := t.lookup uuid

def findPendingTimerByClientRef (owner ref : String) : Option TimerRow :=
  @List.argmax _ ℤ Int.instLinearOrder.toPreorder Int.decLt TimerRow.createdAtUtc
    (t.values.filter fun row => row.ownerL2Name = owner ∧ row.clientRef = some ref ∧
      row.status = .pending)

def countPendingTimers : ℕ := t.values.countP fun row => row.status = .pending

def countPendingTimersByOwner (owner : String) : ℕ :=
  t.values.countP fun row => row.ownerL2Name = owner ∧ row.status = .pending

def listPendingTimers : List TimerRow :=
  (t.values.filter fun row => row.status = .pending).insertionSort
    fun a b => a.fireAtUtc ≤ b.fireAtUtc

/-- The index over the owner and the reference of pending timers holds another such row. -/
def refTaken (row : TimerRow) : Bool :=
  row.status = .pending && row.clientRef.isSome &&
    t.values.any fun other => other.uuid ≠ row.uuid && other.ownerL2Name = row.ownerL2Name &&
      other.clientRef = row.clientRef && other.status = .pending

inductive InsertError
  | refTaken
  | other

def insertTimer (validJson : String → Bool) (row : TimerRow) : Except InsertError Table :=
  if !validateTimerRow validJson row then .error .other
  else if t.refTaken row then .error .refTaken
  else if row.uuid ∈ t then .error .other
  else .ok (t.insert row.uuid row)

def updateTimer (validJson : String → Bool) (row : TimerRow) : Option Table :=
  if !validateTimerRow validJson row then none
  else if row.uuid ∈ t ∧ t.refTaken row then none
  else some (t.modify row.uuid fun _ => row)

def deleteTimersByOwner (owner : String) : Table :=
  t.retain fun _ row => row.ownerL2Name ≠ owner

def gcHistoricalTimers (cutoff : ℤ) : Table :=
  t.retain fun _ row =>
    !(row.status ≠ .pending && row.lastFiredAtUtc.getD row.createdAtUtc < cutoff)

def Keyed : Prop := ∀ u row, t.lookup u = some row → row.uuid = u

variable {t} {t' : Table} {validJson : String → Bool} {row row' : TimerRow} {u : String}

theorem keyed_empty : Keyed ∅ := by
  intro u row h
  simp at h

theorem insertTimer_ok (h : t.insertTimer validJson row = .ok t') :
    t' = t.insert row.uuid row ∧ row.uuid ∉ t := by
  unfold insertTimer at h
  split_ifs at h with hvalid href hmem
  exact ⟨(Except.ok.inj h).symm, hmem⟩

theorem updateTimer_some (h : t.updateTimer validJson row = some t') :
    t' = t.modify row.uuid fun _ => row := by
  unfold updateTimer at h
  split_ifs at h with hvalid href
  exact (Option.some.inj h).symm

theorem lookup_modify_const : (t.modify row.uuid fun _ => row).lookup u = some row' ↔
      if u = row.uuid then (t.lookup u).isSome ∧ row' = row else t.lookup u = some row' := by
  rw [lookup_modify]
  by_cases hu : u = row.uuid
  · subst hu
    simp only [if_true, map_eq_some_iff, isSome_iff_exists]
    constructor
    · rintro ⟨old, hold, rfl⟩
      exact ⟨⟨old, hold⟩, rfl⟩
    · rintro ⟨⟨old, hold⟩, rfl⟩
      exact ⟨old, hold, rfl⟩
  · simp [hu]

theorem Keyed.modify (h : t.Keyed) (row : TimerRow) : Keyed (t.modify row.uuid fun _ => row) := by
  intro u row' hrow
  rw [lookup_modify_const] at hrow
  split_ifs at hrow with hu
  · rw [hrow.2, hu]
  · exact h u row' hrow

theorem Keyed.insert (h : t.Keyed) : Keyed (t.insert row.uuid row) := by
  intro u row' hrow
  rw [lookup_insert_eq] at hrow
  split_ifs at hrow with hu
  · rw [← Option.some.inj hrow, hu]
  · exact h u row' hrow

theorem Keyed.retain (h : t.Keyed) (p : String → TimerRow → Bool) : Keyed (t.retain p) := by
  intro u row hrow
  exact h u row (lookup_retain_eq_some.mp hrow).1

theorem findPending_mem {owner ref : String}
    (h : t.findPendingTimerByClientRef owner ref = some row) :
    row ∈ t.values ∧ row.status = .pending := by
  have hmem := argmax_mem (mem_def.mpr h)
  have hsat := mem_filter.mp hmem
  have hcols := of_decide_eq_true hsat.2
  exact ⟨hsat.1, hcols.2.2⟩

theorem Keyed.lookup_of_mem (h : t.Keyed) (hmem : row ∈ t.values) : t.lookup row.uuid = some row := by
  obtain ⟨u, hu⟩ := mem_values.mp hmem
  rw [h u row hu]
  exact hu

theorem mem_listPendingTimers :
    row ∈ t.listPendingTimers ↔ row ∈ t.values ∧ row.status = .pending := by
  rw [listPendingTimers, mem_insertionSort, mem_filter, decide_eq_true_iff]

end Table

end Fluxbee.Timer
