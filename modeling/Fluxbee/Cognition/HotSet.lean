import Fluxbee.Cognition.Dominance
import Fluxbee.Cognition.Held
import Mathlib.Data.Nat.Digits.Lemmas

/-! The hot set of the memory region (`build_memory_hot_set_snapshot`): the communications that fit
it, by rank. The length of a JSON text is the sum of its parts. -/
namespace Fluxbee.Cognition
open List AList

@[irreducible] def memoryMaxDataSize : ℕ := 4 * 1024 * 1024

def noAgentIlk : String := "none"

/-- What the hot set reads of a communication; `bytes` is the length of its entry. -/
structure Standing where
  bytes : ℕ
  lastSeenEpochMs : ℤ
  hasActiveScope : Bool
  (liveEntitiesTotal turnCount : ℕ)
  deriving DecidableEq

structure Candidate extends Standing where
  key : CommunicationKey
  justUpdated : Bool
  deriving DecidableEq

section
variable {R : Type} (standing : CommunicationKey → ThreadCognitionState R → Standing)
  (threads : Held R) (kept : List CommunicationKey) (updatedAt : UInt64)

def candidates : List Candidate :=
  (threads.entries.filter (·.1.agentIlk ≠ noAgentIlk)).map fun e =>
    { standing e.1 e.2 with key := e.1, justUpdated := e.1 ∈ kept }

/-- The six keys in order: all but the last put the greater one first. -/
def Candidate.rank (c : Candidate) : Boolᵒᵈ ×ₗ ℤᵒᵈ ×ₗ Boolᵒᵈ ×ₗ ℕᵒᵈ ×ₗ ℕᵒᵈ ×ₗ String ×ₗ String :=
  toLex (.toDual c.justUpdated, toLex (.toDual c.lastSeenEpochMs, toLex (.toDual c.hasActiveScope,
    toLex (.toDual c.liveEntitiesTotal, toLex (.toDual c.turnCount,
      toLex (c.key.threadId, c.key.agentIlk))))))

def ranked : List Candidate := sortByKey Candidate.rank (candidates standing threads kept)

/-- `{"schema_version":2,"updated_at":…,"threads":[]}` -/
def baseSize : ℕ := 47 + max 1 (Nat.digits 10 updatedAt.toNat).length

section
variable (selected : List Candidate)

/-- The base, the entries and a comma between two of them. -/
def snapshotBytes : ℕ :=
  baseSize updatedAt + (selected.map (·.bytes)).sum + (selected.length - 1)

/-- `write_snapshot`, with its length and the most it takes if it is too long. -/
def writeSnapshot : Except (ℕ × ℕ) Unit :=
  if memoryMaxDataSize < snapshotBytes updatedAt selected then
    .error (snapshotBytes updatedAt selected, memoryMaxDataSize)
  else .ok ()

def extraBytes (c : Candidate) : ℕ :=
  c.bytes + if selected = [] then 0 else 1

end

/-- One turn of the selection: the payload's bytes and the entries so far. -/
def takeIfFits (state : ℕ × List Candidate) (c : Candidate) : ℕ × List Candidate :=
  if memoryMaxDataSize < state.1 + extraBytes state.2 c then state
  else (state.1 + extraBytes state.2 c, state.2 ++ [c])

def select (l : List Candidate) : ℕ × List Candidate := l.foldl takeIfFits (baseSize updatedAt, [])

def buildMemoryHotSetSnapshot : ℕ × List Candidate := select updatedAt (ranked standing threads kept)

def retainMemoryHotSet : Held R :=
  threads.retain fun key _ =>
    key ∈ (buildMemoryHotSetSnapshot standing threads kept updatedAt).2.map (·.key) || key ∈ kept

end

section
variable {updatedAt : UInt64} {state : ℕ × List Candidate} {c : Candidate} {l : List Candidate}

theorem baseSize_le : baseSize updatedAt ≤ memoryMaxDataSize := by
  have hdigits : (Nat.digits 10 updatedAt.toNat).length ≤ 20 :=
    (Nat.digits_length_le_iff (by norm_num) _).mpr (updatedAt.toNat_lt.trans (by norm_num))
  unfold baseSize memoryMaxDataSize
  omega

theorem snapshotBytes_concat (selected : List Candidate) :
    snapshotBytes updatedAt (selected ++ [c]) =
      snapshotBytes updatedAt selected + extraBytes selected c := by
  cases selected with
  | nil => simp [snapshotBytes, extraBytes]
  | cons d rest =>
    simp [snapshotBytes, extraBytes]
    omega

/-- The payload is exact and within the region. -/
structure Payload (updatedAt : UInt64) (state : ℕ × List Candidate) : Prop where
  exact : snapshotBytes updatedAt state.2 = state.1
  le : state.1 ≤ memoryMaxDataSize

theorem Payload.takeIfFits (h : Payload updatedAt state) : Payload updatedAt (takeIfFits state c) := by
  unfold Cognition.takeIfFits
  split_ifs with hout
  · exact h
  · exact ⟨by rw [snapshotBytes_concat, h.exact], Nat.le_of_not_lt hout⟩

theorem Payload.foldl (h : Payload updatedAt state) :
    Payload updatedAt (l.foldl Cognition.takeIfFits state) := by
  induction l generalizing state with
  | nil => exact h
  | cons c rest ih => exact ih h.takeIfFits

theorem payload_select : Payload updatedAt (select updatedAt l) := Payload.foldl ⟨rfl, baseSize_le⟩

theorem foldl_takeIfFits (l : List Candidate) (state : ℕ × List Candidate) :
    ∃ more, more <+ l ∧ (l.foldl takeIfFits state).2 = state.2 ++ more := by
  induction l generalizing state with
  | nil => exact ⟨[], .slnil, (append_nil _).symm⟩
  | cons c rest ih =>
    obtain ⟨more, hsub, heq⟩ := ih (takeIfFits state c)
    rw [foldl_cons, heq, takeIfFits]
    split_ifs
    · exact ⟨more, hsub.cons c, rfl⟩
    · exact ⟨c :: more, hsub.cons_cons c, append_assoc ..⟩

/-- A candidate left out would overflow the region next to those taken before it. -/
theorem left_out {front back : List Candidate} (hnodup : (front ++ c :: back).Nodup)
    (hout : c ∉ (select updatedAt (front ++ c :: back)).2) :
    memoryMaxDataSize < snapshotBytes updatedAt
      ((select updatedAt (front ++ c :: back)).2.filter (· ∈ front) ++ [c]) := by
  have hsplit : select updatedAt (front ++ c :: back) =
      back.foldl takeIfFits (takeIfFits (select updatedAt front) c) := by
    rw [select, foldl_append, foldl_cons]
    rfl
  obtain ⟨early, hearly, hfront⟩ := foldl_takeIfFits front (baseSize updatedAt, [])
  obtain ⟨more, hmore, hback⟩ := foldl_takeIfFits back (takeIfFits (select updatedAt front) c)
  rw [hsplit, hback] at hout ⊢
  have hskip : memoryMaxDataSize <
      (select updatedAt front).1 + extraBytes (select updatedAt front).2 c := by
    by_contra hfits
    rw [takeIfFits, if_neg hfits] at hout
    simp at hout
  have hsame : takeIfFits (select updatedAt front) c = select updatedAt front := if_pos hskip
  have htaken : ((select updatedAt front).2 ++ more).filter (· ∈ front) =
      (select updatedAt front).2 := by
    rw [filter_append, filter_eq_self.mpr, filter_eq_nil_iff.mpr, append_nil]
    · intro d hd hmem
      exact disjoint_of_nodup_append hnodup (of_decide_eq_true hmem)
        (mem_cons_of_mem _ (hmore.subset hd))
    · intro d hd
      rw [show (select updatedAt front).2 = early from hfront] at hd
      exact decide_eq_true (hearly.subset hd)
  rw [hsame, htaken, snapshotBytes_concat, payload_select.exact]
  exact hskip

end

section
variable {R : Type} (standing : CommunicationKey → ThreadCognitionState R → Standing)

theorem ranked_nodup (threads : Held R) (kept : List CommunicationKey) :
    (ranked standing threads kept).Nodup := by
  refine (sortByKey_perm ..).nodup_iff.mpr (Nodup.of_map Candidate.key ?_)
  rw [candidates, map_map]
  exact threads.nodupKeys.sublist filter_sublist

/-- The snapshot is as long as reported and fits the region; it leaves out only what does not fit
next to what ranks before it; memory holds what is selected or kept. -/
theorem hot_set_fits (threads : Held R) (kept : List CommunicationKey) (updatedAt : UInt64) :
    let hot := buildMemoryHotSetSnapshot standing threads kept updatedAt
    snapshotBytes updatedAt hot.2 = hot.1 ∧ hot.1 ≤ memoryMaxDataSize ∧
    writeSnapshot updatedAt hot.2 = .ok () ∧
    (∀ front c back, ranked standing threads kept = front ++ c :: back → c ∉ hot.2 →
      memoryMaxDataSize < snapshotBytes updatedAt (hot.2.filter (· ∈ front) ++ [c])) ∧
    ∀ key, (retainMemoryHotSet standing threads kept updatedAt).lookup key =
      if key ∈ hot.2.map (·.key) ∨ key ∈ kept then threads.lookup key else none := by
  intro hot
  have hpayload : Payload updatedAt hot := payload_select
  refine ⟨hpayload.exact, hpayload.le, if_neg ?_, ?_, ?_⟩
  · rw [hpayload.exact]
    exact Nat.not_lt.mpr hpayload.le
  · intro front c back hranked hout
    have hnodup := ranked_nodup standing threads kept
    unfold hot buildMemoryHotSetSnapshot at hout ⊢
    rw [hranked] at hnodup hout ⊢
    exact left_out hnodup hout
  · intro key
    rw [retainMemoryHotSet, lookup_retain]
    change Option.filter (fun _ => decide (key ∈ hot.2.map (·.key)) || decide (key ∈ kept)) _ = _
    cases threads.lookup key <;> simp [Option.filter]

end
end Fluxbee.Cognition
