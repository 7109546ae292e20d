import Fluxbee.Cognition.Turns
import Fluxbee.Lib.AssocMap
import Fluxbee.Lib.GuardedRun

/-! What the cognition node holds in memory and what its file keeps (`sync_held_state`): a run
against the same run that never lets a communication go. -/
namespace Fluxbee.Cognition
open GuardedRun List AList Function

variable {R : Type}

abbrev Held (R : Type) := AList fun _ : CommunicationKey => ThreadCognitionState R

structure Node (R : Type) where
  threads : Held R := ∅
  file : Held R := ∅
  unsaved : List CommunicationKey := []
  workerTurn : Option CommunicationKey := none
  copy : Option (ThreadCognitionState R) := none

/-- How one rewrite goes: whether the file took the rows, and the communications that made the
region, none when there is no region or no hot set was built. -/
structure Sync where
  written : Bool
  selected : Option (List CommunicationKey)

/-- `workerBegins` to `workerEnds` is one turn of the worker, in its steps under the lock. -/
inductive Event (R : Type)
  | intake (recent : List RecentTurn) (sync : Sync)
  | workerBegins (key : CommunicationKey)
  | workerCopies (agentNode : String)
  | workerWrites (derive : R → R) (sync : Sync)
  | workerEnds
  | keepsEpisode (sync : Sync)

section
variable [Inhabited R] (fmt : Format)

def blank : ThreadCognitionState R := { derived := default }

section
variable (threads file : Held R)

/-- What `held_or_loaded` gives: as held, or else from the file, or else new. -/
def found (key : CommunicationKey) : ThreadCognitionState R :=
  (threads.lookup key).getD ((file.lookup key).getD blank)

def heldOrLoaded (key : CommunicationKey) : Held R :=
  match threads.lookup key with
  | some _ => threads
  | none => threads.insert key (found threads file key)

def holdIn (held : ThreadCognitionState R) (recent : RecentTurn) : ThreadCognitionState R :=
  { held with toIntakeState := holdRecentTurn fmt held.toIntakeState recent }

/-- One turn of `hold_recent_turns`, with the communications reported as touched. -/
def holdOne (file : Held R) (state : Held R × List CommunicationKey) (recent : RecentTurn) :
    Held R × List CommunicationKey :=
  let held := found state.1 file recent.key
  (state.1.insert recent.key (holdIn fmt held recent),
    if isDuplicate held.toIntakeState recent || recent.key ∈ state.2 then state.2
    else state.2 ++ [recent.key])

def holdRecentTurns (recent : List RecentTurn) : Held R × List CommunicationKey :=
  recent.foldl (holdOne fmt file) (threads, [])

/-- One transaction of the file: the row of every one of `keys` that is held. -/
def save (keys : List CommunicationKey) : Held R :=
  keys.foldl (fun file key =>
    match threads.lookup key with
    | some held => file.insert key held
    | none => file) file

end

section
variable (s : Node R)

/-- What a failed write leaves to the next one. -/
def Node.toSave (changed : List CommunicationKey) : List CommunicationKey :=
  changed ++ s.unsaved.filter (· ∉ changed)

def Node.leftUnsaved (changed : List CommunicationKey) (sync : Sync) : List CommunicationKey :=
  if sync.written then [] else (s.toSave changed).filter fun key => (s.threads.lookup key).isSome

def Node.syncHeldState (kept changed : List CommunicationKey) (sync : Sync) : Node R :=
  let unsaved := s.leftUnsaved changed sync
  let kept := kept ++ s.workerTurn.toList ++ unsaved
  { s with
    file := if sync.written then save s.threads s.file (s.toSave changed) else s.file
    unsaved
    threads := match sync.selected with
      | none => s.threads
      | some selected => s.threads.retain fun key _ => key ∈ selected || key ∈ kept }

def writeBackIn (threads : Held R) (key : CommunicationKey) (updated : ThreadCognitionState R) :
    Held R :=
  match threads.lookup key with
  | some held => threads.insert key (writeBackTurn fmt held updated)
  | none => threads.insert key updated

def Node.workerWrites (key : CommunicationKey) (copy : ThreadCognitionState R) (derive : R → R)
    (sync : Sync) : Node R :=
  let updated := { copy with derived := derive copy.derived }
  Node.syncHeldState { s with threads := writeBackIn fmt s.threads key updated } [key] [key] sync

def Node.step : Event R → Node R
  | .intake recent sync =>
    if recent.isEmpty then s
    else
      let (threads, touched) := holdRecentTurns fmt s.threads s.file recent
      Node.syncHeldState { s with threads } (recent.map (·.key)).dedup touched sync
  | .workerBegins key =>
    { s with workerTurn := some key, copy := none, threads := heldOrLoaded s.threads s.file key }
  | .workerCopies agentNode =>
    { s with copy := (s.workerTurn.bind s.threads.lookup).map (copyForTurn · agentNode) }
  | .workerWrites derive sync =>
    match s.workerTurn, s.copy with
    | some key, some copy => s.workerWrites fmt key copy derive sync
    | _, _ => s
  | .workerEnds => { s with workerTurn := none, copy := none }
  | .keepsEpisode sync => s.syncHeldState [] [] sync

def Node.found (key : CommunicationKey) : ThreadCognitionState R :=
  Cognition.found s.threads s.file key

def Event.keeping : Event R → Event R
  | .intake recent sync => .intake recent { sync with selected := none }
  | .workerWrites derive sync => .workerWrites derive { sync with selected := none }
  | .keepsEpisode sync => .keepsEpisode { sync with selected := none }
  | e => e

/-- A duplicate without a relay mark of its own, of a message held as a relay. -/
def ClearsRelay (held : IntakeState) (recent : RecentTurn) : Prop :=
  isDuplicate held recent ∧ recent.turn.toVia.isNone ∧ recent.turn.direction = .received ∧
    ∃ turn ∈ held.turns, turn.direction = .received ∧ turn.toVia.isSome ∧
      turn.writer = recent.turn.writer ∧ turn.via = recent.turn.via ∧ turn.text = recent.turn.text

instance (held : IntakeState) (recent : RecentTurn) : Decidable (ClearsRelay held recent) :=
  inferInstanceAs (Decidable (_ ∧ _))

/-- A turn of the batch comes after a held relay of its message only where the batch brings the
communication a new turn too, or where it waits for the next write. -/
def Reports : Event R → Prop
  | .intake recent _ =>
    ∀ r ∈ recent, r.key ∉ s.unsaved → ClearsRelay (s.found r.key).toIntakeState r →
      ∃ r' ∈ recent, r'.key = r.key ∧ isDuplicate (s.found r.key).toIntakeState r' = false
  | _ => True

end

instance (s : Node R) : (e : Event R) → Decidable (Reports s e)
  | .intake recent _ => inferInstanceAs (Decidable (∀ r ∈ recent, r.key ∉ s.unsaved →
      ClearsRelay (s.found r.key).toIntakeState r →
        ∃ r' ∈ recent, r'.key = r.key ∧ isDuplicate (s.found r.key).toIntakeState r' = false))
  | .workerBegins _ | .workerCopies _ | .workerWrites _ _ | .workerEnds | .keepsEpisode _ =>
    inferInstanceAs (Decidable True)

end

section
variable {copy : MemoryTurn} {held : IntakeState} {recent : RecentTurn}

theorem clearRelay_eq (turns : List MemoryTurn)
    (h : ¬ ∃ turn ∈ turns, turn.direction = .received ∧ turn.toVia.isSome ∧
      turn.writer = copy.writer ∧ turn.via = copy.via ∧ turn.text = copy.text) :
    clearRelay copy turns = turns := by
  induction turns with
  | nil => rfl
  | cons turn rest ih =>
    rw [clearRelay, if_neg, ih]
    · rintro ⟨found, hmem, hrelay⟩
      exact h ⟨found, mem_cons_of_mem _ hmem, hrelay⟩
    · simp only [Bool.and_eq_true, decide_eq_true_eq]
      rintro ⟨⟨⟨⟨hdirection, hvia⟩, hwriter⟩, hfrom⟩, htext⟩
      exact h ⟨turn, mem_cons_self .., hdirection, hvia, hwriter, hfrom, htext⟩

/-- A duplicate that clears no relay mark leaves the communication as it is. -/
theorem holdDuplicate_eq (hdup : isDuplicate held recent) (h : ¬ ClearsRelay held recent) :
    holdDuplicate held recent = held := by
  unfold holdDuplicate
  split_ifs with hvia
  · unfold saidToTheAgentToo
    split_ifs with hdirection
    · rfl
    · rw [clearRelay_eq, reverse_reverse]
      rintro ⟨turn, hmem, hrelay⟩
      exact h ⟨hdup, hvia, not_not.mp hdirection, turn, mem_reverse.mp hmem, hrelay⟩
  · rfl

theorem map_text_clearRelay (turns : List MemoryTurn) :
    (clearRelay copy turns).map (fun turn => (turn.direction, turn.text)) =
      turns.map fun turn => (turn.direction, turn.text) := by
  induction turns with
  | nil => rfl
  | cons turn rest ih =>
    unfold clearRelay
    split_ifs
    · rfl
    · rw [map_cons, map_cons, ih]

/-- What a duplicate does to a communication makes no other turn a duplicate, nor a new one. -/
theorem isDuplicate_holdDuplicate (r : RecentTurn) :
    isDuplicate (holdDuplicate held recent) r = isDuplicate held r := by
  have hany : ∀ turns : List MemoryTurn,
      (turns.any fun turn => turn.direction = .sent && turn.text = r.turn.text) =
        (turns.map fun turn => (turn.direction, turn.text)).any
          fun said => said.1 = .sent && said.2 = r.turn.text := by
    intro turns
    rw [any_map]
    rfl
  unfold holdDuplicate
  split_ifs
  · unfold isDuplicate echoesOwnAnswer saidToTheAgentToo
    dsimp only
    rw [hany, hany held.turns]
    split_ifs
    · rfl
    · rw [map_reverse, map_text_clearRelay, ← map_reverse, reverse_reverse]
  · rfl

end

section
variable [Inhabited R] {fmt : Format} {threads file : Held R} {key key' : CommunicationKey}

theorem found_of_lookup {held : ThreadCognitionState R} (h : threads.lookup key = some held) :
    found threads file key = held := by
  rw [found, h, Option.getD_some]

theorem found_insert (held : ThreadCognitionState R) :
    found (threads.insert key held) file = Function.update (found threads file) key held := by
  funext key'
  rw [found, lookup_insert_eq]
  split_ifs with hkey
  · rw [hkey, Option.getD_some, update_self]
  · rw [update_of_ne hkey]
    rfl

theorem found_heldOrLoaded (threads file : Held R) (key : CommunicationKey) :
    found (heldOrLoaded threads file key) file = found threads file := by
  rw [heldOrLoaded]
  split
  · rfl
  · rw [found_insert, update_eq_self]

theorem heldOrLoaded_isSome : ((heldOrLoaded threads file key).lookup key).isSome := by
  rw [heldOrLoaded]
  split
  next held h => rw [h]; rfl
  next h => rw [lookup_insert]; rfl

theorem found_holdRecentTurns (recent : List RecentTurn) (touched : List CommunicationKey) :
    found (recent.foldl (holdOne fmt file) (threads, touched)).1 file =
      recent.foldl (fun (f : CommunicationKey → ThreadCognitionState R) r =>
        Function.update f r.key (holdIn fmt (f r.key) r)) (found threads file) := by
  induction recent generalizing threads touched with
  | nil => rfl
  | cons r rest ih =>
    rw [foldl_cons, foldl_cons, holdOne, ih, found_insert]

theorem mem_touched (recent : List RecentTurn) (touched : List CommunicationKey)
    (h : key ∈ touched) : key ∈ (recent.foldl (holdOne fmt file) (threads, touched)).2 := by
  induction recent generalizing threads touched with
  | nil => exact h
  | cons r rest ih =>
    apply ih
    dsimp only
    split_ifs
    · exact h
    · exact mem_append_left _ h

theorem mem_touched_of_new (r : RecentTurn) (rest : List RecentTurn)
    (touched : List CommunicationKey)
    (h : isDuplicate (found threads file r.key).toIntakeState r = false) :
    r.key ∈ ((r :: rest).foldl (holdOne fmt file) (threads, touched)).2 := by
  rw [foldl_cons, holdOne]
  apply mem_touched
  rw [h, Bool.false_or]
  split_ifs with htouched
  · exact of_decide_eq_true htouched
  · exact mem_append_right _ (mem_singleton_self _)

/-- A communication that the batch brings a new turn is reported, whatever comes before it. -/
theorem touched_of_new (recent : List RecentTurn) (touched : List CommunicationKey)
    {r : RecentTurn} (hr : r ∈ recent) (hkey : r.key = key)
    (h : isDuplicate (found threads file key).toIntakeState r = false) :
    key ∈ (recent.foldl (holdOne fmt file) (threads, touched)).2 := by
  induction recent generalizing threads touched with
  | nil => cases hr
  | cons first rest ih =>
    by_cases hfirst : first.key = key
    · subst hfirst
      cases hdup : isDuplicate (found threads file first.key).toIntakeState first with
      | false => exact mem_touched_of_new first rest touched hdup
      | true =>
        rcases mem_cons.mp hr with rfl | hrest
        · rw [h] at hdup
          cases hdup
        · apply ih _ hrest
          rw [found_insert, update_self, holdIn, holdRecentTurn, if_pos hdup,
            isDuplicate_holdDuplicate]
          exact h
    · rcases mem_cons.mp hr with rfl | hrest
      · exact absurd hkey hfirst
      · apply ih _ hrest
        rw [found_insert, update_of_ne (Ne.symm hfirst)]
        exact h

/-- A communication that is not reported, and of which no relay mark is cleared, stays as it is. -/
theorem found_of_not_touched (recent : List RecentTurn) (touched : List CommunicationKey)
    (htouched : key ∉ (recent.foldl (holdOne fmt file) (threads, touched)).2)
    (h : ∀ r ∈ recent, r.key = key → ¬ ClearsRelay (found threads file key).toIntakeState r) :
    found (recent.foldl (holdOne fmt file) (threads, touched)).1 file key =
      found threads file key := by
  induction recent generalizing threads touched with
  | nil => rfl
  | cons first rest ih =>
    -- the first turn is of another communication, or a duplicate that changes nothing
    have hsame : found (holdOne fmt file (threads, touched) first).1 file key =
        found threads file key := by
      rw [holdOne, found_insert]
      by_cases hfirst : first.key = key
      · subst hfirst
        cases hdup : isDuplicate (found threads file first.key).toIntakeState first with
        | false => exact absurd (mem_touched_of_new first rest touched hdup) htouched
        | true =>
          rw [update_self, holdIn, holdRecentTurn, if_pos hdup,
            holdDuplicate_eq hdup (h first (mem_cons_self ..) rfl)]
      · rw [update_of_ne (Ne.symm hfirst)]
    refine (ih _ htouched fun r hr hkey hclears => ?_).trans hsame
    exact h r (mem_cons_of_mem _ hr) hkey (hsame ▸ hclears)

theorem holdRecentTurns_isSome (recent : List RecentTurn) (touched : List CommunicationKey)
    (h : (threads.lookup key).isSome) :
    ((recent.foldl (holdOne fmt file) (threads, touched)).1.lookup key).isSome := by
  induction recent generalizing threads touched with
  | nil => exact h
  | cons r rest ih =>
    apply ih
    rw [lookup_insert_eq]
    split_ifs
    · rfl
    · exact h

omit [Inhabited R] in
theorem lookup_save (keys : List CommunicationKey) : (save threads file keys).lookup key =
      if key ∈ keys ∧ (threads.lookup key).isSome then threads.lookup key
      else file.lookup key := by
  induction keys generalizing file with
  | nil => simp [save]
  | cons k rest ih =>
    rw [save, foldl_cons]
    have hrest := @ih (match threads.lookup k with
      | some held => file.insert k held
      | none => file)
    rw [save] at hrest
    rw [hrest]
    by_cases hkey : key = k
    · subst hkey
      cases hheld : threads.lookup key with
      | none => simp
      | some held => simp
    · cases hheld : threads.lookup k with
      | none => simp [hkey]
      | some held => simp [hkey, lookup_insert_ne hkey]

end

section
variable [Inhabited R] {fmt : Format} {s u : Node R} {changed kept : List CommunicationKey}
  {sync : Sync}

namespace Node

/-- Every communication held is as the file has it, but those waiting for a write. -/
def Saved (s : Node R) : Prop :=
  ∀ key held, s.threads.lookup key = some held → key ∉ s.unsaved →
    (s.file.lookup key).getD blank = held

/-- The same while `changed` is about to be written. -/
def SavedBut (s : Node R) (changed : List CommunicationKey) : Prop :=
  ∀ key held, s.threads.lookup key = some held → key ∉ changed → key ∉ s.unsaved →
    (s.file.lookup key).getD blank = held

def HoldsWorkers (s : Node R) : Prop :=
  ∀ key, s.workerTurn = some key → (s.threads.lookup key).isSome

theorem Saved.found_eq (h : s.Saved) {key : CommunicationKey} (hkey : key ∉ s.unsaved) :
    s.found key = (s.file.lookup key).getD blank := by
  rw [found, Cognition.found]
  cases hheld : s.threads.lookup key with
  | none => rfl
  | some held => exact (h key held hheld hkey).symm

omit [Inhabited R] in
theorem mem_toSave {key : CommunicationKey} :
    key ∈ s.toSave changed ↔ key ∈ changed ∨ key ∈ s.unsaved := by
  simp only [toSave, mem_append, mem_filter, decide_eq_true_eq]
  tauto

theorem found_syncHeldState_keeping (s : Node R) (kept changed : List CommunicationKey)
    (sync : Sync) (h : sync.selected = none) :
    (s.syncHeldState kept changed sync).found = s.found := by
  funext key
  simp only [found, Cognition.found, syncHeldState, h]
  cases hheld : s.threads.lookup key with
  | some held => rfl
  | none =>
    split_ifs
    · rw [lookup_save, hheld]
      simp
    · rfl

/-- After a rewrite the file has every communication held but the unsaved, whether or not it is let
go. -/
theorem SavedBut.written (h : s.SavedBut changed) {key : CommunicationKey}
    {held : ThreadCognitionState R} (hheld : s.threads.lookup key = some held)
    (hkey : key ∉ s.leftUnsaved changed sync) :
    ((s.syncHeldState kept changed sync).file.lookup key).getD blank = held := by
  simp only [syncHeldState]
  by_cases hsave : key ∈ s.toSave changed
  · have hwritten : sync.written = true := by
      by_contra hnot
      apply hkey
      rw [leftUnsaved, if_neg hnot, mem_filter]
      exact ⟨hsave, by rw [hheld]; rfl⟩
    rw [if_pos hwritten, lookup_save, if_pos ⟨hsave, by rw [hheld]; rfl⟩, hheld, Option.getD_some]
  · rw [mem_toSave, not_or] at hsave
    have hfile := h key held hheld hsave.1 hsave.2
    split_ifs
    · rw [lookup_save, if_neg fun hin => (mem_toSave.mp hin.1).elim hsave.1 hsave.2]
      exact hfile
    · exact hfile

omit [Inhabited R] in
theorem lookup_syncHeldState (s : Node R) (kept changed : List CommunicationKey) (sync : Sync)
    (key : CommunicationKey) :
    (s.syncHeldState kept changed sync).threads.lookup key = s.threads.lookup key ∨
      (s.syncHeldState kept changed sync).threads.lookup key = none ∧
        key ∉ kept ∧ s.workerTurn ≠ some key ∧ key ∉ s.leftUnsaved changed sync := by
  simp only [syncHeldState]
  cases hsel : sync.selected with
  | none => exact .inl rfl
  | some selected =>
    rw [lookup_retain]
    cases hheld : s.threads.lookup key with
    | none => exact .inl rfl
    | some held =>
      by_cases hkeep : key ∈ selected ∨
          key ∈ kept ++ s.workerTurn.toList ++ s.leftUnsaved changed sync
      · left
        simpa [or_assoc] using hkeep
      · right
        rw [not_or] at hkeep
        obtain ⟨hselected, hkept⟩ := hkeep
        simp only [mem_append, Option.mem_toList, not_or] at hkept
        refine ⟨?_, hkept.1.1, hkept.1.2, hkept.2⟩
        simp [hselected, hkept]

theorem SavedBut.found_syncHeldState (h : s.SavedBut changed) :
    (s.syncHeldState kept changed sync).found = s.found := by
  funext key
  rw [found, found, Cognition.found]
  rcases s.lookup_syncHeldState kept changed sync key with hsame | ⟨hgone, -, -, hleft⟩
  · rw [hsame]
    cases hheld : s.threads.lookup key with
    | some held => rw [Option.getD_some, found_of_lookup hheld]
    | none =>
      have hkeeping := congrFun (s.found_syncHeldState_keeping kept changed
        { sync with selected := none } rfl) key
      simpa only [found, Cognition.found, syncHeldState, hheld] using hkeeping
  · rw [hgone]
    cases hheld : s.threads.lookup key with
    | some held => rw [Option.getD_none, h.written hheld hleft, found_of_lookup hheld]
    | none =>
      have hkeeping := congrFun (s.found_syncHeldState_keeping kept changed
        { sync with selected := none } rfl) key
      simpa only [found, Cognition.found, syncHeldState, hheld] using hkeeping

theorem SavedBut.saved_syncHeldState (h : s.SavedBut changed) :
    (s.syncHeldState kept changed sync).Saved := by
  intro key held hheld hkey
  rcases s.lookup_syncHeldState kept changed sync key with hsame | ⟨hgone, -⟩
  · exact h.written (hsame ▸ hheld) hkey
  · rw [hgone] at hheld
    cases hheld

omit [Inhabited R] in
theorem HoldsWorkers.syncHeldState (h : s.HoldsWorkers) :
    (s.syncHeldState kept changed sync).HoldsWorkers := by
  intro key hkey
  rcases s.lookup_syncHeldState kept changed sync key with hsame | ⟨-, -, hworker, -⟩
  · rw [hsame]
    exact h key hkey
  · exact absurd hkey hworker

end Node

end

section
variable [Inhabited R] {fmt : Format} {s u : Node R}

/-- A node and one that did the same and let nothing go. -/
structure Node.Follows (s u : Node R) : Prop where
  found_eq : s.found = u.found
  workerTurn_eq : s.workerTurn = u.workerTurn
  copy_eq : s.copy = u.copy
  saved : s.Saved
  holds : s.HoldsWorkers
  holds' : u.HoldsWorkers

theorem Node.Follows.sync (hfound : s.found = u.found) (hworker : s.workerTurn = u.workerTurn)
    (hcopy : s.copy = u.copy) {changed changed' kept : List CommunicationKey}
    (hsaved : s.SavedBut changed) (hholds : s.HoldsWorkers) (hholds' : u.HoldsWorkers)
    (sync : Sync) :
    (s.syncHeldState kept changed sync).Follows
      (u.syncHeldState kept changed' { sync with selected := none }) where
  found_eq := by
    rw [hsaved.found_syncHeldState, Node.found_syncHeldState_keeping _ _ _ _ rfl, hfound]
  workerTurn_eq := hworker
  copy_eq := hcopy
  saved := hsaved.saved_syncHeldState
  holds := hholds.syncHeldState
  holds' := hholds'.syncHeldState

theorem Node.Follows.intake (h : s.Follows u) {recent : List RecentTurn} {sync : Sync}
    (hreports : Reports s (.intake recent sync)) :
    (s.step fmt (.intake recent sync)).Follows
      (u.step fmt (.intake recent { sync with selected := none })) := by
  simp only [Node.step]
  split_ifs
  · exact h
  · apply Node.Follows.sync
    · show Cognition.found _ s.file = Cognition.found _ u.file
      have hbefore : Cognition.found s.threads s.file = Cognition.found u.threads u.file :=
        h.found_eq
      rw [holdRecentTurns, holdRecentTurns, found_holdRecentTurns, found_holdRecentTurns, hbefore]
    · exact h.workerTurn_eq
    · exact h.copy_eq
    · -- what the batch does not report it leaves as the file has it
      intro key held hheld htouched hunsaved
      have hsame : Cognition.found (holdRecentTurns fmt s.threads s.file recent).1 s.file key =
          s.found key := by
        refine found_of_not_touched recent [] htouched ?_
        rintro r hr rfl hclears
        obtain ⟨r', hr', hkey, hnew⟩ := hreports r hr hunsaved hclears
        exact htouched (touched_of_new recent [] hr' hkey hnew)
      rw [found_of_lookup hheld, h.saved.found_eq hunsaved] at hsame
      exact hsame.symm
    · exact fun key hkey => holdRecentTurns_isSome recent [] (h.holds key hkey)
    · exact fun key hkey => holdRecentTurns_isSome recent [] (h.holds' key hkey)

theorem Node.Follows.begins (h : s.Follows u) (key : CommunicationKey) :
    (s.step fmt (.workerBegins key)).Follows (u.step fmt (.workerBegins key)) where
  found_eq := by
    have hs := found_heldOrLoaded s.threads s.file key
    have hu := found_heldOrLoaded u.threads u.file key
    exact hs.trans (h.found_eq.trans hu.symm)
  workerTurn_eq := rfl
  copy_eq := rfl
  saved := by
    intro key' held hheld hunsaved
    have hfound := congrFun (found_heldOrLoaded s.threads s.file key) key'
    have hnow : Cognition.found (heldOrLoaded s.threads s.file key) s.file key' = held :=
      found_of_lookup hheld
    rw [hnow] at hfound
    exact (h.saved.found_eq hunsaved).symm.trans hfound.symm
  holds := by
    rintro key' ⟨⟩
    exact heldOrLoaded_isSome
  holds' := by
    rintro key' ⟨⟩
    exact heldOrLoaded_isSome

theorem Node.HoldsWorkers.lookup (h : s.HoldsWorkers) {key : CommunicationKey}
    (hkey : s.workerTurn = some key) : s.threads.lookup key = some (s.found key) := by
  obtain ⟨held, hheld⟩ := Option.isSome_iff_exists.mp (h key hkey)
  rw [hheld, Node.found, found_of_lookup hheld]

theorem Node.Follows.copies (h : s.Follows u) (agentNode : String) :
    (s.step fmt (.workerCopies agentNode)).Follows (u.step fmt (.workerCopies agentNode)) := by
  refine ⟨h.found_eq, h.workerTurn_eq, ?_, h.saved, h.holds, h.holds'⟩
  simp only [Node.step]
  cases hworker : s.workerTurn with
  | none => rw [← h.workerTurn_eq, hworker]; rfl
  | some key =>
    have hworker' := h.workerTurn_eq ▸ hworker
    rw [hworker', Option.bind_some, Option.bind_some, h.holds.lookup hworker,
      h.holds'.lookup hworker', h.found_eq]

theorem found_writeBackIn {key : CommunicationKey} (hheld : s.threads.lookup key = some (s.found key))
    (updated : ThreadCognitionState R) :
    Cognition.found (writeBackIn fmt s.threads key updated) s.file =
      Function.update s.found key (writeBackTurn fmt (s.found key) updated) := by
  simp only [writeBackIn, hheld]
  exact found_insert _

omit [Inhabited R] in
theorem writeBackIn_isSome {threads : Held R} {key key' : CommunicationKey}
    {updated : ThreadCognitionState R} (h : (threads.lookup key').isSome) :
    ((writeBackIn fmt threads key updated).lookup key').isSome := by
  rw [writeBackIn]
  split <;> rw [lookup_insert_eq] <;> split_ifs
  · rfl
  · exact h
  · rfl
  · exact h

theorem Node.Follows.writes (h : s.Follows u) (derive : R → R) (sync : Sync) :
    (s.step fmt (.workerWrites derive sync)).Follows
      (u.step fmt (.workerWrites derive { sync with selected := none })) := by
  simp only [Node.step, ← h.workerTurn_eq, ← h.copy_eq]
  split
  next key copy hworker hcopy =>
    have hheld := h.holds.lookup hworker
    have hheld' := h.holds'.lookup (h.workerTurn_eq ▸ hworker)
    apply Node.Follows.sync
    · show Cognition.found _ s.file = Cognition.found _ u.file
      rw [found_writeBackIn hheld, found_writeBackIn hheld', h.found_eq]
    · exact h.workerTurn_eq
    · exact h.copy_eq
    · intro key' held hafter hchanged hunsaved
      have hne : key' ≠ key := fun heq => hchanged (mem_singleton.mpr heq)
      have hbefore : s.threads.lookup key' = some held := by
        simpa only [writeBackIn, hheld, lookup_insert_ne hne] using hafter
      exact h.saved key' held hbefore hunsaved
    · exact fun key' hkey' => writeBackIn_isSome (h.holds key' hkey')
    · exact fun key' hkey' => writeBackIn_isSome (h.holds' key' hkey')
  · exact h

theorem Node.Follows.step (h : s.Follows u) {e : Event R} (hreports : Reports s e) :
    (s.step fmt e).Follows (u.step fmt e.keeping) := by
  cases e with
  | intake recent sync => exact h.intake hreports
  | workerBegins key => exact h.begins key
  | workerCopies agentNode => exact h.copies agentNode
  | workerWrites derive sync => exact h.writes derive sync
  | workerEnds => exact ⟨h.found_eq, rfl, rfl, h.saved, by rintro key ⟨⟩, by rintro key ⟨⟩⟩
  | keepsEpisode sync =>
    exact Node.Follows.sync h.found_eq h.workerTurn_eq h.copy_eq
      (fun key held hheld _ hunsaved => h.saved key held hheld hunsaved) h.holds h.holds' sync

theorem Node.Follows.run (h : s.Follows u) {events : List (Event R)}
    (hreports : Along (Node.step fmt) Reports s events) :
    (events.foldl (Node.step fmt) s).Follows
      ((events.map Event.keeping).foldl (Node.step fmt) u) := by
  induction events generalizing s u with
  | nil => exact h
  | cons e events ih => exact ih (h.step hreports.1) hreports.2

end

/-- Along batches that clear no relay mark unreported, every communication is found as it would be had
nothing ever been let go. -/
theorem memory_is_a_cache_of_the_file {R : Type} [Inhabited R] (fmt : Format) (file : Held R)
    (events : List (Event R)) (h : Along (Node.step fmt) Reports { file } events)
    (key : CommunicationKey) :
    (events.foldl (Node.step fmt) { file }).found key =
      ((events.map Event.keeping).foldl (Node.step fmt) { file }).found key := by
  have hstart : Node.Follows (R := R) { file } { file } :=
    ⟨rfl, rfl, rfl, fun _ _ hheld => by simp at hheld, nofun, nofun⟩
  exact congrFun (hstart.run h).found_eq key

namespace Relays

def fmt : Format := { epochMs := fun ts => ts.length, size := fun turn => turn.text.length }

def key : CommunicationKey := { threadId := "thread:1", agentIlk := "ilk:agent" }

def said (key : CommunicationKey) (toVia : Option String) : RecentTurn where
  key
  turnKey := "trace:1"
  agentNode := "AI.a@h"
  srcIlk := some "ilk:person"
  dstIlk := none
  ich := none
  turn := { direction := .received, toVia, text := "hello", ts := "t" }

/-- A relay, the agent's own copy of it with a new turn after it, then another communication whose
rewrite lets the first go. -/
def letGo : List (Event Unit) :=
  [.intake [said key (some "IO.x@h")] ⟨true, some [key]⟩,
    .intake [said key none, { said key none with turnKey := "trace:2" }] ⟨true, some [key]⟩,
    .intake [said { key with threadId := "thread:2" } none] ⟨true, some []⟩]

/-- In between the agent's own copy of the relayed message comes. -/
def cleared : List (Event Unit) :=
  [.intake [said key (some "IO.x@h")] ⟨true, some [key]⟩,
    .intake [said key none] ⟨true, some [key]⟩,
    .intake [said { key with threadId := "thread:2" } none] ⟨true, some []⟩]

end Relays

/-- The relay mark that was cleared is back once the communication was let go. -/
theorem relay_mark_comes_back :
    ((Relays.cleared.foldl (Node.step Relays.fmt) {}).found Relays.key).turns.map (·.toVia) =
        [some "IO.x@h"] ∧
      (((Relays.cleared.map Event.keeping).foldl (Node.step Relays.fmt) {}).found
        Relays.key).turns.map (·.toVia) = [none] := by
  decide +kernel

theorem memory_is_a_cache_of_the_file_let_go :
    (Relays.letGo.foldl (Node.step Relays.fmt) {}).found Relays.key =
      ((Relays.letGo.map Event.keeping).foldl (Node.step Relays.fmt) {}).found Relays.key :=
  memory_is_a_cache_of_the_file Relays.fmt ∅ Relays.letGo (by decide +kernel) Relays.key

end Fluxbee.Cognition
