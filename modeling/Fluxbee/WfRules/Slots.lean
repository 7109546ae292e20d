import Fluxbee.Lib.GuardedRun
import Mathlib.Algebra.Ring.Nat

/-! SY.wf-rules' three slots of a workflow, the requests that fill and rotate them, each of which may
be cut off after any of its file operations, and the packages it publishes. -/
namespace Fluxbee.WfRules

variable {D : Type}

/-- A slot's directory: its two files, each written by a rename. -/
structure Slot (D : Type) where
  definition : Option D := none
  metadata : Option ℕ := none
deriving DecidableEq

structure Store (D : Type) where
  staged : Option (Slot D) := none
  current : Option (Slot D) := none
  backup : Option (Slot D) := none
deriving DecidableEq

def version (slot : Option (Slot D)) : Option ℕ := slot.bind Slot.metadata

/-- What removing a directory left of it: nothing, or some of its files. -/
inductive Removal
  | gone
  | left (definition metadata : Bool)

def removeAll (slot : Option (Slot D)) : Removal → Option (Slot D)
  | .gone => none
  | .left definition metadata =>
    slot.map fun s => ⟨if definition then s.definition else none,
      if metadata then s.metadata else none⟩

/-- How far a rotation got: cut off after the removal, or after the first rename. -/
inductive Progress
  | removed
  | renamed
  | whole
deriving DecidableEq

/-- How a publish ended: it reached the admin or it did not, whatever was answered. The purge after it
had the admin remove some of the versions that no node is bound to. -/
inductive Publish
  | failed
  | published (removed : List ℕ)

/-- The highest version in a slot, plus one, as a `uint64`. -/
def Store.nextVersion (s : Store D) : ℕ :=
  (max (max ((version s.staged).getD 0) ((version s.current).getD 0)) ((version s.backup).getD 0) + 1)
    % 2 ^ 64

/-- How far a compile got. -/
inductive Written
  | nothing
  | directory
  | definition
  | metadata

def Store.writeStaged (s : Store D) (definition : D) (version : ℕ) : Written → Store D
  | .nothing => s
  | .directory => { s with staged := some (s.staged.getD {}) }
  | .definition => { s with staged := some { s.staged.getD {} with definition := some definition } }
  | .metadata => { s with staged := some ⟨some definition, some version⟩ }

section
variable (s : Store D) (removal : Removal) (progress : Progress)

/-- The staged slot becomes the current one, which becomes the backup. Answers whether it went
through: `os.Rename` takes no directory to one that exists. -/
def Store.rotateToApply : Store D × Bool :=
  let backup := removeAll s.backup removal
  if progress = .removed then ({ s with backup := backup }, false)
  else
    match s.current with
    | some current =>
      if backup.isSome then ({ s with backup := backup }, false)
      else if progress = .renamed then ({ s with current := none, backup := some current }, false)
      else (⟨none, s.staged, some current⟩, true)
    | none => (⟨none, s.staged, backup⟩, true)

/-- The backup becomes the current slot again, which becomes the staged one. -/
def Store.rotateToRollback : Store D × Bool :=
  let staged := removeAll s.staged removal
  if progress = .removed then ({ s with staged := staged }, false)
  else
    match s.current with
    | some current =>
      if staged.isSome then ({ s with staged := staged }, false)
      else if progress = .renamed then ({ s with staged := some current, current := none }, false)
      else (⟨some current, s.backup, none⟩, true)
    | none => (⟨staged, s.backup, none⟩, true)

end

/-- A workflow since it was last deleted, with the packages published of it and those in the
motherbee's dist tree. -/
structure Workflow (D : Type) where
  store : Store D := {}
  published : List (ℕ × D) := []
  dist : List (ℕ × D) := []

inductive Event (D : Type) where
  | compile (definition : D) (version : ℕ) (written : Written)
  | apply (version : ℕ) (removal : Removal) (progress : Progress) (publish : Publish)
  | rollback (removal : Removal) (progress : Progress) (publish : Publish)

/-- The other files of a package follow from its version, so a version installed before must hold the
same definition. -/
def installPackageFiles [DecidableEq D] (dist : List (ℕ × D)) (number : ℕ) (definition : D) :
    Option (List (ℕ × D)) :=
  match dist.lookup number with
  | none => some (dist ++ [(number, definition)])
  | some installed => if installed = definition then some dist else none

/-- `purgeWorkflowPackages`: the versions of the current slot and of the backup stay. -/
def Store.purge (s : Store D) (removed : List ℕ) (dist : List (ℕ × D)) : List (ℕ × D) :=
  dist.filter fun package => version s.current = some package.1 ∨
    version s.backup = some package.1 ∨ package.1 ∉ removed

section
variable [DecidableEq D] (loads : D → Bool)

/-- `loads` says whether a definition loads, as the WF node loads it. -/
def slotLoads (slot : Option (Slot D)) : Bool :=
  match slot.bind Slot.definition with
  | some definition => loads definition
  | none => false

section
variable (w : Workflow D)

def Workflow.publishCurrent (rotated : Store D × Bool) (publish : Publish) : Workflow D :=
  let store := rotated.1
  match rotated.2, publish, version store.current, store.current.bind Slot.definition with
  | true, .published removed, some number, some definition =>
    match installPackageFiles w.dist number definition with
    | some dist => ⟨store, w.published ++ [(number, definition)], store.purge removed dist⟩
    | none => { w with store := store }
  | _, _, _, _ => { w with store := store }

def Store.compiledVersion (s : Store D) (requested : ℕ) : ℕ :=
  if requested = 0 then s.nextVersion else requested

def Workflow.compile (definition : D) (requested : ℕ) (written : Written) : Workflow D :=
  if loads definition then
    { w with
      store := w.store.writeStaged definition (w.store.compiledVersion requested) written }
  else w

def Workflow.apply (requested : ℕ) (removal : Removal) (progress : Progress) (publish : Publish) :
    Workflow D :=
  match version w.store.staged with
  | none => w
  | some staged =>
    if 0 < requested ∧ staged ≠ requested then w
    else if slotLoads loads w.store.staged = false then w
    else w.publishCurrent (w.store.rotateToApply removal progress) publish

def Workflow.rollback (removal : Removal) (progress : Progress) (publish : Publish) : Workflow D :=
  match version w.store.backup with
  | none => w
  | some _ =>
    if slotLoads loads w.store.backup = false then w
    else w.publishCurrent (w.store.rotateToRollback removal progress) publish

def Workflow.step : Event D → Workflow D
  | .compile definition requested written => w.compile loads definition requested written
  | .apply requested removal progress publish => w.apply loads requested removal progress publish
  | .rollback removal progress publish => w.rollback loads removal progress publish

end

end

end Fluxbee.WfRules
