import Fluxbee.Opa.Disk

/-! The operations of `sy-opa-rules` as the writes they make, one process of it that works through
them and may be killed before, after or in the middle of any write, and the hives of a system, which
are one motherbee that compiles and publishes and others that install what reaches them. -/
namespace Fluxbee.Opa
open Text

structure OpaError where
  (code detail : String)

section
variable (cfg : Config)

def hashOf (wasm : Bytes) : String := "sha256:" ++ cfg.sha256 wasm

/-- `"policy-" + strings.TrimPrefix(hash, "sha256:")[:16] + ".wasm"` -/
def wasmFileName (hash : String) : String :=
  "policy-" ++ String.ofList (((stripFront "sha256:" hash).getD hash).toList.take 16) ++ ".wasm"

/-- `filepath.Base`: the last element of a path, without the slashes behind it. -/
def filepathBase (path : String) : String :=
  if path = "" then "."
  else
    let back := path.toList.reverse.dropWhile (· == '/')
    if back = [] then "/" else String.ofList (back.takeWhile (· != '/')).reverse

theorem filepathBase_of_plain {path : String} (hne : path ≠ "") (hplain : '/' ∉ path.toList) :
    filepathBase path = path := by
  have hlist : path.toList.reverse ≠ [] := by simpa using hne
  have hback : path.toList.reverse.dropWhile (· == '/') = path.toList.reverse := by
    rw [List.dropWhile_eq_self_iff]
    intro hpos heq
    have hmem := List.getElem_mem hpos
    rw [beq_iff_eq.mp heq] at hmem
    exact hplain (List.mem_reverse.mp hmem)
  have htake : path.toList.reverse.takeWhile (· != '/') = path.toList.reverse := by
    rw [List.takeWhile_eq_self_iff]
    intro c hc
    have hne : c ≠ '/' := fun h => hplain (h ▸ List.mem_reverse.mp hc)
    simpa using hne
  simp only [filepathBase, if_neg hne, hback, if_neg hlist, htake, List.reverse_reverse,
    String.ofList_toList]

/-- `currentPolicy`: what this hive runs now, none when the wasm is missing or empty. -/
def currentPolicy (d : PolicyDir) : Option (PolicyMetadata × Bytes) :=
  match d.wasm with
  | none => none
  | some wasm =>
    if wasm = [] then none
    else some ({ readMetadata d.info with hash := hashOf cfg wasm, wasmSize := wasm.length }, wasm)

def currentHash (d : PolicyDir) : String := ((currentPolicy cfg d).map fun p => p.1.hash).getD ""

/-- `installedPolicy`: `currentPolicy`, if its wasm is one the routers can load. -/
def installedPolicy (d : PolicyDir) : Except String (Option (PolicyMetadata × Bytes)) :=
  match currentPolicy cfg d with
  | none => .ok none
  | some (info, wasm) =>
    match validateWasm wasm with
    | .error e => .error ("installed opa policy is not a valid wasm: " ++ e)
    | .ok () =>
      if wasmHasExport wasm opaEval then .ok (some (info, wasm))
      else .error "installed opa policy lacks the opa_eval export"

def checkWasm (wasm : Bytes) : Except OpaError Unit :=
  match validateWasm wasm with
  | .error e => .error ⟨"COMPILE_ERROR", e⟩
  | .ok () =>
    if wasmHasExport wasm opaEval then .ok ()
    else .error ⟨"COMPILE_ERROR", "opa wasm missing export: opa_eval"⟩

section
variable (k : Disk) (now : String)

def applyPolicy (version : ℕ) : Except OpaError (List Act) :=
  let staged := k.dirs .staged
  match staged.wasm with
  | none => .error ⟨"NOTHING_STAGED", "staged policy missing"⟩
  | some wasm => do
    let info := readMetadata staged.info
    if version ≠ 0 ∧ info.version ≠ 0 ∧ version ≠ info.version then
      throw ⟨"VERSION_MISMATCH",
        s!"version mismatch: staged={info.version} requested={version}"⟩
    let version := if version = 0 then info.version else version
    checkWasm wasm
    let applied : PolicyMetadata :=
      { version := version, hash := hashOf cfg wasm, entrypoint := info.entrypointOr,
        compiledAt := now, wasmSize := wasm.length }
    return copyDir (k.dirs .current) .backup ++
      writePolicyFiles .current wasm applied (staged.rego.getD "") ++
      writePolicy cfg version (some wasm) info.entrypointOr

def rollbackPolicy : Except OpaError (List Act) :=
  let backup := k.dirs .backup
  match backup.wasm with
  | none => .error ⟨"NO_BACKUP", "backup policy missing"⟩
  | some wasm => do
    let info := readMetadata backup.info
    checkWasm wasm
    let restored : PolicyMetadata :=
      { info with hash := hashOf cfg wasm, compiledAt := now, wasmSize := wasm.length }
    return writePolicyFiles .current wasm restored (backup.rego.getD "") ++
      writePolicy cfg info.version (some wasm) info.entrypointOr

def clearPolicy : List Act :=
  emptyDir .current ++ emptyDir .staged ++ emptyDir .backup ++ writePolicy cfg 0 none ""

def manifestOf (now : String) : Option (PolicyMetadata × Bytes) → PolicyManifest
  | none => { publishedAt := now }
  | some (info, _) =>
    { version := if info.version = 0 then 1 else info.version, hash := info.hash,
      entrypoint := info.entrypointOr, wasmFile := wasmFileName info.hash,
      compiledAt := info.compiledAt, publishedAt := now }

/-- A file `publishPolicy` removes when the manifest does not name it. -/
def isPolicyWasm (name : String) : Bool :=
  startsWith name "policy-" && (stripBack ".wasm" name).isSome

def publishPolicy : List Act :=
  let current := currentPolicy cfg (k.dirs .current)
  let manifest := manifestOf now current
  let written := (current.map fun p => DistWrite.wasm manifest.wasmFile p.2).toList
  let others := k.dist.wasms.keys.filter fun name => isPolicyWasm name && name ≠ manifest.wasmFile
  (written ++ [DistWrite.manifest manifest] ++ others.map DistWrite.remove).map .dist

def loadCurrentPolicy (k : Disk) : Except OpaError (List Act) :=
  let current := k.dirs .current
  match current.wasm with
  | none => .ok []
  | some wasm => do
    let info := readMetadata current.info
    checkWasm wasm
    let version := if info.version = 0 then 1 else info.version
    let loaded := { info with hash := hashOf cfg wasm, wasmSize := wasm.length }
    return writePolicy cfg version (some wasm) info.entrypointOr ++
      rewriteDir .current [.metadata (some (.whole loaded))]

def republishIfStale : List Act :=
  match installedPolicy cfg (k.dirs .current) with
  | .error _ => []
  | .ok _ =>
    if k.dist.manifest.map (·.hash) = some (currentHash cfg (k.dirs .current)) then []
    else publishPolicy cfg k now

end

def ensureRegionMatchesCurrent (k : Disk) : List Act :=
  match installedPolicy cfg (k.dirs .current) with
  | .error _ => []
  | .ok none =>
    if k.region.hash = zeroHash then [] else writePolicy cfg 0 none ""
  | .ok (some (info, wasm)) =>
    if "sha256:" ++ k.region.hash = info.hash then []
    else writePolicy cfg info.version (some wasm) info.entrypointOr

end

/-- What the process does under its policy lock, one after another. -/
inductive Op where
  | compile (version : ℕ) (rego entrypoint : String)
  | apply (version : ℕ)
  | rollback
  | clear
  | publish
  | load
  | republish
  | syncPublished
  | ensureRegion

/-- An operation, and whether its error ends the request it is part of. -/
structure Task where
  op : Op
  strict : Bool

def compiledEntrypoint (entrypoint : String) : String :=
  if entrypoint = "" then defaultEntrypoint else entrypoint

def compilePolicy (cfg : Config) (now : String) (version : ℕ) (rego entrypoint : String) :
    Except OpaError (List Act) :=
  if rego = "" then .error ⟨"COMPILE_ERROR", "rego missing"⟩
  else
    match compileRego cfg rego (compiledEntrypoint entrypoint) with
    | .error e => .error ⟨"COMPILE_ERROR", e⟩
    | .ok wasm =>
      let info : PolicyMetadata :=
        { version := version, hash := hashOf cfg wasm, entrypoint := compiledEntrypoint entrypoint,
          compiledAt := now, wasmSize := wasm.length }
      .ok (writePolicyFiles .staged wasm info rego)

/-- `syncFromPublishedPolicy`: the writes it makes, and the apply that follows what it stages. -/
def syncFromPublishedPolicy (cfg : Config) (k : Disk) : List Act × List Task :=
  match k.dist.manifest with
  | none => ([], [])
  | some manifest =>
    if manifest.hash = "" then
      (if (currentPolicy cfg (k.dirs .current)).isNone then [] else clearPolicy cfg, [])
    else if manifest.hash = currentHash cfg (k.dirs .current) then ([], [])
    else
      match k.dist.wasms.lookup (filepathBase manifest.wasmFile) with
      | none => ([], [])
      | some wasm =>
        if hashOf cfg wasm ≠ manifest.hash then ([], [])
        else
          let info : PolicyMetadata :=
            { version := manifest.version, hash := manifest.hash,
              entrypoint := manifest.entrypoint, compiledAt := manifest.compiledAt,
              wasmSize := wasm.length }
          (writePolicyFiles .staged wasm info "", [⟨.apply manifest.version, false⟩])

/-- The writes of an operation and the operations that follow from it. -/
def plan (cfg : Config) (now : String) (k : Disk) : Op → Except OpaError (List Act × List Task)
  | .compile version rego entrypoint => do
    return (← compilePolicy cfg now version rego entrypoint, [])
  | .apply version => do return (← applyPolicy cfg k now version, [])
  | .rollback => do return (← rollbackPolicy cfg k now, [])
  | .clear => .ok (clearPolicy cfg, [])
  | .publish => .ok (publishPolicy cfg k now, [])
  | .load => do return (← loadCurrentPolicy cfg k, [])
  | .republish => .ok (republishIfStale cfg k now, [])
  | .ensureRegion => .ok (ensureRegionMatchesCurrent cfg k, [])
  | .syncPublished => .ok (syncFromPublishedPolicy cfg k)

inductive Request where
  | compile (version : ℕ) (rego entrypoint : String) (autoApply : Bool)
  | apply (version : ℕ)
  | rollback
  | clear

def Request.tasks : Request → List Task
  | .compile version rego entrypoint autoApply =>
    ⟨.compile version rego entrypoint, true⟩ ::
      if autoApply then [⟨.apply version, true⟩, ⟨.publish, true⟩] else []
  | .apply version => [⟨.apply version, true⟩, ⟨.publish, true⟩]
  | .rollback => [⟨.rollback, true⟩, ⟨.publish, true⟩]
  | .clear => [⟨.clear, true⟩, ⟨.publish, true⟩]

/-- The process: its writes still to make and its operations still to begin. It serves once its
start is over. -/
inductive Process where
  | down
  | up (serving : Bool) (acts : List Act) (tasks : List Task)

structure Hive where
  disk : Disk := {}
  process : Process := .down

inductive Event where
  | start
  | request (r : Request)
  | syncRound
  | work (now : String)
  /-- The process is killed, its next write not begun, or begun with `n` bytes of it made. -/
  | crash (begun : Option ℕ)

def startTasks (primary : Bool) : List Task :=
  ⟨.load, false⟩ :: if primary then [⟨.publish, false⟩] else []

/-- `syncOnce` -/
def syncTasks (primary : Bool) : List Task :=
  [⟨if primary then .republish else .syncPublished, false⟩, ⟨.ensureRegion, false⟩]

def cut (k : Disk) (acts : List Act) (begun : Option ℕ) : Disk :=
  match acts.head?, begun with
  | some a, some n => k.tear n a
  | _, _ => k

def Hive.step (cfg : Config) (primary : Bool) (h : Hive) : Event → Hive
  | .start =>
    match h.process with
    | .down => { h with process := .up false [] (startTasks primary) }
    | .up .. => h
  | .request r =>
    match h.process with
    | .up true [] [] => if primary then { h with process := .up true [] r.tasks } else h
    | _ => h
  | .syncRound =>
    match h.process with
    | .up true [] [] => { h with process := .up true [] (syncTasks primary) }
    | _ => h
  | .work now =>
    match h.process with
    | .up serving (a :: acts) tasks =>
      { disk := h.disk.perform a, process := .up serving acts tasks }
    | .up serving [] (t :: tasks) =>
      match plan cfg now h.disk t.op with
      | .ok (acts, more) => { h with process := .up serving acts (more ++ tasks) }
      | .error _ => { h with process := .up serving [] (if t.strict then [] else tasks) }
    | .up _ [] [] => { h with process := .up true [] [] }
    | .down => h
  | .crash begun =>
    match h.process with
    | .up _ acts _ => { disk := cut h.disk acts begun, process := .down }
    | .down => h

/-- A completed compile: its wasm and the entrypoint it was made for. -/
structure Compiled where
  wasm : Bytes
  entrypoint : String

def Op.completes (cfg : Config) : Op → Option Compiled
  | .compile _ rego entrypoint =>
    if rego = "" then none
    else
      match compileRego cfg rego (compiledEntrypoint entrypoint) with
      | .error _ => none
      | .ok wasm => some ⟨wasm, compiledEntrypoint entrypoint⟩
  | _ => none

def Hive.completes (cfg : Config) (h : Hive) : Event → Option Compiled
  | .work _ =>
    match h.process with
    | .up _ [] (t :: _) => t.op.completes cfg
    | _ => none
  | _ => none

def primaryHiveID : String := "motherbee"

/-- The hives, with every compile completed so far and every state the motherbee's folder has been
in, which is what the sync may still be carrying. -/
structure System where
  hives : String → Hive := fun _ => {}
  compiled : List Compiled := []
  published : List Dist := [{}]

inductive SystemEvent where
  | on (hive : String) (e : Event)
  /-- The sync brings a hive the manifest, or one wasm file, of a state of the motherbee's folder;
  a file that state does not have is removed. -/
  | carryManifest (hive : String) (k : ℕ)
  | carryWasm (hive : String) (k : ℕ) (name : String)

def Dist.takeManifest (d source : Dist) : Dist := { d with manifest := source.manifest }

def Dist.takeWasm (d source : Dist) (name : String) : Dist :=
  match source.wasms.lookup name with
  | some data => d.write (.wasm name data)
  | none => d.write (.remove name)

namespace System

def setHive (s : System) (hive : String) (h : Hive) : System :=
  { s with hives := Function.update s.hives hive h }

def setDist (s : System) (hive : String) (d : Dist) : System :=
  let h := s.hives hive
  s.setHive hive { h with disk := { h.disk with dist := d } }

def step (cfg : Config) (s : System) : SystemEvent → System
  | .on hive e =>
    let h := s.hives hive
    let next := h.step cfg (hive == primaryHiveID) e
    { hives := Function.update s.hives hive next
      compiled := s.compiled ++ (h.completes cfg e).toList
      published := if hive = primaryHiveID then s.published ++ [next.disk.dist] else s.published }
  | .carryManifest hive k =>
    if hive = primaryHiveID then s
    else s.setDist hive ((s.hives hive).disk.dist.takeManifest ((s.published[k]?).getD {}))
  | .carryWasm hive k name =>
    if hive = primaryHiveID then s
    else s.setDist hive ((s.hives hive).disk.dist.takeWasm ((s.published[k]?).getD {}) name)

end System

end Fluxbee.Opa
