import Fluxbee.Opa.Convergence

/-! What the answers of `sy-opa-rules` say of the routers' region, when any file operation may
fail. -/
namespace Fluxbee.Opa
open Text List Option Disk PolicyDir

/-- The write that fails, if one does, and how far it got, if it was begun. -/
abbrev Fault := Option (ℕ × Option ℕ)

structure Reads where
  wasm : Bool := true
  rego : Bool := true
  info : Bool := true

def PolicyDir.seen (r : Reads) (d : PolicyDir) : PolicyDir where
  wasm := d.wasm.filter fun _ => r.wasm
  rego := d.rego.filter fun _ => r.rego
  info := d.info.filter fun _ => r.info

/-- What fails while one request or one round is worked off: `source` are the reads of `staged` or
`backup`, `published` those of `current` by a publication or a sync, `ensured` by the repair of the
region, `answered` for the answer. -/
structure Faults where
  source : Reads := {}
  published : Reads := {}
  ensured : Reads := {}
  answered : Reads := {}
  manifest : Bool := true
  staging : Fault := none
  copying : Fault := none
  installing : Fault := none
  publishing : Fault := none
  text : String := ""

inductive Answer where
  | ok (hash : String)
  | error (code detail : String)
  | none
  deriving DecidableEq

/-- Writes up to the one that fails. The region is memory, and a removal that fails is let be. -/
def Disk.runFailing (k : Disk) (acts : List Act) (fault : Fault) : Disk × Bool :=
  match fault with
  | none => (k.run acts, true)
  | some (i, begun) =>
    match acts[i]? with
    | none | some (.region _) => (k.run acts, true)
    | some (.dist (.remove _)) => (k.run (acts.eraseIdx i), true)
    | some a => (cut (k.run (acts.take i)) [a] begun, false)

section
variable (cfg : Config) (now : String) (f : Faults)

section
variable (k : Disk)

def Disk.sees (dir : Dir) (r : Reads) : Disk := k.setDir dir ((k.dirs dir).seen r)

def install (copied : ℕ) (planned : Except OpaError (List Act)) : Disk × Option OpaError :=
  match planned with
  | .error e => (k, some e)
  | .ok acts =>
    match (k.runFailing (acts.take copied) f.copying).1.runFailing (acts.drop copied)
        f.installing with
    | (after, true) => (after, none)
    | (after, false) => (after, some ⟨"SHM_ERROR", f.text⟩)

def installStaged (version : ℕ) : Disk × Option OpaError :=
  install f k (copyDir (k.dirs .current) .backup).length
    (applyPolicy cfg (k.sees .staged f.source) now version)

/-- The publication after an install, and the answer, which names `hash` or else what is read. -/
def publishAndAnswer (hash : Option String) : Disk × Answer :=
  match k.runFailing (publishPolicy cfg (k.sees .current f.published) now) f.publishing with
  | (after, false) => (after, .error "PUBLISH_FAILED" f.text)
  | (after, true) =>
    (after, .ok (hash.getD (currentHash cfg ((after.dirs .current).seen f.answered))))

def answerInstall (installed : Disk × Option OpaError) (hash : Option String) : Disk × Answer :=
  match installed with
  | (after, some e) => (after, .error e.code e.detail)
  | (after, none) => publishAndAnswer cfg now f after hash

def serve : Request → Disk × Answer
  | .compile version rego entrypoint autoApply =>
    match compileRego cfg rego (compiledEntrypoint entrypoint),
        compilePolicy cfg now version rego entrypoint with
    | .ok wasm, .ok acts =>
      match k.runFailing acts f.staging with
      | (after, false) => (after, .error "SHM_ERROR" f.text)
      | (after, true) =>
        if autoApply then
          answerInstall cfg now f (installStaged cfg now f after version) (some (hashOf cfg wasm))
        else (after, .ok (hashOf cfg wasm))
    | _, .error e => (k, .error e.code e.detail)
    | .error e, _ => (k, .error "COMPILE_ERROR" e)
  | .apply version => answerInstall cfg now f (installStaged cfg now f k version) none
  | .rollback =>
    answerInstall cfg now f (install f k 0 (rollbackPolicy cfg (k.sees .backup f.source) now)) none
  | .clear => answerInstall cfg now f (install f k 0 (.ok (clearPolicy cfg))) none

def Faults.reads : Disk :=
  { k.sees .current f.published with
    dist := if f.manifest then k.dist else { k.dist with manifest := none } }

end

def syncFailing (primary : Bool) (k : Disk) : Disk :=
  if primary then (k.runFailing (republishIfStale cfg (f.reads k) now) f.publishing).1
  else
    match k.runFailing (syncFromPublishedPolicy cfg (f.reads k)).1 f.staging with
    | (after, false) => after
    | (after, true) =>
      match (syncFromPublishedPolicy cfg (f.reads k)).2 with
      | ⟨.apply version, _⟩ :: _ => (installStaged cfg now f after version).1
      | _ => after

/-- A sync round, and the answer to a notice of a policy's hash. -/
def serveNotice (primary : Bool) (k : Disk) (hash : String) : Disk × Answer :=
  let synced := syncFailing cfg now f primary k
  let after := synced.run (ensureRegionMatchesCurrent cfg (synced.sees .current f.ensured))
  (after, if hash = currentHash cfg ((after.dirs .current).seen f.answered) then .ok hash else .none)

/-- A request that changes what runs, as opposed to a compile that only stages. -/
def Request.applies : Request → Prop
  | .compile _ _ _ autoApply => autoApply = true
  | _ => True

/-- An ok names the wasm of the region, or no hash where it has none. -/
def Answer.TrueOf (r : Region) : Answer → Prop
  | .ok hash => if hash = "" then r.wasm = [] else r.wasm ≠ [] ∧ hashOf cfg r.wasm = hash
  | _ => True

/-- The region's hash is the one of its wasm, as every whole write leaves it. -/
def Region.Consistent (r : Region) : Prop :=
  r.wasm = [] ∧ r.hash = zeroHash ∨
    r.wasm ≠ [] ∧ r.hash = cfg.sha256 r.wasm ∧ r.wasm.length ≤ opaMaxWasmSize

end

variable {wasm : Option Bytes}

section
variable {cfg : Config} {k : Disk} {acts : List Act} {fault : Fault}

def Act.IsFile (a : Act) : Prop := ∃ dir w first, a = .file dir w first

theorem rewriteDir_isFile (dir : Dir) (ws : List FileWrite) : ∀ a ∈ rewriteDir dir ws, a.IsFile := by
  intro a ha
  cases ws with
  | nil => cases ha
  | cons w ws =>
    rcases mem_cons.mp ha with rfl | ha
    · exact ⟨_, _, _, rfl⟩
    · obtain ⟨w', -, rfl⟩ := List.mem_map.mp ha
      exact ⟨_, _, _, rfl⟩

theorem Disk.run_files (h : ∀ a ∈ acts, a.IsFile) :
    (k.run acts).region = k.region ∧ (k.run acts).dist = k.dist := by
  induction acts generalizing k with
  | nil => exact ⟨rfl, rfl⟩
  | cons a acts ih =>
    obtain ⟨dir, w, first, rfl⟩ := h _ (mem_cons_self ..)
    exact @ih (k.perform (.file dir w first)) fun a ha => h a (mem_cons_of_mem _ ha)

variable (k fault) in
theorem runFailing_cases (files : List Act) (ws : List RegionWrite)
    (hfiles : ∀ a ∈ files, a.IsFile) :
    (k.runFailing (files ++ ws.map .region) fault = ((k.run files).run (ws.map .region), true)) ∨
      (k.runFailing (files ++ ws.map .region) fault).2 = false ∧
        (k.runFailing (files ++ ws.map .region) fault).1.region = k.region := by
  unfold runFailing
  cases fault with
  | none => exact .inl (by rw [run_append])
  | some at_ =>
    obtain ⟨i, begun⟩ := at_
    by_cases hi : i < files.length
    · have hget : (files ++ ws.map Act.region)[i]? = some files[i] := by
        rw [getElem?_append_left hi, getElem?_eq_getElem hi]
      have hmem := getElem_mem hi
      have hrun : (k.run ((files ++ ws.map Act.region).take i)).region = k.region := by
        rw [take_append_of_le_length hi.le]
        exact (run_files fun a ha => hfiles a (mem_of_mem_take ha)).1
      right
      obtain ⟨dir, w, first, ha⟩ := hfiles _ hmem
      simp only [hget, ha, true_and]
      cases begun with
      | none | some n => exact hrun
    · left
      have hlate : (files ++ ws.map Act.region)[i]? = none ∨
          ∃ w, (files ++ ws.map Act.region)[i]? = some (.region w) := by
        rw [getElem?_append_right (by omega), getElem?_map]
        cases ws[i - files.length]? with
        | none => exact .inl rfl
        | some w => exact .inr ⟨w, rfl⟩
      rcases hlate with h | ⟨w, h⟩ <;> simp only [h, run_append]

/-- The region as a whole write of a policy leaves it. -/
def Region.Written (cfg : Config) (r : Region) (wasm : Option Bytes) : Prop :=
  ∃ (before : Disk) (version : ℕ) (entrypoint : String),
    r = (before.run (writePolicy cfg version wasm entrypoint)).region

def roomFor (wasm : Bytes) : Bytes := if wasm.length ≤ opaMaxWasmSize then wasm else []

theorem Region.Written.wasm_eq {r : Region} (h : r.Written cfg wasm) :
    r.wasm = roomFor (wasm.getD []) := by
  obtain ⟨before, version, entrypoint, rfl⟩ := h
  cases wasm with
  | none => exact (region_emptied cfg before none nofun version entrypoint).1
  | some w =>
    by_cases hsize : w.length ≤ opaMaxWasmSize
    · rw [(region_writePolicy cfg before hsize version entrypoint).1]
      exact (if_pos hsize).symm
    · rw [(region_emptied cfg before (some w) (fun w' hw' => by cases hw'; omega) version
        entrypoint).1]
      exact (if_neg hsize).symm

theorem Region.Written.consistent {r : Region} (h : r.Written cfg wasm)
    (hne : ∀ w ∈ wasm, w ≠ []) : r.Consistent cfg := by
  obtain ⟨before, version, entrypoint, rfl⟩ := h
  cases wasm with
  | none =>
    exact .inl (region_emptied cfg before none nofun version entrypoint)
  | some w =>
    by_cases hsize : w.length ≤ opaMaxWasmSize
    · obtain ⟨hw, hhash, -⟩ := region_writePolicy cfg before hsize version entrypoint
      exact .inr (by rw [hw, hhash]; exact ⟨hne w rfl, rfl, hsize⟩)
    · exact .inl (region_emptied cfg before (some w) (fun w' hw' => by cases hw'; omega) version
        entrypoint)

end

section
variable {cfg : Config} {now : String} {f : Faults} {k after : Disk} {acts : List Act}

theorem loadable_of_checkWasm {wasm : Bytes} (h : checkWasm wasm = .ok ()) : Loadable wasm := by
  unfold checkWasm at h
  split at h
  next => cases h
  next hvalid =>
    split_ifs at h with hexport
    exact ⟨hvalid, hexport⟩

/-- The writes of an install: a copy, the files of the current policy, and the region. -/
structure Installs (cfg : Config) (wasm : Bytes) (copy acts : List Act) : Prop where
  loadable : Loadable wasm
  eq : ∃ info rego version entrypoint, acts = copy ++
    (writePolicyFiles .current wasm info rego ++ writePolicy cfg version (some wasm) entrypoint)

theorem applyPolicy_installs {version : ℕ} (h : applyPolicy cfg k now version = .ok acts) :
    ∃ wasm, (k.dirs .staged).wasm = some wasm ∧
      Installs cfg wasm (copyDir (k.dirs .current) .backup) acts := by
  unfold applyPolicy at h
  cases hwasm : (k.dirs .staged).wasm with
  | none =>
    simp only [hwasm] at h
    cases h
  | some wasm =>
    simp only [hwasm] at h
    by_cases hversion : version ≠ 0 ∧ (readMetadata (k.dirs .staged).info).version ≠ 0 ∧
        version ≠ (readMetadata (k.dirs .staged).info).version
    · rw [if_pos hversion] at h
      cases h
    · rw [if_neg hversion] at h
      cases hcheck : checkWasm wasm with
      | error e =>
        rw [hcheck] at h
        cases h
      | ok u =>
        rw [hcheck] at h
        cases h
        exact ⟨wasm, rfl, loadable_of_checkWasm hcheck, _, _, _, _, append_assoc ..⟩

theorem rollbackPolicy_installs (h : rollbackPolicy cfg k now = .ok acts) :
    ∃ wasm, (k.dirs .backup).wasm = some wasm ∧ Installs cfg wasm [] acts := by
  unfold rollbackPolicy at h
  cases hwasm : (k.dirs .backup).wasm with
  | none =>
    simp only [hwasm] at h
    cases h
  | some wasm =>
    simp only [hwasm] at h
    cases hcheck : checkWasm wasm with
    | error e =>
      rw [hcheck] at h
      cases h
    | ok u =>
      rw [hcheck] at h
      cases h
      exact ⟨wasm, rfl, loadable_of_checkWasm hcheck, _, _, _, _, rfl⟩

/-- An install that is through has its wasm in `current` and wrote the region from it; one that
fails leaves the region. -/
def InstallEnds (cfg : Config) (wasm : Option Bytes) (k : Disk) (result : Disk × Option OpaError) :
    Prop :=
  (result.2 = none ∧ (result.1.dirs .current).wasm = wasm ∧ result.1.region.Written cfg wasm) ∨
    result.2 ≠ none ∧ result.1.region = k.region

variable (cfg f k) in
theorem install_ends {copy files : List Act} (version : ℕ)
    (entrypoint : String) (hcopy : ∀ a ∈ copy, a.IsFile) (hfiles : ∀ a ∈ files, a.IsFile)
    (hwasm : ∀ k : Disk, ((k.run files).dirs .current).wasm = wasm) :
    InstallEnds cfg wasm k (install f k copy.length
      (.ok (copy ++ (files ++ writePolicy cfg version wasm entrypoint)))) := by
  simp only [install, take_left, drop_left]
  have hcopied : (k.runFailing copy f.copying).1.region = k.region := by
    have hcases := runFailing_cases k f.copying copy [] hcopy
    rw [map_nil, append_nil] at hcases
    rcases hcases with heq | ⟨-, heq⟩
    · rw [heq]
      exact (run_files hcopy).1
    · exact heq
  generalize (k.runFailing copy f.copying).1 = copied at *
  have hcases : copied.runFailing (files ++ writePolicy cfg version wasm entrypoint) f.installing =
        ((copied.run files).run (writePolicy cfg version wasm entrypoint), true) ∨
      (copied.runFailing (files ++ writePolicy cfg version wasm entrypoint) f.installing).2 = false ∧
        (copied.runFailing (files ++ writePolicy cfg version wasm entrypoint) f.installing).1.region =
          copied.region :=
    runFailing_cases copied f.installing files (Region.header ..) hfiles
  generalize copied.runFailing (files ++ writePolicy cfg version wasm entrypoint) f.installing =
    result at *
  rcases hcases with rfl | ⟨hfailed, hregion⟩
  · refine .inl ⟨rfl, ?_, copied.run files, version, entrypoint, rfl⟩
    rw [run_writePolicy]
    exact hwasm copied
  · obtain ⟨after, through⟩ := result
    obtain rfl : through = false := hfailed
    exact .inr ⟨nofun, hregion.trans hcopied⟩

variable (f k) in
theorem Installs.ends {wasm : Bytes} {copy : List Act} (h : Installs cfg wasm copy acts)
    (hcopy : ∀ a ∈ copy, a.IsFile) :
    InstallEnds cfg (some wasm) k (install f k copy.length (.ok acts)) := by
  obtain ⟨info, rego, version, entrypoint, rfl⟩ := h.eq
  refine install_ends cfg f k version entrypoint hcopy (rewriteDir_isFile _ _) fun k => ?_
  rw [run_writePolicyFiles]
  exact congrArg PolicyDir.wasm (dirs_setDir ..)

theorem emptyDirs_isFile :
    ∀ a ∈ emptyDir .current ++ emptyDir .staged ++ emptyDir .backup, a.IsFile := by
  intro a ha
  rcases mem_append.mp ha with ha | ha
  · rcases mem_append.mp ha with ha | ha
    · exact rewriteDir_isFile _ _ a ha
    · exact rewriteDir_isFile _ _ a ha
  · exact rewriteDir_isFile _ _ a ha

variable (cfg f k) in
theorem clear_ends : InstallEnds cfg none k (install f k 0 (.ok (clearPolicy cfg))) := by
  refine @install_ends none cfg f k [] _ 0 "" nofun emptyDirs_isFile fun k => ?_
  rw [run_append, run_append, emptyDir, emptyDir, emptyDir,
    run_rewriteDir _ _ (by simp), run_rewriteDir _ _ (by simp),
    run_rewriteDir _ _ (by simp)]
  rfl

theorem InstallEnds.answer {result : Disk × Option OpaError}
    (h : InstallEnds cfg wasm k result) (hash : Option String) :
    (∃ after : Disk, (after.dirs .current).wasm = wasm ∧ after.region.Written cfg wasm ∧
        answerInstall cfg now f result hash = publishAndAnswer cfg now f after hash) ∨
      ∃ after code detail, answerInstall cfg now f result hash = (after, .error code detail) := by
  obtain ⟨after, failed⟩ := result
  rcases h with ⟨hnone, hcurrent, hregion⟩ | ⟨hfailed, -⟩
  · obtain rfl : failed = none := hnone
    exact .inl ⟨after, hcurrent, hregion, rfl⟩
  · cases failed with
    | none => exact absurd rfl hfailed
    | some e => exact .inr ⟨after, e.code, e.detail, rfl⟩

end

section
variable {cfg : Config} {now : String} {f : Faults} {k : Disk}

variable (k) in
theorem runFailing_dist (acts : List Act) (hdist : ∀ a ∈ acts, ∃ w, a = .dist w) (fault : Fault) :
    (k.runFailing acts fault).1.dirs = k.dirs ∧ (k.runFailing acts fault).1.region = k.region := by
  have hall : ∀ acts : List Act, (∀ a ∈ acts, ∃ w, a = .dist w) →
      (k.run acts).dirs = k.dirs ∧ (k.run acts).region = k.region := by
    intro acts hacts
    induction acts using List.reverseRecOn with
    | nil => exact ⟨rfl, rfl⟩
    | append_singleton acts a ih =>
      obtain ⟨w, rfl⟩ := hacts a (by simp)
      rw [run_append]
      exact ih fun a ha => hacts a (mem_append_left _ ha)
  unfold runFailing
  split
  · exact hall _ hdist
  next i begun =>
    split
    · exact hall _ hdist
    · exact hall _ hdist
    · exact hall _ fun a ha => hdist a (mem_of_mem_eraseIdx ha)
    next a _ _ hget =>
      obtain ⟨w, rfl⟩ := hdist a (mem_of_getElem? hget)
      cases begun with
      | none | some n => exact hall _ fun a ha => hdist a (mem_of_mem_take ha)

theorem publishPolicy_dist : ∀ a ∈ publishPolicy cfg k now, ∃ w, a = .dist w := by
  intro a ha
  obtain ⟨w, -, rfl⟩ := List.mem_map.mp ha
  exact ⟨w, rfl⟩

/-- The wasm an answer's hash is read from, none where the file is missing or empty. -/
def PolicyDir.readBack (d : PolicyDir) (reads : Reads) : Bytes := (d.seen reads).wasm.getD []

variable (cfg) in
theorem currentHash_readBack (d : PolicyDir) (reads : Reads) : currentHash cfg (d.seen reads) =
      if d.readBack reads = [] then "" else hashOf cfg (d.readBack reads) := by
  rw [currentHash, currentPolicy, readBack]
  cases (d.seen reads).wasm with
  | none => rfl
  | some wasm =>
    by_cases hnil : wasm = []
    · simp [hnil]
    · simp [hnil]

theorem trueOf_readBack (hcfg : cfg.Digests) (r : Region) (d : PolicyDir) (reads : Reads) :
    Answer.TrueOf cfg r (.ok (currentHash cfg (d.seen reads))) ↔ r.wasm = d.readBack reads := by
  rw [Answer.TrueOf, currentHash_readBack]
  by_cases hnil : d.readBack reads = []
  · rw [if_pos hnil, if_pos rfl, hnil]
  · rw [if_neg hnil, if_neg (hashOf_ne _)]
    constructor
    · rintro ⟨-, h⟩
      exact hashOf_inj hcfg h
    · intro h
      exact ⟨h ▸ hnil, by rw [h]⟩

def Request.source : Request → Option Dir
  | .apply _ => some .staged
  | .rollback => some .backup
  | _ => none

/-- A request answered with an ok reads back what the region took of the wasm it installed. -/
def ReadsBack (cfg : Config) (now : String) (f : Faults) (k : Disk) (r : Request) : Prop :=
  ∀ dir ∈ r.source, ∀ wasm ∈ (k.dirs dir).wasm, (∃ hash, (serve cfg now f k r).2 = .ok hash) →
    (wasm.length ≤ opaMaxWasmSize ↔ f.answered.wasm = true)

variable (cfg now f k) in
theorem publishAndAnswer_cases (hash : Option String) :
    (∃ after code, publishAndAnswer cfg now f k hash = (after, .error code f.text)) ∨
      ∃ after, after.region = k.region ∧ publishAndAnswer cfg now f k hash =
        (after, .ok (hash.getD (currentHash cfg ((k.dirs .current).seen f.answered)))) := by
  obtain ⟨hdirs, hregion⟩ := runFailing_dist k (publishPolicy cfg (k.sees .current f.published) now)
    publishPolicy_dist f.publishing
  unfold publishAndAnswer
  cases hrun : k.runFailing (publishPolicy cfg (k.sees .current f.published) now) f.publishing with
  | mk after through =>
    rw [hrun] at hdirs hregion
    cases through with
    | false => exact .inl ⟨after, _, rfl⟩
    | true =>
      refine .inr ⟨after, hregion, ?_⟩
      have hcurrent : after.dirs .current = k.dirs .current := congrFun hdirs _
      simp only [hcurrent]

theorem answer_installed (hcfg : cfg.Digests) {wasm : Bytes} (hne : wasm ≠ [])
    (hcurrent : (k.dirs .current).wasm = some wasm) (hregion : k.region.Written cfg (some wasm)) :
    let out := publishAndAnswer cfg now f k none
    Answer.TrueOf cfg out.1.region out.2 ↔ ((∃ hash, out.2 = .ok hash) →
      (wasm.length ≤ opaMaxWasmSize ↔ f.answered.wasm = true)) := by
  rcases publishAndAnswer_cases cfg now f k none with ⟨after, code, heq⟩ | ⟨after, hsame, heq⟩
  · rw [heq]
    exact ⟨fun _ h => (by obtain ⟨_, h⟩ := h; cases h), fun _ => trivial⟩
  · have hread : (k.dirs .current).readBack f.answered = if f.answered.wasm then wasm else [] := by
      simp only [readBack, seen, hcurrent, filter_some]
      split_ifs <;> rfl
    rw [heq]
    dsimp only
    rw [hsame, getD_none, trueOf_readBack hcfg, hregion.wasm_eq, getD_some, hread, roomFor]
    have hok : ∃ hash, (after, Answer.ok (currentHash cfg ((k.dirs .current).seen f.answered))).2 =
        .ok hash := ⟨_, rfl⟩
    by_cases hsize : wasm.length ≤ opaMaxWasmSize <;> by_cases hreads : f.answered.wasm = true <;>
      simp [hsize, hreads, hne, hne.symm]

variable (f) in
theorem answerInstall_iff (hcfg : cfg.Digests) {wasm : Bytes} {copy acts : List Act}
    (h : Installs cfg wasm copy acts) (hcopy : ∀ a ∈ copy, a.IsFile) :
    let out := answerInstall cfg now f (install f k copy.length (.ok acts)) none
    Answer.TrueOf cfg out.1.region out.2 ↔ ((∃ hash, out.2 = .ok hash) →
      (wasm.length ≤ opaMaxWasmSize ↔ f.answered.wasm = true)) := by
  rcases (h.ends f k hcopy).answer none with ⟨after, hcurrent, hregion, heq⟩ | ⟨_, _, _, heq⟩
  · rw [heq]
    exact answer_installed hcfg h.loadable.ne_nil hcurrent hregion
  · rw [heq]
    exact ⟨fun _ h => (by obtain ⟨_, h⟩ := h; cases h), fun _ => trivial⟩

theorem copyDir_isFile (d : PolicyDir) (dir : Dir) : ∀ a ∈ copyDir d dir, a.IsFile :=
  rewriteDir_isFile _ _

theorem compile_true {wasm : Bytes} (hsize : wasm.length ≤ opaMaxWasmSize) {version : ℕ}
    (hstaged : (k.dirs .staged).wasm = some wasm) :
    let out := answerInstall cfg now f (installStaged cfg now f k version) (some (hashOf cfg wasm))
    Answer.TrueOf cfg out.1.region out.2 := by
  unfold installStaged
  cases hplan : applyPolicy cfg (k.sees .staged f.source) now version with
  | error e => trivial
  | ok acts =>
    obtain ⟨read, hread, hinstalls⟩ := applyPolicy_installs hplan
    obtain rfl : read = wasm := by
      simp only [sees, dirs_setDir, seen, hstaged, filter_eq_some_iff, Option.some.injEq] at hread
      exact hread.1.symm
    have hends : InstallEnds cfg (some read) k
        (install f k (copyDir (k.dirs .current) .backup).length (.ok acts)) :=
      hinstalls.ends f k (copyDir_isFile _ _)
    rcases hends.answer (some (hashOf cfg read)) with ⟨after, -, hregion, heq⟩ | ⟨_, _, _, heq⟩
    · rw [heq]
      rcases publishAndAnswer_cases cfg now f after (some (hashOf cfg read)) with
        ⟨_, code, heq⟩ | ⟨_, hsame, heq⟩
      · rw [heq]
        trivial
      · rw [heq]
        dsimp only
        rw [hsame]
        have hwasm : after.region.wasm = read := by
          rw [hregion.wasm_eq]
          exact if_pos hsize
        show if hashOf cfg read = "" then after.region.wasm = [] else
          after.region.wasm ≠ [] ∧ hashOf cfg after.region.wasm = hashOf cfg read
        rw [if_neg (hashOf_ne read), hwasm]
        exact ⟨hinstalls.loadable.ne_nil, rfl⟩
    · rw [heq]
      trivial

variable (cfg now f k) in
theorem serve_iff (hcfg : cfg.Digests) (r : Request) (happlies : r.applies) :
    Answer.TrueOf cfg (serve cfg now f k r).1.region (serve cfg now f k r).2 ↔
      ReadsBack cfg now f k r := by
  -- the install of what is read from one of the two directories
  have hinstall : ∀ {dir : Dir} (copy : List Act) {planned : Except OpaError (List Act)},
      r.source = some dir → serve cfg now f k r =
          answerInstall cfg now f (install f k copy.length planned) none →
      (∀ a ∈ copy, a.IsFile) → (∀ acts, planned = .ok acts → ∃ wasm,
        ((k.dirs dir).seen f.source).wasm = some wasm ∧ Installs cfg wasm copy acts) →
      (Answer.TrueOf cfg (serve cfg now f k r).1.region (serve cfg now f k r).2 ↔
        ReadsBack cfg now f k r) := by
    intro dir copy planned hsource hserve hcopy hplanned
    rw [ReadsBack, hserve, hsource]
    cases planned with
    | error e => exact ⟨fun _ _ _ _ _ h => (by obtain ⟨_, h⟩ := h; cases h), fun _ => trivial⟩
    | ok acts =>
      obtain ⟨wasm, hread, hinstalls⟩ := hplanned acts rfl
      have hwasm : (k.dirs dir).wasm = some wasm := (filter_eq_some_iff.mp hread).1
      refine (answerInstall_iff f hcfg hinstalls hcopy).trans ⟨fun h d hd w hw => ?_, fun h =>
        h dir rfl wasm hwasm⟩
      cases hd
      obtain rfl : wasm = w := Option.some.inj (hwasm.symm.trans hw)
      exact h
  cases r with
  | compile version rego entrypoint autoApply =>
    obtain rfl : autoApply = true := happlies
    refine ⟨nofun, fun _ => ?_⟩
    simp only [serve]
    split
    next wasm acts hcompile hplan =>
      have hacts : ∃ info, acts = writePolicyFiles .staged wasm info rego := by
        unfold compilePolicy at hplan
        split_ifs at hplan
        rw [hcompile] at hplan
        cases hplan
        exact ⟨_, rfl⟩
      obtain ⟨info, rfl⟩ := hacts
      have hcases := runFailing_cases k f.staging (writePolicyFiles .staged wasm info rego) []
        (rewriteDir_isFile _ _)
      rw [map_nil, append_nil] at hcases
      generalize k.runFailing (writePolicyFiles .staged wasm info rego) f.staging = result at *
      rcases hcases with rfl | ⟨hfailed, -⟩
      · rw [run_nil, run_writePolicyFiles]
        exact compile_true (compileRego_ok hcompile).2 (congrArg PolicyDir.wasm (dirs_setDir ..))
      · obtain ⟨after, through⟩ := result
        obtain rfl : through = false := hfailed
        trivial
    · trivial
    · trivial
  | apply version =>
    refine hinstall _ rfl rfl (copyDir_isFile _ _) fun acts hacts => ?_
    obtain ⟨wasm, hread, hinstalls⟩ := applyPolicy_installs hacts
    exact ⟨wasm, by simpa [sees] using hread, hinstalls⟩
  | rollback =>
    refine hinstall [] rfl rfl nofun fun acts hacts => ?_
    obtain ⟨wasm, hread, hinstalls⟩ := rollbackPolicy_installs hacts
    exact ⟨wasm, by simpa [sees] using hread, hinstalls⟩
  | clear =>
    refine ⟨nofun, fun _ => ?_⟩
    simp only [serve]
    rcases (clear_ends cfg f k).answer none with ⟨after, hcurrent, hregion, heq⟩ | ⟨_, _, _, heq⟩
    · rw [heq]
      rcases publishAndAnswer_cases cfg now f after none with ⟨_, code, heq⟩ | ⟨_, hsame, heq⟩
      · rw [heq]
        trivial
      · rw [heq, hsame, getD_none, trueOf_readBack hcfg, hregion.wasm_eq]
        simp [readBack, seen, hcurrent, roomFor]
    · rw [heq]
      trivial

def repaired (k : Disk) (reads : Reads) : Bytes :=
  let wasm := (k.dirs .current).readBack reads
  if wasm = [] then [] else if Loadable wasm then roomFor wasm else k.region.wasm

theorem region_repaired (hcfg : cfg.Digests) (hk : k.region.Consistent cfg) (reads : Reads) :
    (k.run (ensureRegionMatchesCurrent cfg (k.sees .current reads))).region.wasm =
      repaired k reads := by
  have hdir : (k.sees .current reads).dirs .current = (k.dirs .current).seen reads := dirs_setDir ..
  have hregion : (k.sees .current reads).region = k.region := rfl
  unfold repaired
  cases hpolicy : currentPolicy cfg ((k.dirs .current).seen reads) with
  | none =>
    have hnil : (k.dirs .current).readBack reads = [] := by
      by_contra hne
      have hhash := currentHash_readBack cfg (k.dirs .current) reads
      rw [if_neg hne, currentHash, hpolicy] at hhash
      exact hashOf_ne _ hhash.symm
    rw [if_pos hnil, ensureRegion_none (hdir ▸ hpolicy), hregion]
    split_ifs with hzero
    · rcases hk with ⟨hempty, -⟩ | ⟨-, hhash, -⟩
      · exact hempty
      · exact absurd (hhash.symm.trans hzero) (hcfg.nonzero _)
    · exact (region_emptied cfg k none (by simp) 0 "").1
  | some p =>
    obtain ⟨info, wasm⟩ := p
    obtain ⟨hread, hne, -⟩ := currentPolicy_some hpolicy
    have hback : (k.dirs .current).readBack reads = wasm := by rw [readBack, hread]; rfl
    rw [hback, if_neg hne]
    split_ifs with hload
    · rw [ensureRegion_some hload (hdir ▸ hpolicy), hregion]
      split_ifs with hsame
      · rcases hk with ⟨-, hzero⟩ | ⟨-, hhash, hsize⟩
        · exact absurd (hsame.symm.trans hzero) (hcfg.nonzero _)
        · obtain hwasm := hcfg.injective (hhash.symm.trans hsame)
          rw [run_nil, hwasm]
          exact (if_pos (hwasm ▸ hsize)).symm
      · exact Region.Written.wasm_eq ⟨k, _, _, rfl⟩
    · have hbad : ∃ e, installedPolicy cfg ((k.dirs .current).seen reads) = .error e := by
        cases hinstalled : installedPolicy cfg ((k.dirs .current).seen reads) with
        | error e => exact ⟨e, rfl⟩
        | ok policy =>
          obtain ⟨hcurrent, hall⟩ := currentPolicy_of_installed hinstalled
          exact absurd (hall (info, wasm) (hcurrent ▸ hpolicy)) hload
      obtain ⟨e, he⟩ := hbad
      rw [ensureRegionMatchesCurrent, hdir, he]
      rfl

variable (cfg now f) in
theorem syncFailing_consistent (primary : Bool) (hk : k.region.Consistent cfg) :
    (syncFailing cfg now f primary k).region.Consistent cfg := by
  unfold syncFailing
  generalize f.reads k = read
  split_ifs
  · have hdist : ∀ a ∈ republishIfStale cfg read now, ∃ w, a = .dist w := by
      unfold republishIfStale
      split
      · exact nofun
      · split_ifs
        · exact nofun
        · exact publishPolicy_dist
    rw [(runFailing_dist k _ hdist f.publishing).2]
    exact hk
  · -- the sync clears the policy, or stages what it then installs, or does nothing
    have hfirst : (k.runFailing (syncFromPublishedPolicy cfg read).1 f.staging).1.region.Consistent
        cfg := by
      have hacts : ∃ files ws, (syncFromPublishedPolicy cfg read).1 = files ++ ws.map .region ∧
          (∀ a ∈ files, a.IsFile) ∧ (ws = [] ∨ ws = Region.header cfg 0 none "") := by
        unfold syncFromPublishedPolicy
        have hnone : ∃ files ws, ([] : List Act) = files ++ ws.map .region ∧
            (∀ a ∈ files, a.IsFile) ∧ (ws = [] ∨ ws = Region.header cfg 0 none "") :=
          ⟨[], [], rfl, nofun, .inl rfl⟩
        split
        · exact hnone
        · split_ifs
          · exact hnone
          · exact ⟨_, _, rfl, emptyDirs_isFile, .inr rfl⟩
          · exact hnone
          · split
            · exact hnone
            · split_ifs
              · exact hnone
              · exact ⟨writePolicyFiles .staged _ _ "", [], (append_nil _).symm,
                  rewriteDir_isFile _ _, .inl rfl⟩
      obtain ⟨files, ws, heq, hfiles, hws⟩ := hacts
      rw [heq]
      rcases runFailing_cases k f.staging files ws hfiles with hrun | ⟨-, hregion⟩
      · rw [hrun]
        rcases hws with rfl | rfl
        · rw [map_nil, run_nil, (run_files hfiles).1]
          exact hk
        · have hwritten : ((k.run files).run (writePolicy cfg 0 none "")).region.Written cfg none :=
            ⟨k.run files, 0, "", rfl⟩
          exact hwritten.consistent nofun
      · rw [hregion]
        exact hk
    split
    next after hrun => rw [hrun] at hfirst; exact hfirst
    next after hrun =>
      rw [hrun] at hfirst
      split
      next version _ rest hmore =>
        unfold installStaged
        cases hplan : applyPolicy cfg (after.sees .staged f.source) now version with
        | error e => exact hfirst
        | ok acts =>
          obtain ⟨wasm, -, hinstalls⟩ := applyPolicy_installs hplan
          rcases hinstalls.ends f after (copyDir_isFile _ _) with ⟨-, -, hw⟩ | ⟨-, hsame⟩
          · exact hw.consistent fun w hw' => by cases hw'; exact hinstalls.loadable.ne_nil
          · exact hsame ▸ hfirst
      next => exact hfirst

inductive Call where
  | request (r : Request) (applies : r.applies)
  | notice (primary : Bool) (hash : String)

section
variable (cfg : Config) (now : String) (f : Faults) (k : Disk)

def Call.serve : Call → Disk × Answer
  | .request r _ => Opa.serve cfg now f k r
  | .notice primary hash => serveNotice cfg now f primary k hash

/-- A notice that is answered reads back what the repair left in the region. -/
def Call.Truthful : Call → Prop
  | .request r _ => ReadsBack cfg now f k r
  | .notice primary hash =>
    let synced := syncFailing cfg now f primary k
    hash = currentHash cfg ((synced.dirs .current).seen f.answered) →
      repaired synced f.ensured = (synced.dirs .current).readBack f.answered

end

/-- An ok names what the region carries exactly where it is read back as the region took it. -/
theorem ok_means_running_iff (hcfg : cfg.Digests) (hk : k.region.Consistent cfg) (call : Call) :
    Answer.TrueOf cfg (call.serve cfg now f k).1.region (call.serve cfg now f k).2 ↔
      call.Truthful cfg now f k := by
  cases call with
  | request r applies => exact serve_iff cfg now f k hcfg r applies
  | notice primary hash =>
    have hsynced := syncFailing_consistent cfg now f primary hk
    simp only [Call.serve, serveNotice, Call.Truthful]
    generalize syncFailing cfg now f primary k = synced at *
    have hdirs : (synced.run (ensureRegionMatchesCurrent cfg
        (synced.sees .current f.ensured))).dirs = synced.dirs :=
      ensureRegion_only.1
    rw [hdirs]
    split_ifs with hhash
    · rw [hhash, trueOf_readBack hcfg, region_repaired hcfg hsynced]
      exact ⟨fun h _ => h, fun h => h rfl⟩
    · exact ⟨fun _ h => absurd h hhash, fun _ => trivial⟩

end

namespace Rounds

def only (dir : Dir) (wasm : Bytes) : Disk where
  dirs := fun d => if d = dir then ⟨some wasm, none, some (.whole info)⟩ else {}

end Rounds

/-- The read of what was just installed fails, and the ok names no policy; a notice of a policy that
does not load is answered although the repair passed it over. -/
theorem ok_without_running :
    ((serve Rounds.cfg "t" { answered := { wasm := false } } (Rounds.only .staged Rounds.policy)
        (.apply 3)).2 = .ok "" ∧
      (serve Rounds.cfg "t" { answered := { wasm := false } } (Rounds.only .staged Rounds.policy)
        (.apply 3)).1.region.wasm = Rounds.policy) ∧
    (serveNotice Rounds.cfg "t" {} false (Rounds.only .current [1]) (hashOf Rounds.cfg [1])).2 =
        .ok (hashOf Rounds.cfg [1]) ∧
      (serveNotice Rounds.cfg "t" {} false (Rounds.only .current [1])
        (hashOf Rounds.cfg [1])).1.region.wasm = [] := by
  decide +kernel

theorem ok_means_running_apply :
    Answer.TrueOf Rounds.cfg (Call.serve Rounds.cfg "t" {} (Rounds.only .staged Rounds.policy)
          (.request (.apply 3) trivial)).1.region
        (Call.serve Rounds.cfg "t" {} (Rounds.only .staged Rounds.policy)
          (.request (.apply 3) trivial)).2 ↔
      Call.Truthful Rounds.cfg "t" {} (Rounds.only .staged Rounds.policy)
        (.request (.apply 3) trivial) :=
  ok_means_running_iff Rounds.cfg_digests (.inl ⟨rfl, rfl⟩) _

end Fluxbee.Opa
