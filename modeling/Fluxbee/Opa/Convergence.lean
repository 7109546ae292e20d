import Fluxbee.Opa.Whole

/-! The distribution of the policy: one sync round of the motherbee, its folder carried to another
hive, and one sync round there, from any content of the folder, of that hive's directories and of
its routers' region. -/
namespace Fluxbee.Opa
open Text List Option Disk String

section
variable {wasm : Bytes} {d : PolicyDir} {policy : Option (PolicyMetadata × Bytes)}

/-- The digest tells wasms apart, and none has the digest of an empty region. -/
structure Config.Digests (cfg : Config) : Prop where
  injective : Function.Injective cfg.sha256
  nonzero : ∀ wasm, cfg.sha256 wasm ≠ zeroHash

/-- The digest is written without a slash. -/
def Config.Plain (cfg : Config) : Prop := ∀ wasm, '/' ∉ (cfg.sha256 wasm).toList

def Disk.run (k : Disk) (acts : List Act) : Disk := acts.foldl Disk.perform k

section
variable (cfg : Config) (now : String)

def Disk.attempt (k : Disk) (planned : Except OpaError (List Act × List Task)) : Disk × List Task :=
  match planned with
  | .ok (acts, more) => (k.run acts, more)
  | .error _ => (k, [])

/-- An operation with no write failing, and the operations that follow from it. -/
def Disk.does (k : Disk) (op : Op) : Disk :=
  let (after, more) := k.attempt (plan cfg now k op)
  more.foldl (fun k t => (k.attempt (plan cfg now k t.op)).1) after

def Disk.syncOnce (primary : Bool) (k : Disk) : Disk :=
  (k.does cfg now (if primary then .republish else .syncPublished)).does cfg now .ensureRegion

end

/-- A version that was never set counts as the first, in a manifest and at a start. -/
def PolicyMetadata.versionOr (info : PolicyMetadata) : ℕ :=
  if info.version = 0 then 1 else info.version

/-- The region has one wasm with its version and entrypoint. -/
def Region.Carries (r : Region) (version : ℕ) (wasm : Bytes) (entrypoint : String) : Prop :=
  r.wasm = wasm ∧ r.version = version ∧ r.entrypoint = asBytes entrypoint

/-- A hive's installed policy and its routers' region are the policy given, or both are none. -/
def Carries (cfg : Config) (k : Disk) : Option (PolicyMetadata × Bytes) → Prop
  | none => currentPolicy cfg (k.dirs .current) = none ∧ k.region.wasm = []
  | some (info, wasm) =>
    (∃ own, currentPolicy cfg (k.dirs .current) = some (own, wasm) ∧
      own.version = info.versionOr ∧ own.entrypointOr = info.entrypointOr) ∧
      k.region.Carries info.versionOr wasm info.entrypointOr

/-- After a round of the motherbee and, its folder carried over, one of the hive, the hive has the
motherbee's policy and no later round changes either. -/
def Converges (cfg : Config) (now now' : String) (m h : Disk)
    (policy : Option (PolicyMetadata × Bytes)) : Prop :=
  let mother := m.syncOnce cfg now true
  let hive := Disk.syncOnce cfg now' false { h with dist := mother.dist }
  Carries cfg hive policy ∧ (∀ later, hive.syncOnce cfg later false = hive) ∧
    ∀ later, mother.syncOnce cfg later true = mother

/-- What no hash tells: the region's other fields where its hash is right, the metadata of a hive
that has the wasm already, and the rest of a folder whose manifest names the wasm's hash. -/
def Repairable (cfg : Config) (m h : Disk) : Option (PolicyMetadata × Bytes) → Prop
  | none =>
    currentPolicy cfg (h.dirs .current) = none → h.region.hash = zeroHash → h.region.wasm = []
  | some (info, wasm) =>
    wasm.length ≤ opaMaxWasmSize ∧ (asBytes info.entrypointOr).length ≤ 64 ∧
      if currentHash cfg (h.dirs .current) = hashOf cfg wasm then
        (readMetadata (h.dirs .current).info).version = info.versionOr ∧
          (readMetadata (h.dirs .current).info).entrypointOr = info.entrypointOr ∧
          (h.region.hash = cfg.sha256 wasm →
            h.region.Carries info.versionOr wasm info.entrypointOr)
      else
        ∀ manifest ∈ m.dist.manifest, manifest.hash = hashOf cfg wasm →
          manifest.version = info.versionOr ∧
            (if manifest.entrypoint = "" then defaultEntrypoint else manifest.entrypoint) =
              info.entrypointOr ∧
            m.dist.wasms.lookup (filepathBase manifest.wasmFile) = some wasm

section
variable {cfg : Config} {k : Disk} {now : String}

namespace Disk

@[simp] theorem run_nil : k.run [] = k := rfl

theorem run_append (acts acts' : List Act) : k.run (acts ++ acts') = (k.run acts).run acts' :=
  foldl_append

theorem run_rewriteDir (dir : Dir) (ws : List FileWrite) (h : ws ≠ []) :
    k.run (rewriteDir dir ws) = k.setDir dir (ws.foldl PolicyDir.write (k.dirs dir)) := by
  have hrest : ∀ (ws : List FileWrite) (k : Disk), k.run (ws.map fun w => .file dir w false) =
        k.setDir dir (ws.foldl PolicyDir.write (k.dirs dir)) := by
    intro ws
    induction ws with
    | nil => intro k; simp [run, setDir]
    | cons w ws ih =>
      intro k
      show (k.perform (.file dir w false)).run _ = _
      rw [ih, perform, dirs_setDir, setDir_setDir, foldl_cons]
  cases ws with
  | nil => exact absurd rfl h
  | cons w ws =>
    show (k.perform (.file dir w true)).run _ = _
    rw [hrest, perform, dirs_setDir, setDir_setDir, foldl_cons]

theorem run_writePolicyFiles (dir : Dir) (wasm : Bytes) (info : PolicyMetadata)
    (rego : String) : k.run (writePolicyFiles dir wasm info rego) =
      k.setDir dir ⟨some wasm, if rego = "" then none else some rego, some (.whole info)⟩ :=
  run_rewriteDir dir _ (by simp)

theorem run_writePolicy (version : ℕ) (wasm : Option Bytes) (entrypoint : String) :
    k.run (writePolicy cfg version wasm entrypoint) =
      { k with region := List.foldl Region.write k.region (Region.header cfg version
          (wasm.filter fun w => w.length ≤ opaMaxWasmSize) entrypoint) } :=
  foldl_region _

variable (k cfg) in
theorem run_clearPolicy : k.run (clearPolicy cfg) =
    run (((k.setDir .current {}).setDir .staged {}).setDir .backup {})
      (writePolicy cfg 0 none "") := by
  rw [clearPolicy, run_append, run_append, run_append, emptyDir, emptyDir,
    emptyDir, run_rewriteDir _ _ (by simp), run_rewriteDir _ _ (by simp),
    run_rewriteDir _ _ (by simp)]
  rfl

end Disk

variable (cfg k) in
theorem region_writePolicy (hsize : wasm.length ≤ opaMaxWasmSize) (version : ℕ)
    (entrypoint : String) :
    let region := (k.run (writePolicy cfg version (some wasm) entrypoint)).region
    region.wasm = wasm ∧ region.hash = cfg.sha256 wasm ∧ region.version = version ∧
      region.entrypoint = (asBytes entrypoint).take 64 := by
  have hfits : (some wasm).filter (fun w => decide (w.length ≤ opaMaxWasmSize)) = some wasm := by
    simp [hsize]
  rw [run_writePolicy, hfits]
  simp [Region.header, Region.write, Region.wasm]

variable (cfg k) in
theorem region_emptied (wasm : Option Bytes) (h : ∀ w ∈ wasm, opaMaxWasmSize < w.length)
    (version : ℕ) (entrypoint : String) :
    (k.run (writePolicy cfg version wasm entrypoint)).region.wasm = [] ∧
      (k.run (writePolicy cfg version wasm entrypoint)).region.hash = zeroHash := by
  have hnone : wasm.filter (fun w => decide (w.length ≤ opaMaxWasmSize)) = none := by
    rw [filter_eq_none_iff]
    intro w hw
    have := h w hw
    simp
    omega
  rw [run_writePolicy, hnone]
  simp [Region.header, Region.write, Region.wasm]

theorem Disk.run_dist (ws : List DistWrite) :
    k.run (ws.map Act.dist) = { k with dist := ws.foldl Dist.write k.dist } := by
  induction ws generalizing k with
  | nil => rfl
  | cons w ws ih =>
    show (k.perform (.dist w)).run (ws.map Act.dist) = _
    rw [ih]
    rfl

theorem Dist.foldl_remove (d : Dist) (names : List String) :
    (names.map DistWrite.remove).foldl Dist.write d =
      { d with wasms := names.foldl (fun m name => m.erase name) d.wasms } := by
  induction names generalizing d with
  | nil => rfl
  | cons name names ih =>
    rw [map_cons, foldl_cons, ih]
    rfl

variable (cfg k now) in
theorem dist_publishPolicy :
    let policy := currentPolicy cfg (k.dirs .current)
    let k' := k.run (publishPolicy cfg k now)
    k'.dirs = k.dirs ∧ k'.region = k.region ∧ k'.dist.manifest = some (manifestOf now policy) ∧
      ∀ info wasm, policy = some (info, wasm) →
        k'.dist.wasms.lookup (wasmFileName info.hash) = some wasm := by
  rw [publishPolicy, run_dist, foldl_append, Dist.foldl_remove]
  refine ⟨rfl, rfl, ?_, ?_⟩
  · rw [foldl_append]
    rfl
  · intro info wasm hcurrent
    rw [AList.lookup_foldl_erase]
    rw [if_neg (by simp [hcurrent, manifestOf])]
    simp [hcurrent, manifestOf, Dist.write]

end

section
variable {cfg : Config}

theorem entrypointOr_ne (info : PolicyMetadata) : info.entrypointOr ≠ "" := by
  unfold PolicyMetadata.entrypointOr
  split_ifs with h
  · decide
  · exact h

theorem hashOf_ne (wasm : Bytes) : hashOf cfg wasm ≠ "" := by
  intro h
  have := congrArg String.length h
  simp [hashOf, String.length_append] at this

theorem hashOf_inj (hcfg : cfg.Digests) {wasm' : Bytes}
    (h : hashOf cfg wasm = hashOf cfg wasm') : wasm = wasm' := by
  have hlist := congrArg String.toList h
  simp only [hashOf, toList_append, append_cancel_left_eq] at hlist
  exact hcfg.injective (toList_injective hlist)

variable {info : PolicyMetadata}

theorem currentPolicy_some
    (h : currentPolicy cfg d = some (info, wasm)) : d.wasm = some wasm ∧ wasm ≠ [] ∧
      info = { readMetadata d.info with hash := hashOf cfg wasm, wasmSize := wasm.length } := by
  unfold currentPolicy at h
  split at h
  next => cases h
  next wasm' hwasm =>
    split_ifs at h with hnil
    cases h
    exact ⟨hwasm, hnil, rfl⟩

theorem currentPolicy_of_hash (hcfg : cfg.Digests)
    (h : currentHash cfg d = hashOf cfg wasm) : ∃ info, currentPolicy cfg d = some (info, wasm) ∧
      info = { readMetadata d.info with hash := hashOf cfg wasm, wasmSize := wasm.length } := by
  cases hcurrent : currentPolicy cfg d with
  | none =>
    rw [currentHash, hcurrent] at h
    exact absurd h.symm (hashOf_ne wasm)
  | some p =>
    obtain ⟨info, own⟩ := p
    obtain ⟨-, -, rfl⟩ := currentPolicy_some hcurrent
    rw [currentHash, hcurrent] at h
    obtain rfl := hashOf_inj hcfg h
    exact ⟨_, rfl, rfl⟩

theorem installedPolicy_some (hload : Loadable wasm) (h : currentPolicy cfg d = some (info, wasm)) :
    installedPolicy cfg d = .ok (some (info, wasm)) := by
  rw [installedPolicy, h]
  simp only [hload.1, hload.2, if_true]

theorem installedPolicy_none (h : currentPolicy cfg d = none) :
    installedPolicy cfg d = .ok none := by
  rw [installedPolicy, h]

theorem currentPolicy_of_installed (h : installedPolicy cfg d = .ok policy) :
    currentPolicy cfg d = policy ∧ ∀ p ∈ policy, Loadable p.2 := by
  unfold installedPolicy at h
  split at h
  next hnone =>
    cases h
    exact ⟨hnone, nofun⟩
  next info wasm hsome =>
    split at h
    next => cases h
    next hvalid =>
      split_ifs at h with hexport
      cases h
      refine ⟨hsome, fun p hp => ?_⟩
      cases hp
      exact ⟨hvalid, hexport⟩

end

section
variable {cfg : Config} {k : Disk} {now : String} {info : PolicyMetadata} {wasm : Bytes}

theorem ensureRegion_none (h : currentPolicy cfg (k.dirs .current) = none) :
    ensureRegionMatchesCurrent cfg k =
      if k.region.hash = zeroHash then [] else writePolicy cfg 0 none "" := by
  rw [ensureRegionMatchesCurrent, installedPolicy_none h]

theorem ensureRegion_some (hload : Loadable wasm)
    (h : currentPolicy cfg (k.dirs .current) = some (info, wasm)) :
    ensureRegionMatchesCurrent cfg k = if k.region.hash = cfg.sha256 wasm then []
      else writePolicy cfg info.version (some wasm) info.entrypointOr := by
  have hhash : info.hash = "sha256:" ++ cfg.sha256 wasm := by
    rw [(currentPolicy_some h).2.2]
    rfl
  have hsame : ("sha256:" ++ k.region.hash = info.hash) = (k.region.hash = cfg.sha256 wasm) := by
    rw [hhash, eq_iff_iff]
    constructor
    · intro heq
      have hlist := congrArg String.toList heq
      simp only [toList_append, append_cancel_left_eq] at hlist
      exact toList_injective hlist
    · exact congrArg _
  rw [ensureRegionMatchesCurrent, installedPolicy_some hload h]
  simp only [hsame]

theorem ensureRegion_only {seen : Disk} :
    (k.run (ensureRegionMatchesCurrent cfg seen)).dirs = k.dirs ∧
      (k.run (ensureRegionMatchesCurrent cfg seen)).dist = k.dist := by
  unfold ensureRegionMatchesCurrent
  split
  · exact ⟨rfl, rfl⟩
  · split_ifs
    · exact ⟨rfl, rfl⟩
    · rw [run_writePolicy]
      exact ⟨rfl, rfl⟩
  · split_ifs
    · exact ⟨rfl, rfl⟩
    · rw [run_writePolicy]
      exact ⟨rfl, rfl⟩

theorem ensureRegion_keeps : (k.run (ensureRegionMatchesCurrent cfg k)).dirs = k.dirs ∧
    (k.run (ensureRegionMatchesCurrent cfg k)).dist = k.dist := ensureRegion_only

def wantedHash (cfg : Config) : Option (PolicyMetadata × Bytes) → String
  | none => zeroHash
  | some (_, wasm) => cfg.sha256 wasm

section
variable (h : currentPolicy cfg (k.dirs .current) = policy)
include h

theorem ensureRegion_hash (hpolicy : ∀ p ∈ policy, Loadable p.2 ∧ p.2.length ≤ opaMaxWasmSize) :
    (k.run (ensureRegionMatchesCurrent cfg k)).region.hash = wantedHash cfg policy := by
  cases policy with
  | none =>
    rw [ensureRegion_none h]
    split_ifs with hzero
    · exact hzero
    · exact (region_emptied cfg k none nofun 0 "").2
  | some p =>
    obtain ⟨hload, hsize⟩ := hpolicy p rfl
    rw [ensureRegion_some hload h]
    split_ifs with hsame
    · exact hsame
    · exact (region_writePolicy cfg k hsize _ _).2.1

theorem ensureRegion_done (hload : ∀ p ∈ policy, Loadable p.2)
    (hhash : k.region.hash = wantedHash cfg policy) : ensureRegionMatchesCurrent cfg k = [] := by
  cases policy with
  | none => exact (ensureRegion_none h).trans (if_pos hhash)
  | some p => exact (ensureRegion_some (hload p rfl) h).trans (if_pos hhash)

theorem currentHash_eq :
    currentHash cfg (k.dirs .current) = (policy.map fun p => hashOf cfg p.2).getD "" := by
  rw [currentHash, h]
  cases policy with
  | none => rfl
  | some p =>
    have hinfo := (currentPolicy_some h).2.2
    simp only [map_some, getD_some, hinfo]

end

theorem mother_done (h : installedPolicy cfg (k.dirs .current) = .ok policy)
    (hman : k.dist.manifest.map (·.hash) = some (currentHash cfg (k.dirs .current)))
    (hhash : k.region.hash = wantedHash cfg policy) : k.syncOnce cfg now true = k := by
  obtain ⟨hcurrent, hload⟩ := currentPolicy_of_installed h
  have hrepublish : republishIfStale cfg k now = [] := by
    rw [republishIfStale, h]
    simp only [hman, if_true]
  show (k.run (republishIfStale cfg k now)).run
    (ensureRegionMatchesCurrent cfg (k.run (republishIfStale cfg k now))) = k
  rw [hrepublish]
  show k.run (ensureRegionMatchesCurrent cfg k) = k
  rw [ensureRegion_done hcurrent hload hhash]
  rfl

theorem hive_done {manifest : PolicyManifest}
    (h : currentPolicy cfg (k.dirs .current) = policy) (hload : ∀ p ∈ policy, Loadable p.2)
    (hman : k.dist.manifest = some manifest)
    (hnames : manifest.hash = currentHash cfg (k.dirs .current))
    (hhash : k.region.hash = wantedHash cfg policy) : k.syncOnce cfg now false = k := by
  have hsync : syncFromPublishedPolicy cfg k = ([], []) := by
    simp only [syncFromPublishedPolicy, hman]
    by_cases hempty : manifest.hash = ""
    · have hnone : currentPolicy cfg (k.dirs .current) = none := by
        cases hpolicy : currentPolicy cfg (k.dirs .current) with
        | none => rfl
        | some p =>
          rw [hnames, currentHash_eq hpolicy] at hempty
          exact absurd hempty (hashOf_ne p.2)
      rw [if_pos hempty, hnone]
      rfl
    · rw [if_neg hempty, if_pos hnames]
  have hfirst : k.does cfg now .syncPublished = k := by
    simp only [does, plan, attempt, hsync]
    rfl
  show (k.does cfg now .syncPublished).does cfg now .ensureRegion = k
  rw [hfirst]
  show k.run (ensureRegionMatchesCurrent cfg k) = k
  rw [ensureRegion_done h hload hhash]
  rfl

variable (now) in
/-- What a round of the motherbee leaves of the folder: its own manifest where it named the policy's
hash, or else a new publication. -/
theorem mother_round (h : installedPolicy cfg (k.dirs .current) = .ok policy) :
    let k' := k.syncOnce cfg now true
    let hash := currentHash cfg (k.dirs .current)
    k'.dirs = k.dirs ∧ ∃ manifest, k'.dist.manifest = some manifest ∧ manifest.hash = hash ∧
      (k.dist.manifest = some manifest ∧ k'.dist = k.dist ∨
        (∀ old ∈ k.dist.manifest, old.hash ≠ hash) ∧ manifest = manifestOf now policy ∧
          ∀ info wasm, policy = some (info, wasm) →
            k'.dist.wasms.lookup manifest.wasmFile = some wasm) := by
  obtain ⟨hcurrent, hload⟩ := currentPolicy_of_installed h
  have hkeeps := @ensureRegion_keeps cfg (k.run (republishIfStale cfg k now))
  have hdirs : (k.syncOnce cfg now true).dirs = (k.run (republishIfStale cfg k now)).dirs :=
    hkeeps.1
  have hdist : (k.syncOnce cfg now true).dist = (k.run (republishIfStale cfg k now)).dist :=
    hkeeps.2
  dsimp only
  rw [hdirs, hdist]
  by_cases hman : k.dist.manifest.map (·.hash) = some (currentHash cfg (k.dirs .current))
  · have hrepublish : republishIfStale cfg k now = [] := by
      rw [republishIfStale, h]
      simp only [hman, if_true]
    rw [hrepublish]
    obtain ⟨manifest, hsome, hhash⟩ := map_eq_some_iff.mp hman
    exact ⟨rfl, manifest, hsome, hhash, .inl ⟨hsome, rfl⟩⟩
  · have hrepublish : republishIfStale cfg k now = publishPolicy cfg k now := by
      rw [republishIfStale, h]
      simp only [hman, if_false]
    obtain ⟨hdirs, -, hmanifest, hwasm⟩ := dist_publishPolicy cfg k now
    rw [hrepublish]
    rw [hcurrent] at hmanifest
    refine ⟨hdirs, manifestOf now policy, hmanifest, ?_, .inr ⟨?_, rfl, ?_⟩⟩
    · rw [currentHash, hcurrent]
      cases policy <;> rfl
    · intro old hold heq
      apply hman
      rw [mem_def.mp hold, map_some, heq]
    · rintro info wasm rfl
      exact hwasm info wasm hcurrent

end

section
variable {cfg : Config} {k : Disk} {now : String} {info : PolicyMetadata} {wasm : Bytes}
  {manifest : PolicyManifest}

structure Region.Bounded (r : Region) : Prop where
  data : r.data.length ≤ opaMaxWasmSize
  entrypoint : r.entrypoint.length ≤ 64

theorem syncOnce_eq {after : Disk} (h : k.does cfg now .syncPublished = after) :
    k.syncOnce cfg now false = after.run (ensureRegionMatchesCurrent cfg after) := by
  show (k.does cfg now .syncPublished).does cfg now .ensureRegion = _
  rw [h]
  rfl

theorem does_of_sync {acts : List Act} (h : syncFromPublishedPolicy cfg k = (acts, [])) :
    k.does cfg now .syncPublished = k.run acts := by
  simp only [does, plan, attempt, h]
  rfl

variable (cfg k now) in
/-- Without a policy to install the hive ends with none, and its region is emptied unless its hash
says that it is. -/
theorem hive_round_none (hman : k.dist.manifest = some manifest) (hhash : manifest.hash = "") :
    currentPolicy cfg ((k.syncOnce cfg now false).dirs .current) = none ∧
      (k.syncOnce cfg now false).dist = k.dist ∧
      ((k.syncOnce cfg now false).region.wasm = [] ↔
        (currentPolicy cfg (k.dirs .current) = none → k.region.hash = zeroHash →
          k.region.wasm = [])) := by
  cases hcurrent : currentPolicy cfg (k.dirs .current) with
  | none =>
    have hsync : syncFromPublishedPolicy cfg k = ([], []) := by
      simp [syncFromPublishedPolicy, hman, hhash, hcurrent]
    rw [syncOnce_eq (does_of_sync hsync)]
    show currentPolicy cfg ((k.run (ensureRegionMatchesCurrent cfg k)).dirs .current) = none ∧ _
    refine ⟨by rw [ensureRegion_keeps.1, hcurrent], ensureRegion_keeps.2, ?_⟩
    show (k.run (ensureRegionMatchesCurrent cfg k)).region.wasm = [] ↔ _
    rw [ensureRegion_none hcurrent]
    split_ifs with hzero
    · exact ⟨fun h _ _ => h, fun h => h rfl hzero⟩
    · exact ⟨fun _ _ h => absurd h hzero, fun _ => (region_emptied cfg k none nofun 0 "").1⟩
  | some p =>
    have hsync : syncFromPublishedPolicy cfg k = (clearPolicy cfg, []) := by
      simp [syncFromPublishedPolicy, hman, hhash, hcurrent]
    rw [syncOnce_eq (does_of_sync hsync)]
    have hrun := k.run_clearPolicy cfg
    have hempty := region_emptied cfg (((k.setDir .current {}).setDir .staged {}).setDir .backup {})
      none nofun 0 ""
    rw [← hrun] at hempty
    have hnone : currentPolicy cfg ((k.run (clearPolicy cfg)).dirs .current) = none := by
      rw [hrun, run_writePolicy]
      rfl
    have hdone := ensureRegion_done hnone nofun hempty.2
    rw [hdone, run_nil]
    refine ⟨hnone, ?_, ⟨nofun, fun _ => hempty.1⟩⟩
    rw [hrun, run_writePolicy]
    rfl

variable (cfg k) in
theorem carries_written (hne : wasm ≠ []) (version : ℕ) (entrypoint : String) :
    (k.run (writePolicy cfg version (some wasm) entrypoint)).region.Carries version wasm
        entrypoint ↔ wasm.length ≤ opaMaxWasmSize ∧ (asBytes entrypoint).length ≤ 64 := by
  by_cases hsize : wasm.length ≤ opaMaxWasmSize
  · obtain ⟨hw, -, hv, he⟩ := region_writePolicy cfg k hsize version entrypoint
    rw [Region.Carries, hw, hv, he]
    constructor
    · rintro ⟨-, -, hname⟩
      refine ⟨hsize, ?_⟩
      rw [← hname]
      exact length_take_le ..
    · rintro ⟨-, hshort⟩
      exact ⟨rfl, rfl, take_of_length_le hshort⟩
  · have hempty := region_emptied cfg k (some wasm) (fun w hw => by cases hw; omega) version
      entrypoint
    constructor
    · rintro ⟨hw, -⟩
      exact absurd (hw.symm.trans hempty.1) hne
    · rintro ⟨hle, -⟩
      exact absurd hle hsize

theorem carries_ensured {own : PolicyMetadata} (hload : Loadable wasm)
    (hcurrent : currentPolicy cfg (k.dirs .current) = some (own, wasm)) :
    Carries cfg (k.run (ensureRegionMatchesCurrent cfg k)) (some (info, wasm)) ↔
      own.version = info.versionOr ∧ own.entrypointOr = info.entrypointOr ∧
        if k.region.hash = cfg.sha256 wasm then
          k.region.Carries info.versionOr wasm info.entrypointOr
        else wasm.length ≤ opaMaxWasmSize ∧ (asBytes info.entrypointOr).length ≤ 64 := by
  have hregion : own.version = info.versionOr → own.entrypointOr = info.entrypointOr →
      ((k.run (ensureRegionMatchesCurrent cfg k)).region.Carries info.versionOr wasm
          info.entrypointOr ↔ if k.region.hash = cfg.sha256 wasm then
        k.region.Carries info.versionOr wasm info.entrypointOr
      else wasm.length ≤ opaMaxWasmSize ∧ (asBytes info.entrypointOr).length ≤ 64) := by
    intro hv he
    rw [ensureRegion_some hload hcurrent, hv, he]
    split_ifs
    · rfl
    · exact carries_written cfg k hload.ne_nil _ _
  rw [Carries, ensureRegion_keeps.1, hcurrent]
  constructor
  · rintro ⟨⟨other, heq, hv, he⟩, hcarries⟩
    cases heq
    exact ⟨hv, he, (hregion hv he).mp hcarries⟩
  · rintro ⟨hv, he, hcarries⟩
    exact ⟨⟨own, rfl, hv, he⟩, (hregion hv he).mpr hcarries⟩

variable (k now info) in
theorem hive_round_same (hcfg : cfg.Digests) (hload : Loadable wasm) (hbound : k.region.Bounded)
    (hman : k.dist.manifest = some manifest) (hhash : manifest.hash = hashOf cfg wasm)
    (hsame : currentHash cfg (k.dirs .current) = hashOf cfg wasm) :
    (k.syncOnce cfg now false).dist = k.dist ∧
      (Carries cfg (k.syncOnce cfg now false) (some (info, wasm)) ↔
        wasm.length ≤ opaMaxWasmSize ∧ (asBytes info.entrypointOr).length ≤ 64 ∧
          (readMetadata (k.dirs .current).info).version = info.versionOr ∧
          (readMetadata (k.dirs .current).info).entrypointOr = info.entrypointOr ∧
          (k.region.hash = cfg.sha256 wasm →
            k.region.Carries info.versionOr wasm info.entrypointOr)) := by
  obtain ⟨own, hcurrent, hown⟩ := currentPolicy_of_hash hcfg hsame
  have hsync : syncFromPublishedPolicy cfg k = ([], []) := by
    simp [syncFromPublishedPolicy, hman, hhash, hsame, hashOf_ne]
  rw [syncOnce_eq (does_of_sync hsync)]
  show (k.run (ensureRegionMatchesCurrent cfg k)).dist = k.dist ∧
    (Carries cfg (k.run (ensureRegionMatchesCurrent cfg k)) _ ↔ _)
  refine ⟨ensureRegion_keeps.2, ?_⟩
  have hversion : own.version = (readMetadata (k.dirs .current).info).version := by rw [hown]
  have hentry : own.entrypointOr = (readMetadata (k.dirs .current).info).entrypointOr := by
    rw [hown]
    rfl
  rw [carries_ensured hload hcurrent, ← hversion, ← hentry]
  split_ifs with hregion
  · constructor
    · rintro ⟨hv, he, hcarries⟩
      refine ⟨?_, ?_, hv, he, fun _ => hcarries⟩
      · rw [← hcarries.1]
        exact (length_take_le' ..).trans hbound.data
      · rw [← hcarries.2.2]
        exact hbound.entrypoint
    · rintro ⟨-, -, hv, he, hcarries⟩
      exact ⟨hv, he, hcarries hregion⟩
  · constructor
    · rintro ⟨hv, he, hsize, hshort⟩
      exact ⟨hsize, hshort, hv, he, fun h => absurd h hregion⟩
    · rintro ⟨hsize, hshort, hv, he, -⟩
      exact ⟨hv, he, hsize, hshort⟩

variable (now) in
theorem hive_round_install (hload : Loadable wasm) (hman : k.dist.manifest = some manifest)
    (hhash : manifest.hash = hashOf cfg wasm)
    (hother : currentHash cfg (k.dirs .current) ≠ hashOf cfg wasm)
    (hfile : k.dist.wasms.lookup (filepathBase manifest.wasmFile) = some wasm) :
    ∃ (after : Disk) (own : PolicyMetadata), k.syncOnce cfg now false = after.run (ensureRegionMatchesCurrent cfg after) ∧
      after.dist = k.dist ∧ currentPolicy cfg (after.dirs .current) = some (own, wasm) ∧
      own.version = manifest.version ∧ own.entrypoint = own.entrypointOr ∧ own.entrypointOr =
        (if manifest.entrypoint = "" then defaultEntrypoint else manifest.entrypoint) ∧
      ∃ before : Disk, after.region =
        (before.run (writePolicy cfg own.version (some wasm) own.entrypointOr)).region := by
  set staged : PolicyMetadata :=
    { version := manifest.version, hash := manifest.hash, entrypoint := manifest.entrypoint,
      compiledAt := manifest.compiledAt, wasmSize := wasm.length } with hstaged
  set k₁ := k.setDir .staged ⟨some wasm, none, some (.whole staged)⟩ with hk₁
  set own : PolicyMetadata :=
    { version := manifest.version, hash := hashOf cfg wasm, entrypoint := staged.entrypointOr,
      compiledAt := now, wasmSize := wasm.length } with hown
  have hsync : syncFromPublishedPolicy cfg k =
      (writePolicyFiles .staged wasm staged "", [⟨.apply manifest.version, false⟩]) := by
    simp only [syncFromPublishedPolicy, hman, hhash, hfile]
    rw [if_neg (hashOf_ne wasm), if_neg hother.symm, if_neg (by simp)]
    simp only [hstaged, hhash]
  have happly : applyPolicy cfg k₁ now manifest.version =
      .ok (copyDir (k₁.dirs .current) .backup ++ writePolicyFiles .current wasm own "" ++
        writePolicy cfg manifest.version (some wasm) staged.entrypointOr) := by
    have hdir : k₁.dirs .staged = ⟨some wasm, none, some (.whole staged)⟩ := dirs_setDir ..
    have hversion : ¬ (manifest.version ≠ 0 ∧ staged.version ≠ 0 ∧
        manifest.version ≠ staged.version) := fun h => h.2.2 rfl
    have hsame : (if manifest.version = 0 then staged.version else manifest.version) =
        manifest.version := by
      split_ifs with h0
      · rfl
      · rfl
    simp only [applyPolicy, hdir, readMetadata, if_neg hversion, checkWasm_of_loadable hload, hsame]
    rfl
  have hdoes : k.does cfg now .syncPublished =
      k₁.run (copyDir (k₁.dirs .current) .backup ++ writePolicyFiles .current wasm own "" ++
        writePolicy cfg manifest.version (some wasm) staged.entrypointOr) := by
    simp only [does, plan, attempt, hsync, foldl_cons, foldl_nil]
    rw [run_writePolicyFiles, if_pos rfl, ← hk₁, happly]
    rfl
  have hbackup : ∀ k : Disk, ∀ source : PolicyDir,
      ∃ d, k.run (copyDir source .backup) = k.setDir .backup d := by
    intro k source
    by_cases hfiles : source.files = []
    · refine ⟨k.dirs .backup, ?_⟩
      rw [copyDir, hfiles]
      simp [rewriteDir, run, setDir]
    · exact ⟨_, run_rewriteDir _ _ hfiles⟩
  obtain ⟨d, hd⟩ := hbackup k₁ (k₁.dirs .current)
  have hentry : own.entrypoint = own.entrypointOr := (if_neg (entrypointOr_ne staged)).symm
  rw [run_append, run_append, hd, run_writePolicyFiles, if_pos rfl] at hdoes
  refine ⟨_, own, syncOnce_eq hdoes, ?_, ?_, rfl, hentry, hentry.symm,
    (k₁.setDir .backup d).setDir .current ⟨some wasm, none, some (.whole own)⟩, by rw [← hentry]⟩
  · rw [run_writePolicy]
    rfl
  · rw [run_writePolicy]
    have hdir : ((k₁.setDir .backup d).setDir .current
        ⟨some wasm, none, some (.whole own)⟩).dirs .current = ⟨some wasm, none, some (.whole own)⟩ :=
      dirs_setDir ..
    rw [hdir]
    simp [currentPolicy, hload.ne_nil, readMetadata, hown]

variable (k now info) in
theorem hive_round_other (hcfg : cfg.Digests) (hload : Loadable wasm)
    (hman : k.dist.manifest = some manifest) (hhash : manifest.hash = hashOf cfg wasm)
    (hother : currentHash cfg (k.dirs .current) ≠ hashOf cfg wasm) :
    (k.syncOnce cfg now false).dist = k.dist ∧
      (Carries cfg (k.syncOnce cfg now false) (some (info, wasm)) ↔
        wasm.length ≤ opaMaxWasmSize ∧ (asBytes info.entrypointOr).length ≤ 64 ∧
          manifest.version = info.versionOr ∧
          (if manifest.entrypoint = "" then defaultEntrypoint else manifest.entrypoint) =
            info.entrypointOr ∧
          k.dist.wasms.lookup (filepathBase manifest.wasmFile) = some wasm) := by
  by_cases hfile : k.dist.wasms.lookup (filepathBase manifest.wasmFile) = some wasm
  · obtain ⟨after, own, heq, hdist, hcurrent, hv, -, he, before, hregion⟩ :=
      hive_round_install now hload hman hhash hother hfile
    rw [heq]
    refine ⟨ensureRegion_keeps.2.trans hdist, ?_⟩
    rw [carries_ensured hload hcurrent, hfile, ← hv, ← he]
    have hwritten := carries_written cfg before hload.ne_nil own.version own.entrypointOr
    rw [← hregion] at hwritten
    constructor
    · rintro ⟨hv', he', hrest⟩
      rw [← hv', ← he', hwritten, ite_self] at hrest
      exact ⟨hrest.1, he' ▸ hrest.2, hv', he', rfl⟩
    · rintro ⟨hsize, hshort, hv', he', -⟩
      rw [← he'] at hshort
      rw [← hv', ← he', hwritten, ite_self]
      exact ⟨rfl, rfl, hsize, hshort⟩
  · have hsync : syncFromPublishedPolicy cfg k = ([], []) := by
      simp only [syncFromPublishedPolicy, hman, hhash]
      rw [if_neg (hashOf_ne wasm), if_neg hother.symm]
      cases hlookup : k.dist.wasms.lookup (filepathBase manifest.wasmFile) with
      | none => rfl
      | some found =>
        have hne : hashOf cfg found ≠ hashOf cfg wasm := by
          intro h
          rw [hashOf_inj hcfg h] at hlookup
          exact hfile hlookup
        simp only [if_pos hne]
    rw [syncOnce_eq (does_of_sync hsync), run_nil]
    refine ⟨ensureRegion_keeps.2, ?_⟩
    constructor
    · rintro ⟨⟨other, hcurrent, -, -⟩, -⟩
      rw [ensureRegion_keeps.1] at hcurrent
      exact absurd (currentHash_eq hcurrent) hother
    · rintro ⟨-, -, -, -, h⟩
      exact absurd h hfile

theorem hash_of_round (hload : ∀ p ∈ policy, Loadable p.2 ∧ p.2.length ≤ opaMaxWasmSize)
    (h : Carries cfg (k.syncOnce cfg now false) policy) :
    (k.syncOnce cfg now false).region.hash = wantedHash cfg policy := by
  have hround : k.syncOnce cfg now false = (k.does cfg now .syncPublished).run
      (ensureRegionMatchesCurrent cfg (k.does cfg now .syncPublished)) := rfl
  rw [hround] at h ⊢
  cases policy with
  | none => exact ensureRegion_hash (by rw [← ensureRegion_keeps.1]; exact h.1) hload
  | some p =>
    obtain ⟨⟨own, hcurrent, -⟩, -⟩ := h
    rw [ensureRegion_keeps.1] at hcurrent
    have hhash := ensureRegion_hash hcurrent fun q hq => by cases hq; exact hload p rfl
    exact hhash

end

section
variable {cfg : Config} {now now' : String} {m h : Disk}
  {policy : Option (PolicyMetadata × Bytes)}

theorem filepathBase_wasmFileName (hplain : cfg.Plain) (wasm : Bytes) :
    filepathBase (wasmFileName (hashOf cfg wasm)) = wasmFileName (hashOf cfg wasm) := by
  have hhash : '/' ∉ (hashOf cfg wasm).toList := by
    simp [hashOf, String.toList_append, hplain wasm]
  have hdigits : '/' ∉ ((stripFront "sha256:" (hashOf cfg wasm)).getD (hashOf cfg wasm)).toList := by
    unfold stripFront
    split_ifs
    · simpa using fun h => hhash (mem_of_mem_drop h)
    · exact hhash
  apply filepathBase_of_plain
  · simp [wasmFileName]
  · simpa [wasmFileName, String.toList_append] using fun h => hdigits (mem_of_mem_take h)

variable (now now') in
theorem carries_iff (hcfg : cfg.Digests) (hplain : cfg.Plain) (hm : installedPolicy cfg (m.dirs .current) = .ok policy)
    (hbound : h.region.Bounded) :
    (syncOnce cfg now' false { h with dist := (m.syncOnce cfg now true).dist }).dist =
        (m.syncOnce cfg now true).dist ∧
      (Carries cfg (syncOnce cfg now' false { h with dist := (m.syncOnce cfg now true).dist })
        policy ↔ Repairable cfg m h policy) := by
  obtain ⟨hcurrent, hload⟩ := currentPolicy_of_installed hm
  obtain ⟨-, manifest, hman, hhash, hfolder⟩ := mother_round now hm
  rw [currentHash_eq hcurrent] at hhash hfolder
  cases policy with
  | none =>
    obtain ⟨hnone, hdist, hiff⟩ := hive_round_none cfg
      { h with dist := (m.syncOnce cfg now true).dist } now' hman hhash
    rw [Carries, Repairable]
    exact ⟨hdist, fun hc => hiff.mp hc.2, fun hr => ⟨hnone, hiff.mpr hr⟩⟩
  | some p =>
    obtain ⟨info, wasm⟩ := p
    have hwasm := hload _ rfl
    rw [Repairable]
    split_ifs with hsame
    · exact hive_round_same { h with dist := (m.syncOnce cfg now true).dist } now' info hcfg hwasm
        hbound hman hhash hsame
    · obtain ⟨hdist, hiff⟩ := hive_round_other { h with dist := (m.syncOnce cfg now true).dist }
        now' info hcfg hwasm hman hhash hsame
      refine ⟨hdist, hiff.trans (and_congr_right fun _ => and_congr_right fun _ => ?_)⟩
      rcases hfolder with ⟨hold, hdist⟩ | ⟨hstale, rfl, hfile⟩
      · rw [hdist]
        constructor
        · intro hdelivers old hmem _
          rw [hold] at hmem
          cases hmem
          exact hdelivers
        · intro hall
          exact hall manifest hold hhash
      · constructor
        · intro _ old hmem hsame
          exact absurd hsame (hstale old hmem)
        · intro _
          refine ⟨rfl, if_neg (entrypointOr_ne info), ?_⟩
          have hname : (manifestOf now (some (info, wasm))).wasmFile = wasmFileName (hashOf cfg wasm) := by
            rw [(currentPolicy_some hcurrent).2.2]
            rfl
          rw [hname, filepathBase_wasmFileName hplain, ← hname]
          exact hfile info wasm rfl

theorem Carries.done {k : Disk} {manifest : PolicyManifest} (hc : Carries cfg k policy)
    (hload : ∀ p ∈ policy, Loadable p.2) (hman : k.dist.manifest = some manifest)
    (hhash : manifest.hash = (policy.map fun p => hashOf cfg p.2).getD "")
    (hwanted : k.region.hash = wantedHash cfg policy) : k.syncOnce cfg now false = k := by
  cases policy with
  | none =>
    refine hive_done hc.1 hload hman ?_ hwanted
    rw [hhash, currentHash_eq hc.1]
  | some p =>
    obtain ⟨⟨own, hown, -⟩, -⟩ := hc
    refine hive_done hown (fun q hq => ?_) hman ?_ hwanted
    · cases hq
      exact hload p rfl
    · rw [hhash, currentHash_eq hown]
      rfl

/-- The distribution converges, and stays, exactly where nothing is damaged that no hash tells. -/
theorem distribution_converges_iff {cfg : Config} {now now' : String} {m h : Disk}
    {policy : Option (PolicyMetadata × Bytes)} (hcfg : cfg.Digests) (hplain : cfg.Plain)
    (hm : installedPolicy cfg (m.dirs .current) = .ok policy) (hbound : h.region.Bounded) :
    Converges cfg now now' m h policy ↔ Repairable cfg m h policy := by
  obtain ⟨hcurrent, hload⟩ := currentPolicy_of_installed hm
  obtain ⟨hdirs, manifest, hman, hhash, -⟩ := mother_round now hm
  obtain ⟨hdist, hiff⟩ := carries_iff now now' hcfg hplain hm hbound
  constructor
  · intro hc
    exact hiff.mp hc.1
  · intro hr
    have hcarries := hiff.mpr hr
    have hfits : ∀ p ∈ policy, Loadable p.2 ∧ p.2.length ≤ opaMaxWasmSize := by
      rintro ⟨info, wasm⟩ hp
      cases hp
      exact ⟨hload _ rfl, hr.1⟩
    refine ⟨hcarries, fun later => ?_, fun later => ?_⟩
    · rw [currentHash_eq hcurrent] at hhash
      exact hcarries.done hload (by rw [hdist]; exact hman) hhash (hash_of_round hfits hcarries)
    · have hsame : currentPolicy cfg ((m.run (republishIfStale cfg m now)).dirs .current) =
          policy := by
        have hkept : (m.syncOnce cfg now true).dirs = (m.run (republishIfStale cfg m now)).dirs :=
          ensureRegion_keeps.1
        rw [← hkept, hdirs, hcurrent]
      apply mother_done (hdirs ▸ hm)
      · rw [hman, hdirs, map_some, hhash]
      · exact ensureRegion_hash hsame hfits

end

end

namespace Rounds

def digits (wasm : Bytes) : String := String.ofList ('x' :: wasm.map fun b => Char.ofNat (256 + b.toNat))

theorem toNat_digit : ∀ n < 256, (Char.ofNat (256 + n)).toNat = 256 + n := by decide +kernel

theorem digits_injective : Function.Injective digits := by
  intro wasm wasm' h
  have hlist := (List.cons.inj (ofList_injective h)).2
  refine map_injective_iff.mpr (fun b b' hb => ?_) hlist
  have hnat := congrArg Char.toNat hb
  rw [toNat_digit _ b.toNat_lt, toNat_digit _ b'.toNat_lt] at hnat
  exact UInt8.toNat_inj.mp (Nat.add_left_cancel hnat)

theorem digits_ne (wasm : Bytes) : digits wasm ≠ zeroHash := by
  intro h
  have hlist : 'x' :: _ = List.replicate 64 '0' := ofList_injective h
  have hmem : 'x' ∈ List.replicate 64 '0' := hlist ▸ mem_cons_self ..
  exact absurd (eq_of_mem_replicate hmem) (by decide)

def cfg : Config where
  build _ _ := .error "rego_parse_error"
  sha256 := digits

theorem cfg_digests : cfg.Digests := ⟨digits_injective, digits_ne⟩

theorem cfg_plain : cfg.Plain := by
  intro wasm hmem
  obtain ⟨b, -, hb⟩ : ∃ b ∈ wasm, Char.ofNat (256 + b.toNat) = '/' := by
    simpa [cfg, digits] using hmem
  have hnat := congrArg Char.toNat hb
  rw [toNat_digit _ b.toNat_lt] at hnat
  have hslash : '/'.toNat = 47 := rfl
  omega

def policy : Bytes :=
  wasmMagic ++ [1, 0, 0, 0] ++ ([7, 12, 1, 8] ++ opaEval ++ [0, 0]) ++ [10, 1, 1]

def info : PolicyMetadata := { version := 3, entrypoint := defaultEntrypoint }

/-- A motherbee with the policy installed; the folder is as it is given. -/
def mother (dist : Dist) : Disk where
  dirs := fun dir => if dir = .current then ⟨some policy, none, some (.whole info)⟩ else {}
  dist

/-- The manifest the motherbee would write, its wasm lost from the folder. -/
def lost : Dist where
  manifest := some (manifestOf "t" (some ({ info with hash := hashOf cfg policy }, policy)))

def installed : PolicyMetadata × Bytes :=
  ({ info with hash := hashOf cfg policy, wasmSize := policy.length }, policy)

end Rounds

open Rounds

/-- The manifest still names the policy's hash, so the wasm it names is not published again. -/
theorem lost_wasm_never_arrives :
    installedPolicy Rounds.cfg ((Rounds.mother Rounds.lost).dirs .current) =
        .ok (some Rounds.installed) ∧
      ((Disk.syncOnce Rounds.cfg "u" false
        { dist := ((Rounds.mother Rounds.lost).syncOnce Rounds.cfg "t" true).dist }).dirs
          .current).wasm = none ∧
      ¬ Converges Rounds.cfg "t" "u" (Rounds.mother Rounds.lost) {} (some Rounds.installed) := by
  have hinstalled : installedPolicy cfg ((mother lost).dirs .current) =
      .ok (some installed) := by decide +kernel
  have hnone : ((Disk.syncOnce cfg "u" false
      { dist := ((mother lost).syncOnce cfg "t" true).dist }).dirs
        .current).wasm = none := by decide +kernel
  refine ⟨hinstalled, hnone, fun hc => ?_⟩
  obtain ⟨⟨⟨own, hown, -⟩, -⟩, -⟩ := hc
  have hwasm := (currentPolicy_some hown).1
  exact absurd (hnone.symm.trans hwasm) nofun

theorem distribution_converges_emptied :
    Converges Rounds.cfg "t" "u" (Rounds.mother {}) {} (some Rounds.installed) ↔
      Repairable Rounds.cfg (Rounds.mother {}) {} (some Rounds.installed) :=
  distribution_converges_iff cfg_digests cfg_plain (by decide +kernel) ⟨by decide, by decide⟩

end Fluxbee.Opa
