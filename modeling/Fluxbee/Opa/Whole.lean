import Fluxbee.Lib.Plans
import Fluxbee.Opa.Service

/-! What is whole: a directory, the synced folder or the routers' region that holds one completed
compile's wasm with that compile's entrypoint. Every operation is a plan whose writes keep this
outside the directory they are rewriting, and restore it there at their end. -/
namespace Fluxbee.Opa
open Text GuardedRun Plans List Disk PolicyDir

variable {c : Compiled} {d : PolicyDir} {dir : Dir} {info : PolicyMetadata}

/-- What a completed compile is known to be, for an entrypoint the region has room for. -/
structure Compiled.Sound (cfg : Config) (c : Compiled) : Prop where
  made : ∃ rego, compileRego cfg rego c.entrypoint = .ok c.wasm
  named : c.entrypoint ≠ ""
  short : (asBytes c.entrypoint).length ≤ 64

variable {cfg : Config}

theorem Compiled.Sound.loadable (h : c.Sound cfg) : Loadable c.wasm := by
  obtain ⟨rego, hmade⟩ := h.made
  exact (compileRego_ok hmade).1

theorem Compiled.Sound.size_le (h : c.Sound cfg) : c.wasm.length ≤ opaMaxWasmSize := by
  obtain ⟨rego, hmade⟩ := h.made
  exact (compileRego_ok hmade).2

/-- No two wasms the compiler makes are published under one file name, which has the first sixteen
digits of the digest. -/
def Config.Distinct (cfg : Config) : Prop :=
  ∀ {rego entrypoint rego' entrypoint' : String} {w w' : Bytes},
    compileRego cfg rego entrypoint = .ok w → compileRego cfg rego' entrypoint' = .ok w' →
      wasmFileName (hashOf cfg w) = wasmFileName (hashOf cfg w') → w = w'

/-- The directory is empty, or has the wasm of one compile and metadata with its entrypoint. -/
def PolicyDir.Whole (K : List Compiled) (d : PolicyDir) : Prop :=
  d.wasm = none ∧ d.info = none ∨
    ∃ c ∈ K, ∃ info, d.wasm = some c.wasm ∧ d.info = some (.whole info) ∧
      info.entrypointOr = c.entrypoint

/-- The region has no policy, or the wasm of one compile with its entrypoint. -/
def Region.Holds (K : List Compiled) (r : Region) : Prop :=
  r.size = 0 ∨ ∃ c ∈ K, r.wasm = c.wasm ∧ r.entrypoint = asBytes c.entrypoint

instance (K : List Compiled) (r : Region) : Decidable (r.Holds K) :=
  inferInstanceAs (Decidable (_ ∨ _))

def PolicyManifest.Names (cfg : Config) (K : List Compiled) (m : PolicyManifest) : Prop :=
  m.wasmFile = "" ∧ m.hash = "" ∨
    ∃ c ∈ K, m.hash = hashOf cfg c.wasm ∧ m.wasmFile = wasmFileName m.hash ∧
      m.entrypoint = c.entrypoint

def DistWrite.Sound (cfg : Config) (K : List Compiled) : DistWrite → Prop
  | .wasm name data => ∃ c ∈ K, data = c.wasm ∧ name = wasmFileName (hashOf cfg data)
  | .manifest m => m.Names cfg K
  | .remove _ => True

structure Dist.Holds (cfg : Config) (K : List Compiled) (d : Dist) : Prop where
  manifest : ∀ m, d.manifest = some m → m.Names cfg K
  wasms : ∀ name data, d.wasms.lookup name = some data → DistWrite.Sound cfg K (.wasm name data)

section
variable {cfg : Config} {K K' : List Compiled} {d : PolicyDir} {dist : Dist}

theorem Dist.Holds.write (h : dist.Holds cfg K) {w : DistWrite} (hw : w.Sound cfg K) :
    (dist.write w).Holds cfg K := by
  cases w with
  | wasm name data =>
    refine ⟨h.manifest, fun n b hlook => ?_⟩
    simp only [Dist.write, AList.lookup_insert_eq] at hlook
    split_ifs at hlook with hn
    · cases hlook
      rw [hn]
      exact hw
    · exact h.wasms n b hlook
  | manifest m =>
    refine ⟨fun m' hm' => ?_, h.wasms⟩
    cases hm'
    exact hw
  | remove name =>
    refine ⟨h.manifest, fun n b hlook => ?_⟩
    simp only [Dist.write, AList.lookup_erase_eq] at hlook
    split_ifs at hlook
    exact h.wasms n b hlook

theorem PolicyDir.Whole.mono (hK : K ⊆ K') (h : d.Whole K) : d.Whole K' := by
  rcases h with hnone | ⟨c, hc, hrest⟩
  · exact .inl hnone
  · exact .inr ⟨c, hK hc, hrest⟩

theorem Region.Holds.mono {r : Region} (hK : K ⊆ K') (h : r.Holds K) : r.Holds K' := by
  rcases h with hnone | ⟨c, hc, hrest⟩
  · exact .inl hnone
  · exact .inr ⟨c, hK hc, hrest⟩

theorem DistWrite.Sound.mono {w : DistWrite} (hK : K ⊆ K') (h : w.Sound cfg K) :
    w.Sound cfg K' := by
  cases w with
  | wasm name data =>
    obtain ⟨c, hc, hrest⟩ := h
    exact ⟨c, hK hc, hrest⟩
  | manifest m =>
    rcases h with hnone | ⟨c, hc, hrest⟩
    · exact .inl hnone
    · exact .inr ⟨c, hK hc, hrest⟩
  | remove name => trivial

theorem Dist.Holds.mono (hK : K ⊆ K') (h : dist.Holds cfg K) : dist.Holds cfg K' where
  manifest m hm := DistWrite.Sound.mono (w := .manifest m) hK (h.manifest m hm)
  wasms name data hlook := (h.wasms name data hlook).mono hK

theorem Dist.Holds.empty : Dist.Holds cfg K {} where
  manifest _ hm := by cases hm
  wasms _ _ hlook := by cases hlook

end

/-- The wasm the manifest of a folder names, when it is there, is one compile's, and the manifest
has that compile's entrypoint. -/
def Dist.Whole (K : List Compiled) (d : Dist) : Prop :=
  ∀ m ∈ d.manifest, ∀ wasm ∈ d.wasms.lookup m.wasmFile,
    ∃ c ∈ K, wasm = c.wasm ∧ m.entrypoint = c.entrypoint

instance (K : List Compiled) (d : Dist) : Decidable (d.Whole K) :=
  match hm : d.manifest with
  | none => .isTrue fun m hmem => by rw [hm] at hmem; cases hmem
  | some m =>
    match hw : d.wasms.lookup m.wasmFile with
    | none => .isTrue fun m' hmem wasm hlook => by
        rw [hm] at hmem
        cases hmem
        rw [hw] at hlook
        cases hlook
    | some wasm =>
      decidable_of_iff (∃ c ∈ K, wasm = c.wasm ∧ m.entrypoint = c.entrypoint)
        ⟨fun h m' hmem wasm' hlook => by
            rw [hm] at hmem
            cases hmem
            rw [hw] at hlook
            cases hlook
            exact h,
          fun h => h m hm wasm hw⟩

theorem ne_wasmFileName (hash : String) : "" ≠ wasmFileName hash := by
  intro h
  have hlen := congrArg String.length h
  simp only [wasmFileName, String.length_append] at hlen
  have hfront : "policy-".length = 7 := by decide
  have hnone : "".length = 0 := by decide
  omega

theorem Dist.Holds.whole {K : List Compiled} {d : Dist} (hdist : cfg.Distinct)
    (hK : ∀ c ∈ K, c.Sound cfg) (h : d.Holds cfg K) : d.Whole K := by
  intro m hm wasm hlook
  obtain ⟨c', hc', hwasm, hname⟩ := h.wasms _ _ hlook
  rcases h.manifest m hm with ⟨hfile, -⟩ | ⟨c, hc, hhash, hfile, hentry⟩
  · rw [hfile] at hname
    exact absurd hname (ne_wasmFileName _)
  · obtain ⟨rego, hmade⟩ := (hK c hc).made
    obtain ⟨rego', hmade'⟩ := (hK c' hc').made
    have hsame : c'.wasm = c.wasm := by
      apply hdist hmade' hmade
      rw [← hhash, ← hfile, hname, hwasm]
    exact ⟨c, hc, hwasm.trans hsame, hentry⟩

section
variable (cfg : Config) (K : List Compiled)

structure Disk.Stored (k : Disk) : Prop where
  dirs : ∀ d, (k.dirs d).Whole K
  dist : k.dist.Holds cfg K

/-- The region is whole too: what holds between operations. -/
structure Disk.Settled (k : Disk) : Prop extends Disk.Stored cfg K k where
  region : k.region.Holds K

/-- What a start needs: a region that is not whole is written again, as there is a policy. -/
structure Disk.Recoverable (k : Disk) : Prop extends Disk.Stored cfg K k where
  region : k.region.Holds K ∨ (k.dirs .current).wasm ≠ none

/-- What holds before a write: all is whole but the directory being rewritten. A write to the region
goes on only over an installed policy, or keeps the region whole even when it is cut short. -/
def Act.Guard (k : Disk) : Act → Prop
  | .file dir _ first =>
    (∀ d, d ≠ dir ∨ first = true → (k.dirs d).Whole K) ∧ k.dist.Holds cfg K ∧ k.region.Holds K
  | .dist w => k.Settled cfg K ∧ w.Sound cfg K
  | .region w =>
    k.Stored cfg K ∧ ((k.dirs .current).wasm ≠ none ∨
      k.region.Holds K ∧ ∀ n, (k.region.tear n w).Holds K)

/-- The writes lead from this disk to one where all is whole. -/
def Disk.Ready (k : Disk) (acts : List Act) : Prop :=
  Plans.Ready Disk.perform (Act.Guard cfg K) (Disk.Settled cfg K) k acts

end

section
variable {cfg : Config} {K K' : List Compiled} {k : Disk}

theorem Disk.Stored.mono (hK : K ⊆ K') (h : k.Stored cfg K) : k.Stored cfg K' :=
  ⟨fun d => (h.dirs d).mono hK, h.dist.mono hK⟩

theorem Disk.Settled.mono (hK : K ⊆ K') (h : k.Settled cfg K) : k.Settled cfg K' :=
  ⟨h.toStored.mono hK, h.region.mono hK⟩

theorem Disk.Recoverable.mono (hK : K ⊆ K') (h : k.Recoverable cfg K) : k.Recoverable cfg K' :=
  ⟨h.toStored.mono hK, h.region.imp (·.mono hK) id⟩

theorem Act.Guard.mono (hK : K ⊆ K') {a : Act} (h : a.Guard cfg K k) : a.Guard cfg K' k := by
  cases a with
  | file dir w first =>
    obtain ⟨hdirs, hdist, hregion⟩ := h
    exact ⟨fun d hd => (hdirs d hd).mono hK, hdist.mono hK, hregion.mono hK⟩
  | dist w => exact ⟨h.1.mono hK, h.2.mono hK⟩
  | region w =>
    obtain ⟨hstored, hregion⟩ := h
    refine ⟨hstored.mono hK, hregion.imp id ?_⟩
    rintro ⟨hnow, htorn⟩
    exact ⟨hnow.mono hK, fun n => (htorn n).mono hK⟩

variable {acts : List Act}

theorem Disk.Ready.mono (hK : K ⊆ K') (h : k.Ready cfg K acts) : k.Ready cfg K' acts :=
  Plans.Ready.mono (fun _ _ => Act.Guard.mono hK) (fun _ => Disk.Settled.mono hK) h

theorem Disk.Settled.recoverable (h : k.Settled cfg K) : k.Recoverable cfg K :=
  ⟨h.toStored, .inl h.region⟩

theorem Disk.Ready.dist (h : k.Ready cfg K acts) : k.dist.Holds cfg K := by
  cases acts with
  | nil => exact (ready_nil.mp h).dist
  | cons a acts =>
    have hguard := (ready_cons.mp h).1
    cases a with
    | file dir w first => exact hguard.2.1
    | dist w | region w => exact hguard.1.dist

/-- The sync changes the folder under a process that is at work; no write of it depends on what
the folder holds. -/
theorem Disk.Ready.withDist (h : k.Ready cfg K acts) {d : Dist} (hd : d.Holds cfg K) :
    Disk.Ready cfg K { k with dist := d } acts := by
  induction acts generalizing k d with
  | nil =>
    have hs := ready_nil.mp h
    exact ready_nil.mpr ⟨⟨hs.dirs, hd⟩, hs.region⟩
  | cons a acts ih =>
    obtain ⟨hguard, hrest⟩ := ready_cons.mp h
    apply ready_cons.mpr
    cases a with
    | file dir w first => exact ⟨⟨hguard.1, hd, hguard.2.2⟩, ih hrest hd⟩
    | dist w =>
      obtain ⟨hs, hw⟩ := hguard
      exact ⟨⟨⟨⟨hs.dirs, hd⟩, hs.region⟩, hw⟩, ih hrest (hd.write hw)⟩
    | region w => exact ⟨⟨⟨hguard.1.dirs, hd⟩, hguard.2⟩, ih hrest hd⟩

end

section
variable {cfg : Config} {K : List Compiled} {k : Disk}

@[simp] theorem Disk.dirs_setDir (dir : Dir) (d : PolicyDir) : (k.setDir dir d).dirs dir = d := by
  simp [setDir]

theorem Disk.dirs_setDir_of_ne {dir' : Dir} (h : dir' ≠ dir) (d : PolicyDir) :
    (k.setDir dir d).dirs dir' = k.dirs dir' := by
  simp [setDir, h]

@[simp] theorem Disk.setDir_setDir (dir : Dir) (d d' : PolicyDir) :
    (k.setDir dir d).setDir dir d' = k.setDir dir d' := by
  simp [setDir]

theorem Disk.Settled.setDir (h : k.Settled cfg K) (hd : d.Whole K) :
    (k.setDir dir d).Settled cfg K := by
  refine ⟨⟨fun d' => ?_, h.dist⟩, h.region⟩
  by_cases hsame : d' = dir
  · subst hsame
    rw [dirs_setDir]
    exact hd
  · rw [dirs_setDir_of_ne hsame]
    exact h.dirs d'

variable {ws : List FileWrite}

theorem ready_rest (hdirs : ∀ d, d ≠ dir → (k.dirs d).Whole K) (hdist : k.dist.Holds cfg K)
    (hregion : k.region.Holds K) :
    Plans.Ready perform (Act.Guard cfg K)
      (fun k' => k' = k.setDir dir (ws.foldl write (k.dirs dir))) k
      (ws.map fun w => .file dir w false) := by
  induction ws generalizing k with
  | nil =>
    apply ready_nil.mpr
    simp [setDir]
  | cons w ws ih =>
    apply ready_cons.mpr
    have hothers : ∀ d, d ≠ dir → ((k.perform (.file dir w false)).dirs d).Whole K := by
      intro d hd
      rw [perform, dirs_setDir_of_ne hd]
      exact hdirs d hd
    constructor
    · exact ⟨fun d hd => hdirs d (hd.resolve_right (by decide)), hdist, hregion⟩
    · have hrest := @ih (k.perform (.file dir w false)) hothers hdist hregion
      simpa [perform] using hrest

theorem ready_rewriteDir (h : k.Settled cfg K) (hd : ws.foldl write (k.dirs dir) = d) :
    Plans.Ready perform (Act.Guard cfg K) (fun k' => k' = k.setDir dir d) k
      (rewriteDir dir ws) := by
  cases ws with
  | nil =>
    apply ready_nil.mpr
    subst hd
    simp [setDir]
  | cons w ws =>
    apply ready_cons.mpr
    constructor
    · exact ⟨fun d' _ => h.dirs d', h.dist, h.region⟩
    · have hothers : ∀ d', d' ≠ dir → ((k.perform (.file dir w true)).dirs d').Whole K := by
        intro d' hd'
        rw [perform, dirs_setDir_of_ne hd']
        exact h.dirs d'
      have hrest := @ready_rest dir cfg K (k.perform (.file dir w true)) ws hothers h.dist h.region
      subst hd
      simpa [perform] using hrest

theorem ready_settled (h : k.Settled cfg K) (hd : (ws.foldl write (k.dirs dir)).Whole K) :
    k.Ready cfg K (rewriteDir dir ws) := by
  refine (ready_rewriteDir h rfl).mono (fun _ _ hg => hg) ?_
  rintro k' rfl
  exact h.setDir hd

theorem whole_of_policy (hc : c ∈ K)
    (hentry : info.entrypointOr = c.entrypoint) (rego : Option String) :
    PolicyDir.Whole K ⟨some c.wasm, rego, some (.whole info)⟩ :=
  .inr ⟨c, hc, info, rfl, rfl, hentry⟩

theorem whole_empty (rego : Option String) : PolicyDir.Whole K ⟨none, rego, none⟩ := .inl ⟨rfl, rfl⟩

@[simp] theorem foldl_writePolicyFiles (d : PolicyDir) (wasm : Bytes) (info : PolicyMetadata)
    (rego : Option String) :
    [FileWrite.wasm (some wasm), .rego rego, .metadata (some (.whole info))].foldl
      write d = ⟨some wasm, rego, some (.whole info)⟩ := rfl

theorem ready_writePolicyFiles (h : k.Settled cfg K) (dir : Dir) (hc : c ∈ K)
    (hentry : info.entrypointOr = c.entrypoint) (rego : String) :
    k.Ready cfg K (writePolicyFiles dir c.wasm info rego) :=
  ready_settled h (whole_of_policy hc hentry _)

theorem whole_copy {source target : PolicyDir} (hs : source.Whole K) (ht : target.Whole K) :
    (source.files.foldl write target).Whole K := by
  rcases hs with ⟨hwasm, hinfo⟩ | ⟨c, hc, info, hwasm, hinfo, hentry⟩
  · -- only the text of the policy can be copied, and nothing whole depends on it
    have hsame : ∀ rego, PolicyDir.Whole K { target with rego := rego } := fun _ => ht
    cases hrego : source.rego <;>
      simpa [files, hwasm, hinfo, hrego, write] using hsame _
  · refine .inr ⟨c, hc, info, ?_, ?_, hentry⟩ <;>
      cases hrego : source.rego <;> simp [files, hwasm, hinfo, hrego, write]

theorem foldl_region (ws : List RegionWrite) : (ws.map Act.region).foldl perform k =
      { k with region := ws.foldl Region.write k.region } := by
  induction ws generalizing k with
  | nil => rfl
  | cons w ws ih =>
    rw [map_cons, foldl_cons, ih]
    rfl

theorem along_region (h : k.Stored cfg K) (hpolicy : (k.dirs .current).wasm ≠ none)
    (ws : List RegionWrite) : Along perform (Act.Guard cfg K) k (ws.map Act.region) := by
  induction ws generalizing k with
  | nil => trivial
  | cons w ws ih => exact ⟨⟨h, .inl hpolicy⟩, ih ⟨h.dirs, h.dist⟩ hpolicy⟩

theorem ready_writePolicy (h : k.Stored cfg K) (hc : c ∈ K)
    (hsound : c.Sound cfg) (hpolicy : (k.dirs .current).wasm ≠ none) (version : ℕ) :
    Plans.Ready perform (Act.Guard cfg K) (fun k' => k'.Settled cfg K ∧ k'.dirs = k.dirs) k
      (writePolicy cfg version (some c.wasm) c.entrypoint) := by
  have hfits : (some c.wasm).filter (fun w => decide (w.length ≤ opaMaxWasmSize)) =
      some c.wasm := by
    simp [hsound.size_le]
  unfold writePolicy
  rw [hfits]
  refine ⟨along_region h hpolicy _, ?_⟩
  rw [foldl_region]
  refine ⟨⟨⟨h.dirs, h.dist⟩, .inr ⟨c, hc, ?_, ?_⟩⟩, rfl⟩
  · simp [Region.header, Region.write, Region.wasm]
  · simp [Region.header, Region.write, take_of_length_le hsound.short]

theorem ready_clearRegion (h : k.Settled cfg K) : k.Ready cfg K (writePolicy cfg 0 none "") := by
  have hempty : ∀ r : Region, r.size = 0 → r.Holds K := fun _ => .inl
  have hstored := h.toStored
  refine ready_cons.mpr ⟨⟨hstored, .inr ⟨h.region, fun _ => h.region⟩⟩, ?_⟩
  have hversion : (k.region.write (.version 0)).Holds K := h.region
  refine ready_cons.mpr ⟨⟨⟨hstored.dirs, hstored.dist⟩, .inr ⟨hversion, fun _ => hversion⟩⟩, ?_⟩
  refine ready_cons.mpr ⟨⟨⟨hstored.dirs, hstored.dist⟩,
    .inr ⟨hempty _ rfl, fun _ => hempty _ rfl⟩⟩, ?_⟩
  refine ready_cons.mpr ⟨⟨⟨hstored.dirs, hstored.dist⟩,
    .inr ⟨hempty _ rfl, fun _ => hempty _ rfl⟩⟩, ?_⟩
  exact ready_nil.mpr ⟨⟨hstored.dirs, hstored.dist⟩, hempty _ rfl⟩

end

section
variable {cfg : Config} {K : List Compiled} {k : Disk} {now : String} {acts : List Act}

theorem checkWasm_of_loadable {wasm : Bytes} (h : Loadable wasm) : checkWasm wasm = .ok () := by
  unfold checkWasm
  rw [h.1]
  simp [h.2]

theorem ready_install (h : k.Settled cfg K) (hc : c ∈ K) (hsound : c.Sound cfg)
    (hentry : info.entrypointOr = c.entrypoint) (rego : String) (version : ℕ) :
    k.Ready cfg K (writePolicyFiles .current c.wasm info rego ++
      writePolicy cfg version (some c.wasm) c.entrypoint) := by
  refine (ready_rewriteDir h (foldl_writePolicyFiles ..)).append ?_
  rintro k' rfl
  have hwhole := whole_of_policy hc hentry (if rego = "" then none else some rego)
  have hset : (k.setDir .current _).Settled cfg K := h.setDir hwhole
  have hpolicy := ready_writePolicy hset.toStored hc hsound (by simp) version
  exact hpolicy.mono (fun _ _ hg => hg) fun _ hk => hk.1

theorem entrypointOr_of_entrypoint
    (h : info.entrypoint = c.entrypoint) (hnamed : c.entrypoint ≠ "") :
    info.entrypointOr = c.entrypoint := by
  unfold PolicyMetadata.entrypointOr
  rw [h, if_neg hnamed]

theorem applyPolicy_ready (hK : ∀ c ∈ K, c.Sound cfg) (h : k.Settled cfg K) {version : ℕ}
    (ha : applyPolicy cfg k now version = .ok acts) : k.Ready cfg K acts := by
  unfold applyPolicy at ha
  rcases h.dirs .staged with ⟨hwasm, -⟩ | ⟨c, hc, info, hwasm, hinfo, hentry⟩
  · simp only [hwasm] at ha
    cases ha
  · simp only [hwasm, hinfo, readMetadata] at ha
    have hsound := hK c hc
    rw [checkWasm_of_loadable hsound.loadable] at ha
    have hbackup := whole_copy (h.dirs .current) (h.dirs .backup)
    by_cases hversion : version ≠ 0 ∧ info.version ≠ 0 ∧ version ≠ info.version
    · rw [if_pos hversion] at ha
      cases ha
    · rw [if_neg hversion] at ha
      cases ha
      rw [hentry, append_assoc]
      refine (ready_settled h hbackup).append ?_
      intro k' hk'
      exact ready_install hk' hc hsound (entrypointOr_of_entrypoint rfl hsound.named) _ _

theorem rollbackPolicy_ready (hK : ∀ c ∈ K, c.Sound cfg) (h : k.Settled cfg K)
    (ha : rollbackPolicy cfg k now = .ok acts) : k.Ready cfg K acts := by
  unfold rollbackPolicy at ha
  rcases h.dirs .backup with ⟨hwasm, -⟩ | ⟨c, hc, info, hwasm, hinfo, hentry⟩
  · simp only [hwasm] at ha
    cases ha
  · simp only [hwasm, hinfo, readMetadata] at ha
    have hsound := hK c hc
    rw [checkWasm_of_loadable hsound.loadable] at ha
    cases ha
    rw [hentry]
    refine ready_install h hc hsound ?_ _ _
    exact hentry

theorem clearPolicy_ready (h : k.Settled cfg K) : k.Ready cfg K (clearPolicy cfg) := by
  have hempty : ∀ {k' : Disk} (dir : Dir), k'.Settled cfg K → k'.Ready cfg K (emptyDir dir) :=
    fun {k'} dir hk' => ready_settled hk' (whole_empty _)
  unfold clearPolicy
  rw [append_assoc, append_assoc]
  refine (hempty .current h).append fun k₁ h₁ => ?_
  refine (hempty .staged h₁).append fun k₂ h₂ => ?_
  exact (hempty .backup h₂).append fun k₃ h₃ => ready_clearRegion h₃

section
variable (hK : ∀ c ∈ K, c.Sound cfg)
include hK

theorem currentPolicy_of_whole (h : d.Whole K) : currentPolicy cfg d = none ∨
      ∃ c ∈ K, ∃ info : PolicyMetadata, currentPolicy cfg d = some (info, c.wasm) ∧
        d.wasm = some c.wasm ∧ info.hash = hashOf cfg c.wasm ∧ info.entrypointOr = c.entrypoint := by
  rcases h with ⟨hwasm, -⟩ | ⟨c, hc, info, hwasm, hinfo, hentry⟩
  · left
    simp [currentPolicy, hwasm]
  · right
    have hne := (hK c hc).loadable.ne_nil
    refine ⟨c, hc, { info with hash := hashOf cfg c.wasm, wasmSize := c.wasm.length }, ?_, hwasm,
      rfl, hentry⟩
    simp [currentPolicy, hwasm, hne, hinfo, readMetadata]

theorem publishPolicy_ready (h : k.Settled cfg K) : k.Ready cfg K (publishPolicy cfg k now) := by
  -- every write of the folder is one that keeps it
  have hwrites : ∀ a ∈ publishPolicy cfg k now, ∃ w, a = .dist w ∧ w.Sound cfg K := by
    intro a ha
    unfold publishPolicy at ha
    obtain ⟨w, hw, rfl⟩ := List.mem_map.mp ha
    refine ⟨w, rfl, ?_⟩
    simp only [mem_append, mem_singleton, List.mem_map] at hw
    rcases currentPolicy_of_whole hK (h.dirs .current) with hnone | ⟨c, hc, info, hsome, -, hhash, hentry⟩
    · rw [hnone] at hw
      rcases hw with (hw | rfl) | ⟨name, -, rfl⟩
      · cases hw
      · exact .inl ⟨rfl, rfl⟩
      · trivial
    · rw [hsome] at hw
      rcases hw with (hw | rfl) | ⟨name, -, rfl⟩
      · obtain rfl := mem_singleton.mp hw
        exact ⟨c, hc, rfl, by rw [← hhash]; rfl⟩
      · exact .inr ⟨c, hc, hhash, rfl, hentry⟩
      · trivial
  apply ready_of_invariant _ _ h
  · intro a ha k' hk'
    obtain ⟨w, rfl, hw⟩ := hwrites a ha
    exact ⟨hk', hw⟩
  · intro a ha k' hk'
    obtain ⟨w, rfl, hw⟩ := hwrites a ha
    exact ⟨⟨hk'.dirs, hk'.dist.write hw⟩, hk'.region⟩

theorem loadCurrentPolicy_ready (h : k.Recoverable cfg K) :
    ∃ acts, loadCurrentPolicy cfg k = .ok acts ∧ k.Ready cfg K acts := by
  unfold loadCurrentPolicy
  rcases h.dirs .current with ⟨hwasm, -⟩ | ⟨c, hc, info, hwasm, hinfo, hentry⟩
  · simp only [hwasm]
    have hregion := h.region.resolve_right fun hne => hne hwasm
    exact ⟨[], rfl, ready_nil.mpr ⟨h.toStored, hregion⟩⟩
  · have hsound := hK c hc
    simp only [hwasm, hinfo, readMetadata]
    rw [checkWasm_of_loadable hsound.loadable, hentry]
    refine ⟨_, rfl, ?_⟩
    have hne : (k.dirs .current).wasm ≠ none := by
      rw [hwasm]
      exact Option.some_ne_none _
    refine (ready_writePolicy h.toStored hc hsound hne _).append ?_
    rintro k' ⟨hk', hdirs⟩
    apply ready_settled hk'
    rw [hdirs]
    exact .inr ⟨c, hc, _, hwasm, rfl, hentry⟩

theorem installedPolicy_of_whole (h : d.Whole K) : installedPolicy cfg d = .ok none ∨
      ∃ c ∈ K, ∃ info : PolicyMetadata, installedPolicy cfg d = .ok (some (info, c.wasm)) ∧
        d.wasm = some c.wasm ∧ info.entrypointOr = c.entrypoint := by
  unfold installedPolicy
  rcases currentPolicy_of_whole hK h with hnone | ⟨c, hc, info, hsome, hwasm, -, hentry⟩
  · left
    rw [hnone]
  · right
    refine ⟨c, hc, info, ?_, hwasm, hentry⟩
    have hloadable := (hK c hc).loadable
    simp [hsome, hloadable.1, hloadable.2]

theorem ensureRegion_ready (h : k.Settled cfg K) :
    k.Ready cfg K (ensureRegionMatchesCurrent cfg k) := by
  have hnothing : k.Ready cfg K [] := ready_nil.mpr h
  unfold ensureRegionMatchesCurrent
  rcases installedPolicy_of_whole hK (h.dirs .current) with hnone | ⟨c, hc, info, hsome, hwasm, hentry⟩
  · rw [hnone]
    split_ifs
    · exact hnothing
    · exact ready_clearRegion h
  · rw [hsome]
    dsimp only
    split_ifs
    · exact hnothing
    · have hne : (k.dirs .current).wasm ≠ none := by
        rw [hwasm]
        exact Option.some_ne_none _
      rw [hentry]
      have hpolicy := ready_writePolicy h.toStored hc (hK c hc) hne info.version
      exact hpolicy.mono (fun _ _ hg => hg) fun _ hk => hk.1

theorem republish_ready (h : k.Settled cfg K) : k.Ready cfg K (republishIfStale cfg k now) := by
  have hnothing : k.Ready cfg K [] := ready_nil.mpr h
  unfold republishIfStale
  split
  · exact hnothing
  · split_ifs
    · exact hnothing
    · exact publishPolicy_ready hK h

end

/-- What reaches a hive and matches the manifest's digest is the wasm the manifest was made for. -/
theorem syncFromPublishedPolicy_ready (hdist : cfg.Distinct) (hK : ∀ c ∈ K, c.Sound cfg)
    (h : k.Settled cfg K) : k.Ready cfg K (syncFromPublishedPolicy cfg k).1 := by
  have hnothing : k.Ready cfg K [] := ready_nil.mpr h
  unfold syncFromPublishedPolicy
  cases hm : k.dist.manifest with
  | none => exact hnothing
  | some m =>
    dsimp only
    split_ifs with hnone
    · exact hnothing
    · exact clearPolicy_ready h
    · exact hnothing
    · cases hw : k.dist.wasms.lookup (filepathBase m.wasmFile) with
      | none => exact hnothing
      | some wasm =>
        dsimp only
        split_ifs with hother
        · exact hnothing
        · obtain ⟨c', hc', hwasm, -⟩ := h.dist.wasms _ _ hw
          obtain ⟨c, hc, hhash, -, hentry⟩ :=
            (h.dist.manifest m hm).resolve_left fun hblank => hnone hblank.2
          obtain ⟨rego, hmade⟩ := (hK c hc).made
          obtain ⟨rego', hmade'⟩ := (hK c' hc').made
          have hsame : c'.wasm = c.wasm := by
            apply hdist hmade' hmade
            rw [← hwasm, not_not.mp hother, hhash]
          obtain rfl := hwasm.trans hsame
          exact ready_writePolicyFiles h .staged hc
            (entrypointOr_of_entrypoint hentry (hK c hc).named) _

theorem syncFromPublishedPolicy_tasks (cfg : Config) (k : Disk) :
    ∀ t ∈ (syncFromPublishedPolicy cfg k).2, ∃ version, t = ⟨.apply version, false⟩ := by
  unfold syncFromPublishedPolicy
  intro t ht
  split at ht
  · cases ht
  · split_ifs at ht
    · cases ht
    · cases ht
    · cases ht
    · split at ht
      · cases ht
      · split_ifs at ht
        · cases ht
        · exact ⟨_, mem_singleton.mp ht⟩

theorem compilePolicy_ready {version : ℕ} {rego entrypoint : String}
    (hne : compiledEntrypoint entrypoint ≠ "")
    (ha : compilePolicy cfg now version rego entrypoint = .ok acts) :
    ∃ wasm, compileRego cfg rego (compiledEntrypoint entrypoint) = .ok wasm ∧ rego ≠ "" ∧
      (⟨wasm, compiledEntrypoint entrypoint⟩ ∈ K → k.Settled cfg K → k.Ready cfg K acts) := by
  unfold compilePolicy at ha
  split_ifs at ha with hrego
  split at ha
  · cases ha
  next wasm hmade =>
    cases ha
    refine ⟨wasm, hmade, hrego, fun hmem hs => ?_⟩
    exact ready_writePolicyFiles hs .staged hmem (entrypointOr_of_entrypoint rfl hne) _

end

end Fluxbee.Opa
