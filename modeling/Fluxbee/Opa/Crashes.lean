import Fluxbee.Opa.Whole

/-! Policies over crashes: what the routers' region and the published manifest hold in every run in
which no crash comes while a directory is being rewritten. -/
namespace Fluxbee.Opa
open Text GuardedRun Plans List Request Opa.Task Hive Except

variable {h : Hive} {K : List Compiled} {t : Task} {entrypoint : String} {c : Compiled} {op : Op}
  {more : List Task} {e : Event} {d : Dist} {s : System}

section
variable {cfg : Config} {K : List Compiled} {k : Disk} {now : String} {acts : List Act}

/-- A task that compiles does so for an entrypoint the region has room for. -/
def Task.Short (t : Task) : Prop :=
  ∀ version rego entrypoint, t.op = .compile version rego entrypoint →
    (asBytes (compiledEntrypoint entrypoint)).length ≤ 64

theorem Task.short_of_ne (h : ∀ version rego entrypoint,
    t.op ≠ .compile version rego entrypoint) : t.Short :=
  fun version rego entrypoint heq => absurd heq (h version rego entrypoint)

theorem compiledEntrypoint_ne (entrypoint : String) : compiledEntrypoint entrypoint ≠ "" := by
  unfold compiledEntrypoint
  split_ifs with h
  · decide
  · exact h

theorem compiledEntrypoint_short (h : (asBytes entrypoint).length ≤ 64) :
    (asBytes (compiledEntrypoint entrypoint)).length ≤ 64 := by
  unfold compiledEntrypoint
  split_ifs
  · decide
  · exact h

theorem completes_sound (h : t.Short) (hc : c ∈ t.op.completes cfg) : c.Sound cfg := by
  cases hop : t.op with
  | compile version rego entrypoint =>
    rw [hop, Op.completes] at hc
    split_ifs at hc with hrego
    · cases hc
    · split at hc
      · cases hc
      next wasm hmade =>
        cases hc
        exact ⟨⟨rego, hmade⟩, compiledEntrypoint_ne _, h _ _ _ hop⟩
  | _ =>
    rw [hop] at hc
    cases hc

theorem bind_pure_ok {α β ε : Type} {x : Except ε α} {f : α → β} {b : β}
    (h : (do return f (← x)) = ok b) : ∃ a, x = .ok a ∧ f a = b := by
  cases x with
  | error e => cases h
  | ok a =>
    cases h
    exact ⟨a, rfl, rfl⟩

/-- Every operation, begun where all is whole, leads to where all is whole again, a compile's own
result counted. -/
theorem plan_ready (hdist : cfg.Distinct)
    (hK : ∀ c ∈ K ++ (op.completes cfg).toList, c.Sound cfg) (h : k.Settled cfg K)
    (hp : plan cfg now k op = .ok (acts, more)) :
    k.Ready cfg (K ++ (op.completes cfg).toList) acts := by
  have hs := h.mono (subset_append_left K (op.completes cfg).toList)
  cases op with
  | compile version rego entrypoint =>
    obtain ⟨a, ha, heq⟩ := bind_pure_ok hp
    cases heq
    obtain ⟨wasm, hmade, hrego, hready⟩ :=
      @compilePolicy_ready cfg _ k now _ version rego entrypoint (compiledEntrypoint_ne _) ha
    apply hready _ hs
    simp [Op.completes, hrego, hmade]
  | apply version =>
    obtain ⟨a, ha, heq⟩ := bind_pure_ok hp
    cases heq
    exact applyPolicy_ready hK hs ha
  | rollback =>
    obtain ⟨a, ha, heq⟩ := bind_pure_ok hp
    cases heq
    exact rollbackPolicy_ready hK hs ha
  | clear =>
    cases hp
    exact clearPolicy_ready hs
  | publish =>
    cases hp
    exact publishPolicy_ready hK hs
  | load =>
    obtain ⟨a, ha, heq⟩ := bind_pure_ok hp
    cases heq
    obtain ⟨acts, hload, hready⟩ := loadCurrentPolicy_ready hK hs.recoverable
    cases hload.symm.trans ha
    exact hready
  | republish =>
    cases hp
    exact republish_ready hK hs
  | syncPublished =>
    have hfst : acts = (syncFromPublishedPolicy cfg k).1 := (congrArg Prod.fst (ok.inj hp)).symm
    rw [hfst]
    exact syncFromPublishedPolicy_ready hdist hK hs
  | ensureRegion =>
    cases hp
    exact ensureRegion_ready hK hs

theorem plan_more_short (hp : plan cfg now k op = .ok (acts, more)) : ∀ t ∈ more, t.Short := by
  cases op with
  | compile | apply | rollback | load =>
    obtain ⟨a, -, heq⟩ := bind_pure_ok hp
    cases heq
    intro t ht
    cases ht
  | clear | publish | republish | ensureRegion =>
    cases hp
    intro t ht
    cases ht
  | syncPublished =>
    have hsnd : more = (syncFromPublishedPolicy cfg k).2 := (congrArg Prod.snd (ok.inj hp)).symm
    intro t ht
    rw [hsnd] at ht
    obtain ⟨version, rfl⟩ := syncFromPublishedPolicy_tasks cfg k t ht
    exact short_of_ne nofun

/-- A process at work is on its way to where all is whole, unless it has yet to load the policy it
starts with. -/
def Hive.Sound (cfg : Config) (K : List Compiled) (h : Hive) : Prop :=
  match h.process with
  | .down => h.disk.Recoverable cfg K
  | .up serving acts tasks =>
    (∀ t ∈ tasks, t.Short) ∧
      (h.disk.Ready cfg K acts ∨
        serving = false ∧ acts = [] ∧ h.disk.Recoverable cfg K ∧
          ∃ strict rest, tasks = ⟨.load, strict⟩ :: rest)

/-- The events a hive's policy survives: a crash leaves no directory half rewritten, and a compile's
entrypoint fits the region. -/
def Hive.Intact (h : Hive) : Event → Prop
  | .crash begun =>
    match h.process with
    | .up _ (.file _ _ first :: _) _ => first = true ∧ begun = none
    | _ => True
  | .request (.compile _ _ entrypoint _) => (asBytes entrypoint).length ≤ 64
  | _ => True

instance (h : Hive) (e : Event) : Decidable (h.Intact e) := by
  unfold Hive.Intact
  split
  · split <;> infer_instance
  · infer_instance
  · infer_instance

theorem Request.tasks_short {r : Request} (hr : h.Intact (.request r)) :
    ∀ t ∈ r.tasks, t.Short := by
  have happly : ∀ version, Task.Short ⟨.apply version, true⟩ := fun version =>
    short_of_ne nofun
  have hpublish : Task.Short ⟨.publish, true⟩ := short_of_ne nofun
  cases r with
  | compile version rego entrypoint autoApply =>
    have hcompile : Task.Short ⟨.compile version rego entrypoint, true⟩ := by
      intro _ _ _ heq
      cases heq
      exact compiledEntrypoint_short hr
    cases autoApply <;> simp [tasks, hcompile, happly, hpublish]
  | apply version => simp [tasks, happly, hpublish]
  | rollback =>
    have hrollback : Task.Short ⟨.rollback, true⟩ := short_of_ne nofun
    simp [tasks, hrollback, hpublish]
  | clear =>
    have hclear : Task.Short ⟨.clear, true⟩ := short_of_ne nofun
    simp [tasks, hclear, hpublish]

theorem startTasks_short (primary : Bool) : ∀ t ∈ startTasks primary, t.Short := by
  intro t ht
  apply short_of_ne
  intro version rego entrypoint heq
  cases primary <;> simp [startTasks] at ht <;> aesop

theorem syncTasks_short (primary : Bool) : ∀ t ∈ syncTasks primary, t.Short := by
  intro t ht
  apply short_of_ne
  intro version rego entrypoint heq
  cases primary <;> simp [syncTasks] at ht <;> aesop

theorem Disk.Ready.cut (h : k.Ready cfg K acts) {begun : Option ℕ}
    (hcut : ∀ dir w first rest, acts = .file dir w first :: rest → first = true ∧ begun = none) :
    (cut k acts begun).Recoverable cfg K := by
  cases acts with
  | nil =>
    have hs := ready_nil.mp h
    exact hs.recoverable
  | cons a rest =>
    have hguard := (ready_cons.mp h).1
    cases a with
    | file dir w first =>
      obtain ⟨rfl, rfl⟩ := hcut dir w first rest rfl
      obtain ⟨hdirs, hdist, hregion⟩ := hguard
      exact ⟨⟨fun d => hdirs d (.inr rfl), hdist⟩, .inl hregion⟩
    | dist w =>
      have hs := hguard.1.recoverable
      cases begun <;> exact hs
    | region w =>
      obtain ⟨hstored, hregion⟩ := hguard
      cases begun with
      | none => exact ⟨hstored, hregion.symm.imp And.left id⟩
      | some n =>
        refine ⟨⟨hstored.dirs, hstored.dist⟩, ?_⟩
        exact hregion.symm.imp (fun hr => hr.2 n) id

theorem Hive.Sound.mono {K' : List Compiled} (hK : K ⊆ K') (hs : h.Sound cfg K) :
    h.Sound cfg K' := by
  obtain ⟨disk, process⟩ := h
  cases process with
  | down => exact Disk.Recoverable.mono hK hs
  | up serving acts tasks =>
    obtain ⟨hshort, hready | ⟨hserving, hacts, hrec, hload⟩⟩ := hs
    · exact ⟨hshort, .inl (hready.mono hK)⟩
    · exact ⟨hshort, .inr ⟨hserving, hacts, hrec.mono hK, hload⟩⟩

theorem Hive.Sound.work (hdist : cfg.Distinct) {serving : Bool} {tasks : List Task}
    (hK : ∀ c ∈ K ++ (t.op.completes cfg).toList, c.Sound cfg)
    (hs : Hive.Sound cfg K ⟨k, .up serving [] (t :: tasks)⟩) (primary : Bool) :
    (step cfg primary ⟨k, .up serving [] (t :: tasks)⟩ (.work now)).Sound cfg
      (K ++ (t.op.completes cfg).toList) := by
  obtain ⟨hshort, hready⟩ := hs
  have hmono : K ⊆ K ++ (t.op.completes cfg).toList := subset_append_left ..
  have hrest : ∀ t' ∈ tasks, t'.Short := fun t' ht' => hshort t' (mem_cons_of_mem _ ht')
  unfold step
  dsimp only
  rcases hready with hready | ⟨-, -, hrec, strict, rest, hload⟩
  · have hsettled := ready_nil.mp hready
    cases hp : plan cfg now k t.op with
    | error e =>
      refine ⟨?_, .inl (ready_nil.mpr (hsettled.mono hmono))⟩
      intro t' ht'
      split_ifs at ht'
      · cases ht'
      · exact hrest t' ht'
    | ok next =>
      obtain ⟨acts, more⟩ := next
      refine ⟨?_, .inl (plan_ready hdist hK hsettled hp)⟩
      intro t' ht'
      rcases mem_append.mp ht' with hmore | htail
      · exact plan_more_short hp t' hmore
      · exact hrest t' htail
  · cases hload
    have hnone : (⟨.load, strict⟩ : Task).op.completes cfg = none := rfl
    rw [hnone] at hK
    obtain ⟨acts, hacts, hready⟩ :=
      loadCurrentPolicy_ready (fun c hc => hK c (mem_append_left _ hc)) hrec
    have hp : plan cfg now k (⟨.load, strict⟩ : Task).op = .ok (acts, []) := by
      simp [plan, hacts]
    rw [hp]
    exact ⟨hrest, .inl (hready.mono hmono)⟩

theorem Hive.Sound.step (hdist : cfg.Distinct) (hs : h.Sound cfg K)
    (hK : ∀ c ∈ K ++ (h.completes cfg e).toList, c.Sound cfg) (he : h.Intact e) (primary : Bool) :
    (h.step cfg primary e).Sound cfg (K ++ (h.completes cfg e).toList) := by
  have hsame := hs.mono (subset_append_left K (h.completes cfg e).toList)
  obtain ⟨disk, process⟩ := h
  cases process with
  | down =>
    cases e with
    | start =>
      exact ⟨startTasks_short primary, .inr ⟨rfl, rfl, hsame, false, _, rfl⟩⟩
    | request r | syncRound | work now | crash begun => exact hsame
  | up serving acts tasks =>
    cases e with
    | start => exact hsame
    | request r =>
      unfold step
      dsimp only
      split
      next heq =>
        cases heq
        split_ifs
        · exact ⟨tasks_short he, hsame.2.imp id fun hload => by cases hload.1⟩
        · exact hsame
      next => exact hsame
    | syncRound =>
      unfold step
      dsimp only
      split
      next heq =>
        cases heq
        exact ⟨syncTasks_short primary, hsame.2.imp id fun hload => by cases hload.1⟩
      next => exact hsame
    | work now =>
      cases acts with
      | cons a acts =>
        obtain ⟨hshort, hready | ⟨-, hacts, -⟩⟩ := hsame
        · exact ⟨hshort, .inl (ready_cons.mp hready).2⟩
        · cases hacts
      | nil =>
        cases tasks with
        | nil =>
          obtain ⟨hshort, hready | ⟨-, -, -, strict, rest, hload⟩⟩ := hsame
          · exact ⟨hshort, .inl hready⟩
          · cases hload
        | cons t tasks => exact Hive.Sound.work hdist hK hs primary
    | crash begun =>
      obtain ⟨hshort, hready | ⟨-, rfl, hrec, -⟩⟩ := hsame
      · apply hready.cut
        intro dir w first rest hacts
        subst hacts
        exact he
      · exact hrec

end

section
variable {cfg : Config}

def System.Intact (s : System) : SystemEvent → Prop
  | .on hive e => (s.hives hive).Intact e
  | .carryManifest .. | .carryWasm .. => True

instance (s : System) (e : SystemEvent) : Decidable (s.Intact e) := by
  unfold System.Intact
  split <;> infer_instance

structure System.Sound (cfg : Config) (s : System) : Prop where
  compiled : ∀ c ∈ s.compiled, c.Sound cfg
  hives : ∀ hive, (s.hives hive).Sound cfg s.compiled
  published : ∀ d ∈ s.published, d.Holds cfg s.compiled

theorem Hive.Sound.dist (hs : h.Sound cfg K) : h.disk.dist.Holds cfg K := by
  obtain ⟨disk, process⟩ := h
  cases process with
  | down =>
    have hrec : disk.Recoverable cfg K := hs
    exact hrec.dist
  | up serving acts tasks =>
    rcases hs.2 with hready | ⟨-, -, hrec, -⟩
    · exact hready.dist
    · exact hrec.dist

theorem Hive.Sound.withDist (hs : h.Sound cfg K) (hd : d.Holds cfg K) :
    Hive.Sound cfg K { h with disk := { h.disk with dist := d } } := by
  obtain ⟨disk, process⟩ := h
  have hrec : disk.Recoverable cfg K → Disk.Recoverable cfg K { disk with dist := d } :=
    fun hr => ⟨⟨hr.dirs, hd⟩, hr.region⟩
  cases process with
  | down => exact hrec hs
  | up serving acts tasks =>
    obtain ⟨hshort, hready | ⟨hserving, hacts, hr, hload⟩⟩ := hs
    · exact ⟨hshort, .inl (hready.withDist hd)⟩
    · exact ⟨hshort, .inr ⟨hserving, hacts, hrec hr, hload⟩⟩

theorem System.Sound.setDist (hs : s.Sound cfg) {hive : String}
    (hd : d.Holds cfg s.compiled) : (s.setDist hive d).Sound cfg := by
  refine ⟨hs.compiled, fun hive' => ?_, hs.published⟩
  simp only [System.setDist, System.setHive]
  by_cases hsame : hive' = hive
  · subst hsame
    rw [Function.update_self]
    exact (hs.hives hive').withDist hd
  · rw [Function.update_of_ne hsame]
    exact hs.hives hive'

theorem System.Sound.source (hs : s.Sound cfg) (k : ℕ) :
    ((s.published[k]?).getD {}).Holds cfg s.compiled := by
  cases hk : s.published[k]? with
  | none => exact .empty
  | some d => exact hs.published d (mem_of_getElem? hk)

theorem completes_task (hs : h.Sound cfg K)
    (hc : c ∈ (h.completes cfg e).toList) : c.Sound cfg := by
  obtain ⟨disk, process⟩ := h
  unfold completes at hc
  cases e with
  | work now =>
    cases process with
    | down => cases hc
    | up serving acts tasks =>
      cases acts with
      | cons a acts => cases hc
      | nil =>
        cases tasks with
        | nil => cases hc
        | cons t tasks =>
          exact completes_sound (hs.1 t (mem_cons_self ..)) (Option.mem_toList.mp hc)
  | _ => cases hc

theorem System.Sound.step (hdist : cfg.Distinct) (hs : s.Sound cfg)
    {e : SystemEvent} (he : s.Intact e) : (s.step cfg e).Sound cfg := by
  cases e with
  | carryManifest hive k =>
    unfold System.step
    dsimp only
    split_ifs
    · exact hs
    · exact hs.setDist ⟨(hs.source k).manifest, (hs.hives hive).dist.wasms⟩
  | carryWasm hive k name =>
    unfold System.step
    dsimp only
    split_ifs
    · exact hs
    · apply hs.setDist
      unfold Dist.takeWasm
      split
      next data hlook =>
        have hsound := (hs.source k).wasms _ _ hlook
        exact (hs.hives hive).dist.write hsound
      next => exact (hs.hives hive).dist.write trivial
  | on hive e =>
    have hK : ∀ c ∈ s.compiled ++ ((s.hives hive).completes cfg e).toList, c.Sound cfg := by
      intro c hc
      rcases mem_append.mp hc with hold | hnew
      · exact hs.compiled c hold
      · exact completes_task (hs.hives hive) hnew
    have hmono : s.compiled ⊆ s.compiled ++ ((s.hives hive).completes cfg e).toList :=
      subset_append_left ..
    have hnext := (hs.hives hive).step hdist hK he (hive == primaryHiveID)
    refine ⟨hK, fun hive' => ?_, fun d hd => ?_⟩
    · by_cases hsame : hive' = hive
      · subst hsame
        simpa only [System.step, Function.update_self] using hnext
      · simpa only [System.step, Function.update_of_ne hsame] using (hs.hives hive').mono hmono
    · simp only [System.step] at hd
      split_ifs at hd
      · rcases mem_append.mp hd with hold | hnew
        · exact (hs.published d hold).mono hmono
        · obtain rfl := mem_singleton.mp hnew
          exact hnext.dist
      · exact (hs.published d hd).mono hmono

theorem System.sound_initial : System.Sound cfg {} where
  compiled c hc := by cases hc
  hives _ := ⟨⟨fun _ => whole_empty _, .empty⟩, .inl (.inl rfl)⟩
  published d hd := by
    obtain rfl := mem_singleton.mp hd
    exact .empty

/-- The hive has started, and no write to its region is under way. -/
def Hive.Readable (h : Hive) : Prop :=
  match h.process with
  | .up true (.region _ :: _) _ => False
  | .up true _ _ => True
  | _ => False

instance (h : Hive) : Decidable h.Readable := by
  unfold Hive.Readable
  split <;> infer_instance

theorem Hive.Sound.readable (hs : h.Sound cfg K) (hr : h.Readable) : h.disk.region.Holds K := by
  obtain ⟨disk, process⟩ := h
  cases process with
  | down => cases hr
  | up serving acts tasks =>
    cases serving with
    | false => cases hr
    | true =>
      have hready := hs.2.resolve_right fun hload => by cases hload.1
      cases acts with
      | nil => exact (ready_nil.mp hready).region
      | cons a acts =>
        have hguard := (ready_cons.mp hready).1
        cases a with
        | file dir w first => exact hguard.2.2
        | dist w => exact hguard.1.region
        | region w => cases hr

/-- In every run of the hives in which no crash comes while a policy directory is being rewritten
and every compile's entrypoint fits the region, each hive that has started gives its routers no
policy, or the exact wasm of a completed compile with its entrypoint; and so does the wasm the
published manifest names, there and where the sync brought it. -/
theorem only_whole_policies (hdist : cfg.Distinct) {events : List SystemEvent}
    (h : Along (System.step cfg) System.Intact {} events) (hive : String) :
    let s := events.foldl (System.step cfg) {}
    ((s.hives hive).Readable → (s.hives hive).disk.region.Holds s.compiled) ∧
      (s.hives hive).disk.dist.Whole s.compiled := by
  have hs : (events.foldl (System.step cfg) {}).Sound cfg :=
    h.invariant (fun s e he hs => hs.step hdist he) System.sound_initial
  constructor
  · intro hr
    exact (hs.hives hive).readable hr
  · exact (hs.hives hive).dist.whole hdist hs.compiled

end

namespace Cuts

/-- A wasm with the export and one more section, whose body is a byte. -/
def module (body : UInt8) : Bytes :=
  wasmMagic ++ [1, 0, 0, 0] ++ ([7, 12, 1, 8] ++ opaEval ++ [0, 0]) ++ [10, 1, body]

/-- Two policies the compiler knows, and a digest that tells their wasms apart. -/
def cfg : Config where
  build rego _ :=
    if rego = "a" then .ok (module 1) else if rego = "b" then .ok (module 2)
    else .error "rego_parse_error"
  sha256 wasm := hexEncode (wasm.reverse.take 32)

theorem compileRego_cases {rego : String} {w : Bytes}
    (h : compileRego cfg rego entrypoint = .ok w) : w = module 1 ∨ w = module 2 := by
  by_cases ha : rego = "a"
  · subst ha
    exact .inl (ok.inj h).symm
  · by_cases hb : rego = "b"
    · subst hb
      exact .inr (ok.inj h).symm
    · simp [compileRego, cfg, ha, hb, bind, Except.bind] at h

theorem cfg_distinct : cfg.Distinct := by
  intro _ _ _ _ w w' hw hw' hname
  rcases compileRego_cases hw with rfl | rfl <;> rcases compileRego_cases hw' with rfl | rfl
  · rfl
  · exact absurd hname (by decide +kernel)
  · exact absurd hname (by decide +kernel)
  · rfl

def works (hive : String) (n : ℕ) : List SystemEvent :=
  List.replicate n (.on hive (.work "2026-01-01T00:00:00Z"))

def boot (hive : String) : List SystemEvent := .on hive .start :: works hive 20

/-- The first policy compiled, applied and published, and the second one's request taken. -/
def second : List SystemEvent :=
  boot "motherbee" ++ [.on "motherbee" (.request (.compile 1 "a" "a/target" true))] ++
    works "motherbee" 30 ++ [.on "motherbee" (.request (.compile 2 "b" "b/target" true))]

/-- Killed between the wasm and the metadata of `current`, and started again. -/
def mixed : List SystemEvent :=
  second ++ works "motherbee" 9 ++ [.on "motherbee" (.crash none)] ++ boot "motherbee"

/-- Killed while the wasm of `current` is written, one byte short. -/
def torn : List SystemEvent :=
  second ++ works "motherbee" 8 ++ [.on "motherbee" (.crash (some 24))] ++ boot "motherbee"

/-- A compile for an entrypoint of 65 bytes, applied without any crash. -/
def long : List SystemEvent :=
  boot "motherbee" ++
    [.on "motherbee" (.request (.compile 1 "a" (String.ofList (List.replicate 65 'e')) true))] ++
    works "motherbee" 30

/-- Killed while the region is written, started again, and published to another hive, which installs
what it is brought. -/
def kept : List SystemEvent :=
  second ++ works "motherbee" 15 ++ [.on "motherbee" (.crash (some 3))] ++ boot "motherbee" ++
    boot "worker" ++ [.carryManifest "worker" 90,
      .carryWasm "worker" 90 (wasmFileName (hashOf cfg (module 2))), .on "worker" .syncRound] ++
    works "worker" 20

def run (events : List SystemEvent) : System := events.foldl (System.step cfg) {}

end Cuts

open Cuts

/-- After a kill between the writes of an install the started motherbee gives its routers, and
publishes, the second policy's wasm with the first one's entrypoint; after a kill within the first
of them, a wasm that lacks its end. A long entrypoint reaches the region cut off. -/
theorem cut_install_mixes_policies :
    (let s := Cuts.run Cuts.mixed
      let h := s.hives "motherbee"
      h.Readable ∧ h.disk.region.wasm = Cuts.module 2 ∧
        h.disk.region.entrypoint = asBytes "a/target" ∧
        ¬h.disk.region.Holds s.compiled ∧ ¬h.disk.dist.Whole s.compiled) ∧
      (let s := Cuts.run Cuts.torn
        let h := s.hives "motherbee"
        h.Readable ∧ h.disk.region.wasm = (Cuts.module 2).take 24 ∧
          ¬h.disk.region.Holds s.compiled ∧ ¬h.disk.dist.Whole s.compiled) ∧
      (let s := Cuts.run Cuts.long
        let h := s.hives "motherbee"
        h.Readable ∧ ¬h.disk.region.Holds s.compiled) := by
  decide +kernel

/-- A kill within the region's write is made good by the start, and the other hive installs what is
then published. -/
theorem only_whole_policies_kept :
    (let s := Cuts.run Cuts.kept
      let h := s.hives "worker"
      h.Readable ∧ h.disk.region.wasm = Cuts.module 2 ∧ h.disk.region.Holds s.compiled ∧
        h.disk.dist.Whole s.compiled) := by
  have halong : Along (System.step cfg) System.Intact {} kept := by decide +kernel
  have hwhole := only_whole_policies cfg_distinct halong "worker"
  have hrun : kept.foldl (System.step cfg) {} = run kept := rfl
  dsimp only at hwhole ⊢
  rw [hrun] at hwhole
  have hnow : ((run kept).hives "worker").Readable ∧
      ((run kept).hives "worker").disk.region.wasm = module 2 := by
    decide +kernel
  -- the run is not to be evaluated again
  generalize run kept = s at hwhole hnow ⊢
  exact ⟨hnow.1, hnow.2, hwhole.1 hnow.1, hwhole.2⟩

end Fluxbee.Opa
