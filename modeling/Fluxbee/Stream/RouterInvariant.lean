import Fluxbee.Stream.Progress
import Fluxbee.Stream.Router

/-! What holds in every world of a stream whose restarts never go on below the name of a segment. -/
namespace Fluxbee.Stream
open World

def World.writeSeq (w : World) : ℕ :=
  match w.thread with
  | .writing r => r.seq
  | _ => w.sys.shared.nextSeq

/-- A record taken in fits the widths of its fields, and no segment is named above the number a
restart goes on from. -/
def OrderedEvent (w : World) : RouterEvent → Prop
  | .take incoming _ => (incoming.toRecord w.sys.shared.nextSeq).Representable
  | .restart restart =>
    restart.readable = true → ∀ f ∈ w.dir, f.1 ≤ (w.recovered restart).nextSeq
  | _ => True

instance (w : World) : (e : RouterEvent) → Decidable (OrderedEvent w e)
  | .take incoming _ =>
    inferInstanceAs (Decidable (incoming.toRecord w.sys.shared.nextSeq).Representable)
  | .restart restart =>
    inferInstanceAs (Decidable (restart.readable = true → ∀ f ∈ w.dir,
      f.1 ≤ (w.recovered restart).nextSeq))
  | .write _ | .fsync _ | .housekeep _ | .save _ | .trimDisk _ | .plan _ _ | .settle _ _ _ =>
    inferInstanceAs (Decidable True)

structure World.Ordered (w : World) : Prop where
  sys : w.sys.Inv
  order : DirOk w.dir
  disk : ∀ d, w.disk = some d → DiskOk d w.dir w.writeSeq
  writing : ∀ r, w.thread = .writing r →
    r.seq + 1 = w.sys.shared.nextSeq ∧ r.Representable ∧ r ∈ w.sys.shared.records

variable {sys : System} {dir : Dir} {handed : String → List (ℕ × Record)}

theorem System.Inv.setFsynced (h : sys.Inv) (seq : ℕ) :
    ({ sys with shared := { sys.shared with fsyncedSeq := seq } } : System).Inv :=
  ⟨h.increasing, h.lt_nextSeq, fun sink hsink => (h.sinks sink hsink).imp fun _ hs =>
    hs.frame rfl rfl rfl rfl rfl rfl rfl, h.senders, h.usageLost⟩

theorem start_shared (role hiveId : String) (recovered : Recovered) (now : ℕ) :
    let s := (System.start role hiveId recovered now).shared
    s.role = role ∧ s.hiveId = hiveId ∧ s.nextSeq = recovered.nextSeq ∧
      (∀ sink ∈ allSinks role hiveId, s.cursor sink = (recovered.cursors sink).getD 0) ∧
      ∀ r ∈ s.records, r ∈ recovered.records := by
  obtain ⟨dropped, hrecords, hd⟩ := trim_spec (Shared.ofRecovered role hiveId recovered) now
  refine ⟨hd.role, hd.hiveId, hd.nextSeq, fun sink hsink => (hd.cursor_eq sink).trans ?_,
    fun r hr => ?_⟩
  · simp only [Shared.cursor, Shared.ofRecovered, if_pos hsink, Option.map_some, Option.getD_some]
  · have hall : (Shared.ofRecovered role hiveId recovered).records = recovered.records := rfl
    rw [← hall, hrecords]
    exact List.mem_append_right _ hr

theorem World.ordered_openOn {role hiveId : String} {state : SavedState}
    {restart : Restart} (h : DirOk dir) (hname : restart.readable = true → ∀ f ∈ dir,
      f.1 ≤ (recover dir state (newEpoch restart.uuid) (allSinks role hiveId)).1.nextSeq) :
    (openOn role hiveId dir state restart handed).Ordered := by
  unfold openOn
  by_cases hread : restart.readable = true
  · simp only [if_pos hread]
    have hdisk := recover_ok h state (newEpoch restart.uuid) (allSinks role hiveId) (hname hread)
    obtain ⟨hrec, -⟩ := recover_records h state (newEpoch restart.uuid) (allSinks role hiveId)
    refine ⟨?_, hdisk.order, fun d hd => ?_, nofun⟩
    · simp only [hrec]
      exact System.start_inv role hiveId state _ _ h.increasing_decoded
    · cases hd
      simp only [writeSeq, (start_shared role hiveId _ restart.now).2.2.1]
      exact hdisk
  · simp only [if_neg hread]
    exact ⟨System.start_inv role hiveId .absent _ _ List.Pairwise.nil, h, nofun, nofun⟩

theorem World.ordered_init (role hiveId : String) (restart : Restart) :
    (init role hiveId restart).Ordered :=
  ordered_openOn .nil nofun

section

variable {w : World}

theorem World.writeSeq_of_ne {w : World} (h : ∀ r, w.thread ≠ .writing r) :
    w.writeSeq = w.sys.shared.nextSeq := by
  unfold writeSeq
  cases ht : w.thread with
  | writing r => exact absurd ht (h r)
  | idle | saving | trimming => rfl

theorem World.Ordered.sender
    (h : w.Ordered) (hsys : sys.Inv) (hnext : sys.shared.nextSeq = w.sys.shared.nextSeq)
    (hrecords : sys.shared.records = w.sys.shared.records) :
    ({ w with sys, handed } : World).Ordered := by
  refine ⟨hsys, h.order, fun d hd => ?_, fun r hr => ?_⟩
  · have hseq : ({ w with sys, handed } : World).writeSeq = w.writeSeq := by
      unfold writeSeq
      simp only [hnext]
    rw [hseq]
    exact h.disk d hd
  · simp only [hnext, hrecords]
    exact h.writing r hr

theorem World.Ordered.thread {disk : Option Disk} {thread : DiskThread}
    {stateFile : List SavedState} {lastSaved : Option (ℕ × List (String × ℕ))}
    {appended : List Record} (hsys : sys.Inv) (horder : DirOk dir)
    (hdisk : ∀ d, disk = some d → DiskOk d dir sys.shared.nextSeq)
    (hthread : ∀ r, thread ≠ .writing r) :
    ({ w with sys, disk, dir, thread, stateFile, lastSaved, appended } : World).Ordered := by
  refine ⟨hsys, horder, fun d hd => ?_, fun r hr => absurd hr (hthread r)⟩
  rw [writeSeq_of_ne hthread]
  exact hdisk d hd

theorem World.Ordered.turn {e : RouterEvent} {w' : World} (h : w.Ordered) (hok : OrderedEvent w e)
    (ht : Turn w e w') : w'.Ordered := by
  have hnext : (∀ r, w.thread ≠ .writing r) →
      ∀ d, w.disk = some d → DiskOk d w.dir w.sys.shared.nextSeq := fun hthread d hd =>
    writeSeq_of_ne hthread ▸ h.disk d hd
  cases ht with
  | stutter => exact h
  | @refused i now idle taken =>
    obtain ⟨-, happend⟩ := @append_step w.sys i now
    rw [taken] at happend
    refine .thread (h.sys.append i now) h.order (fun d hd => ?_) (by simp)
    rw [happend.1]
    exact hnext (by simp [idle]) d hd
  | @taken i now r idle taken =>
    obtain ⟨-, happend⟩ := @append_step w.sys i now
    rw [taken] at happend
    obtain ⟨hr, hseq, hmem, -⟩ := happend
    refine ⟨h.sys.append i now, h.order, fun d hd => ?_, fun r' hr' => ?_⟩
    · simp only [writeSeq, hr]
      exact hnext (by simp [idle]) d hd
    · cases hr'
      refine ⟨?_, hr ▸ hok, hmem⟩
      simp only [hseq, hr]
      rfl
  | @written io r d writing disk =>
    obtain ⟨hseq, hrep, -⟩ := h.writing r writing
    have hdisk := h.disk d disk
    simp only [writeSeq, writing] at hdisk
    have happended := (appended_append io hrep hdisk).ok
    refine .thread h.sys happended.order (fun d' hd' => ?_) (by simp)
    cases hd'
    rw [← hseq]
    exact happended
  | inMemory writing disk =>
    refine .thread h.sys h.order (fun d hd => ?_) (by simp)
    rw [disk] at hd
    cases hd
  | @fsynced ok d idle disk seq =>
    have hdisk := (hnext (by simp [idle]) d disk).fsync ok
    refine .thread (h.sys.setFsynced seq) hdisk.1.order (fun d' hd' => ?_) (by simp [idle])
    cases hd'
    exact hdisk.1
  | @housekept now thread idle next =>
    refine .thread (h.sys.trim now) h.order (fun d hd => ?_) ?_
    · rw [(trim_step now).2.1]
      exact hnext (by simp [idle]) d hd
    · rcases next with rfl | ⟨-, keepFrom, nothingLeft, rfl⟩ <;> simp
  | kept saving | saved saving =>
    exact .thread h.sys h.order (hnext (by simp [saving])) (by simp)
  | @trimmed removeOk d keepFrom nothingLeft trimming disk =>
    have hdisk := (hnext (by simp [trimming]) d disk).trim keepFrom nothingLeft removeOk
    refine .thread h.sys hdisk.1.order (fun d' hd' => ?_) (by simp)
    cases hd'
    exact hdisk.1
  | nothingToTrim trimming disk =>
    exact .thread h.sys h.order (hnext (by simp [trimming])) (by simp)
  | plan sink now =>
    obtain ⟨-, hseq, hrecords, -⟩ := plan_step h.sys sink now
    exact h.sender (h.sys.plan sink now) hseq hrecords
  | settle sink reply now =>
    obtain ⟨-, hseq, hrecords⟩ := settle_step h.sys sink reply now
    exact h.sender (h.sys.settle sink reply now) hseq hrecords
  | restart restart =>
    refine ordered_openOn (h.order.crash restart.keep) fun hread f hf => ?_
    obtain ⟨f', hf', rfl⟩ := List.mem_map.mp hf
    exact hok hread f' hf'

theorem Reaches.invariant {ok : World → RouterEvent → Prop} {inv : World → Prop} {w w' : World}
    (h : Reaches ok w w') (hinit : inv w)
    (hturn : ∀ w e w', inv w → ok w e → Turn w e w' → inv w') : inv w' := by
  induction h with
  | refl => exact hinit
  | tail _ hok ih => exact hturn _ _ _ ih hok (turn_step _ _)

end

end Fluxbee.Stream
