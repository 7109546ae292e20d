import Fluxbee.Identity.Exclusivity

/-! What a hive's pushes leave alone: the tenants, the ILKs that are not its own with the keys that
lead to them, and the type `system`, which only its own SY nodes may have. -/
namespace Fluxbee.Identity
open Text Fallible IdentityStore Relation List Bool Option

section

variable {systemIlkId : String → String} {hive primaryHive : String} {s cur cur' : IdentityStore}

/-- One change of a push by `hive`, to the store `cur`, the frame having found the store `s`. -/
inductive PushStep (systemIlkId : String → String) (hive : String) (s : IdentityStore) :
    IdentityStore → IdentityStore → Prop
  | upsert {cur ilk} (owner : ilkOwningHive ilk = some hive)
    (typed : ingestIlkTypeAuthorized systemIlkId ilk hive = true) (pushable : Pushable s ilk)
    (mine : ∀ e ∈ cur.ilks.lookup ilk.ilkId, ilkOwningHive e = some hive) :
    PushStep systemIlkId hive s cur (cur.applyDelta (.ilkUpsert ilk))
  | delete {cur id} (mine : ownedBy s hive id = true)
    (spared : wellKnown cur id = true ∨ wellKnown s id = false) :
    PushStep systemIlkId hive s cur (cur.applyDelta (.ilkDelete id))
  | other {cur cur' : IdentityStore} (tenants : cur'.tenants = cur.tenants)
    (ilks : cur'.ilks = cur.ilks) (ichLookup : cur'.ichLookup = cur.ichLookup) :
    PushStep systemIlkId hive s cur cur'

theorem pushDelta_step {delta : IdentityDelta}
    (h : deltaAuthorizedForHive systemIlkId delta hive s = true) :
    PushStep systemIlkId hive s s (s.applyDelta delta) := by
  cases delta with
  | ilkUpsert ilk =>
    simp only [deltaAuthorizedForHive, and_eq_true, beq_iff_eq] at h
    obtain ⟨⟨⟨howner, htyped⟩, hpush⟩, hmine⟩ := h
    refine .upsert howner htyped (replicaPushAcceptable_pushable hpush) ?_
    intro e he
    rw [mem_def.mp he] at hmine
    simpa using hmine
  | ilkDelete id =>
    simp only [deltaAuthorizedForHive, and_eq_true] at h
    exact .delete h.2 (eq_false_or_eq_true _)
  | aliasUpsert | aliasDelete => exact .other rfl rfl rfl
  | tenantUpsert | tenantDelete => simp [deltaAuthorizedForHive] at h

theorem reconcileUpserts_steps {records : List IlkRecord}
    (h : ∀ r ∈ records, ilkOwningHive r = some hive ∧
      ingestIlkTypeAuthorized systemIlkId r hive = true ∧ Pushable s r) :
    ReflTransGen (PushStep systemIlkId hive s) cur (reconcileUpserts hive records cur).1 := by
  induction records generalizing cur with
  | nil => exact .refl
  | cons ilk rest ih =>
    have hrest := fun r hr => h r (mem_cons_of_mem ilk hr)
    obtain ⟨howner, htyped, hpush⟩ := h ilk mem_cons_self
    unfold IdentityStore.reconcileUpserts
    dsimp only
    split_ifs with hskip
    · exact ih hrest
    · refine .head (.upsert howner htyped hpush ?_) (ih hrest)
      intro e he
      by_contra hne
      apply hskip
      rw [mem_def.mp he]
      simp [hne]

theorem mem_staleIlks (hk : s.Kept) {incoming : List IlkRecord} {id : String}
    (h : id ∈ s.staleIlks hive incoming) : ownedBy s hive id = true ∧ wellKnown s id = false := by
  simp only [staleIlks, List.mem_map, mem_filter, and_eq_true, beq_iff_eq,
    decide_eq_true_eq, not_eq_true'] at h
  obtain ⟨r, ⟨hr, ⟨howner, hout⟩, hwk⟩, rfl⟩ := h
  obtain ⟨j, hj⟩ := AList.mem_values.mp hr
  have hlook : s.ilks.lookup r.ilkId = some r := by rw [hk.named j r hj, hj]
  exact ⟨by simp [ownedBy, hlook, howner], by simp [wellKnown, hlook, hwk]⟩

theorem deletes_steps {ids : List String}
    (h : ∀ id ∈ ids, ownedBy s hive id = true ∧ wellKnown s id = false) :
    ReflTransGen (PushStep systemIlkId hive s) cur (cur.applyDeltas (ids.map .ilkDelete)) := by
  induction ids generalizing cur with
  | nil => exact .refl
  | cons id rest ih =>
    obtain ⟨hmine, hwk⟩ := h id mem_cons_self
    exact .head (.delete hmine (.inr hwk)) (ih fun j hj => h j (mem_cons_of_mem id hj))

def IngestFrame.publisherHive : IngestFrame → String
  | .delta publisher _ => publisher
  | .snapshot publisher _ => publisher

theorem ingest_steps (hk : s.Kept) {frame : IngestFrame} (h : frame.publisherHive = hive) :
    ReflTransGen (PushStep systemIlkId hive s) s (ingest systemIlkId primaryHive s frame).1 := by
  subst h
  cases frame with
  | delta publisher delta =>
    unfold ingest
    dsimp only
    split_ifs with hself hauth
    · exact .refl
    · exact .single (pushDelta_step hauth)
    · exact .refl
  | snapshot publisher ilks =>
    unfold ingest
    dsimp only
    split_ifs with hself hauth
    · exact .refl
    · have hrecords : ∀ r ∈ s.acceptedPush ilks, ilkOwningHive r = some publisher ∧
          ingestIlkTypeAuthorized systemIlkId r publisher = true ∧ Pushable s r := by
        intro r hr
        obtain ⟨hfilled, hpush⟩ := mem_filter.mp hr
        obtain ⟨ilk, hilk, rfl⟩ := List.mem_map.mp hfilled
        have hmine := List.all_eq_true.mp hauth ilk hilk
        rw [and_eq_true, beq_iff_eq] at hmine
        exact ⟨hmine.1, hmine.2, replicaPushAcceptable_pushable hpush⟩
      exact (reconcileUpserts_steps hrecords).trans
        (deletes_steps fun id hid => mem_staleIlks hk hid)
    · exact .refl

/-- An ILK of the type `system` that a hive may have pushed: it lies under the id that the name of
one of the hive's own SY nodes determines. -/
def IsSystemNode (systemIlkId : String → String) (hive id : String) (r : IlkRecord) : Prop :=
  ∃ nodeName, identificationStr r.identification "node_name" = some nodeName ∧
    (stripFront "SY." nodeName).isSome ∧ ilkOwningHive r = some hive ∧ id = systemIlkId nodeName

/-- From `s` to `s'` nothing changed but what is `hive`'s own. -/
structure Isolates (systemIlkId : String → String) (hive : String) (s s' : IdentityStore) :
    Prop where
  tenants : s'.tenants = s.tenants
  ilks : ∀ id r, s.ilks.lookup id = some r → ilkOwningHive r ≠ some hive →
    s'.ilks.lookup id = some r
  keys : ∀ id r, s.ilks.lookup id = some r → ilkOwningHive r ≠ some hive →
    ∀ k, s'.resolve k = some id ↔ s.resolve k = some id
  system : ∀ id r, s'.ilks.lookup id = some r → trim r.ilkType = "system" →
    s.ilks.lookup id = some r ∨ IsSystemNode systemIlkId hive id r

theorem Isolates.refl (s : IdentityStore) : Isolates systemIlkId hive s s :=
  ⟨rfl, fun _ _ h _ => h, fun _ _ _ _ _ => Iff.rfl, fun _ _ h _ => .inl h⟩

theorem Isolates.trans (h : Isolates systemIlkId hive s cur)
    (h' : Isolates systemIlkId hive cur cur') : Isolates systemIlkId hive s cur' where
  tenants := h'.tenants.trans h.tenants
  ilks id r hr howner := h'.ilks id r (h.ilks id r hr howner) howner
  keys id r hr howner k :=
    (h'.keys id r (h.ilks id r hr howner) howner k).trans (h.keys id r hr howner k)
  system id r hr hsys := (h'.system id r hr hsys).elim (fun hcur => h.system id r hcur hsys) .inr

theorem isSystemNode_of_authorized {ilk : IlkRecord} (howner : ilkOwningHive ilk = some hive)
    (h : ingestIlkTypeAuthorized systemIlkId ilk hive = true) (hsys : trim ilk.ilkType = "system") :
    IsSystemNode systemIlkId hive ilk.ilkId (fillChannelScopes ilk) := by
  unfold ingestIlkTypeAuthorized at h
  rw [if_neg (not_not.mpr hsys)] at h
  cases hname : identificationStr ilk.identification "node_name" with
  | none => simp [hname] at h
  | some nodeName =>
    simp only [hname, and_eq_true, beq_iff_eq] at h
    exact ⟨nodeName, hname, h.1.1, howner, h.2⟩

theorem Isolates.step (h : Isolates systemIlkId hive s cur)
    (hstep : PushStep systemIlkId hive s cur cur') : Isolates systemIlkId hive s cur' := by
  cases hstep with
  | @upsert ilk howner htyped hpush hmine =>
    -- An ILK of another hive has another id than the record pushed.
    have hne : ∀ id r, s.ilks.lookup id = some r → ilkOwningHive r ≠ some hive →
        id ≠ ilk.ilkId := by
      rintro id r hr hother rfl
      exact hother (hmine r (h.ilks _ r hr hother))
    refine ⟨h.tenants, ?_, ?_, ?_⟩
    · intro id r hr hother
      rw [applyDelta_upsert_lookup, if_neg (hne id r hr hother)]
      exact h.ilks id r hr hother
    · intro id r hr hother k
      rw [applyDelta_upsert_resolve, fillChannelScopes_keys hpush.tenant, ← h.keys id r hr hother k]
      have hid := hne id r hr hother
      split_ifs with hkey
      · -- The check found the key free of every other ILK when the frame arrived.
        refine iff_of_false hid fun hres => hid ?_
        rw [h.keys id r hr hother k] at hres
        exact mem_singleton.mp ((checkChannelFree_ok (hpush.free k hkey.2)).2 id hres)
      · exact and_iff_left hid
    · intro id r hr hsys
      rw [applyDelta_upsert_lookup] at hr
      split_ifs at hr with hid
      · rw [← some.inj hr, hid] 
        refine .inr (isSystemNode_of_authorized howner htyped ?_)
        rwa [← some.inj hr] at hsys
      · exact h.system id r hr hsys
  | @delete id hmine hspared =>
    cases hwk : wellKnown cur id with
    | true => rwa [applyDelta_delete_of_wellKnown hwk]
    | false =>
      have hne : ∀ j r, s.ilks.lookup j = some r → ilkOwningHive r ≠ some hive → j ≠ id := by
        rintro j r hr hother rfl
        rw [ownedBy, hr] at hmine
        exact hother (by simpa using hmine)
      refine ⟨?_, ?_, ?_, ?_⟩
      · rw [applyDelta_delete_of_not hwk]
        exact h.tenants
      · intro j r hr hother
        rw [applyDelta_delete_lookup hwk, if_neg (hne j r hr hother)]
        exact h.ilks j r hr hother
      · intro j r hr hother k
        rw [applyDelta_delete_resolve hwk, ← h.keys j r hr hother k]
        exact and_iff_left (hne j r hr hother)
      · intro j r hr hsys
        rw [applyDelta_delete_lookup hwk] at hr
        split_ifs at hr
        exact h.system j r hr hsys
  | other htenants hilks hlookup =>
    refine ⟨htenants.trans h.tenants, ?_, ?_, ?_⟩
    · rw [hilks]
      exact h.ilks
    · simp only [IdentityStore.resolve, hlookup]
      exact h.keys
    · rw [hilks]
      exact h.system

theorem PushStep.kept (h : PushStep systemIlkId hive s cur cur') (hk : cur.Kept) : cur'.Kept := by
  cases h with
  | @upsert ilk howner htyped hpush hmine =>
    exact Kept.put_ilk hk (fillChannelScopes ilk) rfl hpush.tidy _
  | @delete id hmine hspared =>
    cases hwk : wellKnown cur id with
    | true => rwa [applyDelta_delete_of_wellKnown hwk]
    | false =>
      refine hk.of_ilks ?_ ?_
      · rw [applyDelta_delete_of_not hwk]
        exact fun _ _ ht => ht
      · intro j r hr
        rw [applyDelta_delete_lookup hwk] at hr
        split_ifs at hr
        exact .inl hr
  | other htenants hilks hlookup =>
    refine ⟨?_, ?_, ?_⟩
    · rw [htenants]
      exact hk.tenantNamed
    · rw [hilks]
      exact hk.named
    · rw [hilks]
      exact hk.tidy

theorem PushStep.stored (h : PushStep systemIlkId hive s cur cur') {id : String}
    (hwk : wellKnown s id = true) (hcur : (cur.ilks.lookup id).isSome) :
    (cur'.ilks.lookup id).isSome := by
  cases h with
  | @upsert ilk howner htyped hpush hmine =>
    rw [applyDelta_upsert_lookup]
    split_ifs
    · rfl
    · exact hcur
  | @delete gone hmine hspared =>
    cases hgone : wellKnown cur gone with
    | true => rwa [applyDelta_delete_of_wellKnown hgone]
    | false =>
      have hne : id ≠ gone := by
        rintro rfl
        simp [hgone, hwk] at hspared
      rwa [applyDelta_delete_lookup hgone, if_neg hne]
  | other htenants hilks hlookup => rwa [hilks]

variable (systemIlkId primaryHive) in
theorem ingest_isolates (hk : s.Kept) {frame : IngestFrame} (h : frame.publisherHive = hive) :
    let t := (ingest systemIlkId primaryHive s frame).1
    Isolates systemIlkId hive s t ∧ t.Kept ∧
      ∀ id, wellKnown s id = true → (t.ilks.lookup id).isSome := by
  have hstored : ∀ id, wellKnown s id = true → (s.ilks.lookup id).isSome := by
    intro id hwk
    rw [wellKnown] at hwk
    cases hr : s.ilks.lookup id with
    | none => simp [hr] at hwk
    | some r => rfl
  have hsteps : ReflTransGen (PushStep systemIlkId hive s) s
      (ingest systemIlkId primaryHive s frame).1 := ingest_steps hk h
  generalize (ingest systemIlkId primaryHive s frame).1 = t at hsteps ⊢
  induction hsteps with
  | refl => exact ⟨.refl s, hk, hstored⟩
  | tail _ hstep ih =>
    obtain ⟨hiso, hkept, hsome⟩ := ih
    exact ⟨hiso.step hstep, hstep.kept hkept, fun id hwk => hstep.stored hwk (hsome id hwk)⟩

variable (systemIlkId primaryHive) in
def ingestAll (s : IdentityStore) (frames : List IngestFrame) : IdentityStore :=
  frames.foldl (fun s frame => (ingest systemIlkId primaryHive s frame).1) s

theorem ingestAll_isolates (hk : s.Kept) {frames : List IngestFrame}
    (h : ∀ frame ∈ frames, frame.publisherHive = hive) :
    Isolates systemIlkId hive s (ingestAll systemIlkId primaryHive s frames) ∧
      (ingestAll systemIlkId primaryHive s frames).Kept := by
  induction frames generalizing s with
  | nil => exact ⟨.refl s, hk⟩
  | cons frame rest ih =>
    obtain ⟨hiso, hkept, -⟩ :=  ingest_isolates systemIlkId primaryHive hk (h frame mem_cons_self)
    obtain ⟨hrest, hkept'⟩ := ih hkept fun f hf => h f (mem_cons_of_mem frame hf)
    exact ⟨hiso.trans hrest, hkept'⟩

theorem Reaches.serveRequests {cfg : Config} {okRequest : IdentityStore → Event → Prop}
    {okFrame : IdentityStore → IngestFrame → Prop}
    (h : Reaches (Serves cfg systemIlkId primaryHive okRequest okFrame) s) {events : List Event}
    (hok : Meets cfg okRequest s events) :
    Reaches (Serves cfg systemIlkId primaryHive okRequest okFrame)
      (Identity.runRequests cfg s events) := by
  induction events generalizing s with
  | nil => exact h
  | cons e rest ih => exact ih (h.step (.refl s) (.request e hok.1)) hok.2

theorem served_kept {cfg : Config} {okRequest : IdentityStore → Event → Prop}
    {okFrame : IdentityStore → IngestFrame → Prop}
    (h : Reaches (Serves cfg systemIlkId primaryHive okRequest okFrame) s) : s.Kept := by
  refine h.invariant kept_empty kept_withDefaultTenant (fun s t hre hs => hs.reorder hre) ?_
  intro s t hs hstep
  cases hstep with
  | request e _ => exact (handle_turn hs cfg e).kept hs
  | frame f _ => exact (ingest_isolates _ _ hs rfl).2.1

/-- Whatever frames a hive pushes, one after the other: the tenants, the ILKs of others and the keys
that lead to them stay as they were, no frame removes an ILK that is well-known when it arrives, and
an ILK of the type `system` that was not there is one of the hive's own SY nodes. -/
theorem hive_push_isolation (hk : s.Kept) (frames : List IngestFrame)
    (h : ∀ frame ∈ frames, frame.publisherHive = hive) :
    Isolates systemIlkId hive s (ingestAll systemIlkId primaryHive s frames) ∧
      ∀ before frame after, frames = before ++ frame :: after → ∀ id,
        wellKnown (ingestAll systemIlkId primaryHive s before) id = true →
        ((ingestAll systemIlkId primaryHive s (before ++ [frame])).ilks.lookup id).isSome := by
  refine ⟨(ingestAll_isolates hk h).1, ?_⟩
  rintro before frame after rfl id hwk
  have hbefore : (ingestAll systemIlkId primaryHive s before).Kept :=
    (ingestAll_isolates hk fun f hf => h f (by simp [hf])).2
  rw [ingestAll, foldl_append]
  exact (ingest_isolates _ _ hbefore rfl).2.2 id hwk

end

namespace Vault

def tenantId : String := "tnt:00000000-0000-0000-0000-000000000002"

def node (ilkId ilkType : String) (identification : List (String × Json)) : IlkRecord :=
  { ilkId, ilkType, registrationStatus := "complete", tenantId,
    identification := .obj identification, definition := .obj [], channels := [],
    deletedAtMs := none, deletedReason := none }

def ilkId : String := "ilk:11111111-1111-1111-1111-111111111111"

def seeded : IlkRecord :=
  node ilkId "system" [("node_name", .str "SY.vault@worker"), ("source", .str "hive.system_nodes")]

def edited : IlkRecord := { seeded with registrationStatus := "partial" }

def other : IlkRecord :=
  node "ilk:22222222-2222-2222-2222-222222222222" "agent" [("node_name", .str "AI.a@edge")]

/-- The store of the primary `motherbee` once `edge` and `worker` pushed a node each. -/
def store : IdentityStore :=
  ingestAll (fun _ => ilkId) "motherbee" .withDefaultTenant
    [.delta "edge" (.ilkUpsert other), .delta "worker" (.ilkUpsert seeded)]

theorem store_holds :
    (store.ilks.lookup other.ilkId = some other ∧ ilkOwningHive other ≠ some "worker") ∧
      wellKnown store ilkId = true ∧
      (ingestAll (fun _ => ilkId) "motherbee" store
        [.delta "worker" (.ilkUpsert edited)]).ilks.lookup ilkId ≠ store.ilks.lookup ilkId := by
  decide +kernel

theorem store_reached :
    Reaches (Serves hourConfig (fun _ => ilkId) "motherbee" (fun _ _ => True) fun _ _ => True)
      store :=
  (Reaches.withDefaultTenant.step (.refl _) (.frame _ trivial)).step (.refl _) (.frame _ trivial)

end Vault

open Vault

/-- A hive may replace the record of its own well-known system ILK. -/
theorem push_replaces_own_wellKnown :
    wellKnown Vault.store Vault.ilkId = true ∧
      (ingestAll (fun _ => Vault.ilkId) "motherbee" Vault.store
        [.delta "worker" (.ilkUpsert Vault.edited)]).ilks.lookup Vault.ilkId ≠
        Vault.store.ilks.lookup Vault.ilkId := Vault.store_holds.2

/-- The ILK of `edge` stays as it was when `worker` pushes. -/
theorem push_keeps_other_hive :
    Vault.store.ilks.lookup Vault.other.ilkId = some Vault.other ∧
      (ingestAll (fun _ => Vault.ilkId) "motherbee" Vault.store
        [.delta "worker" (.ilkUpsert Vault.edited)]).ilks.lookup Vault.other.ilkId =
        some Vault.other := by
  obtain ⟨hstored, howner⟩ := store_holds.1
  have hkept : store.Kept := served_kept store_reached
  have hpush : Isolates (fun _ => ilkId) "worker" store
      (ingestAll (fun _ => ilkId) "motherbee" store
        [.delta "worker" (.ilkUpsert edited)]) :=
    (hive_push_isolation hkept _ (by simp [IngestFrame.publisherHive])).1
  exact ⟨hstored, hpush.ilks _ _ hstored howner⟩

end Fluxbee.Identity
