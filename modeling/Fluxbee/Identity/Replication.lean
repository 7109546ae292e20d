import Fluxbee.Identity.Announcements
import Fluxbee.Identity.FullSync

/-! A replica that applies a change's deltas, one by one, ends with the store the primary ends
with. -/
namespace Fluxbee.Identity
open Text Fallible IdentityStore Catchup AList List

variable {s s' cur : IdentityStore} {deltas rest : List IdentityDelta}

/-- A replica of `s` on its way to `s'`, the deltas `rest` still to come. -/
structure Following (s s' cur : IdentityStore) (rest : List IdentityDelta) : Prop where
  tenants : Pending (fun id => s.tenants.lookup id) (fun id => s'.tenants.lookup id)
    (fun id => cur.tenants.lookup id) IdentityDelta.OfTenant rest
  ilks : Pending (fun id => s.ilks.lookup id) (fun id => s'.ilks.lookup id)
    (fun id => cur.ilks.lookup id) IdentityDelta.OfIlk rest
  aliases : Pending (fun old => s.aliases.lookup old) (fun old => s'.aliases.lookup old)
    (fun old => cur.aliases.lookup old) IdentityDelta.OfAlias rest

variable {t : IdentityStore} {ilk : IlkRecord} {d : IdentityDelta}

theorem Announces.following (h : Announces s s' deltas) (ht : SameStore s t) :
    Following s s' t deltas :=
  ⟨.start ht.tenants h.tenants, .start ht.ilks h.ilks, .start ht.aliases h.aliases⟩

section
variable {id : String}

theorem Following.not_wellKnown (h : Following s s' cur rest)
    (hd : Tells s s' (.ilkDelete id)) : wellKnown cur id = false := by
  unfold wellKnown
  have hstate : cur.ilks.lookup id = s'.ilks.lookup id ∨ cur.ilks.lookup id = s.ilks.lookup id :=
    (h.ilks id).imp_right And.left
  rcases hstate with hnew | hold
  · rw [hnew, hd.1]
    rfl
  · rw [hold]
    cases hr : s.ilks.lookup id with
    | none => rfl
    | some r => exact hd.2.1 r hr

theorem Following.alias_gone {old : String} {a : AliasRecord} (h : Following s s' cur rest)
    (hd : Tells s s' (.ilkDelete id)) (ha : cur.aliases.lookup old = some a)
    (htouch : a.Touches old id) : s'.aliases.lookup old = none := by
  have hstate : cur.aliases.lookup old = s'.aliases.lookup old ∨
      cur.aliases.lookup old = s.aliases.lookup old := (h.aliases old).imp_right And.left
  refine hd.2.2 old a ?_ htouch
  rcases hstate with hnew | hold
  · exact .inr (hnew ▸ ha)
  · exact .inl (hold ▸ ha)

theorem Following.ilkUpsert (h : Following s s' cur (.ilkUpsert ilk :: rest))
    (hk : s'.Kept) (hd : Tells s s' (.ilkUpsert ilk)) :
    Following s s' (cur.applyDelta (.ilkUpsert ilk)) rest := by
  refine ⟨h.tenants.skip fun _ h => h, h.ilks.step ?_ ?_, h.aliases.skip fun _ h => h⟩
  · rintro j rfl
    rw [applyDelta_upsert_lookup, if_pos rfl, fillChannelScopes_of_tidy (hk.tidy _ _ hd)]
    exact hd.symm
  · intro j hj
    rw [applyDelta_upsert_lookup, if_neg (Ne.symm hj)]
    exact .inr rfl

theorem Following.ilkDelete (h : Following s s' cur (.ilkDelete id :: rest))
    (hd : Tells s s' (.ilkDelete id)) : Following s s' (cur.applyDelta (.ilkDelete id)) rest := by
  have hwk := h.not_wellKnown hd
  refine ⟨?_, h.ilks.step ?_ ?_, h.aliases.step (fun _ h => h.elim) ?_⟩
  · rw [applyDelta_delete_of_not hwk]
    exact h.tenants.skip fun _ h => h
  · rintro j rfl
    rw [applyDelta_delete_lookup hwk, if_pos rfl]
    exact hd.1.symm
  · intro j hj
    rw [applyDelta_delete_lookup hwk, if_neg (Ne.symm hj)]
    exact .inr rfl
  · intro old _
    by_cases htouch : ∃ a, cur.aliases.lookup old = some a ∧ a.Touches old id
    · left
      obtain ⟨a, ha, htouch⟩ := htouch
      rw [h.alias_gone hd ha htouch, Option.eq_none_iff_forall_ne_some]
      intro b hb
      obtain ⟨hb, hne⟩ := (applyDelta_delete_aliases hwk).mp hb
      rw [ha] at hb
      cases hb
      exact htouch.elim hne.1 hne.2
    · right
      apply Option.ext
      intro a
      rw [applyDelta_delete_aliases hwk, and_iff_left_iff_imp]
      intro ha
      exact not_or.mp fun ht => htouch ⟨a, ha, ht⟩

theorem Following.step (h : Following s s' cur (d :: rest)) (hk : s'.Kept)
    (hd : Tells s s' d) : Following s s' (cur.applyDelta d) rest := by
  cases d with
  | ilkUpsert ilk => exact h.ilkUpsert hk hd
  | ilkDelete id => exact h.ilkDelete hd
  | tenantUpsert t =>
    refine ⟨h.tenants.step ?_ ?_, h.ilks.skip fun _ h => h, h.aliases.skip fun _ h => h⟩
    · rintro id rfl
      exact (lookup_insert _).trans hd.symm
    · intro id hid
      exact .inr (lookup_insert_ne (Ne.symm hid))
  | tenantDelete tenantId =>
    refine ⟨h.tenants.step ?_ ?_, h.ilks.skip fun _ h => h, h.aliases.skip fun _ h => h⟩
    · rintro id rfl
      exact (lookup_erase _ _).trans hd.symm
    · intro id hid
      exact .inr (lookup_erase_ne (Ne.symm hid))
  | aliasUpsert entry =>
    refine ⟨h.tenants.skip fun _ h => h, h.ilks.skip fun _ h => h, h.aliases.step ?_ ?_⟩
    · rintro old rfl
      exact (lookup_insert _).trans hd.symm
    · intro old hold
      exact .inr (lookup_insert_ne (Ne.symm hold))
  | aliasDelete oldIlkId =>
    refine ⟨h.tenants.skip fun _ h => h, h.ilks.skip fun _ h => h, h.aliases.step ?_ ?_⟩
    · rintro old rfl
      exact (lookup_erase _ _).trans hd.symm
    · intro old hold
      exact .inr (lookup_erase_ne (Ne.symm hold))

/-- What the lookup of a replica on its way keeps: it points at holders only, and it knows every
key that is held in the end, except by an ILK whose delta is still to come. -/
structure Indexing (s' cur : IdentityStore) (rest : List IdentityDelta) : Prop where
  pointed : cur.Pointed
  covered : ∀ j k, s'.HoldsActive j k → cur.resolve k = some j ∨ ∃ d ∈ rest, d.OfIlk j

theorem IdentityStore.Pointed.upsert (h : s.Pointed) (ilk : IlkRecord) :
    (s.applyDelta (.ilkUpsert ilk)).Pointed := by
  intro j k hj
  rw [applyDelta_upsert_resolve] at hj
  split_ifs at hj with hkey
  · exact ⟨fillChannelScopes ilk, by rw [applyDelta_upsert_lookup, if_pos hj], hkey⟩
  · obtain ⟨r, hr, hact, hkr⟩ := h j k hj.1
    exact ⟨r, by rw [applyDelta_upsert_lookup, if_neg hj.2, hr], hact, hkr⟩

theorem IdentityStore.Pointed.delete (h : s.Pointed) (hwk : wellKnown s id = false) :
    (s.applyDelta (.ilkDelete id)).Pointed := by
  intro j k hj
  obtain ⟨hold, hji⟩ := (applyDelta_delete_resolve hwk).mp hj
  obtain ⟨r, hr, hact, hkey⟩ := h j k hold
  exact ⟨r, by rw [applyDelta_delete_lookup hwk, if_neg hji, hr], hact, hkey⟩

theorem Indexing.pass (h : Indexing s' cur (d :: rest)) {cur' : IdentityStore}
    (hp : cur'.Pointed) (hkeep : ∀ j k, s'.HoldsActive j k → cur.resolve k = some j →
      cur'.resolve k = some j)
    (hof : ∀ j k, s'.HoldsActive j k → ¬ d.OfIlk j) : Indexing s' cur' rest := by
  refine ⟨hp, fun j k hj => ?_⟩
  rcases h.covered j k hj with hres | ⟨x, hx, hof'⟩
  · exact .inl (hkeep j k hj hres)
  · rcases mem_cons.mp hx with rfl | hx
    · exact absurd hof' (hof j k hj)
    · exact .inr ⟨x, hx, hof'⟩

theorem Indexing.ilkUpsert (h : Indexing s' cur (.ilkUpsert ilk :: rest))
    (hk : s'.Kept) (hc : s'.Covered) (hd : s'.ilks.lookup ilk.ilkId = some ilk) :
    Indexing s' (cur.applyDelta (.ilkUpsert ilk)) rest := by
  have hfill := fillChannelScopes_of_tidy (hk.tidy _ _ hd)
  have hres : ∀ j k, (cur.applyDelta (.ilkUpsert ilk)).resolve k = some j ↔
      (if ilk.deletedAtMs = none ∧ k ∈ ilk.keys then j = ilk.ilkId
        else cur.resolve k = some j ∧ j ≠ ilk.ilkId) := by
    intro j k
    rw [applyDelta_upsert_resolve, hfill]
  constructor
  · exact h.pointed.upsert ilk
  · intro j k hj
    by_cases hji : j = ilk.ilkId
    · obtain ⟨r, hr, hact, hkey⟩ := hj
      rw [hji, hd] at hr
      cases hr
      left
      rw [hres, if_pos ⟨hact, hkey⟩]
      exact hji
    · rcases h.covered j k hj with hold | ⟨x, hx, hof⟩
      · left
        -- Another holder of the key in the end would be `j` itself.
        have hother : ¬ (ilk.deletedAtMs = none ∧ k ∈ ilk.keys) := by
          rintro ⟨hact, hkey⟩
          exact hji (hc.unique hj ⟨ilk, hd, hact, hkey⟩)
        rw [hres, if_neg hother]
        exact ⟨hold, hji⟩
      · rcases mem_cons.mp hx with rfl | hx
        · exact absurd (Eq.symm hof) hji
        · exact .inr ⟨x, hx, hof⟩

theorem Indexing.ilkDelete (h : Indexing s' cur (.ilkDelete id :: rest))
    (hgone : s'.ilks.lookup id = none) (hwk : wellKnown cur id = false) :
    Indexing s' (cur.applyDelta (.ilkDelete id)) rest := by
  have hne : ∀ j k, s'.HoldsActive j k → j ≠ id := by
    rintro j k ⟨r, hr, -⟩ rfl
    rw [hgone] at hr
    cases hr
  refine h.pass (h.pointed.delete hwk) ?_ ?_
  · intro j k hj hold
    exact (applyDelta_delete_resolve hwk).mpr ⟨hold, hne j k hj⟩
  · rintro j k hj rfl
    exact hne _ k hj rfl

theorem Indexing.step (h : Indexing s' cur (d :: rest)) (hk : s'.Kept)
    (hc : s'.Covered) (hf : Following s s' cur (d :: rest)) (hd : Tells s s' d) :
    Indexing s' (cur.applyDelta d) rest := by
  cases d with
  | ilkUpsert ilk => exact h.ilkUpsert hk hc hd
  | ilkDelete id => exact h.ilkDelete hd.1 (hf.not_wellKnown hd)
  | tenantUpsert | tenantDelete | aliasUpsert | aliasDelete =>
    exact h.pass h.pointed (fun _ _ _ hres => hres) fun _ _ _ hof => hof

theorem applyDeltas_induct (hk : s'.Kept) (hc : s'.Covered)
    (htold : ∀ d ∈ deltas, Tells s s' d) (hf : Following s s' cur deltas)
    (hi : Indexing s' cur deltas) :
    Following s s' (cur.applyDeltas deltas) [] ∧ Indexing s' (cur.applyDeltas deltas) [] := by
  induction deltas generalizing cur with
  | nil => exact ⟨hf, hi⟩
  | cons d rest ih =>
    have hd := htold d mem_cons_self
    exact ih (fun x hx => htold x (mem_cons_of_mem d hx)) (hf.step hk hd) (hi.step hk hc hf hd)

theorem Announces.sameStore (h : Announces s s' deltas) (hs : s.LookupExact) (hs' : s'.LookupExact)
    (ht : SameStore s t) : SameStore s' (t.applyDeltas deltas) := by
  have hheld : ∀ j k, t.HoldsActive j k ↔ s.HoldsActive j k := ht.holdsActive
  have hstart : Indexing s' t deltas := by
    refine ⟨Pointed.congr hs.pointed ht.lookup fun j k => (hheld j k).mpr, ?_⟩
    intro j k hj
    by_cases hof : ∃ d ∈ deltas, d.OfIlk j
    · exact .inr hof
    · left
      have hsame := h.ilks j fun d hd hdj => hof ⟨d, hd, hdj⟩
      have hbefore : s.HoldsActive j k := by
        obtain ⟨r, hr, hact, hkey⟩ := hj
        exact ⟨r, by rw [← hsame, hr], hact, hkey⟩
      rw [ht.lookup, hs.covered j k hbefore]
  obtain ⟨hf, hi⟩ := applyDeltas_induct hs'.kept hs'.covered h.told (h.following ht) hstart
  have hilks : ∀ id, (t.applyDeltas deltas).ilks.lookup id = s'.ilks.lookup id := hf.ilks.done
  refine ⟨⟨hf.tenants.done, hilks, hf.aliases.done⟩, ?_⟩
  intro k
  apply Option.ext
  intro j
  constructor
  · intro hj
    obtain ⟨r, hr, hact, hkey⟩ := hi.pointed j k hj
    exact hs'.covered j k ⟨r, by rw [← hilks, hr], hact, hkey⟩
  · intro hj
    rcases hi.covered j k (hs'.pointed j k hj) with hres | ⟨d, hd, -⟩
    · exact hres
    · cases hd

end

/-! ### The pushes of the hives -/

/-- The channel ids of a record are its own: no two of its channels share one, nor does a channel of
another stored ILK. -/
def OwnIchs (s : IdentityStore) (ilk : IlkRecord) : Prop :=
  (ilk.channels.map (·.ichId)).Nodup ∧ ∀ j r, j ≠ ilk.ilkId → s.ilks.lookup j = some r →
    ∀ c ∈ ilk.channels, ∀ d ∈ r.channels, c.ichId ≠ d.ichId

/-- What a frame must meet for the lookup to stay exact: the records it brings have channel ids of
their own, and those of a snapshot share neither keys nor channel ids. -/
def FrameSafe (s : IdentityStore) : IngestFrame → Prop
  | .delta _ (.ilkUpsert ilk) => OwnIchs s ilk
  | .delta _ _ => True
  | .snapshot _ ilks => SnapshotApart s ilks ∧ (∀ a ∈ s.acceptedPush ilks, OwnIchs s a) ∧
    ∀ a ∈ s.acceptedPush ilks, ∀ b ∈ s.acceptedPush ilks, a.ilkId ≠ b.ilkId →
      ∀ c ∈ a.channels, ∀ d ∈ b.channels, c.ichId ≠ d.ichId

theorem mem_fillChannelScopes {c : ChannelRecord} (h : c ∈ (fillChannelScopes ilk).channels) :
    ∃ d ∈ ilk.channels, d.ichId = c.ichId := by
  obtain ⟨d, hd, rfl⟩ := mem_map.mp h
  refine ⟨d, hd, ?_⟩
  unfold ChannelRecord.fillScope
  split_ifs <;> rfl

theorem fillChannelScopes_ichIds (ilk : IlkRecord) :
    (fillChannelScopes ilk).channels.map (·.ichId) = ilk.channels.map (·.ichId) := by
  unfold fillChannelScopes ChannelRecord.fillScope
  rw [map_map]
  refine map_congr_left fun c _ => ?_
  dsimp only [Function.comp]
  split_ifs <;> rfl

theorem ichIds_canonical (h : replicaPushAcceptable ilk t = true) :
    ∀ c ∈ ilk.channels, isCanonicalId c.ichId "ich" = true := by
  simp only [replicaPushAcceptable, ilkRecordIdsCanonical, Bool.and_eq_true, all_eq_true] at h
  exact fun c hc => (h.1.1.1.2 c hc).1

theorem IdentityStore.IchsUnique.upsert (h : s.IchsUnique)
    (hids : ∀ c ∈ ilk.channels, isCanonicalId c.ichId "ich" = true) (hown : OwnIchs s ilk) :
    (s.applyDelta (.ilkUpsert ilk)).IchsUnique := by
  refine h.put (by rw [applyDelta_upsert_lookup, if_pos rfl]) ?_ ?_ ?_
  · intro c hc
    obtain ⟨d, hd, heq⟩ := mem_fillChannelScopes hc
    rw [← heq]
    exact hids d hd
  · rw [fillChannelScopes_ichIds]
    exact hown.1
  · intro j r hj hr d hd
    rw [applyDelta_upsert_lookup, if_neg hj] at hr
    refine ⟨hr, fun c hc => ?_⟩
    obtain ⟨c₀, hc₀, heq⟩ := mem_fillChannelScopes hc
    rw [← heq]
    exact hown.2 j r hj hr c₀ hc₀ d hd

theorem OwnIchs.upsert {r : IlkRecord} (h : OwnIchs s r)
    (hapart : r.ilkId ≠ ilk.ilkId → ∀ c ∈ r.channels, ∀ d ∈ ilk.channels, c.ichId ≠ d.ichId) :
    OwnIchs (s.applyDelta (.ilkUpsert ilk)) r := by
  refine ⟨h.1, fun j r' hj hr' c hc d hd => ?_⟩
  rw [applyDelta_upsert_lookup] at hr'
  split_ifs at hr' with hjilk
  · cases hr'
    obtain ⟨d₀, hd₀, heq⟩ := mem_fillChannelScopes hd
    rw [← heq]
    exact hapart (fun hsame => hj (hjilk.trans hsame.symm)) c hc d₀ hd₀
  · exact h.2 j r' hj hr' c hc d hd

theorem IdentityStore.IchsUnique.reconcileUpserts {hive : String} {records : List IlkRecord}
    (h : s.IchsUnique)
    (hids : ∀ r ∈ records, ∀ c ∈ r.channels, isCanonicalId c.ichId "ich" = true)
    (hown : ∀ r ∈ records, OwnIchs s r)
    (hapart : ∀ a ∈ records, ∀ b ∈ records, a.ilkId ≠ b.ilkId →
      ∀ c ∈ a.channels, ∀ d ∈ b.channels, c.ichId ≠ d.ichId) :
    (reconcileUpserts hive records s).1.IchsUnique := by
  induction records generalizing s with
  | nil => exact h
  | cons ilk rest ih =>
    have hids' := fun r hr => hids r (mem_cons_of_mem ilk hr)
    have hapart' := fun a ha b hb =>
      hapart a (mem_cons_of_mem ilk ha) b (mem_cons_of_mem ilk hb)
    unfold IdentityStore.reconcileUpserts
    dsimp only
    split_ifs with hskip
    · exact ih h hids' (fun r hr => hown r (mem_cons_of_mem ilk hr)) hapart'
    · refine ih (h.upsert (hids ilk mem_cons_self) (hown ilk mem_cons_self)) hids' ?_ hapart'
      intro r hr
      have hmem := mem_cons_of_mem ilk hr
      exact (hown r hmem).upsert (hapart r hmem ilk mem_cons_self)

theorem IdentityStore.IchsUnique.delete (h : s.IchsUnique) (id : String) :
    (s.applyDelta (.ilkDelete id)).IchsUnique := by
  cases hwk : wellKnown s id with
  | true => rwa [applyDelta_delete_of_wellKnown hwk]
  | false =>
    refine h.shrink fun j r hr => ?_
    rw [applyDelta_delete_lookup hwk] at hr
    split_ifs at hr
    exact .inr ⟨r, hr, .refl _⟩

theorem IdentityStore.IchsUnique.deletes (h : s.IchsUnique) (ids : List String) :
    (s.applyDeltas (ids.map .ilkDelete)).IchsUnique := by
  induction ids generalizing s with
  | nil => exact h
  | cons id rest ih => exact ih (h.delete id)

section
variable {systemIlkId : String → String} {hive primaryHive : String} {cur' : IdentityStore}
  {frame : IngestFrame}

theorem IdentityStore.IchsUnique.ingest (h : s.IchsUnique) (hsafe : FrameSafe s frame) :
    (ingest systemIlkId primaryHive s frame).1.IchsUnique := by
  cases frame with
  | snapshot publisher ilks =>
    obtain ⟨-, hown, hapart⟩ := hsafe
    unfold Identity.ingest
    dsimp only
    split_ifs
    · exact h
    · exact (h.reconcileUpserts (fun r hr => ichIds_canonical (mem_filter.mp hr).2) hown
        hapart).deletes _
    · exact h
  | delta publisher delta =>
    unfold Identity.ingest
    dsimp only
    split_ifs with hself hauth
    · exact h
    · cases delta with
      | tenantUpsert | tenantDelete => simp [deltaAuthorizedForHive] at hauth
      | ilkUpsert ilk =>
        simp only [deltaAuthorizedForHive, Bool.and_eq_true] at hauth
        exact h.upsert (ichIds_canonical hauth.1.2) hsafe
      | ilkDelete id => exact h.delete id
      | aliasUpsert | aliasDelete => exact h.shrink fun j r hr => .inr ⟨r, hr, .refl _⟩
    · exact h

theorem PushStep.pointed (h : PushStep systemIlkId hive s cur cur') (hp : cur.Pointed) :
    cur'.Pointed := by
  cases h with
  | @upsert ilk howner htyped hpush hmine => exact hp.upsert ilk
  | @delete id hmine hspared =>
    cases hwk : wellKnown cur id with
    | true => rwa [applyDelta_delete_of_wellKnown hwk]
    | false => exact hp.delete hwk
  | other htenants hilks hlookup =>
    refine Pointed.congr hp (fun k => ?_) fun j k hj => ?_
    · simp only [IdentityStore.resolve, hlookup]
    · obtain ⟨r, hr, hact⟩ := hj
      exact ⟨r, hilks ▸ hr, hact⟩

theorem IdentityStore.Pointed.ingest (hk : s.Kept) (hp : s.Pointed) :
    (ingest systemIlkId primaryHive s frame).1.Pointed := by
  have hsteps : Relation.ReflTransGen (PushStep systemIlkId frame.publisherHive s) s
      (Identity.ingest systemIlkId primaryHive s frame).1 := ingest_steps hk rfl
  generalize (Identity.ingest systemIlkId primaryHive s frame).1 = next at hsteps ⊢
  induction hsteps with
  | refl => exact hp
  | tail _ hstep ih => exact hstep.pointed ih

theorem FrameSafe.apart (h : FrameSafe s frame) : FrameApart s frame := by
  cases frame with
  | delta => trivial
  | snapshot => exact h.1

/-- In every run of safe requests and safe frames the lookup is exact. -/
theorem Reaches.served_lookupExact {cfg : Config}
    (h : Reaches (Serves cfg systemIlkId primaryHive LookupSafe FrameSafe) s) :
    s.LookupExact ∧ s.Reserved := by
  refine h.invariant (P := fun s => s.LookupExact ∧ s.Reserved)
    ⟨lookupExact_of_bare kept_empty rfl rfl, reserved_of_bare kept_empty rfl⟩
    ⟨lookupExact_of_bare kept_withDefaultTenant rfl rfl, reserved_of_bare kept_withDefaultTenant rfl⟩
    (fun s t hre hs => ⟨lookupExact_reorder hre hs.1, hs.2.reorder hre⟩) ?_
  rintro s s' ⟨hs, hr⟩ (⟨e, hsafe⟩ | ⟨f, hsafe⟩)
  · have hturn := handle_turn hs.kept cfg e
    have hrestore := hs.restores hsafe.accounts
    exact ⟨hs.handle hsafe, hturn.kept hs.kept,
      hturn.covered hs.kept hs.covered hrestore hsafe.collected,
      hturn.exclusive hs.kept hs.covered hr.exclusive hrestore⟩
  · have hnext : (Identity.ingest systemIlkId primaryHive s f).1.Reserved := hr.ingest hsafe.apart
    exact ⟨⟨hnext.kept, hs.ichs.ingest hsafe, hnext.covered, hs.pointed.ingest hs.kept⟩, hnext⟩

end

/-- In every run whose requests and frames are safe, a replica that holds what the primary held
before a safe request and applies the deltas the request emits holds what the primary holds after
it. -/
theorem applyDeltas_handle {s : IdentityStore} {cfg : Config} {systemIlkId : String → String}
    {primaryHive : String}
    (h : Reaches (Serves cfg systemIlkId primaryHive LookupSafe FrameSafe) s) {e : Event}
    (hsafe : LookupSafe s e) {t : IdentityStore} (ht : SameStore s t) :
    SameStore (handle cfg s e).1 (t.applyDeltas (handle cfg s e).2) := by
  have hs := h.served_lookupExact.1
  exact ((handle_turn hs.kept cfg e).announces hs.kept).sameStore hs (hs.handle hsafe) ht

/-- A channel added under an id that the ILK holds already changes the primary's lookup and not
its replica's. -/
theorem replica_misses_reused_ich :
    ∃ s, Reaches (Serves hourConfig id "motherbee" (fun _ _ => True) fun _ _ => True) s ∧
      (handle hourConfig s Reuse.addHeld).1.resolve (Reuse.key "+2") =
        some (newIlkId Reuse.newIlk) ∧
      (s.applyDeltas (handle hourConfig s Reuse.addHeld).2).resolve (Reuse.key "+2") = none := by
  refine ⟨runRequests hourConfig .withDefaultTenant [Reuse.provision],
    Reaches.withDefaultTenant.serveRequests (meets_of_forall (fun _ _ => trivial) _ _), ?_⟩
  decide +kernel

theorem SameStore.refl (s : IdentityStore) : SameStore s s :=
  ⟨⟨fun _ => rfl, fun _ => rfl, fun _ => rfl⟩, fun _ => rfl⟩

/-- Once a hive pushed a node, a provision is safe, and its delta takes a replica of the first store
to the second. -/
theorem replica_of_provision :
    ∃ s, Reaches (Serves hourConfig id "motherbee" LookupSafe FrameSafe) s ∧
      s.ilks.lookup Twins.b.ilkId = some Twins.b ∧ LookupSafe s Reuse.provision ∧
      SameStore (handle hourConfig s Reuse.provision).1
        (s.applyDeltas (handle hourConfig s Reuse.provision).2) := by
  let pushed := (ingest id "motherbee" .withDefaultTenant (.delta "worker" (.ilkUpsert Twins.b))).1
  have hrun : pushed.ilks.lookup Twins.b.ilkId = some Twins.b ∧
      pushed.ilks.lookup (newIlkId Reuse.newIlk) = none ∧
      (Twins.b.channels.map (·.ichId)).Nodup := by decide +kernel
  have hframe : FrameSafe .withDefaultTenant (.delta "worker" (.ilkUpsert Twins.b)) :=
    ⟨hrun.2.2, nofun⟩
  have hreach : Reaches (Serves hourConfig id "motherbee" LookupSafe FrameSafe) pushed :=
    Reaches.withDefaultTenant.step (.refl _) (.frame _ hframe)
  have hsafe : LookupSafe pushed Reuse.provision := ⟨hrun.2.1, trivial, nofun, by rintro ⟨⟩⟩
  exact ⟨pushed, hreach, hrun.1, hsafe, applyDeltas_handle hreach hsafe (.refl _)⟩

end Fluxbee.Identity
