import Fluxbee.Identity.Moves

/-! The move of a restored person's account channels to the installation-wide scope, one channel
at a time. -/
namespace Fluxbee.Identity
open Text Fallible ReverseIndex List AList Option
variable {channels : List ChannelRecord} {k : IchKey} {cs : List ChannelRecord}
  {c d : ChannelRecord} {j : String} {P : IdentityStore → Prop} {u : Unit}

namespace IdentityStore

def accountCandidates (r : IlkRecord) : List ChannelRecord :=
  r.channels.filter fun c =>
    isCloudAccountChannel c.channelType && channelScope c r.tenantId != installationScope

/-- Whoever of `cs` is in the list shares neither its id nor its key with another channel there. -/
def Apart (cs channels : List ChannelRecord) : Prop :=
  channels.Pairwise fun c d => c ∈ cs ∨ d ∈ cs → c.ichId ≠ d.ichId ∧ c.key ≠ d.key

def installed (c : ChannelRecord) : ChannelRecord := { c with scope := installationScope }

theorem Apart.ne (h : Apart cs channels)
    (hc : c ∈ channels) (hd : d ∈ channels) (hcs : c ∈ cs) (hne : d ≠ c) :
    d.ichId ≠ c.ichId ∧ d.key ≠ c.key := by
  have hsymm : Std.Symm fun c d : ChannelRecord =>
      c ∈ cs ∨ d ∈ cs → c.ichId ≠ d.ichId ∧ c.key ≠ d.key := by
    refine ⟨fun x y hxy hor => ?_⟩
    obtain ⟨hid, hkey⟩ := hxy hor.symm
    exact ⟨hid.symm, hkey.symm⟩
  exact h.forall hd hc hne (.inr hcs)

theorem Apart.mono {cs' : List ChannelRecord} (h : Apart cs channels)
    (hsub : cs' ⊆ cs) : Apart cs' channels := by
  refine h.imp ?_
  intro x y hxy hor
  exact hxy (hor.imp (hsub ·) (hsub ·))

theorem key_scope (h : IsTenantId c.scope) : c.key.2.2 = c.scope := by
  have hkey := channelKey_scope h c.scope
  rwa [channelKey_of_isTenantId h] at hkey

theorem installed_key_ne (hd : IsTenantId d.scope)
    (hout : d.scope ≠ installationScope) : (installed c).key ≠ d.key := by
  intro heq
  have hscope := congrArg (·.2.2) heq
  rw [key_scope hd, key_scope (c := installed c) isTenantId_installationScope] at hscope
  exact hout hscope.symm

theorem rescope_eq_map {ichId : String}
    (h : channels.Pairwise fun c d => ¬ (c.ichId = ichId ∧ d.ichId = ichId)) :
    rescope ichId channels =
      channels.map fun d => if d.ichId = ichId then { d with scope := installationScope } else d := by
  induction channels with
  | nil => rfl
  | cons c rest ih =>
    obtain ⟨hc, hrest⟩ := pairwise_cons.mp h
    unfold rescope
    split_ifs with hid
    · have hsame : rest.map (fun d =>
          if d.ichId = ichId then { d with scope := installationScope } else d) = rest := by
        conv_rhs => rw [← List.map_id rest]
        apply map_congr_left
        intro d hd
        rw [if_neg fun hdid => hc d hd ⟨hid, hdid⟩]
        rfl
      rw [map_cons, if_pos hid, hsame]
    · rw [map_cons, if_neg hid, ih hrest]

/-- What the move of one channel finds. -/
structure Movable (id tenantId : String) (s : IdentityStore) (r : IlkRecord) (c : ChannelRecord) :
    Prop where
  stored : s.ilks.lookup id = some r
  active : r.deletedAtMs = none
  tenant : r.tenantId = tenantId
  tidy : r.Tidy
  held : c ∈ r.channels
  outside : c.scope ≠ installationScope
  apart : Apart [c] r.channels
  free : s.installationKeyFree c = true

def rescoped (c : ChannelRecord) (r : IlkRecord) : IlkRecord :=
  { r with channels := r.channels.map fun d => if d = c then installed c else d }

section

variable {s : IdentityStore} {id tenantId : String} {r : IlkRecord} {c : ChannelRecord}

section
variable (h : Movable id tenantId s r c)
include h

theorem Movable.eq_of_ichId (hd : d ∈ r.channels) (hid : d.ichId = c.ichId) : d = c := by
  by_contra hne
  exact (h.apart.ne h.held hd (mem_singleton.mpr rfl) hne).1 hid

theorem Movable.rescope_eq : rescope c.ichId r.channels = (rescoped c r).channels := by
  rw [rescope_eq_map]
  · apply map_congr_left
    intro d hd
    by_cases hdc : d = c
    · rw [if_pos hdc, hdc, if_pos rfl]
      rfl
    · rw [if_neg hdc, if_neg fun hid => hdc (h.eq_of_ichId hd hid)]
  · refine h.apart.imp_of_mem ?_
    rintro x y hx hy hxy ⟨hxid, hyid⟩
    have hxc := h.eq_of_ichId hx hxid
    exact (hxy (.inl (mem_singleton.mpr hxc))).1 (hxid.trans hyid.symm)

theorem Movable.lookup (j : String) : (moveAccount id tenantId s c).ilks.lookup j =
      if j = id then some (rescoped c r) else s.ilks.lookup j := by
  simp only [moveAccount, lookup_modify, h.stored, map_some, h.rescope_eq]
  rfl

theorem Movable.tidy_rescoped : (rescoped c r).Tidy where
  tenant := h.tidy.tenant
  scopes := by
    intro d hd
    obtain ⟨e, he, rfl⟩ := List.mem_map.mp hd
    split_ifs
    · exact isTenantId_installationScope
    · exact h.tidy.scopes e he

theorem Movable.mem_keys :
    k ∈ (rescoped c r).keys ↔ k = (installed c).key ∨ (k ∈ r.keys ∧ k ≠ c.key) := by
  rw [h.tidy_rescoped.mem_keys, h.tidy.mem_keys]
  constructor
  · rintro ⟨d, hd, rfl⟩
    obtain ⟨e, he, rfl⟩ := List.mem_map.mp hd
    split_ifs with hec
    · exact .inl rfl
    · exact .inr ⟨⟨e, he, rfl⟩, (h.apart.ne h.held he (mem_singleton.mpr rfl) hec).2⟩
  · rintro (rfl | ⟨⟨d, hd, rfl⟩, hne⟩)
    · exact ⟨installed c, List.mem_map.mpr ⟨c, h.held, if_pos rfl⟩, rfl⟩
    · have hdc : d ≠ c := by
        rintro rfl
        exact hne rfl
      exact ⟨d, List.mem_map.mpr ⟨d, hd, if_neg hdc⟩, rfl⟩

theorem Movable.resolve_installed : s.resolve (installed c).key = none := by
  have hfree := h.free
  simp only [installationKeyFree, Bool.and_eq_true, isNone_iff_eq_none] at hfree
  exact hfree.1.1

theorem Movable.not_holds_installed (hc : s.Covered)
    (j : String) : ¬ s.Holds j (installed c).key := by
  have hfree := h.free
  simp only [installationKeyFree, Bool.and_eq_true, isNone_iff_eq_none] at hfree
  exact not_holds_of_free hc hfree.1.1 hfree.1.2 j

end

theorem moveAccount_resolve_installed (s : IdentityStore) (c : ChannelRecord) :
    (moveAccount id tenantId s c).resolve (installed c).key = some id :=
  lookup_insert _

theorem Movable.resolve_iff (h : Movable id tenantId s r c) (hk : k ≠ (installed c).key) :
    (moveAccount id tenantId s c).resolve k = some j ↔
      s.resolve k = some j ∧ ¬ (j = id ∧ k = c.key) := by
  have hck : channelKey c tenantId = c.key :=
    channelKey_of_isTenantId (h.tidy.scopes c h.held) tenantId
  have hk' : k ≠ canonicalIchKey c.channelType c.address installationScope := hk
  simp only [moveAccount, resolve]
  rw [lookup_insert_ne hk', lookup_eraseAll_eq_some, hck, mem_singleton, and_comm (a := j = id)]

theorem Movable.apart_rest (h : Movable id tenantId s r c) {rest : List ChannelRecord}
    (hapart : Apart rest r.channels) (hheld : ∀ d ∈ rest, d ∈ r.channels)
    (hout : ∀ d ∈ rest, d.scope ≠ installationScope) : Apart rest (rescoped c r).channels := by
  -- A channel still to move is not the one moved, which has the installation-wide scope.
  have hsame : ∀ x : ChannelRecord, (if x = c then installed c else x) ∈ rest → x ≠ c := by
    rintro x hx rfl
    rw [if_pos rfl] at hx
    exact hout _ hx rfl
  have hkey : ∀ d ∈ rest, (installed c).key ≠ d.key := fun d hd =>
    installed_key_ne (h.tidy.scopes d (hheld d hd)) (hout d hd)
  refine pairwise_map.mpr (hapart.imp ?_)
  intro x y hxy hor
  by_cases hx : x = c
  · by_cases hy : y = c
    · exact (hor.elim (fun hm => hsame x hm hx) (fun hm => hsame y hm hy)).elim
    · rw [if_neg hy] at hor
      have hyr := hor.resolve_left fun hm => hsame x hm hx
      rw [if_pos hx, if_neg hy]
      refine ⟨?_, hkey y hyr⟩
      have hid := (hxy (.inr hyr)).1
      rwa [hx] at hid
  · rw [if_neg hx] at hor ⊢
    by_cases hy : y = c
    · have hxr := hor.resolve_right fun hm => hsame y hm hy
      rw [if_pos hy]
      refine ⟨?_, (hkey x hxr).symm⟩
      have hid := (hxy (.inl hxr)).1
      rwa [hy] at hid
    · rw [if_neg hy] at hor ⊢
      exact hxy hor

/-- What a whole move keeps: it moves candidates one by one, each of them movable when its turn
comes. -/
theorem moveAccountLoop_induct
    (hstep : ∀ t r c, Movable id tenantId t r c → P t → P (moveAccount id tenantId t c))
    (hstored : s.ilks.lookup id = some r)
    (hactive : r.deletedAtMs = none) (htenant : r.tenantId = tenantId) (htidy : r.Tidy)
    (hnodup : cs.Nodup) (hheld : ∀ c ∈ cs, c ∈ r.channels)
    (hout : ∀ c ∈ cs, c.scope ≠ installationScope) (hapart : Apart cs r.channels)
    (h : P s) : P (moveAccountLoop id tenantId cs s).1 := by
  induction cs generalizing s r with
  | nil => exact h
  | cons c rest ih =>
    obtain ⟨hc, hrest⟩ := nodup_cons.mp hnodup
    obtain ⟨hcheld, hheldRest⟩ := forall_mem_cons.mp hheld
    obtain ⟨hcout, houtRest⟩ := forall_mem_cons.mp hout
    have hapartRest := hapart.mono (subset_cons_self c rest)
    unfold moveAccountLoop
    split_ifs with hfree
    · have hmov : Movable id tenantId s r c :=
        ⟨hstored, hactive, htenant, htidy, hcheld, hcout, hapart.mono (by simp), hfree⟩
      refine ih (r := rescoped c r) ?_ hactive htenant hmov.tidy_rescoped hrest ?_ houtRest
        (hmov.apart_rest hapartRest hheldRest houtRest) (hstep s r c hmov h)
      · rw [hmov.lookup, if_pos rfl]
      · intro d hd
        have hdc : d ≠ c := by
          rintro rfl
          exact hc hd
        exact List.mem_map.mpr ⟨d, hheldRest d hd, if_neg hdc⟩
    · exact ih hstored hactive htenant htidy hrest hheldRest houtRest hapartRest h

section
variable (h : Movable id tenantId s r c)
include h

theorem Movable.holdsActive_self : (moveAccount id tenantId s c).HoldsActive id k ↔
      k = (installed c).key ∨ (s.HoldsActive id k ∧ k ≠ c.key) := by
  have hnow : (moveAccount id tenantId s c).HoldsActive id k ↔ k ∈ (rescoped c r).keys := by
    simp only [HoldsActive, h.lookup, if_true, Option.some.injEq]
    exact ⟨fun ⟨_, hr, _, hk⟩ => hr ▸ hk, fun hk => ⟨_, rfl, h.active, hk⟩⟩
  have hbefore : s.HoldsActive id k ↔ k ∈ r.keys := by
    simp only [HoldsActive, h.stored, Option.some.injEq]
    exact ⟨fun ⟨_, hr, _, hk⟩ => hr ▸ hk, fun hk => ⟨_, rfl, h.active, hk⟩⟩
  rw [hnow, hbefore, h.mem_keys]

theorem Movable.holdsActive_other (hj : j ≠ id) :
    (moveAccount id tenantId s c).HoldsActive j k ↔ s.HoldsActive j k := by
  simp only [HoldsActive, h.lookup, if_neg hj]

theorem Movable.covered (hc : s.Covered) : (moveAccount id tenantId s c).Covered :=
  hc.trade h.resolve_installed (moveAccount_resolve_installed s c) (fun _ _ => h.resolve_iff)
    (fun _ => h.holdsActive_self.mp) fun _ _ hj => (h.holdsActive_other hj).mp

theorem Movable.pointed (hp : s.Pointed) : (moveAccount id tenantId s c).Pointed :=
  hp.trade (moveAccount_resolve_installed s c) (fun _ _ => h.resolve_iff)
    (fun _ => h.holdsActive_self.mpr) fun _ _ hj => (h.holdsActive_other hj).mpr

end

end

theorem Apart.nodup_filter {p : ChannelRecord → Bool}
    (h : Apart (channels.filter p) channels) : (channels.filter p).Nodup := by
  refine (List.Pairwise.filter p h).imp_of_mem ?_
  rintro x y hx - hxy rfl
  exact (hxy (.inl hx)).1 rfl

/-- A record some of whose channels moved to the installation-wide scope. -/
structure Rescopes (old new : IlkRecord) : Prop where
  record : new = { old with channels := new.channels }
  ichIds : new.channels.map (·.ichId) = old.channels.map (·.ichId)
  scopes : ∀ c ∈ new.channels, c.scope = installationScope ∨ c ∈ old.channels

theorem Rescopes.refl (r : IlkRecord) : Rescopes r r := ⟨rfl, rfl, fun _ => .inr⟩

theorem Rescopes.trans {a b c : IlkRecord} (hab : Rescopes a b) (hbc : Rescopes b c) :
    Rescopes a c where
  record := by
    rw [hbc.record, hab.record]
  ichIds := hbc.ichIds.trans hab.ichIds
  scopes := by
    intro d hd
    rcases hbc.scopes d hd with hinst | hb
    · exact .inl hinst
    · exact hab.scopes d hb

theorem rescopes_rescope (ichId : String) (r : IlkRecord) :
    Rescopes r { r with channels := rescope ichId r.channels } where
  record := rfl
  ichIds := by
    show (rescope ichId r.channels).map (·.ichId) = _
    induction r.channels with
    | nil => rfl
    | cons c rest ih =>
      unfold rescope
      split_ifs
      · rfl
      · rw [map_cons, ih, map_cons]
  scopes := by
    show ∀ c ∈ rescope ichId r.channels, _
    induction r.channels with
    | nil => simp [rescope]
    | cons c rest ih =>
      unfold rescope
      split_ifs
      · intro d hd
        rcases mem_cons.mp hd with rfl | hd
        · exact .inl rfl
        · exact .inr (mem_cons_of_mem _ hd)
      · intro d hd
        rcases mem_cons.mp hd with rfl | hd
        · exact .inr mem_cons_self
        · exact (ih d hd).imp_right (mem_cons_of_mem _)

/-- What a store with another version of the record `id` has, next to its lookup. -/
structure OnlyRescoped (s s' : IdentityStore) (id : String) (r : IlkRecord) : Prop where
  tenants : s'.tenants = s.tenants
  aliases : s'.aliases = s.aliases
  other : ∀ j, j ≠ id → s'.ilks.lookup j = s.ilks.lookup j
  self : ∃ r', s'.ilks.lookup id = some r' ∧ Rescopes r r'

theorem moveAccountLoop_rescopes (id tenantId : String) (cs : List ChannelRecord)
    {s : IdentityStore} {r : IlkRecord} (hr : s.ilks.lookup id = some r) :
    OnlyRescoped s (moveAccountLoop id tenantId cs s).1 id r := by
  induction cs generalizing s r with
  | nil => exact ⟨rfl, rfl, fun _ _ => rfl, r, hr, .refl r⟩
  | cons c rest ih =>
    unfold moveAccountLoop
    split_ifs
    · have hnow : (moveAccount id tenantId s c).ilks.lookup id =
          some { r with channels := rescope c.ichId r.channels } := by
        simp only [moveAccount, lookup_modify, if_true, hr, map_some]
      obtain ⟨htenants, haliases, hother, r', hr', hres⟩ := ih hnow
      refine ⟨htenants, haliases, ?_, r', hr', (rescopes_rescope c.ichId r).trans hres⟩
      intro j hj
      rw [hother j hj, moveAccount, lookup_modify, if_neg hj]
    · exact ih hr

section

variable {s : IdentityStore} {id : String} {entry : IlkRecord}

theorem unmark_lookup (s : IdentityStore) (id : String) (entry : IlkRecord) (j : String) :
    (s.unmark id entry).ilks.lookup j =
      if j = id then some { entry with deletedAtMs := none, deletedReason := none }
      else s.ilks.lookup j := lookup_insert_eq _ _ _ _

theorem unmarkIlkUnchecked_induct (hentry : s.ilks.lookup id = some entry) (htidy : entry.Tidy)
    (hapart : entry.isHuman → entry.registrationStatus = "complete" →
      Apart (accountCandidates entry) entry.channels) (hunmark : P (s.unmark id entry))
    (hstep : ∀ t r c, Movable id entry.tenantId t r c → P t →
      P (moveAccount id entry.tenantId t c)) : P (s.unmarkIlkUnchecked id).1 := by
  have hnow := unmark_lookup s id entry id
  rw [if_pos rfl] at hnow
  simp only [unmarkIlkUnchecked, hentry, moveAccountToInstallationScope, hnow]
  split_ifs with hskip
  · exact hunmark
  · rw [not_or, not_not, not_not] at hskip
    have happly := hapart hskip.1 hskip.2
    refine moveAccountLoop_induct hstep hnow rfl rfl ⟨htidy.tenant, htidy.scopes⟩
      happly.nodup_filter (fun c hc => mem_of_mem_filter hc) ?_ happly hunmark
    intro c hc
    have hcand := (mem_filter.mp hc).2
    simp only [Bool.and_eq_true, bne_iff_ne] at hcand
    rw [channelScope_of_isTenantId (htidy.scopes c (mem_of_mem_filter hc))] at hcand
    exact hcand.2

theorem unmarkIlkUnchecked_rescopes (hentry : s.ilks.lookup id = some entry) :
    OnlyRescoped s (s.unmarkIlkUnchecked id).1 id
      { entry with deletedAtMs := none, deletedReason := none } := by
  have hnow := unmark_lookup s id entry id
  rw [if_pos rfl] at hnow
  have hother : ∀ j, j ≠ id → (s.unmark id entry).ilks.lookup j = s.ilks.lookup j := by
    intro j hj
    rw [unmark_lookup, if_neg hj]
  simp only [unmarkIlkUnchecked, hentry, moveAccountToInstallationScope, hnow]
  split_ifs
  · exact ⟨rfl, rfl, hother, _, hnow, .refl _⟩
  · obtain ⟨htenants, haliases, hrest, hself⟩ := moveAccountLoop_rescopes id entry.tenantId
      (accountCandidates { entry with deletedAtMs := none, deletedReason := none }) hnow
    exact ⟨htenants, haliases, fun j hj => (hrest j hj).trans (hother j hj), hself⟩

theorem checkKeysRestorable_ok {channel : ChannelRecord} {keys : List IchKey}
    (h : s.checkKeysRestorable id channel keys = .ok u) :
    ∀ k ∈ keys, ∀ other, s.resolve k = some other → other = id := by
  induction keys with
  | nil => simp
  | cons key rest ih =>
    unfold checkKeysRestorable at h
    intro k hk other hother
    cases hl : s.ichLookup.lookup key with
    | none =>
      rw [hl] at h
      rcases mem_cons.mp hk with rfl | hk
      · rw [resolve, hl] at hother
        cases hother
      · exact ih h k hk other hother
    | some holder =>
      rw [hl] at h
      obtain ⟨⟨⟩, hkey, hrest⟩ := bind_ok.mp h
      rcases mem_cons.mp hk with rfl | hk
      · rw [resolve, hl] at hother
        cases hother
        exact ensure_ok.mp hkey
      · exact ih hrest k hk other hother

theorem checkChannelsRestorable_ok (h : s.checkChannelsRestorable id entry channels = .ok u) :
    ∀ c ∈ channels, ∀ k ∈ restoredKeys entry c, ∀ other, s.resolve k = some other → other = id := by
  induction channels with
  | nil => simp
  | cons c rest ih =>
    obtain ⟨⟨⟩, hkeys, hrest⟩ := bind_ok.mp h
    intro d hd
    rcases mem_cons.mp hd with rfl | hd
    · exact checkKeysRestorable_ok hkeys
    · exact ih hrest d hd

theorem checkIlkRestorable_ok (hentry : s.ilks.lookup id = some entry)
    (h : s.checkIlkRestorable id = .ok u) (hk : k ∈ entry.keys) {other : String}
    (hother : s.resolve k = some other) : other = id := by
  simp only [checkIlkRestorable, bind_ok, orFail_ok] at h
  obtain ⟨entry', hentry', ⟨⟩, hchannels, -⟩ := h
  rw [hentry] at hentry'
  cases hentry'
  obtain ⟨c, hc, rfl⟩ := IlkRecord.mem_keys.mp hk
  exact checkChannelsRestorable_ok hchannels c hc _ mem_cons_self other hother

end
end IdentityStore
end Fluxbee.Identity
