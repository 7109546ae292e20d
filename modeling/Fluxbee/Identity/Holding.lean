import Fluxbee.Identity.Runtime
import Fluxbee.Lib.ReverseIndex

/-! Who holds a channel key, what every stored record keeps, and what the store's checks on keys
and channel ids say about the holders. -/
namespace Fluxbee.Identity
open Text Fallible ReverseIndex List Option

variable {ilk : IlkRecord} {allowed : List String} {u : Unit} {held new : List ChannelRecord}
  {c : ChannelRecord}

theorem IlkRecord.mem_keys {key : IchKey} :
    key ∈ ilk.keys ↔ ∃ c ∈ ilk.channels, channelKey c ilk.tenantId = key := List.mem_map

/-- What of a channel its id and its key depend on. -/
def ChannelRecord.place (c : ChannelRecord) : String × String × String × String :=
  (c.ichId, c.channelType, c.address, c.scope)

def ChannelRecord.key (c : ChannelRecord) : IchKey := canonicalIchKey c.channelType c.address c.scope

theorem IlkRecord.Tidy.keys_eq (h : ilk.Tidy) : ilk.keys = ilk.channels.map ChannelRecord.key :=
  map_congr_left fun c hc => channelKey_of_isTenantId (h.scopes c hc) ilk.tenantId

theorem IlkRecord.Tidy.mem_keys (h : ilk.Tidy) {key : IchKey} :
    key ∈ ilk.keys ↔ ∃ c ∈ ilk.channels, c.key = key := by
  rw [h.keys_eq]
  exact List.mem_map

variable {s : IdentityStore}

namespace IdentityStore

section
variable (s : IdentityStore)

def Holds (id : String) (key : IchKey) : Prop :=
  ∃ ilk, s.ilks.lookup id = some ilk ∧ key ∈ ilk.keys

def HoldsActive (id : String) (key : IchKey) : Prop :=
  ∃ ilk, s.ilks.lookup id = some ilk ∧ ilk.deletedAtMs = none ∧ key ∈ ilk.keys

def resolve (key : IchKey) : Option String := s.ichLookup.lookup key

/-- The lookup knows every key of an active ILK. -/
def Covered : Prop := Covers s.resolve s.HoldsActive

/-- The lookup maps keys only to active ILKs that hold them. -/
def Pointed : Prop := Points s.resolve s.HoldsActive

end

theorem HoldsActive.holds {id : String} {key : IchKey}
    (h : s.HoldsActive id key) : s.Holds id key := by
  obtain ⟨ilk, hilk, -, hkey⟩ := h
  exact ⟨ilk, hilk, hkey⟩

/-- Every record lies under its own id, charged and scoped to tenant ids. -/
structure Kept (s : IdentityStore) : Prop where
  tenantNamed : ∀ id t, s.tenants.lookup id = some t → t.tenantId = id
  named : ∀ id r, s.ilks.lookup id = some r → r.ilkId = id
  tidy : ∀ id r, s.ilks.lookup id = some r → r.Tidy

theorem Kept.put_tenant (h : s.Kept) (t : TenantRecord) :
    ({ s with tenants := s.tenants.insert t.tenantId t } : IdentityStore).Kept where
  tenantNamed := by
    intro id t' ht
    rw [AList.lookup_insert_eq] at ht
    split_ifs at ht with hid
    · rw [← Option.some.inj ht, hid]
    · exact h.tenantNamed id t' ht
  named := h.named
  tidy := h.tidy

/-- The records stay kept when each one stored afterwards was stored before or is tidy under its
own id. -/
theorem Kept.of_ilks {s' : IdentityStore} (h : s.Kept)
    (htenants : ∀ id t, s'.tenants.lookup id = some t → s.tenants.lookup id = some t)
    (hilks : ∀ id r, s'.ilks.lookup id = some r →
      s.ilks.lookup id = some r ∨ (r.ilkId = id ∧ r.Tidy)) : s'.Kept where
  tenantNamed := fun id t ht => h.tenantNamed id t (htenants id t ht)
  named := by
    intro id r hr
    rcases hilks id r hr with hold | hnew
    · exact h.named id r hold
    · exact hnew.1
  tidy := by
    intro id r hr
    rcases hilks id r hr with hold | hnew
    · exact h.tidy id r hold
    · exact hnew.2

theorem mem_values_ilks {id : String} {r : IlkRecord}
    (h : s.ilks.lookup id = some r) : r ∈ s.ilks.values := AList.mem_values.mpr ⟨id, h⟩

theorem checkChannelFree_ok {key : IchKey} (h : s.checkChannelFree key allowed = .ok u) :
    (∀ ilk ∈ s.ilks.values, ilk.deletedAtMs ≠ none → ilk.ilkId ∉ allowed → key ∉ ilk.keys) ∧
      ∀ holder, s.ichLookup.lookup key = some holder → holder ∈ allowed := by
  simp only [checkChannelFree, bind_ok, ensure_ok] at h
  obtain ⟨-, hmarked, hlookup⟩ := h
  constructor
  · intro ilk hilk hdel hid hkey
    apply hmarked
    rw [List.any_eq_true]
    exact ⟨ilk, hilk, by simp [isSome_iff_ne_none, hdel, hid, hkey]⟩
  · intro holder hholder
    simpa [hholder] using hlookup

theorem Kept.mem_of_holds (hk : s.Kept) (hc : s.Covered) {key : IchKey}
    (h : s.checkChannelFree key allowed = .ok u) {j : String} (hj : s.Holds j key) :
    j ∈ allowed := by
  obtain ⟨hmarked, hlookup⟩ := checkChannelFree_ok h
  obtain ⟨ilk, hilk, hkey⟩ := hj
  by_cases hdel : ilk.deletedAtMs = none
  · exact hlookup j (hc j key ⟨ilk, hilk, hdel, hkey⟩)
  · by_contra hnot
    rw [← hk.named j ilk hilk] at hnot
    exact hmarked ilk (mem_values_ilks hilk) hdel hnot hkey

theorem not_holds_of_free (hc : s.Covered) {channelType address scope : String}
    (hnone : s.ichLookup.lookup (canonicalIchKey channelType address scope) = none)
    (hdel : s.deletedIlkHoldingChannel channelType address scope = none) (j : String) :
    ¬ s.Holds j (canonicalIchKey channelType address scope) := by
  rintro ⟨ilk, hilk, hkey⟩
  by_cases hmark : ilk.deletedAtMs = none
  · have hfound : s.ichLookup.lookup _ = some j := hc j _ ⟨ilk, hilk, hmark, hkey⟩
    rw [hnone] at hfound
    cases hfound
  · simp only [deletedIlkHoldingChannel, map_eq_none_iff, find?_eq_none] at hdel
    apply hdel ilk (mem_values_ilks hilk)
    simp [isSome_iff_ne_none, hmark, hkey]

theorem pushMissing_append (held a b : List ChannelRecord) :
    pushMissing held (a ++ b) = pushMissing (pushMissing held a) b := by
  induction a generalizing held with
  | nil => rfl
  | cons c rest ih => exact ih _

theorem mem_of_mem_pushMissing (h : c ∈ pushMissing held new) : c ∈ held ∨ c ∈ new := by
  induction new generalizing held with
  | nil => exact .inl h
  | cons d rest ih =>
    rcases ih h with hheld | hrest
    · split_ifs at hheld with hany
      · exact .inl hheld
      · rcases mem_append.mp hheld with hold | hd
        · exact .inl hold
        · exact .inr (mem_cons.mpr (.inl (mem_singleton.mp hd)))
    · exact .inr (mem_cons_of_mem d hrest)

theorem mem_pushMissing_of_held (new : List ChannelRecord)
    (h : c ∈ held) : c ∈ pushMissing held new := by
  induction new generalizing held with
  | nil => exact h
  | cons d rest ih =>
    apply ih
    split_ifs
    · exact h
    · exact mem_append_left _ h

theorem exists_mem_pushMissing (held : List ChannelRecord)
    (h : c ∈ new) : ∃ d ∈ pushMissing held new, d.ichId = c.ichId := by
  induction new generalizing held with
  | nil => cases h
  | cons d rest ih =>
    rcases mem_cons.mp h with rfl | hrest
    · simp only [pushMissing]
      split_ifs with hany
      · obtain ⟨e, he, hid⟩ := List.any_eq_true.mp hany
        exact ⟨e, mem_pushMissing_of_held rest he, by simpa using hid⟩
      · exact ⟨c, mem_pushMissing_of_held rest (mem_append_right _ (by simp)), rfl⟩
    · exact ih _ hrest

theorem nodup_pushMissing (new : List ChannelRecord)
    (h : (held.map (·.ichId)).Nodup) : ((pushMissing held new).map (·.ichId)).Nodup := by
  induction new generalizing held with
  | nil => exact h
  | cons d rest ih =>
    apply ih
    split_ifs with hany
    · exact h
    · rw [map_append, nodup_append]
      refine ⟨h, by simp, ?_⟩
      intro a ha b hb
      obtain ⟨e, he, rfl⟩ := List.mem_map.mp ha
      obtain ⟨f, hf, rfl⟩ := List.mem_map.mp hb
      rw [mem_singleton.mp hf]
      intro heq
      exact hany (List.any_eq_true.mpr ⟨e, he, by simpa using heq⟩)

end IdentityStore
end Fluxbee.Identity
