import Mathlib.Data.List.ReduceOption
import Fluxbee.Identity.LookupExact
import Fluxbee.Identity.References

/-! Full syncs: the primary's store cut into chunks and put together again by a replica, which
makes the channel lookup anew from the ILKs it received. -/
namespace Fluxbee.Identity
open Text Fallible IdentityStore List AList Option

structure IdentityFullSyncChunk where
  (chunk totalChunks : ℕ)
  tenants : List TenantRecord
  ilks : List IlkRecord
  aliases : List AliasSnapshotRecord

variable {arrived : List IdentityFullSyncChunk} {u : IdentityStore}

def sliceChunk {α : Type*} (items : List α) (chunkIndex chunkSize : ℕ) : List α :=
  (items.drop (chunkIndex * chunkSize)).take chunkSize

def divCeil (n d : ℕ) : ℕ := (n + d - 1) / d

def fullSyncChunkItems : ℕ := 256

namespace IdentityStore

section
variable (s : IdentityStore)

def sortedTenants : List TenantRecord :=
  s.tenants.values.insertionSort fun a b => a.tenantId ≤ b.tenantId

def sortedIlks : List IlkRecord :=
  s.ilks.values.insertionSort fun a b => a.ilkId ≤ b.ilkId

def sortedAliases : List AliasSnapshotRecord :=
  (s.aliases.entries.map fun e => (⟨e.1, e.2.canonicalIlkId, e.2.expiresAtMs⟩ :
    AliasSnapshotRecord)).insertionSort fun a b => a.oldIlkId ≤ b.oldIlkId

def chunkCount (chunkItems : ℕ) : ℕ :=
  max (max (max (divCeil s.sortedTenants.length chunkItems) (divCeil s.sortedIlks.length chunkItems))
    (divCeil s.sortedAliases.length chunkItems)) 1

/-- The chunk's number and the number of chunks are cast to 32 bits. -/
def chunkAt (chunkItems i : ℕ) : IdentityFullSyncChunk :=
  ⟨(i + 1) % 2 ^ 32, s.chunkCount chunkItems % 2 ^ 32, sliceChunk s.sortedTenants i chunkItems,
    sliceChunk s.sortedIlks i chunkItems, sliceChunk s.sortedAliases i chunkItems⟩

def buildFullSyncChunks (chunkItems : ℕ) : List IdentityFullSyncChunk :=
  let size := max chunkItems 1
  (List.range (s.chunkCount size)).map (s.chunkAt size)

def takeChunk (chunk : IdentityFullSyncChunk) : IdentityStore :=
  { s with
    tenants := chunk.tenants.foldl (fun m t => m.insert t.tenantId t) s.tenants
    ilks := chunk.ilks.foldl (fun m ilk => m.insert ilk.ilkId (fillChannelScopes ilk)) s.ilks
    aliases := chunk.aliases.foldl
      (fun m a => m.insert a.oldIlkId ⟨a.canonicalIlkId, a.expiresAtMs⟩) s.aliases }

def withLookup : IdentityStore :=
  { s with
    ichLookup := s.ilks.entries.foldl (fun m e =>
      if e.2.deletedAtMs = none then m.insertAll e.2.keys e.1 else m) s.ichLookup }

end

section
variable (chunks : List IdentityFullSyncChunk)

def fromRecords : IdentityStore :=
  (chunks.insertionSort fun a b => a.chunk ≤ b.chunk).foldl takeChunk empty

def fromFullSyncChunks : Except String IdentityStore :=
  let store := (fromRecords chunks).withLookup
  if store.tenants.entries = [] then .error "full sync payload did not include tenants"
  else .ok store

/-- `t` is rebuilt from the chunks, with the ILKs' entries in any order as the lookup is made of
them. -/
def Rebuilds (t : IdentityStore) : Prop :=
  ∃ u, Reorders (fromRecords chunks) u ∧ u.tenants.entries ≠ [] ∧ t = u.withLookup

end

end IdentityStore

/-! ### The replica's side -/

def maxFullSyncChunks : ℕ := 65536

/-- The chunks received so far, each in its place. -/
structure Reassembly where
  expectedChunks : Option ℕ := none
  received : List (Option IdentityFullSyncChunk) := []

def Reassembly.place (r : Reassembly) (chunk : IdentityFullSyncChunk) : Except String Reassembly :=
  if chunk.chunk - 1 < r.received.length then
    .ok { r with received := r.received.set (chunk.chunk - 1) (some chunk) }
  else .error "chunk index out of range"

def Reassembly.take (r : Reassembly) (chunk : IdentityFullSyncChunk) : Except String Reassembly :=
  let total := chunk.totalChunks
  if total = 0 ∨ chunk.chunk = 0 ∨ total < chunk.chunk then
    .error "invalid chunk numbering in full sync payload"
  else if maxFullSyncChunks < total then
    .error ("full sync total_chunks " ++ toString total ++ " exceeds max " ++
      toString maxFullSyncChunks)
  else match r.expectedChunks with
    | some expected =>
      if expected ≠ total then .error "inconsistent total_chunks in full sync payload"
      else r.place chunk
    | none => Reassembly.place ⟨some total, List.replicate total none⟩ chunk

/-- The lines of the primary's answer, up to the last chunk or the end of the stream. -/
def Reassembly.receive (r : Reassembly) : List IdentityFullSyncChunk → Except String Reassembly
  | [] => .ok r
  | chunk :: lines =>
    match r.take chunk with
    | .error err => .error err
    | .ok next => if next.received.all Option.isSome then .ok next else next.receive lines

def fetchFullSync (lines : List IdentityFullSyncChunk) : Except String IdentityStore :=
  match Reassembly.receive {} lines with
  | .error err => .error err
  | .ok r =>
    if r.received = [] ∨ r.received.any Option.isNone = true then .error "incomplete full sync stream"
    else fromFullSyncChunks r.received.reduceOption

/-! ### The round trip -/

section
variable {α : Type*} {items : List α} {size : ℕ}

theorem flatMap_sliceChunk (n : ℕ) :
    ((List.range n).flatMap fun i => sliceChunk items i size) = items.take (n * size) := by
  induction n with
  | zero => rw [Nat.zero_mul, take_zero, range_zero, flatMap_nil]
  | succ n ih =>
    rw [range_succ, flatMap_append, ih, flatMap_singleton, sliceChunk, Nat.succ_mul, take_add]

theorem le_divCeil_mul (hsize : 0 < size) (n : ℕ) : n ≤ divCeil n size * size := by
  unfold divCeil
  have hlt := Nat.lt_mul_div_succ (n + size - 1) hsize
  rw [Nat.mul_succ, Nat.mul_comm] at hlt
  omega

theorem flatMap_sliceChunk_of_le (hsize : 0 < size) {n : ℕ} (hn : divCeil items.length size ≤ n) :
    ((List.range n).flatMap fun i => sliceChunk items i size) = items := by
  have hcover : items.length ≤ n * size :=
    (le_divCeil_mul hsize items.length).trans (Nat.mul_le_mul_right size hn)
  rw [flatMap_sliceChunk, take_of_length_le hcover]

end

variable {r : IlkRecord} {k : IchKey} {i : String}

section
variable {s t : IdentityStore} {size : ℕ} {chunks : List IdentityFullSyncChunk}

structure SameRecords (s t : IdentityStore) : Prop where
  tenants : ∀ id, t.tenants.lookup id = s.tenants.lookup id
  ilks : ∀ id, t.ilks.lookup id = s.ilks.lookup id
  aliases : ∀ old, t.aliases.lookup old = s.aliases.lookup old

section
variable (chunks : List IdentityFullSyncChunk) (s : IdentityStore)

theorem foldl_takeChunk_tenants : (chunks.foldl takeChunk s).tenants =
      (chunks.flatMap (·.tenants)).foldl (fun m t => m.insert t.tenantId t) s.tenants := by
  induction chunks generalizing s with
  | nil => rfl
  | cons chunk rest ih => rw [foldl_cons, ih, flatMap_cons, foldl_append, takeChunk]

theorem foldl_takeChunk_ilks : (chunks.foldl takeChunk s).ilks = (chunks.flatMap (·.ilks)).foldl
      (fun m ilk => m.insert ilk.ilkId (fillChannelScopes ilk)) s.ilks := by
  induction chunks generalizing s with
  | nil => rfl
  | cons chunk rest ih => rw [foldl_cons, ih, flatMap_cons, foldl_append, takeChunk]

theorem foldl_takeChunk_aliases :
    (chunks.foldl takeChunk s).aliases = (chunks.flatMap (·.aliases)).foldl
      (fun m a => m.insert a.oldIlkId ⟨a.canonicalIlkId, a.expiresAtMs⟩) s.aliases := by
  induction chunks generalizing s with
  | nil => rfl
  | cons chunk rest ih => rw [foldl_cons, ih, flatMap_cons, foldl_append, takeChunk]

end

theorem flatMap_build_tenants (hsize : 0 < size) :
    (((List.range (s.chunkCount size)).map (s.chunkAt size)).flatMap (·.tenants)) =
      s.sortedTenants := by
  rw [flatMap_map]
  exact flatMap_sliceChunk_of_le hsize
    ((le_max_left _ _).trans ((le_max_left _ _).trans (le_max_left _ _)))

theorem flatMap_build_ilks (hsize : 0 < size) :
    (((List.range (s.chunkCount size)).map (s.chunkAt size)).flatMap (·.ilks)) = s.sortedIlks := by
  rw [flatMap_map]
  exact flatMap_sliceChunk_of_le hsize
    ((le_max_right _ _).trans ((le_max_left _ _).trans (le_max_left _ _)))

theorem flatMap_build_aliases (hsize : 0 < size) :
    (((List.range (s.chunkCount size)).map (s.chunkAt size)).flatMap (·.aliases)) =
      s.sortedAliases := by
  rw [flatMap_map]
  exact flatMap_sliceChunk_of_le hsize ((le_max_right _ _).trans (le_max_left _ _))

theorem mem_sortedTenants {t : TenantRecord} :
    t ∈ s.sortedTenants ↔ ∃ id, s.tenants.lookup id = some t := by
  rw [sortedTenants, mem_insertionSort, mem_values]

theorem mem_sortedIlks {ilk : IlkRecord} :
    ilk ∈ s.sortedIlks ↔ ∃ id, s.ilks.lookup id = some ilk := by
  rw [sortedIlks, mem_insertionSort, mem_values]

theorem mem_sortedAliases {a : AliasSnapshotRecord} : a ∈ s.sortedAliases ↔
      s.aliases.lookup a.oldIlkId = some ⟨a.canonicalIlkId, a.expiresAtMs⟩ := by
  rw [sortedAliases, mem_insertionSort, List.mem_map, ← mem_entries_iff]
  constructor
  · rintro ⟨e, he, rfl⟩
    exact he
  · intro he
    exact ⟨_, he, rfl⟩

/-- The chunks hold the records of the store, each in one of them. -/
structure Holding (s : IdentityStore) (chunks : List IdentityFullSyncChunk) : Prop where
  tenants : ∀ t, t ∈ chunks.flatMap (·.tenants) ↔ ∃ id, s.tenants.lookup id = some t
  ilks : ∀ ilk, ilk ∈ chunks.flatMap (·.ilks) ↔ ∃ id, s.ilks.lookup id = some ilk
  aliases : ∀ a, a ∈ chunks.flatMap (·.aliases) ↔
    s.aliases.lookup a.oldIlkId = some ⟨a.canonicalIlkId, a.expiresAtMs⟩

theorem holding_build (s : IdentityStore) (chunkItems : ℕ) :
    Holding s (s.buildFullSyncChunks chunkItems) := by
  have hsize : 0 < max chunkItems 1 := lt_of_lt_of_le Nat.one_pos (le_max_right _ _)
  unfold buildFullSyncChunks
  constructor
  · intro t
    rw [flatMap_build_tenants hsize, mem_sortedTenants]
  · intro ilk
    rw [flatMap_build_ilks hsize, mem_sortedIlks]
  · intro a
    rw [flatMap_build_aliases hsize, mem_sortedAliases]

theorem Holding.perm (h : Holding s chunks) (hperm : arrived.Perm chunks) : Holding s arrived where
  tenants t := (hperm.flatMap_right _).mem_iff.trans (h.tenants t)
  ilks ilk := (hperm.flatMap_right _).mem_iff.trans (h.ilks ilk)
  aliases a := (hperm.flatMap_right _).mem_iff.trans (h.aliases a)

/-- Chunks that hold a store's records give them again, whatever their order: no two records go
under one key. -/
theorem Holding.sameRecords (h : Holding s chunks) (hk : s.Kept) :
    SameRecords s (chunks.foldl takeChunk empty) where
  tenants id := by
    rw [foldl_takeChunk_tenants]
    have hone : ∀ x ∈ chunks.flatMap (·.tenants), ∀ y ∈ chunks.flatMap (·.tenants),
        x.tenantId = y.tenantId → x = y := by
      intro x hx y hy heq
      obtain ⟨i, hi⟩ := (h.tenants x).mp hx
      obtain ⟨j, hj⟩ := (h.tenants y).mp hy
      rw [← hk.tenantNamed i x hi, heq, hk.tenantNamed j y hj, hj] at hi
      exact (some.inj hi).symm
    apply Option.ext
    intro t
    rw [lookup_foldl_insert hone]
    constructor
    · rintro (⟨x, hx, hid, rfl⟩ | ⟨-, hnone⟩)
      · obtain ⟨i, hi⟩ := (h.tenants x).mp hx
        rwa [← hid, hk.tenantNamed i x hi]
      · cases hnone
    · intro ht
      exact .inl ⟨t, (h.tenants t).mpr ⟨id, ht⟩, hk.tenantNamed id t ht, rfl⟩
  ilks id := by
    rw [foldl_takeChunk_ilks]
    have hone : ∀ x ∈ chunks.flatMap (·.ilks), ∀ y ∈ chunks.flatMap (·.ilks),
        x.ilkId = y.ilkId → fillChannelScopes x = fillChannelScopes y := by
      intro x hx y hy heq
      obtain ⟨i, hi⟩ := (h.ilks x).mp hx
      obtain ⟨j, hj⟩ := (h.ilks y).mp hy
      rw [← hk.named i x hi, heq, hk.named j y hj, hj] at hi
      rw [some.inj hi]
    apply Option.ext
    intro r
    rw [lookup_foldl_insert hone]
    constructor
    · rintro (⟨x, hx, hid, rfl⟩ | ⟨-, hnone⟩)
      · obtain ⟨i, hi⟩ := (h.ilks x).mp hx
        rwa [← hid, hk.named i x hi, fillChannelScopes_of_tidy (hk.tidy i x hi)]
      · cases hnone
    · intro hr
      exact .inl ⟨r, (h.ilks r).mpr ⟨id, hr⟩, hk.named id r hr,
        fillChannelScopes_of_tidy (hk.tidy id r hr)⟩
  aliases old := by
    rw [foldl_takeChunk_aliases]
    have hone : ∀ x ∈ chunks.flatMap (·.aliases), ∀ y ∈ chunks.flatMap (·.aliases),
        x.oldIlkId = y.oldIlkId →
          (⟨x.canonicalIlkId, x.expiresAtMs⟩ : AliasRecord) = ⟨y.canonicalIlkId, y.expiresAtMs⟩ := by
      intro x hx y hy heq
      have hlook := (h.aliases x).mp hx
      rw [heq, (h.aliases y).mp hy] at hlook
      exact (some.inj hlook).symm
    apply Option.ext
    intro a
    rw [lookup_foldl_insert hone]
    constructor
    · rintro (⟨x, hx, rfl, rfl⟩ | ⟨-, hnone⟩)
      · exact (h.aliases x).mp hx
      · cases hnone
    · intro ha
      exact .inl ⟨⟨old, a.canonicalIlkId, a.expiresAtMs⟩, (h.aliases _).mpr ha, rfl, rfl⟩

theorem Holding.fromRecords (h : Holding s chunks) (hk : s.Kept) :
    SameRecords s (fromRecords chunks) :=
  (h.perm (perm_insertionSort _ chunks)).sameRecords hk

theorem SameRecords.reorder (h : SameRecords s t) (hre : Reorders t u) : SameRecords s u where
  tenants id := (hre.lookup_tenants id).trans (h.tenants id)
  ilks id := (hre.lookup_ilks id).trans (h.ilks id)
  aliases old := (hre.lookup_aliases old).trans (h.aliases old)

/-! ### The lookup made anew -/

theorem withLookup_eq (u : IdentityStore) (hnone : u.ichLookup = ∅) :
    u.withLookup.ichLookup = u.ilks.entries.foldl (fun m e =>
      m.insertAll (if e.2.deletedAtMs = none then e.2.keys else []) e.1) ∅ := by
  unfold withLookup
  dsimp only
  rw [hnone]
  congr 1
  funext m e
  split_ifs <;> rfl

theorem mem_activeKeys :
    k ∈ (if r.deletedAtMs = none then r.keys else []) ↔ r.deletedAtMs = none ∧ k ∈ r.keys := by
  split_ifs with h
  · simp [h]
  · simp [h]

theorem pointed_withLookup (hnone : u.ichLookup = ∅) : u.withLookup.Pointed := by
  intro i k hres
  rw [resolve, withLookup_eq u hnone] at hres
  rcases mem_or_lookup_of_foldl_insertAll hres with ⟨e, he, hkey, rfl⟩ | hempty
  · obtain ⟨hact, hin⟩ := mem_activeKeys.mp hkey
    exact ⟨e.2, mem_entries_iff.mp he, hact, hin⟩
  · cases hempty

theorem resolve_withLookup_isSome (hnone : u.ichLookup = ∅) (hheld : u.HoldsActive i k) :
    (u.withLookup.resolve k).isSome := by
  rw [resolve, withLookup_eq u hnone]
  apply isSome_lookup_foldl_insertAll
  obtain ⟨r, hr, hact, hin⟩ := hheld
  exact .inl ⟨⟨i, r⟩, mem_entries_iff.mpr hr, mem_activeKeys.mpr ⟨hact, hin⟩⟩

theorem resolve_withLookup (hnone : u.ichLookup = ∅)
    (hheld : u.HoldsActive i k) (hone : ∀ j, u.HoldsActive j k → j = i) :
    u.withLookup.resolve k = some i := by
  rw [resolve, withLookup_eq u hnone]
  apply lookup_foldl_insertAll
  · intro e he hkey
    obtain ⟨hact, hin⟩ := mem_activeKeys.mp hkey
    exact hone e.1 ⟨e.2, mem_entries_iff.mp he, hact, hin⟩
  · obtain ⟨r, hr, hact, hin⟩ := hheld
    exact .inl ⟨⟨i, r⟩, mem_entries_iff.mpr hr, mem_activeKeys.mpr ⟨hact, hin⟩⟩

theorem resolve_withLookup_last (hnone : u.ichLookup = ∅)
    {front : List (Sigma fun _ : String => IlkRecord)}
    (hlast : u.ilks.entries = front ++ [⟨i, r⟩]) (hact : r.deletedAtMs = none)
    (hkey : k ∈ r.keys) : u.withLookup.resolve k = some i := by
  rw [resolve, withLookup_eq u hnone, hlast, foldl_append, foldl_cons, foldl_nil,
    lookup_insertAll, if_pos (mem_activeKeys.mpr ⟨hact, hkey⟩)]

structure SameStore (s t : IdentityStore) : Prop extends SameRecords s t where
  lookup : ∀ key, t.resolve key = s.resolve key

/-- Whatever the chunk size and the order in which the chunks arrive, they are accepted, and every
store rebuilt from them is the same again. -/
def RoundTrips (s : IdentityStore) : Prop :=
  ∀ chunkItems arrived, arrived.Perm (s.buildFullSyncChunks chunkItems) →
    (∃ t, fromFullSyncChunks arrived = .ok t) ∧ ∀ t, Rebuilds arrived t → SameStore s t

theorem Rebuilds.sameRecords (hk : s.Kept)
    (h : Holding s arrived) (hreb : Rebuilds arrived t) : SameRecords s t := by
  obtain ⟨u, hre, -, rfl⟩ := hreb
  have hsame := (h.fromRecords hk).reorder hre
  exact ⟨hsame.tenants, hsame.ilks, hsame.aliases⟩

theorem fromFullSyncChunks_ok (h : fromFullSyncChunks chunks = .ok t) :
    (fromRecords chunks).tenants.entries ≠ [] ∧ t = (fromRecords chunks).withLookup := by
  unfold fromFullSyncChunks at h
  dsimp only at h
  split_ifs at h with hnone
  cases h
  exact ⟨hnone, rfl⟩

theorem fromFullSyncChunks_rebuilds (h : fromFullSyncChunks chunks = .ok t) : Rebuilds chunks t := by
  obtain ⟨hne, rfl⟩ := fromFullSyncChunks_ok h
  exact ⟨fromRecords chunks, .refl _, hne, rfl⟩

theorem fromRecords_ichLookup (chunks : List IdentityFullSyncChunk) :
    (fromRecords chunks).ichLookup = ∅ := by
  have hkept : ∀ (l : List IdentityFullSyncChunk) (u : IdentityStore), u.ichLookup = ∅ →
      (l.foldl takeChunk u).ichLookup = ∅ := by
    intro l
    induction l with
    | nil => exact fun u hu => hu
    | cons c rest ih => exact fun u hu => ih _ hu
  exact hkept _ _ rfl

theorem Reorders.ichLookup_empty (hre : Reorders s u) (h : s.ichLookup = ∅) : u.ichLookup = ∅ := by
  have hperm := hre.ichLookup
  rw [h] at hperm
  exact AList.ext (nil_perm.mp hperm)

theorem exists_fromFullSyncChunks (hk : s.Kept)
    (h : Holding s arrived) {id : String} (hid : s.StoresTenant id) :
    ∃ t, fromFullSyncChunks arrived = .ok t := by
  have hsome : ((fromRecords arrived).tenants.lookup id).isSome := by
    rw [(h.fromRecords hk).tenants]
    exact hid
  have hne : (fromRecords arrived).withLookup.tenants.entries ≠ [] := by
    intro hnil
    obtain ⟨t, ht⟩ := isSome_iff_exists.mp hsome
    have hmem : (⟨id, t⟩ : Sigma fun _ : String => TenantRecord) ∈
        (fromRecords arrived).tenants.entries := mem_entries_iff.mpr ht
    have hempty : (fromRecords arrived).tenants.entries = [] := hnil
    rw [hempty] at hmem
    cases hmem
  unfold fromFullSyncChunks
  rw [if_neg hne]
  exact ⟨_, rfl⟩

theorem SameRecords.holdsActive (h : SameRecords s t) (i : String) (k : IchKey) :
    t.HoldsActive i k ↔ s.HoldsActive i k := by
  simp only [HoldsActive, h.ilks]

theorem Rebuilds.lookup (hk : s.Kept) (h : Holding s arrived)
    (hexact : ∀ key id, s.resolve key = some id ↔ s.HoldsActive id key)
    (hreb : Rebuilds arrived t) (key : IchKey) : t.resolve key = s.resolve key := by
  obtain ⟨u, hre, -, rfl⟩ := hreb
  have hsame := (h.fromRecords hk).reorder hre
  have hnone := hre.ichLookup_empty (fromRecords_ichLookup arrived)
  cases hres : s.resolve key with
  | some i =>
    have hheld := (hexact key i).mp hres
    apply resolve_withLookup hnone ((hsame.holdsActive i key).mpr hheld)
    intro j hj
    have hj' := (hexact key j).mpr ((hsame.holdsActive j key).mp hj)
    rw [hres] at hj'
    exact (some.inj hj').symm
  | none =>
    cases hnew : u.withLookup.resolve key with
    | none => rfl
    | some i =>
      have hheld : u.HoldsActive i key := pointed_withLookup hnone i key hnew
      have hi := (hexact key i).mpr ((hsame.holdsActive i key).mp hheld)
      rw [hres] at hi
      cases hi

theorem exists_reorders_last (hr : u.ilks.lookup i = some r) :
    ∃ v front, Reorders u v ∧ v.ichLookup = u.ichLookup ∧ v.tenants = u.tenants ∧
      v.ilks.entries = front ++ [⟨i, r⟩] := by
  let e : Sigma fun _ : String => IlkRecord := ⟨i, r⟩
  have hmem : e ∈ u.ilks.entries := mem_entries_iff.mpr hr
  have hperm : u.ilks.entries.Perm (u.ilks.entries.erase e ++ [e]) :=
    (perm_cons_erase hmem).trans (perm_append_singleton _ _).symm
  have hnodup : (u.ilks.entries.erase e ++ [e]).NodupKeys :=
    (perm_nodupKeys hperm).mp u.ilks.nodupKeys
  let last : AList fun _ : String => IlkRecord := ⟨u.ilks.entries.erase e ++ [e], hnodup⟩
  have hre : Reorders u { u with ilks := last } := ⟨.refl _, hperm, .refl _, .refl _, .refl _⟩
  exact ⟨{ u with ilks := last }, u.ilks.entries.erase e, hre, rfl, rfl, rfl⟩

theorem RoundTrips.exact (hk : s.Kept) (h : RoundTrips s) (key : IchKey) (i : String) :
    s.resolve key = some i ↔ s.HoldsActive i key := by
  let arrived := s.buildFullSyncChunks 0
  have hholding : Holding s arrived := holding_build s 0
  obtain ⟨⟨t, ht⟩, hall⟩ := h 0 arrived (.refl _)
  have hsame := hholding.fromRecords hk
  constructor
  · intro hres
    have hreb := fromFullSyncChunks_rebuilds ht
    rw [← (hall t hreb).lookup key] at hres
    obtain ⟨u, hre, -, rfl⟩ := hreb
    have hnone := hre.ichLookup_empty (fromRecords_ichLookup arrived)
    have hheld : u.HoldsActive i key := pointed_withLookup hnone i key hres
    exact ((hsame.reorder hre).holdsActive i key).mp hheld
  · rintro ⟨r, hr, hact, hkey⟩
    -- With the holder's entry last, the lookup made anew leads to it.
    have hr' : (fromRecords arrived).ilks.lookup i = some r := (hsame.ilks i).trans hr
    obtain ⟨v, front, hre, hlookup, htenants, hlast⟩ := exists_reorders_last hr'
    have hnone : v.ichLookup = ∅ := hlookup.trans (fromRecords_ichLookup arrived)
    have hsome : v.tenants.entries ≠ [] := by
      rw [htenants]
      exact (fromFullSyncChunks_ok ht).1
    have hreb : Rebuilds arrived v.withLookup := ⟨v, hre, hsome, rfl⟩
    rw [← (hall _ hreb).lookup key]
    exact resolve_withLookup_last hnone hlast hact hkey

theorem roundTrips_of_exact (hk : s.Kept) {id : String} (hid : s.StoresTenant id)
    (hexact : ∀ key id, s.resolve key = some id ↔ s.HoldsActive id key) : RoundTrips s := by
  intro chunkItems arrived hperm
  have hholding := (holding_build s chunkItems).perm hperm
  refine ⟨exists_fromFullSyncChunks hk hholding hid, ?_⟩
  intro t hreb
  exact ⟨Rebuilds.sameRecords hk hholding hreb, Rebuilds.lookup hk hholding hexact hreb⟩

end

/-! ### Runs of the primary -/

section
variable {s : IdentityStore} {cfg : Config} {systemIlkId : String → String} {primaryHive : String}
  {okRequest : IdentityStore → Event → Prop} {okFrame : IdentityStore → IngestFrame → Prop}

theorem IdentityStore.StoresTenant.handle (hk : s.Kept) (h : s.StoresTenant defaultRootTenantId)
    (cfg : Config) (e : Event) : (handle cfg s e).1.StoresTenant defaultRootTenantId := by
  by_cases hq : ∃ tenantId, e.request = .purgeTenant tenantId
  · obtain ⟨tenantId, hq⟩ := hq
    rcases handle_purgeTenant cfg hq with hsame | ⟨hroot, hpurged⟩
    · rw [hsame]
      exact h
    · rw [hpurged, StoresTenant, purgedStore_tenants, lookup_erase_eq, if_neg hroot.symm]
      exact h
  · exact (handle_turn hk cfg e).storesTenant (fun tenantId heq => hq ⟨tenantId, heq⟩) h

theorem ReachesFrom.root
    (h : ReachesFrom (Serves cfg systemIlkId primaryHive okRequest okFrame) .withDefaultTenant s) :
    s.Kept ∧ s.StoresTenant defaultRootTenantId := by
  refine h.invariant (P := fun s => s.Kept ∧ s.StoresTenant defaultRootTenantId)
    ⟨kept_withDefaultTenant, closed_withDefaultTenant.root⟩ ?_ ?_
  · rintro s t hre ⟨hk, hroot⟩
    refine ⟨hk.reorder hre, ?_⟩
    rw [StoresTenant, hre.lookup_tenants]
    exact hroot
  · rintro s s' ⟨hk, hroot⟩ hstep
    cases hstep with
    | request e _ => exact ⟨(handle_turn hk cfg e).kept hk, hroot.handle hk cfg e⟩
    | frame f _ =>
      obtain ⟨hiso, hkept, -⟩ := ingest_isolates systemIlkId primaryHive hk
        (rfl : f.publisherHive = f.publisherHive)
      refine ⟨hkept, ?_⟩
      rw [StoresTenant, hiso.tenants]
      exact hroot

/-- In every store the primary reaches, the chunks give the same tenants, ILKs and aliases again,
whatever their size and order; they give the same store again just where the lookup maps each key
to its active holders, and so in every run of requests that keep it so. -/
theorem full_sync_round_trip
    (h : ReachesFrom (Serves cfg systemIlkId primaryHive okRequest okFrame) .withDefaultTenant s) :
    (∀ chunkItems arrived, arrived.Perm (s.buildFullSyncChunks chunkItems) →
      (∃ t, fromFullSyncChunks arrived = .ok t) ∧ ∀ t, Rebuilds arrived t → SameRecords s t) ∧
    (RoundTrips s ↔ ∀ key id, s.resolve key = some id ↔ s.HoldsActive id key) ∧
    (Reaches (Handles cfg LookupSafe) s → RoundTrips s) := by
  obtain ⟨hk, hroot⟩ := h.root
  refine ⟨?_, ⟨RoundTrips.exact hk, roundTrips_of_exact hk hroot⟩, ?_⟩
  · intro chunkItems arrived hperm
    have hholding := (holding_build s chunkItems).perm hperm
    exact ⟨exists_fromFullSyncChunks hk hholding hroot, fun t => Rebuilds.sameRecords hk hholding⟩
  · intro hsafe
    have hlook := hsafe.lookupExact
    apply roundTrips_of_exact hk hroot
    intro key id
    exact ⟨hlook.pointed id key, hlook.covered id key⟩

end

open Reuse

/-- After a channel is added under an id its ILK holds already, the rebuilt store has no key for
it. -/
theorem reused_ich_lost_in_full_sync :
    ∃ s t, ReachesFrom (Serves hourConfig id "motherbee" (fun _ _ => True) fun _ _ => True)
        .withDefaultTenant s ∧
      fromFullSyncChunks (s.buildFullSyncChunks fullSyncChunkItems) = .ok t ∧
      s.resolve (Reuse.key "+2") = some (newIlkId Reuse.newIlk) ∧
      t.resolve (Reuse.key "+2") = none := by
  let s := runRequests hourConfig .withDefaultTenant [provision, addHeld]
  have hreach : ReachesFrom (Serves hourConfig id "motherbee" (fun _ _ => True) fun _ _ => True)
      .withDefaultTenant s :=
    (ReachesFrom.start.step (.refl _) (.request provision trivial)).step (.refl _)
      (.request addHeld trivial)
  have hrun : s.resolve (key "+2") = some (newIlkId newIlk) ∧
      ((fromFullSyncChunks (s.buildFullSyncChunks fullSyncChunkItems)).toOption.map
        fun t => t.resolve (key "+2")) = some none := by decide +kernel
  obtain ⟨t, ht, hnone⟩ := Option.map_eq_some_iff.mp hrun.2
  refine ⟨s, t, hreach, ?_, hrun.1, hnone⟩
  cases hx : fromFullSyncChunks (s.buildFullSyncChunks fullSyncChunkItems) with
  | error err =>
    rw [hx] at ht
    cases ht
  | ok t' =>
    rw [hx] at ht
    cases ht
    rfl

/-- A store with one provisioned ILK comes back whole from its chunks. -/
theorem provisioned_round_trips : ∃ s, s.resolve (Reuse.key "+1") = some (newIlkId Reuse.newIlk) ∧
    RoundTrips s := by
  have hfresh : IdentityStore.withDefaultTenant.ilks.lookup (newIlkId newIlk) = none := by
    decide +kernel
  have hsafe : LookupSafe .withDefaultTenant provision :=
    ⟨hfresh, trivial, nofun, by rintro ⟨⟩⟩
  let s := (handle hourConfig .withDefaultTenant provision).1
  have hsafeRun : Reaches (Handles hourConfig LookupSafe) s :=
    Reaches.withDefaultTenant.step (.refl _) ⟨provision, hsafe, rfl⟩
  have hreach : ReachesFrom (Serves hourConfig id "motherbee" (fun _ _ => True) fun _ _ => True)
      .withDefaultTenant s := ReachesFrom.start.step (.refl _) (.request provision trivial)
  exact ⟨s, by decide +kernel, (full_sync_round_trip hreach).2.2 hsafeRun⟩

/-- Whatever lines a replica reads, the lookup of a store it takes from them leads to active holders
only, and from every channel of an active ILK to one. -/
theorem fetched_lookup_exact {arrived : List IdentityFullSyncChunk} {u : IdentityStore}
    (h : fetchFullSync arrived = .ok u) :
    u.Pointed ∧ (∀ id key, u.HoldsActive id key → ∃ holder, u.resolve key = some holder) ∧
      u.tenants.entries ≠ [] := by
  unfold fetchFullSync at h
  split at h
  · cases h
  · split_ifs at h
    obtain ⟨hsome, rfl⟩ := fromFullSyncChunks_ok h
    have hnone := fromRecords_ichLookup
    exact ⟨pointed_withLookup (hnone _), fun id key hheld =>
      Option.isSome_iff_exists.mp (resolve_withLookup_isSome (hnone _) hheld), hsome⟩

/-- The chunks of a store with an ILK, in the reverse order. -/
theorem fetched_lookup_exact_reversed :
    ∃ u, fetchFullSync (((handle hourConfig .withDefaultTenant provision).1.buildFullSyncChunks 1).reverse) =
        .ok u ∧ u.resolve (key "+1") = some (newIlkId newIlk) ∧ u.Pointed := by
  have hkey : ((fetchFullSync (((handle hourConfig .withDefaultTenant provision).1.buildFullSyncChunks
      1).reverse)).toOption.bind fun u => u.resolve (key "+1")) = some (newIlkId newIlk) := by
    decide +kernel
  generalize h : fetchFullSync _ = answer at hkey ⊢
  cases answer with
  | error => cases hkey
  | ok u => exact ⟨u, rfl, hkey, (fetched_lookup_exact h).1⟩

end Fluxbee.Identity
