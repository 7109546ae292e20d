import Fluxbee.Identity.LookupInvariant

/-! Runs of the identity service. A map has no order of its own, so between two steps the entries
of the store's maps may come in any order. -/
namespace Fluxbee.Identity
open IdentityStore AList

/-- The same maps, with their entries in another order. -/
structure Reorders (s t : IdentityStore) : Prop where
  tenants : s.tenants.entries.Perm t.tenants.entries
  ilks : s.ilks.entries.Perm t.ilks.entries
  ichLookup : s.ichLookup.entries.Perm t.ichLookup.entries
  aliases : s.aliases.entries.Perm t.aliases.entries
  ambiguousAccountEmails : s.ambiguousAccountEmails.Perm t.ambiguousAccountEmails

theorem Reorders.refl (s : IdentityStore) : Reorders s s :=
  ⟨.refl _, .refl _, .refl _, .refl _, .refl _⟩

section

variable {s t : IdentityStore} (h : Reorders s t)
include h

theorem Reorders.lookup_tenants (id : String) : t.tenants.lookup id = s.tenants.lookup id :=
  (perm_lookup h.tenants).symm

theorem Reorders.lookup_ilks (id : String) : t.ilks.lookup id = s.ilks.lookup id :=
  (perm_lookup h.ilks).symm

theorem Reorders.lookup_ichLookup (key : IchKey) : t.ichLookup.lookup key = s.ichLookup.lookup key :=
  (perm_lookup h.ichLookup).symm

theorem Reorders.lookup_aliases (id : String) : t.aliases.lookup id = s.aliases.lookup id :=
  (perm_lookup h.aliases).symm

end

inductive ReachesFrom (step : IdentityStore → IdentityStore → Prop) (start : IdentityStore) :
    IdentityStore → Prop
  | start : ReachesFrom step start start
  | step {s t t' : IdentityStore} :
    ReachesFrom step start s → Reorders s t → step t t' → ReachesFrom step start t'

/-- The stores reached from an empty one, with or without its default tenant, by `step`s. -/
def Reaches (step : IdentityStore → IdentityStore → Prop) (s : IdentityStore) : Prop :=
  ReachesFrom step empty s ∨ ReachesFrom step withDefaultTenant s

theorem Reaches.step {turn : IdentityStore → IdentityStore → Prop} {s t t' : IdentityStore}
    (h : Reaches turn s) (hre : Reorders s t) (hturn : turn t t') : Reaches turn t' :=
  h.imp (.step · hre hturn) (.step · hre hturn)

variable {s : IdentityStore} {step : IdentityStore → IdentityStore → Prop}
  {P : IdentityStore → Prop} {cfg : Config} {ok : IdentityStore → Event → Prop}

theorem ReachesFrom.invariant {start : IdentityStore} (hstart : P start)
    (hreorder : ∀ s t, Reorders s t → P s → P t) (hstep : ∀ s s', P s → step s s' → P s')
    (h : ReachesFrom step start s) : P s := by
  induction h with
  | start => exact hstart
  | step _ hre hst ih => exact hstep _ _ (hreorder _ _ hre ih) hst

theorem Reaches.withDefaultTenant : Reaches step IdentityStore.withDefaultTenant := .inr .start

def Handles (cfg : Config) (ok : IdentityStore → Event → Prop) (s s' : IdentityStore) : Prop :=
  ∃ e, ok s e ∧ s' = (handle cfg s e).1

/-- The rule of invariants: what the first stores have and every step keeps, whatever the order
of the maps, every store reached has. -/
theorem Reaches.invariant
    (hempty : P IdentityStore.empty) (hdefault : P IdentityStore.withDefaultTenant)
    (hreorder : ∀ s t, Reorders s t → P s → P t) (hstep : ∀ s s', P s → step s s' → P s')
    (h : Reaches step s) : P s := by
  rcases h with h | h
  · exact h.invariant hempty hreorder hstep
  · exact h.invariant hdefault hreorder hstep

theorem kept_of_bare
    (htenants : ∀ id t, s.tenants.lookup id = some t → t.tenantId = id) (hilks : s.ilks = ∅) :
    s.Kept := by
  refine ⟨htenants, ?_, ?_⟩ <;> simp [hilks]

theorem kept_empty : IdentityStore.empty.Kept := kept_of_bare (by simp [IdentityStore.empty]) rfl

theorem kept_withDefaultTenant : IdentityStore.withDefaultTenant.Kept := by
  refine kept_of_bare ?_ rfl
  intro id t ht
  have hroot : IdentityStore.withDefaultTenant.tenants =
      AList.insert defaultRootTenantId rootTenant ∅ := rfl
  rw [hroot, lookup_insert_eq] at ht
  split_ifs at ht with hid
  · rw [← Option.some.inj ht, hid]
    rfl
  · cases ht

theorem IdentityStore.Kept.reorder {t : IdentityStore} (h : s.Kept) (hre : Reorders s t) :
    t.Kept := by
  refine ⟨?_, ?_, ?_⟩
  · simpa only [hre.lookup_tenants] using h.tenantNamed
  · simpa only [hre.lookup_ilks] using h.named
  · simpa only [hre.lookup_ilks] using h.tidy

/-- Aliases expire after an hour. -/
def hourConfig : Config := ⟨3600, "IO.cloud@motherbee"⟩

def runRequests (cfg : Config) (s : IdentityStore) (events : List Event) : IdentityStore :=
  events.foldl (fun s e => (handle cfg s e).1) s

def Meets (cfg : Config) (ok : IdentityStore → Event → Prop) : IdentityStore → List Event → Prop
  | _, [] => True
  | s, e :: rest => ok s e ∧ Meets cfg ok (handle cfg s e).1 rest

theorem meets_of_forall
    (h : ∀ s e, ok s e) (s : IdentityStore) (events : List Event) : Meets cfg ok s events := by
  induction events generalizing s with
  | nil => trivial
  | cons e rest ih => exact ⟨h s e, ih _⟩

theorem Reaches.runRequests (h : Reaches (Handles cfg ok) s) {events : List Event}
    (hok : Meets cfg ok s events) : Reaches (Handles cfg ok) (runRequests cfg s events) := by
  induction events generalizing s with
  | nil => exact h
  | cons e rest ih => exact ih (h.step (.refl s) ⟨e, hok.1, rfl⟩) hok.2

end Fluxbee.Identity
