import Fluxbee.Identity.FullSync
import Fluxbee.Identity.TenantSteps

/-! What a purge of a tenant leaves of the store. -/
namespace Fluxbee.Identity
open Text Fallible IdentityStore List AList

variable {s next : IdentityStore} {tenantId : String} {a : LifecycleOk × LifecycleChanges}

def IdentityStore.Charged (s : IdentityStore) (tenantId id : String) : Prop :=
  ∃ r, s.ilks.lookup id = some r ∧ r.tenantId = tenantId

/-- From `s` to `next` the tenant and its ILKs are gone, with the aliases and lookup keys that lead to
them and all that is in its scope, and nothing else. -/
structure Purged (s next : IdentityStore) (tenantId : String) : Prop where
  uncharged : ∀ j r, next.ilks.lookup j = some r → r.tenantId ≠ tenantId ∧
    ∀ c ∈ r.channels, channelScope c r.tenantId ≠ tenantId
  unscoped : ∀ key id, next.resolve key = some id → key.2.2 ≠ tenantId
  people : ∀ j r, s.ilks.lookup j = some r → next.ilks.lookup j = none → r.deletedAtMs = none →
    r.isHuman → (s.aliases.lookup j).isSome
  ilks : ∀ j r, s.ilks.lookup j = some r → r.tenantId ≠ tenantId →
    next.ilks.lookup j = some (dropScope tenantId r)
  aliases : ∀ old a, next.aliases.lookup old = some a ↔ s.aliases.lookup old = some a ∧
    ¬ s.Charged tenantId old ∧ ¬ s.Charged tenantId a.canonicalIlkId
  keys : ∀ key id, key.2.2 ≠ tenantId →
    (next.resolve key = some id ↔ s.resolve key = some id ∧ ¬ s.Charged tenantId id)
  tenants : next.tenants = s.tenants.erase tenantId

theorem purgeTenant_people (h : exec (purgeTenant tenantId) s = (.ok a, next)) :
    s.tenantPeople tenantId = [] := by
  simp only [purgeTenant, exec_ok] at h
  obtain ⟨-, -, -, -, -, -, -, -, -, hpeople, -⟩ := h
  exact hpeople

theorem mem_keysIn_iff {r : IlkRecord} {key : IchKey} (h : r.Tidy) :
    key ∈ keysIn tenantId r ↔ key ∈ r.keys ∧ key.2.2 = tenantId := by
  rw [mem_keysIn, h.mem_keys]
  constructor
  · rintro ⟨c, hc, hscope, rfl⟩
    have hid := h.scopes c hc
    rw [channelScope_of_isTenantId hid] at hscope
    rw [channelKey_of_isTenantId hid]
    exact ⟨⟨c, hc, rfl⟩, (key_scope hid).trans hscope⟩
  · rintro ⟨⟨c, hc, rfl⟩, hscope⟩
    have hid := h.scopes c hc
    rw [key_scope hid] at hscope
    exact ⟨c, hc, (channelScope_of_isTenantId hid _).trans hscope, channelKey_of_isTenantId hid _⟩

theorem purgedStore_resolve_iff (hk : s.Kept) {key : IchKey} {id : String} :
    (purgedStore s tenantId).resolve key = some id ↔ s.resolve key = some id ∧
      ¬ s.Charged tenantId id ∧ (key.2.2 = tenantId → ¬ s.Holds id key) := by
  rw [purgedStore_resolve hk, mem_tenantIlks hk]
  refine and_congr_right fun _ => and_congr_right fun _ => ?_
  constructor
  · rintro h hscope ⟨r, hr, hkey⟩
    exact h ⟨r, hr, (mem_keysIn_iff (hk.tidy id r hr)).mpr ⟨hkey, hscope⟩⟩
  · rintro h ⟨r, hr, hkey⟩
    obtain ⟨hkey, hscope⟩ := (mem_keysIn_iff (hk.tidy id r hr)).mp hkey
    exact h hscope ⟨r, hr, hkey⟩

/-- So for a purge accepted in a store the primary reaches exactly if the lookup leads from the keys
in the tenant's scope to ILKs that hold them or are charged to it. -/
theorem purgeTenant_purges_iff {s next : IdentityStore} {tenantId : String}
    {a : LifecycleOk × LifecycleChanges} {cfg : Config} {systemIlkId : String → String}
    {primaryHive : String}
    (hs : Reaches (Serves cfg systemIlkId primaryHive (fun _ _ => True) fun _ _ => True) s)
    (h : exec (purgeTenant tenantId) s = (.ok a, next)) :
    Purged s next tenantId ↔ ∀ key id, s.resolve key = some id → key.2.2 = tenantId →
      s.Holds id key ∨ s.Charged tenantId id := by
  have hk := served_kept hs
  have hpeople := purgeTenant_people h
  obtain ⟨-, rfl⟩ := purgeTenant_next h
  constructor
  · intro hpurged key id hresolve hscope
    by_contra hnot
    rw [not_or] at hnot
    exact hpurged.unscoped key id
      ((purgedStore_resolve_iff hk).mpr ⟨hresolve, hnot.2, fun _ => hnot.1⟩) hscope
  intro hheld
  refine ⟨?_, ?_, ?_, ?_, ?_, ?_, purgedStore_tenants s tenantId⟩
  · intro j r hr
    rw [purgedStore_lookup hk] at hr
    split_ifs at hr with hj
    obtain ⟨r₀, hr₀, rfl⟩ := Option.map_eq_some_iff.mp hr
    refine ⟨fun hcharged => hj ((mem_tenantIlks hk).mpr ⟨r₀, hr₀, hcharged⟩), fun c hc hscope => ?_⟩
    have hkept := (mem_filter.mp hc).2
    simp [show channelScope c r₀.tenantId = tenantId from hscope] at hkept
  · intro key id hresolve hscope
    obtain ⟨hold, hcharged, hunheld⟩ := (purgedStore_resolve_iff hk).mp hresolve
    exact (hheld key id hold hscope).elim (hunheld hscope) hcharged
  · intro j r hr hgone hactive hhuman
    rw [purgedStore_lookup hk, hr] at hgone
    split_ifs at hgone with hj
    · have hcharged : r.tenantId = tenantId := by simpa [mem_tenantIlks hk, hr] using hj
      by_contra hsource
      have hmem : j ∈ s.tenantPeople tenantId := by
        rw [tenantPeople, hk.mem_ids]
        obtain rfl := hk.named j r hr
        exact ⟨r, hr, by simp_all⟩
      rw [hpeople] at hmem
      cases hmem
    · cases hgone
  · intro j r hr hcharged
    have hj : j ∉ s.tenantIlks tenantId := by simp [mem_tenantIlks hk, hr, hcharged]
    rw [purgedStore_lookup hk, if_neg hj, hr]
    rfl
  · intro old a
    rw [purgedStore_aliases, mem_tenantIlks hk, mem_tenantIlks hk]
    rfl
  · intro key id hscope
    rw [purgedStore_resolve_iff hk]
    exact and_congr_right fun _ => and_iff_left fun heq => absurd heq hscope

variable {cfg : Config} {systemIlkId : String → String} {primaryHive : String}

namespace Leaver

def tenant (n : Fin 16) : String := newTenantId (.uniform n)

def create (name : String) (n : Fin 16) : Event :=
  ⟨.createTenant ⟨name, none, some "active", none, some defaultRootTenantId⟩ (.uniform n), 0, true⟩

def provision : Event :=
  ⟨.provision ⟨Reuse.ichId, "phone", "+1", some (tenant 2), none, none⟩ none Reuse.newIlk, 0, true⟩

def delete : Event := ⟨.deleteTenant (tenant 2), 0, true⟩

def leave : Event := ⟨.setTenant (newIlkId Reuse.newIlk) (tenant 3) none none, 0, true⟩

def run (added : List Event) : IdentityStore :=
  runRequests hourConfig .withDefaultTenant
    ([create "a" 2, create "b" 3, provision] ++ added ++ [delete, leave])

def key : IchKey := canonicalIchKey "phone" "+2" (tenant 2)

end Leaver

open Leaver

theorem run_reached (added : List Event) :
    Reaches (Serves hourConfig id "motherbee" (fun _ _ => True) fun _ _ => True) (run added) :=
  Reaches.withDefaultTenant.serveRequests (meets_of_forall (fun _ _ => trivial) _ _)

theorem exec_purge_leaver (added : List Event)
    (h : (exec (purgeTenant (tenant 2)) (run added)).1.isOk = true) :
    ∃ a, exec (purgeTenant (tenant 2)) (run added) =
      (.ok a, (exec (purgeTenant (tenant 2)) (run added)).2) := by
  cases hx : exec (purgeTenant (tenant 2)) (run added) with
  | mk res next =>
    rw [hx] at h
    cases res with
    | error e => cases h
    | ok a => exact ⟨a, rfl⟩

/-- Without the added channel, the one who left takes nothing of the tenant along. -/
theorem purgeTenant_purges_left :
    Purged (run []) (exec (purgeTenant (tenant 2)) (run [])).2 (tenant 2) := by
  obtain ⟨a, hx⟩ := exec_purge_leaver [] (by decide +kernel)
  refine (purgeTenant_purges_iff (run_reached []) hx).mpr fun key i hresolve _ => .inl ?_
  have hall : ((run []).ichLookup.entries.all fun e =>
      ((run []).ilks.lookup e.2).any fun r => decide (e.1 ∈ r.keys)) = true := by
    decide +kernel
  have hany := all_eq_true.mp hall ⟨key, i⟩ (mem_lookup_iff.mp hresolve)
  obtain ⟨r, hr, hmem⟩ := (Option.any_eq_true ..).mp hany
  exact ⟨r, hr, of_decide_eq_true hmem⟩

/-- The key of a channel added under an id its ILK holds already outlives its tenant. -/
theorem purge_keeps_unheld_key : ∃ a next,
    Reaches (Serves hourConfig id "motherbee" (fun _ _ => True) fun _ _ => True)
        (run [Reuse.addHeld]) ∧
      exec (purgeTenant (tenant 2)) (run [Reuse.addHeld]) = (.ok a, next) ∧
      next.resolve Leaver.key = some (newIlkId Reuse.newIlk) ∧
      ¬ Purged (run [Reuse.addHeld]) next (tenant 2) := by
  obtain ⟨a, hx⟩ := exec_purge_leaver [Reuse.addHeld] (by decide +kernel)
  have hkey : (exec (purgeTenant (tenant 2)) (run [Reuse.addHeld])).2.resolve Leaver.key =
      some (newIlkId Reuse.newIlk) := by
    decide +kernel
  exact ⟨a, _, run_reached _, hx, hkey, fun h => h.unscoped _ _ hkey (by decide)⟩

end Fluxbee.Identity
