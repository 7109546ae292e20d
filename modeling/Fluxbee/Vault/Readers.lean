import Fluxbee.Vault.Histories
import Mathlib.Data.List.Dedup

/-! Who reads a secret: the users last named for it; and which values a reader may come to see. -/
namespace Fluxbee.Vault
open Text Option List

variable {V : Type}

section

/-- The callers that follow from the users of a secret and its tenant. A secret with no users is
general: read by the nodes of its tenant, the root tenant's by every system node, never by an edge. -/
def Users.readBy (cfg : Config V) (users : Users) (tenant : String) (caller : Caller) : Bool :=
  (caller.ilkId.any fun ilk => users.owner = some ilk || users.assigned.contains ilk) ||
    (users.owner.isNone && users.assigned.isEmpty && !caller.isAnEdge &&
      (caller.tenantId = some tenant ||
        (tenant = Identity.defaultRootTenantId &&
          ((caller.ilkId.any fun ilk => cfg.wellKnownSystemIlks.contains ilk) ||
            caller.ilkType = some "system"))))

/-- Users that read the same, whatever the order they were named in. -/
structure Users.Same (a b : Users) : Prop where
  owner : a.owner = b.owner
  assigned : ∀ ilk, ilk ∈ a.assigned ↔ ilk ∈ b.assigned

/-- What resolving a sender leaves: an ILK that is not blank, with its tenant and type or neither. -/
structure Caller.Resolved (caller : Caller) : Prop where
  ilk : ∀ ilk, caller.ilkId = some ilk → ilk ≠ ""
  paired : caller.ilkType = none → caller.tenantId = none

variable {cfg : Config V} {ilks : List IdentityIlkOption} {sender : Sender} {caller : Caller}
  {metadata : VaultMetadata} {users : Users} {tenant : String}

theorem resolveCaller_resolved (h : resolveCaller cfg ilks sender = .ok caller) : caller.Resolved := by
  unfold resolveCaller at h
  cases hilk : (sender.srcIlk.map trim).filter (· ≠ "") with
  | none =>
    rw [hilk] at h
    cases h
    exact ⟨nofun, fun _ => rfl⟩
  | some ilkId =>
    simp only [hilk] at h
    have hne : ilkId ≠ "" := of_decide_eq_true (filter_eq_some_iff.mp hilk).2
    split at h
    · cases h
    next u hbinding =>
      cases h
      refine ⟨?_, ?_⟩
      · intro ilk hsome
        cases hsome
        exact hne
      · intro hnone
        exact map_eq_none_iff.mpr (map_eq_none_iff.mp hnone)

/-- The metadata of a secret whose users are named. -/
structure Named (users : Users) (tenant : String) (metadata : VaultMetadata) : Prop where
  same : metadata.users.Same users
  nonblank : ∀ ilk ∈ users.assigned, ilk ≠ ""
  inTenant : metadata.tenantId = tenant
  trimmed : trim tenant = tenant

theorem Named.isGeneral_iff (h : Named users tenant metadata) :
    isGeneralSecret metadata = (users.owner.isNone && users.assigned.isEmpty) := by
  unfold isGeneralSecret
  have howner : secretOwnerIlk metadata = users.owner := h.same.owner
  have hall : (metadata.assignedIlks.all fun ilk => decide (trim ilk = "")) =
      users.assigned.isEmpty := by
    rw [Bool.eq_iff_iff, List.all_eq_true, List.isEmpty_iff]
    constructor
    · intro hblank
      rw [eq_nil_iff_forall_not_mem]
      intro ilk hilk
      obtain ⟨raw, hraw, rfl⟩ := List.mem_map.mp ((h.same.assigned ilk).mpr hilk)
      exact h.nonblank _ hilk (of_decide_eq_true (hblank raw hraw))
    · intro hempty raw hraw
      have hmem := (h.same.assigned (trim raw)).mp (List.mem_map_of_mem hraw)
      rw [hempty] at hmem
      cases hmem
  rw [howner, hall]

theorem authorizeGeneral_iff (hresolved : caller.Resolved) :
    authorizeGeneral cfg caller tenant = .ok () ↔ (!caller.isAnEdge &&
      (caller.tenantId = some tenant || (tenant = Identity.defaultRootTenantId &&
          ((caller.ilkId.any fun ilk => cfg.wellKnownSystemIlks.contains ilk) ||
            caller.ilkType = some "system")))) = true := by
  unfold authorizeGeneral
  by_cases hedge : caller.isAnEdge = true
  · rw [if_pos hedge, hedge]
    simp
  · rw [if_neg hedge]
    simp only [Bool.not_eq_true] at hedge
    rw [hedge]
    by_cases hroot : tenant = Identity.defaultRootTenantId ∧
        ((caller.ilkId.any fun ilk => cfg.wellKnownSystemIlks.contains ilk) = true ∨
          caller.ilkType = some "system")
    · rw [if_pos hroot]
      simp only [true_iff, Bool.not_false, Bool.true_and, Bool.or_eq_true, Bool.and_eq_true,
        decide_eq_true_eq]
      exact .inr hroot
    · rw [if_neg hroot]
      by_cases hretry : tenant = Identity.defaultRootTenantId ∧ caller.ilkType = none ∧
          caller.isASystemNodeByName cfg = true
      · rw [if_pos hretry]
        have hnone := hresolved.paired hretry.2.1
        simp only [Bool.not_false, Bool.true_and, Bool.or_eq_true, Bool.and_eq_true,
          decide_eq_true_eq, hnone]
        constructor
        · nofun
        · rintro (h | h)
          · cases h
          · exact absurd h hroot
      · rw [if_neg hretry]
        simp only [Bool.not_false, Bool.true_and, Bool.or_eq_true, Bool.and_eq_true,
          decide_eq_true_eq]
        split_ifs with htenant
        · exact iff_of_true rfl (.inl htenant)
        · constructor
          · nofun
          · rintro (h | h)
            · exact absurd h htenant
            · exact absurd h hroot

variable (cfg) in
theorem Named.authorizeRead_iff (h : Named users tenant metadata) (hresolved : caller.Resolved) :
    authorizeRead cfg caller metadata = .ok () ↔ users.readBy cfg tenant caller = true := by
  have hilk : caller.ilkId.filter (· ≠ "") = caller.ilkId := by
    cases hid : caller.ilkId with
    | none => rfl
    | some ilk => simp [Option.filter, hresolved.ilk ilk hid]
  have howner : secretOwnerIlk metadata = users.owner := h.same.owner
  have hassigned : ∀ ilk, (metadata.assignedIlks.any fun assigned => decide (trim assigned = ilk)) =
      users.assigned.contains ilk := by
    intro ilk
    rw [Bool.eq_iff_iff, List.any_eq_true, contains_iff_mem, ← h.same.assigned]
    simp [VaultMetadata.users]
  unfold authorizeRead Users.readBy
  simp only [hilk, howner, hassigned, h.isGeneral_iff, h.inTenant]
  cases hid : caller.ilkId with
  | none =>
    simp only [isSome_none, Bool.false_eq_true, false_and, if_false, any_none, Bool.false_or]
    split_ifs with hgeneral
    · rw [hgeneral, authorizeGeneral_iff hresolved, Bool.true_and]
      simp only [hid, any_none, Bool.false_or]
    · simp only [Bool.not_eq_true] at hgeneral
      rw [hgeneral]
      simp
  | some ilk =>
    simp only [isSome_some, true_and, any_some, Bool.or_eq_true, decide_eq_true_eq]
    by_cases hown : users.owner = some ilk
    · rw [if_pos hown]
      exact iff_of_true rfl (.inl (.inl hown))
    · rw [if_neg hown]
      by_cases hgiven : users.assigned.contains ilk = true
      · rw [if_pos hgiven]
        exact iff_of_true rfl (.inl (.inr hgiven))
      · rw [if_neg hgiven]
        by_cases hgeneral : (users.owner.isNone && users.assigned.isEmpty) = true
        · rw [if_pos hgeneral, hgeneral, authorizeGeneral_iff hresolved, Bool.true_and]
          simp only [hid, any_some, hown, hgiven, false_or, Bool.false_eq_true]
        · rw [if_neg hgeneral]
          simp only [Bool.not_eq_true] at hgeneral
          rw [hgeneral]
          simp only [Bool.false_and, hown, hgiven, or_false, Bool.false_eq_true, iff_false]
          nofun

end

section

variable {metadata : VaultMetadata}

theorem validateMetadata_assigned
    (h : validateMetadata metadata = .ok ()) : ∀ ilk ∈ metadata.users.assigned, ilk ≠ "" := by
  intro ilk hilk hblank
  obtain ⟨raw, hraw, rfl⟩ := List.mem_map.mp hilk
  have hassigned : (metadata.assignedIlks.any fun ilk => !startsWith (trim ilk) "ilk:") = true := by
    rw [List.any_eq_true]
    refine ⟨raw, hraw, ?_⟩
    rw [hblank]
    decide
  unfold validateMetadata at h
  rw [if_pos hassigned] at h
  cases hresource : metadata.resourceType.map trim with
  | none =>
    rw [hresource] at h
    split_ifs at h
  | some resourceType =>
    simp only [hresource] at h
    split_ifs at h

theorem mem_assignment {assignedIlks : List String} {ilk : String} :
    ilk ∈ (assignment assignedIlks).map trim ↔ ilk ∈ (assignedIlks.map trim).filter (· ≠ "") := by
  have hmem : ∀ raw, raw ∈ assignment assignedIlks ↔
      raw ∈ (assignedIlks.map trim).filter (· ≠ "") := by
    intro raw
    unfold assignment
    rw [mem_dedup, mem_insertionSort]
  have htrim : ∀ raw ∈ (assignedIlks.map trim).filter (· ≠ ""), trim raw = raw := by
    intro raw hraw
    obtain ⟨old, -, rfl⟩ := List.mem_map.mp (mem_of_mem_filter hraw)
    exact trim_trim old
  constructor
  · intro h
    obtain ⟨raw, hraw, rfl⟩ := List.mem_map.mp h
    have hraw' := (hmem raw).mp hraw
    rw [htrim raw hraw']
    exact hraw'
  · intro h
    exact List.mem_map.mpr ⟨ilk, (hmem ilk).mpr h, htrim ilk h⟩

variable {cfg : Config V} {caller : Caller} {request : Request V}

def NamedKey (named : Option (Users × String)) : Option (SecretRecord V) → Prop
  | some r => ∃ users tenant, named = some (users, tenant) ∧ Named users tenant r.metadata
  | none => named = none

/-- A put names its tenant without blanks around it, and one of the current value names the users the
secret has, or none. -/
def PutKeeps (before : Option (SecretRecord V)) : Request V → Prop
  | .put _ value metadata => trim metadata.tenantId = metadata.tenantId ∧
      ∀ r, before = some r → r.current = value → metadata.namesUsers = true →
        r.metadata.users.Same metadata.users
  | _ => True

theorem Named.of_users {users : Users} {tenant : String} {metadata metadata' : VaultMetadata}
    (h : Named users tenant metadata) (husers : metadata'.users = metadata.users)
    (htenant : metadata'.tenantId = metadata.tenantId) : Named users tenant metadata' :=
  ⟨husers ▸ h.same, h.nonblank, htenant.trans h.inTenant, h.trimmed⟩

theorem Users.Same.refl (users : Users) : users.Same users := ⟨rfl, fun _ => Iff.rfl⟩

theorem named_of_put (hvalid : validateMetadata metadata = .ok ())
    (htrim : trim metadata.tenantId = metadata.tenantId) :
    Named metadata.users metadata.tenantId metadata :=
  ⟨.refl _, validateMetadata_assigned hvalid, rfl, htrim⟩

theorem Change.named {before after : Option (SecretRecord V)}
    (h : Change cfg caller request before after) {named : Option (Users × String)}
    (hnamed : NamedKey named before) (hkeeps : PutKeeps before request) :
    NamedKey (request.names named) after := by
  cases h with
  | create key value metadata hmetadata =>
    have hnone : named = none := hnamed
    subst hnone
    refine ⟨metadata.users, trim metadata.tenantId, rfl, ?_⟩
    rw [hkeeps.1]
    exact named_of_put hmetadata hkeeps.1
  | same key value metadata r hmetadata htenant hvalue =>
    obtain ⟨users, tenant, rfl, hold⟩ := hnamed
    unfold Request.names
    dsimp only
    split_ifs with hnames
    · have hsame := hkeeps.2 r rfl hvalue hnames
      exact ⟨_, _, rfl, hsame, validateMetadata_assigned hmetadata, hold.inTenant, hold.trimmed⟩
    · exact ⟨_, _, rfl, hold⟩
  | update key value metadata r hmetadata htenant hvalue =>
    obtain ⟨users, tenant, rfl, hold⟩ := hnamed
    have hin : metadata.tenantId = r.metadata.tenantId := by
      have htrimmed : trim r.metadata.tenantId = r.metadata.tenantId := by
        rw [hold.inTenant]
        exact hold.trimmed
      rw [← hkeeps.1, ← htenant, htrimmed]
    unfold Request.names inheritUsers
    dsimp only
    by_cases hnames : metadata.namesUsers = true
    · rw [if_pos hnames, if_neg (by rw [hnames]; simp)]
      have hput := named_of_put hmetadata hkeeps.1
      rw [hin, hold.inTenant] at hput
      exact ⟨_, _, rfl, hput⟩
    · rw [if_neg hnames, if_pos ⟨Bool.eq_false_iff.mpr hnames, htenant⟩]
      exact ⟨_, _, rfl, hold.of_users rfl hin⟩
  | delete key tenantId r => exact rfl
  | read key includeValue r | rotate key tenantId value r
  | rollback key tenantId value version r hprevious => exact hnamed
  | assign key tenantId assignedIlks r =>
    obtain ⟨users, tenant, rfl, hold⟩ := hnamed
    refine ⟨_, _, rfl, ⟨hold.same.owner, fun ilk => mem_assignment⟩, ?_, hold.inTenant,
      hold.trimmed⟩
    intro ilk hilk
    exact of_decide_eq_true (mem_filter.mp hilk).2

variable [DecidableEq V] {s : Node V}

def NamesKept (cfg : Config V) (s : Node V) (e : Event V) : Prop :=
  ∀ call result, e = .call call → answer cfg s.ilks s.store call = .ok result →
    PutKeeps (s.store.lookup call.request.key) call.request

theorem Node.namedKey_step (h : ∀ key, NamedKey (s.named key) (s.store.lookup key)) {e : Event V}
    (hkeeps : NamesKept cfg s e) (key : String) :
    NamedKey ((s.step cfg e).named key) ((s.step cfg e).store.lookup key) := by
  have hturn : Turn cfg s key e (s.step cfg e) := s.step_turn key e
  generalize s.step cfg e = after at hturn ⊢
  cases hturn with
  | refused call err herr => exact h key
  | passed _ _ hlookup hhistory hnamed helse =>
    rw [hnamed, hlookup]
    exact h key
  | taken call caller store' ans _ hrequest hanswer hchange hilks hhistory hnamed =>
    subst hrequest
    rw [hnamed]
    exact hchange.named (h _) (hkeeps call _ rfl hanswer)

/-- The callers that may read a key's value are those that follow from the users last named for it, in
the tenant it was created in. -/
def ReadersNamed (cfg : Config V) (s : Node V) : Prop :=
  ∀ key ilks sender caller, resolveCaller cfg ilks sender = .ok caller →
    ((∃ r, s.store.lookup key = some r ∧ authorizeRead cfg caller r.metadata = .ok ()) ↔
      ∃ users tenant, s.named key = some (users, tenant) ∧ users.readBy cfg tenant caller = true)

/-- In every run whose puts name a plain tenant, and other users only with another value, the readers
of every key are those last named. -/
theorem readers_are_those_named (cfg : Config V) (events : List (Event V))
    (h : GuardedRun.Along (Node.step cfg) (NamesKept cfg) {} events) :
    ReadersNamed cfg (events.foldl (Node.step cfg) {}) := by
  have hnamed : ∀ key, NamedKey ((events.foldl (Node.step cfg) {}).named key)
      ((events.foldl (Node.step cfg) {}).store.lookup key) :=
    h.invariant (P := fun s : Node V => ∀ key, NamedKey (s.named key) (s.store.lookup key))
      (fun _ _ hkeeps hs => Node.namedKey_step hs hkeeps) (fun _ => rfl)
  generalize events.foldl (Node.step cfg) {} = s at hnamed ⊢
  intro key ilks sender caller hresolve
  have hresolved := resolveCaller_resolved hresolve
  have hkey := hnamed key
  cases hget : s.store.lookup key with
  | none =>
    rw [hget] at hkey
    have hnone : s.named key = none := hkey
    simp [hnone]
  | some r =>
    rw [hget] at hkey
    obtain ⟨users, tenant, hsome, hmatch⟩ := hkey
    have hread := hmatch.authorizeRead_iff cfg hresolved
    simp [hsome, hread]

end

namespace Renamed
open Reused

def ilks : List IdentityIlkOption := [⟨"ilk:node", "tnt:a", "agent", some "AI.node@motherbee"⟩]

def node : Sender := ⟨some "AI.node@motherbee", some "ilk:node"⟩

def caller : Caller := ⟨some "AI.node@motherbee", some "ilk:node", some "tnt:a", some "agent"⟩

/-- A general secret, and a put of the same value that gives it an owner. -/
def events : List (Event ℕ) :=
  [call (.put "k" 10 metadata), call (.put "k" 10 { metadata with ilk := some "ilk:owner" })]

def changed : List (Event ℕ) :=
  [call (.put "k" 10 metadata), call (.put "k" 20 { metadata with ilk := some "ilk:owner" })]

end Renamed

open Renamed

/-- A put of the current value is answered ok and names an owner, and every node of the tenant still
reads the secret. -/
theorem owner_named_in_vain : ¬ReadersNamed Reused.cfg
    (Renamed.events.foldl (Node.step Reused.cfg) {}) := by
  intro h
  have hnode := h "k" ilks node caller (by rfl)
  have hread : ∃ r, (events.foldl (Node.step Reused.cfg) {}).store.lookup "k" = some r ∧
      authorizeRead Reused.cfg caller r.metadata = .ok () := ⟨_, rfl, by rfl⟩
  obtain ⟨users, tenant, hnamed, hby⟩ := hnode.mp hread
  have howner : (events.foldl (Node.step Reused.cfg) {}).named "k" =
      some (⟨some "ilk:owner", []⟩, "tnt:a") := by decide +kernel
  rw [howner] at hnamed
  cases hnamed
  exact absurd hby (by decide +kernel)

/-- With another value the owner is the only reader. -/
theorem readers_are_those_named_changed : ReadersNamed Reused.cfg
    (Renamed.changed.foldl (Node.step Reused.cfg) {}) := by
  apply readers_are_those_named
  refine ⟨?_, ?_, trivial⟩
  · intro call result hcall hanswer
    cases hcall
    refine ⟨by decide +kernel, fun r hr => ?_⟩
    cases hr
  · intro call result hcall hanswer
    cases hcall
    refine ⟨by decide +kernel, fun r hr hvalue => ?_⟩
    have hcurrent : ((Node.step Reused.cfg {} (Reused.call (.put "k" 10 Reused.metadata))).store.lookup
        "k").map SecretRecord.current = some 10 := by decide +kernel
    rw [show (Node.step Reused.cfg {} (Reused.call (.put "k" 10 Reused.metadata))).store.lookup "k" =
      some r from hr] at hcurrent
    have hten : r.current = 10 := Option.some.inj hcurrent
    rw [hten] at hvalue
    exact absurd hvalue (by decide)

end Fluxbee.Vault
