import Fluxbee.Vault.Secrets

/-! What an answered request does to its key, the history of every key, and the numbers its values
have. -/
namespace Fluxbee.Vault
open Text List Option AList Store

variable {V : Type}

def Request.key : Request V → String
  | .put key _ _ | .delete key _ | .rotate key _ _ | .rollback key _ | .assign key _ _ => key
  | .get key _ => trim key

variable {request : Request V} {tenantId : String} {r r' : SecretRecord V} {value : V}
  {ilks : List IdentityIlkOption} {caller : Caller} {before after : Option (SecretRecord V)}
  {how : Made}

section
variable {cfg : Config V} {store store' : Store V} {caller : Caller}
  {active : String → Except VaultError Unit} {ans : Answer V}

/-- What an answered request does to the secret under its key. -/
inductive Change (cfg : Config V) (caller : Caller) :
    Request V → Option (SecretRecord V) → Option (SecretRecord V) → Prop where
  | create (key : String) (value : V) (metadata : VaultMetadata)
      (hmetadata : validateMetadata metadata = .ok ()) :
      Change cfg caller (.put key value metadata) none (some ⟨metadata, 1, value, none⟩)
  | same (key : String) (value : V) (metadata : VaultMetadata) (r : SecretRecord V)
      (hmetadata : validateMetadata metadata = .ok ())
      (htenant : trim r.metadata.tenantId = trim metadata.tenantId) (hvalue : r.current = value) :
      Change cfg caller (.put key value metadata) (some r) (some r)
  | update (key : String) (value : V) (metadata : VaultMetadata) (r : SecretRecord V)
      (hmetadata : validateMetadata metadata = .ok ())
      (htenant : trim r.metadata.tenantId = trim metadata.tenantId) (hvalue : r.current ≠ value) :
      Change cfg caller (.put key value metadata) (some r)
        (some ⟨inheritUsers (some r.metadata) metadata, saturatingAdd r.version, value,
          some (r.current, r.version)⟩)
  | read (key : String) (includeValue : Bool) (r : SecretRecord V) :
      Change cfg caller (.get key includeValue) (some r) (some r)
  | delete (key tenantId : String) (r : SecretRecord V) :
      Change cfg caller (.delete key tenantId) (some r) none
  | rotate (key tenantId : String) (value : V) (r : SecretRecord V) :
      Change cfg caller (.rotate key tenantId value) (some r)
        (some ⟨r.metadata, saturatingAdd r.version, value, some (r.current, r.version)⟩)
  | rollback (key tenantId : String) (value : V) (version : ℕ) (r : SecretRecord V)
      (hprevious : r.previous = some (value, version)) :
      Change cfg caller (.rollback key tenantId) (some r)
        (some ⟨r.metadata, version, value, some (r.current, r.version)⟩)
  | assign (key tenantId : String) (assignedIlks : List String) (r : SecretRecord V) :
      Change cfg caller (.assign key tenantId assignedIlks) (some r)
        (some { r with
          metadata := { r.metadata with assignedIlks := assignment assignedIlks } })

/-- An answered request changes what is under its key, and nothing else. -/
structure Changed (cfg : Config V) (caller : Caller) (request : Request V) (store store' : Store V) :
    Prop where
  valid : validateKey request.key = .ok ()
  change : Change cfg caller request (store.lookup request.key) (store'.lookup request.key)
  others : ∀ other ≠ request.key, store'.lookup other = store.lookup other

theorem bind_ok {α β : Type} {x : Except VaultError α} {f : α → Except VaultError β} {b : β}
    (h : (x >>= f) = .ok b) : ∃ a, x = .ok a ∧ f a = .ok b := by
  cases x with
  | error err => cases h
  | ok a => exact ⟨a, rfl, h⟩

variable {key : String}

theorem lookup_insert_others :
    ∀ other ≠ key, (store.insert key r).lookup other = store.lookup other :=
  fun _ hne => lookup_insert_ne hne

theorem Changed.of_insert
    (hvalid : validateKey request.key = .ok ()) (hget : store.lookup request.key = some r)
    (hchange : Change cfg caller request (some r) (some r')) :
    Changed cfg caller request store (store.insert request.key r') := by
  refine ⟨hvalid, ?_, lookup_insert_others⟩
  rw [hget, lookup_insert]
  exact hchange

theorem handlePut_changed [DecidableEq V] {metadata : VaultMetadata}
    (h : handlePut cfg store caller key value metadata = .ok (store', ans)) :
    Changed cfg caller (.put key value metadata) store store' := by
  obtain ⟨-, -, h⟩ := bind_ok h
  obtain ⟨⟨⟩, hvalid, h⟩ := bind_ok h
  obtain ⟨⟨⟩, hmetadata, h⟩ := bind_ok h
  obtain ⟨-, -, h⟩ := bind_ok h
  obtain ⟨⟨kept, version, changed⟩, hput, h⟩ := bind_ok h
  cases h
  unfold put metadataOf at hput
  cases hget : store.lookup key with
  | none =>
    simp only [hget] at hput
    cases hput
    refine ⟨hvalid, ?_, lookup_insert_others⟩
    change Change cfg caller _ (store.lookup key) _
    rw [hget, show Request.key (.put key value metadata) = key from rfl, lookup_insert]
    exact .create key value metadata hmetadata
  | some r =>
    simp only [hget] at hput
    have htenant' : (inheritUsers (some r.metadata) metadata).tenantId = metadata.tenantId := by
      unfold inheritUsers
      dsimp only
      split_ifs <;> rfl
    by_cases htenant : trim r.metadata.tenantId = trim metadata.tenantId
    · rw [if_neg (by rw [map_some, htenant']; exact not_not_intro htenant)] at hput
      split_ifs at hput with hvalue
      · cases hput
        refine ⟨hvalid, ?_, fun _ _ => rfl⟩
        change Change cfg caller _ (store.lookup key) (store.lookup key)
        rw [hget]
        exact .same key value metadata r hmetadata htenant hvalue
      · cases hput
        exact Changed.of_insert hvalid hget (.update key value metadata r hmetadata htenant hvalue)
    · rw [if_pos (by rw [map_some, htenant']; exact htenant)] at hput
      cases hput

theorem ownerChecks_valid {u : Unit} (h : ownerChecks cfg store caller key tenantId = .ok u) :
    validateKey key = .ok () := by
  obtain ⟨⟨⟩, hvalid, -⟩ := bind_ok h
  exact hvalid

theorem handleDelete_changed (h : handleDelete cfg store caller key tenantId = .ok (store', ans)) :
    Changed cfg caller (.delete key tenantId) store store' := by
  obtain ⟨⟨⟩, hchecks, h⟩ := bind_ok h
  obtain ⟨kept, hdelete, h⟩ := bind_ok h
  cases h
  unfold delete at hdelete
  split at hdelete
  · cases hdelete
  next r hget =>
    cases hdelete
    refine ⟨ownerChecks_valid hchecks, ?_, fun _ hne => lookup_erase_ne hne⟩
    change Change cfg caller _ (store.lookup key) ((store.erase key).lookup key)
    rw [hget, lookup_erase]
    exact .delete key tenantId r

theorem handleRotate_changed
    (h : handleRotate cfg store caller key tenantId value = .ok (store', ans)) :
    Changed cfg caller (.rotate key tenantId value) store store' := by
  obtain ⟨⟨⟩, hchecks, h⟩ := bind_ok h
  obtain ⟨-, -, h⟩ := bind_ok h
  obtain ⟨⟨kept, version, previous⟩, hrotate, h⟩ := bind_ok h
  cases h
  unfold Store.rotate at hrotate
  split at hrotate
  · cases hrotate
  next r hget =>
    cases hrotate
    exact Changed.of_insert (ownerChecks_valid hchecks) hget (.rotate key tenantId value r)

theorem handleRollback_changed
    (h : handleRollback cfg store caller key tenantId = .ok (store', ans)) :
    Changed cfg caller (.rollback key tenantId) store store' := by
  obtain ⟨⟨⟩, hchecks, h⟩ := bind_ok h
  obtain ⟨⟨kept, version, previous⟩, hrollback, h⟩ := bind_ok h
  cases h
  unfold rollback at hrollback
  cases hget : store.lookup key with
  | none =>
    rw [hget] at hrollback
    cases hrollback
  | some r =>
    simp only [hget] at hrollback
    cases hprevious : r.previous with
    | none =>
      rw [hprevious] at hrollback
      cases hrollback
    | some before =>
      rw [hprevious] at hrollback
      cases hrollback
      exact Changed.of_insert (ownerChecks_valid hchecks) hget (.rollback key tenantId before.1 before.2 r hprevious)

theorem handleAssign_changed {assignedIlks : List String}
    (h : handleAssign cfg store caller key tenantId assignedIlks = .ok (store', ans)) :
    Changed cfg caller (.assign key tenantId assignedIlks) store store' := by
  obtain ⟨-, -, h⟩ := bind_ok h
  obtain ⟨⟨⟩, hvalid, h⟩ := bind_ok h
  obtain ⟨tenant, -, h⟩ := bind_ok h
  obtain ⟨-, -, h⟩ := bind_ok h
  unfold metadataOf at h
  cases hget : store.lookup key with
  | none =>
    simp only [hget] at h
    cases h
  | some r =>
    simp only [hget, map_some] at h
    obtain ⟨-, -, h⟩ := bind_ok h
    obtain ⟨⟨kept, version, changed⟩, hset, h⟩ := bind_ok h
    cases h
    unfold setAssigned at hset
    simp only [hget] at hset
    split_ifs at hset with hsame
    · cases hset
      refine ⟨hvalid, ?_, fun _ _ => rfl⟩
      change Change cfg caller _ (store.lookup key) (store.lookup key)
      rw [hget]
      have hr : r = { r with
          metadata := { r.metadata with assignedIlks := assignment assignedIlks } } := by
        rw [← hsame]
      nth_rewrite 2 [hr]
      exact .assign key tenantId assignedIlks r
    · cases hset
      exact Changed.of_insert hvalid hget (.assign key tenantId assignedIlks r)

theorem handleGet_spec {includeValue : Bool}
    (h : handleGet cfg store caller active key includeValue = .ok (store', ans)) :
    validateKey (trim key) = .ok () ∧ store' = store ∧ ∃ r, store.lookup (trim key) = some r ∧
      (includeValue = true → authorizeRead cfg caller r.metadata = .ok () ∧
        ans = .got r.metadata r.version (some r.current)) := by
  obtain ⟨trimmed, hrequired, h⟩ := bind_ok h
  have htrimmed : trimmed = trim key := by
    unfold requestKeyRequired at hrequired
    split_ifs at hrequired
    cases hrequired
    rfl
  subst htrimmed
  obtain ⟨⟨⟩, hvalid, h⟩ := bind_ok h
  cases hget : store.lookup (trim key) with
  | none =>
    rw [hget] at h
    cases h
  | some r =>
    simp only [hget] at h
    cases hread : readRecord cfg caller active r includeValue with
    | error err =>
      rw [hread] at h
      cases h
    | ok given =>
      rw [hread] at h
      cases h
      refine ⟨hvalid, rfl, r, rfl, ?_⟩
      rintro rfl
      obtain ⟨⟨⟩, hauthorized, hread⟩ := bind_ok hread
      obtain ⟨-, -, hread⟩ := bind_ok hread
      cases hread
      exact ⟨hauthorized, rfl⟩

theorem handle_changed [DecidableEq V]
    (h : handle cfg store caller active request = .ok (store', ans)) :
    Changed cfg caller request store store' := by
  cases request with
  | put key value metadata => exact handlePut_changed h
  | get key includeValue =>
    obtain ⟨hvalid, rfl, r, hget, -⟩ := handleGet_spec h
    refine ⟨hvalid, ?_, fun _ _ => rfl⟩
    change Change cfg caller _ (store'.lookup (trim key)) (store'.lookup (trim key))
    rw [hget]
    exact .read key includeValue r
  | delete key tenantId => exact handleDelete_changed h
  | rotate key tenantId value => exact handleRotate_changed h
  | rollback key tenantId => exact handleRollback_changed h
  | assign key tenantId assignedIlks => exact handleAssign_changed h

theorem answer_changed [DecidableEq V] {call : Call V}
    (h : answer cfg ilks store call = .ok (store', caller, ans)) :
    resolveCaller cfg ilks call.sender = .ok caller ∧
      handle cfg store caller call.tenantActive call.request = .ok (store', ans) ∧
      Changed cfg caller call.request store store' := by
  unfold answer at h
  cases hresolve : resolveCaller cfg ilks call.sender with
  | error err =>
    rw [hresolve] at h
    cases h
  | ok resolved =>
    simp only [hresolve] at h
    cases hhandle : handle cfg store resolved call.tenantActive call.request with
    | error err =>
      rw [hhandle] at h
      cases h
    | ok result =>
      simp only [hhandle] at h
      split_ifs at h
      cases h
      exact ⟨rfl, hhandle, handle_changed hhandle⟩

end

section

inductive Made
  | kept
  | written
  | adminRollback
  | ownerRollback
deriving DecidableEq

/-- A key after a request: its secret, and the ILKs identity listed. -/
structure Moment (V : Type) where
  ilks : List IdentityIlkOption
  metadata : VaultMetadata
  version : ℕ
  value : V
  made : Made

/-- The users of a secret: its owner, if any, and the nodes it is assigned to. -/
structure Users where
  owner : Option String
  assigned : List String
deriving DecidableEq

def VaultMetadata.users (metadata : VaultMetadata) : Users :=
  ⟨secretOwnerIlk metadata, metadata.assignedIlks.map trim⟩

/-- The vault and what happened in it: the moments of each key since it was created, the latest
first, and the users last named for it with the tenant it was created in. -/
structure Node (V : Type) where
  store : Store V := ∅
  ilks : List IdentityIlkOption := []
  history : String → List (Moment V) := fun _ => []
  named : String → Option (Users × String) := fun _ => none

inductive Event (V : Type) where
  | call (call : Call V)
  | identity (ilks : List IdentityIlkOption)

def made (cfg : Config V) (caller : Caller) : Request V → Made
  | .put .. | .rotate .. => .written
  | .rollback .. => if caller.isWellKnownAdmin cfg then .adminRollback else .ownerRollback
  | _ => .kept

/-- The users an answered request names: those of a put that creates the secret or names any; an
assign names the nodes and leaves the owner. -/
def Request.names (old : Option (Users × String)) : Request V → Option (Users × String)
  | .put _ _ metadata =>
    match old with
    | none => some (metadata.users, trim metadata.tenantId)
    | some (users, tenant) =>
      if metadata.namesUsers then some (metadata.users, tenant) else some (users, tenant)
  | .assign _ _ assignedIlks =>
    old.map fun (users, tenant) =>
      (⟨users.owner, (assignedIlks.map trim).filter (· ≠ "")⟩, tenant)
  | .delete .. => none
  | _ => old

/-- The moments of a key once its secret is `record`. -/
def noted (ilks : List IdentityIlkOption) (record : Option (SecretRecord V)) (made : Made)
    (history : List (Moment V)) : List (Moment V) :=
  match record with
  | some r => ⟨ilks, r.metadata, r.version, r.current, made⟩ :: history
  | none => []

def Node.note (s : Node V) (store : Store V) (ilks : List IdentityIlkOption)
    (made : String → Made) : Node V :=
  { s with
    store := store
    ilks := ilks
    history := fun key => noted ilks (store.lookup key) (made key) (s.history key) }

def Node.step [DecidableEq V] (cfg : Config V) (s : Node V) : Event V → Node V
  | .identity ilks => s.note s.store ilks fun _ => .kept
  | .call call =>
    match answer cfg s.ilks s.store call with
    | .error _ => s
    | .ok (store, caller, _) =>
      let key := call.request.key
      { s.note store s.ilks fun k => if k = key then made cfg caller call.request else .kept with
        named := Function.update s.named key (call.request.names (s.named key)) }

/-- What an event is to one key: nothing, a moment more, or an answered request about it. -/
inductive Turn [DecidableEq V] (cfg : Config V) (s : Node V) (key : String) :
    Event V → Node V → Prop where
  | refused (call : Call V) (err : VaultError) (h : answer cfg s.ilks s.store call = .error err) :
      Turn cfg s key (.call call) s
  | passed (e : Event V) (s' : Node V) (hlookup : s'.store.lookup key = s.store.lookup key)
      (hhistory : s'.history key = noted s'.ilks (s.store.lookup key) .kept (s.history key))
      (hnamed : s'.named key = s.named key)
      (helse : ∀ call, e = .call call → call.request.key ≠ key ∧ s'.ilks = s.ilks) :
      Turn cfg s key e s'
  | taken (call : Call V) (caller : Caller) (store' : Store V) (ans : Answer V) (s' : Node V)
      (hkey : call.request.key = key)
      (hanswer : answer cfg s.ilks s.store call = .ok (store', caller, ans))
      (hchange : Change cfg caller call.request (s.store.lookup key) (s'.store.lookup key))
      (hilks : s'.ilks = s.ilks)
      (hhistory : s'.history key = noted s.ilks (s'.store.lookup key)
        (made cfg caller call.request) (s.history key))
      (hnamed : s'.named key = call.request.names (s.named key)) : Turn cfg s key (.call call) s'

variable [DecidableEq V] {cfg : Config V}

theorem Node.step_ok {s : Node V} {call : Call V} {store : Store V}
    {ans : Answer V} (h : answer cfg s.ilks s.store call = .ok (store, caller, ans)) :
    s.step cfg (.call call) = { s.note store s.ilks fun k =>
          if k = call.request.key then made cfg caller call.request else .kept with
        named := Function.update s.named call.request.key
          (call.request.names (s.named call.request.key)) } := by
  simp only [Node.step, h]

theorem Node.step_turn (s : Node V) (key : String) (e : Event V) :
    Turn cfg s key e (s.step cfg e) := by
  cases e with
  | identity ilks => exact .passed _ _ rfl rfl rfl nofun
  | call call =>
    cases hanswer : answer cfg s.ilks s.store call with
    | error err =>
      have hstep : s.step cfg (.call call) = s := by simp only [Node.step, hanswer]
      rw [hstep]
      exact .refused call err hanswer
    | ok result =>
      obtain ⟨store, caller, ans⟩ := result
      rw [Node.step_ok hanswer]
      obtain ⟨-, -, hchanged⟩ := answer_changed hanswer
      by_cases hkey : call.request.key = key
      · subst hkey
        refine .taken call caller store ans _ rfl hanswer hchanged.change rfl ?_ ?_
        · change noted s.ilks (store.lookup call.request.key) (if _ then _ else _) _ = _
          rw [if_pos rfl]
          rfl
        · exact Function.update_self ..
      · have hother : store.lookup key = s.store.lookup key := hchanged.others key (Ne.symm hkey)
        refine .passed _ _ hother ?_ ?_ ?_
        · change noted s.ilks (store.lookup key) (if _ then _ else _) _ = _
          rw [if_neg (Ne.symm hkey), hother]
          rfl
        · exact Function.update_of_ne (Ne.symm hkey) ..
        · intro call' hcall
          cases hcall
          exact ⟨hkey, rfl⟩

end

section

def SingleValued (history : List (Moment V)) : Prop :=
  ∀ m ∈ history, ∀ m' ∈ history, m.version = m'.version → m.value = m'.value

instance [DecidableEq V] : DecidablePred (SingleValued (V := V)) := fun history =>
  inferInstanceAs (Decidable (∀ m ∈ history, ∀ m' ∈ history, _ → _))

/-- What the numbers of a secret say of those already given: they are at most its own or that of its
previous value, and those two are next to each other. -/
structure Numbered (history : List (Moment V)) (r : SecretRecord V) : Prop where
  now : ∃ m ∈ history, m.version = r.version ∧ m.value = r.current
  before : ∀ v n, r.previous = some (v, n) → (∃ m ∈ history, m.version = n ∧ m.value = v) ∧
    n ≤ saturatingAdd r.version ∧ r.version ≤ saturatingAdd n
  bounded : ∀ m ∈ history, m.version ≤ r.version ∨
    ∃ v n, r.previous = some (v, n) ∧ m.version ≤ n
  small : r.version ≤ maxVersion

def NumberedKey (history : List (Moment V)) : Option (SecretRecord V) → Prop
  | some r => Numbered history r
  | none => history = []

/-- The number after a secret's is free for the value: it is neither that of another current value
nor that of another previous one. -/
def SecretRecord.FreeFor (r : SecretRecord V) (value : V) : Prop :=
  (saturatingAdd r.version = r.version → value = r.current) ∧
    ∀ v, r.previous = some (v, saturatingAdd r.version) → value = v

theorem le_saturatingAdd {n : ℕ} (h : n ≤ maxVersion) : n ≤ saturatingAdd n :=
  le_min (Nat.le_succ n) h

theorem saturatingAdd_le (n : ℕ) : saturatingAdd n ≤ maxVersion := min_le_right _ _

variable {history : List (Moment V)} {r : SecretRecord V} {m : Moment V}

section
variable (h : Numbered history r)
include h

theorem Numbered.write {metadata : VaultMetadata} (hversion : m.version = saturatingAdd r.version)
    (hvalue : m.value = value) :
    Numbered (m :: history)
      ⟨metadata, saturatingAdd r.version, value, some (r.current, r.version)⟩ where
  now := ⟨m, mem_cons_self .., hversion, hvalue⟩
  before v n hprevious := by
    cases hprevious
    obtain ⟨m', hm', hnow⟩ := h.now
    refine ⟨⟨m', mem_cons_of_mem _ hm', hnow⟩, ?_, le_refl _⟩
    exact (le_saturatingAdd h.small).trans (le_saturatingAdd (saturatingAdd_le _))
  bounded m' hm' := by
    left
    rcases mem_cons.mp hm' with rfl | hm'
    · exact hversion.le
    · rcases h.bounded m' hm' with hle | ⟨v, n, hprevious, hle⟩
      · exact hle.trans (le_saturatingAdd h.small)
      · exact hle.trans (h.before v n hprevious).2.1
  small := saturatingAdd_le _

theorem Numbered.rollback {version : ℕ} (hprevious : r.previous = some (value, version))
    (hversion : m.version = version) (hvalue : m.value = value) :
    Numbered (m :: history) ⟨r.metadata, version, value, some (r.current, r.version)⟩ where
  now := ⟨m, mem_cons_self .., hversion, hvalue⟩
  before v n hsome := by
    cases hsome
    obtain ⟨m', hm', hnow⟩ := h.now
    obtain ⟨-, hle, hge⟩ := h.before value version hprevious
    exact ⟨⟨m', mem_cons_of_mem _ hm', hnow⟩, hge, hle⟩
  bounded m' hm' := by
    rcases mem_cons.mp hm' with rfl | hm'
    · exact .inl hversion.le
    · rcases h.bounded m' hm' with hle | ⟨v, n, hsome, hle⟩
      · exact .inr ⟨_, _, rfl, hle⟩
      · rw [hprevious] at hsome
        cases hsome
        exact .inl hle
  small := (h.before value version hprevious).2.1.trans (saturatingAdd_le _)

theorem Numbered.keep (hversion : r'.version = r.version) (hcurrent : r'.current = r.current)
    (hprevious : r'.previous = r.previous) (hm : m.version = r.version) :
    Numbered (m :: history) r' where
  now := by
    obtain ⟨m', hm', hnow⟩ := h.now
    rw [hversion, hcurrent]
    exact ⟨m', mem_cons_of_mem _ hm', hnow⟩
  before v n hsome := by
    rw [hprevious] at hsome
    obtain ⟨⟨m', hm', hnow⟩, hbounds⟩ := h.before v n hsome
    rw [hversion]
    exact ⟨⟨m', mem_cons_of_mem _ hm', hnow⟩, hbounds⟩
  bounded m' hm' := by
    rw [hversion, hprevious]
    rcases mem_cons.mp hm' with rfl | hm'
    · exact .inl hm.le
    · exact h.bounded m' hm'
  small := hversion ▸ h.small

theorem Numbered.write_single (hsingle : SingleValued history) (hfree : r.FreeFor m.value)
    (hversion : m.version = saturatingAdd r.version) :
    ∀ m' ∈ history, m'.version = m.version → m'.value = m.value := by
  intro m' hm' hsame
  rw [hversion] at hsame
  by_cases hstop : saturatingAdd r.version = r.version
  · obtain ⟨now, hnow, hnumber, hvalue⟩ := h.now
    rw [hfree.1 hstop, ← hvalue]
    exact hsingle m' hm' now hnow (by rw [hsame, hstop, hnumber])
  · have hlt : r.version < saturatingAdd r.version :=
      lt_of_le_of_ne (le_saturatingAdd h.small) (Ne.symm hstop)
    rcases h.bounded m' hm' with hle | ⟨v, n, hprevious, hle⟩
    · omega
    · obtain ⟨⟨old, hold, hnumber, hvalue⟩, hn, -⟩ := h.before v n hprevious
      have heq : n = saturatingAdd r.version := by omega
      rw [hfree.2 v (heq ▸ hprevious), ← hvalue]
      exact hsingle m' hm' old hold (by rw [hsame, hnumber, heq])

end

theorem SingleValued.cons (hsingle : SingleValued history)
    (h : ∀ m' ∈ history, m'.version = m.version → m'.value = m.value) :
    SingleValued (m :: history) := by
  intro a ha b hb hab
  rcases mem_cons.mp ha with ha' | ha' <;> rcases mem_cons.mp hb with hb' | hb'
  · rw [ha', hb']
  · subst ha'
    exact (h b hb' hab.symm).symm
  · subst hb'
    exact h a ha' hab
  · exact hsingle a ha' b hb' hab

theorem Numbered.freeFor (h : Numbered history r) (hsingle : SingleValued (m :: history))
    (hversion : m.version = saturatingAdd r.version) : r.FreeFor m.value := by
  constructor
  · intro hstop
    obtain ⟨now, hnow, hnumber, hvalue⟩ := h.now
    rw [← hvalue]
    exact hsingle m (mem_cons_self ..) now (mem_cons_of_mem _ hnow)
      (by rw [hversion, hstop, hnumber])
  · intro v hprevious
    obtain ⟨⟨old, hold, hnumber, hvalue⟩, -⟩ := h.before v _ hprevious
    rw [← hvalue]
    exact hsingle m (mem_cons_self ..) old (mem_cons_of_mem _ hold) (by rw [hversion, hnumber])

theorem Numbered.keep_single (h : Numbered history r) (hsingle : SingleValued history)
    (hversion : m.version = r.version) (hvalue : m.value = r.current) :
    SingleValued (m :: history) := by
  refine hsingle.cons fun m' hm' hsame => ?_
  obtain ⟨now, hnow, hnumber, hcurrent⟩ := h.now
  rw [hvalue, ← hcurrent]
  exact hsingle m' hm' now hnow (by rw [hsame, hversion, hnumber])

variable [DecidableEq V] {cfg : Config V} {s : Node V}

def Node.Numbered (s : Node V) : Prop :=
  ∀ key, NumberedKey (s.history key) (s.store.lookup key)

/-- A put or rotation of a new value into an existing secret. -/
inductive Writes (r : SecretRecord V) (value : V) : Request V → Prop where
  | put (key : String) (metadata : VaultMetadata) (hvalue : value ≠ r.current) :
      Writes r value (.put key value metadata)
  | rotate (key tenantId : String) : Writes r value (.rotate key tenantId value)

/-- What an answered request does to the numbers of its key. -/
inductive Renumbers (request : Request V) :
    Option (SecretRecord V) → Option (SecretRecord V) → Prop where
  | first (r : SecretRecord V) (hversion : r.version = 1) (hprevious : r.previous = none) :
      Renumbers request none (some r)
  | gone (r : SecretRecord V) (hwrites : ∀ value, ¬Writes r value request) :
      Renumbers request (some r) none
  | stays (r r' : SecretRecord V) (hversion : r'.version = r.version)
      (hcurrent : r'.current = r.current) (hprevious : r'.previous = r.previous)
      (hwrites : ∀ value, ¬Writes r value request) : Renumbers request (some r) (some r')
  | writes (r : SecretRecord V) (metadata : VaultMetadata) (value : V)
      (hwrites : Writes r value request) : Renumbers request (some r)
        (some ⟨metadata, saturatingAdd r.version, value, some (r.current, r.version)⟩)
  | swaps (r : SecretRecord V) (value : V) (version : ℕ)
      (hprevious : r.previous = some (value, version)) (hwrites : ∀ value, ¬Writes r value request) :
      Renumbers request (some r)
        (some ⟨r.metadata, version, value, some (r.current, r.version)⟩)

omit [DecidableEq V] in
theorem Change.renumbers (h : Change cfg caller request before after) :
    Renumbers request before after := by
  cases h with
  | create key value metadata hmetadata => exact .first _ rfl rfl
  | same key value metadata r hmetadata htenant hvalue =>
    refine .stays r r rfl rfl rfl ?_
    intro value' hwrites
    cases hwrites with
    | put _ _ hne => exact hne hvalue.symm
  | update key value metadata r hmetadata htenant hvalue =>
    exact .writes r _ value (.put key metadata (Ne.symm hvalue))
  | read key includeValue r => exact .stays r r rfl rfl rfl nofun
  | delete key tenantId r => exact .gone r nofun
  | rotate key tenantId value r => exact .writes r _ value (.rotate key tenantId)
  | rollback key tenantId value version r hprevious =>
    exact .swaps r value version hprevious nofun
  | assign key tenantId assignedIlks r =>
    exact .stays r _ rfl rfl rfl nofun

omit [DecidableEq V] in
theorem Renumbers.numbered (h : Renumbers request before after)
    (hnumbered : NumberedKey history before) :
    NumberedKey (noted ilks after how history) after := by
  cases h with
  | first r hversion hprevious =>
    have hempty : history = [] := hnumbered
    subst hempty
    refine ⟨⟨_, mem_cons_self .., rfl, rfl⟩, ?_, ?_, ?_⟩
    · intro v n hsome
      rw [hprevious] at hsome
      cases hsome
    · intro m hm
      rw [mem_singleton.mp hm]
      exact .inl (le_refl _)
    · rw [hversion]
      decide
  | gone r hwrites => exact rfl
  | stays r r' hversion hcurrent hprevious hwrites =>
    exact Numbered.keep hnumbered hversion hcurrent hprevious hversion
  | writes r metadata value hwrites => exact Numbered.write hnumbered rfl rfl
  | swaps r value version hprevious hwrites => exact Numbered.rollback hnumbered hprevious rfl rfl

theorem Node.Numbered.step (h : s.Numbered) (e : Event V) : (s.step cfg e).Numbered := by
  intro key
  have hkey := h key
  have hturn : Turn cfg s key e (s.step cfg e) := s.step_turn key e
  generalize s.step cfg e = after at hturn ⊢
  cases hturn with
  | refused call err herr => exact hkey
  | passed _ s' hlookup hhistory hnamed helse =>
    rw [hlookup, hhistory]
    cases hget : s.store.lookup key with
    | none => exact rfl
    | some r =>
      rw [hget] at hkey
      exact Vault.Numbered.keep hkey rfl rfl rfl rfl
  | taken call caller store' ans s' hrequest hanswer hchange hilks hhistory hnamed =>
    rw [hhistory]
    exact hchange.renumbers.numbered hkey

omit [DecidableEq V] in
theorem Renumbers.single_iff (h : Renumbers request before after)
    (hnumbered : NumberedKey history before) (hsingle : SingleValued history) :
    SingleValued (noted ilks after how history) ↔
      ∀ r, before = some r → ∀ value, Writes r value request → r.FreeFor value := by
  cases h with
  | first r hversion hprevious =>
    have hempty : history = [] := hnumbered
    subst hempty
    refine iff_of_true (hsingle.cons (forall_mem_nil _)) ?_
    intro r' hr'
    cases hr'
  | gone r hwrites =>
    refine iff_of_true (fun m hm => absurd hm not_mem_nil) ?_
    intro r' hr' value hvalue
    cases hr'
    exact absurd hvalue (hwrites value)
  | stays r r' hversion hcurrent hprevious hwrites =>
    refine iff_of_true (Numbered.keep_single hnumbered hsingle hversion hcurrent) ?_
    intro r'' hr'' value hvalue
    cases hr''
    exact absurd hvalue (hwrites value)
  | writes r metadata value hwrites =>
    constructor
    · intro hafter r' hr' value' hvalue'
      cases hr'
      have hsame : value' = value := by
        cases hwrites <;> cases hvalue' <;> rfl
      rw [hsame]
      exact Numbered.freeFor hnumbered hafter rfl
    · intro hfree
      exact hsingle.cons (Numbered.write_single hnumbered hsingle (hfree r rfl value hwrites) rfl)
  | swaps r value version hprevious hwrites =>
    refine iff_of_true (hsingle.cons ?_) ?_
    · obtain ⟨⟨old, hold, hnumber, hvalue⟩, -⟩ := Numbered.before hnumbered value version hprevious
      intro m' hm' hsame
      exact (hsingle m' hm' old hold (hsame.trans hnumber.symm)).trans hvalue
    · intro r' hr' value' hvalue'
      cases hr'
      exact absurd hvalue' (hwrites value')

/-- A new value is put or rotated in only under a number that is free for it. -/
def WritesFree (cfg : Config V) (s : Node V) (e : Event V) : Prop :=
  ∀ call result, e = .call call → answer cfg s.ilks s.store call = .ok result →
    ∀ r, s.store.lookup call.request.key = some r →
      ∀ value, Writes r value call.request → r.FreeFor value

theorem Node.Numbered.single_iff (h : s.Numbered) (hsingle : ∀ key, SingleValued (s.history key))
    (e : Event V) : (∀ key, SingleValued ((s.step cfg e).history key)) ↔ WritesFree cfg s e := by
  have hturn : ∀ key, Turn cfg s key e (s.step cfg e) := fun key => s.step_turn key e
  generalize s.step cfg e = after at hturn ⊢
  constructor
  · intro hafter call result hcall hanswer r hget value hwrites
    subst hcall
    cases hturn call.request.key with
    | refused _ err herr =>
      rw [herr] at hanswer
      cases hanswer
    | passed _ _ hlookup hhistory hnamed helse => exact absurd rfl (helse call rfl).1
    | taken _ caller store' ans _ hrequest _ hchange hilks hhistory hnamed =>
      have hkey := hafter call.request.key
      rw [hhistory] at hkey
      exact (hchange.renumbers.single_iff (h _) (hsingle _)).mp hkey r hget value hwrites
  · intro hfree key
    cases hturn key with
    | refused _ err herr => exact hsingle key
    | passed _ _ hlookup hhistory hnamed helse =>
      rw [hhistory]
      have hkey := h key
      cases hget : s.store.lookup key with
      | none => exact fun m hm => absurd hm not_mem_nil
      | some r =>
        rw [hget] at hkey
        exact Vault.Numbered.keep_single hkey (hsingle key) rfl rfl
    | taken call caller store' ans _ hrequest hanswer hchange hilks hhistory hnamed =>
      subst hrequest
      rw [hhistory]
      exact (hchange.renumbers.single_iff (h _) (hsingle _)).mpr (hfree call _ rfl hanswer)

/-- In every state of a run each version number of each key stands for one value, exactly when every
value is written under a number that is free for it. -/
theorem versions_single_valued_iff (cfg : Config V) (events : List (Event V)) :
    (∀ front, front <+: events →
      ∀ key, SingleValued ((front.foldl (Node.step cfg) {}).history key)) ↔
      GuardedRun.Along (Node.step cfg) (WritesFree cfg) {} events := by
  have hinit : ({} : Node V).Numbered := fun _ => rfl
  have hnumbered : ∀ front : List (Event V), (front.foldl (Node.step cfg) {}).Numbered := by
    intro front
    exact (GuardedRun.along_of_forall (Q := fun _ => True) fun _ _ => trivial).invariant
      (fun _ e _ h => h.step e) hinit
  rw [← GuardedRun.states_iff_along
    (P := fun s : Node V => s.Numbered ∧ ∀ key, SingleValued (s.history key))
    (fun s e h => ⟨fun hafter => (h.1.single_iff h.2 e).mp hafter.2,
      fun hfree => ⟨h.1.step e, (h.1.single_iff h.2 e).mpr hfree⟩⟩)
    ⟨hinit, fun _ m hm => absurd hm not_mem_nil⟩]
  constructor
  · intro h front hfront
    exact ⟨hnumbered front, h front hfront⟩
  · intro h front hfront
    exact (h front hfront).2

/-- In every state of a run, the version of a secret and that of its previous value were given to
those values and are next to each other, and no number given to its key is above both. -/
theorem versions_name_stored_values (cfg : Config V) (events : List (Event V)) :
    (events.foldl (Node.step cfg) {}).Numbered := by
  have hinit : ({} : Node V).Numbered := fun _ => rfl
  exact List.foldlRecOn events _ hinit fun _ h e _ => h.step e

end

namespace Reused

def admin : String := "ilk:admin"

def cfg : Config ℕ := ⟨[admin], [], fun _ => admin, fun _ => 1⟩

def metadata : VaultMetadata := { tenantId := "tnt:a", resourceType := some "openai" }

def call (request : Request ℕ) : Event ℕ :=
  .call ⟨⟨some "SY.admin@motherbee", some admin⟩, request, fun _ => .ok (), true⟩

/-- Two values, the first restored, and a third put in the place of the second. -/
def events : List (Event ℕ) :=
  [call (.put "k" 10 metadata), call (.put "k" 20 metadata), call (.rollback "k" "tnt:a"),
    call (.put "k" 30 metadata)]

end Reused

/-- After a rollback the next value takes the number of the one rolled back. -/
theorem version_reused :
    ¬SingleValued ((Reused.events.foldl (Node.step Reused.cfg) {}).history "k") := by
  decide +kernel

end Fluxbee.Vault
