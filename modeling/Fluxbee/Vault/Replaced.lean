import Fluxbee.Vault.Readers

/-! What a reader of a secret may be given: a value that was current when it became a reader, or was
written or restored by an admin since. -/
namespace Fluxbee.Vault
open Text

variable {V : Type}

def Moment.reads (cfg : Config V) (m : Moment V) (sender : Sender) : Bool :=
  match resolveCaller cfg m.ilks sender with
  | .ok caller => (authorizeRead cfg caller m.metadata).isOk
  | .error _ => false

def isReader (cfg : Config V) (sender : Sender) (history : List (Moment V)) : Bool :=
  history.head?.any fun m => m.reads cfg sender

/-- A value a reader may be given: since it became one, the value was current from the start, or a
put, a rotation or an admin's rollback made it so. -/
def fair [DecidableEq V] (cfg : Config V) (sender : Sender) (value : V) : List (Moment V) → Bool
  | [] => false
  | m :: before =>
    m.reads cfg sender &&
      ((m.value = value && (m.made = .written || m.made = .adminRollback)) ||
        if isReader cfg sender before then fair cfg sender value before else m.value = value)

variable {history : List (Moment V)}

section
variable [DecidableEq V] {cfg : Config V} {s : Node V} {key : String}

def CurrentKey (ilks : List IdentityIlkOption) (key : String) (history : List (Moment V)) :
    Option (SecretRecord V) → Prop
  | some r => validateKey key = .ok () ∧ ∃ m before, history = m :: before ∧ m.ilks = ilks ∧
      m.metadata = r.metadata ∧ m.value = r.current
  | none => history = []

def Node.Current (s : Node V) : Prop :=
  ∀ key, CurrentKey s.ilks key (s.history key) (s.store.lookup key)

/-- Every reader of a key may be given its value. -/
def FairKey (cfg : Config V) (history : List (Moment V)) : Prop :=
  ∀ sender m before, history = m :: before → m.reads cfg sender = true →
    fair cfg sender m.value history = true

omit [DecidableEq V] in
theorem currentKey_noted {ilks : List IdentityIlkOption} {how : Made}
    {record : Option (SecretRecord V)} (hvalid : record.isSome → validateKey key = .ok ()) :
    CurrentKey ilks key (noted ilks record how history) record := by
  cases record with
  | none => exact rfl
  | some r => exact ⟨hvalid rfl, _, _, rfl, rfl, rfl, rfl⟩

theorem Node.Current.step (h : s.Current) (e : Event V) : (s.step cfg e).Current := by
  intro key
  have hkey := h key
  have hturn : Turn cfg s key e (s.step cfg e) := s.step_turn key e
  generalize s.step cfg e = after at hturn ⊢
  cases hturn with
  | refused call err herr => exact hkey
  | passed _ _ hlookup hhistory hnamed helse =>
    rw [hhistory, hlookup]
    apply currentKey_noted
    intro hsome
    obtain ⟨r, hr⟩ := Option.isSome_iff_exists.mp hsome
    rw [hr] at hkey
    exact hkey.1
  | taken call caller store' ans _ hrequest hanswer hchange hilks hhistory hnamed =>
    rw [hhistory, hilks]
    apply currentKey_noted
    intro _
    rw [← hrequest]
    exact (answer_changed hanswer).2.2.valid

/-- A moment that keeps the value: who was a reader may be given it already, who becomes one finds it
current. -/
theorem FairKey.keep {m : Moment V} (h : FairKey cfg history)
    (hsame : ∀ last before, history = last :: before → last.value = m.value) :
    FairKey cfg (m :: history) := by
  intro sender m' before heq hreads
  cases heq
  unfold fair
  rw [hreads, Bool.true_and, Bool.or_eq_true]
  right
  split_ifs with hreader
  · cases hhistory : history with
    | nil =>
      rw [hhistory] at hreader
      cases hreader
    | cons last older =>
      rw [← hsame last older hhistory, ← hhistory]
      rw [hhistory] at hreader
      exact h sender last older hhistory hreader
  · exact decide_eq_true rfl

theorem fairKey_written {m : Moment V}
    (hmade : m.made = .written ∨ m.made = .adminRollback) : FairKey cfg (m :: history) := by
  intro sender m' before heq hreads
  cases heq
  unfold fair
  rw [hreads, Bool.true_and, Bool.or_eq_true]
  left
  simpa using hmade

theorem fairKey_ownerRollback_iff {before : List (Moment V)} {m last : Moment V}
    (hmade : m.made = .ownerRollback) (hhistory : history = last :: before)
    (hilks : m.ilks = last.ilks) (hmetadata : m.metadata = last.metadata) :
    FairKey cfg (m :: history) ↔
      ∀ sender, isReader cfg sender history = true → fair cfg sender m.value history = true := by
  have hreads : ∀ sender, m.reads cfg sender = isReader cfg sender history := by
    intro sender
    rw [hhistory]
    unfold isReader Moment.reads
    rw [hilks, hmetadata]
    rfl
  have hfair : ∀ sender, isReader cfg sender history = true →
      (fair cfg sender m.value (m :: history) = true ↔ fair cfg sender m.value history = true) := by
    intro sender hreader
    rw [fair, hreads, hreader, Bool.true_and, hmade, if_pos rfl]
    simp
  constructor
  · intro h sender hreader
    exact (hfair sender hreader).mp (h sender m history rfl ((hreads sender).trans hreader))
  · intro h sender m' before' heq hread
    cases heq
    have hreader := (hreads sender).symm.trans hread
    exact (hfair sender hreader).mpr (h sender hreader)

/-- An owner that is no admin rolls a key back only to a value every reader may be given. -/
def RollsBackFairly (cfg : Config V) (s : Node V) (e : Event V) : Prop :=
  ∀ call store' caller ans key tenantId r value version, e = .call call →
    answer cfg s.ilks s.store call = .ok (store', caller, ans) →
    call.request = .rollback key tenantId → caller.isWellKnownAdmin cfg = false →
    s.store.lookup key = some r → r.previous = some (value, version) →
    ∀ sender, isReader cfg sender (s.history key) = true →
      fair cfg sender value (s.history key) = true

theorem fairKey_nil : FairKey cfg ([] : List (Moment V)) := by
  intro sender m before heq
  cases heq

theorem Change.fairKey {caller : Caller} {request : Request V}
    {before after : Option (SecretRecord V)} (h : Change cfg caller request before after)
    {ilks : List IdentityIlkOption}
    (hcurrent : CurrentKey ilks key history before) (hfair : FairKey cfg history)
    (hrollback : ∀ k tenantId r value version, request = .rollback k tenantId →
      caller.isWellKnownAdmin cfg = false → before = some r → r.previous = some (value, version) →
      ∀ sender, isReader cfg sender history = true → fair cfg sender value history = true) :
    FairKey cfg (noted ilks after (made cfg caller request) history) := by
  have hkeep : ∀ r m, before = some r → m.value = r.current → FairKey cfg (m :: history) := by
    intro r m hr hvalue
    rw [hr] at hcurrent
    obtain ⟨-, last, older, hhistory, -, -, hlast⟩ := hcurrent
    refine hfair.keep fun last' older' heq => ?_
    rw [hhistory] at heq
    cases heq
    exact hlast.trans hvalue.symm
  cases h with
  | create key value metadata hmetadata | same key value metadata r hmetadata htenant hvalue
  | update key value metadata r hmetadata htenant hvalue
  | rotate key tenantId value r => exact fairKey_written (.inl rfl)
  | read key includeValue r | assign key tenantId assignedIlks r => exact hkeep r _ rfl rfl
  | delete key tenantId r => exact fairKey_nil
  | rollback key tenantId value version r hprevious =>
    obtain ⟨-, last, older, hhistory, hilks, hmetadata, -⟩ := hcurrent
    by_cases hadmin : caller.isWellKnownAdmin cfg = true
    · apply fairKey_written
      right
      exact if_pos hadmin
    · apply (fairKey_ownerRollback_iff (if_neg hadmin) hhistory hilks.symm hmetadata.symm).mpr
      exact hrollback key tenantId r value version rfl (Bool.eq_false_iff.mpr hadmin) rfl hprevious

theorem Node.Current.fair_iff (h : s.Current) (hfair : ∀ key, FairKey cfg (s.history key))
    (e : Event V) :
    (∀ key, FairKey cfg ((s.step cfg e).history key)) ↔ RollsBackFairly cfg s e := by
  have hturn : ∀ key, Turn cfg s key e (s.step cfg e) := fun key => s.step_turn key e
  generalize s.step cfg e = after at hturn ⊢
  constructor
  · intro hafter call store' caller ans key tenantId r value version hcall hanswer hrequest hadmin
      hget hprevious
    subst hcall
    have hkey : call.request.key = key := by rw [hrequest]; rfl
    have hfairKey := hafter key
    have hcurrent := h key
    cases hturn key with
    | refused _ err herr =>
      rw [herr] at hanswer
      cases hanswer
    | passed _ _ hlookup hhistory hnamed helse => exact absurd hkey (helse call rfl).1
    | taken _ caller' store'' ans' _ hkey' hanswer' hchange hilks hhistory hnamed =>
      rw [hanswer] at hanswer'
      cases hanswer'
      rw [hrequest, hget] at hchange
      rw [hget] at hcurrent
      obtain ⟨-, last, older, hlast, hlastIlks, hlastMetadata, -⟩ := hcurrent
      rw [hhistory, hrequest] at hfairKey
      generalize after.store.lookup key = found at hchange hfairKey
      cases hchange with
      | rollback _ _ value' version' _ hprevious' =>
        rw [hprevious] at hprevious'
        cases hprevious'
        have hmade : made cfg caller (.rollback key tenantId : Request V) = .ownerRollback := by
          unfold made
          rw [hadmin]
          rfl
        exact (fairKey_ownerRollback_iff hmade hlast hlastIlks.symm hlastMetadata.symm).mp hfairKey
  · intro hrolls key
    cases hturn key with
    | refused _ err herr => exact hfair key
    | passed _ _ hlookup hhistory hnamed helse =>
      rw [hhistory]
      have hcurrent := h key
      cases hget : s.store.lookup key with
      | none => exact fairKey_nil
      | some r =>
        rw [hget] at hcurrent
        obtain ⟨-, last, older, hlast, -, -, hvalue⟩ := hcurrent
        refine (hfair key).keep fun last' older' heq => ?_
        rw [hlast] at heq
        cases heq
        exact hvalue
    | taken call caller store' ans _ hrequest hanswer hchange hilks hhistory hnamed =>
      rw [hhistory]
      apply hchange.fairKey (h key) (hfair key)
      intro k tenantId r value version hrollback hadmin hget hprevious
      have hk : k = key := by rw [← hrequest, hrollback]; rfl
      subst hk
      exact hrolls call store' caller ans k tenantId r value version rfl hanswer hrollback hadmin
        hget hprevious

end

section
variable [DecidableEq V] {cfg : Config V} {s : Node V}

/-- A value given out is one its reader may be given. -/
def ReadsFair (cfg : Config V) (s : Node V) : Prop :=
  ∀ call raw store' caller metadata version value, call.request = .get raw true →
    answer cfg s.ilks s.store call = .ok (store', caller, .got metadata version (some value)) →
    fair cfg call.sender value (s.history (trim raw)) = true

theorem isKeyChar_plain {c : Char} (h : isKeyChar c = true) :
    isWhitespace c = false ∧ Text.lowerChar c = c := by
  have hsmall : c.toNat < 123 := by
    unfold isKeyChar isAsciiLowercase isAsciiDigit at h
    simp only [Bool.or_eq_true, decide_eq_true_eq, beq_iff_eq] at h
    rcases h with (((⟨-, hle⟩ | ⟨-, hle⟩) | rfl) | rfl) | rfl
    · have hbound : c.toNat ≤ 122 := hle
      omega
    · have hbound : c.toNat ≤ 57 := hle
      omega
    all_goals decide
  have hall : ∀ n < 123, isKeyChar (Char.ofNat n) = true →
      isWhitespace (Char.ofNat n) = false ∧ Text.lowerChar (Char.ofNat n) = Char.ofNat n := by decide
  have hc := hall c.toNat hsmall
  rw [Char.ofNat_toNat] at hc
  exact hc h

theorem trim_of_validateKey {key : String} (h : validateKey key = .ok ()) : trim key = key := by
  unfold validateKey at h
  split_ifs at h with _ _ hall
  apply trim_of_plain
  intro c hc
  exact isKeyChar_plain (List.all_eq_true.mp (Bool.not_eq_false _ ▸ hall) c hc)

/-- The values given out in a state are fair exactly when every reader may be given the current value
of its key: any reader can ask for it. -/
theorem Node.Current.readsFair_iff (h : s.Current) :
    ReadsFair cfg s ↔ ∀ key, FairKey cfg (s.history key) := by
  constructor
  · intro hreads key sender m before hhistory hreader
    have hcurrent := h key
    cases hget : s.store.lookup key with
    | none =>
      rw [hget] at hcurrent
      have hempty : s.history key = [] := hcurrent
      rw [hempty] at hhistory
      cases hhistory
    | some r =>
      rw [hget] at hcurrent
      obtain ⟨hvalid, last, older, hlast, hilks, hmetadata, hvalue⟩ := hcurrent
      rw [hlast] at hhistory
      cases hhistory
      have htrim := trim_of_validateKey hvalid
      have hne : trim key ≠ "" := by
        rw [htrim]
        rintro rfl
        cases hvalid
      unfold Moment.reads at hreader
      rw [hilks, hmetadata] at hreader
      split at hreader
      next caller hresolve =>
        have hauthorized : authorizeRead cfg caller r.metadata = .ok () := by
          cases hread : authorizeRead cfg caller r.metadata with
          | error err =>
            simp only [hread] at hreader
            cases hreader
          | ok u => rfl
        have hgot : answer cfg s.ilks s.store ⟨sender, .get key true, fun _ => .ok (), true⟩ =
            .ok (s.store, caller, .got r.metadata r.version (some r.current)) := by
          have hkey : requestKeyRequired key = .ok key := by
            unfold requestKeyRequired
            rw [if_neg hne, htrim]
          have hread : readRecord cfg caller (fun _ => .ok ()) r true =
              .ok (.got r.metadata r.version (some r.current)) := by
            unfold readRecord
            rw [if_pos rfl, hauthorized]
            rfl
          have hhandle : handleGet cfg s.store caller (fun _ => .ok ()) key true =
              .ok (s.store, .got r.metadata r.version (some r.current)) := by
            unfold handleGet
            rw [hkey]
            change (validateKey key >>= fun _ => _) = _
            rw [hvalid, hget]
            change (readRecord cfg caller (fun _ => .ok ()) r true >>= fun _ => _) = _
            rw [hread]
            rfl
          unfold answer
          simp only [hresolve, handle, hhandle, if_true]
        have hfair := hreads _ key _ _ _ _ _ rfl hgot
        rw [htrim, hlast] at hfair
        rw [hlast, hvalue]
        exact hfair
      · cases hreader
  · intro hfair call raw store' caller metadata version value hrequest hanswer
    obtain ⟨hresolve, hhandle, -⟩ := answer_changed hanswer
    rw [hrequest] at hhandle
    obtain ⟨-, -, r, hget, hgiven⟩ := handleGet_spec hhandle
    obtain ⟨hauthorized, hans⟩ := hgiven rfl
    cases hans
    have hcurrent := h (trim raw)
    rw [hget] at hcurrent
    obtain ⟨-, last, older, hlast, hilks, hmetadata, hvalue⟩ := hcurrent
    have hreads : last.reads cfg call.sender = true := by
      unfold Moment.reads
      rw [hilks, hresolve, hmetadata]
      dsimp only
      rw [hauthorized]
      rfl
    rw [← hvalue]
    exact hfair (trim raw) call.sender last older hlast hreads

/-- Along a run no reader is given a value that was replaced before it became one, unless a put, a
rotation or an admin's rollback made it current again, exactly when no owner rolls a key back to such
a value. -/
theorem replaced_values_stay_hidden_iff (cfg : Config V) (events : List (Event V)) :
    (∀ front, front <+: events → ReadsFair cfg (front.foldl (Node.step cfg) {})) ↔
      GuardedRun.Along (Node.step cfg) (RollsBackFairly cfg) {} events := by
  have hinit : ({} : Node V).Current := fun _ => rfl
  have hcurrent : ∀ front : List (Event V), (front.foldl (Node.step cfg) {}).Current := by
    intro front
    exact (GuardedRun.along_of_forall (Q := fun _ => True) fun _ _ => trivial).invariant
      (fun _ e _ h => h.step e) hinit
  rw [← GuardedRun.states_iff_along
    (P := fun s : Node V => s.Current ∧ ∀ key, FairKey cfg (s.history key))
    (fun s e h => ⟨fun hafter => (h.1.fair_iff h.2 e).mp hafter.2,
      fun hrolls => ⟨h.1.step e, (h.1.fair_iff h.2 e).mpr hrolls⟩⟩)
    ⟨hinit, fun _ => fairKey_nil⟩]
  constructor
  · intro h front hfront
    exact ⟨hcurrent front, (hcurrent front).readsFair_iff.mp (h front hfront)⟩
  · intro h front hfront
    exact (hcurrent front).readsFair_iff.mpr (h front hfront).2

end

namespace Inherited
open Reused

def ilks : List IdentityIlkOption :=
  [⟨"ilk:old", "tnt:a", "agent", some "AI.old@motherbee"⟩,
    ⟨"ilk:new", "tnt:a", "agent", some "AI.new@motherbee"⟩]

def newOwner : Sender := ⟨some "AI.new@motherbee", some "ilk:new"⟩

/-- A secret of the old owner, replaced by one of the new owner, which then rolls it back. -/
def events : List (Event ℕ) :=
  [.identity ilks, call (.put "k" 10 { metadata with ilk := some "ilk:old" }),
    call (.put "k" 20 { metadata with ilk := some "ilk:new" }),
    .call ⟨newOwner, .rollback "k" "tnt:a", fun _ => .ok (), true⟩]

def read : Call ℕ := ⟨newOwner, .get "k" true, fun _ => .ok (), true⟩

end Inherited

/-- The new owner of a key rolls it back and reads the old owner's value. -/
theorem old_owners_value_read : ¬ReadsFair Reused.cfg
    (Inherited.events.foldl (Node.step Reused.cfg) {}) := by
  intro h
  have hfair : fair Reused.cfg Inherited.newOwner 10
      ((Inherited.events.foldl (Node.step Reused.cfg) {}).history (trim "k")) = true :=
    h Inherited.read "k" _ _ _ _ 10 rfl (by rfl)
  have hunfair : fair Reused.cfg Inherited.newOwner 10
      ((Inherited.events.foldl (Node.step Reused.cfg) {}).history (trim "k")) = false := by
    decide +kernel
  exact absurd (hunfair.symm.trans hfair) (by decide)

end Fluxbee.Vault
