import Fluxbee.Router.LinkSteps

/-! Which hive a UUID resolves to: the only one whose latest LSA lists it, if no node of this hive
has it. What the hub vouches for is filtered by the state at its arrival, and answers later. -/
namespace Fluxbee.Router
open Text Shm Lsa GuardedRun List Option AList RouterTables Gateway

namespace WanRouter

variable {p : WanPolicy} {r r' : WanRouter} {localNodes : List LsaNode}
  {heard : List (String × List LsaNode)} {uuid : Uuid} {hive : String} {event : Event}
  {info : RemoteNodeInfo}

/-! ### What every run keeps -/

/-- The router answers by the LSAs it heard, and by the local nodes it last published. -/
structure Current (r : WanRouter) (localNodes : List LsaNode)
    (heard : List (String × List LsaNode)) : Prop where
  tidy : Tidy r.gateway.lsaState
  latest : ∀ hive, advertised r.gateway.lsaState hive = latest hive [] heard
  snapshot : Answers r.gateway.side.hiveId localNodes r.gateway.lsaState r.lsaSnapshot
  region : Answers r.gateway.side.hiveId localNodes r.gateway.lsaState
    (some r.gateway.region.readSnapshot)

/-- No UUID that is vouched for is taken. -/
def Unclaimed (r : WanRouter) : Prop :=
  ∀ uuid ∈ r.reachability, uuid ∉ r.gateway.side.nodeUuids ∧
    ∀ hive, hive ≠ r.gateway.side.hiveId → claims (advertised r.gateway.lsaState hive) uuid = false

def Publishable (p : WanPolicy) (r : WanRouter) (event : Event) : Prop :=
  ∀ change ∈ r.gatewayEvent p event, r.gateway.Publishable change

/-- What takes a UUID takes none that is vouched for then: an LSA, or a node of this hive. -/
def Clear (r : WanRouter) (change : GatewayEvent) : Prop :=
  (∀ lsa ∈ r.gateway.hears change, ∀ uuid ∈ r.reachability.keys, claims lsa.2 uuid = false) ∧
    match change with
    | .relocate side => ∀ uuid ∈ r.reachability.keys, uuid ∉ side.nodeUuids
    | _ => True

def Uncontested (p : WanPolicy) (r : WanRouter) (event : Event) : Prop :=
  r.Publishable p event ∧ ∀ change ∈ r.gatewayEvent p event, r.Clear change

theorem current_start (side : LocalSide) :
    (start side).Current (localLsaNodes side.nodes side.peerNodes) [] where
  tidy hive st hl := by cases hl
  latest hive := rfl
  snapshot := answers_empty _ _ fun _ => rfl
  region := by
    refine answers_empty _ _ fun uuid => ?_
    have hnone : LsaRegion.created.readSnapshot.nodes = [] := Section.read_write _ (Nat.zero_le _)
    rw [start, Gateway.start, findRemoteNode, bind_some, uuidListedBySeveralHives, hnone]
    rfl

theorem unclaimed_start (side : LocalSide) : (start side).Unclaimed := by
  intro uuid huuid
  cases huuid

theorem claims_latest {before : List LsaNode}
    (hbefore : claims before uuid = false) (hheard : ∀ lsa ∈ heard, claims lsa.2 uuid = false) :
    claims (Router.latest hive before heard) uuid = false := by
  induction heard generalizing before with
  | nil => exact hbefore
  | cons lsa rest ih =>
    rw [Router.latest, foldl_cons]
    refine ih ?_ fun lsa' hmem => hheard lsa' (mem_cons_of_mem _ hmem)
    split_ifs
    · exact hheard lsa (mem_cons_self ..)
    · exact hbefore

theorem latest_append (hive : String) (heard heard' : List (String × List LsaNode)) :
    Router.latest hive [] (heard ++ heard') = Router.latest hive (Router.latest hive [] heard) heard' :=
  foldl_append

section

variable {g' : Gateway} {wrote : Bool} {heard' : List (String × List LsaNode)}

theorem Current.follow (h : r.Current localNodes heard) (hmoved : r.gateway.Moved g' wrote heard') :
    (r.follow g' wrote).Current localNodes (heard ++ heard') ∨ (r.follow g' wrote).Current
        (localLsaNodes r.gateway.side.nodes r.gateway.side.peerNodes) (heard ++ heard') := by
  cases hmoved with
  | kept hside hregion hsame htidy =>
    left
    have hown : (r.follow g' false).gateway.side = r.gateway.side := hside
    constructor
    · exact htidy h.tidy
    · intro hive
      rw [append_nil, ← h.latest hive]
      exact (hsame hive).1
    · rw [hown]
      exact h.snapshot.congr hsame
    · rw [hown]
      have hshown := h.region.congr hsame
      rw [← hregion] at hshown
      exact hshown
  | written hside hfits hwrite htidy hlatest =>
    right
    have hown : (r.follow g' true).gateway.side = r.gateway.side := hside
    have hanswers := answers_of_written (htidy h.tidy) (written_of_fits r.gateway.region hfits)
    rw [← hwrite] at hanswers
    constructor
    · exact htidy h.tidy
    · intro hive
      rw [latest_append, ← h.latest hive]
      exact hlatest hive
    · rw [hown]
      exact hanswers
    · rw [hown]
      exact hanswers

theorem Unclaimed.follow (h : r.Unclaimed) (hmoved : r.gateway.Moved g' wrote heard')
    (hclear : ∀ lsa ∈ heard', ∀ uuid ∈ r.reachability.keys, claims lsa.2 uuid = false) :
    (r.follow g' wrote).Unclaimed := by
  have hown : (r.follow g' wrote).gateway.side = r.gateway.side := hmoved.side_eq
  have hadvertised : ∀ hive, advertised (r.follow g' wrote).gateway.lsaState hive =
      Router.latest hive (advertised r.gateway.lsaState hive) heard' :=
    hmoved.advertised_eq
  intro uuid huuid
  obtain ⟨hlocal, hothers⟩ := h uuid huuid
  rw [hown]
  refine ⟨hlocal, fun hive hne => ?_⟩
  rw [hadvertised]
  exact claims_latest (hothers hive hne) fun lsa hlsa => hclear lsa hlsa uuid huuid

end

theorem mem_applyWanReachability {peerHive : String} {msg : Message} {now : ℕ}
    (h : uuid ∈ (r.applyWanReachability p peerHive msg now).reachability) :
    uuid ∈ r.reachability ∨
      uuid ∉ r.gateway.side.nodeUuids ∧ uuid ∉ lsaListedUuids r.lsaSnapshot := by
  unfold applyWanReachability at h
  split_ifs at h with hallowed
  · exact .inl h
  · split at h
    · exact .inl h
    next payload hp =>
      split_ifs at h with horigin
      · exact .inl h
      · -- Of the table only the old entries and the vouched ones are left.
        refine List.foldlRecOn (motive := fun table : Reachability => ∀ u ∈ table,
          u ∈ r.reachability ∨ u ∉ r.gateway.side.nodeUuids ∧ u ∉ lsaListedUuids r.lsaSnapshot)
          payload.entries _ (fun u hu => .inl (mem_of_mem_retain hu)) ?_ uuid h
        intro table htable entry _ u hu
        split at hu
        next vouchedUuid hv =>
          rcases (mem_insert _).mp hu with rfl | hu
          · obtain ⟨-, hfree⟩ := filter_eq_some_iff.mp hv
            obtain ⟨-, -, -, hlocal, hlisted, -⟩ := of_decide_eq_true hfree
            exact .inr ⟨hlocal, hlisted⟩
          · exact htable u hu
        · exact htable u hu

theorem applyWanReachability_tables (r : WanRouter) (p : WanPolicy) (peerHive : String)
    (msg : Message) (now : ℕ) :
    (r.applyWanReachability p peerHive msg now).gateway = r.gateway ∧
      (r.applyWanReachability p peerHive msg now).lsaSnapshot = r.lsaSnapshot := by
  unfold applyWanReachability
  split_ifs with hallowed
  · exact ⟨rfl, rfl⟩
  · cases p.reachabilityPayload msg.payload with
    | none => exact ⟨rfl, rfl⟩
    | some payload =>
      dsimp only
      split_ifs with horigin
      · exact ⟨rfl, rfl⟩
      · exact ⟨rfl, rfl⟩

theorem Current.of_eq (h : r.Current localNodes heard) (hgateway : r'.gateway = r.gateway)
    (hsnapshot : r'.lsaSnapshot = r.lsaSnapshot) : r'.Current localNodes heard := by
  obtain ⟨htidy, hlatest, hanswers, hregion⟩ := h
  rw [← hgateway] at htidy hlatest hanswers hregion
  rw [← hsnapshot] at hanswers
  exact ⟨htidy, hlatest, hanswers, hregion⟩

/-- One step keeps the answers right. The local nodes in the snapshot are the ones of before, or
those of the local side where the step published. -/
theorem Current.step (h : r.Current localNodes heard) (hfits : r.Publishable p event) :
    (r.step p event).Current localNodes (heard ++ r.hears p event) ∨ (r.step p event).Current
        (localLsaNodes r.gateway.side.nodes r.gateway.side.peerNodes) (heard ++ r.hears p event) := by
  have hstepped := stepped (p := p) (r := r) event
  unfold Publishable at hfits
  unfold hears
  generalize r.step p event = after at hstepped ⊢
  generalize r.gatewayEvent p event = change at hstepped hfits ⊢
  cases hstepped with
  | gateway change =>
    have hchange := hfits change rfl
    rw [toList_some, flatMap_cons, flatMap_nil, append_nil]
    by_cases hstill : ∀ side, change ≠ .relocate side
    · exact h.follow (moved_step hchange hstill)
    · push Not at hstill
      obtain ⟨side, rfl⟩ := hstill
      left
      have hown : side.hiveId = r.gateway.side.hiveId := hchange
      have hnone : r.gateway.hears (.relocate side) = [] := rfl
      have hsnapshot := h.snapshot
      have hregion := h.region
      rw [← hown] at hsnapshot hregion
      rw [hnone, append_nil]
      exact ⟨h.tidy, h.latest, hsnapshot, hregion⟩
  | vouch peerHive msg now =>
    left
    obtain ⟨hgateway, hsnapshot⟩ := applyWanReachability_tables r p peerHive msg now
    rw [toList_none, flatMap_nil, append_nil]
    exact h.of_eq hgateway hsnapshot
  | refresh =>
    left
    rw [toList_none, flatMap_nil, append_nil]
    exact ⟨h.tidy, h.latest, h.region, h.region⟩
  | expire deadIntervalMs now =>
    left
    rw [toList_none, flatMap_nil, append_nil]
    exact h.of_eq rfl rfl
  | other hgateway hsnapshot =>
    left
    rw [toList_none, flatMap_nil, append_nil]
    exact h.of_eq hgateway hsnapshot

theorem Unclaimed.step (h : r.Unclaimed) (hcurrent : r.Current localNodes heard)
    (hC : r.Uncontested p event) : (r.step p event).Unclaimed := by
  have hstepped := stepped (p := p) (r := r) event
  obtain ⟨hfits, hclear⟩ := hC
  unfold Publishable at hfits
  generalize r.step p event = after at hstepped ⊢
  generalize r.gatewayEvent p event = change at hstepped hfits hclear
  cases hstepped with
  | gateway change =>
    have hchange := hfits change rfl
    obtain ⟨hheard, hlocal⟩ := hclear change rfl
    by_cases hstill : ∀ side, change ≠ .relocate side
    · exact h.follow (moved_step hchange hstill) hheard
    · push Not at hstill
      obtain ⟨side, rfl⟩ := hstill
      have hown : side.hiveId = r.gateway.side.hiveId := hchange
      intro uuid huuid
      refine ⟨hlocal uuid huuid, fun hive hne => (h uuid huuid).2 hive ?_⟩
      rw [← hown]
      exact hne
  | vouch peerHive msg now =>
    obtain ⟨hgateway, -⟩ := applyWanReachability_tables r p peerHive msg now
    intro uuid huuid
    rw [hgateway]
    rcases mem_applyWanReachability huuid with hold | ⟨hlocal, hlisted⟩
    · exact h uuid hold
    · refine ⟨hlocal, fun hive hne => ?_⟩
      by_contra hclaims
      exact hlisted (hcurrent.snapshot.listed uuid hive hne (Bool.eq_true_of_not_eq_false hclaims))
  | refresh => exact h
  | expire deadIntervalMs now => exact fun uuid huuid => h uuid (mem_of_mem_retain huuid)
  | other hgateway hsnapshot hreach =>
    intro uuid huuid
    rw [hreach] at huuid
    rw [hgateway]
    exact h uuid huuid

/-! ### What the router answers -/

/-- What stands for a UUID: where messages for it are sent, or whom a frame is from that has it as
its sender. -/
def StandsFor (r : WanRouter) (uuid : Uuid) (info : RemoteNodeInfo) : Prop :=
  r.tables.resolveUuid uuid = some info ∨
    ∃ peerHive, wanFrameSource r.tables uuid peerHive = some info

/-- A UUID resolves to another hive only if that hive's latest LSA is the only one to list it and no
node of this hive has it; a vouched entry stands only for what nobody else lists. -/
structure Honest (r : WanRouter) (heard : List (String × List LsaNode)) : Prop where
  direct : ∀ uuid info, r.tables.resolveUuid uuid = some info → info.viaHub = false →
    uuid ∉ r.gateway.side.nodeUuids ∧ info.nextHopHive = info.hiveId ∧
      info.hiveId ≠ r.gateway.side.hiveId ∧ claims (latest info.hiveId [] heard) uuid = true ∧
        ∀ hive, hive ≠ r.gateway.side.hiveId → claims (latest hive [] heard) uuid = true →
          hive = info.hiveId
  vouched : ∀ uuid info, r.StandsFor uuid info → info.viaHub = true →
    uuid ∉ r.gateway.side.nodeUuids ∧
      ∀ hive, hive ≠ r.gateway.side.hiveId → claims (latest hive [] heard) uuid = false

theorem mem_of_findReachableNode (h : findReachableNode r.reachability uuid = some info) :
    info.viaHub = true ∧ uuid ∈ r.reachability := by
  obtain ⟨entry, hl, rfl⟩ := map_eq_some_iff.mp h
  exact ⟨rfl, lookup_isSome.mp (isSome_iff_exists.mpr ⟨entry, hl⟩)⟩

theorem Current.direct_viaHub (h : r.Current localNodes heard)
    (hinfo : findRemoteNode r.lsaSnapshot uuid = some info) :
    info.viaHub = false ∧ info.nextHopHive = info.hiveId := by
  obtain ⟨-, -, hown⟩ := (h.snapshot.direct uuid info).mp hinfo
  obtain ⟨-, hhop, hhub, -⟩ := hiveInfo_eq_some hown
  exact ⟨hhub, hhop⟩

theorem resolveUuid_cases (h : r.tables.resolveUuid uuid = some info) :
    uuid ∉ r.gateway.side.nodeUuids ∧ (findRemoteNode r.lsaSnapshot uuid = some info ∨
      findReachableNode r.reachability uuid = some info) := by
  unfold resolveUuid at h
  split_ifs at h with hown
  constructor
  · intro hmem
    rcases mem_append.mp hmem with hnode | hpeer
    · exact hown (.inl hnode)
    · exact hown (.inr hpeer)
  · rcases or_eq_some_iff.mp h with hdirect | ⟨-, hvouched⟩
    · exact .inl hdirect
    · exact .inr hvouched

theorem resolveUuid_of_none (hdirect : findRemoteNode r.lsaSnapshot uuid = none)
    (hlocal : uuid ∉ r.gateway.side.nodeUuids) :
    r.tables.resolveUuid uuid = findReachableNode r.reachability uuid := by
  have hfree : ¬ (uuid ∈ r.tables.nodes ∨ uuid ∈ r.tables.peerNodes) := by
    intro hown
    exact hlocal (mem_append.mpr hown)
  have hnone : findRemoteNode r.tables.lsaSnapshot uuid = none := hdirect
  rw [resolveUuid, if_neg hfree, hnone, none_or]
  rfl

theorem Current.contested (h : r.Current localNodes heard) {hive' : String}
    (hne : hive ≠ hive') (hforeign : hive ≠ r.gateway.side.hiveId)
    (hforeign' : hive' ≠ r.gateway.side.hiveId)
    (hclaims : claims (Router.latest hive [] heard) uuid = true)
    (hclaims' : claims (Router.latest hive' [] heard) uuid = true) :
    findRemoteNode r.lsaSnapshot uuid = none := by
  by_contra hsome
  obtain ⟨info, hinfo⟩ := ne_none_iff_exists'.mp hsome
  obtain ⟨hsole, -, -⟩ := (h.snapshot.direct uuid info).mp hinfo
  rw [← h.latest] at hclaims hclaims'
  exact hne ((hsole.sole hive hforeign hclaims).trans (hsole.sole hive' hforeign' hclaims').symm)

theorem Current.honest (h : r.Current localNodes heard) (hunclaimed : r.Unclaimed) :
    r.Honest heard where
  direct uuid info hinfo hhub := by
    obtain ⟨hlocal, hdirect | hvouched⟩ := resolveUuid_cases hinfo
    · obtain ⟨hsole, -, -⟩ := (h.snapshot.direct uuid info).mp hdirect
      obtain ⟨-, hhop⟩ := h.direct_viaHub hdirect
      refine ⟨hlocal, hhop, hsole.foreign, ?_, ?_⟩
      · rw [← h.latest]
        exact hsole.claimed
      · intro hive hne hclaims
        rw [← h.latest] at hclaims
        exact hsole.sole hive hne hclaims
    · rw [(mem_of_findReachableNode hvouched).1] at hhub
      cases hhub
  vouched uuid info hstands hhub := by
    have hreach : uuid ∈ r.reachability := by
      rcases hstands with hinfo | ⟨peerHive, hsource⟩
      · obtain ⟨-, hdirect | hvouched⟩ := resolveUuid_cases hinfo
        · rw [(h.direct_viaHub hdirect).1] at hhub
          cases hhub
        · exact (mem_of_findReachableNode hvouched).2
      · rcases or_eq_some_iff.mp hsource with hown | ⟨-, hfiltered⟩
        · obtain ⟨lsa, -, hown⟩ := bind_eq_some_iff.mp hown
          obtain ⟨i, -, hown⟩ := bind_eq_some_iff.mp hown
          obtain ⟨node, -, rfl⟩ := map_eq_some_iff.mp hown
          cases hhub
        · exact (mem_of_findReachableNode (filter_eq_some_iff.mp hfiltered).1).2
    obtain ⟨hlocal, hothers⟩ := hunclaimed uuid hreach
    refine ⟨hlocal, fun hive hne => ?_⟩
    rw [← h.latest]
    exact hothers hive hne

/-! ### The order of the LSAs -/

/-- Two routers of a hive that last heard the same of every other hive. -/
structure SameLatest (r r' : WanRouter) (heard heard' : List (String × List LsaNode)) : Prop where
  side : r'.gateway.side = r.gateway.side
  latest : ∀ hive, hive ≠ r.gateway.side.hiveId → latest hive [] heard' = latest hive [] heard
  stale : ∀ hive, hive ≠ r.gateway.side.hiveId →
    isStale r'.gateway.lsaState hive = isStale r.gateway.lsaState hive

theorem SoleClaim.congr {own : String} {lists lists' : String → List LsaNode}
    (h : SoleClaim own localNodes lists uuid hive)
    (hlists : ∀ hive, hive ≠ own → lists' hive = lists hive) :
    SoleClaim own localNodes lists' uuid hive where
  foreign := h.foreign
  claimed := by
    rw [hlists hive h.foreign]
    exact h.claimed
  sole other hne hclaims := by
    rw [hlists other hne] at hclaims
    exact h.sole other hne hclaims
  unclaimed := h.unclaimed

variable {heard' : List (String × List LsaNode)}

theorem SameLatest.symm (h : SameLatest r r' heard heard') : SameLatest r' r heard' heard where
  side := h.side.symm
  latest hive hne := (h.latest hive (h.side ▸ hne)).symm
  stale hive hne := (h.stale hive (h.side ▸ hne)).symm

section
variable (hsame : SameLatest r r' heard heard') (h : r.Current localNodes heard)
  (h' : r'.Current localNodes heard')
include hsame h h'

theorem SameLatest.findRemoteNode_of (hinfo : findRemoteNode r.lsaSnapshot uuid = some info) :
    findRemoteNode r'.lsaSnapshot uuid = some info := by
  have hlists : ∀ hive, hive ≠ r.gateway.side.hiveId →
      advertised r'.gateway.lsaState hive = advertised r.gateway.lsaState hive := by
    intro hive hne
    rw [h'.latest, h.latest, hsame.latest hive hne]
  obtain ⟨hsole, hstale, hown⟩ := (h.snapshot.direct uuid info).mp hinfo
  apply (h'.snapshot.direct uuid info).mpr
  rw [hsame.side, hlists info.hiveId hsole.foreign, hsame.stale info.hiveId hsole.foreign]
  exact ⟨SoleClaim.congr hsole hlists, hstale, hown⟩

theorem SameLatest.findRemoteNode_eq (uuid : Uuid) :
    findRemoteNode r'.lsaSnapshot uuid = findRemoteNode r.lsaSnapshot uuid := by
  apply Option.ext
  intro info
  constructor
  · intro hinfo
    exact hsame.symm.findRemoteNode_of h' h hinfo
  · intro hinfo
    exact hsame.findRemoteNode_of h h' hinfo

theorem SameLatest.resolveUuid_eq
    (hvouched : r'.reachability.lookup uuid = r.reachability.lookup uuid) :
    r'.tables.resolveUuid uuid = r.tables.resolveUuid uuid := by
  have hdirect : findRemoteNode r'.tables.lsaSnapshot uuid = findRemoteNode r.tables.lsaSnapshot uuid :=
    hsame.findRemoteNode_eq h h' uuid
  have hreach : findReachableNode r'.tables.reachability uuid =
      findReachableNode r.tables.reachability uuid := congrArg (Option.map _) hvouched
  have hnodes : r'.tables.nodes = r.tables.nodes := congrArg LocalSide.nodes hsame.side
  have hpeers : r'.tables.peerNodes = r.tables.peerNodes := congrArg LocalSide.peerNodes hsame.side
  unfold resolveUuid
  rw [hdirect, hreach, hnodes, hpeers]

end

theorem Unclaimed.lookup_eq_none (h : r.Unclaimed) (hcurrent : r.Current localNodes heard)
    (hne : hive ≠ r.gateway.side.hiveId)
    (hclaims : claims (Router.latest hive [] heard) uuid = true) :
    r.reachability.lookup uuid = none := by
  apply AList.lookup_eq_none.mpr
  intro hmem
  have hfalse := (h uuid hmem).2 hive hne
  rw [hcurrent.latest, hclaims] at hfalse
  cases hfalse

def Event.relocates : Event → Bool
  | .gateway (.relocate _) => true
  | _ => false

def Still (events : List Event) : Prop := ∀ event ∈ events, event.relocates = false

theorem gatewayEvent_still (hstill : event.relocates = false)
    {change : GatewayEvent} (h : r.gatewayEvent p event = some change) (side : LocalSide) :
    change ≠ .relocate side := by
  cases event with
  | frame id msg opa now =>
    obtain ⟨payload, -, rfl⟩ := map_eq_some_iff.mp h
    intro heq
    cases heq
  | gateway event =>
    cases h
    intro heq
    rw [heq] at hstill
    cases hstill
  | refresh | expire | siblings => cases h

theorem step_side (hstill : event.relocates = false)
    (hfits : r.Publishable p event) : (r.step p event).gateway.side = r.gateway.side := by
  have hstepped := stepped (p := p) (r := r) event
  have hchange : ∀ change ∈ r.gatewayEvent p event, ∀ side, change ≠ .relocate side :=
    fun change h => gatewayEvent_still hstill h
  unfold Publishable at hfits
  generalize r.step p event = after at hstepped ⊢
  generalize r.gatewayEvent p event = change at hstepped hfits hchange
  cases hstepped with
  | gateway change => exact (moved_step (hfits change rfl) (hchange change rfl)).side_eq
  | vouch peerHive msg now => rw [(applyWanReachability_tables r p peerHive msg now).1]
  | refresh | expire => rfl
  | other hgateway => rw [hgateway]

section

variable {side : LocalSide} {events : List Event}

section
variable (h : Along (step p) (Publishable p) (start side) events)
include h

theorem current_run : ∃ localNodes, (events.foldl (step p) (start side)).Current localNodes
      (log (step p) (hears p) (start side) events) := by
  refine h.log_invariant (P := fun r heard => ∃ localNodes, r.Current localNodes heard) (hears p)
    ⟨_, current_start side⟩ ?_
  rintro r event heard hfits ⟨localNodes, hcurrent⟩
  rcases hcurrent.step hfits with hsame | hpublished
  · exact ⟨_, hsame⟩
  · exact ⟨_, hpublished⟩

theorem current_still (hstill : Still events) :
    (events.foldl (step p) (start side)).gateway.side = side ∧
      (events.foldl (step p) (start side)).Current (localLsaNodes side.nodes side.peerNodes)
        (log (step p) (hears p) (start side) events) := by
  refine (h.and (along_of_forall hstill)).log_invariant (P := fun r heard => r.gateway.side = side ∧
      r.Current (localLsaNodes side.nodes side.peerNodes) heard) (hears p)
    ⟨rfl, current_start side⟩ ?_
  rintro r event heard ⟨hfits, hkeeps⟩ ⟨hside, hcurrent⟩
  refine ⟨(step_side hkeeps hfits).trans hside, ?_⟩
  rcases hcurrent.step hfits with hsame | hpublished
  · exact hsame
  · rw [hside] at hpublished
    exact hpublished

end

theorem unclaimed_run (h : Along (step p) (Uncontested p) (start side) events) :
    (events.foldl (step p) (start side)).Unclaimed := by
  have hboth := h.log_invariant
    (P := fun r heard => r.Unclaimed ∧ ∃ localNodes, r.Current localNodes heard) (hears p)
    ⟨unclaimed_start side, _, current_start side⟩ ?_
  · exact hboth.1
  · rintro r event heard hC ⟨hunclaimed, localNodes, hcurrent⟩
    refine ⟨hunclaimed.step hcurrent hC, ?_⟩
    rcases hcurrent.step hC.1 with hsame | hpublished
    · exact ⟨_, hsame⟩
    · exact ⟨_, hpublished⟩

/-- In every run in which all there is to publish fits the region, and nothing takes a UUID while it
is vouched for, contested UUIDs resolve to nobody, in whatever order the LSAs came. -/
theorem contested_resolve_to_nobody (h : Along (step p) (Uncontested p) (start side) events) :
    (events.foldl (step p) (start side)).Honest (log (step p) (hears p) (start side) events) ∧
      ∀ events', Along (step p) (Uncontested p) (start side) events' → Still events →
        Still events' →
        SameLatest (events.foldl (step p) (start side)) (events'.foldl (step p) (start side))
          (log (step p) (hears p) (start side) events)
          (log (step p) (hears p) (start side) events') →
        ∀ uuid,
          findRemoteNode (events'.foldl (step p) (start side)).lsaSnapshot uuid =
            findRemoteNode (events.foldl (step p) (start side)).lsaSnapshot uuid ∧
          ((events'.foldl (step p) (start side)).reachability.lookup uuid =
              (events.foldl (step p) (start side)).reachability.lookup uuid ∨
            (∃ hive, hive ≠ side.hiveId ∧
              claims (latest hive [] (log (step p) (hears p) (start side) events)) uuid = true) →
            (events'.foldl (step p) (start side)).tables.resolveUuid uuid =
              (events.foldl (step p) (start side)).tables.resolveUuid uuid) := by
  have hfits := h.mono fun _ _ hC => hC.1
  have hunclaimed := unclaimed_run h
  constructor
  · obtain ⟨localNodes, hcurrent⟩ := current_run hfits
    exact hcurrent.honest hunclaimed
  · intro events' h' hstill hstill' hsame uuid
    obtain ⟨hside, hcurrent⟩ := current_still hfits hstill
    obtain ⟨hside', hcurrent'⟩ := current_still (h'.mono fun _ _ hC => hC.1) hstill'
    refine ⟨hsame.findRemoteNode_eq hcurrent hcurrent' uuid, ?_⟩
    rintro (hvouched | ⟨hive, hne, hclaims⟩)
    · exact hsame.resolveUuid_eq hcurrent hcurrent' hvouched
    · -- A UUID that some LSA lists is vouched for in neither run.
      have hnone := hunclaimed.lookup_eq_none hcurrent (hside.symm ▸ hne) hclaims
      rw [← hsame.latest hive (hside.symm ▸ hne)] at hclaims
      have hnone' := (unclaimed_run h').lookup_eq_none hcurrent' (hside'.symm ▸ hne) hclaims
      exact hsame.resolveUuid_eq hcurrent hcurrent' (hnone'.trans hnone.symm)

end

/-! ### The hub, and two hives that list one UUID -/

instance (hives : List (String × RemoteHiveState)) : Decidable (Fits hives) :=
  decidable_of_iff
    (hives.length ≤ maxRemoteHives ∧
      (sectionEntries hives (·.nodes) nodeEntry).length ≤ maxRemoteNodes ∧
      (sectionEntries hives (·.routes) routeEntry).length ≤ maxRemoteRoutes ∧
      (sectionEntries hives (·.vpns) vpnEntry).length ≤ maxRemoteVpns ∧
      (sectionEntries hives (·.taps) tapEntry).length ≤ maxRemoteTaps)
    ⟨fun ⟨hcount, hnodes, hroutes, hvpns, htaps⟩ => ⟨hcount, hnodes, hroutes, hvpns, htaps⟩,
      fun h => ⟨h.count, h.nodes, h.routes, h.vpns, h.taps⟩⟩

instance (g : Gateway) : (change : GatewayEvent) → Decidable (g.Publishable change)
  | .lsa id _ _ _ => inferInstanceAs (Decidable (∀ session ∈ g.sessionIn .running id, _))
  | .markStale _ _ | .publish _ => inferInstanceAs (Decidable (Fits _))
  | .relocate side => inferInstanceAs (Decidable (side.hiveId = g.side.hiveId))
  | .accept .. | .enter _ | .fail _ | .close _ => inferInstanceAs (Decidable True)

instance (r : WanRouter) : (change : GatewayEvent) → Decidable (r.Clear change)
  | .relocate _ => inferInstanceAs (Decidable (_ ∧ ∀ uuid ∈ r.reachability.keys, _))
  | .lsa .. | .markStale .. | .publish _ | .accept .. | .enter _ | .fail _ | .close _ =>
    inferInstanceAs (Decidable (_ ∧ True))

instance (event : Event) : Decidable (r.Publishable p event) :=
  inferInstanceAs (Decidable (∀ change ∈ r.gatewayEvent p event, _))

instance (event : Event) : Decidable (r.Uncontested p event) :=
  inferInstanceAs (Decidable (_ ∧ ∀ change ∈ r.gatewayEvent p event, _))

namespace Rivals

def side : LocalSide := { Flap.side with routerName := "RT.gateway@worker", hiveId := "worker" }

/-- The hub vouches for a node of `lab`; an LSA lists one node with the same UUID. -/
def policy : WanPolicy where
  authorizeSystem _ _ _ := false
  voucherAllowed hive := hive == primaryHiveId
  lsaPayload
    | .str hive => some ⟨hive, "", "", 1, [⟨zeroUuid.hyphenated, "AI.a@" ++ hive, 0⟩], [], [], []⟩
    | _ => none
  reachabilityPayload _ :=
    some ⟨primaryHiveId, [⟨zeroUuid.hyphenated, "AI.a@lab", "lab", 0⟩]⟩

def control (id : ℕ) (kind : String) (payload : Json) : Event :=
  .frame id ⟨⟨"", none, .broadcast, 1, ""⟩, ⟨systemKind, some kind, none, none, none, none, false⟩,
    payload⟩ .noTarget 0

def sessions : List Event :=
  [.gateway (.accept "motherbee" zeroUuid "RT.gateway@motherbee"), .gateway (.enter 0),
    .gateway (.accept "edge" zeroUuid "RT.gateway@edge"), .gateway (.enter 1)]

def beacon : Event := control 0 msgWanReachability .null

def lsa (id : ℕ) (hive : String) : Event := control id msgLsa (.str hive)

/-- The beacon comes before the LSAs that list its UUID. -/
def early : List Event := sessions ++ [beacon, lsa 0 "motherbee", lsa 1 "edge"]

def late : List Event := sessions ++ [lsa 0 "motherbee", lsa 1 "edge", beacon]

def swapped : List Event := sessions ++ [lsa 1 "edge", lsa 0 "motherbee", beacon]

def run (events : List Event) : WanRouter := events.foldl (step policy) (start side)

def told (events : List Event) : List (String × List LsaNode) :=
  log (step policy) (hears policy) (start side) events

theorem current (events : List Event)
    (h : Along (step policy) (Publishable policy) (start side) events) :
    ∃ localNodes, (run events).Current localNodes (told events) := current_run h

end Rivals

open Rivals

/-- The vouched entry answers for a UUID that the latest LSAs of two hives list. -/
theorem vouched_entry_for_contested_uuid :
    (Rivals.run Rivals.early).tables.resolveUuid zeroUuid =
        some ⟨"AI.a@lab", 0, "lab", "motherbee", true⟩ ∧
      claims (latest "motherbee" [] (Rivals.told Rivals.early)) zeroUuid = true ∧
      claims (latest "edge" [] (Rivals.told Rivals.early)) zeroUuid = true := by
  obtain ⟨localNodes, hcurrent⟩ := current early (by decide +kernel)
  have hhub : claims (latest "motherbee" [] (told early)) zeroUuid = true := by
    decide +kernel
  have hedge : claims (latest "edge" [] (told early)) zeroUuid = true := by
    decide +kernel
  have hown : (run early).gateway.side.hiveId = "worker" := by decide +kernel
  have hlocal : zeroUuid ∉ (run early).gateway.side.nodeUuids := by decide +kernel
  have hnone : findRemoteNode (run early).lsaSnapshot zeroUuid = none := by
    apply hcurrent.contested (show "motherbee" ≠ "edge" by decide) _ _ hhub hedge
    · rw [hown]
      decide
    · rw [hown]
      decide
  refine ⟨?_, hhub, hedge⟩
  rw [resolveUuid_of_none hnone hlocal]
  decide +kernel

namespace Rivals

def node (hive : String) : LsaNode := ⟨zeroUuid.hyphenated, "AI.a@" ++ hive, 0⟩

theorem told_late : told late = [("motherbee", [node "motherbee"]), ("edge", [node "edge"])] := by
  decide +kernel

theorem told_swapped :
    told swapped = [("edge", [node "edge"]), ("motherbee", [node "motherbee"])] := by
  decide +kernel

theorem isStale_eq_false {state : LsaState}
    (h : ∀ e ∈ state.entries, (e.2.flags &&& flagStale != 0) = false) (hive : String) :
    isStale state hive = false := by
  unfold isStale
  cases hl : state.lookup hive with
  | none => rfl
  | some st => exact h ⟨hive, st⟩ (mem_entries_iff.mpr hl)

theorem side_run (events : List Event) (hstill : Still events)
    (h : Along (step policy) (Publishable policy) (start side) events) :
    (run events).gateway.side = side := (current_still h hstill).1

theorem sameLatest : SameLatest (run late) (run swapped) (told late) (told swapped) where
  side := by
    rw [side_run swapped (by unfold Still; decide) (by decide +kernel),
      side_run late (by unfold Still; decide) (by decide +kernel)]
  latest hive _ := by
    rw [told_late, told_swapped]
    simp only [latest, foldl_cons, foldl_nil]
    split_ifs with hhub hedge
    · exact absurd (hhub.trans hedge.symm) (by decide)
    · rfl
    · rfl
    · rfl
  stale hive _ := by
    rw [isStale_eq_false (by decide +kernel), isStale_eq_false (by decide +kernel)]

end Rivals

/-- A beacon that comes after the LSAs vouches for nothing they list, in whatever order they
came. -/
theorem contested_uuid_of_two_hives :
    (Rivals.run Rivals.late).Honest (Rivals.told Rivals.late) ∧
      claims (latest "motherbee" [] (Rivals.told Rivals.late)) zeroUuid = true ∧
      claims (latest "edge" [] (Rivals.told Rivals.late)) zeroUuid = true ∧
      (Rivals.run Rivals.swapped).tables.resolveUuid zeroUuid =
        (Rivals.run Rivals.late).tables.resolveUuid zeroUuid := by
  have hlate : Along (step policy) (Uncontested policy) (start side)
      late := by
    decide +kernel
  have hswapped : Along (step policy) (Uncontested policy) (start side)
      swapped := by
    decide +kernel
  have hedge : claims (latest "edge" [] (told late)) zeroUuid = true := by
    decide +kernel
  obtain ⟨hhonest, horder⟩ := contested_resolve_to_nobody hlate
  have hsame := horder swapped hswapped (by unfold Still; decide) (by unfold Still; decide)
    sameLatest zeroUuid
  exact ⟨hhonest, by decide +kernel, hedge, hsame.2 (.inr ⟨"edge", by decide, hedge⟩)⟩

end WanRouter

end Fluxbee.Router
