import Fluxbee.Router.Fib

/-! Link state: what the hives advertise of themselves, how a gateway takes it in, and how it
publishes all of it in its region. The time a router reads off its clock is an argument; a
payload's timestamp, which only this router's own payload is read back for, is that time. -/
namespace Fluxbee.Router
open Text Shm Lsa

structure LsaNode where
  (uuid name : String)
  vpnId : ℕ
  deriving DecidableEq

structure LsaRoute where
  (front matchKind action nextHopHive : String)
  metric : ℕ
  deriving DecidableEq

structure LsaVpn where
  (pattern matchKind : String)
  vpnId : ℕ
  deriving DecidableEq

structure LsaTap where
  (matchSrc matchDst target mode : String)
  enabled : Bool
  deriving DecidableEq

structure LsaPayload where
  (hive routerId routerName : String)
  seq : ℕ
  nodes : List LsaNode
  routes : List LsaRoute
  vpns : List LsaVpn
  taps : List LsaTap

structure RemoteHiveState where
  sessionEpoch : ℕ := 0
  lastSeq : ℕ := 0
  lastUpdated : ℕ := 0
  flags : UInt16 := 0
  routerUuid : Uuid := zeroUuid
  routerName : String := ""
  nodes : List LsaNode := []
  routes : List LsaRoute := []
  vpns : List LsaVpn := []
  taps : List LsaTap := []
  deriving DecidableEq

abbrev LsaState := AList fun _ : String => RemoteHiveState

inductive LsaApplyResult where
  | applied (foreignNodes duplicateUuids : List String)
  | rejected (reason payloadHive : String) (seq lastSeq sessionEpoch : ℕ)

def LsaApplyResult.isApplied : LsaApplyResult → Bool
  | .applied _ _ => true
  | .rejected .. => false

def lsaRejectHiveMismatch : String := "hive_mismatch"
def lsaRejectStaleSeq : String := "stale_seq"
def lsaRejectParseError : String := "parse_error"

/-! ### Taking an advertisement in -/

def listedElsewhere (state : LsaState) (hive : String) : List Uuid :=
  (state.entries.filter (·.1 ≠ hive)).flatMap fun e => e.2.nodes.filterMap (Uuid.parseStr ·.uuid)

/-- The state of the session's hive, started over where the session is another one. -/
def sessionEntry (state : LsaState) (hive : String) (sessionEpoch : ℕ) : RemoteHiveState :=
  let stored := (state.lookup hive).getD {}
  if stored.sessionEpoch ≠ sessionEpoch then { stored with sessionEpoch, lastSeq := 0 } else stored

def payloadRouter (payload : LsaPayload) (peerRouterUuid : Uuid) : Option Uuid :=
  if payload.routerId = "" then some peerRouterUuid else Uuid.parseStr payload.routerId

def LsaNode.takes (node : LsaNode) (uuids : List Uuid) : Bool :=
  (Uuid.parseStr node.uuid).any (uuids.contains ·)

def applyLsaPayload (state : LsaState) (localUuids : List Uuid) (expectedHive : String)
    (peerRouterUuid : Uuid) (peerRouterName : String) (sessionEpoch : ℕ) (payload : LsaPayload)
    (now : ℕ) : LsaState × LsaApplyResult :=
  if payload.hive ≠ expectedHive then
    (state, .rejected lsaRejectHiveMismatch payload.hive payload.seq 0 sessionEpoch)
  else
    let elsewhere := listedElsewhere state expectedHive
    let entry := sessionEntry state expectedHive sessionEpoch
    -- The entry is there from now on, whatever becomes of the payload.
    let opened := state.insert expectedHive entry
    if payload.seq ≤ entry.lastSeq then
      (opened, .rejected lsaRejectStaleSeq payload.hive payload.seq entry.lastSeq
        entry.sessionEpoch)
    else match payloadRouter payload peerRouterUuid with
      | none =>
        (opened, .rejected lsaRejectParseError payload.hive payload.seq entry.lastSeq
          entry.sessionEpoch)
      | some routerUuid =>
        let foreign := payload.nodes.filter (!nodeIsOnHive ·.name expectedHive)
        let own := payload.nodes.filter (nodeIsOnHive ·.name expectedHive)
        let duplicates := own.filter fun node => node.takes localUuids || node.takes elsewhere
        (state.insert expectedHive
          { sessionEpoch := entry.sessionEpoch
            lastSeq := payload.seq
            lastUpdated := now
            flags := entry.flags &&& ~~~flagStale
            routerUuid
            routerName := if payload.routerName = "" then peerRouterName else payload.routerName
            nodes := own.filter (!·.takes localUuids)
            routes := payload.routes
            vpns := payload.vpns
            taps := payload.taps },
          .applied (foreign.map LsaNode.name) (duplicates.map LsaNode.name))

/-- What an advertisement leaves of the state, and whether it is taken in. -/
inductive LsaChange (state : LsaState) (hive : String) (epoch : ℕ) (payload : LsaPayload) :
    LsaState → Bool → Prop
  | mismatch {after : LsaState} {applied : Bool} : payload.hive ≠ hive → after = state →
      applied = false → LsaChange state hive epoch payload after applied
  | refused {after : LsaState} {applied : Bool} : payload.hive = hive →
      after = state.insert hive (sessionEntry state hive epoch) → applied = false →
      LsaChange state hive epoch payload after applied
  | applied {after : LsaState} {applied : Bool} {entry : RemoteHiveState} : payload.hive = hive →
      after = state.insert hive entry → applied = true →
      (sessionEntry state hive epoch).lastSeq < payload.seq →
      entry.sessionEpoch = (sessionEntry state hive epoch).sessionEpoch →
      entry.lastSeq = payload.seq →
      (∀ node ∈ entry.nodes, node ∈ payload.nodes ∧ nodeIsOnHive node.name hive = true) →
      LsaChange state hive epoch payload after applied

theorem applyLsaPayload_change (state : LsaState) (localUuids : List Uuid) (hive : String)
    (peerRouterUuid : Uuid) (peerRouterName : String) (epoch : ℕ) (payload : LsaPayload) (now : ℕ) :
    LsaChange state hive epoch payload
      (applyLsaPayload state localUuids hive peerRouterUuid peerRouterName epoch payload now).1
      (applyLsaPayload state localUuids hive peerRouterUuid peerRouterName epoch payload
        now).2.isApplied := by
  unfold applyLsaPayload
  by_cases hhive : payload.hive = hive
  · rw [if_neg (not_not.mpr hhive)]
    by_cases hseq : payload.seq ≤ (sessionEntry state hive epoch).lastSeq
    · rw [if_pos hseq]
      exact .refused hhive rfl rfl
    · rw [if_neg hseq]
      cases payloadRouter payload peerRouterUuid with
      | none => exact .refused hhive rfl rfl
      | some routerUuid =>
        refine .applied hhive rfl rfl (Nat.lt_of_not_le hseq) rfl rfl ?_
        intro node hnode
        obtain ⟨hown, -⟩ := List.mem_filter.mp hnode
        exact List.mem_filter.mp hown
  · rw [if_pos hhive]
    exact .mismatch hhive rfl rfl

theorem sessionEntry_sessionEpoch (state : LsaState) (hive : String) (epoch : ℕ) :
    (sessionEntry state hive epoch).sessionEpoch = epoch := by
  unfold sessionEntry
  dsimp only
  split_ifs with h
  · rfl
  · exact not_not.mp h

theorem sessionEntry_nodes (state : LsaState) (hive : String) (epoch : ℕ) :
    (sessionEntry state hive epoch).nodes = ((state.lookup hive).getD {}).nodes := by
  unfold sessionEntry
  dsimp only
  split_ifs
  · rfl
  · rfl

/-! ### This hive's own advertisement -/

structure VpnAssignment where
  pattern : List UInt8
  patternLen : ℕ
  matchKind : UInt8
  (vpnId priority : ℕ)
  flags : UInt16

structure TapEntry where
  matchSrc : List UInt8
  matchSrcLen : ℕ
  matchDst : List UInt8
  matchDstLen : ℕ
  target : List UInt8
  targetLen : ℕ
  (mode enabled : UInt8)
  flags : UInt16

/-- The router and what it knows of its own hive. -/
structure LocalSide where
  routerUuid : Uuid
  (routerName hiveId : String)
  nodes : Nodes
  peerNodes : PeerNodes
  staticRoutes : List StaticRoute
  vpnRules : List VpnAssignment
  tapRules : List TapEntry
  lsaSeq : ℕ

section
variable (side : LocalSide)

def LocalSide.nodeUuids : List Uuid := side.nodes.keys ++ side.peerNodes.keys

def matchKindLabel (kind : UInt8) : String :=
  if kind = matchExact then "EXACT" else if kind = matchPrefix then "PREFIX"
  else if kind = matchGlob then "GLOB" else "PREFIX"

def matchKindFromLabel (label : String) : Option UInt8 :=
  if eqIgnoreAsciiCase label "EXACT" then some matchExact
  else if eqIgnoreAsciiCase label "PREFIX" then some matchPrefix
  else if eqIgnoreAsciiCase label "GLOB" then some matchGlob
  else none

def actionLabel (action : UInt8) : String := if action = actionDrop then "DROP" else "FORWARD"

def actionFromLabel (label : String) : Option UInt8 :=
  if eqIgnoreAsciiCase label "DROP" then some actionDrop
  else if eqIgnoreAsciiCase label "FORWARD" then some actionForward
  else none

def tapModeLabel (_mode : UInt8) : String := "best_effort"

def tapModeFromLabel (label : String) : Option UInt8 :=
  if trim label = "" ∨ eqIgnoreAsciiCase (trim label) "best_effort" then some 0 else none

def localLsaNodes (nodes : Nodes) (peerNodes : PeerNodes) : List LsaNode :=
  let own : AList fun _ : Uuid => LsaNode := nodes.entries.foldl
    (fun m e => m.insert e.1 ⟨e.1.hyphenated, e.2.name, e.2.vpnId⟩) ∅
  (peerNodes.entries.foldl (fun m e => m.insert e.1 ⟨e.1.hyphenated, e.2.name, e.2.vpnId⟩)
    own).values

def localLsaVpn (vpn : VpnAssignment) : Option LsaVpn :=
  if vpn.patternLen = 0 then none
  else if vpn.flags ≠ 0 ∧ vpn.flags &&& flagActive = 0 then none
  else some ⟨bytesToString vpn.pattern vpn.patternLen, matchKindLabel vpn.matchKind, vpn.vpnId⟩

def localLsaTap (tap : TapEntry) : Option LsaTap :=
  if tap.enabled = 0 ∨ tap.matchSrcLen = 0 ∨ tap.matchDstLen = 0 ∨ tap.targetLen = 0 then none
  else if tap.flags ≠ 0 ∧ tap.flags &&& flagActive = 0 then none
  else some ⟨bytesToString tap.matchSrc tap.matchSrcLen, bytesToString tap.matchDst tap.matchDstLen,
    bytesToString tap.target tap.targetLen, tapModeLabel tap.mode, tap.enabled ≠ 0⟩

def buildLocalLsaPayload : LsaPayload where
  hive := side.hiveId
  routerId := side.routerUuid.hyphenated
  routerName := side.routerName
  seq := side.lsaSeq
  nodes := localLsaNodes side.nodes side.peerNodes
  routes := side.staticRoutes.map fun route =>
    ⟨route.pattern, matchKindLabel route.matchKind, actionLabel route.action, route.nextHopHive,
      route.metric⟩
  vpns := side.vpnRules.filterMap localLsaVpn
  taps := side.tapRules.filterMap localLsaTap

/-! ### Publishing all of it -/

def selfState (now : ℕ) : RemoteHiveState :=
  let payload := buildLocalLsaPayload side
  { sessionEpoch := 0, lastSeq := payload.seq, lastUpdated := now
    flags := flagActive ||| hiveFlagSelf, routerUuid := side.routerUuid
    routerName := side.routerName, nodes := payload.nodes, routes := payload.routes
    vpns := payload.vpns, taps := payload.taps }

def otherHives (state : LsaState) : List (String × RemoteHiveState) :=
  ((state.entries.filter (·.1 ≠ side.hiveId)).map fun e => (e.1, e.2)).insertionSort
    fun a b => a.1 ≤ b.1

def publishedHives (state : LsaState) (now : ℕ) : List (String × RemoteHiveState) :=
  (side.hiveId, selfState side now) :: otherHives side state

end

def hiveEntry (hiveId : String) (state : RemoteHiveState) : RemoteHiveEntry :=
  let id := copyBytesWithLen (zeroBytes 64) hiveId
  let router := copyBytesWithLen (zeroBytes 64) state.routerName
  { hiveId := id.1, hiveIdLen := id.2, routerUuid := state.routerUuid, routerName := router.1
    routerNameLen := router.2, lastLsaSeq := state.lastSeq, lastUpdated := state.lastUpdated
    flags := state.flags, nodeCount := state.nodes.length, routeCount := state.routes.length
    vpnCount := state.vpns.length, tapCount := state.taps.length }

section
variable (index : UInt16)

def nodeEntry (node : LsaNode) : Option RemoteNodeEntry :=
  (Uuid.parseStr node.uuid).map fun uuid =>
    let name := copyBytesWithLen (zeroBytes 256) node.name
    ⟨uuid, name.1, name.2, node.vpnId, index, flagActive⟩

def routeEntry (route : LsaRoute) : Option RemoteRouteEntry :=
  (matchKindFromLabel route.matchKind).bind fun matchKind =>
    (actionFromLabel route.action).map fun action =>
      let front := copyBytesWithLen (zeroBytes 256) route.front
      let nextHop := copyBytesWithLen (zeroBytes 32) route.nextHopHive
      ⟨front.1, front.2, matchKind, action, nextHop.1, nextHop.2, route.metric, 0, flagActive,
        index⟩

def vpnEntry (vpn : LsaVpn) : Option RemoteVpnEntry :=
  (matchKindFromLabel vpn.matchKind).map fun matchKind =>
    let pattern := copyBytesWithLen (zeroBytes 256) vpn.pattern
    ⟨pattern.1, pattern.2, matchKind, vpn.vpnId, 0, flagActive, index⟩

def tapEntry (tap : LsaTap) : Option RemoteTapEntry :=
  (tapModeFromLabel tap.mode).map fun mode =>
    let src := copyBytesWithLen (zeroBytes 256) tap.matchSrc
    let dst := copyBytesWithLen (zeroBytes 256) tap.matchDst
    let target := copyBytesWithLen (zeroBytes 256) tap.target
    ⟨src.1, src.2, dst.1, dst.2, target.1, target.2, mode, if tap.enabled then 1 else 0,
      flagActive, index⟩

end

def sectionEntries {α β : Type} (hives : List (String × RemoteHiveState))
    (rows : RemoteHiveState → List α) (entry : UInt16 → α → Option β) : List β :=
  hives.zipIdx.flatMap fun (hive, index) => (rows hive.2).filterMap (entry (UInt16.ofNat index))

def writeLsaState (region : LsaRegion) (side : LocalSide) (state : LsaState) (now : ℕ) :
    LsaRegion × Except ShmError Unit :=
  let hives := publishedHives side state now
  region.writeSnapshot (hives.map fun hive => hiveEntry hive.1 hive.2)
    (sectionEntries hives (·.nodes) nodeEntry) (sectionEntries hives (·.routes) routeEntry)
    (sectionEntries hives (·.vpns) vpnEntry) (sectionEntries hives (·.taps) tapEntry)

end Fluxbee.Router
