import Fluxbee.Lib.Json
import Fluxbee.Router.Names

/-! Messages as a router sees them, who may reach whom across VPNs, and the gate that a message
passes before a local node gets it. Fields of `Meta` that no function here reads are left out. -/
namespace Fluxbee.Router
open Text

inductive Destination where
  | unicast (dst : String)
  | broadcast
  | resolve
  deriving DecidableEq

structure Routing where
  src : String
  srcL2Name : Option String
  dst : Destination
  ttl : ℕ
  traceId : String
  deriving DecidableEq

/-- Of the action classes, the only one a router stamps. -/
inductive ActionClass where
  | sendMessage
  | other (label : String)
  deriving DecidableEq

structure Meta where
  msgType : String
  msg : Option String
  memoryPackage : Option Json
  (scope target : Option String)
  actionClass : Option ActionClass
  viaTap : Bool
  deriving DecidableEq

structure Message where
  routing : Routing
  info : Meta
  payload : Json
  deriving DecidableEq

def systemKind : String := "system"
def scopeGlobal : String := "global"
def edgeControlAuthority : String := "SY.admin@motherbee"

def msgUnreachable : String := "UNREACHABLE"
def msgTtlExceeded : String := "TTL_EXCEEDED"
def msgLsa : String := "LSA"
def msgWanReachability : String := "WAN_REACHABILITY"
def msgOpaReload : String := "OPA_RELOAD"
def msgVaultGet : String := "VAULT_GET"
def msgVaultGetResponse : String := "VAULT_GET_RESPONSE"
def msgVaultSecretChanged : String := "VAULT_SECRET_CHANGED"

def isSystemKind (msgType : String) : Bool := eqIgnoreAsciiCase msgType systemKind

section
variable (info : Meta)

def isGlobalScope : Bool := info.scope == some scopeGlobal

def edgeServiceCommands : List String :=
  ["EDGE_OPEN_URL", "EDGE_CLOSE_URL", "EDGE_LIST_URLS", "EDGE_PUBLISH_BLOB", "EDGE_UNPUBLISH_BLOB",
    "EDGE_TLS_STATUS", "EDGE_TLS_RELOAD", "EDGE_ACME_CHALLENGE", "EDGE_WEB_ROUTES"]

def edgeServiceResponses : List String := edgeServiceCommands.map (· ++ "_RESPONSE")

def isEdgeServiceControlMessage (dstName : String) : Bool :=
  isEdgeNode dstName && isSystemKind info.msgType && info.msg.any (edgeServiceCommands.contains ·)

section
variable (srcName dstName : String)

def edgeServiceControlAllowed : Bool :=
  isEdgeServiceControlMessage info dstName && srcName == edgeControlAuthority

def edgeServiceControlResponseAllowed : Bool :=
  isEdgeNode srcName && dstName == edgeControlAuthority && isSystemKind info.msgType &&
    info.msg.any (edgeServiceResponses.contains ·)

def edgeDataPathAllowed : Bool :=
  if isSystemKind info.msgType then false
  else isEdgeNode srcName && isIoNode dstName || isIoNode srcName && isEdgeNode dstName

def edgeVaultReadAllowed : Bool :=
  if !isSystemKind info.msgType then false
  else if info.msg = some msgVaultGet then isEdgeNode srcName && isVaultNode dstName
  else if info.msg = some msgVaultGetResponse then isVaultNode srcName && isEdgeNode dstName
  else false

def edgeVaultNoticeAllowed : Bool :=
  isSystemKind info.msgType && info.msg == some msgVaultSecretChanged &&
    splitOnce '@' srcName == some ("SY.vault", primaryHiveId) && isEdgeNode dstName

end

section
variable (srcName : String) (srcVpn : ℕ) (dstName : String) (dstVpn : ℕ)

def vpnAllowsBetween : Bool :=
  if isEdgeNode srcName || isEdgeNode dstName then
    if isEdgeServiceControlMessage info dstName then edgeServiceControlAllowed info srcName dstName
    else edgeServiceControlResponseAllowed info srcName dstName ||
      edgeDataPathAllowed info srcName dstName || edgeVaultReadAllowed info srcName dstName ||
      edgeVaultNoticeAllowed info srcName dstName
  else if isSystemKind info.msgType && isGlobalScope info then true
  else if isSystemNode srcName || isSystemNode dstName then true
  else srcVpn == dstVpn

def vpnAllowsBroadcastBetween : Bool :=
  !edgeVaultNoticeAllowed info srcName dstName &&
    vpnAllowsBetween info srcName srcVpn dstName dstVpn

end

end

def protectedSystemActions : List String :=
  ["SYSTEM_UPDATE", "SYSTEM_CORE_ROLLBACK", "SYSTEM_SYNC_HINT", "EDGE_OPEN_URL", "EDGE_CLOSE_URL",
    "EDGE_LIST_URLS", "EDGE_PUBLISH_BLOB", "EDGE_UNPUBLISH_BLOB", "EDGE_TLS_STATUS",
    "EDGE_TLS_RELOAD", "EDGE_ACME_CHALLENGE", "EDGE_WEB_ROUTES", "SPAWN_NODE", "KILL_NODE",
    "START_NODE", "RESTART_NODE", "REMOVE_NODE_INSTANCE", "NODE_CONFIG_SET", "NODE_CONFIG_GET",
    "CONFIG_SET", "CONFIG_GET", "NODE_STATE_GET", "NODE_STATUS_GET", "NODE_HELP", "GET_VERSIONS",
    "GET_RUNTIMES", "GET_RUNTIME", "LIST_NODES", "INVENTORY_REQUEST", "ADD_HIVE_FINALIZE",
    "REMOVE_HIVE_CLEANUP", "CONFIG_CHANGED"]

/-- The protected action that a verb names, in any case and with any spaces around it. -/
def protectedSystemAction (action : String) : Option String :=
  protectedSystemActions.find? fun protected_ => eqIgnoreAsciiCase protected_ (trim action)

def classifyRoutedMessage (msgType : String) : Option ActionClass :=
  if msgType ∈ ["system", "admin", "query_response"] then none else some .sendMessage

def Message.verb (msg : Message) : String := msg.info.msg.getD ""

/-- The stamps of a delivery: the action class, and no memory package of the sender's. -/
def Message.stamped (msg : Message) : Message :=
  { msg with info :=
    { msg.info with
      actionClass := msg.info.actionClass.or (classifyRoutedMessage msg.info.msgType)
      memoryPackage := none } }

section
-- The system policy's decision on an action, the sender's name and this hive.
variable (authorizeSystem : String → Option String → String → Bool)

/-- The authority gate of a delivery; nothing when it drops the message. -/
def prepareLocalDelivery (hiveId : String) (msg : Message) (srcViaHub : Bool) : Option Message :=
  match protectedSystemAction msg.verb with
  | some action =>
    if !srcViaHub && !msg.info.viaTap && authorizeSystem action msg.routing.srcL2Name hiveId then
      some msg.stamped
    else none
  | none => some msg.stamped

variable {hiveId : String}

section
variable {msg prepared : Message} {viaHub : Bool}
  (h : prepareLocalDelivery authorizeSystem hiveId msg viaHub = some prepared)
include h

theorem prepareLocalDelivery_authorized {action : String}
    (haction : protectedSystemAction msg.verb = some action) :
    viaHub = false ∧ authorizeSystem action msg.routing.srcL2Name hiveId = true := by
  simp only [prepareLocalDelivery, haction] at h
  split_ifs at h with hgate
  simp only [Bool.and_eq_true, Bool.not_eq_true'] at hgate
  exact ⟨hgate.1.1, hgate.2⟩

theorem prepareLocalDelivery_stamped : prepared = msg.stamped := by
  unfold prepareLocalDelivery at h
  split at h
  · split_ifs at h
    exact (Option.some.inj h).symm
  · exact (Option.some.inj h).symm

end

end

end Fluxbee.Router
