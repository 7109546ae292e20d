import Fluxbee.Lib.Seqlock
import Fluxbee.Shm.RouterRegion

/-! The four snapshot readers as programs of single loads. Header fields are words;
entries and texts are loaded byte by byte, the finest a copy can be interleaved. -/
namespace Fluxbee.Shm
open Seqlock
open RouterShm (maxNodes)

abbrev EntryBytes := List UInt8

section
variable {Cell : Type} {Val : Cell → Type}

def loadBytes (size : ℕ) (load : Fin size → Loads Val UInt8) : Loads Val EntryBytes :=
  Loads.each load (List.finRange size)

def loadEntries (max size count : ℕ) (load : Fin max → Fin size → Loads Val UInt8) :
    Loads Val (List EntryBytes) :=
  Loads.each (fun i => loadBytes size (load i)) ((List.finRange max).take count)

@[simp] theorem eval_loadEntries (cells : ∀ c, Val c) (max size count : ℕ)
    (load : Fin max → Fin size → Loads Val UInt8) :
    (loadEntries max size count load).eval cells = ((List.finRange max).take count).map fun i =>
        (List.finRange size).map fun b => (load i b).eval cells := by
  simp [loadEntries, loadBytes]

end

def readString (bytes : List UInt8) : String := (String.fromUTF8? ⟨bytes.toArray⟩).getD ""

def nodeEntrySize : ℕ := 328

inductive RouterCell where
  | nodeCount
  | routerUuid (b : Fin 16)
  | routerName (b : Fin 64)
  | routerNameLen
  | hiveId (b : Fin 64)
  | hiveIdLen
  | isGateway
  | heartbeat
  | generation
  | opaPolicyVersion
  | opaLoadStatus
  | node (i : Fin maxNodes) (b : Fin nodeEntrySize)
  deriving DecidableEq

abbrev RouterCell.Val : RouterCell → Type
  | .nodeCount => UInt32
  | .routerUuid _ | .routerName _ | .hiveId _ | .isGateway | .opaLoadStatus | .node _ _ => UInt8
  | .routerNameLen | .hiveIdLen => UInt16
  | .heartbeat | .generation | .opaPolicyVersion => UInt64

def RouterCell.load (c : RouterCell) : Loads RouterCell.Val c.Val := Loads.get c

structure ShmHeaderSnapshot where
  routerUuid : List UInt8
  (routerName hiveId : String)
  isGateway : Bool
  nodeCount : UInt32
  (heartbeat generation opaPolicyVersion : UInt64)
  opaLoadStatus : UInt8

structure ShmSnapshot where
  header : ShmHeaderSnapshot
  nodes : List EntryBytes

def nodeFlagsLow : Fin nodeEntrySize := ⟨280, by decide⟩
def nodeFlagsHigh : Fin nodeEntrySize := ⟨281, by decide⟩

def loadNodeFlags (i : Fin maxNodes) : Loads RouterCell.Val UInt16 := do
  let low : UInt8 ← RouterCell.load (.node i nodeFlagsLow)
  let high : UInt8 ← RouterCell.load (.node i nodeFlagsHigh)
  pure (low.toUInt16 ||| high.toUInt16 <<< 8)

def loadActiveNodes (nodeCount : ℕ) :
    List (Fin maxNodes) → List EntryBytes → Loads RouterCell.Val (List EntryBytes)
  | [], nodes => pure nodes
  | i :: rest, nodes =>
    if nodes.length ≥ nodeCount then pure nodes
    else do
      let flags ← loadNodeFlags i
      if flags &&& flagActive ≠ 0 then do
        let entry ← loadBytes nodeEntrySize fun b => RouterCell.load (.node i b)
        loadActiveNodes nodeCount rest (nodes ++ [entry])
      else loadActiveNodes nodeCount rest nodes

def loadText (len : Loads RouterCell.Val UInt16) (byte : Fin 64 → Loads RouterCell.Val UInt8) :
    Loads RouterCell.Val String := do
  let used ← len
  let bytes ← Loads.each byte ((List.finRange 64).take used.toNat)
  pure (readString bytes)

/-- The window of `read_router_snapshot`; it loads nothing outside it. -/
def routerBody : Loads RouterCell.Val (Option ShmSnapshot) := do
  let nodeCount : UInt32 ← RouterCell.load .nodeCount
  let nodes ← loadActiveNodes nodeCount.toNat (List.finRange maxNodes) []
  let routerUuid ← loadBytes 16 fun b => RouterCell.load (.routerUuid b)
  let routerName ← loadText (RouterCell.load .routerNameLen) fun b => RouterCell.load (.routerName b)
  let hiveId ← loadText (RouterCell.load .hiveIdLen) fun b => RouterCell.load (.hiveId b)
  let isGateway : UInt8 ← RouterCell.load .isGateway
  let heartbeat : UInt64 ← RouterCell.load .heartbeat
  let generation : UInt64 ← RouterCell.load .generation
  let opaPolicyVersion : UInt64 ← RouterCell.load .opaPolicyVersion
  let opaLoadStatus : UInt8 ← RouterCell.load .opaLoadStatus
  pure (some ⟨⟨routerUuid, routerName, hiveId, isGateway != 0, nodeCount, heartbeat, generation,
    opaPolicyVersion, opaLoadStatus⟩, nodes⟩)

def readRouterSnapshot : Reader RouterCell.Val ShmSnapshot ShmSnapshot := ⟨routerBody, .ret⟩

def maxConfigEntries : ℕ := 256
def staticRouteEntrySize : ℕ := 320
def vpnAssignmentSize : ℕ := 288
def tapEntrySize : ℕ := 840

inductive ConfigCell where
  | staticRouteCount
  | vpnAssignmentCount
  | tapCount
  | configVersion
  | heartbeat
  | updatedAt
  | route (i : Fin maxConfigEntries) (b : Fin staticRouteEntrySize)
  | vpn (i : Fin maxConfigEntries) (b : Fin vpnAssignmentSize)
  | tap (i : Fin maxConfigEntries) (b : Fin tapEntrySize)
  deriving DecidableEq

abbrev ConfigCell.Val : ConfigCell → Type
  | .staticRouteCount | .vpnAssignmentCount | .tapCount => UInt32
  | .configVersion | .heartbeat | .updatedAt => UInt64
  | .route _ _ | .vpn _ _ | .tap _ _ => UInt8

def ConfigCell.load (c : ConfigCell) : Loads ConfigCell.Val c.Val := Loads.get c

structure ConfigHeaderSnapshot where
  (staticRouteCount vpnAssignmentCount : UInt32)
  (configVersion heartbeat : UInt64)
  tapCount : UInt32

structure ConfigEntries where
  (routes vpns taps : List EntryBytes)

structure ConfigSnapshot extends ConfigEntries where
  header : ConfigHeaderSnapshot

def configBody : Loads ConfigCell.Val (Option ConfigEntries) := do
  let routeCount : UInt32 ← ConfigCell.load .staticRouteCount
  let vpnCount : UInt32 ← ConfigCell.load .vpnAssignmentCount
  let tapCount : UInt32 ← ConfigCell.load .tapCount
  let routes ← loadEntries maxConfigEntries staticRouteEntrySize routeCount.toNat
    fun i b => ConfigCell.load (.route i b)
  let vpns ← loadEntries maxConfigEntries vpnAssignmentSize vpnCount.toNat
    fun i b => ConfigCell.load (.vpn i b)
  let taps ← loadEntries maxConfigEntries tapEntrySize tapCount.toNat
    fun i b => ConfigCell.load (.tap i b)
  pure (some ⟨routes, vpns, taps⟩)

def configTail (entries : ConfigEntries) : Loads ConfigCell.Val ConfigSnapshot := do
  let staticRouteCount : UInt32 ← ConfigCell.load .staticRouteCount
  let vpnAssignmentCount : UInt32 ← ConfigCell.load .vpnAssignmentCount
  let configVersion : UInt64 ← ConfigCell.load .configVersion
  let heartbeat : UInt64 ← ConfigCell.load .heartbeat
  let tapCount : UInt32 ← ConfigCell.load .tapCount
  pure ⟨entries, ⟨staticRouteCount, vpnAssignmentCount, configVersion, heartbeat, tapCount⟩⟩

def readConfigSnapshot : Reader ConfigCell.Val ConfigEntries ConfigSnapshot :=
  ⟨configBody, configTail⟩

def maxRemoteHives : ℕ := 16
def maxRemoteNodes : ℕ := 1024
def maxRemoteEntries : ℕ := 256
def remoteHiveEntrySize : ℕ := 192
def remoteNodeEntrySize : ℕ := 292
def remoteRouteEntrySize : ℕ := 320
def remoteVpnEntrySize : ℕ := 288
def remoteTapEntrySize : ℕ := 836

inductive LsaCell where
  | hiveCount
  | totalNodeCount
  | totalRouteCount
  | totalVpnCount
  | totalTapCount
  | heartbeat
  | updatedAt
  | hive (i : Fin maxRemoteHives) (b : Fin remoteHiveEntrySize)
  | node (i : Fin maxRemoteNodes) (b : Fin remoteNodeEntrySize)
  | route (i : Fin maxRemoteEntries) (b : Fin remoteRouteEntrySize)
  | vpn (i : Fin maxRemoteEntries) (b : Fin remoteVpnEntrySize)
  | tap (i : Fin maxRemoteEntries) (b : Fin remoteTapEntrySize)
  deriving DecidableEq

abbrev LsaCell.Val : LsaCell → Type
  | .hiveCount | .totalNodeCount | .totalRouteCount | .totalVpnCount | .totalTapCount => UInt32
  | .heartbeat | .updatedAt => UInt64
  | .hive _ _ | .node _ _ | .route _ _ | .vpn _ _ | .tap _ _ => UInt8

def LsaCell.load (c : LsaCell) : Loads LsaCell.Val c.Val := Loads.get c

structure LsaHeaderSnapshot where
  (hiveCount totalNodeCount totalRouteCount totalVpnCount totalTapCount : UInt32)
  heartbeat : UInt64

structure LsaEntries where
  (hives nodes routes vpns taps : List EntryBytes)

structure LsaSnapshot extends LsaEntries where
  header : LsaHeaderSnapshot

def lsaBody : Loads LsaCell.Val (Option LsaEntries) := do
  let hiveCount : UInt32 ← LsaCell.load .hiveCount
  let totalNodes : UInt32 ← LsaCell.load .totalNodeCount
  let totalRoutes : UInt32 ← LsaCell.load .totalRouteCount
  let totalVpns : UInt32 ← LsaCell.load .totalVpnCount
  let totalTaps : UInt32 ← LsaCell.load .totalTapCount
  let hives ← loadEntries maxRemoteHives remoteHiveEntrySize hiveCount.toNat
    fun i b => LsaCell.load (.hive i b)
  let nodes ← loadEntries maxRemoteNodes remoteNodeEntrySize totalNodes.toNat
    fun i b => LsaCell.load (.node i b)
  let routes ← loadEntries maxRemoteEntries remoteRouteEntrySize totalRoutes.toNat
    fun i b => LsaCell.load (.route i b)
  let vpns ← loadEntries maxRemoteEntries remoteVpnEntrySize totalVpns.toNat
    fun i b => LsaCell.load (.vpn i b)
  let taps ← loadEntries maxRemoteEntries remoteTapEntrySize totalTaps.toNat
    fun i b => LsaCell.load (.tap i b)
  pure (some ⟨hives, nodes, routes, vpns, taps⟩)

def lsaTail (entries : LsaEntries) : Loads LsaCell.Val LsaSnapshot := do
  let hiveCount : UInt32 ← LsaCell.load .hiveCount
  let totalNodeCount : UInt32 ← LsaCell.load .totalNodeCount
  let totalRouteCount : UInt32 ← LsaCell.load .totalRouteCount
  let totalVpnCount : UInt32 ← LsaCell.load .totalVpnCount
  let totalTapCount : UInt32 ← LsaCell.load .totalTapCount
  let heartbeat : UInt64 ← LsaCell.load .heartbeat
  pure ⟨entries, ⟨hiveCount, totalNodeCount, totalRouteCount, totalVpnCount, totalTapCount,
    heartbeat⟩⟩

def readLsaSnapshot : Reader LsaCell.Val LsaEntries LsaSnapshot := ⟨lsaBody, lsaTail⟩

def tenantEntrySize : ℕ := 320
def ilkEntrySize : ℕ := 1160
def ichEntrySize : ℕ := 488
def ichMappingEntrySize : ℕ := 384
def ilkAliasEntrySize : ℕ := 64
def vocabularyEntrySize : ℕ := 232

inductive IdentityCell (S : Sections) where
  | tenantCount
  | ilkCount
  | ichCount
  | ichMappingCount
  | vocabularyCount
  | ilkAliasCount
  | maxIlks
  | maxTenants
  | maxIchs
  | maxIchMappings
  | maxVocabulary
  | maxIlkAliases
  | heartbeat
  | updatedAt
  | tenant (i : Fin S.tenants) (b : Fin tenantEntrySize)
  | ilk (i : Fin S.ilks) (b : Fin ilkEntrySize)
  | ich (i : Fin S.ichs) (b : Fin ichEntrySize)
  | ichMapping (i : Fin S.mappings) (b : Fin ichMappingEntrySize)
  | ilkAlias (i : Fin S.aliases) (b : Fin ilkAliasEntrySize)
  | vocabulary (i : Fin S.vocabulary) (b : Fin vocabularyEntrySize)
  deriving DecidableEq

section
variable (S : Sections)

abbrev IdentityCell.Val : IdentityCell S → Type
  | .tenantCount | .ilkCount | .ichCount | .ichMappingCount | .vocabularyCount
  | .ilkAliasCount => UInt32
  | .maxIlks | .maxTenants | .maxIchs | .maxIchMappings | .maxVocabulary
  | .maxIlkAliases => UInt32
  | .heartbeat | .updatedAt => UInt64
  | .tenant _ _ | .ilk _ _ | .ich _ _ | .ichMapping _ _ | .ilkAlias _ _
  | .vocabulary _ _ => UInt8

def IdentityCell.load (c : IdentityCell S) : Loads (IdentityCell.Val S) (IdentityCell.Val S c) :=
  Loads.get c

structure IdentityHeaderSnapshot where
  (tenantCount ilkCount ichCount ichMappingCount vocabularyCount ilkAliasCount maxIlks : UInt32)
  (maxTenants maxIchs maxIchMappings maxVocabulary maxIlkAliases : UInt32)
  (heartbeat updatedAt : UInt64)

structure IdentityEntries where
  (tenants ilks ichs ichMappings ilkAliases vocabulary : List EntryBytes)

structure IdentitySnapshot extends IdentityEntries where
  header : IdentityHeaderSnapshot

/-- A count above its section's size ends the read at once, as an invalid header. -/
def identityBody : Loads (IdentityCell.Val S) (Option IdentityEntries) := do
  let tenantCount : UInt32 ← IdentityCell.load S .tenantCount
  let ilkCount : UInt32 ← IdentityCell.load S .ilkCount
  let ichCount : UInt32 ← IdentityCell.load S .ichCount
  let ichMappingCount : UInt32 ← IdentityCell.load S .ichMappingCount
  let vocabularyCount : UInt32 ← IdentityCell.load S .vocabularyCount
  let ilkAliasCount : UInt32 ← IdentityCell.load S .ilkAliasCount
  if tenantCount.toNat > S.tenants ∨ ilkCount.toNat > S.ilks ∨ ichCount.toNat > S.ichs ∨
      ichMappingCount.toNat > S.mappings ∨ vocabularyCount.toNat > S.vocabulary ∨
      ilkAliasCount.toNat > S.aliases then
    pure none
  else do
    let tenants ← loadEntries S.tenants tenantEntrySize tenantCount.toNat
      fun i b => IdentityCell.load S (.tenant i b)
    let ilks ← loadEntries S.ilks ilkEntrySize ilkCount.toNat
      fun i b => IdentityCell.load S (.ilk i b)
    let ichs ← loadEntries S.ichs ichEntrySize ichCount.toNat
      fun i b => IdentityCell.load S (.ich i b)
    let ichMappings ← loadEntries S.mappings ichMappingEntrySize ichMappingCount.toNat
      fun i b => IdentityCell.load S (.ichMapping i b)
    let ilkAliases ← loadEntries S.aliases ilkAliasEntrySize ilkAliasCount.toNat
      fun i b => IdentityCell.load S (.ilkAlias i b)
    let vocabulary ← loadEntries S.vocabulary vocabularyEntrySize vocabularyCount.toNat
      fun i b => IdentityCell.load S (.vocabulary i b)
    pure (some ⟨tenants, ilks, ichs, ichMappings, ilkAliases, vocabulary⟩)

def identityTail (entries : IdentityEntries) : Loads (IdentityCell.Val S) IdentitySnapshot := do
  let tenantCount : UInt32 ← IdentityCell.load S .tenantCount
  let ilkCount : UInt32 ← IdentityCell.load S .ilkCount
  let ichCount : UInt32 ← IdentityCell.load S .ichCount
  let ichMappingCount : UInt32 ← IdentityCell.load S .ichMappingCount
  let vocabularyCount : UInt32 ← IdentityCell.load S .vocabularyCount
  let ilkAliasCount : UInt32 ← IdentityCell.load S .ilkAliasCount
  let maxIlks : UInt32 ← IdentityCell.load S .maxIlks
  let maxTenants : UInt32 ← IdentityCell.load S .maxTenants
  let maxIchs : UInt32 ← IdentityCell.load S .maxIchs
  let maxIchMappings : UInt32 ← IdentityCell.load S .maxIchMappings
  let maxVocabulary : UInt32 ← IdentityCell.load S .maxVocabulary
  let maxIlkAliases : UInt32 ← IdentityCell.load S .maxIlkAliases
  let heartbeat : UInt64 ← IdentityCell.load S .heartbeat
  let updatedAt : UInt64 ← IdentityCell.load S .updatedAt
  pure ⟨entries, ⟨tenantCount, ilkCount, ichCount, ichMappingCount, vocabularyCount,
    ilkAliasCount, maxIlks, maxTenants, maxIchs, maxIchMappings, maxVocabulary, maxIlkAliases,
    heartbeat, updatedAt⟩⟩

def readIdentitySnapshot : Reader (IdentityCell.Val S) IdentityEntries IdentitySnapshot :=
  ⟨identityBody S, identityTail S⟩

end

end Fluxbee.Shm
