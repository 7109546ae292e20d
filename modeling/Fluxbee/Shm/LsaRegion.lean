import Fluxbee.Lib.Uuid
import Fluxbee.Shm.IdentityRegion

/-! The link state region: what a gateway publishes of every hive, written whole and read whole.
Of the header only the counts are kept; reserved and padding bytes are left out. A UUID stands for
its sixteen bytes. -/
namespace Fluxbee.Lsa
open Text Shm

def maxRemoteHives : ℕ := 16
def maxRemoteNodes : ℕ := 1024
def maxRemoteRoutes : ℕ := 256
def maxRemoteVpns : ℕ := 256
def maxRemoteTaps : ℕ := 256

def flagDeleted : UInt16 := 0x0002
def flagStale : UInt16 := 0x0004
def hiveFlagSelf : UInt16 := 0x0010

def bytesToString (buf : List UInt8) (len : ℕ) : String := (fromUtf8 (buf.take len)).getD ""

theorem bytesToString_copyBytesWithLen {n : ℕ} {s : String} (h : (asBytes s).length ≤ n) :
    bytesToString (copyBytesWithLen (zeroBytes n) s).1 (copyBytesWithLen (zeroBytes n) s).2 = s := by
  have hlen : (copyBytesWithLen (zeroBytes n) s).2 = (asBytes s).length := by
    simp only [copyBytesWithLen, zeroBytes, List.length_replicate, Nat.min_eq_left h]
  have hbuf : (copyBytesWithLen (zeroBytes n) s).1.take (asBytes s).length = asBytes s := by
    simp only [copyBytesWithLen, zeroBytes, List.length_replicate, Nat.min_eq_left h,
      List.take_length, List.take_left']
  rw [bytesToString, hlen, hbuf, fromUtf8_asBytes, Option.getD_some]

structure RemoteHiveEntry where
  hiveId : List UInt8
  hiveIdLen : ℕ
  routerUuid : Uuid
  routerName : List UInt8
  (routerNameLen lastLsaSeq lastUpdated : ℕ)
  flags : UInt16
  (nodeCount routeCount vpnCount tapCount : ℕ)

structure RemoteNodeEntry where
  uuid : Uuid
  name : List UInt8
  (nameLen vpnId : ℕ)
  (hiveIndex flags : UInt16)
  deriving DecidableEq

structure RemoteRouteEntry where
  front : List UInt8
  frontLen : ℕ
  (matchKind action : UInt8)
  nextHopHive : List UInt8
  (nextHopHiveLen metric priority : ℕ)
  (flags hiveIndex : UInt16)
  deriving DecidableEq

structure RemoteVpnEntry where
  pattern : List UInt8
  patternLen : ℕ
  matchKind : UInt8
  (vpnId priority : ℕ)
  (flags hiveIndex : UInt16)

structure RemoteTapEntry where
  matchSrc : List UInt8
  matchSrcLen : ℕ
  matchDst : List UInt8
  matchDstLen : ℕ
  target : List UInt8
  targetLen : ℕ
  (mode enabled : UInt8)
  (flags hiveIndex : UInt16)

def RemoteHiveEntry.id (e : RemoteHiveEntry) : String := bytesToString e.hiveId e.hiveIdLen

def RemoteNodeEntry.text (e : RemoteNodeEntry) : String := bytesToString e.name e.nameLen

def zeroUuid : Uuid := .uniform 0

def emptyRemoteHive : RemoteHiveEntry :=
  ⟨zeroBytes 64, 0, zeroUuid, zeroBytes 64, 0, 0, 0, 0, 0, 0, 0, 0⟩

def emptyRemoteNode : RemoteNodeEntry := ⟨zeroUuid, zeroBytes 256, 0, 0, 0, 0⟩

def emptyRemoteRoute : RemoteRouteEntry := ⟨zeroBytes 256, 0, 0, 0, zeroBytes 32, 0, 0, 0, 0, 0⟩

def emptyRemoteVpn : RemoteVpnEntry := ⟨zeroBytes 256, 0, 0, 0, 0, 0, 0⟩

def emptyRemoteTap : RemoteTapEntry :=
  ⟨zeroBytes 256, 0, zeroBytes 256, 0, zeroBytes 256, 0, 0, 0, 0, 0⟩

/-- A section of the region: its entries, and how many of them count. -/
structure Section (α : Type) (n : ℕ) where
  entries : Vector α n
  count : ℕ

def Section.write {α : Type} (n : ℕ) (blank : α) (src : List α) : Section α n :=
  ⟨IdentityRegion.fill n blank src, src.length⟩

def Section.read {α : Type} {n : ℕ} (s : Section α n) : List α := s.entries.toList.take s.count

theorem Section.length_read_le {α : Type} {n : ℕ} (s : Section α n) : s.read.length ≤ n := by
  have hlen : s.entries.toList.length = n := s.entries.size_toArray
  rw [Section.read, List.length_take, hlen]
  exact Nat.min_le_right _ _

theorem Section.read_write {α : Type} {n : ℕ} (blank : α) {src : List α} (h : src.length ≤ n) :
    (Section.write n blank src).read = src := by
  have hlen : (IdentityRegion.fill n blank src).toList.length = n := Vector.size_toArray _
  apply List.ext_getElem
  · rw [Section.read, List.length_take, Section.write, hlen, Nat.min_eq_left h]
  · intro i hi hsrc
    simp only [Section.read, Section.write, List.getElem_take, Vector.getElem_toList,
      IdentityRegion.fill, Vector.getElem_ofFn]
    rw [List.getD_eq_getElem?_getD, List.getElem?_eq_getElem hsrc, Option.getD_some]

structure LsaRegion where
  hives : Section RemoteHiveEntry maxRemoteHives
  nodes : Section RemoteNodeEntry maxRemoteNodes
  routes : Section RemoteRouteEntry maxRemoteRoutes
  vpns : Section RemoteVpnEntry maxRemoteVpns
  taps : Section RemoteTapEntry maxRemoteTaps

def LsaRegion.created : LsaRegion where
  hives := .write _ emptyRemoteHive []
  nodes := .write _ emptyRemoteNode []
  routes := .write _ emptyRemoteRoute []
  vpns := .write _ emptyRemoteVpn []
  taps := .write _ emptyRemoteTap []

/-- What a reader takes from the region. A region holds no more hives than its section. -/
structure LsaSnapshot where
  hives : List RemoteHiveEntry
  nodes : List RemoteNodeEntry
  routes : List RemoteRouteEntry
  vpns : List RemoteVpnEntry
  taps : List RemoteTapEntry
  hives_le : hives.length ≤ maxRemoteHives

def LsaRegion.readSnapshot (r : LsaRegion) : LsaSnapshot where
  hives := r.hives.read
  nodes := r.nodes.read
  routes := r.routes.read
  vpns := r.vpns.read
  taps := r.taps.read
  hives_le := r.hives.length_read_le

/-- Refused as a whole when one section has too many entries. -/
def LsaRegion.writeSnapshot (r : LsaRegion) (hives : List RemoteHiveEntry)
    (nodes : List RemoteNodeEntry) (routes : List RemoteRouteEntry) (vpns : List RemoteVpnEntry)
    (taps : List RemoteTapEntry) : LsaRegion × Except ShmError Unit :=
  if hives.length > maxRemoteHives then (r, .error (.valueTooLong hives.length maxRemoteHives))
  else if nodes.length > maxRemoteNodes then
    (r, .error (.valueTooLong nodes.length maxRemoteNodes))
  else if routes.length > maxRemoteRoutes then
    (r, .error (.valueTooLong routes.length maxRemoteRoutes))
  else if vpns.length > maxRemoteVpns then (r, .error (.valueTooLong vpns.length maxRemoteVpns))
  else if taps.length > maxRemoteTaps then (r, .error (.valueTooLong taps.length maxRemoteTaps))
  else
    ({ hives := .write _ emptyRemoteHive hives
       nodes := .write _ emptyRemoteNode nodes
       routes := .write _ emptyRemoteRoute routes
       vpns := .write _ emptyRemoteVpn vpns
       taps := .write _ emptyRemoteTap taps }, .ok ())

theorem LsaRegion.writeSnapshot_of_le (r : LsaRegion) {hives : List RemoteHiveEntry}
    {nodes : List RemoteNodeEntry} {routes : List RemoteRouteEntry} {vpns : List RemoteVpnEntry}
    {taps : List RemoteTapEntry} (hhives : hives.length ≤ maxRemoteHives)
    (hnodes : nodes.length ≤ maxRemoteNodes) (hroutes : routes.length ≤ maxRemoteRoutes)
    (hvpns : vpns.length ≤ maxRemoteVpns) (htaps : taps.length ≤ maxRemoteTaps) :
    let out := r.writeSnapshot hives nodes routes vpns taps
    out.2 = .ok () ∧ out.1.readSnapshot.hives = hives ∧ out.1.readSnapshot.nodes = nodes ∧
      out.1.readSnapshot.routes = routes ∧ out.1.readSnapshot.vpns = vpns ∧
      out.1.readSnapshot.taps = taps := by
  rw [writeSnapshot, if_neg (Nat.not_lt.mpr hhives), if_neg (Nat.not_lt.mpr hnodes),
    if_neg (Nat.not_lt.mpr hroutes), if_neg (Nat.not_lt.mpr hvpns), if_neg (Nat.not_lt.mpr htaps)]
  exact ⟨rfl, Section.read_write emptyRemoteHive hhives, Section.read_write emptyRemoteNode hnodes,
    Section.read_write emptyRemoteRoute hroutes, Section.read_write emptyRemoteVpn hvpns,
    Section.read_write emptyRemoteTap htaps⟩

end Fluxbee.Lsa
