import Fluxbee.Lib.AssocMap
import Fluxbee.Opa.Wasm

/-! What `sy-opa-rules` keeps: three policy directories, the folder the motherbee publishes through,
and the region its routers read the policy from; and the writes that change them, with what a write
cut short leaves. -/
namespace Fluxbee.Opa
open Text

structure PolicyMetadata where
  version : ℕ := 0
  hash : String := ""
  entrypoint : String := ""
  compiledAt : String := ""
  wasmSize : ℕ := 0
  deriving DecidableEq

/-- The file `metadata.json`. A proper beginning of a JSON object is no JSON text, so all such
contents are one. -/
inductive MetadataFile where
  | whole (info : PolicyMetadata)
  | torn

def readMetadata : Option MetadataFile → PolicyMetadata
  | some (.whole info) => info
  | some .torn | none => {}

def PolicyMetadata.entrypointOr (info : PolicyMetadata) : String :=
  if info.entrypoint = "" then defaultEntrypoint else info.entrypoint

inductive Dir where
  | staged
  | current
  | backup
  deriving DecidableEq

/-- The files `policy.wasm`, `policy.rego` and `metadata.json` of a directory. -/
structure PolicyDir where
  wasm : Option Bytes := none
  rego : Option String := none
  info : Option MetadataFile := none

inductive FileWrite where
  | wasm (data : Option Bytes)
  | rego (text : Option String)
  | metadata (data : Option MetadataFile)

namespace PolicyDir

def write (d : PolicyDir) : FileWrite → PolicyDir
  | .wasm data => { d with wasm := data }
  | .rego text => { d with rego := text }
  | .metadata data => { d with info := data }

/-- What a crash leaves of a write: any first part of its data. A removal is made or not. -/
def tear (n : ℕ) (d : PolicyDir) : FileWrite → PolicyDir
  | .wasm (some data) => { d with wasm := some (data.take n) }
  | .rego (some text) => { d with rego := some (String.ofList (text.toList.take n)) }
  | .metadata (some _) => { d with info := some .torn }
  | .wasm none | .rego none | .metadata none => d

end PolicyDir

structure PolicyManifest where
  version : ℕ := 0
  hash : String := ""
  entrypoint : String := ""
  wasmFile : String := ""
  compiledAt : String := ""
  publishedAt : String

/-- The synced folder. Every file of it is written under another name and renamed, so that a file
is there whole or not at all. -/
structure Dist where
  manifest : Option PolicyManifest := none
  wasms : AList fun _ : String => Bytes := ∅

inductive DistWrite where
  | wasm (name : String) (data : Bytes)
  | manifest (m : PolicyManifest)
  | remove (name : String)

def Dist.write (d : Dist) : DistWrite → Dist
  | .wasm name data => { d with wasms := d.wasms.insert name data }
  | .manifest m => { d with manifest := some m }
  | .remove name => { d with wasms := d.wasms.erase name }

def zeroHash : String := String.ofList (List.replicate 64 '0')

/-- The routers' region: the fields of its header the policy is read by, and the bytes after it. -/
structure Region where
  version : ℕ := 0
  size : ℕ := 0
  hash : String := zeroHash
  entrypoint : Bytes := []
  data : Bytes := []

inductive RegionWrite where
  | version (n : ℕ)
  | size (n : ℕ)
  | hash (digits : String)
  | entrypoint (name : Bytes)
  | data (wasm : Bytes)

namespace Region

def write (r : Region) : RegionWrite → Region
  | .version n => { r with version := n }
  | .size n => { r with size := n }
  | .hash digits => { r with hash := digits }
  | .entrypoint name => { r with entrypoint := name }
  | .data wasm => { r with data := wasm ++ r.data.drop wasm.length }

/-- What a crash leaves of a write to the region. The numbers are stored at once; the hash and the
entrypoint are zeroed and copied over, the entrypoint's length after its bytes. -/
def tear (n : ℕ) (r : Region) : RegionWrite → Region
  | .version _ | .size _ => r
  | .hash digits =>
    { r with hash := String.ofList (digits.toList.take n ++ zeroHash.toList.drop n) }
  | .entrypoint name =>
    { r with entrypoint := (name.take n ++ List.replicate 64 0).take r.entrypoint.length }
  | .data wasm => { r with data := wasm.take n ++ r.data.drop (wasm.take n).length }

/-- The wasm a router takes from the region: none of it when the size is zero. -/
def wasm (r : Region) : Bytes := r.data.take r.size

end Region

/-- The state of a hive that outlives the service's process. -/
structure Disk where
  dirs : Dir → PolicyDir := fun _ => {}
  dist : Dist := {}
  region : Region := {}

/-- One write. `first` marks the first write of a directory's rewriting. -/
inductive Act where
  | file (dir : Dir) (w : FileWrite) (first : Bool)
  | dist (w : DistWrite)
  | region (w : RegionWrite)

namespace Disk

def setDir (k : Disk) (dir : Dir) (d : PolicyDir) : Disk :=
  { k with dirs := Function.update k.dirs dir d }

def perform (k : Disk) : Act → Disk
  | .file dir w _ => k.setDir dir ((k.dirs dir).write w)
  | .dist w => { k with dist := k.dist.write w }
  | .region w => { k with region := k.region.write w }

def tear (n : ℕ) (k : Disk) : Act → Disk
  | .file dir w _ => k.setDir dir ((k.dirs dir).tear n w)
  | .dist _ => k
  | .region w => { k with region := k.region.tear n w }

end Disk

def rewriteDir (dir : Dir) : List FileWrite → List Act
  | [] => []
  | w :: ws => .file dir w true :: ws.map fun w => .file dir w false

def writePolicyFiles (dir : Dir) (wasm : Bytes) (info : PolicyMetadata) (rego : String) :
    List Act :=
  rewriteDir dir
    [.wasm (some wasm), .rego (if rego = "" then none else some rego), .metadata (some (.whole info))]

def PolicyDir.files (d : PolicyDir) : List FileWrite :=
  (if d.info.isSome then [.metadata d.info] else []) ++
    (if d.rego.isSome then [.rego d.rego] else []) ++ if d.wasm.isSome then [.wasm d.wasm] else []

/-- `copyDir`: a file the source lacks stays in the target. -/
def copyDir (source : PolicyDir) (target : Dir) : List Act := rewriteDir target source.files

def emptyDir (dir : Dir) : List Act := rewriteDir dir [.metadata none, .rego none, .wasm none]

section
variable (cfg : Config) (version : ℕ) (wasm : Option Bytes) (entrypoint : String)

/-- `writeHeader`: of the entrypoint no more than 64 bytes. -/
def Region.header : List RegionWrite :=
  [.version version, .size ((wasm.map List.length).getD 0),
    .hash ((wasm.map cfg.sha256).getD zeroHash), .entrypoint ((asBytes entrypoint).take 64)] ++
    (wasm.map RegionWrite.data).toList

def writePolicy : List Act :=
  let fits := wasm.filter fun w => w.length ≤ opaMaxWasmSize
  (Region.header cfg version fits entrypoint).map .region

end

end Fluxbee.Opa
