import Fluxbee.Lib.Uuid

/-! The checks `sy-opa-rules` makes of a wasm module: its magic and version, and the name of an
export. Neither looks past the export section. -/
namespace Fluxbee.Opa
open Text

abbrev Bytes := List UInt8

def defaultEntrypoint : String := "router/target"

def opaMaxWasmSize : ℕ := 4 * 1024 * 1024

def wasmMagic : Bytes := [0x00, 0x61, 0x73, 0x6d]

def hexEncode (bytes : Bytes) : String :=
  String.ofList (bytes.flatMap fun b =>
    [Uuid.hexChar (Fin.ofNat 16 (b.toNat / 16)), Uuid.hexChar (Fin.ofNat 16 b.toNat)])

def readU32LEBFrom (shift result read : ℕ) : Bytes → Option (ℕ × ℕ)
  | [] => none
  | b :: rest =>
    let next := result ||| (((b &&& 0x7f).toNat <<< shift) % 2 ^ 32)
    if b &&& 0x80 = 0 then some (next, read + 1)
    else if 32 ≤ shift + 7 then none
    else readU32LEBFrom (shift + 7) next (read + 1) rest

def readU32LEB (data : Bytes) : Option (ℕ × ℕ) := readU32LEBFrom 0 0 0 data

/-- The loop over the export section: `count` entries of a name, a kind and an index. -/
def exportsName (name : Bytes) : ℕ → Bytes → Bool
  | 0, _ => false
  | count + 1, data =>
    match readU32LEB data with
    | none => false
    | some (nameLen, n) =>
      let named := data.drop n
      if named.length < nameLen then false
      else
        match named.drop nameLen with
        | [] => false
        | _ :: index =>
          match readU32LEB index with
          | none => false
          | some (_, k) =>
            if named.take nameLen = name then true else exportsName name count (index.drop k)

/-- The loop over the sections; every round takes a byte at least, so the length bounds it. -/
def sectionsExport (name : Bytes) : ℕ → Bytes → Bool
  | 0, _ => false
  | _ + 1, [] => false
  | fuel + 1, sectionID :: rest =>
    match readU32LEB rest with
    | none => false
    | some (secLen, n) =>
      let body := rest.drop n
      if body.length < secLen then false
      else if sectionID = 7 then
        match readU32LEB (body.take secLen) with
        | none => false
        | some (count, k) => exportsName name count ((body.take secLen).drop k)
      else sectionsExport name fuel (body.drop secLen)

def wasmHasExport (wasm : Bytes) (name : Bytes) : Bool :=
  if wasm.length < 8 then false
  else if wasm.take 4 ≠ wasmMagic then false
  else sectionsExport name wasm.length (wasm.drop 8)

def fromLe (bytes : Bytes) : ℕ := bytes.foldr (fun b n => b.toNat + 256 * n) 0

def validateWasm (wasm : Bytes) : Except String Unit :=
  if wasm.length < 8 then .error s!"invalid wasm output: too short ({wasm.length} bytes)"
  else if wasm.take 4 ≠ wasmMagic then .error s!"invalid wasm magic: {hexEncode (wasm.take 4)}"
  else if fromLe ((wasm.drop 4).take 4) ≠ 1 then
    .error s!"unsupported wasm version: {fromLe ((wasm.drop 4).take 4)}"
  else .ok ()

def opaEval : Bytes := [0x6f, 0x70, 0x61, 0x5f, 0x65, 0x76, 0x61, 0x6c]

def Loadable (wasm : Bytes) : Prop := validateWasm wasm = .ok () ∧ wasmHasExport wasm opaEval = true

instance (wasm : Bytes) : Decidable (Loadable wasm) := inferInstanceAs (Decidable (_ ∧ _))

theorem Loadable.ne_nil {wasm : Bytes} (h : Loadable wasm) : wasm ≠ [] := by
  intro hnil
  subst hnil
  have hshort : validateWasm ([] : Bytes) ≠ .ok () := by decide
  exact hshort h.1

/-- What the compiler of the policy language and the digest of the platform give: `build` is the
compiled wasm of a policy text for an entrypoint, with the bundle it comes in taken off, `sha256`
a digest's hexadecimal digits. -/
structure Config where
  build : String → String → Except String Bytes
  sha256 : Bytes → String

def compileRego (cfg : Config) (rego entrypoint : String) : Except String Bytes := do
  let wasm ← cfg.build rego entrypoint
  validateWasm wasm
  if wasmHasExport wasm opaEval = false then throw "opa wasm missing export: opa_eval"
  if opaMaxWasmSize < wasm.length then throw s!"wasm too large ({wasm.length} bytes)"
  return wasm

theorem compileRego_ok {cfg : Config} {rego entrypoint : String} {wasm : Bytes}
    (h : compileRego cfg rego entrypoint = .ok wasm) :
    Loadable wasm ∧ wasm.length ≤ opaMaxWasmSize := by
  unfold compileRego at h
  cases hb : cfg.build rego entrypoint with
  | error e => rw [hb] at h; cases h
  | ok built =>
    rw [hb] at h
    cases hv : validateWasm built with
    | error e =>
      simp only [bind, Except.bind, hv] at h
      cases h
    | ok u =>
      simp only [bind, Except.bind, hv] at h
      split_ifs at h with hexp hlen
      all_goals cases h
      exact ⟨⟨hv, by simpa using hexp⟩, by omega⟩

end Fluxbee.Opa
