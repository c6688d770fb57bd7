import AdmController.EvaluationEnvironment

/-!
# Compiling Wasm files

`PrecompiledPolicy.new` compiles a Wasm file. The execution mode is declared by
the metadata in a custom section of the file; the digest is that of the
compiled code. Third-party code is the record `WasmLib`.
-/

open Fallible PrecompiledPolicy

/-! ## Metadata -/

inductive ProtocolVersion where
  | unknown
  | v1
deriving DecidableEq

def ProtocolVersion.text : ProtocolVersion → String
  | .unknown => "Unknown"
  | .v1 => "V1"

/-- A version; pre-releases and build information are ignored. -/
structure Version where
  (major minor patch : ℕ)
deriving DecidableEq

def Version.text (v : Version) : String :=
  toString v.major ++ "." ++ toString v.minor ++ "." ++ toString v.patch

def Version.lt (v w : Version) : Bool :=
  v.major < w.major
    || v.major == w.major && (v.minor < w.minor
      || v.minor == w.minor && v.patch < w.patch)

def kubewardenVersion : Version := ⟨1, 39, 0⟩

structure Metadata where
  protocolVersion : Option ProtocolVersion
  executionMode : PolicyExecutionMode
  minimumKubewardenVersion : Option Version
deriving DecidableEq

def Metadata.default : Metadata := ⟨none, .kubewardenWapc, none⟩

inductive Payload where
  | customSection (name : String) (data : List UInt8)
  | other (data : List UInt8)
deriving DecidableEq

/-- Third-party code: the WebAssembly compiler, the decoder of metadata, the
check of ferricel modules, and SHA-256. -/
structure WasmLib where
  parseAll : List UInt8 → List (Except String Payload)
  metadataFromSlice : List UInt8 → Except String Metadata
  ferricelCheckAbiVersion : List UInt8 → Except String Unit
  precompileModule : List UInt8 → Except String (List UInt8)
  sha256 : List UInt8 → String

variable (lib : WasmLib)

def kubewardenCustomSectionMetadata : String := "io.kubewarden.metadata"

def Metadata.fromPayloads : List (Except String Payload) → Except String (Option Metadata)
  | [] => .ok none
  | .error e :: _ => .error ("cannot parse custom section of wasm module: " ++ e)
  | .ok (.customSection name data) :: payloads =>
    if name = kubewardenCustomSectionMetadata then
      match lib.metadataFromSlice data with
      | .ok metadata => .ok (some metadata)
      | .error e => .error ("cannot deserialize custom section `" ++ name
        ++ "` of wasm module: " ++ e)
    else fromPayloads payloads
  | .ok (.other _) :: payloads => fromPayloads payloads

def Metadata.fromContents (contents : List UInt8) : Except String (Option Metadata) :=
  Metadata.fromPayloads lib (lib.parseAll contents)

/-! ## Compilation -/

def hasMinimumKubewardenVersion (metadata : Metadata) : Except String Unit :=
  match metadata.minimumKubewardenVersion with
  | none => .ok ()
  | some v =>
    let sanitized : Version := { v with patch := 0 }
    if kubewardenVersion.lt sanitized then
      .error ("Policy required Kubewarden version " ++ sanitized.text
        ++ " but is running on " ++ kubewardenVersion.text)
    else .ok ()

def hasValidProtocolVersion (metadata : Metadata) : Except String Unit :=
  if metadata.executionMode = .kubewardenWapc then
    match metadata.protocolVersion with
    | some .v1 => .ok ()
    | some other => .error ("Policy uses protocol version " ++ other.text
      ++ " but only V1 is supported")
    | none => .error ("Policy is missing protocol version, which is required "
      ++ "for KubewardenWapc execution mode")
  else .ok ()

def hasValidFerricelAbi (metadata : Metadata) (contents : List UInt8) : Except String Unit :=
  if metadata.executionMode = .ferricel then lib.ferricelCheckAbiVersion contents
  else .ok ()

def PrecompiledPolicy.new (contents : List UInt8) :
    Except String PrecompiledPolicy := do
  let policyMetadata ← Metadata.fromContents lib contents
  let metadata := policyMetadata.getD .default
  hasMinimumKubewardenVersion metadata
  hasValidProtocolVersion metadata
  hasValidFerricelAbi lib metadata contents
  let precompiledModule ← lib.precompileModule contents
  return { precompiledModule := precompiledModule
           executionMode := metadata.executionMode
           digest := lib.sha256 precompiledModule }

/-- **The mode declared by a file**: that of its metadata, or the default. -/
def declaredMode (contents : List UInt8) : Except String PolicyExecutionMode :=
  (Metadata.fromContents lib contents).map (fun metadata => (metadata.getD .default).executionMode)

theorem PrecompiledPolicy.new_eq_ok {contents : List UInt8}
    {p : PrecompiledPolicy} (h : new lib contents = .ok p) :
    declaredMode lib contents = .ok p.executionMode
      ∧ lib.precompileModule contents = .ok p.precompiledModule
      ∧ p.digest = lib.sha256 p.precompiledModule := by
  obtain ⟨metadata, hmetadata, h⟩ := bind_eq_ok.1 h
  obtain ⟨-, -, h⟩ := bind_eq_ok.1 h
  obtain ⟨-, -, h⟩ := bind_eq_ok.1 h
  obtain ⟨-, -, h⟩ := bind_eq_ok.1 h
  obtain ⟨code, hcode, h⟩ := bind_eq_ok.1 h
  cases h
  unfold declaredMode
  rw [hmetadata]
  exact ⟨rfl, hcode, rfl⟩

def precompilePolicies (files : HashMap String (Except String (List UInt8))) :
    PrecompiledPolicies :=
  files.mapValues (fun _ file => file >>= new lib)

theorem lookup_precompilePolicies {files : HashMap String (Except String (List UInt8))}
    {url : String} {p : PrecompiledPolicy} :
    (precompilePolicies lib files).lookup url = some (.ok p)
      ↔ ∃ contents, files.lookup url = some (.ok contents) ∧ new lib contents = .ok p := by
  unfold precompilePolicies
  rw [AList.lookup_mapValues, Option.map_eq_some_iff]
  constructor
  · rintro ⟨file, hfile, hp⟩
    obtain ⟨contents, rfl, hp⟩ := bind_eq_ok.1 hp
    exact ⟨contents, hfile, hp⟩
  · rintro ⟨contents, hfile, hp⟩
    exact ⟨.ok contents, hfile, hp⟩
