import AdmController.Serde

/-!
# The verification configuration and its file

The data model of `verify::config`, and `buildLatestVerificationConfig`: the
versioned form is tried first and checked; any other document is decoded once
more for a better error text, and returned if that succeeds.
-/

open Serde

/-- The URL library, as far as the program uses it. Parsing the text of a URL
followed by a slash never fails (`parse_slash`). -/
structure UrlLib (U : Type) where
  parse : String → Except String U
  toString : U → String
  hostStr : U → Option String
  path : U → String
  /-- The segments of the path; `none` for URLs that cannot be a base. -/
  pathSegments : U → Option (List String)
  setPath : U → String → U
  /-- The URL whose text is the one of the argument followed by a slash. -/
  appendSlash : U → U
  parse_slash : ∀ u, parse (toString u ++ "/") = .ok (appendSlash u)

inductive VerifyError where
  | verificationFileReadError (e : String)
  | checksumVerificationError (msg : String)
  | imageVerificationError (msg : String)
  | invalidVerifyFileError (msg : String)
  | invalidOCIImageReferenceError (e : String)
  | keyVerificationError (e : String)
  | failedToFetchTrustedLayersError (e : String)
  | missingWasmFileError (path : String)
  | digestErrors (e : String)
  | registryError (e : String)
  | githubUrlParserError (msg : String)
  | failedToParseYamlDataError (e : String)
deriving DecidableEq

/-- The text of a verification error. -/
def VerifyError.text : VerifyError → String
  | .verificationFileReadError e => "failed to read verification file: " ++ e
  | .checksumVerificationError msg => msg
  | .imageVerificationError msg => msg
  | .invalidVerifyFileError msg => msg
  | .invalidOCIImageReferenceError e =>
    "Verification only works with OCI images: Not a valid oci image: " ++ e
  | .keyVerificationError e => "key verification failure: " ++ e ++ " "
  | .failedToFetchTrustedLayersError e => "failed to get image trusted layers: " ++ e
  | .missingWasmFileError path =>
    "Policy cannot be verified, local wasm file doesn't exist: " ++ path
  | .digestErrors e => e
  | .registryError e => e
  | .githubUrlParserError msg => msg
  | .failedToParseYamlDataError e => e

/-! ## The configuration -/

abbrev Annotations := AList (fun _ : String => String)

inductive Subject (U : Type) where
  | equal (value : String)
  | urlPrefix (url : U)
deriving DecidableEq

inductive Signature (U : Type) where
  | pubKey (owner : Option String) (key : String) (annotations : Option Annotations)
  | genericIssuer (issuer : String) (subject : Subject U) (annotations : Option Annotations)
  | githubAction (owner : String) (repo : Option String) (annotations : Option Annotations)
deriving DecidableEq

/-- A list of signatures of which a minimum number has to be found. -/
structure AnyOf (U : Type) where
  minimumMatches : UInt8
  signatures : List (Signature U)
deriving DecidableEq

structure VerificationConfigV1 (U : Type) where
  allOf : Option (List (Signature U))
  anyOf : Option (AnyOf U)
deriving DecidableEq

abbrev LatestVerificationConfig (U : Type) := VerificationConfigV1 U

inductive VersionedVerificationConfig (U : Type) where
  | v1 (config : VerificationConfigV1 U)
  | unsupported

/-- A well-formed version of the configuration, or something wrong. -/
inductive VerificationConfig (U : Type) where
  | versioned (config : VersionedVerificationConfig U)
  | invalid (value : Value)

def defaultMinimumMatches : UInt8 := 1

section

variable {U : Type} (urls : UrlLib U)

/-! ## The decoders derived for these types -/

/-- The YAML library: parser, printer, and the shapes taken by the two
deserializers, over buffered content and over YAML values. -/
structure YamlLib (U : Type) where
  fromStr : String → Except String Value
  toString : Signature U → Except String String
  (content value : Shapes)

def deserializeSubjectUrlPrefix (v : Value) : Except String U := do
  let s ← decodeString v
  let url ← urls.parse s
  if RustStr.endsWith (urls.path url) "/" then return url
  else
    return urls.setPath url (urls.path url ++ "/")

def decodeSubject (sh : Shapes) : Value → Except String (Subject U)
  | .mapping [(k, v)] =>
    match k.field sh ["equal", "urlPrefix"] with
    | some 0 => (decodeString v).map Subject.equal
    | some _ => (deserializeSubjectUrlPrefix urls v).map Subject.urlPrefix
    | none => .error ("unknown variant `" ++ k.text ++ "`, " ++ oneOf ["equal", "urlPrefix"])
  | .mapping _ => .error "invalid value: map, expected map with a single key"
  | v => .error (invalidType v "string or map")

/-- Decode a signature: a union tagged by `kind`, which is buffered. -/
def decodeSignature (sh : Shapes) (v : Value) : Except String (Signature U) := do
  let (tag, rest) ← takeTag "kind" "internally tagged enum Signature" v
  let variants := ["pubKey", "genericIssuer", "githubAction"]
  match ← variantOf variants tag with
  | some 0 =>
    let f ← structFields sh "struct variant Signature::PubKey" ["owner", "key", "annotations"] rest
    return .pubKey (← optionField decodeString (f 0)) (← requiredField "key" decodeString (f 1))
      (← optionField (decodeStringMap sh) (f 2))
  | some 1 =>
    let f ← structFields sh "struct variant Signature::GenericIssuer"
      ["issuer", "subject", "annotations"] rest
    return .genericIssuer (← requiredField "issuer" decodeString (f 0))
      (← requiredField "subject" (decodeSubject urls sh) (f 1))
      (← optionField (decodeStringMap sh) (f 2))
  | some _ =>
    let f ← structFields sh "struct variant Signature::GithubAction"
      ["owner", "repo", "annotations"] rest
    return .githubAction (← requiredField "owner" decodeString (f 0))
      (← optionField decodeString (f 1))
      (← optionField (decodeStringMap sh) (f 2))
  | none => .error (unknownVariant variants tag)

variable (yaml : YamlLib U)

def decodeAnyOf (sh : Shapes) (v : Value) : Except String (AnyOf U) := do
  let f ← structFields sh "struct AnyOf" ["minimumMatches", "signatures"] v
  let minimumMatches ← defaultField defaultMinimumMatches
    (fun v => (decodeUnsigned 8 v).map UInt8.ofNat) (f 0)
  let signatures ← requiredField "signatures"
    (decodeSeq sh (decodeSignature urls yaml.content)) (f 1)
  return { minimumMatches, signatures }

def decodeVerificationConfigV1 (sh : Shapes) (v : Value) :
    Except String (VerificationConfigV1 U) := do
  let f ← structFields sh "struct VerificationConfigV1" ["allOf", "anyOf"] v
  let allOf ← optionField (decodeSeq sh (decodeSignature urls yaml.content)) (f 0)
  let anyOf ← optionField (decodeAnyOf urls yaml sh) (f 1)
  return { allOf, anyOf }

def decodeVersionedVerificationConfig (v : Value) :
    Except String (VersionedVerificationConfig U) := do
  let (tag, rest) ← takeTag "apiVersion" "internally tagged enum VersionedVerificationConfig" v
  match ← variantOf ["v1"] tag with
  | some _ =>
    (decodeVerificationConfigV1 urls yaml yaml.content rest).map VersionedVerificationConfig.v1
  | none => return .unsupported

def decodeVerificationConfig (v : Value) : Except String (VerificationConfig U) :=
  match decodeVersionedVerificationConfig urls yaml v with
  | .ok config => .ok (.versioned config)
  | .error _ =>
    if v.distinctKeys then .ok (.invalid v)
    else .error "data did not match any variant of untagged enum VerificationConfig"

end

section

variable {U : Type} (urls : UrlLib U) (yaml : YamlLib U)

/-! ## Reading a verification file -/

def sanitizedValue : Value → Value
  | .mapping kvs => .mapping (kvs.filter (fun kv => ¬ kv.1 = .str "apiVersion"))
  | v => v

/-- The sanity checks on the two signature lists of a configuration. -/
def checkConfig (config : LatestVerificationConfig U) :
    Except VerifyError (LatestVerificationConfig U) :=
  if config.allOf.isNone && config.anyOf.isNone then
    .error (.invalidVerifyFileError "config is missing signatures in both allOf and anyOff list")
  else if config.allOf.any List.isEmpty then
    .error (.invalidVerifyFileError "config's allOf list is empty")
  else
    match config.anyOf with
    | none => .ok config
    | some anyOf =>
      if anyOf.signatures.isEmpty then
        .error (.invalidVerifyFileError "config's anyOf.signatures list is empty")
      else if anyOf.minimumMatches = 0 then
        .error (.invalidVerifyFileError "config's anyOf.minimumMatches must be greater than 0")
      else if anyOf.minimumMatches.toNat > anyOf.signatures.length then
        .error (.invalidVerifyFileError ("config's anyOf.minimumMatches ("
          ++ toString anyOf.minimumMatches.toNat
          ++ ") cannot be greater than the number of signatures ("
          ++ toString anyOf.signatures.length ++ ")"))
      else .ok config

def buildLatestVerificationConfig (configStr : String) :
    Except VerifyError (LatestVerificationConfig U) :=
  match (yaml.fromStr configStr).bind (decodeVerificationConfig urls yaml) with
  | .error e => .error (.failedToParseYamlDataError e)
  | .ok (.versioned (.v1 c)) => checkConfig c
  | .ok (.versioned .unsupported) =>
    .error (.invalidVerifyFileError "Not a supported configuration version: Unsupported")
  | .ok (.invalid value) =>
    -- the result of the second decoding is returned as it is: it was
    -- meant to fail, and skips the checks of the versioned arm
    (decodeVerificationConfigV1 urls yaml yaml.value (sanitizedValue value)).mapError
      (fun err => .invalidVerifyFileError ("Not a valid configuration file: " ++ err))

end
