import AdmController.FerricelExtensions
import AdmController.Paths
import AdmController.PoliciesFile
import AdmController.PrecompiledPolicies
import AdmController.StagedFiles

/-!
# Compiling a policy to a Wasm module

`kwctl scaffold vap --compile-to` writes a Wasm module and `metadata.yml`. A
failure should leave neither behind, but the module is only removed if
`metadata.yml` cannot be written.
-/

namespace Scaffold

export StagedFiles (Tree)

open StagedFiles RustStr Prog Paths

/-! ## Data -/

structure ObjectMeta where
  (name inNamespace : Option String)
  (labels annotations : Option (BTreeMap String String))

structure VapData (Vap : Type) where
  vap : Vap
  metadata : ObjectMeta
  rules : List Rule
  matchPolicy : Option String
  (namespaceSelector objectSelector : Option LabelSelector)
  settings : PolicySettings
  paramResource : Option ContextAwareResource
  usesNamespaceObject : Bool
  mode : PolicyMode

inductive PolicyType where
  | kubernetes
  | raw

structure PolicyMetadata where
  protocolVersion : Option ProtocolVersion
  rules : List Rule
  annotations : Option (BTreeMap String String)
  (mutating backgroundAudit : Bool)
  executionMode : PolicyExecutionMode
  policyType : PolicyType
  contextAwareResources : BTreeSet ContextAwareResource
  hostCapabilities : Option (BTreeSet String)
  minimumKubewardenVersion : Option String

structure ClusterAdmissionPolicySpec where
  module : String
  settings : PolicySettings
  rules : List Rule
  (mutating backgroundAudit : Bool)
  contextAwareResources : BTreeSet ContextAwareResource
  failurePolicy : Option String
  mode : Option PolicyMode
  matchPolicy : Option String
  (namespaceSelector objectSelector : Option LabelSelector)

structure ClusterAdmissionPolicy where
  (apiVersion kind : String)
  metadata : ObjectMeta
  spec : ClusterAdmissionPolicySpec

structure UsedExtension where
  inNamespace : Option String
  function : String

/-- **Third-party code**: the compiler, decoders, YAML and URLs of files. -/
structure Toolchain (Vap C : Type) where
  compileVapFromPolicy : Vap → Except String (List UInt8)
  extensionsUsed : List UInt8 → Except String (List UsedExtension)
  vapVariablesUsed : List UInt8 → Except String (List String)
  decoders : BuilderDecoders C
  toYaml : PolicyMetadata → Except String String
  fromFilePath : String → Option String

/-! ## Writing files -/

def parentDirOf (path : String) : String := parentOrDot path

def metadataPathFor (wasmPath : String) : String := joinPath (parentDirOf wasmPath) "metadata.yml"

variable {P : Type} [DecidableEq P] (sys : System P)

/-- **Write a file atomically.** Unless forced, the file must be new. -/
def writeOutputFile (path : String) (contents : List UInt8) (force : Bool)
    (what : String) : Prog (Tree P) String Unit :=
  let dir := parentDirOf path
  sys.withTempfileIn dir 0o666 (fun e => "cannot create temporary file for "
    ++ what ++ " in " ++ dir ++ ": " ++ e.msg) fun tmp => do
  (sys.writeAll tmp contents).mapError fun e =>
    "cannot write " ++ what ++ " to " ++ path ++ ": " ++ e.msg
  if force then
    match ← sys.permissions path with
    | some mode => (sys.setPermissions tmp mode).mapError fun e =>
      "cannot set permissions on " ++ what ++ ": " ++ e.msg
    | none => pure ()
    (sys.persist tmp path).mapError fun e =>
      "cannot write " ++ what ++ " to " ++ path ++ ": " ++ e.msg
  else
    (sys.persistNoclobber tmp path).mapError fun e =>
      if e.alreadyExists then
        what ++ " already exists at " ++ path ++ ", use --force to overwrite"
      else "cannot write " ++ what ++ " to " ++ path ++ ": " ++ e.msg

variable {Vap C : Type} (tools : Toolchain Vap C)

/-! ## The metadata -/

def Toolchain.hostCapabilities (used : List UsedExtension) : BTreeSet String :=
  .ofList (used.flatMap fun ext =>
    match (specFor tools.decoders ext.inNamespace ext.function : Option (ExtensionSpec Unit C)) with
    | some spec => spec.capabilities
    | none => [])

def baseContextAwareResources (vapData : VapData Vap)
    (usesNamespaceObject : Bool) : BTreeSet ContextAwareResource :=
  .ofList (vapData.paramResource.toList
    ++ if usesNamespaceObject then [⟨"v1", "Namespace"⟩] else [])

def Toolchain.usesNamespaceObject (vapData : VapData Vap) (wasmBytes : List UInt8) : Bool :=
  match tools.vapVariablesUsed wasmBytes with
  | .ok vars => vars.any (· == "namespaceObject")
  | .error _ => vapData.usesNamespaceObject

def Toolchain.contextAwareResources (vapData : VapData Vap)
    (wasmBytes : List UInt8) : BTreeSet ContextAwareResource :=
  baseContextAwareResources vapData (tools.usesNamespaceObject vapData wasmBytes)

/-- The metadata of a module. -/
def policyMetadata (vapData : VapData Vap) (hostCapabilities : Option (BTreeSet String))
    (contextAwareResources : BTreeSet ContextAwareResource) :
    PolicyMetadata where
  protocolVersion := none
  rules := vapData.rules
  annotations := vapData.metadata.name.map fun name =>
    BTreeMap.empty.insert "io.kubewarden.policy.title" name
  mutating := false
  backgroundAudit := true
  executionMode := .ferricel
  policyType := .kubernetes
  contextAwareResources := contextAwareResources
  hostCapabilities := hostCapabilities
  minimumKubewardenVersion := none

def writeMetadataFile (vapData : VapData Vap) (metadataPath : String)
    (hostCapabilities : Option (BTreeSet String))
    (contextAwareResources : BTreeSet ContextAwareResource) (force : Bool) :
    Prog (Tree P) String Unit := do
  let metadata := policyMetadata vapData hostCapabilities contextAwareResources
  let metadataYaml ← ofExcept ((tools.toYaml metadata).mapError
    ("cannot serialize metadata to YAML: " ++ ·))
  writeOutputFile sys metadataPath (intoBytes metadataYaml) force "metadata.yml"

/-! ## The whole call -/

def checkDestinations (wasmPath : String) (force : Bool) : Prog (Tree P) String Unit := do
  let metadataPath := metadataPathFor wasmPath
  if fileName wasmPath = fileName metadataPath then
    throw ("cannot write the Wasm module to " ++ wasmPath
      ++ ": that path is reserved for the metadata.yml file written alongside it")
  else if force then pure ()
  else if ← sys.pathExists wasmPath then
    throw (wasmPath ++ " already exists, use --force to overwrite")
  else if ← sys.pathExists metadataPath then
    throw ("metadata.yml already exists at " ++ metadataPath ++ ", use --force to overwrite")
  else pure ()

def writeModule (vapData : VapData Vap) (wasmPath : String) (force : Bool) :
    Prog (Tree P) String (List UInt8) := do
  checkDestinations sys wasmPath force
  let wasmBytes ← ofExcept ((tools.compileVapFromPolicy vapData.vap).mapError
    ("failed to compile VAP to Wasm: " ++ ·))
  writeOutputFile sys wasmPath wasmBytes force "Wasm module"
  pure wasmBytes

def Toolchain.usedCapabilities (used : List UsedExtension) : Option (BTreeSet String) :=
  let caps := tools.hostCapabilities used
  if caps.elems.isEmpty then none else some caps

/-- The policy for a module. -/
def buildPolicy (vapData : VapData Vap)
    (contextAwareResources : BTreeSet ContextAwareResource) (module : String) :
    ClusterAdmissionPolicy where
  apiVersion := "policies.kubewarden.io/v1"
  kind := "ClusterAdmissionPolicy"
  metadata := vapData.metadata
  spec :=
    { module := module
      namespaceSelector := vapData.namespaceSelector
      matchPolicy := vapData.matchPolicy
      rules := vapData.rules
      objectSelector := vapData.objectSelector
      mutating := false
      backgroundAudit := true
      contextAwareResources := contextAwareResources
      failurePolicy := none
      mode := some vapData.mode
      settings := vapData.settings }

def concludeModule (vapData : VapData Vap) (wasmPath : String) (force : Bool) (wasmPathAbs : String)
    (contextAwareResources : BTreeSet ContextAwareResource) :
    Except String Unit → Prog (Tree P) String ClusterAdmissionPolicy
  | .error e => do
    -- without force, the module is new
    if !force then let _ ← (sys.removeFile wasmPath).attempt
    throw e
  | .ok () =>
    match tools.fromFilePath wasmPathAbs with
    | some module => pure (buildPolicy vapData contextAwareResources module)
    | none => throw ("cannot convert " ++ wasmPathAbs ++ " to a file URI")

def describeModule (vapData : VapData Vap) (wasmPath : String) (force : Bool)
    (wasmBytes : List UInt8) : Prog (Tree P) String ClusterAdmissionPolicy := do
  let wasmPathAbs ← (sys.canonicalize wasmPath).mapError fun e =>
    "cannot canonicalize " ++ wasmPath ++ ": " ++ e.msg
  let used ← ofExcept ((tools.extensionsUsed wasmBytes).mapError
    ("failed to read host extensions from compiled module: " ++ ·))
  let contextAwareResources := tools.contextAwareResources vapData wasmBytes
  let written ← (writeMetadataFile sys tools vapData (metadataPathFor wasmPath)
    (tools.usedCapabilities used) contextAwareResources force).attempt
  concludeModule sys tools vapData wasmPath force wasmPathAbs contextAwareResources written

def vapCompiled (vapData : VapData Vap) (wasmPath : String) (force : Bool) :
    Prog (Tree P) String ClusterAdmissionPolicy := do
  let wasmBytes ← writeModule sys tools vapData wasmPath force
  describeModule sys tools vapData wasmPath force wasmBytes

section

variable {sys tools} {t t' : Tree P} {path what : String} {contents : List UInt8}

open System

/-! ## Files that are new -/

theorem writeOutputFile_eq_error {e : String}
    (h : writeOutputFile sys path contents false what t = (.error e, t')) :
    t' = t := by
  refine withTempfileIn_eq_error ?_ h
  intro tmp t e t' h other hother
  obtain hwrite | ⟨u, t₁, hwrite, hpersist⟩ := bind_eq_error.1 h
  · obtain ⟨_, hwrite, -⟩ := mapError_eq_error.1 hwrite
    rw [call_eq_error hwrite]
  · obtain ⟨_, hpersist, -⟩ := mapError_eq_error.1 hpersist
    rw [call_eq_error hpersist]
    exact writeAll_of_ne (mapError_eq_ok.1 hwrite) hother

theorem noPanic_writeOutputFile : (writeOutputFile sys path contents false what).NoPanic := by
  refine noPanic_withTempfileIn _ _ _ fun tmp => ?_
  refine ((noPanic_call _ _).mapError _).bind fun _ _ => ?_
  exact (noPanic_call _ _).mapError _

/-- **A new file is written** if it can be created. -/
theorem writeOutputFile_eq_ok : writeOutputFile sys path contents false what t = (.ok (), t')
    ↔ ∃ place, sys.Creates t (parentDirOf path) path 0o666 contents place
      ∧ t' = store t place (sys.masked 0o666) contents := by
  unfold writeOutputFile
  rw [withTempfileIn_eq_ok]
  constructor
  · rintro ⟨tmp, hstage, hrun⟩
    have hfree := sys.stage_free _ _ _ hstage
    obtain ⟨u, t₁, hwritten, hpersist⟩ := bind_eq_ok.1 hrun
    obtain ⟨hwrite, rfl⟩ := writeAll_store.1 (mapError_eq_ok.1 hwritten)
    obtain ⟨hrename, place, hlocate, hplace, rfl⟩ :=
      persistNoclobber_eq_ok.1 (mapError_eq_ok.1 hpersist)
    rw [skeleton_store hfree] at hlocate
    have hne : place ≠ tmp := by
      rintro rfl
      rw [store_self] at hplace
      cases hplace
    rw [store_of_ne hne] at hplace
    exact ⟨place, ⟨hplace, hlocate, tmp, hne.symm, hstage, hwrite, hrename⟩, move_store hfree⟩
  · rintro ⟨place, ⟨hplace, hlocate, tmp, hne, hstage, hwrite, hrename⟩, rfl⟩
    have hfree := sys.stage_free _ _ _ hstage
    refine ⟨tmp, hstage, bind_eq_ok.2 ⟨(), _, mapError_eq_ok.2
      (writeAll_store.2 ⟨hwrite, rfl⟩), mapError_eq_ok.2 ?_⟩⟩
    refine persistNoclobber_eq_ok.2 ⟨hrename, place, ?_, ?_, ?_⟩
    · rw [skeleton_store hfree, hlocate]
    · rw [store_of_ne hne.symm, hplace]
    · rw [move_store hfree]

variable {vapData : VapData Vap} {wasmPath : String} {wasmBytes : List UInt8}

/-! ## The module -/

omit [DecidableEq P] in
theorem keeps_checkDestinations (wasmPath : String) :
    Prog.Keeps id (checkDestinations sys wasmPath false) := by
  unfold checkDestinations
  dsimp only
  split
  · exact keeps_throw _
  · refine Prog.Keeps.bind (fun t => rfl) fun found => ?_
    cases found with
    | true => exact keeps_throw _
    | false =>
      refine Prog.Keeps.bind (fun t => rfl) fun found => ?_
      cases found with
      | true => exact keeps_throw _
      | false => exact keeps_pure _

omit [DecidableEq P] in
theorem checkDestinations_eq_ok : checkDestinations sys wasmPath false t = (.ok (), t') ↔ t = t'
    ∧ fileName wasmPath ≠ fileName (metadataPathFor wasmPath)
    ∧ sys.leads t wasmPath = false
    ∧ sys.leads t (metadataPathFor wasmPath) = false := by
  by_cases h : fileName wasmPath = fileName (metadataPathFor wasmPath)
  · rw [show checkDestinations sys wasmPath false = throw _ from if_pos h]
    exact iff_of_false throw_ne_ok fun hok => hok.2.1 h
  rw [show checkDestinations sys wasmPath false = (sys.pathExists wasmPath >>= _) from if_neg h]
  show (if sys.leads t wasmPath then throw _ else
    sys.pathExists (metadataPathFor wasmPath) >>= _ : Prog (Tree P) String Unit) t = _ ↔ _
  cases sys.leads t wasmPath with
  | true => exact iff_of_false throw_ne_ok fun hok => nomatch hok.2.2.1
  | false =>
    show (if sys.leads t (metadataPathFor wasmPath) then throw _ else
      pure () : Prog (Tree P) String Unit) t = _ ↔ _
    cases sys.leads t (metadataPathFor wasmPath) with
    | true => exact iff_of_false throw_ne_ok fun hok => nomatch hok.2.2.2
    | false =>
      show (pure () : Prog (Tree P) String Unit) t = _ ↔ _
      rw [pure_eq_ok]
      simp [h]

theorem writeModule_eq_error {e : String}
    (h : writeModule sys tools vapData wasmPath false t = (.error e, t')) :
    t' = t := by
  obtain hcheck | ⟨u, t₁, hcheck, hrest⟩ := bind_eq_error.1 h
  · exact (keeps_checkDestinations wasmPath).eq hcheck
  obtain ⟨rfl, -⟩ := checkDestinations_eq_ok.1 hcheck
  obtain hcompile | ⟨wasmBytes, t₂, hcompile, hwrite⟩ := bind_eq_error.1 hrest
  · exact (ofExcept_eq_error.1 hcompile).2.symm
  obtain ⟨-, rfl⟩ := ofExcept_eq_ok.1 hcompile
  obtain hwrite | ⟨u, t₃, -, hpure⟩ := bind_eq_error.1 hwrite
  · exact writeOutputFile_eq_error hwrite
  · cases hpure

/-- **A module is written** if it is compiled and can be created. -/
theorem writeModule_eq_ok : writeModule sys tools vapData wasmPath false t = (.ok wasmBytes, t')
    ↔ fileName wasmPath ≠ fileName (metadataPathFor wasmPath)
      ∧ sys.leads t (metadataPathFor wasmPath) = false
      ∧ tools.compileVapFromPolicy vapData.vap = .ok wasmBytes
      ∧ ∃ place, sys.Creates t (parentDirOf wasmPath) wasmPath 0o666 wasmBytes place
        ∧ t' = store t place (sys.masked 0o666) wasmBytes := by
  constructor
  · intro h
    obtain ⟨u, t₁, hcheck, hrest⟩ := bind_eq_ok.1 h
    obtain ⟨rfl, hname, -, hmetadata⟩ := checkDestinations_eq_ok.1 hcheck
    obtain ⟨bytes, t₂, hbytes, hwritten⟩ := bind_eq_ok.1 hrest
    obtain ⟨hcompile, rfl⟩ := ofExcept_eq_ok.1 hbytes
    obtain ⟨u, t₃, hwrite, hpure⟩ := bind_eq_ok.1 hwritten
    obtain ⟨rfl, rfl⟩ := pure_eq_ok.1 hpure
    exact ⟨hname, hmetadata, Fallible.mapError_eq_ok.1 hcompile, writeOutputFile_eq_ok.1 hwrite⟩
  · rintro ⟨hname, hmetadata, hcompile, place, hcreates, rfl⟩
    refine bind_eq_ok.2 ⟨(), t, checkDestinations_eq_ok.2
      ⟨rfl, hname, hcreates.leads_eq_false, hmetadata⟩, ?_⟩
    refine bind_eq_ok.2 ⟨wasmBytes, t,
      ofExcept_eq_ok.2 ⟨Fallible.mapError_eq_ok.2 hcompile, rfl⟩, ?_⟩
    exact bind_eq_ok.2 ⟨(), _, writeOutputFile_eq_ok.2 ⟨place, hcreates, rfl⟩, rfl⟩

/-! ## The metadata and the policy -/

/-- **The metadata of a module can be written**, next to the module. -/
def CanDescribe (sys : System P) (tools : Toolchain Vap C)
    (vapData : VapData Vap) (wasmPath : String) (wasmBytes : List UInt8)
    (used : List UsedExtension) (t : Tree P) (yaml : String) (place : P) :
    Prop :=
  tools.toYaml (policyMetadata vapData (tools.usedCapabilities used)
    (tools.contextAwareResources vapData wasmBytes)) = .ok yaml
    ∧ sys.Creates t (parentDirOf (metadataPathFor wasmPath))
      (metadataPathFor wasmPath) 0o666 (intoBytes yaml) place

theorem attempt_writeMetadataFile (used : List UsedExtension) (t : Tree P) :
    (∃ yaml place, CanDescribe sys tools vapData wasmPath wasmBytes used t yaml place
      ∧ ((writeMetadataFile sys tools vapData (metadataPathFor wasmPath)
        (tools.usedCapabilities used)
        (tools.contextAwareResources vapData wasmBytes) false).attempt : Prog (Tree P) String _) t
        = (.ok (.ok ()), store t place (sys.masked 0o666) (intoBytes yaml)))
    ∨ (∀ yaml place, ¬ CanDescribe sys tools vapData wasmPath wasmBytes used t yaml place)
      ∧ ∃ e, ((writeMetadataFile sys tools vapData (metadataPathFor wasmPath)
        (tools.usedCapabilities used)
        (tools.contextAwareResources vapData wasmBytes) false).attempt : Prog (Tree P) String _) t
        = (.ok (.error e), t) := by
  unfold writeMetadataFile CanDescribe
  dsimp only
  cases tools.toYaml (policyMetadata vapData (tools.usedCapabilities used)
      (tools.contextAwareResources vapData wasmBytes)) with
  | error err => exact .inr ⟨fun yaml place h => (nomatch h.1), _, rfl⟩
  | ok yaml =>
    obtain ⟨r, t', hr⟩ := @noPanic_writeOutputFile P _ sys
      (metadataPathFor wasmPath) "metadata.yml" (intoBytes yaml) t
    cases r with
    | ok u =>
      obtain ⟨place, hcreates, rfl⟩ := writeOutputFile_eq_ok.1 hr
      exact .inl ⟨yaml, place, ⟨rfl, hcreates⟩, attempt_eq_ok.2 hr⟩
    | error e =>
      obtain rfl := writeOutputFile_eq_error hr
      refine .inr ⟨?_, e, attempt_eq_ok.2 hr⟩
      rintro yaml' place ⟨hyaml, hcreates⟩
      cases hyaml
      exact nomatch (writeOutputFile_eq_ok.2 ⟨place, hcreates, rfl⟩).symm.trans hr

/-- **Nothing can be left behind** once the module is at its place: it can be
finished, or removed. -/
def CanFinish (sys : System P) (tools : Toolchain Vap C) (vapData : VapData Vap) (wasmPath : String)
    (wasmBytes : List UInt8) (t : Tree P) (place : P) : Prop :=
  sys.fault (.canonicalize wasmPath) t = none ∧ ∃ used, tools.extensionsUsed wasmBytes = .ok used
    ∧ ((∃ yaml place', CanDescribe sys tools vapData wasmPath wasmBytes used t yaml place') →
      ∃ url, tools.fromFilePath (sys.absolute (skeleton t) place) = some url)
    ∧ ((∀ yaml place', ¬ CanDescribe sys tools vapData wasmPath wasmBytes used t yaml place') →
      sys.fault (.removeFile wasmPath) t = none)

def Restored (sys : System P) (wasmPath : String) (t t' : Tree P) : Prop :=
  sys.entry t' wasmPath = sys.entry t wasmPath ∧ sys.entry t' (metadataPathFor wasmPath)
    = sys.entry t (metadataPathFor wasmPath)

variable {place : P}

theorem not_restored_of_file {node : Node}
    (hcreates : sys.Creates t (parentDirOf wasmPath) wasmPath 0o666 wasmBytes place)
    (hlocate : sys.locate (skeleton t') wasmPath = some place) (hfile : t' place = some node) :
    ¬ Restored sys wasmPath t t' := by
  rintro ⟨hwasm, -⟩
  rw [hcreates.entry_eq_none, entry, hlocate, Option.bind_some, hfile] at hwasm
  cases hwasm

theorem describeModule_apply {mode : ℕ} (hlocate : sys.locate (skeleton t) wasmPath = some place)
    (hfile : t place = some ⟨mode, .file wasmBytes⟩) :
    describeModule sys tools vapData wasmPath false wasmBytes t
      = match sys.fault (.canonicalize wasmPath) t, tools.extensionsUsed wasmBytes with
        | some msg, _ => (.error ("cannot canonicalize " ++ wasmPath ++ ": " ++ msg), t)
        | none, .error err => (.error ("failed to read host extensions from "
          ++ "compiled module: " ++ err), t)
        | none, .ok used =>
          ((writeMetadataFile sys tools vapData (metadataPathFor wasmPath)
            (tools.usedCapabilities used)
            (tools.contextAwareResources vapData wasmBytes) false).attempt
            >>= concludeModule sys tools vapData wasmPath false (sys.absolute (skeleton t) place)
              (tools.contextAwareResources vapData wasmBytes)) t := by
  have hcanonicalize := canonicalize_of_file hlocate hfile
  unfold describeModule
  cases hfault : sys.fault (.canonicalize wasmPath) t with
  | some msg =>
    rw [hfault] at hcanonicalize
    exact bind_of_error (mapError_eq_error.2 ⟨_, hcanonicalize, rfl⟩) _
  | none =>
    rw [hfault] at hcanonicalize
    rw [bind_of_ok (mapError_eq_ok.2 hcanonicalize)]
    cases tools.extensionsUsed wasmBytes with
    | error err => rfl
    | ok used => rfl

theorem describeModule_restores_iff
    (hcreates : sys.Creates t (parentDirOf wasmPath) wasmPath 0o666 wasmBytes place) :
    (∀ e t', describeModule sys tools vapData wasmPath false wasmBytes
          (store t place (sys.masked 0o666) wasmBytes) = (.error e, t') →
        Restored sys wasmPath t t')
      ↔ CanFinish sys tools vapData wasmPath wasmBytes
        (store t place (sys.masked 0o666) wasmBytes) place := by
  have hlocate := hcreates.locate_store (sys.masked 0o666) wasmBytes
  have hfile : store t place (sys.masked 0o666) wasmBytes place
    = some ⟨_, .file wasmBytes⟩ := store_self
  have hclear : clear (store t place (sys.masked 0o666) wasmBytes) place = t :=
    clear_store hcreates.free
  generalize store t place (sys.masked 0o666) wasmBytes = written at *
  have hbehind := not_restored_of_file hcreates hlocate hfile
  rw [describeModule_apply hlocate hfile, CanFinish]
  -- a failure of one of the first two steps leaves the module behind
  cases sys.fault (.canonicalize wasmPath) written with
  | some msg => exact iff_of_false (fun h => hbehind (h _ _ rfl)) (by simp)
  | none =>
    cases tools.extensionsUsed wasmBytes with
    | error err => exact iff_of_false (fun h => hbehind (h _ _ rfl)) (by simp)
    | ok used =>
      simp only [true_and, Except.ok.injEq, exists_eq_left']
      obtain ⟨yaml, place', hdescribe, hrun⟩ | ⟨hcannot, err, hrun⟩ :=
        @attempt_writeMetadataFile P _ sys Vap C tools vapData wasmPath wasmBytes used written
      · -- both files are there, and only the URL is missing
        rw [bind_of_ok hrun, concludeModule]
        have hne : place ≠ place' := by
          rintro rfl
          exact nomatch hfile.symm.trans hdescribe.2.free
        cases tools.fromFilePath (sys.absolute (skeleton written) place) with
        | some module =>
          refine iff_of_true (fun e t' h => nomatch h) ⟨fun _ => ⟨_, rfl⟩, ?_⟩
          exact fun h => absurd hdescribe (h yaml place')
        | none =>
          refine iff_of_false (fun h => ?_) fun h => ?_
          · refine not_restored_of_file hcreates ?_ ((store_of_ne hne).trans hfile) (h _ _ rfl)
            rw [skeleton_store hdescribe.2.free, hlocate]
          · exact nomatch h.1 ⟨yaml, place', hdescribe⟩
      · -- only the module is there, and it is removed
        rw [bind_of_ok hrun]
        show (∀ e t', ((sys.removeFile wasmPath).attempt >>= fun _ =>
          throw err) written = (.error e, t') → _) ↔ _
        have hremove := removeFile_of_file hlocate hfile
        cases hfault : sys.fault (.removeFile wasmPath) written with
        | some msg =>
          rw [hfault] at hremove
          rw [bind_of_ok (attempt_eq_ok.2 (show Prog.Returns _ _ (.error _) _ from hremove))]
          exact iff_of_false (fun h => hbehind (h _ _ rfl)) fun h => nomatch h.2 hcannot
        | none =>
          rw [hfault] at hremove
          rw [bind_of_ok (attempt_eq_ok.2 (show Prog.Returns _ _ (.ok _) _ from hremove)), hclear]
          refine iff_of_true (fun e t' h => ?_) ⟨fun ⟨yaml, place', h⟩ =>
            absurd h (hcannot yaml place'), fun _ => rfl⟩
          cases h
          exact ⟨rfl, rfl⟩

/-- **When a failure leaves nothing behind**: without `--force`, if and only if
nothing but writing the metadata can go wrong once the module is in place. -/
theorem vapCompiled_restores_iff (vapData : VapData Vap) (wasmPath : String) (t : Tree P) :
    (∀ e t', vapCompiled sys tools vapData wasmPath false t = (.error e, t') →
      sys.entry t' wasmPath = sys.entry t wasmPath ∧ sys.entry t' (metadataPathFor wasmPath)
        = sys.entry t (metadataPathFor wasmPath))
      ↔ ∀ wasmBytes place, fileName wasmPath ≠ fileName (metadataPathFor wasmPath) →
        sys.leads t (metadataPathFor wasmPath) = false →
        tools.compileVapFromPolicy vapData.vap = .ok wasmBytes →
        sys.Creates t (parentDirOf wasmPath) wasmPath 0o666 wasmBytes place →
        CanFinish sys tools vapData wasmPath wasmBytes
          (store t place (sys.masked 0o666) wasmBytes) place := by
  constructor
  · intro h wasmBytes place hname hmetadata hcompile hcreates
    have hwritten := writeModule_eq_ok.2 ⟨hname, hmetadata, hcompile, place, hcreates, rfl⟩
    refine (describeModule_restores_iff hcreates).1 fun e t' hrun => h e t' ?_
    rw [← hrun]
    exact bind_of_ok hwritten _
  · intro h e t' hrun
    obtain hwrite | ⟨wasmBytes, written, hwritten, hrest⟩ := bind_eq_error.1 hrun
    · rw [writeModule_eq_error hwrite]
      exact ⟨rfl, rfl⟩
    · obtain ⟨hname, hmetadata, hcompile, place, hcreates, rfl⟩ := writeModule_eq_ok.1 hwritten
      exact (describeModule_restores_iff hcreates).2
        (h wasmBytes place hname hmetadata hcompile hcreates) e t' hrest

end

/-! ## A module that is left behind -/

def sampleSystem (fault : Call String → Tree String → Option String) : System String where
  locate _ path := some path
  follow _ path := some path
  absolute _ path := "/work/" ++ path
  stage t _ := if (t ".tmp").isSome then .error "too many temporary files exist" else .ok ".tmp"
  umask := 0o022
  fault := fault
  stage_free := by
    intro t dir place h
    split at h
    · cases h
    · next hnone =>
      cases h
      simpa using hnone
  follow_of_locate := fun _ _ _ h _ => h

def sampleToolchain : Toolchain Unit Unit where
  compileVapFromPolicy _ := .ok [0]
  extensionsUsed _ := .ok []
  vapVariablesUsed _ := .ok []
  decoders :=
    { get := fun _ => .error "no map"
      list := fun _ => .error "no map"
      verify := fun _ => .error "no map"
      pubKeyVerify := fun _ => .error "no map"
      keylessVerify := fun _ => .error "no map"
      keylessPrefixVerify := fun _ => .error "no map"
      githubActionsVerify := fun _ => .error "no map"
      certificateVerify := fun _ => .error "no map"
      certificateRequest := fun _ _ _ => ()
      response := fun _ => .error "no answer" }
  toYaml _ := .ok "executionMode: ferricel"
  fromFilePath path := some ("file://" ++ path)

def sampleVapData : VapData Unit where
  vap := ()
  metadata := ⟨some "binding", none, none, none⟩
  rules := []
  matchPolicy := none
  namespaceSelector := none
  objectSelector := none
  settings := []
  paramResource := none
  usesNamespaceObject := false
  mode := .protect

/-- **A module is left behind** when its absolute path is too long. -/
theorem module_is_left_behind :
    let sys := sampleSystem fun c _ =>
      match c with
      | .canonicalize _ => some "File name too long (os error 36)"
      | _ => none
    ∃ e t', vapCompiled sys sampleToolchain sampleVapData "validating-policy.wasm"
      false (fun _ => none) = (.error e, t')
      ∧ sys.entry (fun _ => none) "validating-policy.wasm" = none
      ∧ sys.entry t' "validating-policy.wasm" = some ⟨0o644, .file [0]⟩ := by
  refine ⟨_, _, rfl, rfl, rfl⟩

end Scaffold
