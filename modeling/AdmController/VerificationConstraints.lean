import AdmController.VerificationConfig

/-!
# Verification constraints

The constraints of `policy-fetcher`'s `verify::verification_constraints`, built
from a signature of the configuration (`Signature.verifier`): a public key, a
generic issuer with a subject, or a GitHub Action, each with optional
annotations.
-/

open Serde

/-! ## Signature layers -/

inductive CertificateSubject where
  | email (e : String)
  | uri (u : String)
deriving DecidableEq

structure CertificateSignature where
  subject : CertificateSubject
  (issuer githubWorkflowRepository : Option String)
deriving DecidableEq

/-- A trusted signature layer: the certificate, if keyless, and other data. -/
structure SignatureLayer (R : Type) where
  certificateSignature : Option CertificateSignature
  raw : R

abbrev VerificationConstraint (R : Type) := SignatureLayer R → Except String Bool

/-- The signature library: public keys, two constraints, and the check. -/
structure Sigstore (R K : Type) where
  publicKeyTryFrom : String → Except String K
  publicKeyVerify : K → VerificationConstraint R
  annotationVerify : Annotations → VerificationConstraint R
  verifyConstraints : List (SignatureLayer R) → List (VerificationConstraint R) → Except String Unit

/-- The behaviour of the library: some layer fulfils the constraint. -/
def Sigstore.Lawful {R K : Type} (sigstore : Sigstore R K) : Prop :=
  ∀ layers c, (∃ u, sigstore.verifyConstraints layers [c] = .ok u) ↔ ∃ sl ∈ layers, c sl = .ok true

section

variable {U R K : Type} (urls : UrlLib U) (sigstore : Sigstore R K)

/-! ## Verification constraints -/

def verifyAnnotations (annotations : Option Annotations) (outcome : Bool) :
    VerificationConstraint R := fun sl =>
  match annotations with
  | some av => if outcome then sigstore.annotationVerify av sl else .ok false
  | none => .ok outcome

structure PublicKeyAndAnnotationsVerifier (K : Type) where
  owner : Option String
  pubKeyVerifier : K
  annotationVerifier : Option Annotations

def PublicKeyAndAnnotationsVerifier.new (owner : Option String)
    (key : String) (annotations : Option Annotations) :
    Except VerifyError (PublicKeyAndAnnotationsVerifier K) :=
  match sigstore.publicKeyTryFrom key with
  | .error e => .error (.failedToFetchTrustedLayersError e)
  | .ok k => .ok ⟨owner, k, annotations⟩

def PublicKeyAndAnnotationsVerifier.verify
    (v : PublicKeyAndAnnotationsVerifier K) : VerificationConstraint R :=
  fun sl => do
    let outcome ← sigstore.publicKeyVerify v.pubKeyVerifier sl
    verifyAnnotations sigstore v.annotationVerifier outcome sl

structure GenericIssuerSubjectVerifier (U : Type) where
  issuer : String
  subject : Subject U
  annotationVerifier : Option Annotations

def GenericIssuerSubjectVerifier.new (issuer : String) (subject : Subject U)
    (annotations : Option Annotations) : GenericIssuerSubjectVerifier U :=
  let s := match subject with
    | .equal value => .equal value
    | .urlPrefix url =>
      if RustStr.endsWith (urls.toString url) "/" then .urlPrefix url
      else .urlPrefix (urls.appendSlash url)
  ⟨issuer, s, annotations⟩

def CertificateSubject.text : CertificateSubject → String
  | .email e => e
  | .uri u => u

variable (v : GenericIssuerSubjectVerifier U)

def GenericIssuerSubjectVerifier.verifySubjectEqual (expected : String)
    (cs : CertificateSignature) : Bool :=
  some v.issuer == cs.issuer && expected == cs.subject.text

def GenericIssuerSubjectVerifier.verifySubjectUrlPrefix (url : U)
    (cs : CertificateSignature) : Bool :=
  some v.issuer == cs.issuer && RustStr.startsWith cs.subject.text (urls.toString url)

def GenericIssuerSubjectVerifier.verify : VerificationConstraint R :=
  fun sl =>
    match sl.certificateSignature with
    | none => .ok false
    | some cs =>
      let basicCheck := match v.subject with
        | .equal value => v.verifySubjectEqual value cs
        | .urlPrefix url => v.verifySubjectUrlPrefix urls url cs
      verifyAnnotations sigstore v.annotationVerifier basicCheck sl

def githubActionIssuer : String := "https://token.actions.githubusercontent.com"

structure GitHubRepo where
  (owner repo : String)
deriving DecidableEq

/-- Read the repository off a GitHub URL. -/
def GitHubRepo.tryFrom (u : String) : Except VerifyError GitHubRepo :=
  match urls.parse u with
  | .error e => .error (.githubUrlParserError ("Cannot parse github url: " ++ e))
  | .ok u =>
    if urls.hostStr u ≠ some "github.com" then
      .error (.githubUrlParserError "Not a GitHub url: host doesn't match")
    else
      match urls.pathSegments u with
      | none => .error (.githubUrlParserError "Cannot parse GitHub url: no path segments")
      | some [] => .error (.githubUrlParserError "cannot parse github url: owner not found")
      | some [_] => .error (.githubUrlParserError "cannot parse github url: repo not found")
      | some (owner :: repo :: _) => .ok ⟨owner, repo⟩

structure GitHubVerifier where
  owner : String
  repo : Option String
  annotationVerifier : Option Annotations

def GitHubVerifier.verify (v : GitHubVerifier) : VerificationConstraint R :=
  fun sl =>
    match sl.certificateSignature with
    | none => .ok false
    | some cs =>
      if cs.issuer ≠ some githubActionIssuer then .ok false
      else match cs.subject with
      | .email _ => .ok false
      | .uri signatureSubject =>
        match GitHubRepo.tryFrom urls signatureSubject with
        | .error _ => .error ("The certificate subject url doesn't seem a "
          ++ "GitHub valid one, despite the issuer being the GitHub "
          ++ "Action one: " ++ signatureSubject)
        | .ok _ => match cs.githubWorkflowRepository with
          | none => .error ("The certificate is missing the "
            ++ "github_workflow_repository extension despite being a GitHub Action one")
          | some workflowRepository =>
            match GitHubRepo.tryFrom urls ("https://github.com/" ++ workflowRepository) with
            | .error _ => .error ("The certificate doesn't have a valid "
              ++ "github_workflow_repository extension, despite the "
              ++ "issuer being the GitHub Action one: "
              ++ workflowRepository)
            | .ok signatureRepo =>
              if signatureRepo.owner ≠ v.owner then .ok false
              else if v.repo.any (fun repo => signatureRepo.repo != repo)
              then .ok false
              else verifyAnnotations sigstore v.annotationVerifier true sl

def Signature.verifier : Signature U → Except VerifyError (VerificationConstraint R)
  | .pubKey owner key annotations =>
    (PublicKeyAndAnnotationsVerifier.new sigstore owner key annotations).map
      (fun v => v.verify sigstore)
  | .genericIssuer issuer subject annotations =>
    .ok ((GenericIssuerSubjectVerifier.new urls issuer subject annotations).verify urls sigstore)
  | .githubAction owner repo annotations =>
    .ok (GitHubVerifier.verify urls sigstore ⟨owner, repo, annotations⟩)

end

/-! ## Concrete libraries -/

def UrlLib.text : UrlLib String where
  parse := .ok
  toString := id
  hostStr := fun _ => none
  path := id
  pathSegments := fun _ => none
  setPath := fun _ path => path
  appendSlash := fun u => u ++ "/"
  parse_slash := fun _ => rfl

def Sigstore.byKeyName : Sigstore String String where
  publicKeyTryFrom := .ok
  publicKeyVerify := fun key sl => .ok (sl.raw == key)
  annotationVerify := fun _ _ => .ok true
  verifyConstraints := fun layers constraints =>
    if ∀ c ∈ constraints, ∃ sl ∈ layers, c sl = .ok true then .ok ()
    else .error "unsatisfied constraints"

theorem Sigstore.byKeyName_lawful : Sigstore.byKeyName.Lawful := by
  intro layers c
  unfold Sigstore.byKeyName
  simp only [List.mem_singleton, forall_eq]
  split
  · next h => exact iff_of_true ⟨(), rfl⟩ h
  · next h => exact iff_of_false (by rintro ⟨u, hu⟩; cases hu) h

def YamlLib.plain (fromStr : String → Except String Value) : YamlLib String where
  fromStr := fromStr
  toString := fun _ => .ok "signature\n"
  content := ⟨false, false, false⟩
  value := ⟨false, false, false⟩
