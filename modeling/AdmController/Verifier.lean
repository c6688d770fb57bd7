import AdmController.Fetcher
import AdmController.PrecompiledPolicies
import AdmController.SignatureVerification

/-!
# The verifier

`verify::Verifier`: the signatures of the image are held against the
configuration (`Verifier.verify`), and the digest of the local file is compared
with that of the only Wasm layer (`verifyLocalFileChecksum`).
-/

open RustStr Prog FetchedPolicy

/-! ## The outside world of a server -/

/-- An error of the library: its text, and whether a pull failed. -/
structure SigstoreError where
  isRegistryPullManifestError : Bool
  text : String

/-- Third-party code that does not touch the world. -/
structure Libraries (U R K : Type) extends FetcherLib U where
  sigstore : Sigstore R K
  yaml : YamlLib U
  wasm : WasmLib
  ociReferenceFromStr : String → Except SigstoreError String

/-- **The outside world** of a server. `T` are the trust roots, `C` the
signature clients, `R` the data of signature layers. Hash maps have an `order`.
-/
structure Outside (W T C R : Type) extends Remote W where
  createSigstoreTrustroot : Prog W String T
  kubeClientTryDefault : Prog W String Unit
  buildCallbackHandler : Option T → Bool → Prog W String Unit
  buildCosignClient : Option Sources → T → Prog W SigstoreError C
  triangulate : C → String → Prog W SigstoreError String
  trustedSignatureLayers : C → String → Prog W SigstoreError (List (SignatureLayer R))
  wasmtimeEngineNew : Bool → Prog W String Unit
  order : HashMap String String → HashMap String String
  order_perm : ∀ m, (order m).entries.Perm m.entries

variable {W T C R U K : Type}

section

variable (libs : Libraries U R K) (o : Outside W T C R)

/-! ## Verifying the signatures of an image -/

def fetchSigstoreRemoteData (cosignClient : C) (imageUrl : String) :
    Prog W VerifyError (String × List (SignatureLayer R)) := do
  let reference ← .ofExcept ((buildFullyResolvedReference libs.toFetcherLib imageUrl).mapError
    .registryError)
  let imageOciRef ← .ofExcept ((libs.ociReferenceFromStr reference.whole)
    |>.mapError (fun e => .failedToFetchTrustedLayersError e.text))
  let sourceImageDigest ← (o.triangulate cosignClient imageOciRef).mapError
    (fun e => .failedToFetchTrustedLayersError e.text)
  let layers ← (o.trustedSignatureLayers cosignClient imageOciRef).mapError (fun e =>
      if e.isRegistryPullManifestError then
        .imageVerificationError ("no signatures found for image: " ++ reference.whole ++ " ")
      else .failedToFetchTrustedLayersError e.text)
  return (sourceImageDigest, layers)

structure Verifier (C : Type) where
  cosignClient : C
  sources : Option Sources

def Verifier.new (sources : Option Sources) (trustRoot : T) : Prog W VerifyError (Verifier C) := do
  let cosignClient ← (o.buildCosignClient sources trustRoot).mapError
    (fun e => .failedToFetchTrustedLayersError e.text)
  return ⟨cosignClient, sources⟩

def Verifier.verify (ver : Verifier C) (imageUrl : String)
    (verificationConfig : LatestVerificationConfig U) :
    Prog W VerifyError String := do
  let data ← fetchSigstoreRemoteData libs o ver.cosignClient imageUrl
  ofExcept (verifySignaturesAgainstConfig libs.urls libs.sigstore
    libs.yaml verificationConfig data.2)
  return data.1

end

/-! ## Verifying the downloaded file -/

def wasmLayerDigests (layers : List OciDescriptor) : List String :=
  layers.filterMap (fun layer =>
    if layer.mediaType = wasmLayerMediaType then some layer.digest else none)

variable (policy : FetchedPolicy)

def FetchedPolicy.imageName : String := (stripPrefix policy.uri "registry://").getD policy.uri

def Reference.imageImmutableRef (reference : Reference) (digest : String) : String :=
  "registry://" ++ reference.registry ++ "/" ++ reference.repository ++ "@" ++ digest

section

variable (libs : Libraries U R K) (o : Outside W T C R)

def FetchedPolicy.digest :
    Prog W VerifyError String := do
  let contents ← (o.readFile policy.localPath).mapError
    (fun e => .digestErrors ("cannot retrieve path from uri: " ++ e))
  return libs.wasm.sha256 contents

def FetchedPolicy.compareDigest : List String → Prog W VerifyError Unit
  | [digest] =>
    match stripPrefix digest "sha256:" with
    | none => .throw (.checksumVerificationError
      ("The checksum inside of the remote manifest is not using the "
        ++ "sha256 hashing algorithm as expected."))
    | some expectedDigest => do
      let fileDigest ← policy.digest libs o
      if fileDigest ≠ expectedDigest then
        .throw (.checksumVerificationError
          ("The digest of the local file doesn't match with the one "
            ++ "reported inside of the signed manifest. Got "
            ++ fileDigest ++ " instead of " ++ expectedDigest))
      else return ()
  | _ => .throw (.checksumVerificationError
    ("Cannot verify local file integrity, the remote manifest doesn't have only one WASM layer"))

/-- **`Verifier::verify_local_file_checksum`**: a file and its manifest. -/
def Verifier.verifyLocalFileChecksum (ver : Verifier C)
    (policy : FetchedPolicy) (verifiedManifestDigest : String) :
    Prog W VerifyError Unit := do
  let reference ← ofExcept ((libs.referenceTryFrom policy.imageName)
    |>.mapError .invalidOCIImageReferenceError)
  let found ← .ask (o.pathExists policy.localPath)
  if !found then .throw (.missingWasmFileError policy.localPath)
  else do
    let manifest ← (manifest libs.toFetcherLib o.toRemote
      (reference.imageImmutableRef verifiedManifestDigest) ver.sources).mapError .registryError
    match manifest with
    | .image layers => policy.compareDigest libs o (wasmLayerDigests layers)
    -- `unreachable!`: the client is expected to fail earlier
    | .imageIndex => .panic

/-! ## What a successful check has found -/

/-- **The local file is the one of the manifest**: of its only Wasm layer, by
the SHA-256 digest. The check begins in `w` and ends in `w'`. -/
def Verifier.MatchesManifest (ver : Verifier C) (policy : FetchedPolicy)
    (manifestDigest : String) (w w' : W) : Prop :=
  ∃ reference w₁ layers w₂ contents, libs.referenceTryFrom policy.imageName = .ok reference
    ∧ o.pathExists policy.localPath w = (true, w₁)
    ∧ manifest libs.toFetcherLib o.toRemote
      (reference.imageImmutableRef manifestDigest) ver.sources w₁
      = (.ok (.image layers), w₂)
    ∧ o.readFile policy.localPath w₂ = (.ok contents, w')
    ∧ wasmLayerDigests layers = ["sha256:" ++ libs.wasm.sha256 contents]

variable {libs o} {w w' : W} {policy : FetchedPolicy}

theorem FetchedPolicy.digest_eq_ok {d : String} : policy.digest libs o w = (.ok d, w')
    ↔ ∃ contents, o.readFile policy.localPath w = (.ok contents, w')
      ∧ libs.wasm.sha256 contents = d := by
  unfold digest
  simp only [bind_eq_ok, mapError_eq_ok, pure_eq_ok]
  exact ⟨fun ⟨contents, _, hread, hd, hw⟩ => ⟨contents, hw ▸ hread, hd⟩,
    fun ⟨contents, hread, hd⟩ => ⟨contents, w', hread, hd, rfl⟩⟩

theorem FetchedPolicy.compareDigest_eq_ok {digests : List String} :
    policy.compareDigest libs o digests w = (.ok (), w')
      ↔ ∃ contents, o.readFile policy.localPath w = (.ok contents, w')
        ∧ digests = ["sha256:" ++ libs.wasm.sha256 contents] := by
  match digests with
  | [] => exact iff_of_false throw_ne_ok (by rintro ⟨_, -, ⟨⟩⟩)
  | _ :: _ :: _ => exact iff_of_false throw_ne_ok (by rintro ⟨_, -, ⟨⟩⟩)
  | [digest] =>
    rw [compareDigest]
    cases hstrip : stripPrefix digest "sha256:" with
    | none =>
      refine iff_of_false throw_ne_ok ?_
      rintro ⟨contents, -, hdigest⟩
      rw [stripPrefix_eq_some.2 (List.singleton_inj.1 hdigest)] at hstrip
      cases hstrip
    | some expected =>
      rw [stripPrefix_eq_some.1 hstrip]
      simp only [bind_eq_ok, digest_eq_ok, List.singleton_inj, String.append_right_inj]
      constructor
      · rintro ⟨d, w₁, ⟨contents, hread, rfl⟩, h⟩
        split at h
        · exact absurd h throw_ne_ok
        · next hd =>
          obtain ⟨-, rfl⟩ := pure_eq_ok.1 h
          exact ⟨contents, hread, (not_not.1 hd).symm⟩
      · rintro ⟨contents, hread, rfl⟩
        refine ⟨_, w', ⟨contents, hread, rfl⟩, ?_⟩
        rw [if_neg (not_not.2 rfl)]
        rfl

theorem Verifier.verifyLocalFileChecksum_eq_ok {ver : Verifier C} {manifestDigest : String} :
    ver.verifyLocalFileChecksum libs o policy manifestDigest w = (.ok (), w')
      ↔ ver.MatchesManifest libs o policy manifestDigest w w' := by
  unfold Verifier.verifyLocalFileChecksum Verifier.MatchesManifest
  simp only [bind_eq_ok, ofExcept_eq_ok, ask_eq_ok, Fallible.mapError_eq_ok]
  constructor
  · rintro ⟨reference, _, ⟨hreference, rfl⟩, found, w₁, hfound, h⟩
    cases found with
    | false => exact absurd h throw_ne_ok
    | true =>
      obtain ⟨manifest, w₂, hmanifest, h⟩ := bind_eq_ok.1 h
      cases manifest with
      | imageIndex => exact absurd h panic_ne_ok
      | image layers =>
        obtain ⟨contents, hread, hlayers⟩ := compareDigest_eq_ok.1 h
        exact ⟨reference, w₁, layers, w₂, contents, hreference, hfound,
          mapError_eq_ok.1 hmanifest, hread, hlayers⟩
  · rintro ⟨reference, w₁, layers, w₂, contents, hreference, hfound, hmanifest, hread, hlayers⟩
    refine ⟨reference, w, ⟨hreference, rfl⟩, true, w₁, hfound, ?_⟩
    exact bind_eq_ok.2 ⟨_, w₂, mapError_eq_ok.2 hmanifest,
      compareDigest_eq_ok.2 ⟨contents, hread, hlayers⟩⟩

end
