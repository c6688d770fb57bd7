import AdmController.Store

/-!
# Immutable references of pushed policies

`build_immutable_ref` puts the digest at the end of the URL of a pushed
manifest behind the name of the image. Regular expressions are searched for in
the digest, so that enough digits with anything around them are accepted.
-/

open RustStr List

inductive RegistryError where
  | invalidOciImageReferenceError (e : String)
  | buildImmutableReferenceError (message : String)
deriving DecidableEq

def RegistryError.display : RegistryError → String
  | .invalidOciImageReferenceError e => "Invalid OCI image reference: " ++ e
  | .buildImmutableReferenceError message => message

def isHexDigit (c : Char) : Bool :=
  ('A' ≤ c && c ≤ 'F') || ('a' ≤ c && c ≤ 'f') || ('0' ≤ c && c ≤ '9')

def sha256DigestReIsMatch (checksum : String) : Bool := hasRun isHexDigit 64 checksum

def sha512DigestReIsMatch (checksum : String) : Bool := hasRun isHexDigit 128 checksum

section

variable {U : Type} (lib : FetcherLib U)

def digestValid (manifestDigest digest checksum : String) : Except RegistryError Bool :=
  if digest = "sha256" then .ok (sha256DigestReIsMatch checksum)
  else if digest = "sha512" then .ok (sha512DigestReIsMatch checksum)
  else .error (.buildImmutableReferenceError
    ("unknown algorithm '" ++ digest ++ "' for manifest " ++ manifestDigest))

def imageName (reference : Reference) : String :=
  if reference.registry = "" then reference.repository
  else reference.registry ++ "/" ++ reference.repository

/-- **`build_immutable_ref`**. -/
def buildImmutableRef (imageRef manifestUrl : String) : Except RegistryError String :=
  match rsplitOnce manifestUrl '/' with
  | none => .error (.buildImmutableReferenceError
    ("Cannot extract manifest digest from the OCI registry response: " ++ manifestUrl))
  | some (_, manifestDigest) =>
    match splitOnce manifestDigest ':' with
    | none => .error (.buildImmutableReferenceError ("Invalid digest: " ++ manifestDigest))
    | some (digest, checksum) => do
      let valid ← digestValid manifestDigest digest checksum
      if !valid then
        throw (.buildImmutableReferenceError
          ("The digest of the returned manifest is not valid: " ++ manifestDigest))
      let reference ← (lib.referenceTryFrom imageRef).mapError .invalidOciImageReferenceError
      return imageName reference ++ "@" ++ manifestDigest

/-! ## Which digests are meant, and which are accepted -/

/-- A text of `n` hexadecimal digits. -/
def IsHex (n : ℕ) (s : String) : Prop := s.toList.length = n ∧ ∀ c ∈ s.toList, isHexDigit c = true

instance (n : ℕ) (s : String) : Decidable (IsHex n s) := inferInstanceAs (Decidable (_ ∧ _))

/-- **The digests that are meant**: an algorithm and its number of digits. -/
def ValidDigest (d : String) : Prop :=
  (∃ checksum, d = "sha256:" ++ checksum ∧ IsHex 64 checksum)
    ∨ ∃ checksum, d = "sha512:" ++ checksum ∧ IsHex 128 checksum

/-- **The digests that are accepted**: with enough digits somewhere behind. -/
def AcceptedDigest (d : String) : Prop :=
  (∃ front checksum back, d = "sha256:" ++ (front ++ checksum ++ back) ∧ IsHex 64 checksum)
    ∨ ∃ front checksum back, d = "sha512:" ++ (front ++ checksum ++ back) ∧ IsHex 128 checksum

variable {d : String}

theorem acceptedDigest_of_validDigest (h : ValidDigest d) : AcceptedDigest d := by
  rcases h with ⟨checksum, rfl, hhex⟩ | ⟨checksum, rfl, hhex⟩
  · exact .inl ⟨"", checksum, "", by simp, hhex⟩
  · exact .inr ⟨"", checksum, "", by simp, hhex⟩

theorem hasRun_isHexDigit_iff {n : ℕ} {s : String} : hasRun isHexDigit n s = true
    ↔ ∃ front checksum back, s = front ++ checksum ++ back ∧ IsHex n checksum :=
  hasRun_iff

theorem digestValid_eq_ok {d digest checksum : String} : digestValid d digest checksum = .ok true
    ↔ digest = "sha256" ∧ hasRun isHexDigit 64 checksum = true
      ∨ digest = "sha512" ∧ hasRun isHexDigit 128 checksum = true := by
  unfold digestValid
  split
  · next h256 => simp [h256, sha256DigestReIsMatch]
  · next h256 =>
    split
    · next h512 => simp [h512, sha512DigestReIsMatch]
    · next h512 => simp [h256, h512]

theorem exists_splitOnce_iff {d algorithm : String} {n : ℕ}
    (halgorithm : contains algorithm ':' = false) :
    (∃ digest checksum, splitOnce d ':' = some (digest, checksum)
      ∧ digest = algorithm ∧ hasRun isHexDigit n checksum = true)
      ↔ ∃ front checksum back, d = algorithm ++ ":"
        ++ (front ++ checksum ++ back) ∧ IsHex n checksum := by
  constructor
  · rintro ⟨digest, checksum, hsplit, rfl, hrun⟩
    obtain ⟨front, hex, back, rfl, hhex⟩ := hasRun_isHexDigit_iff.1 hrun
    exact ⟨front, hex, back, (splitOnce_eq_some.1 hsplit).1, hhex⟩
  · rintro ⟨front, hex, back, hd, hhex⟩
    exact ⟨algorithm, front ++ hex ++ back, splitOnce_eq_some.2 ⟨hd, halgorithm⟩, rfl,
      hasRun_isHexDigit_iff.2 ⟨front, hex, back, rfl, hhex⟩⟩

theorem exists_digestValid_iff : (∃ digest checksum, splitOnce d ':' = some (digest, checksum)
    ∧ digestValid d digest checksum = .ok true)
    ↔ AcceptedDigest d := by
  simp only [digestValid_eq_ok, and_or_left, exists_or]
  exact or_congr (exists_splitOnce_iff (by decide)) (exists_splitOnce_iff (by decide))

variable {lib}

theorem buildImmutableRef_eq_ok {imageRef manifestUrl r : String} :
    buildImmutableRef lib imageRef manifestUrl = .ok r
      ↔ ∃ reference front d, lib.referenceTryFrom imageRef = .ok reference
        ∧ manifestUrl = front ++ "/" ++ d ∧ contains d '/' = false
        ∧ AcceptedDigest d ∧ r = imageName reference ++ "@" ++ d := by
  have hslash : ∀ front d, rsplitOnce manifestUrl '/' = some (front, d)
      ↔ manifestUrl = front ++ "/" ++ d ∧ contains d '/' = false :=
    fun _ _ => rsplitOnce_eq_some
  unfold buildImmutableRef
  constructor
  · intro h
    split at h
    · cases h
    · next front d hd =>
      split at h
      · cases h
      · next digest checksum hdigest =>
        obtain ⟨valid, hvalid, h⟩ := Fallible.bind_eq_ok.1 h
        cases valid with
        | false => cases h
        | true =>
          obtain ⟨reference, hreference, h⟩ := Fallible.bind_eq_ok.1 h
          obtain ⟨hurl, hd⟩ := (hslash front d).1 hd
          exact ⟨reference, front, d, Fallible.mapError_eq_ok.1 hreference,
            hurl, hd, exists_digestValid_iff.1 ⟨_, _, hdigest, hvalid⟩,
            (Except.ok.inj h).symm⟩
  · rintro ⟨reference, front, d, hreference, hurl, hd, haccepted, rfl⟩
    obtain ⟨digest, checksum, hdigest, hvalid⟩ := exists_digestValid_iff.2 haccepted
    simp only [(hslash front d).2 ⟨hurl, hd⟩, hdigest, hvalid, hreference]
    rfl

/-! ## The contract -/

variable (lib) in
/-- **The contract of `build_immutable_ref`**: it succeeds exactly for an image
that parses and a valid digest behind the last slash of the URL. -/
def ImmutableRefContract (imageRef manifestUrl : String) : Prop :=
  ∀ r, buildImmutableRef lib imageRef manifestUrl = .ok r
    ↔ ∃ reference front d, lib.referenceTryFrom imageRef = .ok reference
      ∧ manifestUrl = front ++ "/" ++ d ∧ contains d '/' = false
      ∧ ValidDigest d
      ∧ r = reference.registry ++ "/" ++ reference.repository ++ "@" ++ d

theorem imageName_eq_iff {reference : Reference} : imageName reference ++ "@" ++ d
      = reference.registry ++ "/" ++ reference.repository ++ "@" ++ d
    ↔ reference.registry ≠ "" := by
  unfold imageName
  split
  · next hempty =>
    refine iff_of_false (fun h => ?_) (not_not.2 hempty)
    have hlength := congrArg (fun s => s.toList.length) h
    simp only [String.toList_append, length_append, hempty,
      String.toList_empty, length_nil] at hlength
    have hslash : "/".toList.length = 1 := rfl
    omega
  · next hne => exact iff_of_true rfl hne

/-- **The contract holds when the search is exact**: every digest in which
enough digits stand next to each other is meant, and there is a registry. -/
theorem buildImmutableRef_contract_iff (lib : FetcherLib U) (imageRef manifestUrl : String) :
    ImmutableRefContract lib imageRef manifestUrl
      ↔ ∀ reference front d, lib.referenceTryFrom imageRef = .ok reference →
        manifestUrl = front ++ "/" ++ d → contains d '/' = false →
        AcceptedDigest d → ValidDigest d ∧ reference.registry ≠ "" := by
  unfold ImmutableRefContract
  simp only [buildImmutableRef_eq_ok]
  constructor
  · intro h reference front d hreference hurl hd haccepted
    obtain ⟨reference', front', d', hreference', hurl', hd', hvalid, hr⟩ :=
      (h _).1 ⟨reference, front, d, hreference, hurl, hd, haccepted, rfl⟩
    obtain rfl := Except.ok.inj (hreference.symm.trans hreference')
    obtain ⟨rfl, rfl⟩ := Prod.mk.inj (Option.some.inj ((rsplitOnce_eq_some.2 ⟨hurl, hd⟩).symm.trans
      (rsplitOnce_eq_some.2 ⟨hurl', hd'⟩)))
    exact ⟨hvalid, imageName_eq_iff.1 hr⟩
  · intro h r
    refine exists_congr (fun reference => exists_congr (fun front =>
      exists_congr (fun d => ?_)))
    constructor
    · rintro ⟨hreference, hurl, hd, haccepted, rfl⟩
      obtain ⟨hvalid, hregistry⟩ := h _ _ _ hreference hurl hd haccepted
      exact ⟨hreference, hurl, hd, hvalid, imageName_eq_iff.2 hregistry⟩
    · rintro ⟨hreference, hurl, hd, hvalid, rfl⟩
      have haccepted := acceptedDigest_of_validDigest hvalid
      exact ⟨hreference, hurl, hd, haccepted,
        (imageName_eq_iff.2 (h _ _ _ hreference hurl hd haccepted).2).symm⟩

end

def overlongManifestUrl : String :=
  "https://ghcr.io/v2/p/manifests/sha256:" ++ String.ofList (replicate 65 'a')

/-- **A checksum of 65 digits is accepted**, which is no digest. -/
theorem overlong_digest_is_accepted : buildImmutableRef .text "ghcr.io/p:latest" overlongManifestUrl
        = .ok ("ghcr.io/p@sha256:" ++ String.ofList (replicate 65 'a'))
      ∧ ¬ ImmutableRefContract .text "ghcr.io/p:latest" overlongManifestUrl := by
  have hok : buildImmutableRef .text "ghcr.io/p:latest" overlongManifestUrl
      = .ok ("ghcr.io/p@sha256:" ++ String.ofList (replicate 65 'a')) := by
    decide +kernel
  refine ⟨hok, fun h => ?_⟩
  obtain ⟨reference, front, d, -, hurl, hd, hvalid, -⟩ := (h _).1 hok
  have hsplit : rsplitOnce overlongManifestUrl '/' = some ("https://ghcr.io/v2/p/manifests",
        "sha256:" ++ String.ofList (replicate 65 'a')) := by
    decide +kernel
  obtain ⟨-, rfl⟩ := Prod.mk.inj (Option.some.inj
    (hsplit.symm.trans (rsplitOnce_eq_some.2 ⟨hurl, hd⟩)))
  have hlength : ∀ algorithm checksum n, algorithm.toList.length = 7 →
      "sha256:" ++ String.ofList (replicate 65 'a')
        = algorithm ++ checksum → IsHex n checksum → n = 65 := by
    intro algorithm checksum n halgorithm heq hhex
    have hlength := congrArg (fun s => s.toList.length) heq
    simp only [String.toList_append, length_append, halgorithm,
      String.toList_ofList, length_replicate, hhex.1] at hlength
    have hsha256 : "sha256:".toList.length = 7 := rfl
    omega
  rcases hvalid with ⟨checksum, heq, hhex⟩ | ⟨checksum, heq, hhex⟩
  · exact absurd (hlength _ _ _ rfl heq hhex) (by decide)
  · exact absurd (hlength _ _ _ rfl heq hhex) (by decide)
