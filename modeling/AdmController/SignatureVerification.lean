import AdmController.VerificationConstraints

/-!
# Verifying the signatures of an image

`verifySignaturesAgainstConfig` holds the trusted signature layers of an image
against a configuration. The verdict depends on which signatures are satisfied
only (`verifySignaturesAgainstConfig_ok_iff`).
-/

open Serde Fallible

section

variable {U R K : Type} (urls : UrlLib U) (sigstore : Sigstore R K) (yaml : YamlLib U)

/-! ## Holding the layers against the configuration -/

def isUnsatisfied (layers : List (SignatureLayer R)) (signature : Signature U) : Bool :=
  match signature.verifier urls sigstore with
  | .ok verifier =>
    match sigstore.verifyConstraints layers [verifier] with
    | .ok _ => false
    | .error _ => true
  | .error _ => true

def pushConstraints (errormsg : String) (signatures : List (Signature U)) :
    Except VerifyError String :=
  signatures.foldlM (fun msg s =>
    match yaml.toString s with
    | .ok text => .ok (msg ++ text)
    | .error e => .error (.failedToParseYamlDataError e)) errormsg

def verifyAllOf (signaturesAllOf : List (Signature U))
    (layers : List (SignatureLayer R)) : Except VerifyError Unit :=
  let unsatisfied := signaturesAllOf.filter (isUnsatisfied urls sigstore layers)
  if unsatisfied.isEmpty then .ok ()
  else do
    let errormsg ← pushConstraints yaml ("Image verification failed: missing signatures\n"
      ++ "The following constraints were not satisfied:\n") unsatisfied
    .error (.imageVerificationError errormsg)

def verifyAnyOf (signaturesAnyOf : AnyOf U)
    (layers : List (SignatureLayer R)) : Except VerifyError Unit :=
  let unsatisfied := signaturesAnyOf.signatures.filter (isUnsatisfied urls sigstore layers)
  let numSatisfied := signaturesAnyOf.signatures.length - unsatisfied.length
  if numSatisfied < signaturesAnyOf.minimumMatches.toNat then do
    let errormsg ← pushConstraints yaml
      ("Image verification failed: minimum number of signatures not reached: "
        ++ "needed " ++ toString signaturesAnyOf.minimumMatches.toNat
        ++ ", got " ++ toString numSatisfied
        ++ "\nThe following constraints were not satisfied:\n") unsatisfied
    .error (.imageVerificationError errormsg)
  else .ok ()

def verifySignaturesAgainstConfig (config : LatestVerificationConfig U)
    (layers : List (SignatureLayer R)) : Except VerifyError Unit :=
  if config.allOf.isNone && config.anyOf.isNone then
    .error (.imageVerificationError "Image verification failed: no signatures to verify")
  else do
    match config.allOf with
    | some signaturesAllOf => verifyAllOf urls sigstore yaml signaturesAllOf layers
    | none => .ok ()
    match config.anyOf with
    | some signaturesAnyOf => verifyAnyOf urls sigstore yaml signaturesAnyOf layers
    | none => .ok ()

/-! ## Satisfaction -/

/-- **A signature is satisfied by a list of layers**: some layer fulfils it. -/
def Signature.SatisfiedBy (layers : List (SignatureLayer R)) (signature : Signature U) : Prop :=
  ∃ verifier, signature.verifier urls sigstore = .ok verifier ∧
    ∃ sl ∈ layers, verifier sl = .ok true

instance (layers : List (SignatureLayer R)) :
    DecidablePred (Signature.SatisfiedBy urls sigstore layers) := fun s =>
  match hv : s.verifier urls sigstore with
  | .ok verifier =>
    decidable_of_iff (∃ sl ∈ layers, verifier sl = .ok true)
      ⟨fun h => ⟨verifier, hv, h⟩, fun ⟨v, hv', h⟩ => by
        rw [hv] at hv'
        cases hv'
        exact h⟩
  | .error _ => .isFalse (fun ⟨v, hv', _⟩ => by
      rw [hv] at hv'
      cases hv')

theorem isUnsatisfied_eq_false_iff (hs : sigstore.Lawful)
    (layers : List (SignatureLayer R)) (signature : Signature U) :
    isUnsatisfied urls sigstore layers signature = false
      ↔ signature.SatisfiedBy urls sigstore layers := by
  unfold isUnsatisfied Signature.SatisfiedBy
  cases hv : signature.verifier urls sigstore with
  | error e => simp
  | ok verifier =>
    have hlaw := hs layers verifier
    cases hc : sigstore.verifyConstraints layers [verifier] with
    | ok u => simpa [hc] using hlaw
    | error e => simpa [hc] using hlaw

variable {layers layers' : List (SignatureLayer R)}

theorem Signature.SatisfiedBy.mono (hsub : layers ⊆ layers')
    {signature : Signature U} (h : signature.SatisfiedBy urls sigstore layers) :
    signature.SatisfiedBy urls sigstore layers' := by
  obtain ⟨verifier, hv, sl, hsl, hok⟩ := h
  exact ⟨verifier, hv, sl, hsub hsl, hok⟩

theorem Signature.not_satisfiedBy_nil (signature : Signature U) :
    ¬ signature.SatisfiedBy urls sigstore [] := by
  rintro ⟨verifier, -, sl, hsl, -⟩
  exact absurd hsl List.not_mem_nil

def numSatisfied (layers : List (SignatureLayer R)) (signatures : List (Signature U)) : ℕ :=
  signatures.countP (fun s => s.SatisfiedBy urls sigstore layers)

theorem length_sub_unsatisfied (hs : sigstore.Lawful)
    (layers : List (SignatureLayer R)) (signatures : List (Signature U)) :
    signatures.length - (signatures.filter (isUnsatisfied urls sigstore layers)).length
      = numSatisfied urls sigstore layers signatures := by
  rw [List.length_eq_countP_add_countP (isUnsatisfied urls sigstore layers),
    ← List.countP_eq_length_filter, Nat.add_sub_cancel_left]
  refine List.countP_congr (fun s _ => ?_)
  rw [decide_eq_true_iff, decide_eq_true_iff, Bool.not_eq_true,
    isUnsatisfied_eq_false_iff urls sigstore hs]

theorem numSatisfied_mono (hsub : layers ⊆ layers') (signatures : List (Signature U)) :
    numSatisfied urls sigstore layers signatures
      ≤ numSatisfied urls sigstore layers' signatures := by
  refine List.countP_mono_left (fun s _ h => ?_)
  rw [decide_eq_true_iff] at h ⊢
  exact h.mono urls sigstore hsub

theorem verifyAllOf_ok_iff (hs : sigstore.Lawful)
    (signatures : List (Signature U)) (layers : List (SignatureLayer R)) :
    verifyAllOf urls sigstore yaml signatures layers = .ok ()
      ↔ ∀ s ∈ signatures, s.SatisfiedBy urls sigstore layers := by
  have hempty : (signatures.filter (isUnsatisfied urls sigstore layers)).isEmpty = true
      ↔ ∀ s ∈ signatures, s.SatisfiedBy urls sigstore layers := by
    rw [List.isEmpty_iff, List.filter_eq_nil_iff]
    refine forall₂_congr (fun s _ => ?_)
    rw [← isUnsatisfied_eq_false_iff urls sigstore hs, Bool.not_eq_true]
  rw [← hempty]
  unfold verifyAllOf
  simp only
  split
  · next h => exact iff_of_true rfl h
  · next h =>
    -- whatever the YAML printer says, the outcome is an error
    refine iff_of_false ?_ h
    intro hok
    obtain ⟨msg, -, hmsg⟩ := bind_eq_ok.1 hok
    cases hmsg

theorem verifyAnyOf_ok_iff (hs : sigstore.Lawful) (anyOf : AnyOf U)
    (layers : List (SignatureLayer R)) :
    verifyAnyOf urls sigstore yaml anyOf layers = .ok () ↔ anyOf.minimumMatches.toNat
          ≤ numSatisfied urls sigstore layers anyOf.signatures := by
  unfold verifyAnyOf
  simp only [length_sub_unsatisfied urls sigstore hs]
  split
  · next h =>
    constructor
    · intro hok
      obtain ⟨msg, -, hmsg⟩ := bind_eq_ok.1 hok
      cases hmsg
    · intro hle
      omega
  · next h => simpa using h

open Option

/-- **The verdict, check by check**: a list is present, and all pass. -/
theorem verifySignaturesAgainstConfig_ok_iff (hs : sigstore.Lawful)
    (config : LatestVerificationConfig U) (layers : List (SignatureLayer R)) :
    verifySignaturesAgainstConfig urls sigstore yaml config layers = .ok ()
      ↔ (config.allOf.isSome ∨ config.anyOf.isSome)
        ∧ (∀ signatures, config.allOf = some signatures →
          ∀ s ∈ signatures, s.SatisfiedBy urls sigstore layers)
        ∧ (∀ anyOf, config.anyOf = some anyOf → anyOf.minimumMatches.toNat
              ≤ numSatisfied urls sigstore layers anyOf.signatures) := by
  unfold verifySignaturesAgainstConfig
  rcases config with ⟨_ | signatures, _ | anyOf⟩
  · simp
  · simp only [isNone_none, isNone_some, Bool.and_false, Bool.false_eq_true, if_false]
    rw [bind_eq_ok]
    simp [verifyAnyOf_ok_iff urls sigstore yaml hs]
  · simp only [isNone_none, isNone_some, Bool.and_true, Bool.false_eq_true, if_false]
    rw [bind_eq_ok]
    simp [verifyAllOf_ok_iff urls sigstore yaml hs]
  · simp only [isNone_some, Bool.and_self, Bool.false_eq_true, if_false]
    rw [bind_eq_ok]
    simp [verifyAllOf_ok_iff urls sigstore yaml hs, verifyAnyOf_ok_iff urls sigstore yaml hs]

/-- Two configurations that list the same signatures. -/
structure VerificationConfigV1.Reorders (config config' : VerificationConfigV1 U) : Prop where
  allOf : Rel List.Perm config.allOf config'.allOf
  anyOf : Rel (fun a a' : AnyOf U =>
      a.minimumMatches = a'.minimumMatches ∧ a.signatures.Perm a'.signatures)
    config.anyOf config'.anyOf

theorem VerificationConfigV1.Reorders.symm
    {config config' : VerificationConfigV1 U} (h : config.Reorders config') :
    config'.Reorders config := by
  obtain ⟨hall, hany⟩ := h
  rcases config with ⟨allOf, anyOf⟩
  rcases config' with ⟨allOf', anyOf'⟩
  constructor
  · cases hall with
    | some hp => exact .some hp.symm
    | none => exact .none
  · cases hany with
    | some ha => exact .some ⟨ha.1.symm, ha.2.symm⟩
    | none => exact .none

theorem numSatisfied_perm (hl : layers.Perm layers') {signatures signatures' : List (Signature U)}
    (hp : signatures.Perm signatures') :
    numSatisfied urls sigstore layers signatures
      = numSatisfied urls sigstore layers' signatures' := by
  refine Nat.le_antisymm ?_ ?_
  · calc numSatisfied urls sigstore layers signatures
        ≤ numSatisfied urls sigstore layers' signatures :=
        numSatisfied_mono urls sigstore hl.subset signatures
      _ = numSatisfied urls sigstore layers' signatures' := hp.countP_eq _
  · calc numSatisfied urls sigstore layers' signatures'
        ≤ numSatisfied urls sigstore layers signatures' :=
        numSatisfied_mono urls sigstore hl.symm.subset signatures'
      _ = numSatisfied urls sigstore layers signatures := (hp.countP_eq _).symm

theorem verifySignaturesAgainstConfig_reorders (hs : sigstore.Lawful)
    {config config' : LatestVerificationConfig U} (hc : config.Reorders config')
    (hl : layers.Perm layers')
    (hok : verifySignaturesAgainstConfig urls sigstore yaml config layers = .ok ()) :
    verifySignaturesAgainstConfig urls sigstore yaml config' layers' = .ok () := by
  rw [verifySignaturesAgainstConfig_ok_iff urls sigstore yaml hs] at hok ⊢
  obtain ⟨hpresent, hall, hany⟩ := hok
  obtain ⟨hrall, hrany⟩ := hc
  rcases config with ⟨allOf, anyOf⟩
  rcases config' with ⟨allOf', anyOf'⟩
  simp only at hpresent hall hany hrall hrany ⊢
  refine ⟨?_, ?_, ?_⟩
  · cases hrall <;> cases hrany <;> exact hpresent
  · rintro signatures' rfl s hs'
    cases hrall with
    | some hp => exact (hall _ rfl s (hp.mem_iff.2 hs')).mono urls sigstore hl.subset
  · rintro a' rfl
    cases hrany with
    | some ha =>
      rw [← ha.1, ← numSatisfied_perm urls sigstore hl ha.2]
      exact hany _ rfl

/-- **The verdict of signature verification.** A list is present, `allOf` is all
satisfied, and `anyOf` often enough. It does not depend on any order, and adding
layers never turns a success into a failure. -/
theorem verifySignaturesAgainstConfig_verdict (hs : sigstore.Lawful)
    (config : LatestVerificationConfig U)
    (layers : List (SignatureLayer R)) :
    (verifySignaturesAgainstConfig urls sigstore yaml config layers = .ok ()
      ↔ (config.allOf.isSome ∨ config.anyOf.isSome)
        ∧ (∀ signatures, config.allOf = some signatures →
          ∀ s ∈ signatures, s.SatisfiedBy urls sigstore layers)
        ∧ (∀ anyOf, config.anyOf = some anyOf → anyOf.minimumMatches.toNat ≤ anyOf.signatures.countP
                  (fun s => s.SatisfiedBy urls sigstore layers)))
    ∧ (∀ config' layers', config.Reorders config' → layers.Perm layers' →
      (verifySignaturesAgainstConfig urls sigstore yaml config layers = .ok ()
        ↔ verifySignaturesAgainstConfig urls sigstore yaml config' layers' = .ok ()))
    ∧ (∀ layers', layers ⊆ layers' → verifySignaturesAgainstConfig urls sigstore yaml config layers
          = .ok () →
        verifySignaturesAgainstConfig urls sigstore yaml config layers' = .ok ()) := by
  refine ⟨verifySignaturesAgainstConfig_ok_iff urls sigstore yaml hs config layers, ?_, ?_⟩
  · intro config' layers' hc hl
    exact ⟨verifySignaturesAgainstConfig_reorders urls sigstore yaml hs hc hl,
      verifySignaturesAgainstConfig_reorders urls sigstore yaml hs hc.symm hl.symm⟩
  · intro layers' hsub hok
    rw [verifySignaturesAgainstConfig_ok_iff urls sigstore yaml hs] at hok ⊢
    obtain ⟨hpresent, hall, hany⟩ := hok
    refine ⟨hpresent, fun signatures hsome s hmem => ?_, fun a ha => ?_⟩
    · exact (hall signatures hsome s hmem).mono urls sigstore hsub
    · exact (hany a ha).trans (numSatisfied_mono urls sigstore hsub _)

end

theorem verifySignaturesAgainstConfig_verdict_oneKey :
    verifySignaturesAgainstConfig UrlLib.text Sigstore.byKeyName
      (YamlLib.plain (fun _ => .ok .null))
      ⟨none, some ⟨1, [.pubKey none "key" none]⟩⟩ [⟨none, "key"⟩]
      = .ok () := by
  refine (verifySignaturesAgainstConfig_verdict UrlLib.text
    Sigstore.byKeyName (YamlLib.plain (fun _ => .ok .null))
    Sigstore.byKeyName_lawful _ _).1.2 ⟨Or.inr rfl, ?_, ?_⟩
  · intro signatures h
    cases h
  · intro anyOf h
    cases h
    decide
