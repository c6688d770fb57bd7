import AdmController.VerificationConstraints

/-!
# Verification options from flags

`kwctl`'s `build_verification_options`. An annotation without `=` is left out,
and if nothing is left, the flags count as absent.
-/

open Serde Fallible AList List Signature

structure VerificationFlags where
  (verificationKey verificationAnnotation : List String)
  (certEmail certOidcIssuer githubOwner githubRepo verificationConfigPath : Option String)

/-- The files a command reads, and the default configuration. -/
structure KwctlFiles where
  readToString : String → Except String String
  pathExists : String → Bool
  defaultConfigPath : String

section

variable {U : Type} (urls : UrlLib U) (yaml : YamlLib U) (files : KwctlFiles)

def annotationPair (item : String) : Option (Σ _ : String, String) :=
  (RustStr.splitOnce item '=').map (fun kv => ⟨kv.1, kv.2⟩)

def insertAnnotation (values : Annotations) (item : String) : Annotations :=
  match annotationPair item with
  | some pair => values.insert pair.1 pair.2
  | none => values

variable (flags : VerificationFlags)

def VerificationFlags.annotations : Option Annotations :=
  let values := flags.verificationAnnotation.foldl insertAnnotation ∅
  if values.entries.isEmpty then none else some values

def VerificationFlags.issuerSignatures : List (Signature U) :=
  match flags.certEmail, flags.certOidcIssuer with
  | some email, some issuer => [.genericIssuer issuer (.equal email) flags.annotations]
  | _, _ => []

def VerificationFlags.actionSignatures : List (Signature U) :=
  match flags.githubOwner with
  | some owner => [.githubAction owner flags.githubRepo flags.annotations]
  | none => []

def KwctlFiles.readKey (path : String) : Except String String :=
  (files.readToString path).mapError (fun e => "could not read file " ++ path ++ ": " ++ e)

def buildVerificationOptionsFromFlags : Except String (Option (LatestVerificationConfig U)) :=
  if flags.verificationKey.isEmpty && flags.annotations.isNone
    && flags.certEmail.isNone && flags.certOidcIssuer.isNone
    && flags.githubOwner.isNone && flags.githubRepo.isNone then
    .ok none
  else if flags.verificationKey.isEmpty && flags.certEmail.isNone
    && flags.certOidcIssuer.isNone && flags.githubOwner.isNone
    && flags.annotations.isSome then
    .error ("Intending to verify annotations, but no verification keys, "
      ++ "OIDC issuer or GitHub owner were passed")
  else if flags.githubRepo.isSome && flags.githubOwner.isNone then
    .error ("Intending to verify GitHub actions signature, but the repository owner is missing.")
  else if (flags.certEmail.isSome && flags.certOidcIssuer.isNone)
      || (flags.certEmail.isNone && flags.certOidcIssuer.isSome) then
    .error ("Intending to verify OIDC issuer, but no email or issuer were "
      ++ "provided. You must pass the email and OIDC issuer to be validated together ")
  else do
    let keys ← flags.verificationKey.mapM files.readKey
    let signatures := flags.issuerSignatures ++ flags.actionSignatures
      ++ keys.map (fun key => .pubKey none key flags.annotations)
    return some
      { allOf := if signatures.isEmpty then none else some signatures
        anyOf := none }

def readVerificationFile (path : String) : Except String (LatestVerificationConfig U) :=
  (do
    let config ← (files.readToString path).mapError VerifyError.verificationFileReadError
    buildLatestVerificationConfig urls yaml config).mapError VerifyError.text

def buildVerificationOptions : Except String (Option (LatestVerificationConfig U)) := do
  match ← buildVerificationOptionsFromFlags files flags with
  | some config =>
    if flags.verificationConfigPath.isSome then
      .error ("verification-config-path cannot be used in conjunction with "
        ++ "other verification flags")
    else return some config
  | none =>
    match flags.verificationConfigPath with
    | some path => return some (← readVerificationFile urls yaml files path)
    | none =>
      if files.pathExists files.defaultConfigPath then
        return some (← readVerificationFile urls yaml files files.defaultConfigPath)
      else return none

end

namespace VerificationFlags

variable (flags : VerificationFlags)

/-! ## What the flags ask for -/

def Given : Prop :=
  flags.verificationKey ≠ [] ∨ flags.verificationAnnotation ≠ []
    ∨ flags.certEmail.isSome ∨ flags.certOidcIssuer.isSome
    ∨ flags.githubOwner.isSome ∨ flags.githubRepo.isSome

def pairs : List (Σ _ : String, String) := flags.verificationAnnotation.filterMap annotationPair

/-- Every annotation is `key=value`, and no key is given two times. -/
def AnnotationsWellFormed : Prop :=
  (∀ item ∈ flags.verificationAnnotation, (annotationPair item).isSome) ∧ flags.pairs.NodupKeys

def Annotates (annotations : Option Annotations) : Prop :=
  ∀ pair, (∃ values, annotations = some values ∧ pair ∈ values.entries) ↔ pair ∈ flags.pairs

end VerificationFlags

def Signature.asPubKey {U : Type} : Signature U → Option (Option String × String)
  | .pubKey owner key _ => some (owner, key)
  | .genericIssuer _ _ _ => none
  | .githubAction _ _ _ => none

def Signature.asGenericIssuer {U : Type} : Signature U → Option (String × Subject U)
  | .pubKey _ _ _ => none
  | .genericIssuer issuer subject _ => some (issuer, subject)
  | .githubAction _ _ _ => none

def Signature.asGithubAction {U : Type} : Signature U → Option (String × Option String)
  | .pubKey _ _ _ => none
  | .genericIssuer _ _ _ => none
  | .githubAction owner repo _ => some (owner, repo)

def Signature.annotations {U : Type} : Signature U → Option Annotations
  | .pubKey _ _ annotations => annotations
  | .genericIssuer _ _ annotations => annotations
  | .githubAction _ _ annotations => annotations

/-- **A configuration is the one the flags ask for**: one signature for each
key, for an email and an issuer, and for an owner, with the annotations. -/
structure VerificationFlags.Requested {U : Type} (flags : VerificationFlags)
    (keys : List String) (config : LatestVerificationConfig U)
    (signatures : List (Signature U)) : Prop where
  anyOf : config.anyOf = none
  allOf : config.allOf = some signatures
  ne_nil : signatures ≠ []
  pubKeys : signatures.filterMap asPubKey = keys.map (fun key => (none, key))
  genericIssuers : signatures.filterMap asGenericIssuer
    = match flags.certEmail, flags.certOidcIssuer with
      | some email, some issuer => [(issuer, .equal email)]
      | _, _ => []
  githubActions : signatures.filterMap asGithubAction = match flags.githubOwner with
      | some owner => [(owner, flags.githubRepo)]
      | none => []
  annotates : ∀ signature ∈ signatures, flags.Annotates signature.annotations

namespace VerificationFlags

variable {flags : VerificationFlags}

/-! ## Annotations -/

theorem foldl_insertAnnotation (items : List String) (values : Annotations) :
    items.foldl insertAnnotation values = insertAll values (items.filterMap annotationPair) := by
  induction items generalizing values with
  | nil => rfl
  | cons item items ih =>
    rw [foldl_cons, ih, insertAnnotation]
    cases hpair : annotationPair item with
    | none => rw [filterMap_cons_none hpair]
    | some pair =>
      rw [filterMap_cons_some hpair]
      rfl

theorem annotations_eq_none_iff : flags.annotations = none ↔ flags.pairs = [] := by
  rw [annotations, foldl_insertAnnotation]
  show (if (insertAll ∅ flags.pairs).entries.isEmpty = true then _ else _) = none ↔ _
  rcases eq_nil_or_concat flags.pairs with hnil | ⟨l, e, hlast⟩
  · rw [hnil]
    exact iff_of_true rfl rfl
  · have hinsert : ∀ values : Annotations, (values.insert e.1 e.2).entries.isEmpty = false := by
      intro values
      rfl
    have hentries : (insertAll (∅ : Annotations) flags.pairs ).entries.isEmpty = false := by
      rw [hlast, concat_eq_append, insertAll, foldl_append]
      exact hinsert _
    rw [hentries]
    refine iff_of_false (by simp) ?_
    rw [hlast]
    simp

theorem annotates_annotations (h : flags.AnnotationsWellFormed) :
    flags.Annotates flags.annotations := by
  intro pair
  have hmem : pair ∈ (insertAll (∅ : Annotations) flags.pairs).entries
    ↔ pair ∈ flags.pairs := mem_entries_insertAll h.2
  cases hannotations : flags.annotations with
  | none =>
    rw [annotations_eq_none_iff.1 hannotations]
    simp
  | some values =>
    have hvalues : values = insertAll (∅ : Annotations) flags.pairs := by
      rw [annotations, foldl_insertAnnotation] at hannotations
      split at hannotations
      · cases hannotations
      · exact (Option.some.inj hannotations).symm
    rw [← hmem, ← hvalues]
    simp

variable (flags)

/-! ## When the flags are rejected -/

/-- The flags ask for something, once annotations without `=` are left out. -/
def Effective : Prop :=
  flags.verificationKey ≠ [] ∨ flags.pairs ≠ []
    ∨ flags.certEmail.isSome ∨ flags.certOidcIssuer.isSome
    ∨ flags.githubOwner.isSome ∨ flags.githubRepo.isSome

/-- The flags do not fit together: annotations without a signature, a repository
without an owner, or an email without an issuer or vice versa. -/
def Conflicting : Prop :=
  (flags.pairs ≠ [] ∧ flags.verificationKey = [] ∧ flags.certEmail = none
    ∧ flags.certOidcIssuer = none ∧ flags.githubOwner = none)
    ∨ (flags.githubRepo.isSome ∧ flags.githubOwner = none)
    ∨ flags.certEmail.isSome ≠ flags.certOidcIssuer.isSome

def requestedConfig {U : Type} (keys : List String) : LatestVerificationConfig U where
  allOf := some (flags.issuerSignatures ++ flags.actionSignatures
    ++ keys.map (fun key => .pubKey none key flags.annotations))
  anyOf := none

variable {flags} {U : Type} {files : KwctlFiles}

theorem fromFlags_of_not_effective (h : ¬ flags.Effective) :
    buildVerificationOptionsFromFlags (U := U) files flags = .ok none := by
  simp only [Effective, not_or, not_not, Bool.not_eq_true,
    Option.isSome_eq_false_iff, Option.isNone_iff_eq_none] at h
  obtain ⟨hkey, hpairs, hemail, hissuer, howner, hrepo⟩ := h
  rw [buildVerificationOptionsFromFlags, if_pos]
  rw [hkey, annotations_eq_none_iff.2 hpairs, hemail, hissuer, howner, hrepo]
  rfl

theorem effective_iff : flags.Effective ↔
    ¬ (flags.verificationKey.isEmpty && flags.annotations.isNone
      && flags.certEmail.isNone && flags.certOidcIssuer.isNone
      && flags.githubOwner.isNone && flags.githubRepo.isNone) = true := by
  simp only [Effective, Bool.and_eq_true, List.isEmpty_iff,
    Option.isNone_iff_eq_none, annotations_eq_none_iff, not_and_or, or_assoc,
    Option.isSome_iff_ne_none, ne_eq]

theorem conflicting_iff : flags.Conflicting ↔
    (flags.verificationKey.isEmpty && flags.certEmail.isNone
      && flags.certOidcIssuer.isNone && flags.githubOwner.isNone
      && flags.annotations.isSome) = true
    ∨ (flags.githubRepo.isSome && flags.githubOwner.isNone) = true
    ∨ ((flags.certEmail.isSome && flags.certOidcIssuer.isNone)
      || (flags.certEmail.isNone && flags.certOidcIssuer.isSome)) = true := by
  refine or_congr ?_ (or_congr ?_ ?_)
  · simp only [Bool.and_eq_true, List.isEmpty_iff, Option.isNone_iff_eq_none,
      Option.isSome_iff_ne_none, ne_eq, annotations_eq_none_iff]
    tauto
  · simp
  · cases flags.certEmail <;> cases flags.certOidcIssuer <;> simp

theorem fromFlags_of_conflicting (heffective : flags.Effective) (h : flags.Conflicting) :
    ∃ e, buildVerificationOptionsFromFlags (U := U) files flags = .error e := by
  rw [buildVerificationOptionsFromFlags, if_neg (effective_iff.1 heffective)]
  rcases conflicting_iff.1 h with h | h | h
  · rw [if_pos h]
    exact ⟨_, rfl⟩
  · split
    · exact ⟨_, rfl⟩
    · exact ⟨_, rfl⟩
  · split
    · exact ⟨_, rfl⟩
    · split
      · exact ⟨_, rfl⟩
      · exact ⟨_, rfl⟩

variable {keys : List String}

theorem signatures_ne_nil (heffective : flags.Effective) (h : ¬ flags.Conflicting)
    (hkeys : keys.length = flags.verificationKey.length) :
    flags.issuerSignatures ++ flags.actionSignatures
      ++ keys.map (fun key => pubKey none key flags.annotations)
      ≠ ([] : List (Signature U)) := by
  intro hnil
  simp only [append_eq_nil_iff, map_eq_nil_iff] at hnil
  obtain ⟨⟨hissuers, hactions⟩, hkeysNil⟩ := hnil
  rw [hkeysNil] at hkeys
  have hkey : flags.verificationKey = [] := eq_nil_of_length_eq_zero hkeys.symm
  have howner : flags.githubOwner = none := by
    rw [actionSignatures] at hactions
    cases howner : flags.githubOwner with
    | none => rfl
    | some owner =>
      rw [howner] at hactions
      cases hactions
  rw [Conflicting, not_or, not_or] at h
  obtain ⟨hannotations, hrepo, hboth⟩ := h
  have hrepo : flags.githubRepo = none := by
    cases hrepo' : flags.githubRepo with
    | none => rfl
    | some repo => exact absurd ⟨by rw [hrepo']; rfl, howner⟩ hrepo
  have hneither : flags.certEmail = none ∧ flags.certOidcIssuer = none := by
    rw [issuerSignatures] at hissuers
    cases hemail : flags.certEmail with
    | none =>
      cases hissuer : flags.certOidcIssuer with
      | none => exact ⟨rfl, rfl⟩
      | some issuer => exact absurd (by simp [hemail, hissuer]) hboth
    | some email =>
      cases hissuer : flags.certOidcIssuer with
      | none => exact absurd (by simp [hemail, hissuer]) hboth
      | some issuer =>
        rw [hemail, hissuer] at hissuers
        cases hissuers
  rcases heffective with h | h | h | h | h | h
  · exact h hkey
  · exact hannotations ⟨h, hkey, hneither.1, hneither.2, howner⟩
  · rw [hneither.1] at h
    cases h
  · rw [hneither.2] at h
    cases h
  · rw [howner] at h
    cases h
  · rw [hrepo] at h
    cases h

theorem fromFlags_of_not_conflicting (heffective : flags.Effective) (h : ¬ flags.Conflicting) :
    buildVerificationOptionsFromFlags (U := U) files flags
      = (flags.verificationKey.mapM files.readKey).map
        (fun keys => some (flags.requestedConfig keys)) := by
  have hnot := (not_congr conflicting_iff).1 h
  rw [not_or, not_or] at hnot
  rw [buildVerificationOptionsFromFlags, if_neg (effective_iff.1 heffective),
    if_neg hnot.1, if_neg hnot.2.1, if_neg hnot.2.2]
  cases hread : flags.verificationKey.mapM files.readKey with
  | error e => rfl
  | ok keys =>
    have hne := signatures_ne_nil (U := U) heffective h (length_of_mapM_eq_ok hread)
    show Except.ok (some (VerificationConfigV1.mk (if _ then none else _) none)) = _
    rw [if_neg (fun hempty => hne (isEmpty_iff.1 hempty))]
    rfl

variable (flags files) in
def otherConfigPath : Option String :=
  match flags.verificationConfigPath with
  | some path => some path
  | none =>
    if files.pathExists files.defaultConfigPath then some files.defaultConfigPath
    else none

variable (urls : UrlLib U) (yaml : YamlLib U)

variable (flags files) in
/-- **The flags are rejected**: they do not fit together, a key file cannot be
read, there is a file beside them, or the default is not valid. -/
def Rejected : Prop :=
  (flags.Effective ∧ (flags.Conflicting ∨ (∃ path ∈ flags.verificationKey, ∃ e,
        files.readToString path = .error e)
    ∨ flags.verificationConfigPath.isSome))
  ∨ (¬ flags.Effective ∧ ∃ path e, flags.otherConfigPath files = some path
    ∧ readVerificationFile urls yaml files path = .error e)

variable {urls yaml}

theorem readKey_eq_ok {path key : String} :
    files.readKey path = .ok key ↔ files.readToString path = .ok key :=
  mapError_eq_ok

theorem options_of_not_effective (h : ¬ flags.Effective) :
    buildVerificationOptions urls yaml files flags = match flags.otherConfigPath files with
        | some path => (readVerificationFile urls yaml files path).map some
        | none => .ok none := by
  rw [buildVerificationOptions, fromFlags_of_not_effective h, otherConfigPath]
  cases flags.verificationConfigPath with
  | some path => rfl
  | none =>
    show (if files.pathExists files.defaultConfigPath = true then _ else _) = _
    split
    · rfl
    · rfl

theorem options_of_not_conflicting (heffective : flags.Effective) (h : ¬ flags.Conflicting) :
    buildVerificationOptions urls yaml files flags
      = (flags.verificationKey.mapM files.readKey).bind (fun keys =>
          if flags.verificationConfigPath.isSome then
            .error ("verification-config-path cannot be used in conjunction "
              ++ "with other verification flags")
          else .ok (some (flags.requestedConfig keys))) := by
  rw [buildVerificationOptions, fromFlags_of_not_conflicting heffective h]
  cases flags.verificationKey.mapM files.readKey with
  | error e => rfl
  | ok keys => rfl

/-- **When there is an error.** -/
theorem rejected_iff : flags.Rejected files urls yaml ↔
    ∃ e, buildVerificationOptions urls yaml files flags = .error e := by
  by_cases heffective : flags.Effective
  · rw [Rejected, and_iff_right heffective]
    refine (or_iff_left (fun hand => hand.1 heffective)).trans ?_
    by_cases hconflict : flags.Conflicting
    · obtain ⟨e, he⟩ : ∃ e, buildVerificationOptionsFromFlags (U := U) files
        flags = .error e := fromFlags_of_conflicting heffective hconflict
      refine iff_of_true (.inl hconflict) ⟨e, ?_⟩
      rw [buildVerificationOptions, he]
      rfl
    · rw [or_iff_right hconflict, options_of_not_conflicting heffective hconflict]
      cases hread : flags.verificationKey.mapM files.readKey with
      | error e =>
        refine iff_of_true (.inl ?_) ⟨e, rfl⟩
        by_contra hnone
        have hall : ∀ path ∈ flags.verificationKey, ∃ key, files.readKey path = .ok key := by
          intro path hpath
          cases hkey : files.readToString path with
          | error e => exact absurd ⟨path, hpath, e, hkey⟩ hnone
          | ok key => exact ⟨key, readKey_eq_ok.2 hkey⟩
        obtain ⟨keys, hkeys⟩ := exists_mapM_eq_ok.2 hall
        cases hread.symm.trans hkeys
      | ok keys =>
        have hall := exists_mapM_eq_ok.1 ⟨keys, hread⟩
        have hreadable : ¬ ∃ path ∈ flags.verificationKey, ∃ e,
            files.readToString path = .error e := by
          rintro ⟨path, hpath, e, he⟩
          obtain ⟨key, hkey⟩ := hall path hpath
          cases he.symm.trans (readKey_eq_ok.1 hkey)
        rw [or_iff_right hreadable]
        cases flags.verificationConfigPath with
        | none => exact iff_of_false (by decide) (by rintro ⟨e, ⟨⟩⟩)
        | some path => exact iff_of_true rfl ⟨_, rfl⟩
  · rw [Rejected, and_iff_right heffective]
    refine (or_iff_right (fun hand => heffective hand.1)).trans ?_
    rw [options_of_not_effective heffective]
    cases flags.otherConfigPath files with
    | none =>
      refine iff_of_false ?_ ?_
      · rintro ⟨path, e, ⟨⟩, -⟩
      · rintro ⟨e, ⟨⟩⟩
    | some path =>
      constructor
      · rintro ⟨_, e, ⟨⟩, he⟩
        refine ⟨e, ?_⟩
        show (readVerificationFile urls yaml files path).map some = .error e
        rw [he]
        rfl
      · rintro ⟨e, he⟩
        exact ⟨path, e, rfl, map_eq_error.1 he⟩

theorem annotations_of_mem {signature : Signature U}
    (h : signature ∈ flags.issuerSignatures ++ flags.actionSignatures
      ++ keys.map (fun key => .pubKey none key flags.annotations)) :
    signature.annotations = flags.annotations := by
  rw [mem_append, mem_append] at h
  rcases h with (h | h) | h
  · rw [issuerSignatures] at h
    split at h
    · rw [mem_singleton.1 h]
      rfl
    · cases h
  · rw [actionSignatures] at h
    split at h
    · rw [mem_singleton.1 h]
      rfl
    · cases h
  · obtain ⟨key, -, rfl⟩ := mem_map.1 h
    rfl

theorem requested_requestedConfig (heffective : flags.Effective) (hconflict : ¬ flags.Conflicting)
    (h : flags.AnnotationsWellFormed) (hkeys : keys.length = flags.verificationKey.length) :
    flags.Requested keys (flags.requestedConfig (U := U) keys)
      (flags.issuerSignatures ++ flags.actionSignatures
        ++ keys.map (fun key => .pubKey none key flags.annotations)) where
  anyOf := rfl
  allOf := rfl
  ne_nil := signatures_ne_nil heffective hconflict hkeys
  pubKeys := by
    rw [filterMap_append, filterMap_append, issuerSignatures, actionSignatures, filterMap_map]
    cases flags.certEmail <;> cases flags.certOidcIssuer <;> cases flags.githubOwner
      <;> simp [filterMap_cons, asPubKey, Function.comp_def]
  genericIssuers := by
    rw [filterMap_append, filterMap_append, issuerSignatures, actionSignatures, filterMap_map]
    cases flags.certEmail <;> cases flags.certOidcIssuer <;> cases flags.githubOwner
      <;> simp [filterMap_cons, asGenericIssuer, Function.comp_def]
  githubActions := by
    rw [filterMap_append, filterMap_append, issuerSignatures, actionSignatures, filterMap_map]
    cases flags.certEmail <;> cases flags.certOidcIssuer <;> cases flags.githubOwner
      <;> simp [filterMap_cons, asGithubAction, Function.comp_def]
  annotates := by
    intro signature hsignature
    rw [annotations_of_mem hsignature]
    exact annotates_annotations h

theorem effective_of_given (hgiven : flags.Given)
    (h : flags.AnnotationsWellFormed) : flags.Effective := by
  refine hgiven.imp_right (Or.imp_left (fun hne hnil => ?_))
  cases hitems : flags.verificationAnnotation with
  | nil => exact hne hitems
  | cons item items =>
    have hitem := h.1 item (by rw [hitems]; exact mem_cons_self)
    obtain ⟨pair, hpair⟩ := Option.isSome_iff_exists.1 hitem
    have hmem : pair ∈ flags.pairs := mem_filterMap.2
      ⟨item, by rw [hitems]; exact mem_cons_self, hpair⟩
    rw [hnil] at hmem
    cases hmem

end VerificationFlags

/-- **The options are those asked for**, or there is an error, exactly if all
annotations are well formed – or the flags are rejected anyway. -/
theorem options_meet_request_iff {U : Type} (urls : UrlLib U)
    (yaml : YamlLib U) (files : KwctlFiles) (flags : VerificationFlags)
    (hgiven : flags.Given) :
    ((∀ options, buildVerificationOptions urls yaml files flags = .ok options →
      ∃ config keys signatures, options = some config
        ∧ List.Forall₂ (fun path key => files.readToString path = .ok key)
          flags.verificationKey keys
        ∧ flags.Requested keys config signatures)
      ∧ (¬ flags.AnnotationsWellFormed →
        ∃ e, buildVerificationOptions urls yaml files flags = .error e))
      ↔ flags.AnnotationsWellFormed ∨ flags.Rejected files urls yaml := by
  rw [VerificationFlags.rejected_iff]
  constructor
  · rintro ⟨-, herror⟩
    exact or_iff_not_imp_left.2 herror
  · rintro (h | ⟨e, he⟩)
    · refine ⟨fun options hoptions => ?_, fun hnot => absurd h hnot⟩
      have heffective := VerificationFlags.effective_of_given hgiven h
      by_cases hconflict : flags.Conflicting
      · obtain ⟨e, he⟩ := VerificationFlags.rejected_iff.1 (.inl ⟨heffective, .inl hconflict⟩ :
          flags.Rejected files urls yaml)
        cases he.symm.trans hoptions
      · rw [VerificationFlags.options_of_not_conflicting heffective hconflict] at hoptions
        obtain ⟨keys, hkeys, hoptions⟩ := bind_eq_ok.1 hoptions
        split at hoptions
        · cases hoptions
        · refine ⟨_, keys, _, (Except.ok.inj hoptions).symm, ?_,
            VerificationFlags.requested_requestedConfig heffective hconflict h
              (length_of_mapM_eq_ok hkeys)⟩
          exact (mapM_eq_ok_iff.1 hkeys).imp (fun path key => VerificationFlags.readKey_eq_ok.1)
    · refine ⟨fun options hoptions => ?_, fun _ => ⟨e, he⟩⟩
      cases he.symm.trans hoptions

/-! ## Flags of a command -/

def sampleKeyFiles : KwctlFiles where
  readToString := .ok
  pathExists := fun _ => false
  defaultConfigPath := "verification-config.yml"

def keyAnnotated (keys : List String) (item : String) : VerificationFlags where
  verificationKey := keys
  verificationAnnotation := [item]
  certEmail := none
  certOidcIssuer := none
  githubOwner := none
  githubRepo := none
  verificationConfigPath := none

def sampleOptions (keys : List String) (item : String) :
    Except String (Option (LatestVerificationConfig String)) :=
  buildVerificationOptions .text (.plain (fun _ => .ok .null)) sampleKeyFiles
    (keyAnnotated keys item)

theorem options_of_key_and_annotation : ∃ config keys signatures,
      sampleOptions ["key.pub"] "env=prod" = .ok (some config) ∧ List.Forall₂
            (fun path key => sampleKeyFiles.readToString path = .ok key)
            ["key.pub"] keys
        ∧ (keyAnnotated ["key.pub"] "env=prod").Requested keys config signatures := by
  have hwellFormed : (keyAnnotated ["key.pub"] "env=prod").AnnotationsWellFormed :=
    ⟨by decide +kernel, nodupKeys_singleton ⟨"env", "prod"⟩⟩
  have hlaw := (options_meet_request_iff .text (.plain (fun _ => .ok .null))
    sampleKeyFiles (keyAnnotated ["key.pub"] "env=prod")
    (.inl (by decide))).2 (.inl hwellFormed)
  obtain ⟨options, hoptions⟩ : ∃ options, sampleOptions ["key.pub"] "env=prod" = .ok options :=
    ⟨_, rfl⟩
  obtain ⟨config, keys, signatures, rfl, hkeys, hrequested⟩ := hlaw.1 options hoptions
  exact ⟨config, keys, signatures, hoptions, hkeys, hrequested⟩

/-- **An annotation without `=` switches verification off.** -/
theorem malformed_annotation_is_ignored : (keyAnnotated [] "env").Given
      ∧ sampleOptions [] "env" = .ok none
      ∧ sampleOptions ["key.pub"] "env"
        = .ok (some ⟨some [.pubKey none "key.pub" none], none⟩) := by
  refine ⟨.inr (.inl (by decide)), rfl, rfl⟩
