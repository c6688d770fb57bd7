import AdmController.SignatureVerification

/-!
# What an accepted verification file guarantees

An accepted verification file should reject images without trusted signature
layers (`VerificationConfigV1.WellFormed.rejects_unsigned`). The arm for other
documents has no checks (`decodeVerificationConfigV1_wellFormed_iff`).
-/

open Serde Fallible List

section

variable {U R K : Type}

/-! ## Well-formed configurations -/

/-- **A well-formed configuration**: a list is present, `allOf` is not empty,
and `anyOf` asks for at least one and at most all of its signatures. -/
structure VerificationConfigV1.WellFormed (config : VerificationConfigV1 U) : Prop where
  present : config.allOf.isSome ∨ config.anyOf.isSome
  allOf_ne_nil : ∀ signatures, config.allOf = some signatures → signatures ≠ []
  anyOf_bounds : ∀ anyOf, config.anyOf = some anyOf →
    anyOf.signatures ≠ [] ∧ 1 ≤ anyOf.minimumMatches.toNat
      ∧ anyOf.minimumMatches.toNat ≤ anyOf.signatures.length

/-- The sanity checks on a configuration with an `anyOf` block. -/
theorem checkConfig_some (allOf : Option (List (Signature U)))
    (anyOf : AnyOf U) (config' : LatestVerificationConfig U) :
    checkConfig ⟨allOf, some anyOf⟩ = .ok config' ↔ config' = ⟨allOf, some anyOf⟩ ∧ allOf ≠ some []
      ∧ anyOf.signatures ≠ [] ∧ 1 ≤ anyOf.minimumMatches.toNat
      ∧ anyOf.minimumMatches.toNat ≤ anyOf.signatures.length := by
  have hzero : anyOf.minimumMatches = 0 ↔ anyOf.minimumMatches.toNat = 0 := by
    rw [← UInt8.toNat_inj]
    rfl
  have hall : allOf.any isEmpty = true ↔ allOf = some [] := by rcases allOf with _ | _ | _ <;> simp
  unfold checkConfig
  simp only [Option.isNone_some, Bool.and_false, Bool.false_eq_true, if_false]
  split_ifs with h1 h2 h3 h4
  · simp [hall.1 h1]
  · simp [isEmpty_iff.1 h2]
  · simp [hzero.1 h3]
  · refine iff_of_false (by rintro ⟨⟩) ?_
    rintro ⟨-, -, -, -, hle⟩
    omega
  · rw [Except.ok.injEq]
    constructor
    · rintro rfl
      refine ⟨rfl, fun h => h1 (hall.2 h), ?_, ?_, not_lt.1 h4⟩
      · exact fun h => h2 (isEmpty_iff.2 h)
      · exact Nat.one_le_iff_ne_zero.2 (fun h => h3 (hzero.2 h))
    · rintro ⟨rfl, -⟩
      rfl

theorem checkConfig_none (allOf : Option (List (Signature U)))
    (config' : LatestVerificationConfig U) :
    checkConfig ⟨allOf, none⟩ = .ok config'
      ↔ config' = ⟨allOf, none⟩ ∧ allOf.isSome ∧ allOf ≠ some [] := by
  unfold checkConfig
  rcases allOf with _ | _ | ⟨s, l⟩
  · simp
  · simp
  · simp [eq_comm]

theorem checkConfig_eq_ok_iff {config config' : LatestVerificationConfig U} :
    checkConfig config = .ok config' ↔ config' = config ∧ config.WellFormed := by
  rcases config with ⟨allOf, _ | anyOf⟩
  · rw [checkConfig_none]
    refine and_congr_right (fun _ => ⟨fun h => ?_, fun h => ?_⟩)
    · refine ⟨Or.inl h.1, fun l hl hnil => ?_, fun a ha => by cases ha⟩
      exact h.2 (hl.trans (congrArg some hnil))
    · refine ⟨h.present.resolve_right (by simp), fun hnil => ?_⟩
      exact h.allOf_ne_nil [] hnil rfl
  · rw [checkConfig_some]
    refine and_congr_right (fun _ => ⟨fun h => ?_, fun h => ?_⟩)
    · refine ⟨Or.inr rfl, fun l hl hnil => ?_, fun a ha => ?_⟩
      · exact h.1 (hl.trans (congrArg some hnil))
      · cases ha
        exact h.2
    · exact ⟨fun hnil => h.allOf_ne_nil [] hnil rfl, h.anyOf_bounds anyOf rfl⟩

/-- **Without signatures nothing is verified** if it is well-formed. -/
theorem VerificationConfigV1.WellFormed.rejects_unsigned (urls : UrlLib U)
    (sigstore : Sigstore R K) (yaml : YamlLib U) (hs : sigstore.Lawful)
    {config : LatestVerificationConfig U} (hw : config.WellFormed) :
    ∃ e, verifySignaturesAgainstConfig urls sigstore yaml config [] = .error e := by
  cases hv : verifySignaturesAgainstConfig urls sigstore yaml config [] with
  | error e => exact ⟨e, rfl⟩
  | ok u =>
    obtain ⟨-, hall, hany⟩ :=
      (verifySignaturesAgainstConfig_ok_iff urls sigstore yaml hs config []).1 hv
    exfalso
    rcases hw.present with h | h
    · obtain ⟨signatures, hsome⟩ := Option.isSome_iff_exists.1 h
      obtain ⟨s, hmem⟩ := exists_mem_of_ne_nil _ (hw.allOf_ne_nil signatures hsome)
      exact s.not_satisfiedBy_nil urls sigstore (hall signatures hsome s hmem)
    · obtain ⟨anyOf, hsome⟩ := Option.isSome_iff_exists.1 h
      have hmin := (hw.anyOf_bounds anyOf hsome).2.1
      have hzero : numSatisfied urls sigstore [] anyOf.signatures = 0 := by
        unfold numSatisfied
        rw [countP_eq_zero]
        intro s _
        simpa using s.not_satisfiedBy_nil urls sigstore
      have hle := hany anyOf hsome
      omega

/-! ## Documents that declare their signatures -/

def declaredSignatures (g : ℕ → Except String (Option Value)) : ℕ :=
  ((given (g 1)).elim [] Value.elements).length

def declaredMinimum (g : ℕ → Except String (Option Value)) : ℕ :=
  match given (g 0) with
  | some (.number n) => n.toNat
  | _ => 1

def configFields (sh : Shapes) (v : Value) : Except String (ℕ → Except String (Option Value)) :=
  structFields sh "struct VerificationConfigV1" ["allOf", "anyOf"] v

/-- **What a document has to declare**: `allOf` or `anyOf`, with at least one
element and a minimum that can be met. -/
structure DeclaresSignatures (sh : Shapes) (f : ℕ → Except String (Option Value)) : Prop where
  present : (given (f 0)).isSome ∨ (given (f 1)).isSome
  allOf_ne_nil : ∀ w, given (f 0) = some w → w.elements ≠ []
  anyOf_bounds : ∀ w, given (f 1) = some w →
    ∀ g, structFields sh "struct AnyOf" ["minimumMatches", "signatures"] w = .ok g →
    1 ≤ declaredMinimum g ∧ declaredMinimum g ≤ declaredSignatures g

variable {sh : Shapes}

theorem decodeAnyOf_declared {urls : UrlLib U} {yaml : YamlLib U} {w : Value} {anyOf : AnyOf U}
    (h : decodeAnyOf urls yaml sh w = .ok anyOf) :
    ∃ g, structFields sh "struct AnyOf" ["minimumMatches", "signatures"] w = .ok g
      ∧ anyOf.minimumMatches.toNat = declaredMinimum g
      ∧ anyOf.signatures.length = declaredSignatures g := by
  obtain ⟨g, hg, h⟩ := bind_eq_ok.1 h
  obtain ⟨m, hm, h⟩ := bind_eq_ok.1 h
  obtain ⟨l, hl, h⟩ := bind_eq_ok.1 h
  cases h
  refine ⟨g, hg, ?_, ?_⟩
  · rcases defaultField_eq_ok hm with ⟨hnone, rfl⟩ | ⟨v, hv, hdec⟩
    · simp [declaredMinimum, hnone, given, defaultMinimumMatches]
    · obtain ⟨n, hn, rfl⟩ := map_eq_ok.1 hdec
      obtain ⟨k, rfl, rfl, hlt⟩ := decodeUnsigned_eq_ok hn
      simp only [declaredMinimum, hv, given, UInt8.toNat_ofNat']
      exact Nat.mod_eq_of_lt hlt
  · obtain ⟨v, hv, hdec⟩ := requiredField_eq_ok hl
    have hlen := length_of_decodeSeq_eq_ok hdec
    cases v <;> simpa [declaredSignatures, hv, given, Value.elements] using hlen

theorem VerificationConfigV1.wellFormed_iff {config : VerificationConfigV1 U} : config.WellFormed
    ↔ (config.allOf.isSome ∨ config.anyOf.isSome)
      ∧ (∀ signatures, config.allOf = some signatures → signatures ≠ [])
      ∧ ∀ anyOf, config.anyOf = some anyOf → 1 ≤ anyOf.minimumMatches.toNat
        ∧ anyOf.minimumMatches.toNat ≤ anyOf.signatures.length := by
  constructor
  · intro h
    exact ⟨h.present, h.allOf_ne_nil, fun a ha => (h.anyOf_bounds a ha).2⟩
  · rintro ⟨hpresent, hallOf, hanyOf⟩
    refine ⟨hpresent, hallOf, fun a ha => ?_⟩
    obtain ⟨hmin, hmax⟩ := hanyOf a ha
    exact ⟨length_pos_iff.1 (by omega), hmin, hmax⟩

theorem declaresSignatures_iff {f : ℕ → Except String (Option Value)} :
    DeclaresSignatures sh f ↔ ((given (f 0)).isSome ∨ (given (f 1)).isSome)
      ∧ (∀ w, given (f 0) = some w → w.elements ≠ [])
      ∧ ∀ w, given (f 1) = some w →
        ∀ g, structFields sh "struct AnyOf" ["minimumMatches", "signatures"] w = .ok g →
        1 ≤ declaredMinimum g ∧ declaredMinimum g ≤ declaredSignatures g :=
  ⟨fun h => ⟨h.present, h.allOf_ne_nil, h.anyOf_bounds⟩,
    fun ⟨hpresent, hallOf, hanyOf⟩ => ⟨hpresent, hallOf, hanyOf⟩⟩

theorem decodeVerificationConfigV1_wellFormed_iff {urls : UrlLib U} {yaml : YamlLib U} {v : Value}
    {config : VerificationConfigV1 U} (h : decodeVerificationConfigV1 urls yaml sh v = .ok config) :
    ∃ f, configFields sh v = .ok f ∧ (config.WellFormed ↔ DeclaresSignatures sh f) := by
  obtain ⟨f, hf, h⟩ := bind_eq_ok.1 h
  obtain ⟨allOf, hall, h⟩ := bind_eq_ok.1 h
  obtain ⟨anyOf, hany, h⟩ := bind_eq_ok.1 h
  cases h
  refine ⟨f, hf, ?_⟩
  -- the parts of the configuration correspond to the fields of the document
  have hallOf := rel_of_optionField hall
  have hanyOf := rel_of_optionField hany
  rw [VerificationConfigV1.wellFormed_iff, declaresSignatures_iff,
    ← isSome_eq_of_rel hallOf, ← isSome_eq_of_rel hanyOf]
  refine and_congr_right' (and_congr ?_ ?_)
  · refine forall_some_iff_of_rel hallOf fun l w hdec => ?_
    have hlen := length_of_decodeSeq_eq_ok hdec
    rw [← length_pos_iff, ← length_pos_iff, hlen]
  · refine forall_some_iff_of_rel hanyOf fun a w hdec => ?_
    obtain ⟨g, hg, hmin, hlen⟩ := decodeAnyOf_declared hdec
    rw [hmin, hlen]
    constructor
    · intro hbounds g' hg'
      cases hg.symm.trans hg'
      exact hbounds
    · intro hbounds
      exact hbounds g hg

/-! ## What an accepted verification file guarantees -/

/-- **A document accepted without checks**: it is not versioned, and decodes
once its `apiVersion` is dropped. -/
structure AcceptedUnchecked (urls : UrlLib U) (yaml : YamlLib U) (v : Value) : Prop where
  not_versioned : ∀ config, decodeVersionedVerificationConfig urls yaml v ≠ .ok config
  distinctKeys : v.distinctKeys = true
  decodes : ∃ config, decodeVerificationConfigV1 urls yaml yaml.value
    (sanitizedValue v) = .ok config

theorem buildLatestVerificationConfig_eq_ok_iff (urls : UrlLib U) (yaml : YamlLib U)
    (configStr : String) (config : LatestVerificationConfig U) :
    buildLatestVerificationConfig urls yaml configStr = .ok config
      ↔ ∃ v, yaml.fromStr configStr = .ok v
        ∧ ((decodeVersionedVerificationConfig urls yaml v = .ok (.v1 config) ∧ config.WellFormed)
          ∨ (AcceptedUnchecked urls yaml v ∧ decodeVerificationConfigV1 urls yaml yaml.value
                (sanitizedValue v) = .ok config)) := by
  unfold buildLatestVerificationConfig
  cases hv : yaml.fromStr configStr with
  | error e => simp [Except.bind]
  | ok v =>
    simp only [Except.bind, Except.ok.injEq, exists_eq_left']
    unfold decodeVerificationConfig
    cases hd : decodeVersionedVerificationConfig urls yaml v with
    | ok versioned =>
      have hnot : ¬ AcceptedUnchecked urls yaml v := fun hacc => hacc.not_versioned versioned hd
      cases versioned with
      | v1 c =>
        simp only [checkConfig_eq_ok_iff, hnot, false_and, or_false,
          Except.ok.injEq, VersionedVerificationConfig.v1.injEq]
        constructor
        · rintro ⟨rfl, hw⟩
          exact ⟨rfl, hw⟩
        · rintro ⟨rfl, hw⟩
          exact ⟨rfl, hw⟩
      | unsupported => simp [hnot]
    | error e =>
      by_cases hdist : v.distinctKeys = true
      · simp only [hdist, if_true, mapError_eq_ok, reduceCtorEq, false_and, false_or]
        constructor
        · intro hdec
          refine ⟨⟨fun c hc => ?_, hdist, config, hdec⟩, hdec⟩
          rw [hd] at hc
          cases hc
        · exact fun h => h.2
      · simp only [hdist, Bool.false_eq_true, if_false, reduceCtorEq,
          false_and, false_or, false_iff, not_and]
        exact fun hacc => absurd hacc.distinctKeys hdist

/-- **An accepted file guarantees that unsigned images are rejected exactly
when** it is not accepted without checks, or declares its signatures on its own.
-/
theorem buildLatestVerificationConfig_wellFormed_iff (urls : UrlLib U)
    (sigstore : Sigstore R K) (yaml : YamlLib U) (hs : sigstore.Lawful)
    (configStr : String) :
    (∀ config, buildLatestVerificationConfig urls yaml configStr = .ok config → config.WellFormed
      ∧ ∃ e, verifySignaturesAgainstConfig urls sigstore yaml config [] = .error e)
      ↔ ∀ v f, yaml.fromStr configStr = .ok v → AcceptedUnchecked urls yaml v →
        configFields yaml.value (sanitizedValue v) = .ok f →
        DeclaresSignatures yaml.value f := by
  constructor
  · intro h v f hv hacc hf
    obtain ⟨config, hdec⟩ := hacc.decodes
    have hok := (buildLatestVerificationConfig_eq_ok_iff urls yaml configStr
      config).2 ⟨v, hv, Or.inr ⟨hacc, hdec⟩⟩
    obtain ⟨f', hf', hiff⟩ := decodeVerificationConfigV1_wellFormed_iff hdec
    rw [hf] at hf'
    cases hf'
    exact hiff.1 (h config hok).1
  · intro h config hok
    have hw : config.WellFormed := by
      obtain ⟨v, hv, ⟨-, hw⟩ | ⟨hacc, hdec⟩⟩ :=
        (buildLatestVerificationConfig_eq_ok_iff urls yaml configStr config).1 hok
      · exact hw
      · obtain ⟨f, hf, hiff⟩ := decodeVerificationConfigV1_wellFormed_iff hdec
        exact hiff.2 (h v f hv hacc hf)
    exact ⟨hw, hw.rejects_unsigned urls sigstore yaml hs⟩

end

def oneKeyFile : String := "\x7bapiVersion: v1, allOf: [\x7bkind: pubKey, key: k\x7d]\x7d"

def sampleFiles (configStr : String) : Except String Value :=
  if configStr = oneKeyFile then
    .ok (.mapping [(.str "apiVersion", .string "v1"), (.str "allOf", .sequence [.mapping
      [(.str "kind", .string "pubKey"), (.str "key", .string "k")]])])
  else if configStr = "allOf: []" then .ok (.mapping [(.str "allOf", .sequence [])])
  else .error "did not find expected node content"

theorem buildLatestVerificationConfig_wellFormed_iff_oneKey :
    buildLatestVerificationConfig UrlLib.text (YamlLib.plain sampleFiles) oneKeyFile
      = .ok ⟨some [.pubKey none "k" none], none⟩
    ∧ VerificationConfigV1.WellFormed (U := String) ⟨some [.pubKey none "k" none], none⟩
    ∧ ∃ e, verifySignaturesAgainstConfig UrlLib.text Sigstore.byKeyName
      (YamlLib.plain sampleFiles) ⟨some [.pubKey none "k" none], none⟩ []
      = .error e := by
  refine ⟨rfl, (buildLatestVerificationConfig_wellFormed_iff UrlLib.text
    Sigstore.byKeyName (YamlLib.plain sampleFiles) Sigstore.byKeyName_lawful
    oneKeyFile).2 ?_ _ rfl⟩
  intro v f hv hacc
  cases hv
  exact absurd rfl (hacc.not_versioned (.v1 ⟨some [.pubKey none "k" none], none⟩))

/-- **An empty `allOf` list without `apiVersion` is accepted**, and lets an
image without any signature pass. -/
theorem buildLatestVerificationConfig_emptyAllOf :
    ∃ config, buildLatestVerificationConfig UrlLib.text
          (YamlLib.plain sampleFiles) "allOf: []" = .ok config
      ∧ ¬ config.WellFormed
      ∧ verifySignaturesAgainstConfig UrlLib.text Sigstore.byKeyName
        (YamlLib.plain sampleFiles) config [] = .ok () := by
  refine ⟨⟨some [], none⟩, rfl, fun hw => ?_, rfl⟩
  exact hw.allOf_ne_nil [] rfl rfl
