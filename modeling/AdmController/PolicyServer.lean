import AdmController.Downloader
import AdmController.ExecutionModes

/-!
# Starting a policy server

`PolicyServer.newFromConfig` downloads and compiles the policies. Without a
Sigstore trust root it goes on without a verifier.
-/

open Prog AList PrecompiledPolicy Downloader

structure Config (U : Type) where
  sources : Option Sources
  policies : Policies
  policiesDownloadDir : String
  ignoreKubernetesConnectionFailure : Bool
  alwaysAcceptAdmissionReviewsOnNamespace : Option String
  (policyEvaluationLimitSeconds policyMemoryLimitBytes : Option ℕ)
  verificationConfig : Option (LatestVerificationConfig U)
  continueOnErrors : Bool

namespace PolicyServer

variable {W T C R U K M : Type}

section

variable (libs : Libraries U R K) (o : Outside W T C R) (config : Config U)

def connectToKubernetes : Prog W String Bool := do
  let kubeClient ← o.kubeClientTryDefault.attempt
  match kubeClient with
  | .ok _ => return true
  | .error _ =>
    if config.ignoreKubernetesConnectionFailure then return false
    else .throw ("Cannot connect to Kubernetes, context aware policies would not work properly")

def newDownloader : Prog W String (Downloader C) := do
  let trustRoot ← o.createSigstoreTrustroot.attempt
  -- do not exit when the trust root cannot be created
  let sigstoreTrustRoot := trustRoot.toOption
  let kubeClient ← connectToKubernetes o config
  o.buildCallbackHandler sigstoreTrustRoot kubeClient
  new o config.sources (if config.verificationConfig.isSome then sigstoreTrustRoot else none)

def readFetchedPolicy : Except String String → Prog W String (Except String (List UInt8))
  | .ok path => (o.readFile path).attempt
  | .error e => return .error e

def readFetchedPolicies (fetchedPolicies : FetchedPolicies) :
    Prog W String (HashMap String (Except String (List UInt8))) :=
  fetchedPolicies.entries.foldlM (fun files e => do
      let file ← readFetchedPolicy o e.2
      return files.insert e.1 file) ∅

def precompiledPolicies : Prog W String PrecompiledPolicies := do
  let downloader ← newDownloader o config
  let fetchedPolicies ← downloader.downloadPolicies libs o
    config.policiesDownloadDir config.policies config.verificationConfig
  o.wasmtimeEngineNew config.policyEvaluationLimitSeconds.isSome
  let files ← readFetchedPolicies o fetchedPolicies
  return precompilePolicies libs.wasm files

def exitOnErrors (precompiledPolicies : PrecompiledPolicies) : Except String Unit :=
  precompiledPolicies.entries.forM (fun e => e.2.map (fun _ => ()))

def newFromConfig (engine : Engine M) : Prog W String (EvaluationEnvironment M) := do
  let precompiledPolicies ← precompiledPolicies libs o config
  .ofExcept (if config.continueOnErrors then .ok () else exitOnErrors precompiledPolicies)
  let builder : EvaluationEnvironmentBuilder M :=
    { engine := engine
      precompiledPolicies := precompiledPolicies
      continueOnErrors := config.continueOnErrors
      globalPolicyEvaluationLimitSeconds := config.policyEvaluationLimitSeconds
      policyMemoryLimitBytes := config.policyMemoryLimitBytes
      alwaysAcceptAdmissionReviewsOnNamespace := config.alwaysAcceptAdmissionReviewsOnNamespace }
  match builder.buildEvaluationEnvironment config.policies with
  | .ok env => return env
  | .error (.error e) => .throw e.text
  | .error .panic => .panic

end

variable {libs : Libraries U R K} {o : Outside W T C R} {config : Config U}

/-! ## The downloader of a server -/

theorem verifier_newDownloader {w w₁ w' : W} {root : Except String T}
    {dl : Downloader C} (hroot : o.createSigstoreTrustroot.Returns w root w₁)
    (h : newDownloader o config w = (.ok dl, w')) :
    dl.verifier.isSome = (config.verificationConfig.isSome && root.toOption.isSome) := by
  unfold newDownloader at h
  simp only [bind_eq_ok, attempt_eq_ok] at h
  obtain ⟨root', _, hroot', _, _, -, _, _, -, h⟩ := h
  obtain rfl := hroot.eq hroot'
  rw [verifier_new h]
  cases config.verificationConfig.isSome with
  | false => rfl
  | true => rfl

variable {w w' : W}

/-! ## The compiled policies -/

theorem readFetchedPolicies_eq_ok {fetched : FetchedPolicies}
    {files : HashMap String (Except String (List UInt8))}
    (h : readFetchedPolicies o fetched w = (.ok files, w')) :
    (∀ url, url ∈ files ↔ url ∈ fetched) ∧ ∀ url file, files.lookup url = some file →
      ∃ r w₁ w₂, fetched.lookup url = some r ∧ readFetchedPolicy o r w₁ = (.ok file, w₂) := by
  have hinv := foldlM_ok_of_inv
    (P := fun l (files : HashMap String (Except String (List UInt8))) _ =>
      (∀ url, url ∈ files ↔ url ∈ l.keys) ∧ ∀ url file, files.lookup url = some file →
        ∃ r w₁ w₂, ⟨url, r⟩ ∈ l ∧ readFetchedPolicy o r w₁ = (.ok file, w₂))
    ⟨by simp, by simp⟩ ?_ h
  · refine ⟨hinv.1, fun url file hfile => ?_⟩
    obtain ⟨r, w₁, w₂, hr, hread⟩ := hinv.2 url file hfile
    exact ⟨r, w₁, w₂, mem_lookup_iff.2 hr, hread⟩
  · rintro l files₁ w₁ ⟨url, r⟩ files₂ w₂ - ⟨hkeys, hfiles⟩ hstep
    obtain ⟨file, w₃, hread, hstep⟩ := bind_eq_ok.1 hstep
    obtain ⟨rfl, -⟩ := pure_eq_ok.1 hstep
    refine ⟨fun url' => ?_, fun url' file' hfile' => ?_⟩
    · rw [mem_insert, hkeys, or_comm]
      simp [List.keys]
    · by_cases heq : url' = url
      · subst heq
        rw [lookup_insert] at hfile'
        cases hfile'
        exact ⟨r, w₁, w₃, List.mem_append_right _ (List.mem_singleton.2 rfl), hread⟩
      · rw [lookup_insert_ne heq] at hfile'
        obtain ⟨r', w₄, w₅, hr', hread'⟩ := hfiles url' file' hfile'
        exact ⟨r', w₄, w₅, List.mem_append_left _ hr', hread'⟩

theorem precompiledPolicies_eq_ok {precompiled : PrecompiledPolicies}
    (h : precompiledPolicies libs o config w = (.ok precompiled, w')) :
    ∃ dl w₀ fetched w₁, newDownloader o config w = (.ok dl, w₀)
      ∧ dl.downloadPolicies libs o config.policiesDownloadDir config.policies
        config.verificationConfig w₀ = (.ok fetched, w₁)
      ∧ (∀ url, url ∈ precompiled ↔ url ∈ fetched)
      ∧ ∀ url r, precompiled.lookup url = some r →
        ∃ location w₂ file w₃, fetched.lookup url = some location
          ∧ readFetchedPolicy o location w₂ = (.ok file, w₃)
          ∧ r = file >>= new libs.wasm := by
  unfold precompiledPolicies at h
  simp only [bind_eq_ok, pure_eq_ok] at h
  obtain ⟨dl, w₀, hdl, fetched, w₁, hfetched, _, _, -, files, _, hfiles, rfl, -⟩ := h
  obtain ⟨hkeys, hread⟩ := readFetchedPolicies_eq_ok hfiles
  refine ⟨dl, w₀, fetched, w₁, hdl, hfetched, fun url => ?_, fun url r hr => ?_⟩
  · rw [← hkeys, precompilePolicies, mem_mapValues]
  · rw [precompilePolicies, lookup_mapValues, Option.map_eq_some_iff] at hr
    obtain ⟨file, hfile, rfl⟩ := hr
    obtain ⟨location, w₂, w₃, hlocation, hfile⟩ := hread url file hfile
    exact ⟨location, w₂, file, w₃, hlocation, hfile, rfl⟩

theorem exists_path_of_readFetchedPolicy {location : Except String String} {contents : List UInt8}
    (h : readFetchedPolicy o location w = (.ok (.ok contents), w')) :
    ∃ path, location = .ok path := by
  cases location with
  | ok path => exact ⟨path, rfl⟩
  | error e => cases h

/-! ## Only verified modules are compiled -/

variable (libs o config) in
/-- **Only verified modules are compiled**: those that have not been verified in
this run are mapped to an error. -/
def OnlyVerified (verificationConfig : LatestVerificationConfig U) (w : W) : Prop :=
  ∀ precompiled w', precompiledPolicies libs o config w = (.ok precompiled, w') →
    ∃ dl w₀, newDownloader o config w = (.ok dl, w₀)
      ∧ (∀ url, url ∈ precompiled ↔ url ∈ moduleUrls config.policies)
      ∧ ∀ url r, precompiled.lookup url = some r →
        dl.VerifiedDuring libs o config.policiesDownloadDir verificationConfig
          config.policies w₀ url
          ∨ ∃ e, r = .error e

section

variable {verificationConfig : LatestVerificationConfig U}
  (hconfig : config.verificationConfig = some verificationConfig)
  (hvalid : validatePolicies config.policies = .ok ())

include hconfig hvalid

theorem onlyVerified_of_root {w w₁ : W} {root : T}
    (hroot : o.createSigstoreTrustroot.Returns w (.ok root) w₁) :
    OnlyVerified libs o config verificationConfig w := by
  intro precompiled w' h
  obtain ⟨dl, w₀, fetched, w₂, hdl, hfetched, hkeys, hlookup⟩ := precompiledPolicies_eq_ok h
  have hver := verifier_newDownloader hroot hdl
  rw [hconfig] at hver hfetched
  obtain ⟨ver, hver⟩ := Option.isSome_iff_exists.1 hver
  refine ⟨dl, w₀, hdl, fun url => ?_, fun url r hr => ?_⟩
  · rw [hkeys, mem_downloadPolicies_iff hvalid hfetched]
  · obtain ⟨location, w₃, file, w₄, hlocation, hfile, rfl⟩ := hlookup url r hr
    cases hcompile : file >>= new libs.wasm with
    | error e => exact .inr ⟨e, rfl⟩
    | ok p =>
      obtain ⟨contents, rfl, -⟩ := Fallible.bind_eq_ok.1 hcompile
      obtain ⟨path, rfl⟩ := exists_path_of_readFetchedPolicy hfile
      exact .inl (verifiedDuring_of_lookup hver hfetched hlocation)

omit hconfig in
theorem onlyVerified_of_not_fetchable {w : W} (h : ∀ url ∈ moduleUrls config.policies,
      ¬ Fetchable libs.toFetcherLib (.store config.policiesDownloadDir) url) :
    OnlyVerified libs o config verificationConfig w := by
  intro precompiled w' hrun
  obtain ⟨dl, w₀, fetched, w₂, hdl, hfetched, hkeys, hlookup⟩ := precompiledPolicies_eq_ok hrun
  have hmem : ∀ url, url ∈ precompiled ↔ url ∈ moduleUrls config.policies :=
    fun url => (hkeys url).trans (mem_downloadPolicies_iff hvalid hfetched url)
  refine ⟨dl, w₀, hdl, hmem, fun url r hr => .inr ?_⟩
  obtain ⟨location, _, file, _, hlocation, hfile, rfl⟩ := hlookup url r hr
  cases hcompile : file >>= new libs.wasm with
  | error e => exact ⟨e, rfl⟩
  | ok p =>
    obtain ⟨contents, rfl, -⟩ := Fallible.bind_eq_ok.1 hcompile
    obtain ⟨path, rfl⟩ := exists_path_of_readFetchedPolicy hfile
    have hurl := (hmem url).1 (lookup_isSome.1 (hr ▸ rfl))
    exact absurd (fetchable_of_lookup hfetched hlocation) (h url hurl)

omit hconfig in
theorem onlyVerified_of_panicsOn {w w₁ : W} {e : String}
    (hroot : o.createSigstoreTrustroot.Returns w (.error e) w₁) {url : String}
    (hurl : url ∈ moduleUrls config.policies)
    (h : PanicsOn libs.toFetcherLib (.store config.policiesDownloadDir) url) :
    OnlyVerified libs o config verificationConfig w := by
  intro precompiled w' hrun
  obtain ⟨dl, w₀, fetched, w₂, hdl, hfetched, -⟩ := precompiledPolicies_eq_ok hrun
  have hver : dl.verifier = none := by
    rw [← Option.not_isSome_iff_eq_none, verifier_newDownloader hroot hdl]
    simp [Except.toOption]
  exact absurd h (not_panicsOn_of_downloadPolicies hvalid hver hfetched hurl)

end

/-! ## A world without trust root -/

def withoutTrustRoot (T R : Type) (e : String) (contents : List UInt8) : Outside Unit T Unit R where
  toRemote := .obliging contents
  createSigstoreTrustroot := .throw e
  kubeClientTryDefault := pure ()
  buildCallbackHandler := fun _ _ => pure ()
  buildCosignClient := fun _ _ => .throw ⟨false, "no client"⟩
  triangulate := fun _ _ => .throw ⟨true, "no signatures"⟩
  trustedSignatureLayers := fun _ _ => .throw ⟨true, "no signatures"⟩
  wasmtimeEngineNew := fun _ => pure ()
  order := id
  order_perm := fun _ => .refl _

section

variable {e : String} {contents : List UInt8}

theorem newDownloader_withoutTrustRoot (config : Config U) :
    newDownloader (withoutTrustRoot T R e contents) config ()
      = (.ok ⟨none, config.sources⟩, ()) := by
  unfold newDownloader
  cases config.verificationConfig.isSome with
  | false => rfl
  | true => rfl

theorem exists_readFetchedPolicies_withoutTrustRoot (fetched : FetchedPolicies) (w : Unit) :
    ∃ files w', readFetchedPolicies (withoutTrustRoot T R e contents) fetched w
      = (.ok files, w') := by
  refine foldlM_ok_of_total (fun d _ files w => ?_) ∅ w
  obtain ⟨url, location⟩ := d
  cases location with
  | ok path => exact ⟨_, w, rfl⟩
  | error e => exact ⟨_, w, rfl⟩

variable (hvalid : validatePolicies config.policies = .ok ())
  (hpanics : ∀ url ∈ moduleUrls config.policies,
    ¬ PanicsOn libs.toFetcherLib (.store config.policiesDownloadDir) url)

include hvalid hpanics

theorem exists_downloadPolicies_withoutTrustRoot (w : Unit) :
    ∃ fetched w', (⟨none, config.sources⟩ : Downloader Unit).downloadPolicies
      libs (withoutTrustRoot T R e contents) config.policiesDownloadDir
      config.policies config.verificationConfig w
      = (.ok fetched, w') := by
  have hstep : ∀ d ∈ (policiesToDownload config.policies).entries, ∀ s w,
      ∃ s' w', (⟨none, config.sources⟩ : Downloader Unit).iteration libs
        (withoutTrustRoot T R e contents) config.policiesDownloadDir
        (config.verificationConfig.getD ⟨none, none⟩) s d w
      = (.ok s', w') := by
    intro d hd s w
    by_cases h : d.2 ∈ s.processedPolicies
    · exact ⟨s, w, iteration_eq_ok.2 (.inl ⟨h, rfl, rfl⟩)⟩
    · have hurl := (exists_mem_policiesToDownload_iff hvalid).1 ⟨d.1, hd⟩
      have hprocess : ((⟨none, config.sources⟩ : Downloader Unit).process libs
          (withoutTrustRoot T R e contents) config.policiesDownloadDir
          (config.verificationConfig.getD ⟨none, none⟩) d.1 d.2).NoPanic := by
        rw [process_of_none rfl]
        exact ((noPanic_fetchPolicy_obliging (hpanics d.2 hurl) _).mapError
          _).bind (fun policy _ => noPanic_pure _)
      obtain ⟨r, w', hr⟩ := hprocess w
      exact ⟨_, w', iteration_eq_ok.2 (.inr ⟨h, r, hr, rfl⟩)⟩
  obtain ⟨s, w', hs⟩ := foldlM_ok_of_total hstep .initial w
  exact ⟨s.fetchedPolicies, w', bind_eq_ok.2 ⟨s, w', hs, rfl⟩⟩

theorem exists_precompiledPolicies_withoutTrustRoot : ∃ precompiled w', precompiledPolicies libs
      (withoutTrustRoot T R e contents) config ()
    = (.ok precompiled, w') := by
  obtain ⟨fetched, w₁, hfetched⟩ := exists_downloadPolicies_withoutTrustRoot hvalid hpanics ()
  obtain ⟨files, w₂, hfiles⟩ := exists_readFetchedPolicies_withoutTrustRoot fetched w₁
  refine ⟨precompilePolicies libs.wasm files, w₂, ?_⟩
  unfold precompiledPolicies
  simp only [bind_eq_ok, pure_eq_ok]
  exact ⟨_, _, newDownloader_withoutTrustRoot config, fetched, w₁, hfetched,
    (), w₁, rfl, files, w₂, hfiles, rfl, trivial⟩

theorem not_onlyVerified_withoutTrustRoot {p : PrecompiledPolicy}
    (hmagic : wasmMagicNumber.isPrefixOf contents = true)
    (hcompile : new libs.wasm contents = .ok p)
    {url : String} (hurl : url ∈ moduleUrls config.policies)
    (hfetchable : Fetchable libs.toFetcherLib (.store config.policiesDownloadDir) url)
    (verificationConfig : LatestVerificationConfig U) :
    ¬ OnlyVerified libs (withoutTrustRoot T R e contents) config verificationConfig () := by
  intro honly
  obtain ⟨precompiled, w', h⟩ := exists_precompiledPolicies_withoutTrustRoot hvalid hpanics
  obtain ⟨dl, w₀, hdl, hkeys, honly⟩ := honly precompiled w' h
  cases (newDownloader_withoutTrustRoot config).symm.trans hdl
  obtain ⟨r, hr⟩ := Option.isSome_iff_exists.1 (lookup_isSome.2 ((hkeys url).2 hurl))
  rcases honly url r hr with ⟨ver, _, _, _, hver, -⟩ | ⟨error, rfl⟩
  · cases hver
  -- the module is not mapped to an error: it is fetched, read and compiled
  · obtain ⟨_, _, fetched, _, hdl', hfetched, -, hlookup⟩ := precompiledPolicies_eq_ok h
    cases (newDownloader_withoutTrustRoot config).symm.trans hdl'
    obtain ⟨location, _, file, _, hlocation, hfile, herror⟩ := hlookup url _ hr
    obtain ⟨_, d, _, -, -, _, w₁, _, -, -, hprocess⟩ := processedDuring_of_lookup hfetched hlocation
    obtain ⟨policy, hpolicy⟩ := exists_fetchPolicy_of_fetchable hmagic hfetchable config.sources w₁
    have hpath : ((⟨none, config.sources⟩ : Downloader Unit).process libs
        (withoutTrustRoot T R e contents) config.policiesDownloadDir
        (config.verificationConfig.getD ⟨none, none⟩) d.1 url).Returns w₁
        (.ok policy.localPath) w₁ :=
      process_of_fetchPolicy rfl hpolicy
    cases hprocess.eq hpath
    cases hfile
    cases herror.trans hcompile

end

/-! ## When only verified modules are compiled -/

/-- **When only verified modules are compiled**, whatever registries and file
system do: exactly when the trust root has been created, or none of the modules
can be fetched, or fetching one of them panics. -/
theorem precompiled_only_verified_iff (libs : Libraries U R K)
    {config : Config U} {verificationConfig : LatestVerificationConfig U}
    (hconfig : config.verificationConfig = some verificationConfig)
    (hvalid : validatePolicies config.policies = .ok ())
    (hcompile : ∃ contents p, wasmMagicNumber.isPrefixOf contents = true
      ∧ new libs.wasm contents = .ok p)
    (root : Except String T) :
    (∀ (W C : Type) (o : Outside W T C R) (dl : Downloader C) (destination : String)
        (verificationConfig : Option (LatestVerificationConfig U)) (w w' : W)
        (fetched : FetchedPolicies),
        dl.downloadPolicies libs o destination config.policies
          verificationConfig w = (.ok fetched, w') →
        ∀ url, url ∈ fetched ↔ url ∈ moduleUrls config.policies)
      ∧ ((∀ (W C : Type) (o : Outside W T C R) (w w' : W),
          o.createSigstoreTrustroot.Returns w root w' →
          OnlyVerified libs o config verificationConfig w)
        ↔ (∃ t, root = .ok t) ∨ (∀ url ∈ moduleUrls config.policies, ¬ Fetchable libs.toFetcherLib
              (.store config.policiesDownloadDir) url)
          ∨ ∃ url ∈ moduleUrls config.policies, PanicsOn libs.toFetcherLib
            (.store config.policiesDownloadDir) url) := by
  refine ⟨fun W C o dl _ _ w w' fetched h url =>
    mem_downloadPolicies_iff hvalid h url, ?_, ?_⟩
  · intro h
    cases root with
    | ok t => exact .inl ⟨t, rfl⟩
    | error e =>
      by_contra hnot
      push Not at hnot
      obtain ⟨-, ⟨url, hurl, hfetchable⟩, hpanics⟩ := hnot
      obtain ⟨contents, p, hmagic, hp⟩ := hcompile
      exact not_onlyVerified_withoutTrustRoot hvalid hpanics hmagic hp hurl
        hfetchable verificationConfig
        (h Unit Unit (withoutTrustRoot T R e contents) () () rfl)
  · rintro h W C o w w' hroot
    cases root with
    | ok t => exact onlyVerified_of_root hconfig hvalid hroot
    | error e =>
      rcases h with ⟨t, ⟨⟩⟩ | hnone | ⟨url, hurl, hpanics⟩
      · exact onlyVerified_of_not_fetchable hvalid hnone
      · exact onlyVerified_of_panicsOn hvalid hroot hurl hpanics

/-! ## A signed policy -/

def sampleLibraries : Libraries String String String where
  urls := { UrlLib.text with
    hostStr := fun _ => some "ghcr.io"
    path := fun _ => "/p:v1" }
  scheme := fun _ => "registry"
  port := fun _ => none
  toFilePath := fun _ => none
  referenceTryFrom := fun s => .ok ⟨"ghcr.io", "p", some "v1", s⟩
  defaultStoreRoot := "/store"
  overflowChecks := false
  sigstore := .byKeyName
  yaml := .plain (fun _ => .error "not a document")
  wasm := .oneByteMetadata
  ociReferenceFromStr := .ok

def sampleVerificationConfig : LatestVerificationConfig String :=
  ⟨some [.pubKey none "k" none], none⟩

def sampleUrl : String := "registry://ghcr.io/p:v1"

def sampleConfig : Config String where
  sources := none
  policies := singleton "p" (.policy (.ofModule sampleUrl))
  policiesDownloadDir := "/policies"
  ignoreKubernetesConnectionFailure := false
  alwaysAcceptAdmissionReviewsOnNamespace := none
  policyEvaluationLimitSeconds := none
  policyMemoryLimitBytes := none
  verificationConfig := some sampleVerificationConfig
  continueOnErrors := false

def signedWorld : Outside Unit Unit Unit String where
  toRemote := { Remote.obliging wasmMagicNumber with
    pullManifest := fun _ _ => pure (.image [⟨wasmLayerMediaType,
      "sha256:" ++ WasmLib.oneByteMetadata.sha256 wasmMagicNumber⟩]) }
  createSigstoreTrustroot := pure ()
  kubeClientTryDefault := pure ()
  buildCallbackHandler := fun _ _ => pure ()
  buildCosignClient := fun _ _ => pure ()
  triangulate := fun _ _ => pure "sha256:m"
  trustedSignatureLayers := fun _ _ => pure [⟨none, "k"⟩]
  wasmtimeEngineNew := fun _ => pure ()
  order := id
  order_perm := fun _ => .refl _

def unsignedWorld : Outside Unit Unit Unit String :=
  withoutTrustRoot Unit String "no network" wasmMagicNumber

/-- **An unsigned policy is served**, since there is no trust root. -/
theorem unsigned_policy_is_compiled :
    sampleConfig.verificationConfig = some sampleVerificationConfig
      ∧ validatePolicies sampleConfig.policies = .ok ()
      ∧ (∀ ver : Verifier Unit, ∃ e, ver.verify sampleLibraries unsignedWorld
        sampleUrl sampleVerificationConfig () = (.error e, ()))
      ∧ (∃ precompiled p, precompiledPolicies sampleLibraries unsignedWorld
            sampleConfig () = (.ok precompiled, ())
          ∧ precompiled.lookup sampleUrl = some (.ok p))
      ∧ ∃ env d, newFromConfig sampleLibraries unsignedWorld sampleConfig
        Engine.trusting () = (.ok env, ())
        ∧ env.policyIdToModuleDigest.lookup (.policy "p") = some d :=
  ⟨rfl, rfl, fun _ => ⟨_, rfl⟩, ⟨_, _, rfl, rfl⟩, _, _, rfl, rfl⟩

theorem precompiled_only_verified_signed : ∃ precompiled p dl w₀,
      precompiledPolicies sampleLibraries signedWorld sampleConfig () = (.ok precompiled, ())
      ∧ precompiled.lookup sampleUrl = some (.ok p)
      ∧ newDownloader signedWorld sampleConfig () = (.ok dl, w₀)
      ∧ dl.VerifiedDuring sampleLibraries signedWorld "/policies"
        sampleVerificationConfig sampleConfig.policies w₀ sampleUrl := by
  have hrun : precompiledPolicies sampleLibraries signedWorld sampleConfig () = (.ok _, ()) := rfl
  obtain ⟨dl, w₀, hdl, -, honly⟩ := (precompiled_only_verified_iff
    sampleLibraries rfl rfl ⟨wasmMagicNumber, _, rfl, rfl⟩ (.ok ())).2.2
    (.inl ⟨(), rfl⟩) Unit Unit signedWorld () () rfl _ _ hrun
  refine ⟨_, _, dl, w₀, hrun, rfl, hdl, ?_⟩
  rcases honly sampleUrl _ rfl with hverified | ⟨e, he⟩
  · exact hverified
  · cases he

end PolicyServer
