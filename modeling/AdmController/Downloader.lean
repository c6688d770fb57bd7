import AdmController.KeyedFold
import AdmController.Verifier

/-!
# Downloading policies

`Downloader.downloadPolicies` fetches and verifies the modules of all policies
and members, each URL once (`mem_downloadPolicies_iff`); the entry of a URL is
the outcome of its iteration (`processedDuring_of_lookup`).
-/

open RustStr Prog AList List

abbrev FetchedPolicies := HashMap String (Except String String)

/-! ## The modules to download -/

def PolicyOrPolicyGroup.downloads (name : String) :
    PolicyOrPolicyGroup → List (Σ _ : String, String)
  | .policy p => [⟨name, p.module⟩]
  | .policyGroup g => g.policies.entries.map (fun m => ⟨name ++ "/#" ++ m.1, m.2.module⟩)

def policiesToDownload (policies : Policies) : HashMap String String :=
  policies.entries.foldl (fun flattened e => flattened.insertAll (e.2.downloads e.1)) ∅

def moduleUrls (policies : Policies) : List String := (configuredModules policies).map Prod.fst

theorem split_of_mem_downloads {name : String} (hname : contains name '/' = false)
    {entry : PolicyOrPolicyGroup} {e : Σ _ : String, String} (he : e ∈ entry.downloads name) :
    (split e.1 '/').head? = some name := by
  cases entry with
  | policy p =>
    cases mem_singleton.1 he
    rw [split_of_not_contains hname]
    rfl
  | policyGroup g =>
    obtain ⟨m, -, rfl⟩ := mem_map.1 he
    have hslash : "/#" = String.ofList ['/'] ++ "#" := rfl
    rw [hslash, ← String.append_assoc, String.append_assoc, split_join hname]
    rfl

theorem nodupKeys_downloads (name : String) (entry : PolicyOrPolicyGroup) :
    (entry.downloads name).NodupKeys := by
  cases entry with
  | policy p => exact nodupKeys_singleton _
  | policyGroup g =>
    have hmap := g.policies.nodupKeys.map (fun m m' (h : name ++ "/#" ++ m = name ++ "/#" ++ m') =>
        String.append_right_inj _ |>.1 h)
    rw [List.keys, List.map_map] at hmap
    rw [List.NodupKeys, List.keys, PolicyOrPolicyGroup.downloads, List.map_map]
    exact hmap

theorem mem_policiesToDownload_iff {policies : Policies}
    (hvalid : validatePolicies policies = .ok ()) {e : Σ _ : String, String} :
    e ∈ (policiesToDownload policies).entries
      ↔ ∃ entry ∈ policies.entries, e ∈ entry.2.downloads entry.1 := by
  have hnames := (validatePolicies_ok_iff policies).1 hvalid
  have hnodup : (policies.entries.flatMap (fun entry => entry.2.downloads entry.1)).NodupKeys := by
    rw [List.NodupKeys, List.keys, List.map_flatMap, List.nodup_flatMap]
    refine ⟨fun entry _ => nodupKeys_downloads entry.1 entry.2, ?_⟩
    refine (nodupKeys_iff_pairwise.1 policies.nodupKeys).imp_of_mem ?_
    intro entry entry' hentry hentry' hne key hkey hkey'
    -- the first piece of the name is the name of the entry
    obtain ⟨d, hd, rfl⟩ := mem_map.1 hkey
    obtain ⟨d', hd', hkey⟩ := mem_map.1 hkey'
    have hsplit := split_of_mem_downloads (hnames entry hentry).1 hd
    rw [← hkey, split_of_mem_downloads (hnames entry' hentry').1 hd'] at hsplit
    exact hne (Option.some.inj hsplit).symm
  have hflat : policiesToDownload policies
      = (∅ : HashMap String String).insertAll (policies.entries.flatMap
        (fun entry => entry.2.downloads entry.1)) :=
    foldl_flatMap.symm
  rw [hflat, mem_entries_insertAll hnodup, mem_flatMap]

theorem exists_mem_policiesToDownload_iff {policies : Policies}
    (hvalid : validatePolicies policies = .ok ()) {url : String} :
    (∃ name, ⟨name, url⟩ ∈ (policiesToDownload policies).entries) ↔ url ∈ moduleUrls policies := by
  simp only [mem_policiesToDownload_iff hvalid, moduleUrls, configuredModules, mem_map, mem_flatMap]
  constructor
  · rintro ⟨name, ⟨key, entry⟩, hentry, h⟩
    cases entry with
    | policy p =>
      cases mem_singleton.1 h
      exact ⟨_, ⟨_, hentry, mem_singleton.2 rfl⟩, rfl⟩
    | policyGroup g =>
      obtain ⟨m, hm, hname⟩ := mem_map.1 h
      cases hname
      exact ⟨_, ⟨_, hentry, mem_map.2 ⟨m, hm, rfl⟩⟩, rfl⟩
  · rintro ⟨_, ⟨⟨key, entry⟩, hentry, h⟩, rfl⟩
    cases entry with
    | policy p =>
      cases mem_singleton.1 h
      exact ⟨key, _, hentry, mem_singleton.2 rfl⟩
    | policyGroup g =>
      obtain ⟨m, hm, rfl⟩ := mem_map.1 h
      exact ⟨_, _, hentry, mem_map.2 ⟨m, hm, rfl⟩⟩

/-! ## The downloader -/

structure Downloader (C : Type) where
  verifier : Option (Verifier C)
  sources : Option Sources

namespace Downloader

variable {W T C R U K : Type}

def new (o : Outside W T C R) (sources : Option Sources)
    (manualRoot : Option T) : Prog W String (Downloader C) :=
  match manualRoot with
  | some manualRoot => do
    let verifier ← (Verifier.new o sources manualRoot).mapError VerifyError.text
    return ⟨some verifier, sources⟩
  | none => return ⟨none, sources⟩

variable {w w' : W}

theorem verifier_new {o : Outside W T C R} {sources : Option Sources} {manualRoot : Option T}
    {dl : Downloader C} (h : new o sources manualRoot w = (.ok dl, w')) :
    dl.verifier.isSome = manualRoot.isSome := by
  cases manualRoot with
  | none =>
    obtain ⟨rfl, -⟩ := pure_eq_ok.1 h
    rfl
  | some root =>
    obtain ⟨verifier, _, -, h⟩ := bind_eq_ok.1 h
    obtain ⟨rfl, -⟩ := pure_eq_ok.1 h
    rfl

variable (libs : Libraries U R K) (o : Outside W T C R) (dl : Downloader C)
  (destination : String) (verificationConfig : LatestVerificationConfig U)

def verifySignatures (name policyUrl : String) : Prog W String (Option String) :=
  match dl.verifier with
  | some ver => do
    let digest ← (ver.verify libs o policyUrl verificationConfig).mapError
      (fun e => "Policy '" ++ name ++ "' cannot be verified: " ++ e.text)
    return some digest
  | none => return none

def verifyChecksum (name : String) (fetchedPolicy : FetchedPolicy)
    (verifiedManifestDigest : Option String) : Prog W String Unit :=
  match dl.verifier, verifiedManifestDigest with
  | some ver, some digest =>
    (ver.verifyLocalFileChecksum libs o fetchedPolicy digest).mapError
      (fun e => "Verification of policy " ++ name ++ " failed: " ++ e.text)
  -- `unwrap` on a missing digest
  | some _, none => .panic
  | none, _ => return ()

def process (name policyUrl : String) : Prog W String String := do
  let verifiedManifestDigest ← dl.verifySignatures libs o verificationConfig name policyUrl
  let fetchedPolicy ← (fetchPolicy libs.toFetcherLib o.toRemote policyUrl
    (.store destination) dl.sources).mapError (fun e =>
      "Error while downloading policy '" ++ name ++ "' from " ++ policyUrl ++ ": " ++ e)
  dl.verifyChecksum libs o name fetchedPolicy verifiedManifestDigest
  return fetchedPolicy.localPath

/-- The URLs that have been tried, and what became of them. -/
structure Progress where
  processedPolicies : List String
  fetchedPolicies : FetchedPolicies

def Progress.initial : Progress := ⟨[], ∅⟩

def iteration (s : Progress) (e : Σ _ : String, String) : Prog W String Progress :=
  if e.2 ∈ s.processedPolicies then return s
  else do
    let result ← (dl.process libs o destination verificationConfig e.1 e.2).attempt
    return ⟨e.2 :: s.processedPolicies, s.fetchedPolicies.insert e.2 result⟩

open Progress

def downloadPolicies (policies : Policies)
    (verificationConfig : Option (LatestVerificationConfig U)) :
    Prog W String FetchedPolicies := do
  let s ← (o.order (policiesToDownload policies)).entries.foldlM
    (dl.iteration libs o destination (verificationConfig.getD ⟨none, none⟩))
    initial
  return s.fetchedPolicies

variable {libs o dl destination verificationConfig}

/-! ## One iteration -/

theorem iteration_eq_ok {s s' : Progress} {e : Σ _ : String, String} :
    dl.iteration libs o destination verificationConfig s e w = (.ok s', w')
      ↔ (e.2 ∈ s.processedPolicies ∧ s' = s ∧ w' = w) ∨ (e.2 ∉ s.processedPolicies ∧ ∃ result,
        (dl.process libs o destination verificationConfig e.1 e.2).Returns w result w'
        ∧ s' = ⟨e.2 :: s.processedPolicies, s.fetchedPolicies.insert e.2 result⟩) := by
  unfold iteration
  by_cases h : e.2 ∈ s.processedPolicies
  · rw [if_pos h, pure_eq_ok]
    simp [h, eq_comm]
  · rw [if_neg h]
    simp only [bind_eq_ok, attempt_eq_ok, pure_eq_ok, h,
      false_and, false_or, not_false_eq_true, true_and]
    constructor
    · rintro ⟨result, _, hresult, rfl, rfl⟩
      exact ⟨result, hresult, rfl⟩
    · rintro ⟨result, hresult, rfl⟩
      exact ⟨result, w', hresult, rfl, rfl⟩

variable {path url name : String}

theorem process_eq_ok {ver : Verifier C} (hver : dl.verifier = some ver) :
    dl.process libs o destination verificationConfig name url w = (.ok path, w')
      ↔ ∃ digest w₁ policy w₂, ver.verify libs o url verificationConfig w = (.ok digest, w₁)
        ∧ fetchPolicy libs.toFetcherLib o.toRemote url (.store destination)
          dl.sources w₁ = (.ok policy, w₂)
        ∧ ver.MatchesManifest libs o policy digest w₂ w'
        ∧ policy.localPath = path := by
  unfold process verifySignatures verifyChecksum
  rw [hver]
  simp only [bind_eq_ok, mapError_eq_ok, pure_eq_ok]
  constructor
  · rintro ⟨_, _, ⟨digest, w₁, hverify, rfl, rfl⟩, policy, w₂, hfetch, _, _, hcheck, rfl, rfl⟩
    exact ⟨digest, w₁, policy, w₂, hverify, hfetch,
      Verifier.verifyLocalFileChecksum_eq_ok.1 (mapError_eq_ok.1 hcheck),
      rfl⟩
  · rintro ⟨digest, w₁, policy, w₂, hverify, hfetch, hmatch, rfl⟩
    exact ⟨some digest, w₁, ⟨digest, w₁, hverify, rfl, rfl⟩, policy, w₂, hfetch,
      (), w', mapError_eq_ok.2 (Verifier.verifyLocalFileChecksum_eq_ok.2 hmatch), rfl, rfl⟩

theorem exists_fetchPolicy_of_process
    (h : dl.process libs o destination verificationConfig name url w = (.ok path, w')) :
    ∃ w₁ policy w₂, fetchPolicy libs.toFetcherLib o.toRemote url
      (.store destination) dl.sources w₁ = (.ok policy, w₂) := by
  obtain ⟨_, w₁, -, h⟩ := bind_eq_ok.1 h
  obtain ⟨policy, w₂, hfetch, -⟩ := bind_eq_ok.1 h
  exact ⟨w₁, policy, w₂, mapError_eq_ok.1 hfetch⟩

theorem process_of_none (hver : dl.verifier = none) (name url : String) :
    dl.process libs o destination verificationConfig name url
      = ((fetchPolicy libs.toFetcherLib o.toRemote url (.store destination)
          dl.sources).mapError (fun e => "Error while downloading policy '"
            ++ name ++ "' from " ++ url ++ ": " ++ e)
        >>= fun policy => pure policy.localPath) := by
  unfold process verifySignatures verifyChecksum
  rw [hver]
  rfl

theorem process_of_fetchPolicy (hver : dl.verifier = none)
    {policy : FetchedPolicy} (h : fetchPolicy libs.toFetcherLib o.toRemote url
      (.store destination) dl.sources w = (.ok policy, w')) :
    dl.process libs o destination verificationConfig name url w = (.ok policy.localPath, w') := by
  rw [process_of_none hver]
  exact bind_eq_ok.2 ⟨policy, w', mapError_eq_ok.2 h, rfl⟩

/-! ## The loop -/

variable (libs o dl destination verificationConfig) in
/-- **The iteration that processed a URL**: the loop reaches an entry with this
URL, for the first time, with the given result. -/
def ProcessedDuring (w₀ : W) (entries : List (Σ _ : String, String))
    (url : String) (result : Except String String) : Prop :=
  ∃ l e l', entries = l ++ e :: l' ∧ e.2 = url ∧ ∃ s w w',
    l.foldlM (dl.iteration libs o destination verificationConfig) initial w₀ = (.ok s, w)
    ∧ url ∉ s.processedPolicies
    ∧ (dl.process libs o destination verificationConfig e.1 url).Returns w result w'

variable (libs o dl destination verificationConfig) in
/-- The invariant of the loop: the tried URLs are those of the processed
entries, and every result comes from the iteration that processed it. -/
structure LoopInvariant (w₀ : W) (entries : List (Σ _ : String, String)) (s : Progress) : Prop where
  processed : ∀ url, url ∈ s.processedPolicies ↔ ∃ e ∈ entries, e.2 = url
  fetched : ∀ url, url ∈ s.fetchedPolicies ↔ url ∈ s.processedPolicies
  result : ∀ url r, s.fetchedPolicies.lookup url = some r →
    dl.ProcessedDuring libs o destination verificationConfig w₀ entries url r

variable {l : List (Σ _ : String, String)} {w₀ : W}

theorem ProcessedDuring.append {r : Except String String}
    (h : dl.ProcessedDuring libs o destination verificationConfig w₀ l url r)
    (e : Σ _ : String, String) :
    dl.ProcessedDuring libs o destination verificationConfig w₀ (l ++ [e]) url r :=
  KeyedFold.exists_split_append_singleton.2 (.inl h)

theorem LoopInvariant.step {e : Σ _ : String, String} {s s' : Progress}
    (hrun : l.foldlM (dl.iteration libs o destination verificationConfig) initial w₀ = (.ok s, w))
    (hinv : dl.LoopInvariant libs o destination verificationConfig w₀ l s)
    (h : dl.iteration libs o destination verificationConfig s e w = (.ok s', w')) :
    dl.LoopInvariant libs o destination verificationConfig w₀ (l ++ [e]) s' := by
  have hmem : ∀ url, (∃ e' ∈ l ++ [e], e'.2 = url) ↔ e.2 = url ∨ url ∈ s.processedPolicies := by
    intro url
    simp only [hinv.processed, mem_append, mem_singleton,
      or_and_right, exists_or, exists_eq_left, or_comm]
  rcases iteration_eq_ok.1 h with ⟨htried, rfl, rfl⟩ | ⟨hnew, r, hr, rfl⟩
  · refine ⟨fun url => ?_, hinv.fetched, fun url r hr => (hinv.result url r hr).append e⟩
    rw [hmem]
    exact ⟨.inr, fun h => h.elim (fun heq => heq ▸ htried) id⟩
  · refine ⟨fun url => ?_, fun url => ?_, fun url r' hr' => ?_⟩
    · rw [hmem, mem_cons, eq_comm]
    · rw [mem_insert, mem_cons, hinv.fetched]
    · by_cases heq : url = e.2
      · subst heq
        rw [lookup_insert] at hr'
        cases hr'
        exact ⟨l, e, [], rfl, rfl, s, w, w', hrun, hnew, hr⟩
      · rw [lookup_insert_ne heq] at hr'
        exact (hinv.result url r' hr').append e

theorem loopInvariant_of_run {s : Progress}
    (hrun : l.foldlM (dl.iteration libs o destination verificationConfig) initial w₀ = (.ok s, w)) :
    dl.LoopInvariant libs o destination verificationConfig w₀ l s := by
  refine foldlM_ok_of_inv (P := fun l s _ =>
      dl.LoopInvariant libs o destination verificationConfig w₀ l s)
    ⟨?_, ?_, ?_⟩ (fun l s w e s' w' hl hinv h => hinv.step hl h) hrun
  · simp [initial]
  · simp [initial]
  · simp [initial]

variable {verificationConfig : Option (LatestVerificationConfig U)}
  {policies : Policies} {fetched : FetchedPolicies} {w w' : W}

/-! ## Whole downloads -/

theorem mem_downloadPolicies_iff (hvalid : validatePolicies policies = .ok ())
    (h : dl.downloadPolicies libs o destination policies verificationConfig w = (.ok fetched, w'))
    (url : String) :
    url ∈ fetched ↔ url ∈ moduleUrls policies := by
  obtain ⟨s, w₁, hrun, hs⟩ := bind_eq_ok.1 h
  obtain ⟨rfl, rfl⟩ := pure_eq_ok.1 hs
  have hinv := loopInvariant_of_run hrun
  rw [hinv.fetched, hinv.processed, ← exists_mem_policiesToDownload_iff hvalid]
  constructor
  · rintro ⟨e, he, rfl⟩
    exact ⟨e.1, (o.order_perm _).mem_iff.1 he⟩
  · rintro ⟨name, he⟩
    exact ⟨_, (o.order_perm _).mem_iff.2 he, rfl⟩

theorem processedDuring_of_lookup
    (h : dl.downloadPolicies libs o destination policies verificationConfig w = (.ok fetched, w'))
    {r : Except String String} (hr : fetched.lookup url = some r) :
    dl.ProcessedDuring libs o destination (verificationConfig.getD ⟨none, none⟩) w
      (o.order (policiesToDownload policies)).entries url r := by
  obtain ⟨s, w₁, hrun, hs⟩ := bind_eq_ok.1 h
  obtain ⟨rfl, rfl⟩ := pure_eq_ok.1 hs
  exact (loopInvariant_of_run hrun).result url r hr

theorem fetchable_of_lookup
    (h : dl.downloadPolicies libs o destination policies verificationConfig w = (.ok fetched, w'))
    (hpath : fetched.lookup url = some (.ok path)) :
    Fetchable libs.toFetcherLib (.store destination) url := by
  obtain ⟨l, e, l', -, -, s, w₁, w₂, -, -, hprocess⟩ := processedDuring_of_lookup h hpath
  obtain ⟨w₃, policy, w₄, hfetch⟩ := exists_fetchPolicy_of_process hprocess
  exact fetchable_of_fetchPolicy hfetch

theorem not_panicsOn_of_downloadPolicies (hvalid : validatePolicies policies = .ok ())
    (hver : dl.verifier = none)
    (h : dl.downloadPolicies libs o destination policies verificationConfig w = (.ok fetched, w'))
    (hurl : url ∈ moduleUrls policies) :
    ¬ PanicsOn libs.toFetcherLib (.store destination) url := by
  intro hpanics
  obtain ⟨r, hr⟩ := Option.isSome_iff_exists.1
    (lookup_isSome.2 ((mem_downloadPolicies_iff hvalid h url).2 hurl))
  obtain ⟨l, e, l', -, -, s, w₁, w₂, -, -, hprocess⟩ := processedDuring_of_lookup h hr
  rw [process_of_none hver] at hprocess
  have hpanic := fetchPolicy_of_panicsOn (o := o.toRemote) hpanics dl.sources w₁
  cases r with
  | ok path =>
    obtain ⟨policy, w₃, hfetch, -⟩ := bind_eq_ok.1 hprocess
    cases hpanic.symm.trans (mapError_eq_ok.1 hfetch)
  | error e =>
    rw [Prog.Returns, bind_apply, mapError, hpanic] at hprocess
    cases hprocess

variable (libs o dl destination) in
/-- **A URL is verified during a download**: the signatures of its image were
verified, and the downloaded file is the one of the manifest. -/
def VerifiedDuring (verificationConfig : LatestVerificationConfig U)
    (policies : Policies) (w₀ : W) (url : String) : Prop :=
  ∃ ver l e l', dl.verifier = some ver
    ∧ (o.order (policiesToDownload policies)).entries = l ++ e :: l'
    ∧ e.2 = url ∧ ∃ s w digest w₁ policy w₂ w₃,
    l.foldlM (dl.iteration libs o destination verificationConfig) initial w₀ = (.ok s, w)
    ∧ url ∉ s.processedPolicies
    ∧ ver.verify libs o url verificationConfig w = (.ok digest, w₁)
    ∧ fetchPolicy libs.toFetcherLib o.toRemote url (.store destination)
      dl.sources w₁ = (.ok policy, w₂)
    ∧ ver.MatchesManifest libs o policy digest w₂ w₃

theorem verifiedDuring_of_lookup {ver : Verifier C} (hver : dl.verifier = some ver)
    {verificationConfig : LatestVerificationConfig U}
    (h : dl.downloadPolicies libs o destination policies (some
      verificationConfig) w = (.ok fetched, w'))
    (hpath : fetched.lookup url = some (.ok path)) :
    dl.VerifiedDuring libs o destination verificationConfig policies w url := by
  obtain ⟨l, e, l', hentries, rfl, s, w₁, w₂, hrun, hnew, hprocess⟩ :=
    processedDuring_of_lookup h hpath
  obtain ⟨digest, _, policy, _, hverify, hfetch, hmatch, -⟩ := (process_eq_ok hver).1 hprocess
  exact ⟨ver, l, e, l', hver, hentries, rfl, s, w₁, digest, _, policy, _, w₂,
    hrun, hnew, hverify, hfetch, hmatch⟩

end Downloader
