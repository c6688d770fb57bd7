import AdmController.Fetcher
import AdmController.StorePaths

/-!
# Policies that share a place in the store

`fetch_policy` returns the file it finds at the place of the URL. The place is
made of the URL without its query and empty segments (`storeKey`).
-/

open RustStr Prog Paths List Except

section

variable {U : Type} (lib : FetcherLib U)

/-! ## What a fetch returns -/

def isLatest (u : U) : Bool :=
  decide (lib.scheme u = "registry")
    && match buildFullyResolvedReference lib (lib.urls.toString u) with
      | .ok reference => decide (reference.tag = some "latest")
      | .error _ => false

def latestSuffix (u : U) : String :=
  if isLatest lib u && !endsWith (lib.urls.toString u) ":latest" then ":latest"
  else ""

def filePath (root : String) (u : U) : String := joinPath root (storePath lib u .prefixAndFilename)

variable {lib} {W : Type} {o : Remote W} {u : U}

theorem latestSuffix_of_not_isLatest (h : isLatest lib u = false) : latestSuffix lib u = "" := by
  rw [latestSuffix, h]
  rfl

/-- **How a fetch ends** once the directory of the policy exists: with a stored
file, or with one that is pulled. -/
inductive Concludes (lib : FetcherLib U) (o : Remote W) (path : String) (u : U)
    (policy : FetchedPolicy) (w w' : W) : Prop
  | stored (hlatest : isLatest lib u = false) (hpolicy : policy = ⟨lib.urls.toString u, path⟩)
    (hexists : o.pathExists path w = (true, w'))
  | missing (hlatest : isLatest lib u = false) (w₁ : W) (sources : Sources)
    (hexists : o.pathExists path w = (false, w₁))
    (hpull : pullPolicy lib o u path sources w₁ = (.ok policy, w'))
  | latest (hlatest : isLatest lib u = true) (sources : Sources)
    (hpull : pullPolicy lib o u (path ++ latestSuffix lib u) sources w = (.ok policy, w'))

theorem append_latestSuffix (hlatest : isLatest lib u = true) (path : String) :
    path ++ latestSuffix lib u = if endsWith (lib.urls.toString u) ":latest" then path
      else path ++ ":latest" := by
  rw [latestSuffix, hlatest]
  cases endsWith (lib.urls.toString u) ":latest" with
  | true => exact String.append_empty
  | false => rfl

variable {policy : FetchedPolicy} {w w' : W}

theorem concludes_of_fetchUnlessStored {path : String} {sources : Sources}
    (hlatest : isLatest lib u = false)
    (h : fetchRemote.fetchUnlessStored lib o u path sources w = (.ok policy, w')) :
    Concludes lib o path u policy w w' := by
  obtain ⟨stored, w₁, hstored, h⟩ := bind_eq_ok.1 h
  rw [ask_eq_ok] at hstored
  cases stored with
  | true =>
    obtain ⟨rfl, rfl⟩ := pure_eq_ok.1 h
    exact .stored hlatest rfl hstored
  | false => exact .missing hlatest w₁ sources hstored h

theorem concludes_of_fetchRemote {destination : PullDestination} {sources : Sources}
    (h : fetchRemote lib o u destination sources w = (.ok policy, w')) :
    ∃ target w₁ w₂, pullDestination lib o u destination w = (.ok target, w₁)
      ∧ ensureStore lib o u target.1 w₁ = (.ok (), w₂)
      ∧ Concludes lib o target.2 u policy w₂ w' := by
  obtain ⟨⟨store, path⟩, w₁, htarget, h⟩ := bind_eq_ok.1 h
  obtain ⟨_, w₂, hensure, h⟩ := bind_eq_ok.1 h
  refine ⟨(store, path), w₁, w₂, htarget, hensure, ?_⟩
  by_cases hregistry : lib.scheme u = "registry"
  · rw [if_pos hregistry] at h
    obtain ⟨reference, _, hparse, h⟩ := bind_eq_ok.1 h
    obtain ⟨hreference, rfl⟩ := ofExcept_eq_ok.1 hparse
    have hlatest : isLatest lib u = decide (reference.tag = some "latest") := by
      rw [isLatest, hreference, hregistry]
      rfl
    by_cases htag : reference.tag = some "latest"
    · rw [if_pos htag] at h
      rw [decide_eq_true htag] at hlatest
      refine .latest hlatest sources ?_
      rw [append_latestSuffix hlatest]
      exact h
    · rw [if_neg htag] at h
      exact concludes_of_fetchUnlessStored (hlatest.trans (decide_eq_false htag)) h
  · rw [if_neg hregistry] at h
    refine concludes_of_fetchUnlessStored ?_ h
    rw [isLatest, decide_eq_false hregistry, Bool.false_and]

variable (laws : UrlLaws lib)

include laws

theorem policyFullPath_toString {url root p : String} {policyPath : PolicyPath}
    (hu : parseUrl lib url = .ok u)
    (h : (⟨root⟩ : Store).policyFullPath lib (lib.urls.toString u) policyPath = .ok p) :
    Computes lib u ∧ joinPath root (storePath lib u policyPath) = p := by
  obtain ⟨u', hu', hcomputes, rfl⟩ := (policyFullPath_eq_ok lib).1 h
  obtain ⟨text, htext⟩ := exists_parse_of_parseUrl hu
  obtain rfl := ok.inj ((laws.parse_toString htext).symm.trans hu')
  exact ⟨hcomputes, rfl⟩

theorem fetchPolicy_store_eq_ok {url root : String} {sources : Option Sources}
    (h : fetchPolicy lib o url (.store root) sources w = (.ok policy, w'))
    (hu : parseUrl lib url = .ok u) (hscheme : lib.scheme u ∈ knownRemoteSchemes) :
    Computes lib u ∧ ∃ w₁, o.createDirAll (joinPath root
          (joinPath root (storePath lib u .prefixOnly))) w = (.ok (), w₁)
        ∧ Concludes lib o (filePath lib root u) u policy w₁ w' := by
  obtain ⟨u', _, hu', h⟩ := bind_eq_ok.1 h
  obtain ⟨hparse, rfl⟩ := ofExcept_eq_ok.1 hu'
  obtain rfl := ok.inj (hu.symm.trans hparse)
  have hremote : lib.scheme u ≠ "file" ∧ lib.scheme u ∈ ["registry", "http", "https"] := by
    revert hscheme
    generalize lib.scheme u = scheme
    revert scheme
    decide
  rw [fetchUrl, if_neg hremote.1, if_pos hremote.2] at h
  obtain ⟨target, _, w₁, htarget, hensure, hconcludes⟩ := concludes_of_fetchRemote h
  obtain ⟨path, _, hcomputed, htarget⟩ := bind_eq_ok.1 htarget
  obtain ⟨hfile, rfl⟩ := ofOutcome_eq_ok.1 hcomputed
  obtain ⟨rfl, rfl⟩ := pure_eq_ok.1 htarget
  obtain ⟨hcomputes, hpath⟩ := policyFullPath_toString laws hu hfile
  obtain ⟨directory, _, hcomputed', hensure⟩ := bind_eq_ok.1 hensure
  obtain ⟨hdirectory, rfl⟩ := ofOutcome_eq_ok.1 hcomputed'
  rw [mapError_eq_ok, ← (policyFullPath_toString laws hu hdirectory).2] at hensure
  refine ⟨hcomputes, w₁, hensure, ?_⟩
  show Concludes lib o (joinPath root _) u policy w₁ w'
  rw [hpath]
  exact hconcludes

theorem policy_of_fetchPolicy {url root : String} {sources : Option Sources}
    (h : fetchPolicy lib o url (.store root) sources w = (.ok policy, w'))
    (hu : parseUrl lib url = .ok u) (hscheme : lib.scheme u ∈ knownRemoteSchemes) :
    policy = ⟨lib.urls.toString u, filePath lib root u ++ latestSuffix lib u⟩ := by
  have hget : ∀ text protocol, (o.httpGet text protocol).Keeps (fun _ => ()) := fun _ _ _ => rfl
  have hpulled : ∀ {destination sources w}, pullPolicy lib o u destination
      sources w = (.ok policy, w') →
      policy = ⟨lib.urls.toString u, destination⟩ :=
    fun h => (exists_write_of_pullPolicy hget (fun _ _ _ _ => rfl) h).1
  obtain ⟨-, w₁, -, h⟩ := fetchPolicy_store_eq_ok laws h hu hscheme
  cases h with
  | stored hlatest hpolicy hexists =>
    rwa [latestSuffix_of_not_isLatest hlatest, String.append_empty]
  | missing hlatest w₂ sources' hexists hpull =>
    rw [latestSuffix_of_not_isLatest hlatest, String.append_empty]
    exact hpulled hpull
  | latest hlatest sources' hpull => exact hpulled hpull

/-! ## Keys -/

variable (lib) in
def storeKey (u : U) : List String := (storeParts lib u .prefixAndFilename).filter isComponent

variable (lib) in
def savedKey (u : U) : List String :=
  (lib.scheme u :: hostDirectory lib u :: (policyDirectories lib u
    ++ [policyFileName lib u ++ latestSuffix lib u])).filter isComponent

omit laws in
theorem savedKey_of_not_isLatest (h : isLatest lib u = false) :
    savedKey lib u = storeKey lib u := by
  rw [savedKey, latestSuffix_of_not_isLatest h, String.append_empty]
  rfl

omit laws in
theorem not_contains_latestSuffix (u : U) : contains (latestSuffix lib u) '/' = false := by
  unfold latestSuffix
  split
  · decide
  · decide

theorem samePath_filePath_iff {u₁ u₂ : U} (h₁ : lib.scheme u₁ ∈ knownRemoteSchemes)
    (h₂ : lib.scheme u₂ ∈ knownRemoteSchemes) (root : String) :
    Paths.SamePath (filePath lib root u₁) (filePath lib root u₂)
      ↔ storeKey lib u₁ = storeKey lib u₂ := by
  obtain ⟨habs₁, hcomponents₁⟩ := components_storePath laws h₁ .prefixAndFilename
  obtain ⟨habs₂, hcomponents₂⟩ := components_storePath laws h₂ .prefixAndFilename
  unfold filePath storeKey
  rw [samePath_joinPath_iff habs₁ habs₂, hcomponents₁, hcomponents₂]

theorem filePath_append_latestSuffix (hscheme : lib.scheme u ∈ knownRemoteSchemes) (root : String) :
    ∃ path, filePath lib root u ++ latestSuffix lib u = joinPath root path ∧ isAbsolute path = false
      ∧ components path = savedKey lib u := by
  obtain ⟨habs, hcomponents⟩ := components_storeDirectory laws hscheme
  have hfile : contains (policyFileName lib u) '/' = false := not_contains_policyFileName u
  have hsaved : contains (policyFileName lib u ++ latestSuffix lib u) '/' = false := by
    rw [contains_append, hfile, not_contains_latestSuffix]
    rfl
  have hrelative := isAbsolute_of_not_contains hsaved
  have hjoin : joinPath (storeDirectory lib u) (policyFileName lib u ++ latestSuffix lib u)
      = storePath lib u .prefixAndFilename ++ latestSuffix lib u :=
    joinPath_append (isAbsolute_of_not_contains hfile) hrelative _
  have habsJoin := (isAbsolute_joinPath hrelative).trans habs
  refine ⟨_, ?_, habsJoin, ?_⟩
  · rw [hjoin] at habsJoin ⊢
    exact (joinPath_append (components_storePath laws hscheme .prefixAndFilename).1 habsJoin
      root).symm
  · rw [components_joinPath hrelative, hcomponents,
      components_of_not_contains hsaved, ← filter_append]
    rfl

theorem samePath_saved_iff {u₁ u₂ : U} (h₁ : lib.scheme u₁ ∈ knownRemoteSchemes)
    (h₂ : lib.scheme u₂ ∈ knownRemoteSchemes) (root : String) :
    Paths.SamePath (filePath lib root u₁ ++ latestSuffix lib u₁)
      (filePath lib root u₂ ++ latestSuffix lib u₂)
      ↔ savedKey lib u₁ = savedKey lib u₂ := by
  obtain ⟨path₁, heq₁, habs₁, hkey₁⟩ := filePath_append_latestSuffix laws h₁ root
  obtain ⟨path₂, heq₂, habs₂, hkey₂⟩ := filePath_append_latestSuffix laws h₂ root
  rw [heq₁, heq₂, samePath_joinPath_iff habs₁ habs₂, hkey₁, hkey₂]

omit laws in
theorem filter_ne_of_latest {name : String} : [name].filter isComponent
    ≠ [name ++ ":latest"].filter isComponent := by
  have hlength : (name ++ ":latest").toList.length = name.toList.length + 7 := by
    rw [String.toList_append, length_append]
    rfl
  have hcomponent : isComponent (name ++ ":latest") = true := by
    simp only [isComponent, Bool.and_eq_true, bne_iff_ne]
    constructor
    · intro h
      rw [h] at hlength
      simp at hlength
    · intro h
      rw [h] at hlength
      have hdot : ".".toList.length = 1 := rfl
      omega
  intro h
  have hmem : name ++ ":latest" ∈ [name].filter isComponent := by
    rw [h]
    exact mem_filter.2 ⟨mem_singleton_self _, hcomponent⟩
  have heq := mem_singleton.1 (mem_of_mem_filter hmem)
  rw [heq] at hlength
  omega

theorem samePath_saved_self_iff (h : lib.scheme u ∈ knownRemoteSchemes) (root : String) :
    Paths.SamePath (filePath lib root u) (filePath lib root u ++ latestSuffix lib u)
      ↔ latestSuffix lib u = "" := by
  obtain ⟨habs, hcomponents⟩ := components_storePath laws h .prefixAndFilename
  obtain ⟨path, heq, habs', hkey⟩ := filePath_append_latestSuffix laws h root
  rw [heq]
  unfold filePath
  rw [samePath_joinPath_iff habs habs', hcomponents, hkey]
  refine ⟨fun hkeys => ?_, fun hempty => ?_⟩
  · have hfiles : [policyFileName lib u].filter isComponent
        = [policyFileName lib u ++ latestSuffix lib u].filter isComponent := by
      have happend : (lib.scheme u :: hostDirectory lib u
            :: policyDirectories lib u).filter isComponent
          ++ [policyFileName lib u].filter isComponent
          = (lib.scheme u :: hostDirectory lib u :: policyDirectories lib u).filter isComponent
          ++ [policyFileName lib u ++ latestSuffix lib u].filter isComponent := by
        rw [← filter_append, ← filter_append]
        exact hkeys
      exact append_cancel_left happend
    by_contra hne
    have hlatest : latestSuffix lib u = ":latest" := by
      unfold latestSuffix at hne ⊢
      split at hne
      · next h => rw [if_pos h]
      · exact absurd rfl hne
    exact filter_ne_of_latest (hlatest ▸ hfiles)
  · rw [savedKey, hempty, String.append_empty]
    rfl

/-! ## Separation -/

variable (lib) in
def UrlsDiffer (query : U → Option String) (u₁ u₂ : U) : Prop :=
  lib.scheme u₁ ≠ lib.scheme u₂ ∨ lib.urls.hostStr u₁ ≠ lib.urls.hostStr u₂
    ∨ lib.port u₁ ≠ lib.port u₂ ∨ lib.urls.path u₁ ≠ lib.urls.path u₂
    ∨ query u₁ ≠ query u₂

variable (lib) in
/-- **Two URLs are separated**: they have different places, and in no world a
fetch of the second one returns the stored file of the first one. -/
def Separated (url₁ url₂ : String) (u₁ u₂ : U) : Prop :=
  (∀ checks (store : Store) text₁ text₂ p₁ p₂,
    lib.urls.parse text₁ = .ok u₁ → lib.urls.parse text₂ = .ok u₂ →
    store.policyFullPath (lib.builtWith checks) text₁ .prefixAndFilename = .ok p₁ →
    store.policyFullPath (lib.builtWith checks) text₂ .prefixAndFilename
      = .ok p₂ → ¬ Paths.SamePath p₁ p₂)
    ∧ ∀ (W : Type) (o : Remote W) root sources₁ sources₂ w₁ w₁' w₂ w₂' q₁ q₂,
      fetchPolicy lib o url₁ (.store root) sources₁ w₁ = (.ok q₁, w₁') →
      fetchPolicy lib o url₂ (.store root) sources₂ w₂ = (.ok q₂, w₂') →
      isLatest lib u₂ = false → ¬ Paths.SamePath q₁.localPath q₂.localPath

end

/-! ## Concrete URLs -/

def queryOfText (url : String) : Option String := (splitOnce url '?').map Prod.snd
