import AdmController.Paths
import AdmController.Store

/-!
# Where policies are stored

`Store::policy_full_path` makes a path of the scheme, the host, and the segments
but the first and the last one (`components_storePath`).
-/

open RustStr Paths Outcome Store FetcherLib

section

variable {U : Type} (lib : FetcherLib U)

def FetcherLib.builtWith (checks : Bool) : FetcherLib U := { lib with overflowChecks := checks }

/-- **What URL libraries promise** about texts and hosts. -/
structure UrlLaws : Prop where
  parse_toString : ∀ {text u}, lib.urls.parse text = .ok u →
    lib.urls.parse (lib.urls.toString u) = .ok u
  host : ∀ {u host}, lib.urls.hostStr u = some host → contains host '/' = false

/-! ## The parts of a path in the store -/

def policyDirectories (u : U) : List String := (split (lib.urls.path u) '/').tail.dropLast

def storeParts (u : U) : PolicyPath → List String
  | .prefixOnly => lib.scheme u :: hostDirectory lib u :: policyDirectories lib u
  | .prefixAndFilename =>
    lib.scheme u :: hostDirectory lib u :: (policyDirectories lib u ++ [policyFileName lib u])

def storeDirectory (u : U) : String :=
  joinPath (joinPath (lib.scheme u) (hostDirectory lib u))
    ((policyDirectories lib u).foldl joinPath "")

def storePath (u : U) : PolicyPath → String
  | .prefixOnly => storeDirectory lib u
  | .prefixAndFilename => joinPath (storeDirectory lib u) (policyFileName lib u)

/-- The subtraction does not go below zero, or is not checked. -/
def Computes (u : U) : Prop := contains (lib.urls.path u) '/' = true ∨ lib.overflowChecks = false

variable {u : U}

theorem split_path_of_not_contains (h : ¬ contains (lib.urls.path u) '/' = true) :
    split (lib.urls.path u) '/' = [lib.urls.path u] :=
  split_of_not_contains (Bool.eq_false_iff.2 h)

theorem policyPrefix_of_computes (h : Computes lib u) :
    policyPrefix lib u = .ok (storeDirectory lib u) := by
  unfold policyPrefix storeDirectory policyDirectories
  by_cases hslash : contains (lib.urls.path u) '/' = true
  · have htwo := two_le_length_split hslash
    rw [List.dropLast_eq_take, List.length_tail, Nat.sub_sub]
    simp only [usizeSub, if_pos htwo, List.drop_one]
    rfl
  · -- the count wraps, but there is nothing to take
    have hchecks := h.resolve_left hslash
    simp only [split_path_of_not_contains lib hslash, hchecks]
    rfl

theorem policyPrefix_of_not_computes (h : ¬ Computes lib u) : policyPrefix lib u = .panic := by
  obtain ⟨hslash, hchecks⟩ := not_or.1 h
  rw [Bool.not_eq_false] at hchecks
  unfold policyPrefix
  simp only [split_path_of_not_contains lib hslash, hchecks]
  rfl

theorem policyPrefix_eq_ok {p : String} : policyPrefix lib u = .ok p
    ↔ Computes lib u ∧ storeDirectory lib u = p := by
  by_cases h : Computes lib u
  · rw [policyPrefix_of_computes lib h, ok.injEq, and_iff_right h]
  · rw [policyPrefix_of_not_computes lib h]
    exact iff_of_false (by rintro ⟨⟩) (fun hp => h hp.1)

variable {policyPath : PolicyPath}

theorem policyFullPath_eq_ok {store : Store} {text p : String} :
    store.policyFullPath lib text policyPath = .ok p
      ↔ ∃ u, lib.urls.parse text = .ok u ∧ Computes lib u
        ∧ joinPath store.root (storePath lib u policyPath) = p := by
  have hpure : ∀ a b : String, (pure a : Outcome String String) = .ok b ↔ a = b := by
    intro a b
    show ok a = .ok b ↔ _
    rw [ok.injEq]
  simp only [Store.policyFullPath, Store.policyPath, bind_eq_ok,
    ofExcept_eq_ok, policyPrefix_eq_ok, hpure]
  constructor
  · rintro ⟨_, ⟨u, hu, _, ⟨h, rfl⟩, rfl⟩, rfl⟩
    refine ⟨u, hu, h, ?_⟩
    cases policyPath with
    | prefixOnly => rfl
    | prefixAndFilename => rfl
  · rintro ⟨u, hu, h, rfl⟩
    refine ⟨_, ⟨u, hu, _, ⟨h, rfl⟩, rfl⟩, ?_⟩
    cases policyPath with
    | prefixOnly => rfl
    | prefixAndFilename => rfl

theorem policyFullPath_eq_panic_iff {store : Store} {text : String} :
    store.policyFullPath lib text policyPath = .panic
      ↔ ∃ u, lib.urls.parse text = .ok u ∧ ¬ Computes lib u := by
  rw [policyFullPath_eq_panic]
  refine exists_congr (fun u => and_congr_right (fun _ => ?_))
  constructor
  · intro h hcomputes
    rw [policyPrefix_of_computes lib hcomputes] at h
    cases h
  · exact policyPrefix_of_not_computes lib

/-! ## Underflow -/

/-- **Computing the place of a policy never panics**, in no build. -/
def NeverPanics (url : String) : Prop :=
  ∀ checks u, parseUrl lib url = .ok u → policyPrefix (lib.builtWith checks) u ≠ .panic
    ∧ ∀ (store : Store) text policyPath, lib.urls.parse text = .ok u →
      store.policyFullPath (lib.builtWith checks) text policyPath ≠ .panic

/-- **No underflow** exactly when the path has a slash. -/
theorem neverPanics_iff (url : String) : NeverPanics lib url ↔ ∀ u, parseUrl lib url = .ok u →
        contains (lib.urls.path u) '/' = true := by
  constructor
  · intro h u hu
    by_contra hslash
    -- the checked build panics
    refine (h true u hu).1 (policyPrefix_of_not_computes _ ?_)
    exact not_or.2 ⟨hslash, by simp [builtWith]⟩
  · intro h checks u hu
    have hcomputes : Computes (lib.builtWith checks) u := .inl (h u hu)
    refine ⟨?_, fun store text policyPath htext hpanic => ?_⟩
    · rw [policyPrefix_of_computes _ hcomputes]
      rintro ⟨⟩
    · obtain ⟨u', hu', hnot⟩ := (policyFullPath_eq_panic_iff _).1 hpanic
      obtain rfl := Except.ok.inj (htext.symm.trans hu')
      exact hnot hcomputes

/-- **A registry without image**: the path of `registry://ghcr.io` is empty. -/
theorem registry_without_image_panics :
    parseUrl .text "registry://ghcr.io" = .ok "registry://ghcr.io"
      ∧ (⟨"/store"⟩ : Store).policyFullPath .text "registry://ghcr.io" .prefixAndFilename = .panic
      ∧ ¬ NeverPanics .text "registry://ghcr.io" := by
  have hparse : parseUrl .text "registry://ghcr.io" = .ok "registry://ghcr.io" := by decide +kernel
  have hslash : ¬ contains (text.urls.path "registry://ghcr.io") '/' = true := by decide +kernel
  have hpanic : (⟨"/store"⟩ : Store).policyFullPath .text
      "registry://ghcr.io" .prefixAndFilename = .panic :=
    (policyFullPath_eq_panic_iff _).2 ⟨_, rfl, not_or.2 ⟨hslash, by decide⟩⟩
  exact ⟨hparse, hpanic, fun h => (h true _ hparse).2 _ _ _ rfl hpanic⟩

variable {lib}

/-! ## Components -/

theorem not_contains_toString (n : ℕ) : contains (toString n) '/' = false := by
  simp only [contains, decide_eq_false_iff_not]
  intro h
  have hdigit : ('/' : Char).isDigit = true :=
    Nat.isDigit_of_mem_toDigits (b := 10) (by decide) (by decide) (Nat.toList_repr ▸ h)
  exact absurd hdigit (by decide)

theorem UrlLaws.not_contains_hostDirectory (laws : UrlLaws lib) (u : U) :
    contains (hostDirectory lib u) '/' = false := by
  unfold hostDirectory
  cases hhost : lib.urls.hostStr u with
  | none => rfl
  | some host =>
    cases lib.port u with
    | none => exact laws.host hhost
    | some port =>
      rw [contains_append, contains_append, laws.host hhost, not_contains_toString]
      rfl

variable {s : String}

theorem not_contains_of_mem_policyDirectories
    (h : s ∈ policyDirectories lib u) : contains s '/' = false :=
  not_contains_of_mem_split (List.mem_of_mem_tail (List.dropLast_subset _ h))

theorem policyFileName_mem (u : U) : policyFileName lib u ∈ split (lib.urls.path u) '/' := by
  have hne := split_ne_nil (lib.urls.path u) '/'
  rw [policyFileName, List.getLastD_eq_getLast?, List.getLast?_eq_some_getLast hne]
  exact List.getLast_mem hne

theorem not_contains_policyFileName (u : U) : contains (policyFileName lib u) '/' = false :=
  not_contains_of_mem_split (policyFileName_mem u)

theorem scheme_of_mem_knownRemoteSchemes (h : s ∈ knownRemoteSchemes) :
    contains s '/' = false ∧ isComponent s = true ∧ s ≠ ".." := by
  revert s
  decide

section

variable (laws : UrlLaws lib) {u : U} (hscheme : lib.scheme u ∈ knownRemoteSchemes)

include laws hscheme

theorem components_storeDirectory : isAbsolute (storeDirectory lib u) = false
    ∧ components (storeDirectory lib u) = (storeParts lib u .prefixOnly).filter isComponent := by
  have hs := (scheme_of_mem_knownRemoteSchemes hscheme).1
  have hhost := laws.not_contains_hostDirectory u
  have hdirs : isAbsolute ((policyDirectories lib u).foldl joinPath "") = false :=
    isAbsolute_foldl_joinPath (fun s => not_contains_of_mem_policyDirectories) ""
  have hhostRelative := isAbsolute_of_not_contains hhost
  unfold storeDirectory storeParts
  constructor
  · rw [isAbsolute_joinPath hdirs, isAbsolute_joinPath hhostRelative, isAbsolute_of_not_contains hs]
  · rw [components_joinPath hdirs, components_joinPath hhostRelative, components_of_not_contains hs,
      components_of_not_contains hhost,
      components_foldl_joinPath (fun s => not_contains_of_mem_policyDirectories),
      components_empty, List.nil_append, ← List.filter_append,
      ← List.filter_append]
    rfl

theorem components_storePath (policyPath : PolicyPath) :
    isAbsolute (storePath lib u policyPath) = false ∧ components (storePath lib u policyPath)
      = (storeParts lib u policyPath).filter isComponent := by
  obtain ⟨habs, hcomponents⟩ := components_storeDirectory laws hscheme
  cases policyPath with
  | prefixOnly => exact ⟨habs, hcomponents⟩
  | prefixAndFilename =>
    have hfile : contains (policyFileName lib u) '/' = false := not_contains_policyFileName u
    have hrelative := isAbsolute_of_not_contains hfile
    constructor
    · exact (isAbsolute_joinPath hrelative).trans habs
    · show components (joinPath _ _) = _
      rw [components_joinPath hrelative, hcomponents,
        components_of_not_contains hfile, ← List.filter_append]
      rfl

end

/-! ## Staying in the store -/

variable (lib) in
/-- **A policy stays in its store**: its directory and file are below. -/
def StaysInStore (url : String) : Prop :=
  ∀ u, parseUrl lib url = .ok u → lib.scheme u ∈ knownRemoteSchemes →
    ∀ checks (store : Store) text policyPath path, lib.urls.parse text = .ok u →
      store.policyFullPath (lib.builtWith checks) text policyPath = .ok path →
      Paths.StrictlyBelow store.root path

variable (lib) in
/-- The parts of a URL lead downwards: the walk never leaves the place where it
began, and does not end there. -/
def LeadsDownwards (u : U) : Prop :=
  ∀ policyPath, ∃ location, descend ((storeParts lib u policyPath).filter isComponent)
        = some location
      ∧ location ≠ []

theorem exists_parse_of_parseUrl {url : String} (h : parseUrl lib url = .ok u) :
    ∃ text, lib.urls.parse text = .ok u := by
  have hwith : ∀ again : String → Except String U,
      (∀ text, again text = .ok u → ∃ text, lib.urls.parse text = .ok u) →
      ∀ text, parseUrlWith lib again text = .ok u → ∃ text, lib.urls.parse text = .ok u := by
    intro again hagain text h
    unfold parseUrlWith at h
    split at h
    · next u' hu' =>
      split at h
      · exact hagain _ h
      · exact ⟨text, hu'.trans h⟩
    · split at h
      · exact ⟨_, h⟩
      · cases h
  exact hwith _ (hwith _ (fun _ h => by cases h)) url h

theorem mem_split_of_mem_storeParts (h : s ∈ storeParts lib u policyPath) :
    s = lib.scheme u ∨ s = hostDirectory lib u ∨ s ∈ split (lib.urls.path u) '/' := by
  have hdirectories : ∀ s ∈ policyDirectories lib u, s ∈ split (lib.urls.path u) '/' :=
    fun s hs => List.mem_of_mem_tail (List.dropLast_subset _ hs)
  cases policyPath with
  | prefixOnly =>
    rcases List.mem_cons.1 h with h | h
    · exact .inl h
    · exact .inr ((List.mem_cons.1 h).imp_right (hdirectories s))
  | prefixAndFilename =>
    rcases List.mem_cons.1 h with h | h
    · exact .inl h
    · refine .inr ((List.mem_cons.1 h).imp_right (fun h => ?_))
      rcases List.mem_append.1 h with h | h
      · exact hdirectories s h
      · rw [List.mem_singleton.1 h]
        exact policyFileName_mem u

/-- **A policy stays in its store** exactly when the parts of its URL lead
downwards, as they do without `..`. -/
theorem staysInStore_iff (laws : UrlLaws lib) (url : String) : (StaysInStore lib url
      ↔ ∀ u, parseUrl lib url = .ok u → lib.scheme u ∈ knownRemoteSchemes → LeadsDownwards lib u)
    ∧ ∀ u, lib.scheme u ∈ knownRemoteSchemes → hostDirectory lib u ≠ ".." →
      ".." ∉ split (lib.urls.path u) '/' → LeadsDownwards lib u := by
  refine ⟨⟨?_, ?_⟩, ?_⟩
  · intro h u hu hscheme policyPath
    obtain ⟨text, htext⟩ := exists_parse_of_parseUrl hu
    obtain ⟨habs, hcomponents⟩ := components_storePath laws hscheme policyPath
    -- the build without checks computes a path for every URL
    have hpath : (⟨""⟩ : Store).policyFullPath (lib.builtWith false) text
        policyPath = .ok (joinPath "" (storePath lib u policyPath)) :=
      (policyFullPath_eq_ok _).2 ⟨u, htext, .inr rfl, rfl⟩
    have hbelow := h u hu hscheme false _ _ _ _ htext hpath
    rwa [strictlyBelow_joinPath_iff habs, hcomponents] at hbelow
  · intro h u hu hscheme checks store text policyPath path htext hpath
    obtain ⟨u', hu', -, rfl⟩ := (policyFullPath_eq_ok _).1 hpath
    obtain rfl := Except.ok.inj (htext.symm.trans hu')
    obtain ⟨habs, hcomponents⟩ := components_storePath laws hscheme policyPath
    refine (strictlyBelow_joinPath_iff habs).2 ?_
    rw [hcomponents]
    exact h u hu hscheme policyPath
  · intro u hscheme hhost hpath policyPath
    obtain ⟨-, hcomponent, hdots⟩ := scheme_of_mem_knownRemoteSchemes hscheme
    refine ⟨_, descend_of_not_mem (fun h => ?_), ?_⟩
    · rcases mem_split_of_mem_storeParts (List.mem_of_mem_filter h) with h | h | h
      · exact hdots h.symm
      · exact hhost h.symm
      · exact hpath h
    · refine List.ne_nil_of_mem (List.mem_filter.2 ⟨?_, hcomponent⟩)
      cases policyPath with
      | prefixOnly => exact List.mem_cons_self
      | prefixAndFilename => exact List.mem_cons_self

theorem FetcherLib.text_laws : UrlLaws text where
  parse_toString := fun _ => rfl
  host := by
    intro u host h
    rw [text] at h
    unfold hostAndPathOfText at h
    simp only at h
    split at h
    · cases h
    · obtain rfl := Option.some.inj h
      simp only [contains, String.toList_ofList, decide_eq_false_iff_not]
      intro hmem
      simpa using List.mem_takeWhile_imp hmem

theorem staysInStore_plain_url : StaysInStore .text "https://ghcr.io/a/p.wasm" := by
  have h := staysInStore_iff text_laws "https://ghcr.io/a/p.wasm"
  refine h.1.2 (fun u hu hscheme => h.2 u hscheme ?_ ?_)
  all_goals
    have hparse : parseUrl .text "https://ghcr.io/a/p.wasm" = .ok "https://ghcr.io/a/p.wasm" := by
      decide +kernel
    obtain rfl := Except.ok.inj (hu.symm.trans hparse)
    decide +kernel

/-- **A URL without host leads out of the store**, with its dots. -/
theorem url_without_host_leaves_store : parseUrl .text "registry:a/../../../etc/x"
        = .ok "registry:a/../../../etc/x"
      ∧ (⟨"/store"⟩ : Store).policyFullPath .text "registry:a/../../../etc/x"
          .prefixAndFilename = .ok "/store/registry/../../../etc/x"
      ∧ ¬ StaysInStore .text "registry:a/../../../etc/x" := by
  have hparse : parseUrl .text "registry:a/../../../etc/x" = .ok "registry:a/../../../etc/x" := by
    decide +kernel
  have hpath : (⟨"/store"⟩ : Store).policyFullPath .text
      "registry:a/../../../etc/x" .prefixAndFilename = .ok "/store/registry/../../../etc/x" :=
    (policyFullPath_eq_ok _).2 ⟨_, rfl, .inl (by decide +kernel), by decide +kernel⟩
  refine ⟨hparse, hpath, fun h => ?_⟩
  obtain ⟨-, rel, location, hrel, hdescend, -⟩ :=
    h _ hparse (by decide +kernel) true _ _ _ _ rfl hpath
  have hcomponents : components "/store/registry/../../../etc/x" = components "/store"
        ++ ["registry", "..", "..", "..", "etc", "x"] := by
    decide +kernel
  obtain rfl := List.append_cancel_left (hcomponents.symm.trans hrel)
  have hnone : descend ["registry", "..", "..", "..", "etc", "x"] = none := by decide
  cases hnone.symm.trans hdescend

end
