import AdmController.StoreListing

/-!
# From a fetch to the store and back

A policy that `fetch_policy` has returned should be found again, by its URI and
in the listing (`FoundAgain`). The latest image of a registry is stored with
the tag `:latest`, which the URI leaves out.
-/

open RustStr Prog Paths Disk FetcherLib

section

variable {U N : Type} {lib : FetcherLib U} {network : Network N}

/-- **A policy is found again** by its URI, and in the listing. -/
def FoundAgain (lib : FetcherLib U) (network : Network N) (root : String)
    (policy : FetchedPolicy) (w : Disk × N) : Prop :=
  (∃ q w', (⟨root⟩ : Store).getPolicyByUri lib (diskWorld network).toRemote
        policy.uri w = (.ok (some q), w')
      ∧ Paths.SamePath q.localPath policy.localPath)
    ∧ ∃ policies w', (⟨root⟩ : Store).list (diskWorld network) w = (.ok policies, w')
      ∧ ∃ q ∈ policies, q.uri = policy.uri ∧ Paths.SamePath q.localPath policy.localPath

/-- **The listing reads a URL back**: as a file below a host, without `..`,
whose URI is the text of the URL. -/
def ReadsBack (lib : FetcherLib U) (u : U) : Prop :=
  ".." ∉ storeKey lib u ∧ ∃ scheme host rest, storeKey lib u = scheme :: host :: rest
    ∧ lib.urls.toString u = listedUri scheme host rest

def createdDirectory (lib : FetcherLib U) (root : String) (u : U) : String :=
  joinPath root (joinPath root (storePath lib u .prefixOnly))

/-- The disk a policy is stored on: no directory is in its place, and only
directories in those of the schemes. -/
def LeavesRoom (lib : FetcherLib U) (root : String) (u : U) (d : Disk) : Prop :=
  d.find (filePath lib root u) ≠ some .directory
    ∧ ∀ s ∈ knownRemoteSchemes, d.find (joinPath root s) = none
      ∨ d.find (joinPath root s) = some .directory

instance (root : String) (u : U) (d : Disk) : Decidable (LeavesRoom lib root u d) :=
  inferInstanceAs (Decidable (_ ∧ _))

variable (laws : UrlLaws lib) {url root : String} {u : U}
  (hu : parseUrl lib url = .ok u) (hscheme : lib.scheme u ∈ knownRemoteSchemes)

include laws hu hscheme

variable {d : Disk}

/-! ## What a fetch leaves on the disk -/

theorem fetchPolicy_diskWorld {sources : Option Sources}
    {policy : FetchedPolicy} {n : N} {w' : Disk × N}
    (h : fetchPolicy lib (diskWorld network).toRemote url (.store root) sources
      (d, n) = (.ok policy, w')) :
    Computes lib u ∧ policy = ⟨lib.urls.toString u, filePath lib root u ++ latestSuffix lib u⟩
      ∧ ∃ e, d.createDirAll (createdDirectory lib root u) = .ok e
        ∧ e.Obtained (filePath lib root u ++ latestSuffix lib u) w'.1 := by
  have hpolicy := policy_of_fetchPolicy laws h hu hscheme
  obtain ⟨hcomputes, w₁, hcreate, hconcludes⟩ := fetchPolicy_store_eq_ok laws h hu hscheme
  obtain ⟨e, he, rfl⟩ := diskWorld_createDirAll_eq_ok.1 hcreate
  refine ⟨hcomputes, hpolicy, e, he, ?_⟩
  have hpulled : ∀ {destination sources w}, w.1 = e →
      pullPolicy lib (diskWorld network).toRemote u destination sources w
        = (.ok policy, w') → e.Obtained destination w'.1 := by
    intro destination sources w hw hpull
    obtain ⟨-, bytes, w₂, hview, hwrite⟩ := exists_write_of_pullPolicy
      (fun url protocol => keeps_contact (network.httpGet url protocol))
      (fun reference types protocol =>
        keeps_contact (network.pull reference types protocol)) hpull
    obtain ⟨d', hd', rfl⟩ := diskWorld_writeFile_eq_ok.1 hwrite
    rw [hview, hw] at hd'
    exact obtained_of_write hd'
  cases hconcludes with
  | stored hlatest hpolicy hexists =>
    rw [latestSuffix_of_not_isLatest hlatest, String.append_empty]
    obtain ⟨hfind, rfl⟩ := Prod.mk.inj hexists
    exact obtained_of_find hfind
  | missing hlatest w₂ sources hexists hpull =>
    rw [latestSuffix_of_not_isLatest hlatest, String.append_empty]
    obtain ⟨-, rfl⟩ := Prod.mk.inj hexists
    exact hpulled rfl hpull
  | latest hlatest sources hpull => exact hpulled rfl hpull

/-! ## Asking for the URI -/

theorem getPolicyByUri_diskWorld (hcomputes : Computes lib u) (w : Disk × N) :
    (⟨root⟩ : Store).getPolicyByUri lib (diskWorld network).toRemote (lib.urls.toString u) w
      = (.ok (if (w.1.find (filePath lib root u)).isSome then
          some ⟨lib.urls.toString u, filePath lib root u⟩ else none), w) := by
  obtain ⟨text, htext⟩ := exists_parse_of_parseUrl hu
  have hparse := laws.parse_toString htext
  have hpath : (⟨root⟩ : Store).policyFullPath lib (lib.urls.toString u)
      .prefixAndFilename = .ok (filePath lib root u) := by
    rw [policyFullPath_eq_ok]
    exact ⟨u, hparse, hcomputes, by rw [filePath]⟩
  refine bind_eq_ok.2 ⟨u, w, ofExcept_eq_ok.2 ⟨hparse, rfl⟩, ?_⟩
  rw [if_neg (not_not.2 hscheme)]
  refine bind_eq_ok.2 ⟨filePath lib root u, w, ofOutcome_eq_ok.2 ⟨hpath, rfl⟩, ?_⟩
  exact bind_eq_ok.2 ⟨(w.1.find (filePath lib root u)).isSome, w, ask_eq_ok.2 rfl, rfl⟩

theorem exists_getPolicyByUri_iff (hcomputes : Computes lib u) {e : Disk} {w : Disk × N}
    (h : e.Obtained (filePath lib root u ++ latestSuffix lib u) w.1) :
    (∃ q w', (⟨root⟩ : Store).getPolicyByUri lib (diskWorld network).toRemote
          (lib.urls.toString u) w = (.ok (some q), w')
        ∧ Paths.SamePath q.localPath (filePath lib root u ++ latestSuffix lib u))
      ↔ latestSuffix lib u = "" := by
  rw [getPolicyByUri_diskWorld laws hu hscheme hcomputes w]
  constructor
  · rintro ⟨q, w', hq, hsame⟩
    obtain ⟨hq, -⟩ := Prod.mk.inj hq
    split at hq
    · obtain rfl := Option.some.inj (Outcome.ok.inj hq)
      dsimp only at hsame
      exact (samePath_saved_self_iff laws hscheme root).1 hsame
    · cases hq
  · intro hempty
    rw [hempty, String.append_empty] at h ⊢
    obtain ⟨location, node, hlocation, hnode, -⟩ := h.there
    have hfind : w.1.find (filePath lib root u) = some node := by
      rw [find, h.locate_eq, hlocation, Option.bind_some, hnode]
    rw [hfind]
    refine ⟨⟨lib.urls.toString u, filePath lib root u⟩, w, rfl, ?_⟩
    dsimp only
    exact Paths.SamePath.refl _

/-! ## Listing the store -/

omit laws hu hscheme in
theorem isName_of_mem_knownRemoteSchemes {s : String}
    (h : s ∈ knownRemoteSchemes) : Paths.IsName s := by
  obtain ⟨hslash, hcomponent, hdots⟩ := scheme_of_mem_knownRemoteSchemes h
  exact ⟨hcomponent, hdots, hslash⟩

omit hu in
theorem eq_append_storeKey {location location' : List String}
    (hroot : d.locate root = some location)
    (h : d.locate (filePath lib root u) = some location')
    (hdots : ".." ∉ storeKey lib u) :
    location' = location ++ storeKey lib u := by
  obtain ⟨habs, hcomponents⟩ := components_storePath laws hscheme .prefixAndFilename
  rw [filePath, locate_joinPath (ne_empty_of_locate hroot) habs, hroot, Option.bind_some] at h
  have hkey : storeKey lib u = components (storePath lib u .prefixAndFilename) := hcomponents.symm
  rw [hkey] at hdots ⊢
  refine resolve_of_not_mem (fun hmem => ?_) h
  exact hdots (List.mem_filter.2 ⟨hmem, by decide⟩)

omit laws hu hscheme in
theorem components_listed (root : String)
    {location : List String} {s host : String} {rest : List String} {node : DiskNode}
    (hnode : d.nodeAt (location ++ s :: host :: rest) = some node) :
    let path := rest.foldl joinPath (joinPath (joinPath root s) host)
    isAbsolute path = isAbsolute root ∧ components path = components root ++ s :: host :: rest
      ∧ ".." ∉ s :: host :: rest := by
  have hnames : ∀ t ∈ s :: host :: rest, Paths.IsName t :=
    fun t ht => d.names _ ((exists_nodeAt_iff (by simp)).1 ⟨node, hnode⟩)
      t (List.mem_append_right _ ht)
  have hslash := fun t ht => (hnames t ht).2.2
  refine ⟨isAbsolute_foldl_joinPath hslash root, ?_, fun hmem => (hnames _ hmem).2.1 rfl⟩
  have hfilter : (s :: host :: rest).filter isComponent = s :: host :: rest :=
    List.filter_eq_self.2 (fun t ht => (hnames t ht).1)
  rw [← hfilter]
  exact components_foldl_joinPath hslash root

omit hu in
theorem components_filePath (root : String) : isAbsolute (filePath lib root u) = isAbsolute root
    ∧ components (filePath lib root u) = components root ++ storeKey lib u := by
  obtain ⟨habs, hcomponents⟩ := components_storePath laws hscheme .prefixAndFilename
  exact ⟨isAbsolute_joinPath habs, (components_joinPath habs).trans (congrArg _ hcomponents)⟩

omit laws hu hscheme in
theorem leavesRoom_iff {d e : Disk} {location rest : List String} {s host : String}
    (h : e.Obtained (filePath lib root u) d) (hlocation : e.locate root = some location)
    (hroot : d.nodeAt location = some .directory)
    (hplace : e.locate (filePath lib root u) = some (location ++ s :: host :: rest)) :
    LeavesRoom lib root u e ↔ (∃ contents, d.nodeAt (location ++ s :: host :: rest)
          = some (.file contents))
        ∧ ∀ t ∈ knownRemoteSchemes, t ∈ d.children location →
          d.nodeAt (location ++ [t]) = some .directory := by
  refine and_congr (h.exists_file_iff hplace).symm (forall₂_congr (fun t hknown => ?_))
  have helsewhere : d.nodeAt (location ++ [t]) = e.nodeAt (location ++ [t]) :=
    h.nodeAt_eq hplace (by simp)
  rw [find_joinPath hlocation ((h.directories _).1 hroot)
    (isName_of_mem_knownRemoteSchemes hknown), ← helsewhere, mem_children,
    ← exists_nodeAt_iff (by simp)]
  cases d.nodeAt (location ++ [t]) with
  | none => simp
  | some node => simp

omit hu in
theorem exists_list_iff {e : Disk} {w : Disk × N} (h : e.Obtained (filePath lib root u) w.1) :
    (∃ policies w', (⟨root⟩ : Store).list (diskWorld network) w = (.ok policies, w')
      ∧ ∃ q ∈ policies, q.uri = lib.urls.toString u
        ∧ Paths.SamePath q.localPath (filePath lib root u))
      ↔ root ≠ "" ∧ ReadsBack lib u ∧ LeavesRoom lib root u e := by
  obtain ⟨d, n⟩ := w
  obtain ⟨place, node, hplace, hnode, -⟩ := h.there
  obtain ⟨habs, hcomponents⟩ := components_filePath laws hscheme root
  constructor
  · rintro ⟨policies, w', hlist, q, hq, huri, hsame⟩
    rcases list_eq_ok hlist with rfl | ⟨location, hlocation, hroot, hschemes⟩
    · cases hq
    rw [list_diskWorld hlocation hroot hschemes] at hlist
    obtain rfl := Outcome.ok.inj (Prod.mk.inj hlist).1
    obtain ⟨s, hknown, host, rest, contents, hfile, rfl⟩ := mem_flatMap_policiesOfScheme.1 hq
    obtain ⟨-, hlisted, hdots⟩ := components_listed root hfile
    have hkey : storeKey lib u = s :: host :: rest := by
      have heq := hsame.2
      rw [hlisted, hcomponents] at heq
      exact (List.append_cancel_left heq).symm
    rw [← hkey] at hdots
    have hlocation' : e.locate root = some location := (h.locate_eq root).symm.trans hlocation
    obtain rfl := eq_append_storeKey laws hscheme hlocation' hplace hdots
    rw [hkey] at hplace
    exact ⟨ne_empty_of_locate hlocation, ⟨hdots, s, host, rest, hkey, huri.symm⟩,
      (leavesRoom_iff h hlocation' hroot hplace).2 ⟨⟨contents, hfile⟩, hschemes⟩⟩
  · rintro ⟨hne, ⟨hdots, s, host, rest, hkey, huri⟩, hroom⟩
    obtain ⟨location, hlocation⟩ : ∃ location, e.locate root = some location := by
      have hjoin := hplace
      rw [filePath, locate_joinPath hne
        (components_storePath laws hscheme .prefixAndFilename).1] at hjoin
      obtain ⟨location, hlocation, -⟩ := Option.bind_eq_some_iff.1 hjoin
      exact ⟨location, hlocation⟩
    obtain rfl := eq_append_storeKey laws hscheme hlocation hplace hdots
    rw [hkey] at hplace hnode
    have hroot : d.nodeAt location = some .directory := nodeAt_eq_directory hnode (by simp)
    obtain ⟨⟨contents, hfile⟩, hdirectories⟩ := (leavesRoom_iff h hlocation hroot hplace).1 hroom
    have hknown : s ∈ knownRemoteSchemes := by
      rw [storeKey, storeParts, List.filter_cons_of_pos
        (scheme_of_mem_knownRemoteSchemes hscheme).2.1, List.cons.injEq] at hkey
      exact hkey.1 ▸ hscheme
    refine ⟨_, _, list_diskWorld ((h.locate_eq root).trans hlocation) hroot
      hdirectories, _, mem_flatMap_policiesOfScheme.2
        ⟨s, hknown, host, rest, contents, hfile, rfl⟩, huri.symm, ?_⟩
    obtain ⟨habs', hlisted, -⟩ := components_listed root hfile
    exact ⟨habs'.trans habs.symm, by rw [hlisted, hcomponents, hkey]⟩

/-! ## The round trip -/

/-- **A fetched policy is found again** exactly when no tag was added to its
file, the store has a root, the URL is read back, and the disk leaves room. -/
theorem foundAgain_iff {sources : Option Sources} {policy : FetchedPolicy}
    {d : Disk} {n : N} {w' : Disk × N}
    (h : fetchPolicy lib (diskWorld network).toRemote url (.store root) sources
      (d, n) = (.ok policy, w')) :
    FoundAgain lib network root policy w' ↔ latestSuffix lib u = "" ∧ root ≠ "" ∧ ReadsBack lib u
      ∧ ∀ e, d.createDirAll (createdDirectory lib root u) = .ok e → LeavesRoom lib root u e := by
  obtain ⟨hcomputes, rfl, e, he, hobtained⟩ := fetchPolicy_diskWorld laws hu hscheme h
  unfold FoundAgain
  rw [exists_getPolicyByUri_iff laws hu hscheme hcomputes hobtained]
  refine and_congr_right (fun hempty => ?_)
  rw [hempty, String.append_empty] at hobtained ⊢
  rw [exists_list_iff laws hscheme hobtained, he]
  simp only [Except.ok.injEq, forall_eq']

end

/-! ## Concrete runs -/

def Network.serving (contents : List UInt8) : Network Unit where
  httpGet := fun _ _ => pure contents
  pull := fun _ _ _ => pure [contents]
  pullManifest := fun _ _ => .throw "no manifest"

def sampleFetch (url : String) : Outcome String FetchedPolicy × (Disk × Unit) :=
  fetchPolicy .text (diskWorld (.serving wasmMagicNumber)).toRemote url
    (.store "/store") none (.empty, ())

/-- A policy with a plain URL is found again. -/
theorem foundAgain_plain_url :
    ∃ policy w', sampleFetch "https://ghcr.io/a/p.wasm" = (.ok policy, w')
      ∧ FoundAgain .text (.serving wasmMagicNumber) "/store" policy w' := by
  have hok : (sampleFetch "https://ghcr.io/a/p.wasm").1.isOk = true := by decide +kernel
  obtain ⟨policy, w', hfetch⟩ := Outcome.exists_of_isOk hok
  have hparse : parseUrl .text "https://ghcr.io/a/p.wasm" = .ok "https://ghcr.io/a/p.wasm" := by
    decide +kernel
  refine ⟨policy, w', hfetch, (foundAgain_iff text_laws hparse
    (by decide +kernel) hfetch).2 ⟨by decide +kernel, by decide, ⟨by
      decide +kernel, "https", "ghcr.io", ["a", "p.wasm"], by decide +kernel,
      by decide +kernel⟩, fun e he => ?_⟩⟩
  have hroom : (empty.createDirAll (createdDirectory .text "/store"
      "https://ghcr.io/a/p.wasm")).toOption.all (fun e => decide
        (LeavesRoom .text "/store" "https://ghcr.io/a/p.wasm" e)) = true := by
    decide +kernel
  rw [he] at hroom
  exact of_decide_eq_true hroom

/-- **The latest image is not found again**: it is stored as `p:latest`. -/
theorem latest_image_is_not_found_again :
    ∃ policy w', sampleFetch "registry://ghcr.io/p" = (.ok policy, w')
      ∧ policy.uri = "registry://ghcr.io/p"
      ∧ policy.localPath = "/store/registry/ghcr.io/p:latest"
      ∧ (⟨"/store"⟩ : Store).getPolicyByUri .text
          (diskWorld (.serving wasmMagicNumber)).toRemote policy.uri w'
        = (.ok none, w')
      ∧ ¬ FoundAgain .text (.serving wasmMagicNumber) "/store" policy w' := by
  have hok : (sampleFetch "registry://ghcr.io/p").1.isOk = true := by decide +kernel
  obtain ⟨policy, w', hfetch⟩ := Outcome.exists_of_isOk hok
  have hparse : parseUrl .text "registry://ghcr.io/p" = .ok "registry://ghcr.io/p" := by
    decide +kernel
  have hscheme : text.scheme "registry://ghcr.io/p" ∈ knownRemoteSchemes := by decide +kernel
  obtain ⟨hcomputes, hpolicy, -⟩ := fetchPolicy_diskWorld text_laws hparse hscheme hfetch
  have hpath : filePath .text "/store" "registry://ghcr.io/p"
        ++ latestSuffix .text "registry://ghcr.io/p"
      = "/store/registry/ghcr.io/p:latest" := by
    decide +kernel
  rw [hpath] at hpolicy
  have hnone : ((sampleFetch "registry://ghcr.io/p").2.1.find
      (filePath .text "/store" "registry://ghcr.io/p")).isSome = false := by
    decide +kernel
  have hget : (⟨"/store"⟩ : Store).getPolicyByUri .text
      (diskWorld (.serving wasmMagicNumber)).toRemote policy.uri w' = (.ok none, w') := by
    rw [hfetch] at hnone
    rw [hpolicy]
    rw [getPolicyByUri_diskWorld text_laws hparse hscheme hcomputes, hnone]
    rfl
  refine ⟨policy, w', hfetch, ?_, ?_, hget, fun h => ?_⟩
  · rw [hpolicy]
    rfl
  · rw [hpolicy]
  · obtain ⟨q, w'', hq, -⟩ := h.1
    cases hget.symm.trans hq
