import AdmController.Store

/-!
# Fetching policies

`policy-fetcher`'s `fetch_policy`: a policy is found on the disk, or pulled
from an HTTP server or a registry and stored. Which URLs can be fetched in some
world is decided by the URL (`fetchable_of_fetchPolicy`).
-/

open RustStr Prog

/-! ## Sources -/

inductive Certificate where
  | der (data : List UInt8)
  | pem (data : List UInt8)
deriving DecidableEq

inductive TlsVerificationMode where
  | customCaCertificates (certificates : List Certificate)
  | systemCa
  | noTlsVerification
deriving DecidableEq

inductive ClientProtocol where
  | http
  | https (mode : TlsVerificationMode)
deriving DecidableEq

structure Sources where
  insecureSources : List String
  sourceAuthorities : HashMap String (List Certificate)

def Sources.default : Sources := ⟨[], ∅⟩

def Sources.isInsecureSource (sources : Sources) (host : String) : Bool :=
  decide (host ∈ sources.insecureSources)

def Sources.sourceAuthority (sources : Sources) (host : String) : Option (List Certificate) :=
  sources.sourceAuthorities.lookup host

/-! ## The outside world -/

structure FetchedPolicy where
  (uri localPath : String)

structure OciDescriptor where
  (mediaType digest : String)

inductive OciManifest where
  | image (layers : List OciDescriptor)
  | imageIndex

def wasmLayerMediaType : String := "application/vnd.wasm.content.layer.v1+wasm"

/-- **Files, servers and registries**: images are pulled by the media type of
their layers, and files are downloaded. -/
structure Remote (W : Type) where
  (pathExists isDir : String → W → Bool × W)
  createDirAll : String → Prog W String Unit
  readFile : String → Prog W String (List UInt8)
  writeFile : String → List UInt8 → Prog W String Unit
  httpGet : String → ClientProtocol → Prog W String (List UInt8)
  pull : Reference → List String → ClientProtocol → Prog W String (List (List UInt8))
  pullManifest : Reference → ClientProtocol → Prog W String OciManifest

section

variable {W U : Type} (lib : FetcherLib U) (o : Remote W)

/-! ## Contacting servers -/

def clientProtocol (url : U) (sources : Sources) : Except String ClientProtocol :=
  (hostAndPort lib url).map (fun host =>
    match sources.sourceAuthority host with
    | some certificates => .https (.customCaCertificates certificates)
    | none => .https .systemCa)

def buildFullyResolvedReference (url : String) : Except String Reference :=
  (lib.referenceTryFrom ((stripPrefix url "registry://").getD url))
    |>.mapError (fun e => "Invalid OCI image reference: " ++ e)

def tryWithProtocols {α : Type} (url : U) (sources : Sources)
    (operation : ClientProtocol → Prog W String α) : Prog W String α := do
  let protocol ← .ofExcept (clientProtocol lib url sources)
  let first ← (operation protocol).attempt
  match first with
  | .ok result => return result
  | .error err => do
    let host ← .ofExcept (hostAndPort lib url)
    if !sources.isInsecureSource host then .throw err
    else do
      let second ← (operation (.https .noTlsVerification)).attempt
      match second with
      | .ok result => return result
      | .error _ => operation .http

def manifest (url : String) (sources : Option Sources) :
    Prog W String OciManifest := do
  let reference ← .ofExcept (buildFullyResolvedReference lib url)
  let url ← .ofExcept (lib.urls.parse ("registry://" ++ reference.whole))
  tryWithProtocols lib url (sources.getD .default) (fun protocol =>
    (o.pullManifest reference protocol).mapError
      (fun e => "Fail to interact with OCI registry: " ++ e))

def registryFetch (url : U) (protocol : ClientProtocol) : Prog W String (List UInt8) := do
  let image := (stripPrefix (lib.urls.toString url) "registry://").getD ""
  let reference ← .ofExcept ((lib.referenceTryFrom image).mapError
    (fun e => "Invalid OCI image reference: " ++ e))
  let _ ← ofExcept (hostAndPort lib url)
  let layers ← (o.pull reference [wasmLayerMediaType] protocol).mapError
    (fun e => "Fail to interact with OCI registry: " ++ e)
  match layers with
  | content :: _ => return content
  | [] => .throw ("could not pull policy " ++ lib.urls.toString url ++ ": empty layers")

def fetch (url : U) (protocol : ClientProtocol) : Prog W String (List UInt8) :=
  if lib.scheme url = "registry" then registryFetch lib o url protocol
  else o.httpGet (lib.urls.toString url) protocol

/-! ## Storing a policy -/

def wasmMagicNumber : List UInt8 := [0x00, 0x61, 0x73, 0x6D]

def createFileIfValid (bytes : List UInt8) (destination uri : String) :
    Prog W String FetchedPolicy :=
  if wasmMagicNumber.isPrefixOf bytes then do
    (o.writeFile destination bytes).mapError
      (fun e => "wasm module cannot be save to " ++ debug destination ++ ": " ++ e)
    return ⟨uri, destination⟩
  else .throw "invalid wasm file"

def pullPolicy (url : U) (destination : String) (sources : Sources) :
    Prog W String FetchedPolicy := do
  let uri := lib.urls.toString url
  let protocol ← .ofExcept (clientProtocol lib url sources)
  let first ← (fetch lib o url protocol).attempt
  match first with
  | .ok bytes => createFileIfValid o bytes destination uri
  | .error err => do
    let host ← .ofExcept (hostAndPort lib url)
    if !sources.isInsecureSource host then .throw err
    else do
      let second ← (fetch lib o url (.https .noTlsVerification)).attempt
      match second with
      | .ok bytes => createFileIfValid o bytes destination uri
      | .error _ => do
        let bytes ← fetch lib o url .http
        createFileIfValid o bytes destination uri

inductive PullDestination where
  | mainStore
  | store (root : String)
  | localFile (path : String)

def pullDestination (url : U) : PullDestination → Prog W String (Option Store × String)
  | .mainStore => inStore ⟨lib.defaultStoreRoot⟩
  | .store root => inStore ⟨root⟩
  | .localFile path => do
    let dir ← .ask (o.isDir path)
    return (none, if dir then joinPath path (policyFileName lib url) else path)
where
  inStore (store : Store) : Prog W String (Option Store × String) := do
    let path ← .ofOutcome (store.policyFullPath lib (lib.urls.toString url) .prefixAndFilename)
    return (some store, path)

def ensureStore (url : U) : Option Store → Prog W String Unit
  | none => return ()
  | some store => do
    let path ← .ofOutcome (store.policyFullPath lib (lib.urls.toString url) .prefixOnly)
    (o.createDirAll (joinPath store.root path)).mapError (fun e => "invalid URL: " ++ e)

def fetchRemote (url : U) (destination : PullDestination) (sources : Sources) :
    Prog W String FetchedPolicy := do
  let target ← pullDestination lib o url destination
  ensureStore lib o url target.1
  if lib.scheme url = "registry" then do
    let reference ← .ofExcept (buildFullyResolvedReference lib (lib.urls.toString url))
    if reference.tag = some "latest" then
      pullPolicy lib o url (if endsWith (lib.urls.toString url) ":latest" then target.2
        else target.2 ++ ":latest") sources
    else fetchUnlessStored url target.2 sources
  else fetchUnlessStored url target.2 sources
where
  fetchUnlessStored (url : U) (path : String) (sources : Sources) :
    Prog W String FetchedPolicy := do
    let stored ← .ask (o.pathExists path)
    if stored then return ⟨lib.urls.toString url, path⟩
    else pullPolicy lib o url path sources

def fetchUrl (url : U) (destination : PullDestination) (sources : Sources) :
    Prog W String FetchedPolicy :=
  if lib.scheme url = "file" then
    match lib.toFilePath url with
    | some path => return ⟨lib.urls.toString url, path⟩
    | none => .throw ("cannot retrieve path from uri: " ++ lib.urls.toString url)
  else if lib.scheme url ∈ ["registry", "http", "https"] then
    fetchRemote lib o url destination sources
  else .throw ("unknown scheme: " ++ lib.scheme url)

def fetchPolicy (url : String) (destination : PullDestination)
    (sources : Option Sources) : Prog W String FetchedPolicy := do
  let url ← .ofExcept (parseUrl lib url)
  fetchUrl lib o url destination (sources.getD .default)

/-! ## Which URLs can be fetched -/

def PullDestination.Admits (url : U) : PullDestination → Prop
  | .mainStore => AdmitsIn ⟨lib.defaultStoreRoot⟩
  | .store root => AdmitsIn ⟨root⟩
  | .localFile _ => True
where
  AdmitsIn (store : Store) : Prop :=
    (∃ path, store.policyFullPath lib (lib.urls.toString url) .prefixAndFilename = .ok path)
      ∧ ∃ path, store.policyFullPath lib (lib.urls.toString url) .prefixOnly = .ok path

def Pullable (url : U) : Prop :=
  (∃ host, hostAndPort lib url = .ok host) ∧ ∃ reference, lib.referenceTryFrom
        ((stripPrefix (lib.urls.toString url) "registry://").getD "")
      = .ok reference

/-- **A URL that can be fetched** in some world: a file, or a place in the
destination and, for a registry, an image. -/
def Fetchable (destination : PullDestination) (url : String) : Prop :=
  ∃ u, parseUrl lib url = .ok u ∧ (lib.scheme u = "file" ∧ (∃ path, lib.toFilePath u = some path)
    ∨ lib.scheme u ∈ ["http", "https"] ∧ destination.Admits lib u
    ∨ lib.scheme u = "registry" ∧ destination.Admits lib u ∧ ∃ reference,
      buildFullyResolvedReference lib (lib.urls.toString u) = .ok reference
      ∧ (reference.tag = some "latest" → Pullable lib u))

variable {lib o} {destination : PullDestination} {url : U} {target : Option Store × String}

theorem admits_of_pullDestination {w w₁ w₂ : W}
    (htarget : pullDestination lib o url destination w = (.ok target, w₁))
    (hensure : ensureStore lib o url target.1 w₁ = (.ok (), w₂)) :
    destination.Admits lib url := by
  have hstore : ∀ store, pullDestination.inStore lib url store w
      = (.ok target, w₁) → PullDestination.Admits.AdmitsIn lib url store := by
    intro store h
    obtain ⟨path, _, hpath, h⟩ := bind_eq_ok.1 h
    obtain ⟨rfl, -⟩ := pure_eq_ok.1 h
    obtain ⟨path', _, hpath', -⟩ := bind_eq_ok.1 hensure
    exact ⟨⟨path, (ofOutcome_eq_ok.1 hpath).1⟩, path', (ofOutcome_eq_ok.1 hpath').1⟩
  cases destination with
  | mainStore => exact hstore _ htarget
  | store root => exact hstore _ htarget
  | localFile path => trivial

variable {policy : FetchedPolicy} {w w' : W}

theorem exists_fetch_of_pullPolicy {destination : String} {sources : Sources}
    (h : pullPolicy lib o url destination sources w = (.ok policy, w')) :
    (∃ host, hostAndPort lib url = .ok host) ∧ ∃ protocol w₁ bytes w₂, (∀ {V : Type} {view : W → V},
          (∀ p, (fetch lib o url p).Keeps view) → view w₁ = view w)
        ∧ fetch lib o url protocol w₁ = (.ok bytes, w₂)
        ∧ createFileIfValid o bytes destination (lib.urls.toString url) w₂ = (.ok policy, w') := by
  obtain ⟨protocol, _, hprotocol, h⟩ := bind_eq_ok.1 h
  obtain ⟨hclient, rfl⟩ := ofExcept_eq_ok.1 hprotocol
  obtain ⟨host, hhost, -⟩ := Fallible.map_eq_ok.1 hclient
  refine ⟨⟨host, hhost⟩, ?_⟩
  obtain ⟨first, w₁, hfirst, h⟩ := bind_eq_ok.1 h
  cases first with
  | ok bytes => exact ⟨protocol, w, bytes, w₁, fun _ => rfl, attempt_eq_ok.1 hfirst, h⟩
  | error err =>
    obtain ⟨host', _, hhost', h⟩ := bind_eq_ok.1 h
    obtain ⟨-, rfl⟩ := ofExcept_eq_ok.1 hhost'
    split at h
    · exact absurd h throw_ne_ok
    · obtain ⟨second, w₂, hsecond, h⟩ := bind_eq_ok.1 h
      cases second with
      | ok bytes =>
        exact ⟨_, w₁, bytes, w₂, fun hkeeps => (hkeeps _).of_attempt hfirst,
          attempt_eq_ok.1 hsecond, h⟩
      | error err' =>
        obtain ⟨bytes, w₃, hthird, h⟩ := bind_eq_ok.1 h
        exact ⟨_, w₂, bytes, w₃, fun hkeeps =>
          ((hkeeps _).of_attempt hsecond).trans ((hkeeps _).of_attempt hfirst),
          hthird, h⟩

theorem pullable_of_pullPolicy {destination : String} {sources : Sources}
    (hscheme : lib.scheme url = "registry")
    (h : pullPolicy lib o url destination sources w = (.ok policy, w')) :
    Pullable lib url := by
  obtain ⟨hhost, protocol, _, bytes, _, -, hfetch, -⟩ := exists_fetch_of_pullPolicy h
  rw [fetch, if_pos hscheme] at hfetch
  obtain ⟨reference, _, hreference, -⟩ := bind_eq_ok.1 hfetch
  exact ⟨hhost, reference, Fallible.mapError_eq_ok.1 (ofExcept_eq_ok.1 hreference).1⟩

theorem fetchable_of_fetchPolicy {url : String} {sources : Option Sources}
    (h : fetchPolicy lib o url destination sources w = (.ok policy, w')) :
    Fetchable lib destination url := by
  obtain ⟨u, _, hu, h⟩ := bind_eq_ok.1 h
  refine ⟨u, (ofExcept_eq_ok.1 hu).1, ?_⟩
  unfold fetchUrl at h
  by_cases hfile : lib.scheme u = "file"
  · rw [if_pos hfile] at h
    cases hpath : lib.toFilePath u with
    | some path => exact .inl ⟨hfile, path, rfl⟩
    | none =>
      rw [hpath] at h
      exact absurd h throw_ne_ok
  · rw [if_neg hfile] at h
    by_cases hremote : lib.scheme u ∈ ["registry", "http", "https"]
    · rw [if_pos hremote] at h
      obtain ⟨target, _, htarget, h⟩ := bind_eq_ok.1 h
      obtain ⟨_, _, hensure, h⟩ := bind_eq_ok.1 h
      have hadmits := admits_of_pullDestination htarget hensure
      by_cases hregistry : lib.scheme u = "registry"
      · rw [if_pos hregistry] at h
        obtain ⟨reference, _, hreference, h⟩ := bind_eq_ok.1 h
        refine .inr (.inr ⟨hregistry, hadmits, reference,
          (ofExcept_eq_ok.1 hreference).1, fun hlatest => ?_⟩)
        rw [if_pos hlatest] at h
        exact pullable_of_pullPolicy hregistry h
      · exact .inr (.inl ⟨(List.mem_cons.1 hremote).resolve_left hregistry, hadmits⟩)
    · rw [if_neg hremote] at h
      exact absurd h throw_ne_ok

section

variable {V : Type} {view : W → V} (hget : ∀ text protocol, (o.httpGet text protocol).Keeps view)
  (hpull : ∀ reference types protocol, (o.pull reference types protocol).Keeps view)

include hget hpull

/-! ## What a fetch leaves behind -/

theorem keeps_fetch (url : U) (protocol : ClientProtocol) :
    (fetch lib o url protocol).Keeps view := by
  unfold fetch
  split
  · refine (keeps_ofExcept _).bind (fun reference => ?_)
    refine (keeps_ofExcept _).bind (fun host => ?_)
    refine ((hpull _ _ _).mapError _).bind (fun layers => ?_)
    cases layers with
    | nil => exact keeps_throw _
    | cons content rest => exact keeps_pure content
  · exact hget _ _

theorem exists_write_of_pullPolicy {url : U} {destination : String}
    {sources : Sources} {policy : FetchedPolicy} {w w' : W}
    (h : pullPolicy lib o url destination sources w = (.ok policy, w')) :
    policy = ⟨lib.urls.toString url, destination⟩ ∧ ∃ bytes w₁, view w₁ = view w
      ∧ o.writeFile destination bytes w₁ = (.ok (), w') := by
  have hkeeps : ∀ protocol, (fetch lib o url protocol).Keeps view := keeps_fetch hget hpull url
  obtain ⟨-, protocol, w₁, bytes, w₂, hbefore, hfetch, hcreate⟩ := exists_fetch_of_pullPolicy h
  have hview := hkeeps protocol w₁
  rw [hfetch] at hview
  unfold createFileIfValid at hcreate
  split at hcreate
  · obtain ⟨_, _, hwrite, hpolicy⟩ := bind_eq_ok.1 hcreate
    obtain ⟨rfl, rfl⟩ := pure_eq_ok.1 hpolicy
    exact ⟨rfl, bytes, w₂, hview.trans (hbefore hkeeps), mapError_eq_ok.1 hwrite⟩
  · exact absurd hcreate throw_ne_ok

end

/-! ## Panics -/

variable (lib) in
def PullDestination.Panics (url : U) : PullDestination → Prop
  | .mainStore => PanicsIn ⟨lib.defaultStoreRoot⟩
  | .store root => PanicsIn ⟨root⟩
  | .localFile _ => False
where
  PanicsIn (store : Store) : Prop :=
    store.policyFullPath lib (lib.urls.toString url) .prefixAndFilename = .panic

variable (lib) in
/-- **A URL that panics**: its place is asked for, and cannot be computed. -/
def PanicsOn (destination : PullDestination) (url : String) : Prop :=
  ∃ u, parseUrl lib url = .ok u ∧ lib.scheme u ∈ ["registry", "http", "https"]
    ∧ destination.Panics lib u

theorem fetchPolicy_of_panicsOn {url : String}
    (h : PanicsOn lib destination url) (sources : Option Sources) (w : W) :
    fetchPolicy lib o url destination sources w = (.panic, w) := by
  obtain ⟨u, hu, hscheme, hpanic⟩ := h
  have hfile : lib.scheme u ≠ "file" := by
    intro h
    rw [h] at hscheme
    revert hscheme
    decide
  have hdestination : pullDestination lib o u destination w = (.panic, w) := by
    cases destination with
    | mainStore =>
      show pullDestination.inStore lib u _ w = _
      rw [pullDestination.inStore, bind_apply, ofOutcome,
        show Store.policyFullPath lib _ _ _ = .panic from hpanic]
    | store root =>
      show pullDestination.inStore lib u _ w = _
      rw [pullDestination.inStore, bind_apply, ofOutcome,
        show Store.policyFullPath lib _ _ _ = .panic from hpanic]
    | localFile path => exact hpanic.elim
  rw [fetchPolicy, hu]
  show fetchUrl lib o u destination _ w = _
  rw [fetchUrl, if_neg hfile, if_pos hscheme, fetchRemote, bind_apply, hdestination]

/-! ## A world without failures -/

def Remote.obliging (contents : List UInt8) : Remote Unit where
  pathExists := fun _ w => (true, w)
  isDir := fun _ w => (false, w)
  createDirAll := fun _ => pure ()
  readFile := fun _ => pure contents
  writeFile := fun _ _ => pure ()
  httpGet := fun _ _ => pure contents
  pull := fun _ _ _ => pure [contents]
  pullManifest := fun _ _ => .throw "no manifest"

variable {contents : List UInt8}

theorem exists_target_of_admits (h : destination.Admits lib url) (w : Unit) :
    ∃ target, pullDestination lib (.obliging contents) url destination w = (.ok target, w)
      ∧ ensureStore lib (.obliging contents) url target.1 w = (.ok (), w) := by
  have hstore : ∀ store, PullDestination.Admits.AdmitsIn lib url store →
      ∃ target, pullDestination.inStore lib url store w = (.ok target, w)
        ∧ ensureStore lib (.obliging contents) url target.1 w = (.ok (), w) := by
    rintro store ⟨⟨path, hpath⟩, path', hpath'⟩
    refine ⟨(some store, path), bind_eq_ok.2 ⟨path, w, ofOutcome_eq_ok.2 ⟨hpath, rfl⟩, rfl⟩, ?_⟩
    exact bind_eq_ok.2 ⟨path', w, ofOutcome_eq_ok.2 ⟨hpath', rfl⟩, rfl⟩
  cases destination with
  | mainStore => exact hstore _ h
  | store root => exact hstore _ h
  | localFile path => exact ⟨_, rfl, rfl⟩

theorem exists_pullPolicy_of_pullable (hmagic : wasmMagicNumber.isPrefixOf contents = true)
    (hscheme : lib.scheme url = "registry") (h : Pullable lib url)
    (destination : String) (sources : Sources) (w : Unit) :
    ∃ policy, pullPolicy lib (.obliging contents) url destination sources w = (.ok policy, w) := by
  obtain ⟨⟨host, hhost⟩, reference, hreference⟩ := h
  obtain ⟨protocol, hprotocol⟩ : ∃ protocol, clientProtocol lib url sources = .ok protocol :=
    ⟨_, Fallible.map_eq_ok.2 ⟨host, hhost, rfl⟩⟩
  have hfetch : fetch lib (.obliging contents) url protocol w = (.ok contents, w) := by
    rw [fetch, if_pos hscheme, registryFetch, hreference, hhost]
    rfl
  refine ⟨⟨lib.urls.toString url, destination⟩, bind_eq_ok.2
    ⟨protocol, w, ofExcept_eq_ok.2 ⟨hprotocol, rfl⟩,
      bind_eq_ok.2 ⟨.ok contents, w, attempt_eq_ok.2 hfetch, ?_⟩⟩⟩
  show createFileIfValid _ contents destination _ w = _
  rw [createFileIfValid, if_pos hmagic]
  rfl

theorem exists_fetchRemote_of_admits (hmagic : wasmMagicNumber.isPrefixOf contents = true)
    (h : destination.Admits lib url) (hregistry : lib.scheme url = "registry" →
      ∃ reference, buildFullyResolvedReference lib (lib.urls.toString url) = .ok
      reference ∧ (reference.tag = some "latest" → Pullable lib url))
    (sources : Sources) (w : Unit) :
    ∃ policy, fetchRemote lib (.obliging contents) url destination sources w = (.ok policy, w) := by
  obtain ⟨target, htarget, hensure⟩ :
      ∃ target, pullDestination lib (.obliging contents) url destination w = (.ok target, w)
        ∧ ensureStore lib (.obliging contents) url target.1 w = (.ok (), w) :=
    exists_target_of_admits h w
  suffices hrest : ∃ policy, (if lib.scheme url = "registry" then _ else _ :
      Prog Unit String FetchedPolicy) w = (.ok policy, w) by
    obtain ⟨policy, hpolicy⟩ := hrest
    exact ⟨policy, bind_eq_ok.2 ⟨target, w, htarget, bind_eq_ok.2 ⟨(), w, hensure, hpolicy⟩⟩⟩
  by_cases hscheme : lib.scheme url = "registry"
  · obtain ⟨reference, hreference, hlatest⟩ := hregistry hscheme
    rw [if_pos hscheme]
    by_cases htag : reference.tag = some "latest"
    · obtain ⟨policy, hpolicy⟩ := exists_pullPolicy_of_pullable hmagic hscheme
        (hlatest htag) (if endsWith (lib.urls.toString url) ":latest"
          then target.2 else target.2 ++ ":latest") sources w
      refine ⟨policy, bind_eq_ok.2 ⟨reference, w, ofExcept_eq_ok.2 ⟨hreference, rfl⟩, ?_⟩⟩
      rw [if_pos htag]
      exact hpolicy
    · refine ⟨⟨lib.urls.toString url, target.2⟩, bind_eq_ok.2
        ⟨reference, w, ofExcept_eq_ok.2 ⟨hreference, rfl⟩, ?_⟩⟩
      rw [if_neg htag]
      rfl
  · rw [if_neg hscheme]
    exact ⟨_, rfl⟩

theorem exists_fetchPolicy_of_fetchable (hmagic : wasmMagicNumber.isPrefixOf contents = true)
    {url : String} (h : Fetchable lib destination url) (sources : Option Sources) (w : Unit) :
    ∃ policy, fetchPolicy lib (.obliging contents) url destination sources w = (.ok policy, w) := by
  obtain ⟨u, hu, h⟩ := h
  suffices hurl : ∃ policy, fetchUrl lib (.obliging contents) u destination
      (sources.getD .default) w = (.ok policy, w) by
    obtain ⟨policy, hpolicy⟩ := hurl
    exact ⟨policy, bind_eq_ok.2 ⟨u, w, ofExcept_eq_ok.2 ⟨hu, rfl⟩, hpolicy⟩⟩
  unfold fetchUrl
  rcases h with ⟨hfile, path, hpath⟩ | ⟨hhttp, hadmits⟩
    | ⟨hregistry, hadmits, h⟩
  · rw [if_pos hfile, hpath]
    exact ⟨_, rfl⟩
  · have hne : lib.scheme u ≠ "file" ∧ lib.scheme u ≠ "registry" := by
      simp only [List.mem_cons, List.not_mem_nil, or_false] at hhttp
      rcases hhttp with h | h <;> rw [h] <;> decide
    rw [if_neg hne.1, if_pos (List.mem_cons_of_mem _ hhttp)]
    exact exists_fetchRemote_of_admits hmagic hadmits (fun h => absurd h hne.2) _ w
  · rw [if_neg (by rw [hregistry]; decide), if_pos (by rw [hregistry]; decide)]
    exact exists_fetchRemote_of_admits hmagic hadmits (fun _ => h) _ w

theorem noPanic_fetch_obliging (url : U) (protocol : ClientProtocol) :
    (fetch lib (.obliging contents) url protocol).NoPanic := by
  unfold fetch
  split
  · refine (noPanic_ofExcept _).bind (fun reference _ => ?_)
    refine (noPanic_ofExcept _).bind (fun host _ => ?_)
    exact noPanic_pure contents
  · exact noPanic_pure contents

theorem noPanic_createFileIfValid_obliging (bytes : List UInt8) (destination uri : String) :
    (createFileIfValid (.obliging contents) bytes destination uri).NoPanic := by
  unfold createFileIfValid
  split
  · exact noPanic_pure _
  · exact noPanic_throw _

theorem noPanic_pullPolicy_obliging (url : U) (destination : String) (sources : Sources) :
    (pullPolicy lib (.obliging contents) url destination sources).NoPanic := by
  refine (noPanic_ofExcept _).bind (fun protocol _ => ?_)
  refine (noPanic_fetch_obliging url protocol).attempt.bind (fun first _ => ?_)
  cases first with
  | ok bytes => exact noPanic_createFileIfValid_obliging bytes destination _
  | error err =>
    refine (noPanic_ofExcept _).bind (fun host _ => ?_)
    split
    · exact noPanic_throw err
    · refine (noPanic_fetch_obliging url _).attempt.bind (fun second _ => ?_)
      cases second with
      | ok bytes => exact noPanic_createFileIfValid_obliging bytes destination _
      | error err' =>
        refine (noPanic_fetch_obliging url _).bind (fun bytes _ => ?_)
        exact noPanic_createFileIfValid_obliging bytes destination _

theorem policyFullPath_of_pullDestination
    (h : pullDestination lib o url destination w = (.ok target, w'))
    {store : Store} (hstore : target.1 = some store) (path : PolicyPath) :
    store.policyFullPath lib (lib.urls.toString url) path ≠ .panic := by
  have hin : ∀ store', pullDestination.inStore lib url store' w = (.ok target, w') →
      store.policyFullPath lib (lib.urls.toString url) path ≠ .panic := by
    intro store' h hpanic
    obtain ⟨file, _, hfile, -⟩ := bind_eq_ok.1 h
    cases (ofOutcome_eq_ok.1 hfile).1.symm.trans ((Store.policyFullPath_eq_panic lib).2
      ((Store.policyFullPath_eq_panic lib).1 hpanic))
  cases destination with
  | mainStore => exact hin _ h
  | store root => exact hin _ h
  | localFile path =>
    obtain ⟨_, _, -, h⟩ := bind_eq_ok.1 h
    obtain ⟨rfl, -⟩ := pure_eq_ok.1 h
    cases hstore

theorem noPanic_fetchRemote_obliging (h : ¬ destination.Panics lib url) (sources : Sources) :
    (fetchRemote lib (.obliging contents) url destination sources).NoPanic := by
  have htarget : (pullDestination lib (.obliging contents) url destination).NoPanic := by
    cases destination with
    | mainStore => exact (noPanic_ofOutcome h).bind (fun path _ => noPanic_pure _)
    | store root => exact (noPanic_ofOutcome h).bind (fun path _ => noPanic_pure _)
    | localFile path => exact (noPanic_ask _).bind (fun dir _ => noPanic_pure _)
  have hfetch : ∀ path, (fetchRemote.fetchUnlessStored lib (.obliging contents)
      url path sources).NoPanic := by
    intro path
    refine (noPanic_ask _).bind (fun stored _ => ?_)
    split
    · exact noPanic_pure _
    · exact noPanic_pullPolicy_obliging url path sources
  refine htarget.bind (fun target htarget => Prog.NoPanic.bind ?_ (fun _ _ => ?_))
  · obtain ⟨w, w', htarget⟩ := htarget
    cases hstore : target.1 with
    | none => exact noPanic_pure ()
    | some store =>
      refine (noPanic_ofOutcome (policyFullPath_of_pullDestination htarget
        hstore .prefixOnly)).bind (fun path _ => ?_)
      exact noPanic_pure ()
  · split
    · refine (noPanic_ofExcept _).bind (fun reference _ => ?_)
      split
      · exact noPanic_pullPolicy_obliging url _ sources
      · exact hfetch target.2
    · exact hfetch target.2

theorem noPanic_fetchPolicy_obliging {url : String}
    (h : ¬ PanicsOn lib destination url) (sources : Option Sources) :
    (fetchPolicy lib (.obliging contents) url destination sources).NoPanic := by
  refine (noPanic_ofExcept _).bind (fun u hu => ?_)
  obtain ⟨w, w', hu⟩ := hu
  unfold fetchUrl
  split
  · split
    · exact noPanic_pure _
    · exact noPanic_throw _
  · split
    · next hscheme =>
      exact noPanic_fetchRemote_obliging
        (fun hpanics => h ⟨u, (ofExcept_eq_ok.1 hu).1, hscheme, hpanics⟩) _
    · exact noPanic_throw _

end
