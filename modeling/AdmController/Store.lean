import AdmController.Effects
import AdmController.VerificationConstraints

/-!
# The store of policies

The URLs of policies and the places where they are stored: `parse_url`, and
`policy-fetcher`'s `store`. The URL library and the parser of image references
are third-party code (`FetcherLib`).
-/

open RustStr Outcome

structure Reference where
  (registry repository : String)
  tag : Option String
  /-- The full name of the image. -/
  whole : String

/-- Third-party code used to fetch policies, and how the program is built. -/
structure FetcherLib (U : Type) where
  urls : UrlLib U
  scheme : U → String
  port : U → Option ℕ
  toFilePath : U → Option String
  referenceTryFrom : String → Except String Reference
  /-- The place of the main store. -/
  defaultStoreRoot : String
  /-- Whether arithmetic that overflows panics. -/
  overflowChecks : Bool

variable {U : Type} (lib : FetcherLib U)

/-! ## URLs -/

def knownSchemes : List String := ["file", "http", "https", "registry"]

def knownRemoteSchemes : List String := ["http", "https", "registry"]

def parseUrlWith (again : String → Except String U) (url : String) : Except String U :=
  match lib.urls.parse url with
  | .ok u =>
    if lib.scheme u ∉ knownSchemes && !containsStr url "://" then
      -- the host has been taken for a scheme
      again ("registry://" ++ url)
    else .ok u
  | .error e =>
    if e = "relative URL without a base" then lib.urls.parse ("registry://" ++ url)
    else .error e

def parseUrl (url : String) : Except String U := parseUrlWith lib (parseUrlWith lib .error) url

def hostAndPort (url : U) : Except String String :=
  match lib.urls.hostStr url with
  | none => .error ("invalid URL: " ++ lib.urls.toString url)
  | some host => .ok (host ++ match lib.port url with
      | some port => ":" ++ toString port
      | none => "")

/-! ## Places in the store -/

structure Store where
  root : String

inductive PolicyPath where
  | prefixOnly
  | prefixAndFilename

def hostDirectory (url : U) : String :=
  match lib.urls.hostStr url with
  | none => ""
  | some host => match lib.port url with
      | some port => host ++ ":" ++ toString port
      | none => host

def usizeSub (overflowChecks : Bool) (a b : ℕ) : Outcome String ℕ :=
  if b ≤ a then .ok (a - b)
  else if overflowChecks then .panic
  else .ok (2 ^ 64 + a - b)

def Store.policyPrefix (url : U) : Outcome String String := do
  let elements := split (lib.urls.path url) '/'
  -- skip the empty root after the split, and the file name
  let count ← usizeSub lib.overflowChecks elements.length 2
  return joinPath (joinPath (lib.scheme url) (hostDirectory lib url))
    (((elements.drop 1).take count).foldl joinPath "")

def policyFileName (url : U) : String := (split (lib.urls.path url) '/').getLastD ""

def Store.policyPath (url : String) (policyPath : PolicyPath) :
    Outcome String String := do
  let url ← ofExcept (lib.urls.parse url)
  let directory ← Store.policyPrefix lib url
  return match policyPath with
    | .prefixOnly => directory
    | .prefixAndFilename => joinPath directory (policyFileName lib url)

/-- **`Store::policy_full_path`**: the path of a policy, with its store. -/
def Store.policyFullPath (store : Store) (url : String)
    (policyPath : PolicyPath) : Outcome String String := do
  let path ← Store.policyPath lib url policyPath
  return joinPath store.root path

theorem Store.policyFullPath_eq_panic {store : Store} {url : String} {policyPath : PolicyPath} :
    store.policyFullPath lib url policyPath = .panic ↔ ∃ u, lib.urls.parse url = .ok u
      ∧ Store.policyPrefix lib u = .panic := by
  simp only [Store.policyFullPath, Store.policyPath, bind_eq_panic,
    ofExcept_eq_ok, ofExcept_ne_panic, pure_ne_panic,
    and_false, exists_false, or_false, false_or]

/-! ## A concrete library -/

def hostAndPathOfText (url : String) : Option String × String :=
  let rest := ((splitOnce url ':').map Prod.snd).getD ""
  let rest := ((splitOnce rest '?').map Prod.fst).getD rest
  match stripPrefix rest "//" with
  | none => (none, rest)
  | some rest =>
    let host := String.ofList (rest.toList.takeWhile (· != '/'))
    (some host, (stripPrefix rest host).getD "")

def FetcherLib.text : FetcherLib String where
  urls := { UrlLib.text with
    hostStr := fun url => (hostAndPathOfText url).1
    path := fun url => (hostAndPathOfText url).2 }
  scheme := fun url => ((splitOnce url ':').map Prod.fst).getD ""
  port := fun _ => none
  toFilePath := fun _ => none
  referenceTryFrom := fun image =>
    match splitOnce image '/' with
    | none => .error "invalid reference format"
    | some (registry, rest) =>
      match splitOnce rest ':' with
      | none => .ok ⟨registry, rest, some "latest", image⟩
      | some (repository, tag) => .ok ⟨registry, repository, some tag, image⟩
  defaultStoreRoot := "/store"
  overflowChecks := true
