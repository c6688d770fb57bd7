import AdmController.Disk
import AdmController.StoreCollisions

/-!
# Finding policies in the store again

`Store::get_policy_by_uri` and `Store::list`: the place of a policy is computed
from its URL, and the listing computes a URL from the place of every file. The
files are those of a disk; servers and registries answer what they like.
-/

open RustStr Prog List Store Disk

/-- **The outside world of a store**: what fetching needs, names in a directory,
what is below it, and which paths lead to files. -/
structure StoreFs (W : Type) extends Remote W where
  readDir : String → Prog W String (List String)
  walkDir : String → Prog W String (List (List String))
  isFile : String → Prog W String Bool

section

variable {W U : Type} (lib : FetcherLib U)

def Store.getPolicyByUri (o : Remote W) (store : Store) (uri : String) :
    Prog W String (Option FetchedPolicy) := do
  let uri ← .ofExcept (lib.urls.parse uri)
  if lib.scheme uri ∉ knownRemoteSchemes then .throw ("unknown scheme: " ++ lib.scheme uri)
  else do
    let policyPath ← .ofOutcome (store.policyFullPath lib
      (lib.urls.toString uri) .prefixAndFilename)
    let stored ← .ask (o.pathExists policyPath)
    return if stored then some ⟨lib.urls.toString uri, policyPath⟩ else none

variable (o : StoreFs W)

def storeIoError (e : String) : String := "failed to read verification file: " ++ e

def listedUri (scheme host : String) (rest : List String) : String :=
  scheme ++ "://" ++ host ++ joinPath "/" (rest.foldl joinPath "")

def Store.listEntry (scheme host hostPath : String)
    (policies : List FetchedPolicy) (rest : List String) :
    Prog W String (List FetchedPolicy) := do
  let path := rest.foldl joinPath hostPath
  let file ← (o.isFile path).mapError storeIoError
  return if file then policies ++ [⟨listedUri scheme host rest, path⟩] else policies

def Store.listHost (scheme schemePath : String) (policies : List FetchedPolicy) (host : String) :
    Prog W String (List FetchedPolicy) := do
  let hostPath := joinPath schemePath host
  let entries ← (o.walkDir hostPath).mapError
    (fun e => "cannot read policy in local storage: " ++ e)
  entries.foldlM (listEntry o scheme host hostPath) policies

def Store.listScheme (store : Store) (policies : List FetchedPolicy)
    (scheme : String) : Prog W String (List FetchedPolicy) :=
  if scheme ∉ knownRemoteSchemes then return policies
  else do
    let schemePath := joinPath store.root scheme
    let hosts ← (o.readDir schemePath).mapError storeIoError
    hosts.foldlM (listHost o scheme schemePath) policies

def Store.list (store : Store) : Prog W String (List FetchedPolicy) := do
  let stored ← .ask (o.pathExists store.root)
  if !stored then return []
  else do
    let schemes ← (o.readDir store.root).mapError storeIoError
    schemes.foldlM (store.listScheme o) []

end

/-! ## A disk and a network -/

structure Network (N : Type) where
  httpGet : String → ClientProtocol → Prog N String (List UInt8)
  pull : Reference → List String → ClientProtocol → Prog N String (List (List UInt8))
  pullManifest : Reference → ClientProtocol → Prog N String OciManifest

section

variable {N α : Type}

def readDisk (f : Disk → Except String α) : Prog (Disk × N) String α :=
  fun w => match f w.1 with
    | .ok a => (.ok a, w)
    | .error e => (.error e, w)

def changeDisk (f : Disk → Except String Disk) : Prog (Disk × N) String Unit :=
  fun w => match f w.1 with
    | .ok d => (.ok (), (d, w.2))
    | .error e => (.error e, w)

def contact (x : Prog N String α) : Prog (Disk × N) String α :=
  fun w => ((x w.2).1, (w.1, (x w.2).2))

/-- **The world with a disk**, and with the given servers and registries. -/
def diskWorld (network : Network N) : StoreFs (Disk × N) where
  pathExists := fun path w => ((w.1.find path).isSome, w)
  isDir := fun path w => (decide (w.1.find path = some .directory), w)
  createDirAll := fun path => changeDisk (fun d => d.createDirAll path)
  readFile := fun path => readDisk (fun d => d.readFile path)
  writeFile := fun path contents =>
    changeDisk (fun d => d.write path contents)
  httpGet := fun url protocol => contact (network.httpGet url protocol)
  pull := fun reference types protocol =>
    contact (network.pull reference types protocol)
  pullManifest := fun reference protocol =>
    contact (network.pullManifest reference protocol)
  readDir := fun path => readDisk (fun d => d.readDir path)
  walkDir := fun path => readDisk (fun d => d.walkDir path)
  isFile := fun path => readDisk (fun d => d.isFile path)

theorem keeps_readDisk (f : Disk → Except String α) :
    (readDisk f : Prog (Disk × N) String α).Keeps id := by
  intro w
  unfold readDisk
  cases f w.1 with
  | ok a => rfl
  | error e => rfl

theorem readDisk_eq_ok {f : Disk → Except String α} {a : α} {w w' : Disk × N} :
    readDisk f w = (.ok a, w') ↔ f w.1 = .ok a ∧ w = w' := by
  unfold readDisk
  cases f w.1 with
  | ok b => simp
  | error e => simp

theorem changeDisk_eq_ok {f : Disk → Except String Disk} {w w' : Disk × N} :
    changeDisk f w = (.ok (), w') ↔ ∃ d, f w.1 = .ok d ∧ w' = (d, w.2) := by
  unfold changeDisk
  cases f w.1 with
  | ok d => simp [eq_comm]
  | error e => simp

theorem keeps_contact (x : Prog N String α) : (contact x).Keeps (Prod.fst : Disk × N → Disk) :=
  fun _ => rfl

variable {network : Network N} {path : String} {w w' : Disk × N}

theorem diskWorld_readDir_eq_ok {names : List String} :
    (diskWorld network).readDir path w = (.ok names, w') ↔ w.1.readDir path = .ok names ∧ w = w' :=
  readDisk_eq_ok (f := fun d => d.readDir path)

theorem diskWorld_walkDir_eq_ok {entries : List (List String)} :
    (diskWorld network).walkDir path w = (.ok entries, w')
      ↔ w.1.walkDir path = .ok entries ∧ w = w' :=
  readDisk_eq_ok (f := fun d => d.walkDir path)

theorem diskWorld_isFile_eq_ok {file : Bool} : (diskWorld network).isFile path w = (.ok file, w')
    ↔ w.1.isFile path = .ok file ∧ w = w' :=
  readDisk_eq_ok (f := fun d => d.isFile path)

theorem diskWorld_writeFile_eq_ok {contents : List UInt8} :
    (diskWorld network).writeFile path contents w = (.ok (), w')
      ↔ ∃ d, w.1.write path contents = .ok d ∧ w' = (d, w.2) :=
  changeDisk_eq_ok (f := fun d => d.write path contents)

theorem diskWorld_createDirAll_eq_ok : (diskWorld network).createDirAll path w = (.ok (), w')
    ↔ ∃ d, w.1.createDirAll path = .ok d ∧ w' = (d, w.2) :=
  changeDisk_eq_ok (f := fun d => d.createDirAll path)

end

section

variable {N : Type} {network : Network N} {d : Disk} {n : N}

/-! ## Listing a disk -/

def policiesAt (d : Disk) (scheme host hostPath : String)
    (location rest : List String) : List FetchedPolicy :=
  if (d.nodeAt (location ++ rest)).any DiskNode.isFile then
    [⟨listedUri scheme host rest, rest.foldl joinPath hostPath⟩]
  else []

theorem mem_policiesAt {scheme host hostPath : String}
    {location rest : List String} {policy : FetchedPolicy} :
    policy ∈ policiesAt d scheme host hostPath location rest
      ↔ ∃ contents, d.nodeAt (location ++ rest) = some (.file contents)
        ∧ policy = ⟨listedUri scheme host rest, rest.foldl joinPath hostPath⟩ := by
  unfold policiesAt
  rcases d.nodeAt (location ++ rest) with _ | _ | contents
  · simp
  · simp [DiskNode.isFile]
  · simp [DiskNode.isFile]

theorem listEntry_diskWorld {scheme host hostPath : String} {location rest : List String}
    (hne : location ≠ []) (hlocation : d.locate hostPath = some location)
    (hrest : rest ∈ d.below location) (policies : List FetchedPolicy) :
    listEntry (diskWorld network) scheme host hostPath policies rest (d, n)
      = (.ok (policies ++ policiesAt d scheme host hostPath location rest), (d, n)) := by
  have hmem := mem_below.1 hrest
  obtain ⟨node, hnode⟩ := (exists_nodeAt_iff (by simp [hne])).2 hmem
  have hlocate := locate_foldl_joinPath hlocation
    (fun s hs => d.names _ hmem s (mem_append_right _ hs)) hnode
  refine bind_eq_ok.2 ⟨node.isFile, (d, n), mapError_eq_ok.2
    (diskWorld_isFile_eq_ok.2 ⟨isFile_of_locate hlocate hnode, rfl⟩), ?_⟩
  rw [pure_eq_ok, policiesAt, hnode]
  cases node with
  | directory => simp [DiskNode.isFile]
  | file contents => simp [DiskNode.isFile]

theorem listHost_diskWorld {scheme schemePath host : String} {location : List String}
    (hlocation : d.locate schemePath = some location)
    (hhost : host ∈ d.children location) (policies : List FetchedPolicy) :
    listHost (diskWorld network) scheme schemePath policies host (d, n)
      = (.ok (policies ++ (d.below (location ++ [host])).flatMap
        (policiesAt d scheme host (joinPath schemePath host) (location ++ [host]))), (d, n)) := by
  obtain ⟨hlocate, node, hnode⟩ := locate_child hlocation hhost
  refine bind_eq_ok.2 ⟨d.below (location ++ [host]), (d, n), mapError_eq_ok.2
    (diskWorld_walkDir_eq_ok.2 ⟨walkDir_of_locate hlocate hnode, rfl⟩), ?_⟩
  exact foldlM_collect (fun rest hrest policies =>
    listEntry_diskWorld (by simp) hlocate hrest policies) policies

def policiesOfScheme (d : Disk) (root : String) (location : List String)
    (scheme : String) : List FetchedPolicy :=
  if scheme ∈ knownRemoteSchemes then
    (d.children (location ++ [scheme])).flatMap (fun host =>
      (d.below (location ++ [scheme] ++ [host])).flatMap (policiesAt d scheme host
        (joinPath (joinPath root scheme) host)
        (location ++ [scheme] ++ [host])))
  else []

section

variable {root : String} {location : List String} (hlocation : d.locate root = some location)

include hlocation

theorem listScheme_diskWorld {scheme : String} (hscheme : scheme ∈ d.children location)
    (hdirectory : scheme ∈ knownRemoteSchemes → d.nodeAt (location ++ [scheme]) = some .directory)
    (policies : List FetchedPolicy) :
    listScheme (diskWorld network) ⟨root⟩ policies scheme (d, n)
      = (.ok (policies ++ policiesOfScheme d root location scheme), (d, n)) := by
  unfold listScheme policiesOfScheme
  by_cases hknown : scheme ∈ knownRemoteSchemes
  · rw [if_neg (not_not.2 hknown), if_pos hknown]
    have hlocate := (locate_child hlocation hscheme).1
    refine bind_eq_ok.2 ⟨d.children (location ++ [scheme]), (d, n),
      mapError_eq_ok.2 (diskWorld_readDir_eq_ok.2
        ⟨readDir_eq_ok.2 ⟨_, hlocate, hdirectory hknown, rfl⟩, rfl⟩), ?_⟩
    exact foldlM_collect (fun host hhost policies =>
      listHost_diskWorld hlocate hhost policies) policies
  · rw [if_pos hknown, if_neg hknown, append_nil]
    rfl

/-- **The listing of a store, on the disk.** -/
theorem list_diskWorld (hroot : d.nodeAt location = some .directory)
    (hschemes : ∀ s ∈ knownRemoteSchemes, s ∈ d.children location →
      d.nodeAt (location ++ [s]) = some .directory) :
    (⟨root⟩ : Store).list (diskWorld network) (d, n) = (.ok ((d.children location).flatMap
          (policiesOfScheme d root location)), (d, n)) := by
  have hexists : (diskWorld network).pathExists root (d, n) = (true, (d, n)) := by
    show ((d.find root).isSome, (d, n)) = _
    rw [find, hlocation, Option.bind_some, hroot]
    rfl
  refine bind_eq_ok.2 ⟨true, (d, n), ask_eq_ok.2 hexists,
    bind_eq_ok.2 ⟨d.children location, (d, n), mapError_eq_ok.2 (diskWorld_readDir_eq_ok.2
      ⟨readDir_eq_ok.2 ⟨_, hlocation, hroot, rfl⟩, rfl⟩), ?_⟩⟩
  exact foldlM_collect (fun scheme hscheme policies =>
    listScheme_diskWorld hlocation hscheme
      (fun hknown => hschemes scheme hknown hscheme) policies) []

end

theorem mem_flatMap_policiesOfScheme {root : String} {location : List String}
    {policy : FetchedPolicy} :
    policy ∈ (d.children location).flatMap (policiesOfScheme d root location)
      ↔ ∃ s ∈ knownRemoteSchemes, ∃ host rest contents,
        d.nodeAt (location ++ s :: host :: rest) = some (.file contents)
        ∧ policy = ⟨listedUri s host rest, rest.foldl joinPath
          (joinPath (joinPath root s) host)⟩ := by
  simp only [mem_flatMap, policiesOfScheme]
  constructor
  · rintro ⟨s, hs, hpolicy⟩
    split at hpolicy
    · next hknown =>
      obtain ⟨host, hhost, hpolicy⟩ := mem_flatMap.1 hpolicy
      obtain ⟨rest, hrest, hpolicy⟩ := mem_flatMap.1 hpolicy
      obtain ⟨contents, hnode, rfl⟩ := mem_policiesAt.1 hpolicy
      exact ⟨s, hknown, host, rest, contents, by simpa using hnode, rfl⟩
    · cases hpolicy
  · rintro ⟨s, hknown, host, rest, contents, hnode, rfl⟩
    have happend : location ++ s :: host :: rest = location ++ [s] ++ [host] ++ rest := by simp
    rw [happend] at hnode
    have hscheme : d.nodeAt (location ++ [s]) = some .directory := by
      rw [append_assoc (location ++ [s])] at hnode
      exact nodeAt_eq_directory hnode (by simp)
    have hmem : location ++ [s] ++ [host] ++ rest ∈ d.nodes :=
      (exists_nodeAt_iff (by simp)).1 ⟨_, hnode⟩
    have hhost : location ++ [s] ++ [host] ∈ d.nodes := by
      by_cases hrest : rest = []
      · rwa [hrest, append_nil] at hmem
      · exact (exists_nodeAt_iff (by simp)).1 ⟨_, nodeAt_eq_directory hnode hrest⟩
    refine ⟨s, mem_children.2 ((exists_nodeAt_iff (by simp)).1 ⟨_, hscheme⟩), ?_⟩
    rw [if_pos hknown]
    exact mem_flatMap.2 ⟨host, mem_children.2 hhost,
      mem_flatMap.2 ⟨rest, mem_below.2 hmem, mem_policiesAt.2 ⟨contents, hnode, rfl⟩⟩⟩

/-- The listing of a disk leaves it alone. -/
theorem keeps_listScheme (store : Store) (policies : List FetchedPolicy) (scheme : String) :
    (store.listScheme (diskWorld network) policies scheme).Keeps id := by
  have hread : ∀ path, ((diskWorld network).readDir path).Keeps id :=
    fun path => keeps_readDisk (fun d => d.readDir path)
  have hwalk : ∀ path, ((diskWorld network).walkDir path).Keeps id :=
    fun path => keeps_readDisk (fun d => d.walkDir path)
  have hfile : ∀ path, ((diskWorld network).isFile path).Keeps id :=
    fun path => keeps_readDisk (fun d => d.isFile path)
  unfold listScheme
  split
  · exact keeps_pure policies
  · refine ((hread _).mapError _).bind (fun hosts => ?_)
    refine keeps_foldlM (fun policies host => ?_) hosts policies
    refine ((hwalk _).mapError _).bind (fun entries => ?_)
    refine keeps_foldlM (fun policies rest => ?_) entries policies
    exact ((hfile _).mapError _).bind (fun _ => keeps_pure _)

theorem list_eq_ok {root : String} {policies : List FetchedPolicy} {w' : Disk × N}
    (h : (⟨root⟩ : Store).list (diskWorld network) (d, n) = (.ok policies, w')) :
    policies = [] ∨ ∃ location, d.locate root = some location ∧ d.nodeAt location = some .directory
      ∧ ∀ s ∈ knownRemoteSchemes, s ∈ d.children location →
        d.nodeAt (location ++ [s]) = some .directory := by
  obtain ⟨stored, _, hstored, h⟩ := bind_eq_ok.1 h
  obtain ⟨-, rfl⟩ := Prod.mk.inj (ask_eq_ok.1 hstored)
  cases stored with
  | false => exact .inl (pure_eq_ok.1 h).1.symm
  | true =>
    obtain ⟨schemes, w₁, hread, h⟩ := bind_eq_ok.1 h
    obtain ⟨hschemes, rfl⟩ := diskWorld_readDir_eq_ok.1 (mapError_eq_ok.1 hread)
    obtain ⟨location, hlocation, hroot, rfl⟩ := readDir_eq_ok.1 hschemes
    refine .inr ⟨location, hlocation, hroot, fun s hknown hs => ?_⟩
    obtain ⟨acc, w₁, acc', w₂, hw₁, hstep⟩ := exists_of_foldlM_ok (keeps_listScheme ⟨root⟩) h hs
    obtain rfl : w₁ = (d, n) := hw₁
    rw [listScheme, if_neg (not_not.2 hknown)] at hstep
    obtain ⟨hosts, _, hread, -⟩ := bind_eq_ok.1 hstep
    obtain ⟨hhosts, -⟩ := diskWorld_readDir_eq_ok.1 (mapError_eq_ok.1 hread)
    obtain ⟨l, hl, hdirectory, -⟩ := readDir_eq_ok.1 hhosts
    have hchild : d.locate (joinPath root s) = some (location ++ [s]) :=
      (locate_child hlocation hs).1
    obtain rfl := Option.some.inj (hchild.symm.trans hl)
    exact hdirectory

end
