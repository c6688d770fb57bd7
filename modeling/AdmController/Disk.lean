import AdmController.Paths
import AdmController.RustCollections

/-!
# A disk

Files and directories, without links. A disk carries the proof that it is a
tree and that its names are names. A path is followed segment by segment
(`locate`), along the directories only (`locate_congr`).
-/

open RustStr Paths AList List Option

inductive DiskNode where
  | directory
  | file (contents : List UInt8)
deriving DecidableEq

def DiskNode.isFile : DiskNode → Bool
  | .directory => false
  | .file _ => true

def Paths.IsName (s : String) : Prop := isComponent s = true ∧ s ≠ ".." ∧ contains s '/' = false

instance (s : String) : Decidable (IsName s) := inferInstanceAs (Decidable (_ ∧ _ ∧ _))

def nodeIn (nodes : HashMap (List String) DiskNode) (location : List String) : Option DiskNode :=
  if location = [] then some .directory else nodes.lookup location

/-- **A disk**: what is stored, and where relative paths begin. -/
structure Disk where
  nodes : HashMap (List String) DiskNode
  workingDirectory : List String
  names : ∀ location ∈ nodes, ∀ s ∈ location, IsName s
  parents : ∀ location s, location ++ [s] ∈ nodes → nodeIn nodes location = some .directory

namespace Disk

variable (d : Disk) (location : List String)

def nodeAt : Option DiskNode := nodeIn d.nodes location

def empty : Disk where
  nodes := ∅
  workingDirectory := []
  names := fun _ h => absurd h (notMem_empty _)
  parents := fun _ _ h => absurd h (notMem_empty _)

/-! ## Following paths -/

def move (segment : String) : List String :=
  if !isComponent segment then location
  else if segment = ".." then location.dropLast
  else location ++ [segment]

def step (segment : String) : Option (List String) :=
  if d.nodeAt location = some .directory then some (move location segment)
  else none

def resolve (segments : List String) : Option (List String) := segments.foldlM d.step location

def start (path : String) : List String := if isAbsolute path then [] else d.workingDirectory

def locate (path : String) : Option (List String) :=
  if path = "" then none else d.resolve (d.start path) (segments path)

def find (path : String) : Option DiskNode := (d.locate path).bind d.nodeAt

/-! ## Changing the disk -/

/-- A place in a directory, with a name, that is no directory itself. -/
def CanHold : Prop :=
  location ≠ [] ∧ d.nodeAt location.dropLast = some .directory ∧ (∀ s ∈ location, IsName s)
    ∧ d.nodeAt location ≠ some .directory

instance (d : Disk) (location : List String) : Decidable (d.CanHold location) :=
  inferInstanceAs (Decidable (_ ∧ _ ∧ _ ∧ _))

variable {location : List String}

theorem nodeIn_insert {nodes : HashMap (List String) DiskNode}
    (hne : location ≠ []) (node : DiskNode) (l : List String) :
    nodeIn (nodes.insert location node) l = if l = location then some node else nodeIn nodes l := by
  unfold nodeIn
  by_cases h : l = location
  · rw [h, if_neg hne, if_pos rfl, lookup_insert]
  · rw [if_neg h, lookup_insert_ne h]

variable (d : Disk)

def put (location : List String) (node : DiskNode) (h : d.CanHold location) : Disk where
  nodes := d.nodes.insert location node
  workingDirectory := d.workingDirectory
  names := by
    intro l hl
    rcases (mem_insert _).1 hl with rfl | hl
    · exact h.2.2.1
    · exact d.names l hl
  parents := by
    intro l s hl
    rw [nodeIn_insert h.1]
    have hparent : nodeIn d.nodes l = some .directory := by
      rcases (mem_insert _).1 hl with hl | hl
      · have hdirectory := h.2.1
        rwa [← hl, dropLast_concat] at hdirectory
      · exact d.parents l s hl
    have hne : l ≠ location := by
      rintro rfl
      exact h.2.2.2 hparent
    rw [if_neg hne, hparent]

variable {node : DiskNode}

theorem nodeAt_put {d : Disk} (h : d.CanHold location) (l : List String) :
    (d.put location node h).nodeAt l = if l = location then some node else d.nodeAt l :=
  nodeIn_insert h.1 node l

variable (path : String)

def write (contents : List UInt8) : Except String Disk :=
  match d.locate path with
  | none => .error "No such file or directory"
  | some location =>
    if h : d.CanHold location then .ok (d.put location (.file contents) h)
    else .error "Is a directory"

def enterOrMake (s : Disk × List String) (segment : String) : Except String (Disk × List String) :=
  match s.1.step s.2 segment with
  | none => .error "Not a directory"
  | some location =>
    match s.1.nodeAt location with
    | some .directory => .ok (s.1, location)
    | some (.file _) => .error "File exists"
    | none =>
      if h : s.1.CanHold location then .ok (s.1.put location .directory h, location)
      else .error "No such file or directory"

def createDirAll : Except String Disk :=
  ((segments path).foldlM enterOrMake (d, d.start path)).map Prod.fst

/-! ## Reading directories -/

def children (location : List String) : List String :=
  d.nodes.keys.filterMap (fun l =>
    if l.dropLast = location then l.getLast? else none)

def below (location : List String) : List (List String) :=
  d.nodes.keys.filterMap (fun l =>
    if location <+: l then some (l.drop location.length) else none)

def readDir : Except String (List String) :=
  match d.locate path with
  | none => .error "No such file or directory"
  | some location =>
    match d.nodeAt location with
    | some .directory => .ok (d.children location)
    | some (.file _) => .error "Not a directory"
    | none => .error "No such file or directory"

def walkDir : Except String (List (List String)) :=
  match d.locate path with
  | none => .error "No such file or directory"
  | some location =>
    if d.nodeAt location = none then .error "No such file or directory"
    else .ok (d.below location)

def isFile : Except String Bool :=
  match d.find path with
  | some (.file _) => .ok true
  | some .directory => .ok false
  | none => .error "No such file or directory"

def readFile : Except String (List UInt8) :=
  match d.find path with
  | some (.file contents) => .ok contents
  | some .directory => .error "Is a directory"
  | none => .error "No such file or directory"

variable {d d' : Disk}

/-! ## The tree -/

theorem exists_nodeAt_iff (hne : location ≠ []) :
    (∃ node, d.nodeAt location = some node) ↔ location ∈ d.nodes := by
  unfold nodeAt nodeIn
  rw [if_neg hne, ← isSome_iff_exists, lookup_isSome]

theorem nodeAt_eq_directory {rest : List String}
    (h : d.nodeAt (location ++ rest) = some node) (hne : rest ≠ []) :
    d.nodeAt location = some .directory := by
  induction rest using reverseRecOn generalizing node with
  | nil => exact absurd rfl hne
  | append_singleton rest s ih =>
    rw [← append_assoc] at h
    have hmem := (exists_nodeAt_iff (by simp)).1 ⟨node, h⟩
    have hparent : d.nodeAt (location ++ rest) = some .directory := d.parents _ s hmem
    by_cases hrest : rest = []
    · rwa [hrest, append_nil] at hparent
    · exact ih hparent hrest

variable {s : String}

theorem mem_children : s ∈ d.children location ↔ location ++ [s] ∈ d.nodes := by
  unfold children
  rw [mem_filterMap]
  constructor
  · rintro ⟨l, hl, hs⟩
    rw [ite_none_right_eq_some] at hs
    obtain ⟨rfl, hlast⟩ := hs
    rw [dropLast_append_getLast? s hlast]
    exact mem_keys.2 hl
  · intro h
    exact ⟨location ++ [s], mem_keys.1 h, by simp⟩

theorem mem_below {rest : List String} : rest ∈ d.below location ↔ location ++ rest ∈ d.nodes := by
  unfold below
  rw [mem_filterMap]
  constructor
  · rintro ⟨l, hl, hrest⟩
    rw [ite_none_right_eq_some] at hrest
    obtain ⟨⟨m, rfl⟩, hrest⟩ := hrest
    rw [drop_left, some.injEq] at hrest
    rw [← hrest]
    exact mem_keys.2 hl
  · intro h
    refine ⟨location ++ rest, mem_keys.1 h, ?_⟩
    rw [if_pos (prefix_append _ _), drop_left]

variable {path : String}

/-! ## What is read -/

theorem readDir_eq_ok {names : List String} : d.readDir path = .ok names
    ↔ ∃ location, d.locate path = some location ∧ d.nodeAt location = some .directory
      ∧ d.children location = names := by
  unfold readDir
  cases d.locate path with
  | none => simp
  | some location =>
    simp only [some.injEq, exists_eq_left']
    cases h : d.nodeAt location with
    | none => simp
    | some node =>
      cases node with
      | directory => simp
      | file contents => simp

theorem walkDir_of_locate (h : d.locate path = some location)
    (hnode : d.nodeAt location = some node) :
    d.walkDir path = .ok (d.below location) := by
  unfold walkDir
  rw [h]
  simp only [hnode]
  rfl

theorem isFile_of_locate (h : d.locate path = some location)
    (hnode : d.nodeAt location = some node) :
    d.isFile path = .ok node.isFile := by
  unfold isFile find
  rw [h, bind_some, hnode]
  cases node with
  | directory => rfl
  | file contents => rfl

/-! ## Where paths lead to -/

theorem resolve_append (location a b : List String) : d.resolve location (a ++ b)
    = (d.resolve location a).bind (fun l => d.resolve l b) :=
  foldlM_append

theorem resolve_of_nodeAt_ne {segments : List String}
    (h : d.nodeAt location ≠ some .directory) (hne : segments ≠ []) :
    d.resolve location segments = none := by
  cases segments with
  | nil => exact absurd rfl hne
  | cons s rest =>
    show (d.step location s).bind _ = none
    rw [step, if_neg h]
    rfl

theorem resolve_name (h : d.nodeAt location = some .directory) (hs : IsName s) :
    d.resolve location [s] = some (location ++ [s]) := by
  show (d.step location s).bind _ = _
  rw [step, if_pos h, move, hs.1, if_neg (by simp), if_neg hs.2.1]
  rfl

theorem resolve_of_not_mem {location' segments : List String}
    (hdots : ".." ∉ segments) (h : d.resolve location segments = some location') :
    location' = location ++ segments.filter isComponent := by
  induction segments generalizing location with
  | nil =>
    obtain rfl := some.inj h
    simp
  | cons s rest ih =>
    obtain ⟨l, hl, hrest⟩ := bind_eq_some_iff.1
      (show (d.step location s).bind (fun l => d.resolve l rest) = some location' from h)
    have hs : s ≠ ".." := fun hs => hdots (hs ▸ mem_cons_self)
    rw [step, ite_none_right_eq_some, some.injEq] at hl
    rw [ih (fun hmem => hdots (mem_cons_of_mem s hmem)) hrest, ← hl.2, move, if_neg hs]
    cases hcomponent : isComponent s with
    | true => simp [hcomponent]
    | false => simp [hcomponent]

/-- **A joined path leads on** from where the first path leads to. -/
theorem locate_joinPath {a b : String} (ha : a ≠ "") (hb : isAbsolute b = false) :
    d.locate (joinPath a b) = (d.locate a).bind (fun l => d.resolve l (segments b)) := by
  have hsplit : ∀ x y : String, segments (x ++ "/" ++ y) = segments x ++ segments y :=
    fun x y => split_append x y '/'
  have hstart : d.start (joinPath a b) = d.start a := by
    unfold start
    rw [isAbsolute_joinPath hb]
  unfold locate
  rw [hstart, if_neg ha]
  rcases joinPath_cases (a := a) hb with ⟨h, -⟩ | ⟨a', ha', h⟩ | ⟨-, h⟩
  · exact absurd h ha
  · have hsegments : segments a = segments a' ++ [""] := by
      have hempty := hsplit a' ""
      rwa [String.append_empty, ← ha'] at hempty
    rw [h, if_neg (by simp), hsplit, hsegments, resolve_append, resolve_append, bind_assoc]
    -- a final slash asks for a directory, as the next segment does
    refine bind_congr (fun l _ => ?_)
    by_cases hl : d.nodeAt l = some .directory
    · have hstay : d.resolve l [""] = some l := by
        show (d.step l "").bind _ = _
        rw [step, if_pos hl]
        rfl
      rw [hstay, bind_some]
    · have hne : segments b ≠ [] := split_ne_nil b '/'
      rw [resolve_of_nodeAt_ne hl hne, resolve_of_nodeAt_ne hl (by simp), bind_none]
  · rw [h, if_neg (by simp), hsplit, resolve_append]

variable {p : String}

theorem ne_empty_of_locate (h : d.locate p = some location) : p ≠ "" := by
  rintro rfl
  cases h

theorem locate_joinPath_name (hlocation : d.locate p = some location)
    (hdirectory : d.nodeAt location = some .directory) (hs : IsName s) :
    d.locate (joinPath p s) = some (location ++ [s]) := by
  rw [locate_joinPath (ne_empty_of_locate hlocation)
    (isAbsolute_of_not_contains hs.2.2), hlocation, bind_some,
    segments_of_not_contains hs.2.2, resolve_name hdirectory hs]

theorem find_joinPath (hlocation : d.locate p = some location)
    (hdirectory : d.nodeAt location = some .directory) (hs : IsName s) :
    d.find (joinPath p s) = d.nodeAt (location ++ [s]) := by
  rw [find, locate_joinPath_name hlocation hdirectory hs, bind_some]

theorem locate_child (hlocation : d.locate p = some location) (hs : s ∈ d.children location) :
    d.locate (joinPath p s) = some (location ++ [s])
      ∧ ∃ node, d.nodeAt (location ++ [s]) = some node := by
  have hmem := mem_children.1 hs
  have hname : IsName s := d.names _ hmem s (by simp)
  exact ⟨locate_joinPath_name hlocation (d.parents _ s hmem) hname,
    (exists_nodeAt_iff (by simp)).2 hmem⟩

/-- **Names lead to what is stored** below the place of a path. -/
theorem locate_foldl_joinPath {names : List String} (hlocation : d.locate p = some location)
    (hnames : ∀ s ∈ names, IsName s) (h : d.nodeAt (location ++ names) = some node) :
    d.locate (names.foldl joinPath p) = some (location ++ names) := by
  induction names generalizing p location with
  | nil => simp [hlocation]
  | cons s names ih =>
    have hdirectory := nodeAt_eq_directory h (by simp)
    have hjoin := locate_joinPath_name hlocation hdirectory (hnames s mem_cons_self)
    have hrest := ih hjoin (fun t ht => hnames t (mem_cons_of_mem s ht)) (by simpa using h)
    simpa using hrest

theorem locate_congr
    (hdirectories : ∀ l, d'.nodeAt l = some .directory ↔ d.nodeAt l = some .directory)
    (hworking : d'.workingDirectory = d.workingDirectory) (path : String) :
    d'.locate path = d.locate path := by
  have hstep : d'.step = d.step := by
    funext l s
    unfold step
    simp only [hdirectories]
  unfold locate resolve start
  rw [hstep, hworking]

/-! ## Writing files -/

theorem write_eq_ok {contents : List UInt8} (h : d.write path contents = .ok d') :
    d'.workingDirectory = d.workingDirectory ∧ ∃ location, d.locate path = some location
      ∧ d.nodeAt location ≠ some .directory
      ∧ ∀ l, d'.nodeAt l = if l = location then some (.file contents) else d.nodeAt l := by
  unfold write at h
  split at h
  · cases h
  · next location hlocation =>
    split at h
    · next hhold =>
      obtain rfl := Except.ok.inj h
      exact ⟨rfl, location, hlocation, hhold.2.2.2, nodeAt_put hhold⟩
    · cases h

/-- **A path that was found or written**, with nothing changed elsewhere. -/
structure Obtained (d : Disk) (path : String) (d' : Disk) : Prop where
  workingDirectory : d'.workingDirectory = d.workingDirectory
  directories : ∀ l, d'.nodeAt l = some .directory ↔ d.nodeAt l = some .directory
  there : ∃ location node, d.locate path = some location ∧ d'.nodeAt location = some node
    ∧ ∀ l, l ≠ location → d'.nodeAt l = d.nodeAt l

theorem obtained_of_find (h : (d.find path).isSome = true) : d.Obtained path d where
  workingDirectory := rfl
  directories := fun _ => Iff.rfl
  there := by
    obtain ⟨node, hnode⟩ := isSome_iff_exists.1 h
    obtain ⟨location, hlocation, hnode⟩ := bind_eq_some_iff.1 hnode
    exact ⟨location, node, hlocation, hnode, fun _ _ => rfl⟩

theorem obtained_of_write {contents : List UInt8}
    (h : d.write path contents = .ok d') : d.Obtained path d' := by
  obtain ⟨hworking, location, hlocation, hnot, hnodes⟩ := write_eq_ok h
  refine ⟨hworking, fun l => ?_, location, .file contents, hlocation, ?_, ?_⟩
  · rw [hnodes]
    by_cases hl : l = location
    · rw [if_pos hl, hl]
      exact iff_of_false (by simp) hnot
    · rw [if_neg hl]
  · rw [hnodes, if_pos rfl]
  · intro l hl
    rw [hnodes, if_neg hl]

namespace Obtained

variable {path : String} (h : d.Obtained path d')

include h

theorem locate_eq (p : String) : d'.locate p = d.locate p :=
  locate_congr h.directories h.workingDirectory p

theorem nodeAt_eq {location l : List String}
    (hlocation : d.locate path = some location) (hl : l ≠ location) :
    d'.nodeAt l = d.nodeAt l := by
  obtain ⟨place, node, hplace, -, helse⟩ := h.there
  obtain rfl := some.inj (hplace.symm.trans hlocation)
  exact helse l hl

theorem exists_file_iff {location : List String} (hlocation : d.locate path = some location) :
    (∃ contents, d'.nodeAt location = some (.file contents)) ↔ d.find path ≠ some .directory := by
  obtain ⟨place, node, hplace, hnode, -⟩ := h.there
  obtain rfl := some.inj (hplace.symm.trans hlocation)
  rw [find, hplace, bind_some, Ne, ← h.directories, hnode]
  cases node with
  | directory => simp
  | file contents => simp

end Obtained

end Disk
