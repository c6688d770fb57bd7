import Mathlib.Data.Fintype.EquivFin
import AdmController.RustStr

/-!
# Field masks

A policy may ask for some fields of resources, by dot-separated paths. A node
without children keeps everything, until another path goes on below it.
-/

open RustStr List

inductive Json where
  | null
  | bool (b : Bool)
  | number (repr : String)
  | string (s : String)
  | array (items : List Json)
  | object (entries : List (String × Json))

/-! ## The tree of masks -/

inductive FieldMaskNode where
  | mk (children : List (String × FieldMaskNode))

namespace FieldMaskNode

def children : FieldMaskNode → List (String × FieldMaskNode)
  | mk cs => cs

def leaf : FieldMaskNode := mk []

def child (n : FieldMaskNode) (key : String) : Option FieldMaskNode := n.children.lookup key

def setChild (key : String) (c : FieldMaskNode) :
    List (String × FieldMaskNode) → List (String × FieldMaskNode)
  | [] => [(key, c)]
  | (key', c') :: rest =>
    if key' = key then (key, c) :: rest
    else (key', c') :: setChild key c rest

def insertParts (n : FieldMaskNode) : List String → FieldMaskNode
  | [] => n
  | part :: rest => mk (setChild part (((n.child part).getD leaf).insertParts rest) n.children)

def insert (n : FieldMaskNode) (path : String) : FieldMaskNode := n.insertParts (split path '.')

def new (paths : List String) : FieldMaskNode := paths.foldl insert leaf

def follow (n : FieldMaskNode) : List String → Option FieldMaskNode
  | [] => some n
  | part :: rest => (n.child part).bind fun c => c.follow rest

end FieldMaskNode

/-! ## Pruning -/

mutual

def pruneInPlace (n : FieldMaskNode) : Json → Json
  | .object entries =>
    if n.children.isEmpty then .object entries
    else .object (pruneEntries n entries)
  | .array items =>
    if n.children.isEmpty then .array items
    else .array (pruneItems n items)
  | .null => .null
  | .bool b => .bool b
  | .number r => .number r
  | .string s => .string s

def pruneItems (n : FieldMaskNode) : List Json → List Json
  | [] => []
  | v :: rest => pruneInPlace n v :: pruneItems n rest

def pruneEntries (n : FieldMaskNode) : List (String × Json) → List (String × Json)
  | [] => []
  | (key, v) :: rest =>
    match n.child key with
    | some c => (key, pruneInPlace c v) :: pruneEntries n rest
    | none => pruneEntries n rest

end

/-! ## Positions -/

/-- A step into a value: to a key of an object, or an item of an array. -/
inductive JsonStep where
  | key (k : String)
  | item (i : ℕ)
deriving DecidableEq

def fieldPath : List JsonStep → List String
  | [] => []
  | .key k :: rest => k :: fieldPath rest
  | .item _ :: rest => fieldPath rest

def Json.at (v : Json) : List JsonStep → Option Json
  | [] => some v
  | .key k :: rest =>
    match v with
    | .object entries => (entries.lookup k).bind fun u => u.at rest
    | _ => none
  | .item i :: rest =>
    match v with
    | .array items => (items[i]?).bind fun u => u.at rest
    | _ => none

example : pruneInPlace (.new ["a.b", "d"])
    (.object [("a", .object [("b", .null), ("c", .null)]), ("d", .null), ("e", .null)])
    = .object [("a", .object [("b", .null)]), ("d", .null)] := by
  rfl

namespace FieldMaskNode

/-! ## What is in the tree -/

theorem lookup_setChild (key : String) (c : FieldMaskNode) (k : String) :
    ∀ cs : List (String × FieldMaskNode), (setChild key c cs).lookup k
      = if k = key then some c else cs.lookup k
  | [] => by
    by_cases h : k = key
    · simp [setChild, h]
    · simp [setChild, lookup_cons, h, beq_false_of_ne h]
  | (key', c') :: rest => by
    by_cases hkey : key' = key
    · subst hkey
      by_cases h : k = key'
      · simp [setChild, h]
      · simp [setChild, lookup_cons, h, beq_false_of_ne h]
    · by_cases h : k = key'
      · subst h
        simp [setChild, hkey]
      · simp [setChild, hkey, lookup_cons, beq_false_of_ne h, lookup_setChild key c k rest]

theorem child_insertParts_cons (n : FieldMaskNode) (part : String)
    (rest : List String) (k : String) :
    (n.insertParts (part :: rest)).child k
      = if k = part then some (((n.child part).getD leaf).insertParts rest) else n.child k :=
  lookup_setChild ..

variable {path : List String}

theorem isSome_follow_leaf : (leaf.follow path).isSome = true ↔ path = [] := by
  cases path with
  | nil => simp [follow]
  | cons part rest => simp [follow, child, leaf, children]

theorem isSome_follow_insertParts {parts : List String} :
    ∀ {n : FieldMaskNode} {path : List String}, ((n.insertParts parts).follow path).isSome = true
      ↔ (n.follow path).isSome = true ∨ path <+: parts := by
  induction parts with
  | nil =>
    intro n path
    rw [insertParts, prefix_nil]
    exact ⟨.inl, fun h => h.elim id fun hnil => by rw [hnil]; rfl⟩
  | cons part parts ih =>
    intro n path
    cases path with
    | nil => simp [follow]
    | cons k path =>
      simp only [follow, child_insertParts_cons, cons_prefix_cons]
      by_cases hk : k = part
      · subst hk
        rw [if_pos rfl, Option.bind_some, ih]
        cases n.child k with
        | some c => simp
        | none =>
          simp only [Option.getD_none, isSome_follow_leaf, Option.bind_none,
            Option.isSome_none, Bool.false_eq_true, false_or, true_and]
          exact ⟨fun h => h.elim (fun hnil => hnil ▸ nil_prefix) id, .inr⟩
      · rw [if_neg hk]
        simp [hk]

variable {paths : List String}

theorem isSome_follow_foldl : ∀ {n : FieldMaskNode} {path : List String},
    ((paths.foldl insert n).follow path).isSome = true ↔ (n.follow path).isSome = true
      ∨ ∃ m ∈ paths, path <+: split m '.' := by
  induction paths with
  | nil => intro n path; simp
  | cons m paths ih =>
    intro n path
    rw [foldl_cons, ih, insert, isSome_follow_insertParts, or_assoc, exists_mem_cons_iff]

theorem isSome_follow_new : ((new paths).follow path).isSome = true
    ↔ path = [] ∨ ∃ m ∈ paths, path <+: split m '.' := by
  rw [new, isSome_follow_foldl, isSome_follow_leaf]

theorem follow_concat {k : String} : ∀ {n : FieldMaskNode}, n.follow (path ++ [k])
    = (n.follow path).bind fun c => c.child k := by
  induction path with
  | nil => intro n; simp [follow]
  | cons part path ih =>
    intro n
    simp only [cons_append, follow, Option.bind_assoc]
    exact congrArg _ (funext fun c => ih)

theorem isEmpty_children_iff {n : FieldMaskNode} :
    n.children.isEmpty = true ↔ ∀ k, n.child k = none := by
  unfold child
  cases n.children with
  | nil => simp
  | cons c cs =>
    refine iff_of_false (by simp) fun h => ?_
    have hself := h c.1
    simp at hself

theorem isEmpty_follow_new {c : FieldMaskNode} (h : (new paths).follow path = some c) :
    c.children.isEmpty = true ↔ ∀ k, ∀ m ∈ paths, ¬ path ++ [k] <+: split m '.' := by
  rw [isEmpty_children_iff]
  refine forall_congr' fun k => ?_
  have hchild : (new paths).follow (path ++ [k]) = c.child k := by
    rw [follow_concat, h, Option.bind_some]
  have hsome : (c.child k).isSome = true ↔ path ++ [k] = []
      ∨ ∃ m ∈ paths, path ++ [k] <+: split m '.' := by
    rw [← hchild]
    exact isSome_follow_new
  have hne : path ++ [k] ≠ [] := by simp
  rw [← Option.not_isSome_iff_eq_none, hsome]
  simp [hne]

end FieldMaskNode

open FieldMaskNode

/-! ## Pruning, position by position -/

theorem pruneInPlace_of_isEmpty {n : FieldMaskNode}
    (h : n.children.isEmpty = true) (v : Json) : pruneInPlace n v = v := by
  cases v <;> simp [pruneInPlace, h]

theorem getElem?_pruneItems (n : FieldMaskNode) : ∀ (items : List Json) (i : ℕ),
      (pruneItems n items)[i]? = (items[i]?).map (pruneInPlace n)
  | [], i => by simp [pruneItems]
  | v :: rest, 0 => by simp [pruneItems]
  | v :: rest, i + 1 => by simp [pruneItems, getElem?_pruneItems n rest i]

theorem lookup_pruneEntries (n : FieldMaskNode) (k : String) :
    ∀ entries : List (String × Json), (pruneEntries n entries).lookup k
      = (n.child k).bind fun c => (entries.lookup k).map (pruneInPlace c)
  | [] => by cases n.child k <;> simp [pruneEntries]
  | (key, v) :: rest => by
    have ih := lookup_pruneEntries n k rest
    by_cases h : k = key
    · subst h
      cases hchild : n.child k with
      | none =>
        rw [hchild] at ih
        simpa [pruneEntries, hchild] using ih
      | some c => simp [pruneEntries, hchild]
    · cases hchild : n.child key with
      | none => simp [pruneEntries, hchild, lookup_cons, beq_false_of_ne h, ih]
      | some c => simp [pruneEntries, hchild, lookup_cons, beq_false_of_ne h, ih]

theorem at_key_pruneInPlace {n : FieldMaskNode} (hn : n.children.isEmpty = false) (v : Json)
    (k : String) (rest : List JsonStep) :
    (pruneInPlace n v).at (.key k :: rest) = (n.child k).bind fun c => (v.at [.key k]).bind fun u =>
        (pruneInPlace c u).at rest := by
  cases v with
  | object entries =>
    simp only [pruneInPlace, hn, Bool.false_eq_true, if_false, Json.at, lookup_pruneEntries]
    cases n.child k with
    | none => rfl
    | some c => cases entries.lookup k <;> rfl
  | _ =>
    simp only [pruneInPlace, hn, Bool.false_eq_true, if_false, Json.at,
      Option.bind_none, Option.bind_fun_none]

theorem at_item_pruneInPlace (n : FieldMaskNode) (v : Json) (i : ℕ) (rest : List JsonStep) :
    (pruneInPlace n v).at (.item i :: rest)
      = (v.at [.item i]).bind fun u => (pruneInPlace n u).at rest := by
  cases hn : n.children.isEmpty with
  | true =>
    simp only [pruneInPlace_of_isEmpty hn]
    cases v with
    | array items =>
      simp only [Json.at]
      cases items[i]? <;> rfl
    | _ => rfl
  | false =>
    cases v with
    | array items =>
      simp only [pruneInPlace, hn, Bool.false_eq_true, if_false, Json.at, getElem?_pruneItems]
      cases items[i]? <;> rfl
    | _ => simp only [pruneInPlace, hn, Bool.false_eq_true, if_false, Json.at, Option.bind_none]

theorem Json.at_cons (v : Json) (step : JsonStep) (rest : List JsonStep) :
    v.at (step :: rest) = (v.at [step]).bind fun u => u.at rest := by
  cases step with
  | key k =>
    cases v with
    | object entries =>
      simp only [Json.at]
      cases entries.lookup k <;> rfl
    | _ => rfl
  | item i =>
    cases v with
    | array items =>
      simp only [Json.at]
      cases items[i]? <;> rfl
    | _ => rfl

variable {pos : List JsonStep}

theorem Json.at_append : ∀ {v : Json} {pos' : List JsonStep},
    v.at (pos ++ pos') = (v.at pos).bind fun u => u.at pos' := by
  induction pos with
  | nil => intro v pos'; simp [Json.at]
  | cons step pos ih =>
    intro v pos'
    rw [cons_append, Json.at_cons, Json.at_cons v step pos, Option.bind_assoc]
    exact congrArg _ (funext fun u => ih)

theorem at_pruneInPlace_of_follow : ∀ {n c : FieldMaskNode} {v u : Json},
    n.follow (fieldPath pos) = some c → c.children.isEmpty = true →
    v.at pos = some u → (pruneInPlace n v).at pos = some u := by
  induction pos with
  | nil =>
    intro n c v u hfollow hc hu
    obtain rfl := Option.some.inj hfollow
    rwa [pruneInPlace_of_isEmpty hc]
  | cons step pos ih =>
    intro n c v u hfollow hc hu
    cases hn : n.children.isEmpty with
    | true => rwa [pruneInPlace_of_isEmpty hn]
    | false =>
      rw [Json.at_cons] at hu
      obtain ⟨w, hw, hbelow⟩ := Option.bind_eq_some_iff.1 hu
      cases step with
      | key k =>
        obtain ⟨c', hchild, hfollow⟩ := Option.bind_eq_some_iff.1 hfollow
        rw [at_key_pruneInPlace hn, hchild, Option.bind_some, hw, Option.bind_some]
        exact ih hfollow hc hbelow
      | item i =>
        rw [at_item_pruneInPlace, hw, Option.bind_some]
        exact ih hfollow hc hbelow

theorem exists_of_at_pruneInPlace : ∀ {n : FieldMaskNode} {v u : Json},
    (pruneInPlace n v).at pos = some u → (n.follow (fieldPath pos)).isSome = true
      ∨ ∃ path c, path <+: fieldPath pos ∧ n.follow path = some c ∧ c.children.isEmpty = true := by
  induction pos with
  | nil => intro n v u _; exact .inl rfl
  | cons step pos ih =>
    intro n v u hu
    cases hn : n.children.isEmpty with
    | true => exact .inr ⟨[], n, nil_prefix, rfl, hn⟩
    | false =>
      cases step with
      | key k =>
        rw [at_key_pruneInPlace hn] at hu
        obtain ⟨c, hchild, hu⟩ := Option.bind_eq_some_iff.1 hu
        obtain ⟨w, -, hu⟩ := Option.bind_eq_some_iff.1 hu
        have hstep : ∀ path, n.follow (k :: path) = c.follow path := by
          intro path
          rw [follow, hchild, Option.bind_some]
        rcases ih hu with hsome | ⟨path, c', hpath, hfollow, hc'⟩
        · exact .inl (by rw [fieldPath, hstep]; exact hsome)
        · exact .inr ⟨k :: path, c', cons_prefix_cons.2 ⟨rfl, hpath⟩,
            (hstep path).trans hfollow, hc'⟩
      | item i =>
        rw [at_item_pruneInPlace] at hu
        obtain ⟨w, -, hu⟩ := Option.bind_eq_some_iff.1 hu
        exact ih hu

theorem at_pruneInPlace_eq_none {k : String} :
    ∀ {n c : FieldMaskNode} {v : Json}, n.follow (fieldPath pos) = some c →
      c.children.isEmpty = false → c.child k = none →
      (pruneInPlace n v).at (pos ++ [.key k]) = none := by
  induction pos with
  | nil =>
    intro n c v hfollow hc hchild
    obtain rfl := Option.some.inj hfollow
    rw [nil_append, at_key_pruneInPlace hc, hchild, Option.bind_none]
  | cons step pos ih =>
    intro n c v hfollow hc hchild
    rw [cons_append]
    cases step with
    | key key =>
      obtain ⟨c', hc', hfollow⟩ := Option.bind_eq_some_iff.1 hfollow
      have hn : n.children.isEmpty = false := by
        by_contra hn
        rw [isEmpty_children_iff.1 (Bool.eq_true_of_not_eq_false hn)] at hc'
        exact absurd hc' (by simp)
      rw [at_key_pruneInPlace hn, hc', Option.bind_some]
      cases v.at [.key key] with
      | none => rfl
      | some u => exact ih hfollow hc hchild
    | item i =>
      rw [at_item_pruneInPlace]
      cases v.at [.item i] with
      | none => rfl
      | some u => exact ih hfollow hc hchild

/-! ## What the masks ask for -/

def listedPaths (masks : List String) : List (List String) := masks.map fun m => split m '.'

/-- Every value reached by a listed path stays, as a whole. -/
def KeepsListed (masks : List String) (v : Json) : Prop :=
  ∀ pos u, fieldPath pos ∈ listedPaths masks → v.at pos = some u →
    (pruneInPlace (.new masks) v).at pos = some u

def RemovesOthers (masks : List String) (v : Json) : Prop :=
  ∀ pos k u, (pruneInPlace (.new masks) v).at (pos ++ [.key k]) = some u →
    ∃ path ∈ listedPaths masks, fieldPath (pos ++ [.key k]) <+: path
      ∨ path <+: fieldPath (pos ++ [.key k])

/-- **No mask continues another**: neither path begins with the other. -/
def NoneContinues (masks : List String) : Prop :=
  ∀ path ∈ listedPaths masks, ∀ path' ∈ listedPaths masks, path <+: path' → path = path'

section

variable {masks : List String} {path : List String}

theorem exists_listedPaths : (∃ m ∈ masks, path <+: split m '.')
    ↔ ∃ path' ∈ listedPaths masks, path <+: path' := by
  simp [listedPaths]

theorem exists_concat_prefix {path' : List String} (h : path <+: path') (hne : path ≠ path') :
    ∃ k, path ++ [k] <+: path' := by
  obtain ⟨rest, rfl⟩ := h
  cases rest with
  | nil => exact absurd (append_nil path).symm hne
  | cons k rest => exact ⟨k, rest, by simp⟩

theorem exists_isEmpty_of_listed (hnone : NoneContinues masks) (h : path ∈ listedPaths masks) :
    ∃ c, (new masks).follow path = some c ∧ c.children.isEmpty = true := by
  have hsome : ((new masks).follow path).isSome = true :=
    isSome_follow_new.2 (.inr (exists_listedPaths.2 ⟨path, h, prefix_refl path⟩))
  obtain ⟨c, hc⟩ := Option.isSome_iff_exists.1 hsome
  refine ⟨c, hc, (isEmpty_follow_new hc).2 fun k m hm hprefix => ?_⟩
  have hm' : split m '.' ∈ listedPaths masks := mem_map_of_mem hm
  have heq := hnone path h _ hm' ((prefix_append path [k]).trans hprefix)
  have hlength := hprefix.length_le
  rw [← heq, length_append, length_singleton] at hlength
  omega

theorem mem_listedPaths_of_isEmpty {c : FieldMaskNode} (hne : masks ≠ [])
    (hc : (new masks).follow path = some c)
    (hempty : c.children.isEmpty = true) : path ∈ listedPaths masks := by
  have hprefix : ∃ path' ∈ listedPaths masks, path <+: path' := by
    rcases isSome_follow_new.1 (Option.isSome_of_eq_some hc) with rfl | h
    · obtain ⟨m, hm⟩ := exists_mem_of_ne_nil masks hne
      exact ⟨_, mem_map_of_mem hm, nil_prefix⟩
    · exact exists_listedPaths.1 h
  obtain ⟨path', hpath', hprefix⟩ := hprefix
  by_cases heq : path = path'
  · rwa [heq]
  · -- otherwise a mask goes on here
    obtain ⟨k, hk⟩ := exists_concat_prefix hprefix heq
    obtain ⟨m, hm, rfl⟩ := mem_map.1 hpath'
    exact absurd hk ((isEmpty_follow_new hc).1 hempty k m hm)

def nest (inner : Json) : List String → Json
  | [] => inner
  | k :: rest => .object [(k, nest inner rest)]

theorem at_nest (inner : Json) : ∀ path : List String,
    (nest inner path).at (path.map .key) = some inner
  | [] => rfl
  | k :: rest => by simp [nest, Json.at, at_nest inner rest]

theorem fieldPath_map_key : ∀ path : List String, fieldPath (path.map .key) = path
  | [] => rfl
  | k :: rest => by rw [map_cons, fieldPath, fieldPath_map_key rest]

theorem child_eq_none_of_fresh {c : FieldMaskNode} (hc : (new masks).follow path = some c)
    {k : String} (hk : ∀ m ∈ masks, k ∉ split m '.') : c.child k = none := by
  rw [← Option.not_isSome_iff_eq_none]
  intro hchild
  have hfollow : ((new masks).follow (path ++ [k])).isSome = true := by
    rw [follow_concat, hc, Option.bind_some]
    exact hchild
  rcases isSome_follow_new.1 hfollow with hnil | ⟨m, hm, hmask⟩
  · exact absurd hnil (by simp)
  · exact hk m hm (hmask.subset (by simp))

theorem exists_fresh (masks : List String) : ∃ k, ∀ m ∈ masks, k ∉ split m '.' := by
  obtain ⟨k, hk⟩ := Infinite.exists_notMem_finset (masks.flatMap fun m => split m '.').toFinset
  refine ⟨k, fun m hm hmem => hk ?_⟩
  exact mem_toFinset.2 (mem_flatMap.2 ⟨m, hm, hmem⟩)

theorem keepsListed_iff : (∀ v, KeepsListed masks v) ↔ NoneContinues masks := by
  constructor
  · intro h path hpath path' hpath' hprefix
    by_contra hne
    obtain ⟨m', hm', rfl⟩ := mem_map.1 hpath'
    obtain ⟨k, hk⟩ := exists_concat_prefix hprefix hne
    obtain ⟨fresh, hfresh⟩ := exists_fresh masks
    have hsome : ((new masks).follow path).isSome = true :=
      isSome_follow_new.2 (.inr ⟨m', hm', hprefix⟩)
    obtain ⟨c, hc⟩ := Option.isSome_iff_exists.1 hsome
    have hnonempty : c.children.isEmpty = false := by
      by_contra hempty
      exact (isEmpty_follow_new hc).1 (Bool.eq_true_of_not_eq_false hempty) k m' hm' hk
    have hkeep := h (nest (.object [(fresh, .null)]) path) (path.map .key) _
      (by rwa [fieldPath_map_key]) (at_nest _ path)
    have hnone : (pruneInPlace (.new masks) (nest (.object [(fresh, .null)]) path)).at
          (path.map .key ++ [.key fresh]) = none :=
      at_pruneInPlace_eq_none (by rwa [fieldPath_map_key]) hnonempty
        (child_eq_none_of_fresh hc hfresh)
    rw [Json.at_append, hkeep] at hnone
    exact absurd hnone (by simp [Json.at])
  · intro hnone v pos u hlisted hu
    obtain ⟨c, hc, hempty⟩ := exists_isEmpty_of_listed hnone hlisted
    exact at_pruneInPlace_of_follow hc hempty hu

theorem removesOthers_iff : (∀ v, RemovesOthers masks v) ↔ masks ≠ [] := by
  constructor
  · rintro h rfl
    obtain ⟨path, hpath, -⟩ := h (.object [("x", .null)]) [] "x" .null rfl
    exact absurd hpath not_mem_nil
  · intro hne v pos k u hu
    rcases exists_of_at_pruneInPlace hu with
      hsome | ⟨path, c, hprefix, hc, hempty⟩
    · rcases isSome_follow_new.1 hsome with hnil | h
      · obtain ⟨m, hm⟩ := exists_mem_of_ne_nil masks hne
        exact ⟨_, mem_map_of_mem hm, .inl (hnil ▸ nil_prefix)⟩
      · obtain ⟨path, hpath, hprefix⟩ := exists_listedPaths.1 h
        exact ⟨path, hpath, .inl hprefix⟩
    · exact ⟨path, mem_listedPaths_of_isEmpty hne hc hempty, .inr hprefix⟩

end

/-- **Pruning does what the masks ask for** exactly when there are masks and
none of them continues another. -/
theorem prunes_as_asked_iff (masks : List String) :
    (∀ v, KeepsListed masks v ∧ RemovesOthers masks v) ↔ masks ≠ [] ∧ NoneContinues masks := by
  rw [forall_and, keepsListed_iff, removesOthers_iff, and_comm]

theorem new_metadata_name : FieldMaskNode.new ["metadata", "metadata.name"]
    = .mk [("metadata", .mk [("name", .leaf)])] := by
  have hfirst : split "metadata" '.' = ["metadata"] := split_of_not_contains (by decide)
  have hsecond : split "metadata.name" '.' = ["metadata", "name"] := by decide +kernel
  simp [FieldMaskNode.new, FieldMaskNode.insert, hfirst, hsecond,
    insertParts, setChild, child, children, leaf]

theorem name_mask_drops_labels : pruneInPlace (.new ["metadata", "metadata.name"])
        (.object [("metadata", .object [("labels", .null), ("name", .string "web")])])
        = .object [("metadata", .object [("name", .string "web")])]
      ∧ ¬ KeepsListed ["metadata", "metadata.name"] (.object [("metadata",
        .object [("labels", .null), ("name", .string "web")])]) := by
  have hpruned : pruneInPlace (.new ["metadata", "metadata.name"]) (.object [("metadata",
        .object [("labels", .null), ("name", .string "web")])])
      = .object [("metadata", .object [("name", .string "web")])] := by
    rw [new_metadata_name]
    simp [pruneInPlace, pruneEntries, child, children, leaf, lookup_cons]
  refine ⟨hpruned, fun h => ?_⟩
  have hlisted : fieldPath [.key "metadata"] ∈ listedPaths ["metadata", "metadata.name"] := by
    refine mem_map.2 ⟨"metadata", mem_cons_self, ?_⟩
    exact split_of_not_contains (by decide)
  have hkeep := h [.key "metadata"] (.object [("labels", .null), ("name", .string "web")]) hlisted
    (by simp [Json.at])
  rw [hpruned] at hkeep
  simp [Json.at] at hkeep
