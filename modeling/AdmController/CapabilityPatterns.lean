import Mathlib.Data.Finset.Union
import AdmController.HostCapabilities

/-!
# Which patterns are accepted

`HostCapabilities.new` checks the text of a pattern, and walks down the tree of
known operations up to the first wildcard segment: what stands between two of
them is never read (`new_singleton_isOk_iff`).
-/

open RustStr List

namespace CapabilityNode

/-! ## Paths in the tree -/

def descend : CapabilityNode → List String → Option CapabilityNode
  | n, [] => some n
  | .leaf, _ :: _ => none
  | .node children, part :: rest => (children.lookup part).bind (fun n => n.descend rest)

inductive Named (P : String → Prop) : CapabilityNode → Prop
  | leaf : Named P .leaf
  | node {children : List (String × CapabilityNode)} (names : ∀ c ∈ children, P c.1)
    (below : ∀ c ∈ children, Named P c.2) : Named P (.node children)

theorem Named.of_descend {P : String → Prop} {path : List String} :
    ∀ {n n' : CapabilityNode}, n.Named P → n.descend path = some n' → ∀ part ∈ path, P part := by
  induction path with
  | nil => intro n n' _ _ part hpart; exact absurd hpart not_mem_nil
  | cons name rest ih =>
    intro n n' hn h part hpart
    cases hn with
    | leaf => exact absurd h (by simp [descend])
    | node names below =>
      obtain ⟨child, hlookup, hrest⟩ := Option.bind_eq_some_iff.1 h
      obtain ⟨before, after, rfl, -⟩ := lookup_eq_some_iff.1 hlookup
      rcases mem_cons.1 hpart with rfl | hpart
      · exact names (part, child) (by simp)
      · exact ih (below (name, child) (by simp)) hrest part hpart

theorem Named.mono {P Q : String → Prop} {n : CapabilityNode}
    (h : n.Named P) (hPQ : ∀ s, P s → Q s) : n.Named Q := by
  induction h with
  | leaf => exact .leaf
  | node names below ih => exact .node (fun c hc => hPQ _ (names c hc)) (fun c hc => ih c hc)

def root : CapabilityNode := .node capabilityTree

def IsLeafPath (path : List String) : Prop := root.descend path = some .leaf

def IsInnerPath (path : List String) : Prop :=
  path ≠ [] ∧ ∃ children, root.descend path = some (.node children)

theorem root_named : root.Named (fun s => contains s '/' = false ∧ contains s '*' = false) := by
  unfold root capabilityTree
  repeat' first
    | exact .leaf
    | (refine .node ?_ ?_ <;> simp only [forall_mem_cons, not_mem_nil, false_imp_iff,
          implies_true, and_true])
    | refine ⟨?_, ?_⟩
    | decide

end CapabilityNode

namespace CapabilityNode

/-! ## The walk -/

/-- Segments down to an intermediate node, a wildcard, and whatever follows. -/
def Starred (n : CapabilityNode) (segments : List String) : Prop :=
  ∃ path rest children, segments = path ++ "*" :: rest ∧ n.descend path = some (.node children)

theorem starred_star (children : List (String × CapabilityNode))
    (rest : List String) : (node children).Starred ("*" :: rest) :=
  ⟨[], rest, children, rfl, rfl⟩

theorem starred_cons {children : List (String × CapabilityNode)}
    {part : String} {rest : List String} (h : part ≠ "*") :
    (node children).Starred (part :: rest)
      ↔ ∃ child, children.lookup part = some child ∧ child.Starred rest := by
  constructor
  · rintro ⟨path, rest', inner, heq, hpath⟩
    cases path with
    | nil => exact absurd (cons.inj heq).1 h
    | cons name path =>
      obtain ⟨rfl, hrest⟩ := cons.inj heq
      obtain ⟨child, hchild, hpath⟩ := Option.bind_eq_some_iff.1 hpath
      exact ⟨child, hchild, path, rest', inner, hrest, hpath⟩
  · rintro ⟨child, hchild, path, rest', inner, rfl, hpath⟩
    exact ⟨part :: path, rest', inner, rfl, Option.bind_eq_some_iff.2 ⟨child, hchild, hpath⟩⟩

theorem not_starred_nil (n : CapabilityNode) : ¬ n.Starred [] := by
  rintro ⟨path, rest, _, h, _⟩
  exact absurd h (by simp)

theorem not_starred_leaf (segments : List String) : ¬ leaf.Starred segments := by
  rintro ⟨path, rest, children, _, h⟩
  cases path <;> exact absurd h (by simp [descend])

end CapabilityNode

open CapabilityNode

section

variable {pattern part next : String} {rest : List String}
  {children inner : List (String × CapabilityNode)}

theorem validateSegments_star : validateSegments pattern children ("*" :: rest) = .ok () := by
  unfold validateSegments
  exact if_pos rfl

theorem validateSegments_none (h : part ≠ "*") (hlookup : children.lookup part = none) :
    validateSegments pattern children (part :: rest) = .error (.unknownSegment pattern part
      (String.intercalate ", " (children.map Prod.fst))) := by
  unfold validateSegments
  rw [if_neg h, hlookup]

theorem validateSegments_leaf_nil (h : part ≠ "*") (hlookup : children.lookup part = some .leaf) :
    validateSegments pattern children [part] = .ok () := by
  unfold validateSegments
  rw [if_neg h, hlookup]

theorem validateSegments_leaf_cons (h : part ≠ "*") (hlookup : children.lookup part = some .leaf) :
    validateSegments pattern children (part :: next :: rest)
      = .error (.unknownSegment pattern next "") := by
  unfold validateSegments
  rw [if_neg h, hlookup]

theorem validateSegments_node_nil (h : part ≠ "*")
    (hlookup : children.lookup part = some (.node inner)) :
    validateSegments pattern children [part]
      = .error (.incompleteCapabilityPath pattern (pattern ++ "/*")) := by
  unfold validateSegments
  rw [if_neg h, hlookup]

theorem validateSegments_node_cons (h : part ≠ "*")
    (hlookup : children.lookup part = some (.node inner)) :
    validateSegments pattern children (part :: next :: rest)
      = validateSegments pattern inner (next :: rest) := by
  rw [validateSegments, if_neg h, hlookup]

end

theorem validateSegments_eq_ok {pattern : String} {segments : List String} :
    ∀ {children : List (String × CapabilityNode)}, segments ≠ [] →
    (validateSegments pattern children segments = .ok ()
      ↔ (node children).descend segments = some .leaf ∨ (node children).Starred segments) := by
  induction segments with
  | nil => intro children hne; exact absurd rfl hne
  | cons part rest ih =>
    intro children _
    by_cases hstar : part = "*"
    · subst hstar
      exact iff_of_true validateSegments_star (.inr (starred_star _ _))
    rw [starred_cons hstar]
    show _ ↔ (children.lookup part).bind (fun n => n.descend rest) = some leaf ∨ _
    cases hlookup : children.lookup part with
    | none => simp [validateSegments_none hstar hlookup]
    | some child =>
      simp only [Option.bind_some, Option.some.injEq, exists_eq_left']
      cases child with
      | leaf =>
        cases rest with
        | nil => simp [validateSegments_leaf_nil hstar hlookup, descend]
        | cons next rest =>
          simp [validateSegments_leaf_cons hstar hlookup, descend, not_starred_leaf]
      | node inner =>
        cases rest with
        | nil => simp [validateSegments_node_nil hstar hlookup, descend, not_starred_nil]
        | cons next rest =>
          rw [validateSegments_node_cons hstar hlookup]
          exact ih (cons_ne_nil next rest)

namespace HostCapabilities

/-! ## One pattern -/

def Passes (pattern : String) : Prop :=
  trim pattern ≠ "" ∧ trim pattern ≠ "*" ∧ (contains (trim pattern) '*' = true →
    endsWith (trim pattern) "/*" = true)
    ∧ validateAgainstTree (trim pattern) = .ok ()

def prefixesOf (pattern : String) : Finset String :=
  match stripSuffix (trim pattern) "*" with
  | some pre => {pre}
  | none => ∅

def exactOf (pattern : String) : Finset String :=
  match stripSuffix (trim pattern) "*" with
  | some _ => ∅
  | none => {trim pattern}

variable {pattern : String} {prefixes exact : Finset String} {rest : List String}

theorem collect_star (h : trim pattern = "*") :
    collect prefixes exact (pattern :: rest) = .ok .allowAll := by
  rw [collect, h]
  rfl

theorem collect_of_passes (h : Passes pattern) : collect prefixes exact (pattern :: rest)
    = collect (prefixesOf pattern ∪ prefixes) (exactOf pattern ∪ exact) rest := by
  obtain ⟨hempty, hstar, hwild, htree⟩ := h
  have hcheck : (contains (trim pattern) '*' && !endsWith (trim pattern) "/*") = false := by
    cases hc : contains (trim pattern) '*' with
    | false => rfl
    | true => rw [hwild hc]; rfl
  rw [collect]
  simp only [hempty, hstar, hcheck, htree, if_false, Bool.false_eq_true]
  unfold prefixesOf exactOf
  cases stripSuffix (trim pattern) "*" with
  | none => simp only [Finset.empty_union, Finset.insert_eq]
  | some pre => simp only [Finset.empty_union, Finset.insert_eq]

theorem collect_of_not_passes (hstar : trim pattern ≠ "*")
    (h : ¬ Passes pattern) : ∃ e, ∀ prefixes exact rest,
      collect prefixes exact (pattern :: rest) = .error e := by
  by_cases hempty : trim pattern = ""
  · refine ⟨.empty, fun prefixes exact rest => ?_⟩
    rw [collect]
    simp only [hempty, if_true]
  by_cases hcheck : (contains (trim pattern) '*' && !endsWith (trim pattern) "/*") = true
  · refine ⟨.invalidWildcard pattern, fun prefixes exact rest => ?_⟩
    rw [collect]
    simp only [hempty, hstar, hcheck, if_false, if_true]
  cases htree : validateAgainstTree (trim pattern) with
  | error e =>
    refine ⟨e, fun prefixes exact rest => ?_⟩
    rw [collect]
    simp only [hempty, hstar, hcheck, htree, if_false, Bool.false_eq_true]
  | ok u =>
    refine absurd ⟨hempty, hstar, fun hc => ?_, htree⟩ h
    simpa [hc] using hcheck

open HostCapabilities

theorem exists_new_singleton_iff (pattern : String) :
    (∃ caps, new [pattern] = .ok caps) ↔ trim pattern = "*" ∨ Passes pattern := by
  unfold new
  by_cases hstar : trim pattern = "*"
  · exact iff_of_true ⟨_, collect_star hstar⟩ (.inl hstar)
  by_cases h : Passes pattern
  · refine iff_of_true ?_ (.inr h)
    rw [collect_of_passes h, collect]
    split
    · exact ⟨_, rfl⟩
    · exact ⟨_, rfl⟩
  · obtain ⟨e, he⟩ := collect_of_not_passes hstar h
    simp [he, hstar, h]

/-- **The documented patterns**: `*`, the path of an operation, or that of an
intermediate node followed by `/*`, up to surrounding whitespace. -/
def Documented (pattern : String) : Prop :=
  trim pattern = "*" ∨ (∃ path, IsLeafPath path ∧ trim pattern = String.intercalate "/" path)
    ∨ ∃ path, IsInnerPath path ∧ trim pattern = String.intercalate "/" path ++ "/*"

/-- **A wildcard that is not the last segment**: the segments go down to a node,
continue with a wildcard and end, later on, with another one. -/
def WildcardInside (pattern : String) : Prop :=
  ∃ path rest, (path = [] ∨ IsInnerPath path) ∧ split (trim pattern) '/'
    = path ++ "*" :: (rest ++ ["*"])

variable {n : CapabilityNode} {path : List String}

theorem contains_sep_of_descend (h : root.descend path = some n) :
    ∀ part ∈ path, contains part '/' = false :=
  fun part hpart => (root_named.of_descend h part hpart).1

theorem contains_star_of_descend (h : root.descend path = some n) :
    ∀ part ∈ path, contains part '*' = false :=
  fun part hpart => (root_named.of_descend h part hpart).2

theorem star_not_mem_of_descend (h : root.descend path = some n) : "*" ∉ path := by
  intro hmem
  exact absurd (contains_star_of_descend h "*" hmem) (by decide)

theorem eq_star_iff_split {text : String} : text = "*" ↔ split text '/' = ["*"] := by
  have h : text = String.intercalate (String.ofList ['/']) ["*"] ↔ split text '/' = ["*"] :=
    eq_intercalate_iff (cons_ne_nil _ _) (by decide)
  rwa [String.intercalate_singleton] at h

theorem documented_iff_split : Documented pattern ↔ split (trim pattern) '/' = ["*"]
    ∨ IsLeafPath (split (trim pattern) '/')
    ∨ ∃ path, IsInnerPath path ∧ split (trim pattern) '/' = path ++ ["*"] := by
  have hcode {l : List String} (hne : l ≠ []) (hl : ∀ part ∈ l, contains part '/' = false) :
      trim pattern = String.intercalate "/" l ↔ split (trim pattern) '/' = l :=
    eq_intercalate_iff hne hl
  refine or_congr ?_ (or_congr ?_ (exists_congr fun path =>
    and_congr_right fun hpath => ?_))
  · exact eq_star_iff_split
  · constructor
    · rintro ⟨path, hpath, heq⟩
      have hne : path ≠ [] := by
        rintro rfl
        exact absurd hpath (by simp [IsLeafPath, descend, root])
      rwa [(hcode hne (contains_sep_of_descend hpath)).1 heq]
    · intro hpath
      exact ⟨_, hpath, (intercalate_split _ '/').symm⟩
  · obtain ⟨hne, children, hdescend⟩ := hpath
    have hjoin : String.intercalate "/" path ++ "/*" = String.intercalate "/" (path ++ ["*"]) := by
      rw [String.intercalate_append_of_ne_nil hne (cons_ne_nil _ _),
        String.intercalate_singleton, String.append_assoc]
      rfl
    rw [hjoin]
    refine hcode (by simp) fun part hpart => ?_
    rcases mem_append.1 hpart with hpart | hpart
    · exact contains_sep_of_descend hdescend part hpart
    · rw [mem_singleton.1 hpart]
      decide

theorem contains_star_iff : contains (trim pattern) '*' = true
    ↔ ∃ part ∈ split (trim pattern) '/', contains part '*' = true := by
  conv_lhs => rw [← intercalate_split (trim pattern) '/']
  exact contains_intercalate (by decide)

theorem endsWith_star_iff : endsWith (trim pattern) "/*" = true
    ↔ ∃ init, init ≠ [] ∧ split (trim pattern) '/' = init ++ ["*"] := by
  have h : "/*" = String.ofList ['/'] ++ "*" := rfl
  rw [h]
  exact endsWith_sep_iff (by decide)

theorem validateAgainstTree_eq_ok {text : String} : validateAgainstTree text = .ok ()
    ↔ IsLeafPath (split text '/') ∨ root.Starred (split text '/') :=
  validateSegments_eq_ok (split_ne_nil _ _)

theorem passes_of_isLeafPath (h : IsLeafPath (split (trim pattern) '/')) : Passes pattern := by
  refine ⟨fun hempty => ?_, fun hstar => ?_, fun hwild => ?_, validateAgainstTree_eq_ok.2 (.inl h)⟩
  · rw [hempty, split_of_not_contains (by decide)] at h
    have hnone : root.descend [""] = none := rfl
    exact absurd (hnone.symm.trans h) (by simp)
  · rw [hstar, split_of_not_contains (by decide)] at h
    exact absurd mem_cons_self (star_not_mem_of_descend h)
  · obtain ⟨part, hpart, hcontains⟩ := contains_star_iff.1 hwild
    rw [contains_star_of_descend h part hpart] at hcontains
    exact absurd hcontains Bool.false_ne_true

theorem passes_of_starred {init : List String} (hinit : init ≠ [])
    (hsplit : split (trim pattern) '/' = init ++ ["*"])
    (h : root.Starred (split (trim pattern) '/')) :
    Passes pattern := by
  have hlong : ∀ {text : String}, trim pattern = text → contains text '/' = false → False := by
    intro text htext hsep
    rw [htext, split_of_not_contains hsep] at hsplit
    have hlength := congrArg length hsplit
    rw [length_append, length_singleton, length_singleton] at hlength
    exact hinit (length_eq_zero_iff.1 (by omega))
  exact ⟨fun hempty => hlong hempty (by decide), fun hstar => hlong hstar (by decide),
    fun _ => endsWith_star_iff.2 ⟨init, hinit, hsplit⟩,
    validateAgainstTree_eq_ok.2 (.inr h)⟩

theorem passes_iff_split : Passes pattern ↔ IsLeafPath (split (trim pattern) '/')
    ∨ (∃ path, IsInnerPath path ∧ split (trim pattern) '/' = path ++ ["*"])
    ∨ WildcardInside pattern := by
  constructor
  · rintro ⟨-, -, hwild, htree⟩
    rcases validateAgainstTree_eq_ok.1 htree with
      hleaf | ⟨path, rest, children, hsplit, hpath⟩
    · exact .inl hleaf
    · have hcontains : contains (trim pattern) '*' = true :=
        contains_star_iff.2 ⟨"*", by rw [hsplit]; simp, by decide⟩
      obtain ⟨init, hinit, hends⟩ := endsWith_star_iff.1 (hwild hcontains)
      have hnode : path = [] ∨ IsInnerPath path := by
        by_cases hne : path = []
        · exact .inl hne
        · exact .inr ⟨hne, children, hpath⟩
      -- the wildcard the walk stops at is the last one, or there is another
      rcases eq_nil_or_concat rest with rfl | ⟨rest, last, rfl⟩
      · have hpath : path = init := (append_inj' (hsplit.symm.trans hends) rfl).1
        subst hpath
        exact .inr (.inl ⟨path, hnode.resolve_left hinit, hends⟩)
      · have hlast : "*" = last := by
          have h := congrArg getLast? (hends.symm.trans hsplit)
          rw [concat_eq_append, ← cons_append, ← append_assoc, getLast?_concat,
            getLast?_concat] at h
          exact Option.some.inj h
        subst hlast
        exact .inr (.inr ⟨path, rest, hnode, by simpa using hsplit⟩)
  · rintro (hleaf | ⟨path, hpath, hsplit⟩ | ⟨path, rest, hpath, hsplit⟩)
    · exact passes_of_isLeafPath hleaf
    · obtain ⟨hne, children, hdescend⟩ := hpath
      exact passes_of_starred hne hsplit ⟨path, [], children, hsplit, hdescend⟩
    · have hdescend : ∃ children, root.descend path = some (.node children) := by
        rcases hpath with rfl | hpath
        · exact ⟨capabilityTree, rfl⟩
        · exact hpath.2
      obtain ⟨children, hdescend⟩ := hdescend
      exact passes_of_starred (append_ne_nil_of_right_ne_nil path (cons_ne_nil "*" rest))
        (by rw [hsplit, append_assoc, cons_append])
        ⟨path, rest ++ ["*"], children, hsplit, hdescend⟩

theorem new_singleton_isOk_iff (pattern : String) : (∃ caps, new [pattern] = .ok caps)
    ↔ Documented pattern ∨ WildcardInside pattern := by
  rw [exists_new_singleton_iff, passes_iff_split, documented_iff_split, eq_star_iff_split]
  simp only [or_assoc]

theorem Documented.not_wildcardInside (h : Documented pattern) : ¬ WildcardInside pattern := by
  rintro ⟨path, rest, -, hsplit⟩
  rcases documented_iff_split.1 h with hstar | hleaf | ⟨path', hpath', hinner⟩
  · have hlength := congrArg length (hstar.symm.trans hsplit)
    simp only [length_append, length_cons, length_nil] at hlength
    omega
  · rw [hsplit] at hleaf
    exact star_not_mem_of_descend hleaf (by simp)
  · obtain ⟨-, children, hdescend⟩ := hpath'
    have heq : path' ++ ["*"] = (path ++ "*" :: rest) ++ ["*"] := by
      rw [← hinner, hsplit, append_assoc, cons_append]
    rw [append_cancel_right heq] at hdescend
    exact star_not_mem_of_descend hdescend (by simp)

/-- **Documentation and code agree** about a pattern unless it has a wildcard
inside, which the comment in the walk takes for granted. -/
theorem new_singleton_documented_iff (pattern : String) :
    ((∃ caps, HostCapabilities.new [pattern] = .ok caps) ↔ Documented pattern)
      ↔ ¬ WildcardInside pattern := by
  rw [new_singleton_isOk_iff]
  constructor
  · intro h hinside
    exact (h.1 (.inr hinside)).not_wildcardInside hinside
  · intro h
    simp only [h, or_false]

theorem wildcard_inside_is_accepted : HostCapabilities.new ["oci/*/nonsense/*"]
        = .ok (.patterns {"oci/*/nonsense/"} ∅)
      ∧ ¬ Documented "oci/*/nonsense/*" := by
  refine ⟨by decide +kernel, fun h => ?_⟩
  refine h.not_wildcardInside ⟨["oci"], ["nonsense"], .inr ⟨by simp, ?_⟩, ?_⟩
  · exact ⟨_, rfl⟩
  · decide +kernel

/-! ## A list of patterns -/

theorem collect_nil : collect prefixes exact [] = .ok (if prefixes = ∅ ∧ exact = ∅ then .denyAll
    else .patterns prefixes exact) := by
  rw [collect]
  split <;> rfl

variable {ps : List String}

theorem collect_of_forall_passes : ∀ {prefixes exact : Finset String}, (∀ p ∈ ps, Passes p) →
    collect prefixes exact ps = collect (ps.toFinset.biUnion prefixesOf ∪ prefixes)
      (ps.toFinset.biUnion exactOf ∪ exact) [] := by
  induction ps with
  | nil => intro prefixes exact _; simp
  | cons p ps ih =>
    intro prefixes exact h
    obtain ⟨hp, hps⟩ := forall_mem_cons.1 h
    rw [collect_of_passes hp, ih hps, toFinset_cons, Finset.biUnion_insert, Finset.biUnion_insert]
    simp only [Finset.union_assoc, Finset.union_left_comm]

theorem collect_of_star : ∀ {prefixes exact : Finset String}, (∀ p ∈ ps, trim p = "*" ∨ Passes p) →
    (∃ p ∈ ps, trim p = "*") → collect prefixes exact ps = .ok .allowAll := by
  induction ps with
  | nil => intro _ _ _ h; exact absurd h (by simp)
  | cons p ps ih =>
    intro prefixes exact h hstar
    obtain ⟨hp, hps⟩ := forall_mem_cons.1 h
    by_cases hp' : trim p = "*"
    · exact collect_star hp'
    · rw [collect_of_passes (hp.resolve_left hp')]
      exact ih hps (((exists_mem_cons_iff _ _ _).1 hstar).resolve_left hp')

theorem collect_of_rejected : ∀ {prefixes exact : Finset String}, (∀ p ∈ ps, trim p ≠ "*") →
    (∃ p ∈ ps, ¬ Passes p) → ∃ e, collect prefixes exact ps = .error e := by
  induction ps with
  | nil => intro _ _ _ h; exact absurd h (by simp)
  | cons p ps ih =>
    intro prefixes exact hstar h
    obtain ⟨hp, hps⟩ := forall_mem_cons.1 hstar
    by_cases hp' : Passes p
    · rw [collect_of_passes hp']
      exact ih hps (((exists_mem_cons_iff _ _ _).1 h).resolve_left (not_not_intro hp'))
    · obtain ⟨e, he⟩ := collect_of_not_passes hp hp'
      exact ⟨e, he _ _ _⟩

def Accepted (pattern : String) : Prop := ∃ caps, new [pattern] = .ok caps

/-- **A list judged pattern by pattern**: it is accepted when each of its
patterns is, whatever their order and their repetitions. -/
def JudgedByPattern (ps : List String) : Prop :=
  ((∃ caps, new ps = .ok caps) ↔ ∀ p ∈ ps, Accepted p)
    ∧ ∀ qs : List String, (∀ p, p ∈ qs ↔ p ∈ ps) → (new qs).toOption = (new ps).toOption

theorem new_of_forall_accepted {qs : List String} (hps : ∀ p ∈ ps, Accepted p)
    (h : ∀ p, p ∈ qs ↔ p ∈ ps) :
    ∃ caps, new ps = .ok caps ∧ new qs = .ok caps := by
  have hok : ∀ p ∈ ps, trim p = "*" ∨ Passes p :=
    fun p hp => (exists_new_singleton_iff p).1 (hps p hp)
  have hok' : ∀ p ∈ qs, trim p = "*" ∨ Passes p := fun p hp => hok p ((h p).1 hp)
  by_cases hstar : ∃ p ∈ ps, trim p = "*"
  · obtain ⟨p, hp, hp'⟩ := hstar
    exact ⟨.allowAll, collect_of_star hok ⟨p, hp, hp'⟩, collect_of_star hok' ⟨p, (h p).2 hp, hp'⟩⟩
  · have hpass : ∀ p ∈ ps, Passes p := fun p hp =>
      (hok p hp).resolve_left fun hp' => hstar ⟨p, hp, hp'⟩
    have hpass' : ∀ p ∈ qs, Passes p := fun p hp => hpass p ((h p).1 hp)
    have hset : qs.toFinset = ps.toFinset := by
      ext p
      rw [mem_toFinset, mem_toFinset, h p]
    unfold new
    rw [collect_of_forall_passes hpass, collect_of_forall_passes hpass', hset, collect_nil]
    exact ⟨_, rfl, rfl⟩

theorem new_of_rejected (hstar : ∀ p ∈ ps, trim p ≠ "*") (h : ∃ p ∈ ps, ¬ Accepted p) :
    ∃ e, new ps = .error e := by
  obtain ⟨p, hp, hrejected⟩ := h
  refine collect_of_rejected hstar ⟨p, hp, fun hpass => hrejected ?_⟩
  exact (exists_new_singleton_iff p).2 (.inr hpass)

/-- **When a list is judged pattern by pattern**: unless it holds both a `*`, at
which the loop returns, and a pattern that is rejected alone. -/
theorem judgedByPattern_iff (ps : List String) : JudgedByPattern ps
    ↔ ¬ ((∃ p ∈ ps, trim p = "*") ∧ ∃ p ∈ ps, ¬ Accepted p) := by
  constructor
  · rintro ⟨-, hsame⟩ ⟨⟨star, hstar, hstar'⟩, bad, hbad, hrejected⟩
    have hbad' : ¬ (trim bad = "*" ∨ Passes bad) :=
      fun h => hrejected ((exists_new_singleton_iff bad).2 h)
    obtain ⟨e, he⟩ := collect_of_not_passes (fun h => hbad' (.inl h)) (fun h => hbad' (.inr h))
    have hfront := hsame (star :: ps) (by simp [hstar])
    have hback := hsame (bad :: ps) (by simp [hbad])
    unfold HostCapabilities.new at hfront hback
    rw [collect_star hstar'] at hfront
    rw [he, ← hfront] at hback
    exact absurd hback (by simp [Except.toOption])
  · intro h
    by_cases hall : ∀ p ∈ ps, Accepted p
    · refine ⟨iff_of_true ?_ hall, fun qs hqs => ?_⟩
      · obtain ⟨caps, hcaps, -⟩ := new_of_forall_accepted hall fun _ => .rfl
        exact ⟨caps, hcaps⟩
      · obtain ⟨caps, hcaps, hcaps'⟩ := new_of_forall_accepted hall hqs
        rw [hcaps, hcaps']
    · have hbad : ∃ p ∈ ps, ¬ Accepted p := by simpa only [not_forall, exists_prop] using hall
      have hstar : ∀ p ∈ ps, trim p ≠ "*" := fun p hp hp' => h ⟨⟨p, hp, hp'⟩, hbad⟩
      obtain ⟨e, he⟩ := new_of_rejected hstar hbad
      refine ⟨iff_of_false (by simp [he]) hall, fun qs hqs => ?_⟩
      obtain ⟨p, hp, hrejected⟩ := hbad
      obtain ⟨e', he'⟩ := new_of_rejected
        (fun q hq => hstar q ((hqs q).1 hq)) ⟨p, (hqs p).2 hp, hrejected⟩
      rw [he, he']
      rfl

theorem star_hides_rejected : HostCapabilities.new ["*", "unknown"] = .ok .allowAll
      ∧ (HostCapabilities.new ["unknown", "*"]).toOption = none
      ∧ ¬ JudgedByPattern ["*", "unknown"] := by
  have hfront : HostCapabilities.new ["*", "unknown"] = .ok .allowAll := by decide +kernel
  have hback : (HostCapabilities.new ["unknown", "*"]).toOption = none := by decide +kernel
  refine ⟨hfront, hback, fun h => ?_⟩
  have hsame := h.2 ["unknown", "*"] (by simp [or_comm])
  rw [hfront, hback] at hsame
  exact absurd hsame (by simp [Except.toOption])

end HostCapabilities
