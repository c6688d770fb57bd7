import AdmController.CapabilityPatterns

/-!
# What patterns grant

`HostCapabilities.new` sorts patterns into prefixes and exact paths, and
`isAllowed` compares texts.
-/

open RustStr Finset

namespace CapabilityNode

/-! ## The operations of the tree -/

inductive Distinct : CapabilityNode → Prop
  | leaf : Distinct .leaf
  | node {children : List (String × CapabilityNode)} (names : (children.map Prod.fst).Nodup)
    (below : ∀ c ∈ children, Distinct c.2) : Distinct (.node children)

theorem root_distinct : root.Distinct := by
  unfold root capabilityTree
  repeat' first
    | exact .leaf
    | (refine .node (by decide) ?_ <;>
      simp only [List.forall_mem_cons, List.not_mem_nil, false_imp_iff, implies_true, and_true])
    | refine ⟨?_, ?_⟩

variable {children : List (String × CapabilityNode)}

theorem mem_walkChildren {path : List String} {x : String × String} :
    x ∈ walkChildren path children ↔ ∃ c ∈ children, x ∈ c.2.walk (path ++ [c.1]) := by
  induction children with
  | nil => simp [walkChildren]
  | cons c children ih =>
    obtain ⟨segment, child⟩ := c
    rw [walkChildren, List.mem_append, ih, List.exists_mem_cons_iff]

theorem lookup_eq_some_iff (h : (children.map Prod.fst).Nodup) {name : String}
    {child : CapabilityNode} :
    children.lookup name = some child ↔ (name, child) ∈ children := by
  induction children with
  | nil => simp
  | cons c children ih =>
    obtain ⟨hc, hchildren⟩ := List.nodup_cons.1 h
    obtain ⟨segment, child'⟩ := c
    rw [List.lookup_cons, List.mem_cons]
    by_cases hname : name = segment
    · subst hname
      have hother : (name, child) ∉ children := fun hmem => hc (List.mem_map.2 ⟨_, hmem, rfl⟩)
      simp [hother, eq_comm]
    · rw [beq_false_of_ne hname]
      simp [hname, ih hchildren]

theorem mem_walk {n : CapabilityNode} (hn : n.Distinct) :
    ∀ {path : List String} {x : String × String}, x ∈ n.walk path
      ↔ ∃ rest, n.descend rest = some .leaf ∧ x = ((path ++ rest).headD "",
        String.intercalate "/" (path ++ rest).tail) := by
  induction hn with
  | leaf =>
    intro path x
    rw [walk, List.mem_singleton]
    constructor
    · rintro rfl
      exact ⟨[], rfl, by rw [List.append_nil]⟩
    · rintro ⟨rest, hrest, rfl⟩
      cases rest with
      | nil => rw [List.append_nil]
      | cons part rest => exact absurd hrest (by simp [descend])
  | @node children names below ih =>
    intro path x
    rw [walk, mem_walkChildren]
    constructor
    · rintro ⟨⟨name, child⟩, hchild, hx⟩
      obtain ⟨rest, hrest, rfl⟩ := (ih _ hchild).1 hx
      refine ⟨name :: rest, ?_, by rw [List.append_assoc]; rfl⟩
      exact Option.bind_eq_some_iff.2 ⟨child, (lookup_eq_some_iff names).2 hchild, hrest⟩
    · rintro ⟨rest, hrest, rfl⟩
      cases rest with
      | nil => exact absurd hrest (by simp [descend])
      | cons name rest =>
        obtain ⟨child, hchild, hrest⟩ := Option.bind_eq_some_iff.1 hrest
        have hmem := (lookup_eq_some_iff names).1 hchild
        refine ⟨(name, child), hmem, (ih _ hmem).2 ⟨rest, hrest, ?_⟩⟩
        rw [List.append_assoc]
        rfl

end CapabilityNode

namespace HostCapabilities

open CapabilityNode HostCapabilities

variable {op : String × String}

theorem mem_enumerateOperations : op ∈ enumerateOperations
    ↔ ∃ name rest, IsLeafPath (name :: rest) ∧ op = (name, String.intercalate "/" rest) := by
  have hwalk : op ∈ enumerateOperations ↔ op ∈ root.walk [] := by
    rw [enumerateOperations, List.mem_mergeSort, root, walk]
  rw [hwalk, mem_walk root_distinct]
  constructor
  · rintro ⟨path, hpath, rfl⟩
    cases path with
    | nil => exact absurd hpath (by simp [descend, root])
    | cons name rest => exact ⟨name, rest, hpath, rfl⟩
  · rintro ⟨name, rest, hpath, rfl⟩
    exact ⟨name :: rest, hpath, rfl⟩

theorem exists_cons_of_isLeafPath {name : String} {rest : List String}
    (h : IsLeafPath (name :: rest)) : rest ≠ [] := by
  rintro rfl
  have hchild : ∀ c ∈ capabilityTree, c.2 ≠ .leaf := by simp [capabilityTree]
  obtain ⟨child, hchild', hleaf⟩ := Option.bind_eq_some_iff.1 h
  obtain ⟨before, after, heq, -⟩ := List.lookup_eq_some_iff.1 hchild'
  refine hchild (name, child) (by rw [heq]; simp) ?_
  exact Option.some.inj hleaf

theorem join_of_isLeafPath {name : String} {rest : List String} (h : IsLeafPath (name :: rest)) :
    name ++ "/" ++ String.intercalate "/" rest = String.intercalate "/" (name :: rest) := by
  obtain ⟨part, rest, rfl⟩ := List.exists_cons_of_ne_nil (exists_cons_of_isLeafPath h)
  rw [String.intercalate_cons_cons]

theorem isLeafPath_split_of_mem (h : op ∈ enumerateOperations) :
    IsLeafPath (split (op.1 ++ "/" ++ op.2) '/') := by
  obtain ⟨name, rest, hpath, rfl⟩ := mem_enumerateOperations.1 h
  have hsplit : split (name ++ "/" ++ String.intercalate "/" rest) '/' = name :: rest :=
    (eq_intercalate_iff (List.cons_ne_nil _ _)
      (contains_sep_of_descend hpath)).1 (join_of_isLeafPath hpath)
  rw [hsplit]
  exact hpath

theorem exists_operation_iff {c : String} : (∃ op ∈ enumerateOperations, c = op.1 ++ "/" ++ op.2)
    ↔ ∃ path, IsLeafPath path ∧ c = String.intercalate "/" path := by
  constructor
  · rintro ⟨op, hop, rfl⟩
    exact ⟨_, isLeafPath_split_of_mem hop, (intercalate_split _ '/').symm⟩
  · rintro ⟨path, hpath, rfl⟩
    cases path with
    | nil => exact absurd hpath (by simp [IsLeafPath, descend, root])
    | cons name rest =>
      exact ⟨_, mem_enumerateOperations.2 ⟨name, rest, hpath, rfl⟩, (join_of_isLeafPath hpath).symm⟩

/-! ## One pattern -/

/-- **What a pattern grants**: everything, one path, or the paths below. -/
def Grants (pattern c : String) : Prop :=
  trim pattern = "*" ∨ trim pattern = c ∨ ∃ q, trim pattern = q ++ "/*"
    ∧ startsWith c (q ++ "/") = true

variable {pattern c : String} {ps : List String} {h : HostCapabilities} {pre : String}

theorem mem_prefixesOf : pre ∈ prefixesOf pattern ↔ trim pattern = pre ++ "*" := by
  rw [← stripSuffix_eq_some]
  unfold prefixesOf
  cases stripSuffix (trim pattern) "*" with
  | none => simp
  | some pre' => simp [eq_comm]

theorem mem_exactOf : c ∈ exactOf pattern ↔ trim pattern = c ∧ ∀ pre, c ≠ pre ++ "*" := by
  have hnone : (∀ pre, trim pattern ≠ pre ++ "*") ↔ stripSuffix (trim pattern) "*" = none := by
    simp only [Option.eq_none_iff_forall_ne_some, ne_eq, stripSuffix_eq_some]
  have hsubst : (trim pattern = c ∧ ∀ pre, c ≠ pre ++ "*") ↔ trim pattern = c
        ∧ ∀ pre, trim pattern ≠ pre ++ "*" :=
    and_congr_right fun hc => by rw [hc]
  rw [hsubst, hnone]
  unfold exactOf
  cases stripSuffix (trim pattern) "*" with
  | none => simp [eq_comm]
  | some pre => simp

theorem append_star_inj {p q : String} : p ++ "*" = q ++ "/*" ↔ p = q ++ "/" := by
  have hstar : q ++ "/*" = q ++ "/" ++ "*" := by
    rw [String.append_assoc]
    rfl
  rw [hstar, String.append_left_inj]

theorem exists_stem_of_passes (hp : Passes pattern)
    (hpre : trim pattern = pre ++ "*") : ∃ q, pre = q ++ "/" := by
  have hcontains : contains (trim pattern) '*' = true := by
    rw [hpre]
    simp [contains]
  have hends := hp.2.2.1 hcontains
  obtain ⟨l, hl⟩ := List.isSuffixOf_iff_suffix.1 hends
  refine ⟨String.ofList l, append_star_inj.1 ?_⟩
  rw [← hpre, ← String.toList_inj, ← hl]
  simp

theorem grants_iff_of_passes (hp : Passes pattern) : Grants pattern c ↔ c ∈ exactOf pattern
    ∨ ∃ pre ∈ prefixesOf pattern, startsWith c pre = true := by
  simp only [mem_exactOf, mem_prefixesOf]
  constructor
  · rintro (hstar | rfl | ⟨q, hq, hstart⟩)
    · exact absurd hstar hp.2.1
    · by_cases hwild : ∃ pre, trim pattern = pre ++ "*"
      · obtain ⟨pre, hpre⟩ := hwild
        exact .inr ⟨pre, hpre, startsWith_iff.2 ⟨"*", hpre⟩⟩
      · exact .inl ⟨rfl, fun pre hpre => hwild ⟨pre, hpre⟩⟩
    · exact .inr ⟨q ++ "/", hq.trans (append_star_inj.2 rfl).symm, hstart⟩
  · rintro (⟨rfl, -⟩ | ⟨pre, hpre, hstart⟩)
    · exact .inr (.inl rfl)
    · obtain ⟨q, rfl⟩ := exists_stem_of_passes hp hpre
      exact .inr (.inr ⟨q, hpre.trans (append_star_inj.2 rfl), hstart⟩)

/-! ## A list of patterns -/

def LoopPasses : List String → Prop
  | [] => True
  | p :: ps => trim p = "*" ∨ Passes p ∧ LoopPasses ps

theorem exists_collect_iff : ∀ {prefixes exact : Finset String},
    (∃ h, collect prefixes exact ps = .ok h) ↔ LoopPasses ps := by
  induction ps with
  | nil => intro prefixes exact; simp [collect_nil, LoopPasses]
  | cons p ps ih =>
    intro prefixes exact
    by_cases hstar : trim p = "*"
    · exact iff_of_true ⟨_, collect_star hstar⟩ (.inl hstar)
    by_cases hp : Passes p
    · rw [collect_of_passes hp, ih]
      simp [LoopPasses, hstar, hp]
    · obtain ⟨e, he⟩ := collect_of_not_passes hstar hp
      simp [LoopPasses, hstar, hp, he]

theorem LoopPasses.insert {l₁ l₂ qs : List String} (hqs : ∀ q ∈ qs, trim q = "*" ∨ Passes q)
    (h : LoopPasses (l₁ ++ l₂)) : LoopPasses (l₁ ++ qs ++ l₂) := by
  induction l₁ with
  | nil =>
    induction qs with
    | nil => exact h
    | cons q qs ih =>
      obtain ⟨hq, hqs⟩ := List.forall_mem_cons.1 hqs
      exact hq.imp id fun hpasses => ⟨hpasses, ih hqs⟩
  | cons p l₁ ih => exact h.imp id fun hp => ⟨hp.1, ih hp.2⟩

theorem new_eq_ok_cases (hnew : new ps = .ok h) :
    (h = .allowAll ∧ ∃ p ∈ ps, trim p = "*") ∨ (∀ p ∈ ps, Passes p)
      ∧ collect (ps.toFinset.biUnion prefixesOf) (ps.toFinset.biUnion exactOf) [] = .ok h := by
  by_cases hpass : ∀ p ∈ ps, Passes p
  · refine .inr ⟨hpass, ?_⟩
    unfold new at hnew
    rw [collect_of_forall_passes hpass] at hnew
    simpa only [union_empty] using hnew
  · refine .inl ?_
    have hloop : ∀ {ps : List String} {prefixes exact : Finset String},
        collect prefixes exact ps = .ok h → (¬ ∀ p ∈ ps, Passes p) →
          h = .allowAll ∧ ∃ p ∈ ps, trim p = "*" := by
      intro ps
      induction ps with
      | nil => intro _ _ _ hpass; exact absurd (by simp) hpass
      | cons p ps ih =>
        intro prefixes exact hcollect hpass
        by_cases hstar : trim p = "*"
        · rw [collect_star hstar] at hcollect
          exact ⟨(Except.ok.inj hcollect).symm, p, List.mem_cons_self, hstar⟩
        by_cases hp : Passes p
        · rw [collect_of_passes hp] at hcollect
          obtain ⟨hall, q, hq, hstar'⟩ := ih hcollect fun hps =>
            hpass (List.forall_mem_cons.2 ⟨hp, hps⟩)
          exact ⟨hall, q, List.mem_cons_of_mem p hq, hstar'⟩
        · obtain ⟨e, he⟩ := collect_of_not_passes hstar hp
          rw [he] at hcollect
          cases hcollect
    exact hloop hnew hpass

theorem isAllowed_of_collect_nil {prefixes exact : Finset String}
    (hcollect : collect prefixes exact [] = .ok h) :
    h.isAllowed c = true ↔ c ∈ exact ∨ ∃ pre ∈ prefixes, startsWith c pre = true := by
  rw [collect_nil] at hcollect
  obtain rfl := Except.ok.inj hcollect
  split
  · rename_i hempty
    simp [isAllowed, hempty.1, hempty.2]
  · simp [isAllowed]

theorem isAllowed_iff_grants (hnew : new ps = .ok h) :
    h.isAllowed c = true ↔ ∃ p ∈ ps, Grants p c := by
  rcases new_eq_ok_cases hnew with ⟨rfl, p, hp, hstar⟩ | ⟨hpass, hcollect⟩
  · exact iff_of_true rfl ⟨p, hp, .inl hstar⟩
  · have hgrants : (∃ p ∈ ps, Grants p c) ↔ ∃ p ∈ ps, c ∈ exactOf p
        ∨ ∃ pre ∈ prefixesOf p, startsWith c pre = true :=
      exists_congr fun p => and_congr_right fun hp =>
        grants_iff_of_passes (hpass p hp)
    rw [isAllowed_of_collect_nil hcollect, hgrants]
    simp only [mem_biUnion, List.mem_toFinset, and_or_left, exists_or]
    refine or_congr .rfl ?_
    simp only [← exists_and_left, ← exists_and_right, and_assoc]
    exact exists_comm

/-! ## Operations below a node -/

theorem not_isLeafPath_of_passes (hp : Passes pattern) {path : List String}
    (hsplit : split (trim pattern) '/' = path ++ ["*"]) :
    ¬ IsLeafPath path := by
  intro hleaf
  have htree := validateAgainstTree_eq_ok.1 hp.2.2.2
  rw [hsplit] at htree
  rcases htree with hlong | ⟨path', rest, children, heq, hnode⟩
  · exact star_not_mem_of_descend hlong (by simp)
  · obtain ⟨rfl, -⟩ := (List.append_cons_inj_of_notMem
      (star_not_mem_of_descend hleaf) List.not_mem_nil).1 heq
    rw [show root.descend path = some .leaf from hleaf] at hnode
    cases hnode

theorem split_star (q : String) : split (q ++ "/*") '/' = split q '/' ++ ["*"] := by
  have hjoin : q ++ "/*" = q ++ String.ofList ['/'] ++ "*" := by
    rw [String.append_assoc]
    rfl
  have hstar : split "*" '/' = ["*"] := split_of_not_contains (by decide)
  rw [hjoin, split_append, hstar]

theorem isAllowed_operation_iff (hop : op ∈ enumerateOperations) {p q : String}
    (hq : trim p = q ++ "/*")
    (hnew : new [p] = .ok h) :
    h.isAllowed (op.1 ++ "/" ++ op.2) = true ↔ split q '/' <+: split (op.1 ++ "/" ++ op.2) '/' := by
  have hleaf := isLeafPath_split_of_mem hop
  generalize op.1 ++ "/" ++ op.2 = path at hleaf ⊢
  have hsplit : split (trim p) '/' = split q '/' ++ ["*"] := by rw [hq, split_star]
  have hstar : trim p ≠ "*" := by
    intro hstar
    have hlength := congrArg List.length (hsplit.symm.trans (eq_star_iff_split.1 hstar))
    rw [List.length_append, List.length_singleton] at hlength
    exact split_ne_nil q '/' (List.length_eq_zero_iff.1 (by omega))
  have hpath : trim p ≠ path := by
    rintro rfl
    rw [hsplit] at hleaf
    exact star_not_mem_of_descend hleaf (by simp)
  have hpasses : Passes p := ((exists_new_singleton_iff p).1 ⟨h, hnew⟩).resolve_left hstar
  have hgrants : Grants p path ↔ startsWith path (q ++ String.ofList ['/']) = true := by
    unfold Grants
    rw [hq] at hstar hpath ⊢
    simp only [hstar, hpath, false_or, String.append_left_inj, exists_eq_left']
  rw [isAllowed_iff_grants hnew]
  simp only [List.mem_singleton, exists_eq_left]
  rw [hgrants, startsWith_sep_iff]
  constructor
  · rintro ⟨rest, -, heq⟩
    exact ⟨rest, heq.symm⟩
  · rintro ⟨rest, heq⟩
    refine ⟨rest, ?_, heq.symm⟩
    rintro rfl
    rw [List.append_nil] at heq
    rw [heq] at hsplit
    exact not_isLeafPath_of_passes hpasses hsplit hleaf

/-! ## The serialised form -/

theorem passes_trim : Passes (trim pattern) ↔ Passes pattern := by
  unfold Passes
  rw [trim_trim]

theorem stands_for_prefix (hpre : trim pattern = pre ++ "*") :
    prefixesOf (pre ++ "*") = {pre} ∧ exactOf (pre ++ "*") = ∅ := by
  have htrim : trim (pre ++ "*") = pre ++ "*" := by rw [← hpre, trim_trim]
  constructor
  · ext pre'
    rw [mem_prefixesOf, htrim, String.append_left_inj, mem_singleton, eq_comm]
  · ext path
    rw [mem_exactOf, htrim]
    simp only [notMem_empty, iff_false]
    rintro ⟨rfl, hno⟩
    exact hno pre rfl

theorem stands_for_exact {path : String} (hpath : trim pattern = path)
    (hno : ∀ pre, path ≠ pre ++ "*") :
    prefixesOf path = ∅ ∧ exactOf path = {path} := by
  have htrim : trim path = path := by rw [← hpath, trim_trim]
  constructor
  · ext pre
    rw [mem_prefixesOf, htrim]
    simp [hno pre]
  · ext path'
    rw [mem_exactOf, htrim, mem_singleton]
    constructor
    · rintro ⟨rfl, -⟩
      rfl
    · rintro rfl
      exact ⟨rfl, hno⟩

theorem biUnion_serialised (prefixes exact : Finset String) (f : String → Finset String) :
    ((prefixes.sort (· ≤ ·)).map (· ++ "*") ++ exact.sort (· ≤ ·)).toFinset.biUnion f
      = prefixes.biUnion (fun pre => f (pre ++ "*")) ∪ exact.biUnion f := by
  have hmap : ((prefixes.sort (· ≤ ·)).map (· ++ "*")).toFinset = prefixes.image (· ++ "*") := by
    ext t
    simp
  rw [List.toFinset_append, hmap, sort_toFinset, union_biUnion, image_biUnion]

theorem new_serialised {prefixes exact : Finset String}
    (hprefixes : ∀ pre ∈ prefixes, Passes (pre ++ "*")
      ∧ prefixesOf (pre ++ "*") = {pre} ∧ exactOf (pre ++ "*") = ∅)
    (hexact : ∀ path ∈ exact, Passes path ∧ prefixesOf path = ∅ ∧ exactOf path = {path}) :
    new ((prefixes.sort (· ≤ ·)).map (· ++ "*")
      ++ exact.sort (· ≤ ·)) = collect prefixes exact [] := by
  have hpass : ∀ t ∈ (prefixes.sort (· ≤ ·)).map (· ++ "*") ++ exact.sort (· ≤ ·), Passes t := by
    simp only [List.forall_mem_append, List.forall_mem_map, mem_sort]
    exact ⟨fun pre hpre => (hprefixes pre hpre).1, fun path hpath => (hexact path hpath).1⟩
  have hnothing : ∀ s : Finset String, s.biUnion (fun _ => (∅ : Finset String)) = ∅ := by
    intro s
    ext t
    simp
  unfold new
  rw [collect_of_forall_passes hpass, biUnion_serialised, biUnion_serialised,
    biUnion_congr rfl fun pre hpre => (hprefixes pre hpre).2.1,
    biUnion_congr rfl fun pre hpre => (hprefixes pre hpre).2.2,
    biUnion_congr rfl fun path hpath => (hexact path hpath).2.1,
    biUnion_congr rfl fun path hpath => (hexact path hpath).2.2]
  simp only [hnothing, biUnion_singleton_eq_self, union_empty, empty_union]

theorem tryFrom_toVec (hnew : new ps = .ok h) : tryFrom h.toVec = .ok h := by
  rcases new_eq_ok_cases hnew with ⟨rfl, -⟩ | ⟨hpass, hcollect⟩
  · have hstar : trim "*" = "*" := by decide
    show collect ∅ ∅ ["*"] = _
    exact collect_star hstar
  have hserialised : tryFrom h.toVec = new
        (((ps.toFinset.biUnion prefixesOf).sort (· ≤ ·)).map (· ++ "*")
          ++ (ps.toFinset.biUnion exactOf).sort (· ≤ ·)) := by
    rw [collect_nil] at hcollect
    obtain rfl := Except.ok.inj hcollect
    split
    · rename_i hempty
      rw [hempty.1, hempty.2]
      simp [toVec, tryFrom]
    · rfl
  rw [hserialised, ← hcollect]
  refine new_serialised (fun pre hpre => ?_) (fun path hpath => ?_)
  · simp only [mem_biUnion, List.mem_toFinset, mem_prefixesOf] at hpre
    obtain ⟨p, hp, htrim⟩ := hpre
    exact ⟨htrim ▸ passes_trim.2 (hpass p hp), stands_for_prefix htrim⟩
  · simp only [mem_biUnion, List.mem_toFinset, mem_exactOf] at hpath
    obtain ⟨p, hp, htrim, hno⟩ := hpath
    exact ⟨htrim ▸ passes_trim.2 (hpass p hp), stands_for_exact htrim hno⟩

/-! ## The whole contract -/

/-- **The grants of an accepted list.** A path is allowed when some pattern is
`*`, the path, or its beginning up to a separator, followed by a wildcard.
Accepted patterns take nothing away, and lists can be serialised and read again.
`oci/v1/*` has nothing to do with a sibling of `oci/v1`. -/
theorem grants_of_accepted_list (hnew : HostCapabilities.new ps = .ok h) :
    (∀ c, h.isAllowed c = true ↔ ∃ p ∈ ps, trim p = "*" ∨ trim p = c
      ∨ ∃ q, trim p = q ++ "/*" ∧ startsWith c (q ++ "/") = true)
      ∧ (∀ op ∈ enumerateOperations, ∀ (p q : String) (g : HostCapabilities),
        trim p = q ++ "/*" → HostCapabilities.new [p] = .ok g →
        (g.isAllowed (op.1 ++ "/" ++ op.2) = true ↔ split q '/'
          <+: split (op.1 ++ "/" ++ op.2) '/'))
      ∧ (∀ l₁ l₂ qs, ps = l₁ ++ l₂ → (∀ q ∈ qs, ∃ g, HostCapabilities.new [q] = .ok g) →
        ∃ h', HostCapabilities.new (l₁ ++ qs ++ l₂) = .ok h'
          ∧ ∀ c, h.isAllowed c = true → h'.isAllowed c = true)
      ∧ tryFrom h.toVec = .ok h := by
  refine ⟨fun c => isAllowed_iff_grants hnew,
    fun op hop p q g hq hg => isAllowed_operation_iff hop hq hg, ?_,
    tryFrom_toVec hnew⟩
  rintro l₁ l₂ qs rfl hqs
  have hloop : LoopPasses (l₁ ++ qs ++ l₂) :=
    (exists_collect_iff.1 ⟨h, hnew⟩).insert fun q hq =>
      (exists_new_singleton_iff q).1 (hqs q hq)
  obtain ⟨h', hnew'⟩ := exists_collect_iff.2 hloop
  refine ⟨h', hnew', fun c hc => ?_⟩
  obtain ⟨p, hp, hgrants⟩ := (isAllowed_iff_grants hnew).1 hc
  refine (isAllowed_iff_grants hnew').2 ⟨p, ?_, hgrants⟩
  rcases List.mem_append.1 hp with hp | hp
  · exact List.mem_append_left l₂ (List.mem_append_left qs hp)
  · exact List.mem_append_right _ hp

theorem grants_oci_v1 : ∃ h, HostCapabilities.new [" oci/v1/* "] = .ok h
    ∧ h.isAllowed "oci/v1/verify" = true
    ∧ h.isAllowed "oci/v10/verify" = false
    ∧ tryFrom h.toVec = .ok h := by
  have hnew : HostCapabilities.new [" oci/v1/* "]
    = .ok (.patterns {"oci/v1/"} ∅) := by decide +kernel
  obtain ⟨hallowed, -, -, hvec⟩ := grants_of_accepted_list hnew
  refine ⟨_, hnew, (hallowed "oci/v1/verify").2 ⟨_, List.mem_cons_self, ?_⟩,
    by decide +kernel, hvec⟩
  exact .inr (.inr ⟨"oci/v1", by decide +kernel, by decide +kernel⟩)

end HostCapabilities
