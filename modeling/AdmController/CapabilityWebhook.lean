import AdmController.CapabilityGrants
import AdmController.FieldErrors

/-!
# Capability patterns at the webhook

The webhook that admits the capabilities of a policy server has its own tree of
known operations and its own walk. The policy server admits more.
-/

open CapabilityNode RustStr Option HostCapabilities

namespace CapabilityNode

/-! ## Two trees with the same paths -/

/-- **The same tree**, with the children of a node in another order. -/
inductive Mirrors : CapabilityNode → CapabilityNode → Prop
  | leaf : Mirrors .leaf .leaf
  | node {children others : List (String × CapabilityNode)}
    (names : ∀ c ∈ children, ∃ other, others.lookup c.1 = some other)
    (others_names : ∀ o ∈ others, ∃ c, children.lookup o.1 = some c)
    (below : ∀ c ∈ children, ∀ other, others.lookup c.1 = some other →
      Mirrors c.2 other) : Mirrors (.node children) (.node others)

theorem mem_of_lookup {children : List (String × CapabilityNode)}
    {name : String} {child : CapabilityNode}
    (h : children.lookup name = some child) : (name, child) ∈ children := by
  obtain ⟨before, after, rfl, -⟩ := List.lookup_eq_some_iff.1 h
  simp

variable {n m : CapabilityNode}

theorem Mirrors.descend (h : n.Mirrors m) : ∀ path : List String,
    Option.Rel Mirrors (n.descend path) (m.descend path) := by
  induction h with
  | leaf =>
    intro path
    cases path with
    | nil => exact .some .leaf
    | cons part rest => exact .none
  | @node children others names others_names below ih =>
    intro path
    cases path with
    | nil => exact .some (.node names others_names below)
    | cons part rest =>
      show Option.Rel Mirrors ((children.lookup part).bind (fun n => n.descend rest))
        ((others.lookup part).bind (fun n => n.descend rest))
      cases hchild : children.lookup part with
      | none =>
        cases hother : others.lookup part with
        | none => exact .none
        | some other =>
          obtain ⟨child, hsome⟩ := others_names _ (mem_of_lookup hother)
          exact absurd (hchild.symm.trans hsome) (by simp)
      | some child =>
        have hmem := mem_of_lookup hchild
        obtain ⟨other, hother⟩ := names _ hmem
        rw [show others.lookup part = some other from hother]
        exact ih _ hmem other hother rest

theorem Mirrors.descend_leaf_iff (h : n.Mirrors m) {path : List String} :
    n.descend path = some .leaf ↔ m.descend path = some .leaf := by
  have hrel := h.descend path
  generalize n.descend path = x, m.descend path = y at hrel ⊢
  cases hrel with
  | none => rfl
  | some hmirrors => cases hmirrors <;> simp

theorem Mirrors.descend_node_iff (h : n.Mirrors m) {path : List String} :
    (∃ children, n.descend path = some (.node children))
      ↔ ∃ children, m.descend path = some (.node children) := by
  have hrel := h.descend path
  generalize n.descend path = x, m.descend path = y at hrel ⊢
  cases hrel with
  | none => simp
  | some hmirrors => cases hmirrors <;> simp

end CapabilityNode

namespace PolicyServerWebhook

/-! ## The webhook -/

def capabilityTree : List (String × CapabilityNode) :=
  [("oci", .node [("v1", .node [("verify", .leaf), ("manifest_digest", .leaf),
        ("oci_manifest", .leaf), ("oci_manifest_config", .leaf)]),
        ("v2", .node [("verify", .leaf)])]),
    ("net", .node [("v1", .node [("dns_lookup_host", .leaf)])]),
    ("crypto", .node [("v1", .node [("is_certificate_trusted", .leaf)])]),
    ("kubernetes", .node [("list_resources_by_namespace", .leaf),
      ("list_resources_all", .leaf), ("get_resource", .leaf),
      ("can_i", .leaf)])]

def validateParts (pattern : String) (path : FieldPath) :
    List (String × CapabilityNode) → List String → List String → Option FieldError
  | _, _, [] =>
    some (.invalid path (.string pattern) (debug pattern
      ++ " is not a complete capability path; use "
      ++ debug (pattern ++ "/*")
      ++ " to allow all capabilities under it"))
  | children, before, part :: rest =>
    -- the wildcard is only valid as the final segment
    if contains part '*' then
      if part ≠ "*" ∨ rest ≠ [] then
        some (.invalid path (.string pattern) ("wildcard \"*\" is only "
          ++ "allowed as the last path segment (e.g. \"oci/*\" or \"oci/v1/*\")"))
      else none
    else match children.lookup part with
    | none =>
      some (.invalid path (.string pattern) ("unknown segment "
        ++ debug part ++ ", valid options at this level are: "
        ++ String.intercalate ", " ((children.map Prod.fst).mergeSort (· ≤ ·))))
    | some .leaf =>
      if rest ≠ [] then
        some (.invalid path (.string pattern) (debug (String.intercalate "/" (before ++ [part]))
          ++ " is a complete capability path and cannot have further segments"))
      else none
    | some (.node child) => validateParts pattern path child (before ++ [part]) rest

def validateSingleCapability (pattern : String) (path : FieldPath) : Option FieldError :=
  if pattern = "" then some (.invalid path (.string pattern) "capability must not be empty")
  else if pattern = "*" then none
  else validateParts pattern path capabilityTree [] (split pattern '/')

def validateNamespacedPoliciesCapabilities (capabilities : List String) : List FieldError :=
  checkEach ((FieldPath.root "spec").child "namespacedPoliciesCapabilities")
    (fun path pattern => validateSingleCapability pattern path) capabilities

end PolicyServerWebhook

theorem webhook_mirrors_root : (node PolicyServerWebhook.capabilityTree).Mirrors
    root := by
  unfold root capabilityTree PolicyServerWebhook.capabilityTree
  repeat' first
    | exact .leaf
    | refine .node ?_ ?_ ?_
    | simp only [List.forall_mem_cons, List.not_mem_nil, false_imp_iff,
      implies_true, and_true, List.lookup_cons, String.reduceBEq,
      some.injEq, forall_eq', exists_eq']
    | refine ⟨?_, ?_⟩

/-! ## What the webhook admits -/

theorem webhook_named : (node PolicyServerWebhook.capabilityTree).Named
    (fun s => contains s '*' = false ∧ s.toList.all (fun c => !isWhitespace c) = true) := by
  unfold PolicyServerWebhook.capabilityTree
  repeat' first
    | exact .leaf
    | (refine .node ?_ ?_ <;> simp only [List.forall_mem_cons, List.not_mem_nil, false_imp_iff,
          implies_true, and_true])
    | refine ⟨?_, ?_⟩
    | decide

namespace CapabilityNode

/-- **Complete segments**: an operation, or a node and a wildcard. -/
def Complete (n : CapabilityNode) (segments : List String) : Prop :=
  n.descend segments = some .leaf ∨ ∃ path, segments = path ++ ["*"]
    ∧ ∃ children, n.descend path = some (.node children)

variable {children : List (String × CapabilityNode)} {part : String} {rest : List String}

theorem not_complete_nil : ¬ (node children).Complete [] := by
  rintro (h | ⟨path, h, -⟩)
  · exact absurd h (by simp [descend])
  · exact absurd h (by simp)

theorem complete_leaf_iff : leaf.Complete rest ↔ rest = [] := by
  constructor
  · rintro (h | ⟨path, -, inner, h⟩)
    · cases rest with
      | nil => rfl
      | cons part rest => exact absurd h (by simp [descend])
    · cases path <;> exact absurd h (by simp [descend])
  · rintro rfl
    exact .inl rfl

theorem complete_star_iff (h : children.lookup "*" = none) :
    (node children).Complete ("*" :: rest) ↔ rest = [] := by
  have hnone (path : List String) : (node children).descend ("*" :: path) = none := by
    show (children.lookup "*").bind _ = none
    rw [h, bind_none]
  constructor
  · rintro (hleaf | ⟨path, heq, inner, hpath⟩)
    · exact absurd ((hnone rest).symm.trans hleaf) (by simp)
    · cases path with
      | nil => exact (List.cons.inj heq).2
      | cons name path =>
        obtain ⟨rfl, -⟩ := List.cons.inj heq
        exact absurd ((hnone path).symm.trans hpath) (by simp)
  · rintro rfl
    exact .inr ⟨[], rfl, children, rfl⟩

theorem complete_cons_iff (h : part ≠ "*") : (node children).Complete (part :: rest)
    ↔ ∃ child, children.lookup part = some child ∧ child.Complete rest := by
  constructor
  · rintro (hleaf | ⟨path, heq, inner, hpath⟩)
    · obtain ⟨child, hchild, hrest⟩ := bind_eq_some_iff.1 hleaf
      exact ⟨child, hchild, .inl hrest⟩
    · cases path with
      | nil => exact absurd (List.cons.inj heq).1 h
      | cons name path =>
        obtain ⟨rfl, hrest⟩ := List.cons.inj heq
        obtain ⟨child, hchild, hbelow⟩ := bind_eq_some_iff.1 hpath
        exact ⟨child, hchild, .inr ⟨path, hrest, inner, hbelow⟩⟩
  · rintro ⟨child, hchild, hleaf | ⟨path, rfl, inner, hpath⟩⟩
    · exact .inl (bind_eq_some_iff.2 ⟨child, hchild, hleaf⟩)
    · exact .inr ⟨part :: path, rfl, inner, bind_eq_some_iff.2 ⟨child, hchild, hpath⟩⟩

theorem Named.lookup_eq_none {P : String → Prop}
    (h : (CapabilityNode.node children).Named P) (hpart : ¬ P part) :
    children.lookup part = none := by
  cases h with
  | node names below =>
    rw [eq_none_iff_forall_ne_some]
    exact fun child hchild => hpart (names _ (mem_of_lookup hchild))

theorem Named.of_lookup {P : String → Prop} {child : CapabilityNode}
    (h : (CapabilityNode.node children).Named P) (hchild : children.lookup part = some child) :
    child.Named P := by
  cases h with
  | node names below => exact below _ (mem_of_lookup hchild)

theorem Mirrors.complete_iff {n m : CapabilityNode} (h : n.Mirrors m) {segments : List String} :
    n.Complete segments ↔ m.Complete segments :=
  or_congr h.descend_leaf_iff (exists_congr fun _ =>
    and_congr_right fun _ => h.descend_node_iff)

end CapabilityNode

namespace PolicyServerWebhook

variable {pattern : String} {path : FieldPath}

theorem validateParts_eq_none {segments : List String} :
    ∀ {children : List (String × CapabilityNode)} {before : List String},
      (CapabilityNode.node children).Named (fun s => contains s '*' = false) →
      (validateParts pattern path children before segments = none
        ↔ (CapabilityNode.node children).Complete segments) := by
  induction segments with
  | nil =>
    intro children before _
    exact iff_of_false (by simp [validateParts]) not_complete_nil
  | cons part rest ih =>
    intro children before hnamed
    rw [validateParts]
    by_cases hwild : contains part '*' = true
    · rw [if_pos hwild]
      have hnone := hnamed.lookup_eq_none (show ¬ contains part '*' = false by simp [hwild])
      by_cases hstar : part = "*"
      · subst hstar
        rw [complete_star_iff hnone, ite_eq_right_iff]
        simp only [reduceCtorEq, imp_false, ne_eq, not_true, false_or, not_not]
      · rw [complete_cons_iff hstar, hnone, if_pos (.inl hstar)]
        simp only [reduceCtorEq, false_and, exists_false]
    · have hstar : part ≠ "*" := by
        rintro rfl
        exact hwild (by decide)
      rw [if_neg hwild, complete_cons_iff hstar]
      cases hchild : children.lookup part with
      | none => simp only [reduceCtorEq, false_and, exists_false]
      | some child =>
        simp only [some.injEq, exists_eq_left']
        cases child with
        | leaf =>
          rw [complete_leaf_iff]
          simp only [ite_eq_right_iff, reduceCtorEq, imp_false, not_not]
        | node inner => exact ih (hnamed.of_lookup hchild)

theorem validateSingleCapability_eq_none : validateSingleCapability pattern path = none
    ↔ pattern = "*" ∨ (node capabilityTree).Complete (split pattern '/') := by
  unfold validateSingleCapability
  have hnamed : (node capabilityTree).Named (fun s => contains s '*' = false) :=
    webhook_named.mono fun _ h => h.1
  by_cases hempty : pattern = ""
  · subst hempty
    rw [if_pos rfl]
    refine iff_of_false (by simp) ?_
    rw [split_of_not_contains (by decide)]
    rintro (h | h)
    · exact absurd h (by decide)
    · rw [complete_cons_iff (by decide)] at h
      obtain ⟨child, hchild, -⟩ := h
      have hnone : capabilityTree.lookup "" = none := rfl
      exact absurd (hnone.symm.trans hchild) (by simp)
  rw [if_neg hempty]
  by_cases hstar : pattern = "*"
  · simp [hstar]
  · rw [if_neg hstar, validateParts_eq_none hnamed]
    simp [hstar]

theorem validateNamespacedPoliciesCapabilities_eq_nil {capabilities : List String} :
    validateNamespacedPoliciesCapabilities capabilities = []
      ↔ ∀ pattern ∈ capabilities, pattern = "*" ∨ (node capabilityTree).Complete
        (split pattern '/') := by
  unfold validateNamespacedPoliciesCapabilities
  rw [checkEach_eq_nil]
  simp only [validateSingleCapability_eq_none, List.mem_iff_getElem?]
  constructor
  · rintro h pattern ⟨i, hi⟩
    exact h i pattern hi
  · exact fun h i pattern hi => h pattern ⟨i, hi⟩

theorem trim_of_complete (h : (node capabilityTree).Complete
    (split pattern '/')) : trim pattern = pattern := by
  have hname : ∀ {path : List String} {n : CapabilityNode},
      (node capabilityTree).descend path = some n →
      ∀ part ∈ path, ∀ c, contains part c = true → isWhitespace c = false := by
    intro path n hpath part hpart c hc
    have hall := (webhook_named.of_descend hpath part hpart).2
    rw [List.all_eq_true] at hall
    simpa using hall c (by simpa [contains] using hc)
  have hpart : ∀ part ∈ split pattern '/', ∀ c,
      contains part c = true → isWhitespace c = false := by
    rcases h with hleaf | ⟨path, hsplit, children, hpath⟩
    · exact hname hleaf
    · rw [hsplit]
      intro part hmem c hc
      rcases List.mem_append.1 hmem with hmem | hmem
      · exact hname hpath part hmem c hc
      · rw [List.mem_singleton.1 hmem] at hc
        have hstar : c = '*' := by simpa [contains] using hc
        rw [hstar]
        decide
  refine trim_of_forall fun c hc => ?_
  by_cases hsep : c = '/'
  · rw [hsep]
    decide
  · rw [← intercalate_split pattern '/', contains_intercalate (by simpa [contains] using hsep)]
      at hc
    obtain ⟨part, hmem, hc⟩ := hc
    exact hpart part hmem c hc

/-! ## Both sides agree -/

/-- **A pattern covers an operation**: `*`, its path, or a wildcard above. -/
def Covers (pattern : String) (path : List String) : Prop :=
  pattern = "*" ∨ pattern = String.intercalate "/" path
    ∨ ∃ above below, above ≠ [] ∧ below ≠ [] ∧ path = above ++ below
      ∧ pattern = String.intercalate "/" (above ++ ["*"])

theorem grants_iff_covers {segments : List String}
    (htrim : trim pattern = pattern) (hleaf : IsLeafPath segments) :
    Grants pattern (String.intercalate "/" segments) ↔ Covers pattern segments := by
  have hne : segments ≠ [] := by
    rintro rfl
    exact absurd hleaf (by simp [IsLeafPath, descend, root])
  have hsplit : split (String.intercalate "/" segments) '/' = segments :=
    (eq_intercalate_iff hne (contains_sep_of_descend hleaf)).1 rfl
  have hstar (l : List String) (hl : l ≠ []) : String.intercalate "/" (l ++ ["*"])
        = String.intercalate "/" l ++ "/*" := by
    rw [String.intercalate_append_of_ne_nil hl (List.cons_ne_nil _ _),
      String.intercalate_singleton, String.append_assoc]
    rfl
  unfold Grants Covers
  rw [htrim]
  refine or_congr_right (or_congr_right ?_)
  constructor
  · rintro ⟨q, rfl, hstart⟩
    obtain ⟨below, hbelow, heq⟩ := startsWith_sep_iff.1 hstart
    refine ⟨split q '/', below, split_ne_nil q '/', hbelow, hsplit.symm.trans heq, ?_⟩
    rw [hstar _ (split_ne_nil q '/')]
    exact congrArg (· ++ "/*") (intercalate_split q '/').symm
  · rintro ⟨above, below, habove, hbelow, rfl, rfl⟩
    refine ⟨String.intercalate "/" above, hstar above habove,
      startsWith_iff.2 ⟨String.intercalate "/" below, ?_⟩⟩
    exact String.intercalate_append_of_ne_nil habove hbelow

theorem accepted_of_admitted (h : pattern = "*" ∨ (node capabilityTree).Complete
      (split pattern '/')) :
    Accepted pattern ∧ trim pattern = pattern := by
  rcases h with rfl | h
  · exact ⟨⟨.allowAll, by decide +kernel⟩, by decide⟩
  · have htrim := trim_of_complete h
    refine ⟨(new_singleton_isOk_iff pattern).2 (.inl ?_), htrim⟩
    rw [documented_iff_split, htrim]
    rcases webhook_mirrors_root.complete_iff.1 h with
      hleaf | ⟨path, hsplit, hpath⟩
    · exact .inr (.inl hleaf)
    · cases path with
      | nil => exact .inl hsplit
      | cons part rest => exact .inr (.inr ⟨_, ⟨List.cons_ne_nil part rest, hpath⟩, hsplit⟩)

/-- **Webhook and policy server agree** about the lists that the webhook
accepts, and about the operations that they allow. -/
theorem admitted_capabilities_agree {capabilities : List String}
    (h : validateNamespacedPoliciesCapabilities capabilities = []) :
    ∃ host, new capabilities = .ok host ∧ ∀ c, (∃ op ∈ enumerateOperations,
            c = op.1 ++ "/" ++ op.2 ∧ host.isAllowed c = true)
        ↔ ∃ path, (CapabilityNode.node capabilityTree).descend path = some .leaf
          ∧ c = String.intercalate "/" path
          ∧ ∃ pattern ∈ capabilities, Covers pattern path := by
  have hadmitted := validateNamespacedPoliciesCapabilities_eq_nil.1 h
  obtain ⟨host, hnew, -⟩ := new_of_forall_accepted
    (fun p hp => (accepted_of_admitted (hadmitted p hp)).1) fun _ => .rfl
  refine ⟨host, hnew, fun c => ?_⟩
  have hpatterns {path : List String} (hpath : IsLeafPath path) :
      host.isAllowed (String.intercalate "/" path) = true
        ↔ ∃ pattern ∈ capabilities, Covers pattern path := by
    rw [isAllowed_iff_grants hnew]
    exact exists_congr fun p => and_congr_right fun hp =>
      grants_iff_covers (accepted_of_admitted (hadmitted p hp)).2 hpath
  calc (∃ op ∈ enumerateOperations, c = op.1 ++ "/" ++ op.2 ∧ host.isAllowed c = true)
      ↔ (∃ op ∈ enumerateOperations, c = op.1 ++ "/" ++ op.2) ∧ host.isAllowed c = true := by
        simp only [← and_assoc, exists_and_right]
    _ ↔ (∃ path, IsLeafPath path ∧ c = String.intercalate "/" path) ∧ host.isAllowed c = true := by
        rw [exists_operation_iff]
    _ ↔ ∃ path, (CapabilityNode.node capabilityTree).descend path = some .leaf
          ∧ c = String.intercalate "/" path
          ∧ ∃ pattern ∈ capabilities, Covers pattern path := by
        rw [← exists_and_right]
        refine exists_congr fun path => ?_
        rw [and_assoc, webhook_mirrors_root.descend_leaf_iff]
        refine and_congr_right fun hpath => and_congr_right ?_
        rintro rfl
        exact hpatterns hpath

theorem admitted_oci_and_lookup : ∃ host, new ["oci/v1/*", "net/v1/dns_lookup_host"] = .ok host
      ∧ host.isAllowed "oci/v1/manifest_digest" = true := by
  obtain ⟨host, hnew, hallowed⟩ := admitted_capabilities_agree
    (show validateNamespacedPoliciesCapabilities
      ["oci/v1/*", "net/v1/dns_lookup_host"] = [] by decide +kernel)
  obtain ⟨-, -, -, hhost⟩ := (hallowed "oci/v1/manifest_digest").2
    ⟨["oci", "v1", "manifest_digest"], rfl, by decide +kernel, "oci/v1/*", List.mem_cons_self,
      .inr (.inr ⟨["oci", "v1"], ["manifest_digest"], by simp, by simp, rfl, by decide +kernel⟩)⟩
  exact ⟨host, hnew, hhost⟩

end PolicyServerWebhook
