import AdmController.AllowedResources

/-!
# What the allow list lets a namespaced policy match

The controller compares the texts of a rule with those of the allow list. No
wildcard is accepted as a group or as the parent of a resource.
-/

namespace Controller

open RustStr List

open PoliciesV1

/-! ## What rules match -/

def named (rule : RuleWithOperations) : NamedRuleWithOperations where
  apiGroups := some rule.apiGroups
  apiVersions := some rule.apiVersions
  resources := some rule.resources
  operations := some rule.operations
  resourceNames := none
  scope := rule.scope

/-- **A rule can match a resource, or a subresource of it**, in some version. -/
def CanMatch (rule : RuleWithOperations) (apiGroup resource subresource : String) : Prop :=
  ∃ (request : MatchRequest) (version : String),
    (named rule).matches request ⟨apiGroup, version, resource, subresource⟩

def parentResource (resource : String) : String :=
  match splitOnce resource '/' with
  | some (parent, _) => parent
  | none => resource

def Literal (s : String) : Prop := contains s '*' = false

/-- **A group and a resource are listed together**, in one entry. -/
def ListedTogether (entries : List Rule) (apiGroup resource : String) : Prop :=
  ∃ entry ∈ entries, apiGroup ∈ entry.apiGroups ∧ resource ∈ entry.resources

theorem not_contains_parentResource (resource : String) :
    contains (parentResource resource) '/' = false := by
  unfold parentResource
  split
  · next parent sub h => exact (splitOnce_eq_some.1 h).2
  · next h =>
    unfold splitOnce at h
    split at h
    · exact absurd h (by simp)
    · next hc => exact Bool.eq_false_iff.2 hc

theorem parentResource_of_resourceMatches {kind : ResourceKind}
    {pattern : String} (h : resourceMatches kind pattern = true) :
    parentResource pattern = "*" ∨ parentResource pattern = kind.resource := by
  unfold resourceMatches at h
  unfold parentResource
  cases hsplit : splitOnce pattern '/' with
  | none =>
    rw [hsplit] at h
    simpa using (Bool.and_eq_true_iff.1 h).1
  | some parts =>
    rw [hsplit] at h
    simpa using (Bool.and_eq_true_iff.1 h).1

theorem CanMatch.items {rule : RuleWithOperations} {apiGroup resource subresource : String}
    (h : CanMatch rule apiGroup resource subresource) :
    ("*" ∈ rule.apiGroups ∨ apiGroup ∈ rule.apiGroups) ∧ ∃ pattern ∈ rule.resources,
      parentResource pattern = "*" ∨ parentResource pattern = resource := by
  obtain ⟨request, version, h⟩ := h
  simp only [NamedRuleWithOperations.matches, named, Option.getD_some,
    Bool.and_eq_true, hasOrStar, Bool.or_eq_true, contains_iff_mem,
    any_eq_true] at h
  obtain ⟨⟨⟨⟨⟨-, hgroup⟩, -⟩, pattern, hmem, hpattern⟩, -⟩, -⟩ := h
  exact ⟨hgroup, pattern, hmem, parentResource_of_resourceMatches hpattern⟩

variable {a : NamespacedPoliciesAllowedResources}

/-! ## What the controller accepts -/

theorem allows_iff {apiGroup resource : String} :
    allows a apiGroup resource = true ↔ Literal apiGroup ∧ Literal (parentResource resource)
      ∧ parentResource resource ≠ ""
      ∧ ListedTogether a apiGroup (parentResource resource) := by
  have hdef : allows a apiGroup resource = if contains apiGroup '*' then false
        else if parentResource resource = "" ∨ contains (parentResource resource) '*' then false
        else a.any fun entry => entry.apiGroups.contains apiGroup
          && entry.resources.contains (parentResource resource) := rfl
  rw [hdef]
  unfold Literal ListedTogether
  by_cases hgroup : contains apiGroup '*' = true
  · simp [hgroup]
  · by_cases hparent : parentResource resource = ""
    · simp [hparent]
    · by_cases hstar : contains (parentResource resource) '*' = true
      · simp [hstar]
      · simp [hgroup, hparent, hstar]

theorem listedTogether_validate {entries : List Rule} {apiGroup resource : String} :
    ListedTogether (validateNamespacedPoliciesAllowedResources entries) apiGroup resource
      ↔ ListedTogether entries apiGroup resource ∧ validateAPIGroup apiGroup = true
        ∧ validateResource resource = true := by
  constructor
  · rintro ⟨used, hused, hgroup, hresource⟩
    obtain ⟨entry, hentry, hsome⟩ := mem_filterMap.1 hused
    dsimp only at hsome
    split at hsome
    · exact absurd hsome (by simp)
    split at hsome
    · exact absurd hsome (by simp)
    cases hsome
    have hg := mem_filter.1 hgroup
    have hr := mem_filter.1 hresource
    exact ⟨⟨entry, hentry, hg.1, hr.1⟩, hg.2, hr.2⟩
  · rintro ⟨⟨entry, hentry, hgroup, hresource⟩, hvalidGroup, hvalidResource⟩
    have hg := mem_filter.2 ⟨hgroup, hvalidGroup⟩
    have hr := mem_filter.2 ⟨hresource, hvalidResource⟩
    refine ⟨⟨_, [], _, none⟩, mem_filterMap.2 ⟨entry, hentry, ?_⟩, hg, hr⟩
    rw [if_neg (length_pos_of_mem hg).ne', if_neg (length_pos_of_mem hr).ne']

theorem isNamespacedPolicyAllowed_iff {policy : Policy} (hns : policy.getNamespace ≠ "") :
    (isNamespacedPolicyAllowed policy a).1 = true
      ↔ ∀ rule ∈ policy.getRules, ∀ apiGroup ∈ rule.apiGroups,
        ∀ resource ∈ rule.resources, allows a apiGroup resource = true := by
  unfold isNamespacedPolicyAllowed disallowedTargets
  rw [if_neg hns]
  simp only [decide_eq_true_eq, length_eq_zero_iff, destutter_eq_nil,
    ← length_eq_zero_iff (l := insertionSort _ _),
    length_insertionSort]
  simp [flatMap_eq_nil_iff]

/-- **What an allowed policy can match is listed** in one raw entry. Conversely,
groups and parents without wildcards that are listed are allowed, unless empty.
-/
theorem allowed_targets_are_listed (entries : List Rule) (policy : Policy)
    (hns : policy.getNamespace ≠ "") :
    ((isNamespacedPolicyAllowed policy
          (validateNamespacedPoliciesAllowedResources entries)).1 = true →
        ∀ rule ∈ policy.getRules, ∀ apiGroup resource subresource,
          CanMatch rule apiGroup resource subresource → ListedTogether entries apiGroup resource)
      ∧ ((∀ rule ∈ policy.getRules, ∀ apiGroup ∈ rule.apiGroups, ∀ resource ∈ rule.resources,
              Literal apiGroup ∧ Literal (parentResource resource) ∧ parentResource resource ≠ ""
                ∧ ListedTogether entries apiGroup (parentResource resource)) →
          (isNamespacedPolicyAllowed policy
            (validateNamespacedPoliciesAllowedResources entries)).1 = true) := by
  rw [isNamespacedPolicyAllowed_iff hns]
  constructor
  · intro hallowed rule hrule apiGroup resource subresource hmatch
    obtain ⟨hgroup, pattern, hpattern, hparent⟩ := hmatch.items
    -- a wildcard is never allowed, whatever stands beside it
    have hgroup : apiGroup ∈ rule.apiGroups := by
      refine hgroup.resolve_left fun hstar => ?_
      have hliteral := (allows_iff.1 (hallowed rule hrule _ hstar _ hpattern)).1
      exact absurd hliteral (by unfold Literal; decide)
    obtain ⟨-, hliteral, -, hlisted⟩ := allows_iff.1 (hallowed rule hrule _ hgroup _ hpattern)
    have hparent : parentResource pattern = resource := by
      refine hparent.resolve_left fun hstar => ?_
      rw [hstar] at hliteral
      exact absurd hliteral (by unfold Literal; decide)
    rw [← hparent]
    exact (listedTogether_validate.1 hlisted).1
  · intro hnamed rule hrule apiGroup hgroup resource hresource
    obtain ⟨hg, hr, hne, hlisted⟩ := hnamed rule hrule _ hgroup _ hresource
    refine allows_iff.2 ⟨hg, hr, hne, listedTogether_validate.2 ⟨hlisted, ?_, ?_⟩⟩
    · show (!contains apiGroup '*') = true
      rw [hg]
      rfl
    · unfold validateResource
      rw [hr, not_contains_parentResource]
      simpa using hne

def teamPolicy (apiGroups resources : List String) : Policy :=
  .created "team" "p"
    { PolicySpec.ofModule "registry://example.com/p:v1" with
      rules := [⟨["CREATE"], apiGroups, ["v1"], resources, none⟩] }

def allowedApps : List Rule :=
  [⟨["apps", "*"], [], ["deployments", "*", "pods/exec"], none⟩, ⟨[""], [], ["pods"], none⟩]

def deploymentsRule : RuleWithOperations :=
  ⟨["CREATE"], ["apps"], ["v1"], ["deployments/*"], some "Namespaced"⟩

theorem canMatch_deploymentsRule : CanMatch deploymentsRule "apps" "deployments" "scale" :=
  ⟨⟨.create, ⟨"apps", "v1", "deployments", "scale"⟩, [], "d", true, none, none,
    none⟩, "v1", by decide⟩

theorem allowed_targets_are_listed_apps :
    (isNamespacedPolicyAllowed (teamPolicy ["apps"] ["deployments/*"])
      (validateNamespacedPoliciesAllowedResources allowedApps)).1 = true
      ∧ CanMatch deploymentsRule "apps" "deployments" "scale"
      ∧ ListedTogether allowedApps "apps" "deployments" := by
  have h := allowed_targets_are_listed allowedApps
    (teamPolicy ["apps"] ["deployments/*"]) (by decide)
  have hallowed := h.2 (by
    intro rule hrule apiGroup hgroup resource hresource
    rw [mem_singleton.1 hrule] at hgroup hresource
    rw [mem_singleton.1 hgroup, mem_singleton.1 hresource]
    unfold Literal
    exact ⟨by decide, by decide, by decide, ⟨_, mem_cons_self, by decide, by decide⟩⟩)
  exact ⟨hallowed, canMatch_deploymentsRule,
    h.1 hallowed deploymentsRule (mem_singleton.2 rfl) _ _ _ canMatch_deploymentsRule⟩

/-- **An empty parent is not allowed even where it is listed**: `/status`. -/
theorem empty_parent_is_rejected :
    ListedTogether [⟨["apps"], [], [""], none⟩] "apps" (parentResource "/status")
      ∧ Literal "apps" ∧ Literal (parentResource "/status")
      ∧ (teamPolicy ["apps"] ["/status"]).getNamespace ≠ ""
      ∧ (teamPolicy ["apps"] ["/status"]).getRules.map
        (fun rule => (rule.apiGroups, rule.resources))
        = [(["apps"], ["/status"])]
      ∧ (isNamespacedPolicyAllowed (teamPolicy ["apps"] ["/status"])
        (validateNamespacedPoliciesAllowedResources [⟨["apps"], [], [""], none⟩])).1 = false := by
  refine ⟨⟨_, mem_cons_self, by decide, by decide⟩, ?_, ?_, ?_, rfl, ?_⟩
  · unfold Literal
    decide
  · unfold Literal
    decide
  · decide
  · decide +kernel

end Controller
