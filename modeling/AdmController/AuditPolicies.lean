import AdmController.Cluster

/-!
# The policies of the audit scanner

The audit scanner groups the policies by the kinds of resources (GVRs) that
their rules list, and drops what it cannot evaluate on existing resources.
-/

namespace AuditScanner

open List Except

open PoliciesV1 (RuleWithOperations PolicyServer)

/-! ## The cluster as the scanner sees it -/

structure GroupVersionResource where
  (group version resource : String)
deriving DecidableEq

structure GroupVersionKind where
  (group version kind : String)

/-- A policy, with the field that only the audit scanner reads. -/
structure PolicyResource where
  policy : PoliciesV1.Policy
  backgroundAudit : Bool

def PolicyResource.uniqueName (p : PolicyResource) : String := p.policy.getUniqueName

structure Service where
  name : String
  ports : List ℕ

inductive ClientError where
  | noKind (gvr : GroupVersionResource) (err : String)
  | noMapping (gvk : GroupVersionKind) (err : String)
  | noPolicyServer (name err : String)
  | noServices (name inNamespace err : String)
  | notOneService
  | noPort
  | badUrl (url err : String)
  | badSelector (name err : String)

/-- **The client of the scanner**: its reads, its options, and its parsers. -/
structure Client where
  (kubewardenNamespace policyServerURL : String)
  kindFor : GroupVersionResource → Except String GroupVersionKind
  /-- The name of the scope of a kind, in a version. -/
  restMapping : GroupVersionKind → String → Except String String
  getPolicyServer : String → Except String PolicyServer
  /-- The services of a namespace with an instance label. -/
  listServices : String → String → Except String (List Service)
  parseUrl : String → Except String String
  asSelector : LabelSelector → Except String (Labels → Bool)

structure Policy where
  resource : PolicyResource
  policyServer : String

/-! ## The rules of a policy -/

def filterWildcardRules (rules : List RuleWithOperations) : List RuleWithOperations :=
  rules.filter fun rule => !(rule.apiGroups.contains "*"
    || rule.apiVersions.contains "*" || rule.resources.contains "*")

def filterNonCreateOperations (rules : List RuleWithOperations) : List RuleWithOperations :=
  rules.filter fun rule => rule.operations.contains "CREATE"

def getRuleGVRs (rule : RuleWithOperations) : List GroupVersionResource :=
  rule.resources.flatMap fun resource =>
    rule.apiVersions.flatMap fun version =>
      rule.apiGroups.map fun group => ⟨group, version, resource⟩

def Client.isNamespacedResource (client : Client)
    (gvr : GroupVersionResource) : Except ClientError Bool := do
  let gvk ← (client.kindFor gvr).mapError (.noKind gvr)
  let scope ← (client.restMapping gvk gvr.version).mapError (.noMapping gvk)
  return scope = "namespace"

def ruleScopeMatchesResource (scope : Option String) (isNamespaced : Bool) : Bool :=
  match scope with
  | none => true
  | some scope =>
    if scope = "Cluster" then !isNamespaced
    else if scope = "Namespaced" then isNamespaced
    else true

structure ScopedGroupVersionResource where
  gvr : GroupVersionResource
  namespaced : Bool

def Client.addScoped (client : Client) (rule : RuleWithOperations)
    (scopedResources : List ScopedGroupVersionResource) (gvr : GroupVersionResource) :
    Except ClientError (List ScopedGroupVersionResource) := do
  let isNamespaced ← client.isNamespacedResource gvr
  if !ruleScopeMatchesResource rule.scope isNamespaced then return scopedResources
  else return scopedResources ++ [⟨gvr, isNamespaced⟩]

def Client.getScopedGroupVersionResources (client : Client) (rules : List RuleWithOperations) :
    Except ClientError (List ScopedGroupVersionResource) :=
  rules.foldlM (fun scopedResources rule =>
    (getRuleGVRs rule).foldlM (client.addScoped rule) scopedResources) []

def filterGroupVersionResourcesByScope
    (scopedResources : List ScopedGroupVersionResource) (namespaced : Bool) :
    List GroupVersionResource :=
  scopedResources.filterMap fun resource =>
    if resource.namespaced ≠ namespaced then none else some resource.gvr

/-! ## The policy server of a policy -/

def Client.getServiceByInstanceLabel (client : Client)
    (instanceName inNamespace : String) : Except ClientError Service := do
  let services ← (client.listServices inNamespace instanceName).mapError
    (.noServices instanceName inNamespace)
  match services with
  | [service] => return service
  | _ => throw .notOneService

/-- **The URL where a policy is evaluated.** -/
def Client.getPolicyServerURLRunningPolicy (client : Client)
    (policy : PolicyResource) : Except ClientError String := do
  let server := policy.policy.getPolicyServer
  let policyServer ← (client.getPolicyServer server).mapError (.noPolicyServer server)
  let service ← client.getServiceByInstanceLabel policyServer.nameWithPrefix
    client.kubewardenNamespace
  match service.ports with
  | [] => throw .noPort
  | port :: _ =>
    let url ← if client.policyServerURL ≠ "" then do
        let parsed ← (client.parseUrl client.policyServerURL).mapError
          (.badUrl client.policyServerURL)
        pure (parsed ++ "/audit/" ++ policy.uniqueName)
      else pure ("https://" ++ service.name ++ "."
        ++ client.kubewardenNamespace ++ ".svc:" ++ toString port
        ++ "/audit/" ++ policy.uniqueName)
    (client.parseUrl url).mapError (.badUrl url)

/-! ## Grouping policies -/

/-- The policies by GVR, and the names of evaluated, skipped and wrong ones. -/
structure Groups where
  policiesByGVR : HashMap GroupVersionResource (List Policy)
  (auditablePolicies skippedPolicies erroredPolicies : Finset String)

def Groups.empty : Groups := ⟨∅, ∅, ∅, ∅⟩

def addPolicyToMap (policiesByGVR : HashMap GroupVersionResource (List Policy))
    (gvr : GroupVersionResource) (policy : Policy) :
    HashMap GroupVersionResource (List Policy) :=
  match policiesByGVR.lookup gvr with
  | none => policiesByGVR.insert gvr [policy]
  | some value => policiesByGVR.insert gvr (value ++ [policy])

def Groups.skip (groups : Groups) (policy : PolicyResource) : Groups :=
  { groups with
    skippedPolicies := insert policy.uniqueName groups.skippedPolicies }

def Groups.fail (groups : Groups) (policy : PolicyResource) : Groups :=
  { groups with
    erroredPolicies := insert policy.uniqueName groups.erroredPolicies }

/-- Group one policy. -/
def Client.groupPolicy (client : Client) (namespaced : Bool) (groups : Groups)
    (policy : PolicyResource) : Groups :=
  let rules := filterWildcardRules policy.policy.getRules
  if rules.length = 0 then groups.skip policy
  else
    let rules := filterNonCreateOperations rules
    if rules.length = 0 then groups.skip policy
    else match client.getScopedGroupVersionResources rules with
    | .error _ => groups.fail policy
    | .ok scopedResources =>
      if scopedResources.length = 0 then groups.skip policy
      else
        let groupVersionResources := filterGroupVersionResourcesByScope scopedResources namespaced
        if groupVersionResources.length = 0 then groups
        else if !policy.backgroundAudit then groups.skip policy
        else if policy.policy.getStatus.policyStatus ≠ .active then groups.skip policy
        else match client.getPolicyServerURLRunningPolicy policy with
        | .error _ => groups.fail policy
        | .ok url =>
          { groups with
            auditablePolicies := insert policy.uniqueName groups.auditablePolicies
            policiesByGVR := groupVersionResources.foldl
              (fun m gvr => addPolicyToMap m gvr ⟨policy, url⟩)
              groups.policiesByGVR }

structure Policies where
  policiesByGVR : HashMap GroupVersionResource (List Policy)
  (policyNum skippedNum erroredNum : ℕ)

/-- **Group policies by GVR**, for namespaced resources or for the others. -/
def Client.groupPoliciesByGVR (client : Client)
    (policies : List PolicyResource) (namespaced : Bool) : Policies :=
  let groups := policies.foldl (client.groupPolicy namespaced) .empty
  { policiesByGVR := groups.policiesByGVR
    policyNum := groups.auditablePolicies.card
    skippedNum := groups.skippedPolicies.card
    erroredNum := groups.erroredPolicies.card }

def Policies.under (policies : Policies) (gvr : GroupVersionResource) : List Policy :=
  (policies.policiesByGVR.lookup gvr).getD []

/-! ## What a policy is audited for -/

def PolicyResource.auditedRules (p : PolicyResource) : List RuleWithOperations :=
  filterNonCreateOperations (filterWildcardRules p.policy.getRules)

def Client.selects (client : Client) (namespaced : Bool)
    (rule : RuleWithOperations) (gvr : GroupVersionResource) : Bool :=
  match client.isNamespacedResource gvr with
  | .error _ => false
  | .ok isNamespaced => isNamespaced == namespaced && ruleScopeMatchesResource rule.scope namespaced

def Client.gvrsOf (client : Client) (namespaced : Bool) (p : PolicyResource) :
    List GroupVersionResource :=
  p.auditedRules.flatMap fun rule =>
    (getRuleGVRs rule).filter (client.selects namespaced rule)

def Client.Knows (client : Client) (p : PolicyResource) : Prop :=
  ∀ rule ∈ p.auditedRules, ∀ gvr ∈ getRuleGVRs rule,
    ∃ isNamespaced, client.isNamespacedResource gvr = .ok isNamespaced

def Client.RunsAt (client : Client) (p : PolicyResource) (url : String) : Prop :=
  p.backgroundAudit = true ∧ p.policy.getStatus.policyStatus = .active
    ∧ client.getPolicyServerURLRunningPolicy p = .ok url

def Client.targets (client : Client) (namespaced : Bool) (p : PolicyResource) :
    List (GroupVersionResource × Policy) :=
  match client.getScopedGroupVersionResources p.auditedRules,
    client.getPolicyServerURLRunningPolicy p with
  | .ok scopedResources, .ok url =>
    if p.backgroundAudit = true ∧ p.policy.getStatus.policyStatus = .active then
      (filterGroupVersionResourcesByScope scopedResources namespaced).map fun gvr => (gvr, ⟨p, url⟩)
    else []
  | _, _ => []

section

variable {client : Client} {namespaced : Bool} {p : PolicyResource}
  {policies : List PolicyResource} {gvr : GroupVersionResource}

def Client.scopedOf (client : Client) (e : RuleWithOperations × GroupVersionResource) :
    Option ScopedGroupVersionResource :=
  match client.isNamespacedResource e.2 with
  | .error _ => none
  | .ok isNamespaced =>
    if ruleScopeMatchesResource e.1.scope isNamespaced then some ⟨e.2, isNamespaced⟩
    else none

variable {out : List ScopedGroupVersionResource} {rule : RuleWithOperations}

variable {acc : List ScopedGroupVersionResource}

open Client PolicyResource

theorem addScoped_eq_ok : client.addScoped rule acc gvr = .ok out
    ↔ (∃ isNamespaced, client.isNamespacedResource gvr = .ok isNamespaced)
      ∧ out = acc ++ (client.scopedOf (rule, gvr)).toList := by
  unfold addScoped scopedOf
  rw [Fallible.bind_eq_ok]
  cases hns : client.isNamespacedResource gvr with
  | error err => simp
  | ok isNamespaced =>
    rw [and_iff_right ⟨isNamespaced, rfl⟩]
    simp only [ok.injEq, exists_eq_left']
    cases ruleScopeMatchesResource rule.scope isNamespaced with
    | false =>
      show ok acc = .ok out ↔ out = acc ++ []
      rw [ok.injEq, append_nil, eq_comm]
    | true =>
      show ok _ = .ok out ↔ out = acc ++ [⟨gvr, isNamespaced⟩]
      rw [ok.injEq, eq_comm]

theorem foldlM_addScoped {gvrs : List GroupVersionResource} :
    gvrs.foldlM (client.addScoped rule) acc = .ok out ↔ (∀ gvr ∈ gvrs, ∃ isNamespaced,
            client.isNamespacedResource gvr = .ok isNamespaced)
        ∧ out = acc ++ gvrs.filterMap (fun gvr => client.scopedOf (rule, gvr)) := by
  induction gvrs generalizing acc with
  | nil =>
    show ok acc = .ok out ↔ _
    simp [eq_comm]
  | cons gvr gvrs ih =>
    simp only [foldlM_cons, Fallible.bind_eq_ok, addScoped_eq_ok, ih, forall_mem_cons]
    constructor
    · rintro ⟨_, ⟨hns, rfl⟩, hrest, rfl⟩
      refine ⟨⟨hns, hrest⟩, ?_⟩
      cases h : client.scopedOf (rule, gvr) <;> simp [h]
    · rintro ⟨⟨hns, hrest⟩, rfl⟩
      refine ⟨_, ⟨hns, rfl⟩, hrest, ?_⟩
      cases h : client.scopedOf (rule, gvr) <;> simp [h]

theorem getScopedGroupVersionResources_eq_ok {rules : List RuleWithOperations} :
    client.getScopedGroupVersionResources rules = .ok out
      ↔ (∀ rule ∈ rules, ∀ gvr ∈ getRuleGVRs rule, ∃ isNamespaced,
            client.isNamespacedResource gvr = .ok isNamespaced)
        ∧ out = rules.flatMap fun rule =>
          (getRuleGVRs rule).filterMap fun gvr =>
            client.scopedOf (rule, gvr) := by
  unfold getScopedGroupVersionResources
  suffices hacc : ∀ acc, rules.foldlM (fun scopedResources rule =>
      (getRuleGVRs rule).foldlM (client.addScoped rule) scopedResources) acc = .ok out
      ↔ (∀ rule ∈ rules, ∀ gvr ∈ getRuleGVRs rule, ∃ isNamespaced,
            client.isNamespacedResource gvr = .ok isNamespaced)
        ∧ out = acc ++ rules.flatMap fun rule =>
          (getRuleGVRs rule).filterMap fun gvr =>
            client.scopedOf (rule, gvr) by
    simpa using hacc []
  induction rules with
  | nil =>
    intro acc
    show ok acc = .ok out ↔ _
    simp [eq_comm]
  | cons rule rules ih =>
    intro acc
    simp only [foldlM_cons, Fallible.bind_eq_ok, foldlM_addScoped, ih,
      forall_mem_cons, flatMap_cons]
    constructor
    · rintro ⟨_, ⟨hns, rfl⟩, hrest, rfl⟩
      exact ⟨⟨hns, hrest⟩, append_assoc _ _ _⟩
    · rintro ⟨⟨hns, hrest⟩, rfl⟩
      exact ⟨_, ⟨hns, rfl⟩, hrest, (append_assoc _ _ _).symm⟩

theorem scopedOf_bind (rule : RuleWithOperations) (gvr : GroupVersionResource) :
    ((client.scopedOf (rule, gvr)).bind fun resource =>
        if resource.namespaced ≠ namespaced then none else some resource.gvr)
      = if client.selects namespaced rule gvr then some gvr else none := by
  unfold scopedOf selects
  cases client.isNamespacedResource gvr with
  | error err => simp
  | ok isNamespaced =>
    by_cases hns : isNamespaced = namespaced
    · subst hns
      cases hmatch : ruleScopeMatchesResource rule.scope isNamespaced <;> simp [hmatch]
    · cases hmatch : ruleScopeMatchesResource rule.scope isNamespaced <;> simp [hmatch, hns]

theorem filterGroupVersionResourcesByScope_eq :
    filterGroupVersionResourcesByScope (p.auditedRules.flatMap fun rule =>
        (getRuleGVRs rule).filterMap fun gvr => client.scopedOf (rule, gvr))
      namespaced = client.gvrsOf namespaced p := by
  unfold filterGroupVersionResourcesByScope gvrsOf
  rw [filterMap_flatMap]
  congr 1
  funext rule
  rw [filterMap_filterMap, ← filterMap_eq_filter]
  congr 1
  funext gvr
  rw [scopedOf_bind]
  rfl

theorem targets_of_runsAt {url : String} (hknows : client.Knows p) (hrun : client.RunsAt p url) :
    client.targets namespaced p = (client.gvrsOf namespaced p).map fun gvr => (gvr, ⟨p, url⟩) := by
  unfold targets
  rw [getScopedGroupVersionResources_eq_ok.2 ⟨hknows, rfl⟩, hrun.2.2]
  show (if _ then _ else _) = _
  rw [if_pos ⟨hrun.1, hrun.2.1⟩, filterGroupVersionResourcesByScope_eq]

theorem targets_eq_nil (h : ¬ (client.Knows p ∧ ∃ url, client.RunsAt p url)) :
    client.targets namespaced p = [] := by
  unfold targets
  split
  · next scopedResources url hscoped hurl =>
    refine if_neg fun hrun => h ⟨?_, url, hrun.1, hrun.2, hurl⟩
    exact (getScopedGroupVersionResources_eq_ok.1 hscoped).1
  · rfl

theorem mem_targets {e : GroupVersionResource × Policy} : e ∈ client.targets namespaced p
    ↔ client.Knows p ∧ client.RunsAt p e.2.policyServer ∧ e.2.resource = p
      ∧ e.1 ∈ client.gvrsOf namespaced p := by
  obtain ⟨gvr, policy, url⟩ := e
  by_cases h : client.Knows p ∧ ∃ url, client.RunsAt p url
  · obtain ⟨hknows, url', hrun⟩ := h
    rw [targets_of_runsAt hknows hrun]
    simp only [mem_map, Prod.mk.injEq, Policy.mk.injEq]
    constructor
    · rintro ⟨gvr', hgvr, rfl, rfl, rfl⟩
      exact ⟨hknows, hrun, rfl, hgvr⟩
    · rintro ⟨-, hrun', rfl, hgvr⟩
      exact ⟨gvr, hgvr, rfl, rfl, ok.inj (hrun.2.2.symm.trans hrun'.2.2)⟩
  · rw [targets_eq_nil h]
    exact iff_of_false not_mem_nil fun hmem => h ⟨hmem.1, _, hmem.2.1⟩

/-! ## The map -/

theorem lookup_addPolicyToMap (m : HashMap GroupVersionResource (List Policy))
    (gvr gvr' : GroupVersionResource) (policy : Policy) :
    (addPolicyToMap m gvr policy).lookup gvr'
      = if gvr = gvr' then some ((m.lookup gvr').getD [] ++ [policy]) else m.lookup gvr' := by
  unfold addPolicyToMap
  by_cases h : gvr = gvr'
  · subst h
    cases m.lookup gvr <;> simp
  · cases m.lookup gvr <;> simp [h, AList.lookup_insert_ne (Ne.symm h)]

theorem lookup_foldl_addPolicyToMap
    (l : List (GroupVersionResource × Policy)) (gvr : GroupVersionResource) :
    (l.foldl (fun m e => addPolicyToMap m e.1 e.2) ∅).lookup gvr
      = if (l.filter (·.1 = gvr)).map Prod.snd = [] then none
        else some ((l.filter (·.1 = gvr)).map Prod.snd) := by
  induction l using reverseRecOn with
  | nil => rfl
  | append_singleton l e ih =>
    rw [foldl_append, foldl_cons, foldl_nil, lookup_addPolicyToMap, ih, filter_append, map_append]
    by_cases h : e.1 = gvr
    · rw [if_pos h, filter_cons_of_pos (by simpa using h)]
      generalize (l.filter (·.1 = gvr)).map Prod.snd = others
      cases others <;> simp
    · rw [if_neg h, filter_cons_of_neg (by simpa using h)]
      simp only [filter_nil, map_nil, append_nil]

theorem groupPolicy_policiesByGVR (groups : Groups) :
    (client.groupPolicy namespaced groups p).policiesByGVR = (client.targets namespaced p).foldl
      (fun m e => addPolicyToMap m e.1 e.2) groups.policiesByGVR := by
  have hnone {scopedResources : List ScopedGroupVersionResource}
      (hscoped : client.getScopedGroupVersionResources p.auditedRules = .ok scopedResources)
      (hnil : filterGroupVersionResourcesByScope scopedResources namespaced
        = []) : client.targets namespaced p = [] := by
    unfold targets
    rw [hscoped]
    cases client.getPolicyServerURLRunningPolicy p <;> simp [hnil]
  have hrules (hnil : p.auditedRules = []) : client.targets namespaced p = [] := by
    refine @hnone [] ?_ rfl
    rw [hnil]
    rfl
  unfold groupPolicy
  dsimp only
  -- each early return is for a policy without entries
  split
  · next h =>
    rw [hrules (by rw [auditedRules, length_eq_zero_iff.1 h]; rfl)]
    rfl
  split
  · next h =>
    rw [hrules (length_eq_zero_iff.1 h)]
    rfl
  show Groups.policiesByGVR (match client.getScopedGroupVersionResources
    p.auditedRules with | .error _ => _ | .ok _ => _) = _
  cases hscoped : client.getScopedGroupVersionResources p.auditedRules with
  | error err =>
    have hnil : client.targets namespaced p = [] := by
      unfold targets
      rw [hscoped]
    rw [hnil]
    rfl
  | ok scopedResources =>
    dsimp only
    split
    · next h =>
      rw [hnone hscoped (by rw [length_eq_zero_iff.1 h]; rfl)]
      rfl
    split
    · next h =>
      rw [hnone hscoped (length_eq_zero_iff.1 h)]
      rfl
    unfold targets
    rw [hscoped]
    cases hurl : client.getPolicyServerURLRunningPolicy p with
    | error err => split <;> [rfl; (split <;> rfl)]
    | ok url =>
      dsimp only
      split
      · next hbg =>
        rw [if_neg (by simp_all)]
        rfl
      split
      · next hactive =>
        rw [if_neg fun h => hactive h.2]
        rfl
      next hbg hactive =>
      rw [if_pos ⟨by simpa using hbg, not_not.1 hactive⟩, foldl_map]

theorem groupPoliciesByGVR_policiesByGVR :
    (client.groupPoliciesByGVR policies namespaced).policiesByGVR
      = (policies.flatMap (client.targets namespaced)).foldl
        (fun m e => addPolicyToMap m e.1 e.2) ∅ := by
  suffices hacc : ∀ groups : Groups,
    (policies.foldl (client.groupPolicy namespaced) groups).policiesByGVR
      = (policies.flatMap (client.targets namespaced)).foldl
        (fun m e => addPolicyToMap m e.1 e.2) groups.policiesByGVR from
    hacc .empty
  intro groups
  induction policies generalizing groups with
  | nil => rfl
  | cons p policies ih => rw [foldl_cons, ih, groupPolicy_policiesByGVR, flatMap_cons, foldl_append]

theorem under_groupPoliciesByGVR : (client.groupPoliciesByGVR policies namespaced).under gvr
    = ((policies.flatMap (client.targets namespaced)).filter (·.1 = gvr)).map Prod.snd := by
  unfold Policies.under
  rw [groupPoliciesByGVR_policiesByGVR, lookup_foldl_addPolicyToMap]
  split
  · next h => exact h.symm
  · rfl

/-! ## Which policies are audited -/

def WithoutWildcards (rule : RuleWithOperations) : Prop :=
  "*" ∉ rule.apiGroups ∧ "*" ∉ rule.apiVersions ∧ "*" ∉ rule.resources

def ScopeFits (scope : Option String) (isNamespaced : Bool) : Prop :=
  (scope = some "Cluster" → isNamespaced = false)
    ∧ (scope = some "Namespaced" → isNamespaced = true)

/-- **A policy lists a GVR with an operation**, in a rule without wildcards. -/
def PolicyResource.Lists (p : PolicyResource) (namespaced : Bool)
    (gvr : GroupVersionResource) (operation : String) : Prop :=
  ∃ rule ∈ p.policy.getRules, WithoutWildcards rule
    ∧ gvr ∈ getRuleGVRs rule ∧ ScopeFits rule.scope namespaced
    ∧ operation ∈ rule.operations

def Client.KnowsListed (client : Client) (p : PolicyResource) : Prop :=
  ∀ rule ∈ p.policy.getRules, WithoutWildcards rule → ∀ gvr ∈ getRuleGVRs rule, ∃ isNamespaced,
    client.isNamespacedResource gvr = .ok isNamespaced

theorem mem_auditedRules : rule ∈ p.auditedRules ↔ rule ∈ p.policy.getRules
    ∧ WithoutWildcards rule ∧ "CREATE" ∈ rule.operations := by
  unfold auditedRules filterNonCreateOperations filterWildcardRules
  rw [mem_filter, mem_filter, and_assoc]
  simp [WithoutWildcards, and_assoc]

theorem ruleScopeMatchesResource_iff {scope : Option String} {isNamespaced : Bool} :
    ruleScopeMatchesResource scope isNamespaced = true ↔ ScopeFits scope isNamespaced := by
  unfold ruleScopeMatchesResource ScopeFits
  cases scope with
  | none => simp
  | some scope =>
    by_cases hcluster : scope = "Cluster"
    · simp [hcluster]
    · by_cases hnamespaced : scope = "Namespaced"
      · simp [hnamespaced]
      · simp [hcluster, hnamespaced]

theorem selects_iff : client.selects namespaced rule gvr = true
    ↔ client.isNamespacedResource gvr = .ok namespaced ∧ ScopeFits rule.scope namespaced := by
  unfold selects
  cases client.isNamespacedResource gvr with
  | error err => simp
  | ok isNamespaced => simp [ruleScopeMatchesResource_iff]

theorem mem_gvrsOf : gvr ∈ client.gvrsOf namespaced p
    ↔ client.isNamespacedResource gvr = .ok namespaced ∧ p.Lists namespaced gvr "CREATE" := by
  unfold gvrsOf PolicyResource.Lists
  simp only [mem_flatMap, mem_filter, mem_auditedRules, selects_iff]
  constructor
  · rintro ⟨rule, ⟨hrule, hwild, hcreate⟩, hgvr, hscope, hfits⟩
    exact ⟨hscope, rule, hrule, hwild, hgvr, hfits, hcreate⟩
  · rintro ⟨hscope, rule, hrule, hwild, hgvr, hfits, hcreate⟩
    exact ⟨rule, ⟨hrule, hwild, hcreate⟩, hgvr, hscope, hfits⟩

theorem exists_under_iff (hp : p ∈ policies) :
    (∃ e ∈ (client.groupPoliciesByGVR policies namespaced).under gvr, e.resource = p)
      ↔ client.Knows p ∧ (∃ url, client.RunsAt p url)
        ∧ client.isNamespacedResource gvr = .ok namespaced
        ∧ p.Lists namespaced gvr "CREATE" := by
  rw [under_groupPoliciesByGVR, ← mem_gvrsOf]
  simp only [mem_map, mem_filter, mem_flatMap, mem_targets, decide_eq_true_eq]
  constructor
  · rintro ⟨e, ⟨⟨gvr', e⟩, ⟨⟨q, hq, hknows, hrun, rfl, hgvr⟩, rfl⟩, rfl⟩, rfl⟩
    exact ⟨hknows, ⟨_, hrun⟩, hgvr⟩
  · rintro ⟨hknows, ⟨url, hrun⟩, hgvr⟩
    exact ⟨⟨p, url⟩, ⟨(gvr, ⟨p, url⟩), ⟨⟨p, hp, hknows, hrun, rfl, hgvr⟩, rfl⟩, rfl⟩, rfl⟩

/-- **When the groups are what one expects**: policies are audited for the GVRs
that they list with `CREATE` or `*`, if each `*` comes with a `CREATE`. -/
theorem groupPoliciesByGVR_iff (hmapper : ∀ p ∈ policies, client.KnowsListed p) :
    (∀ p ∈ policies, ∀ gvr, (∃ e ∈ (client.groupPoliciesByGVR policies namespaced).under gvr,
            e.resource = p)
          ↔ (∃ url, client.RunsAt p url) ∧ client.isNamespacedResource gvr = .ok namespaced
            ∧ (p.Lists namespaced gvr "CREATE" ∨ p.Lists namespaced gvr "*"))
      ↔ ∀ p ∈ policies, ∀ gvr, (∃ url, client.RunsAt p url) →
        client.isNamespacedResource gvr = .ok namespaced →
          p.Lists namespaced gvr "*" → p.Lists namespaced gvr "CREATE" := by
  refine forall₂_congr fun p hp => forall_congr' fun gvr => ?_
  have hknows : client.Knows p := fun rule hrule => by
    obtain ⟨hmem, hwild, -⟩ := mem_auditedRules.1 hrule
    exact hmapper p hp rule hmem hwild
  rw [exists_under_iff hp, and_iff_right hknows]
  constructor
  · intro h hrun hscope hall
    exact (h.2 ⟨hrun, hscope, .inr hall⟩).2.2
  · intro h
    constructor
    · rintro ⟨hrun, hscope, hcreate⟩
      exact ⟨hrun, hscope, .inl hcreate⟩
    · rintro ⟨hrun, hscope, hcreate | hall⟩
      · exact ⟨hrun, hscope, hcreate⟩
      · exact ⟨hrun, hscope, h hrun hscope hall⟩

end

def sampleClient : Client where
  kubewardenNamespace := "kubewarden"
  policyServerURL := ""
  kindFor gvr := .ok ⟨gvr.group, gvr.version, gvr.resource⟩
  restMapping _ _ := .ok "namespace"
  getPolicyServer name := .ok (.created name none)
  listServices _ name := .ok [⟨name, [8443]⟩]
  parseUrl url := .ok url
  asSelector s := .ok s.matchesLabels

def podsPolicy (rules : List RuleWithOperations) : PolicyResource where
  policy := (PoliciesV1.Policy.created "team" "p"
    { PoliciesV1.PolicySpec.ofModule "registry://example.com/p:v1" with
      rules := rules }).withStatus ⟨.active, none, []⟩
  backgroundAudit := true

def pods : GroupVersionResource := ⟨"", "v1", "pods"⟩

def podsRule (operations : List String) : RuleWithOperations :=
  ⟨operations, [""], ["v1"], ["pods"], none⟩

theorem mem_getRules_podsPolicy {operations : List String} {rule : RuleWithOperations}
    (h : rule ∈ (podsPolicy [podsRule operations]).policy.getRules) :
    rule = { podsRule operations with scope := some "Namespaced" } :=
  mem_singleton.1 h

theorem groupPoliciesByGVR_iff_create :
    ∃ e ∈ (sampleClient.groupPoliciesByGVR [podsPolicy [podsRule ["CREATE"]]]
      true).under pods, e.resource = podsPolicy [podsRule ["CREATE"]] := by
  have h := @groupPoliciesByGVR_iff sampleClient true [podsPolicy [podsRule ["CREATE"]]]
    (fun p hp rule hrule hwild gvr hgvr => ⟨true, rfl⟩)
  refine (h.2 ?_ _ mem_cons_self pods).2
    ⟨⟨_, rfl, rfl, rfl⟩, rfl, .inl ⟨_, mem_singleton.2 rfl, ?_⟩⟩
  · rintro p hp gvr - - ⟨rule, hrule, -, -, -, hall⟩
    rw [mem_singleton.1 hp] at hrule
    rw [mem_getRules_podsPolicy hrule] at hall
    exact absurd hall (by decide)
  · refine ⟨?_, ?_, ?_, ?_⟩
    · exact ⟨by decide, by decide, by decide⟩
    · decide
    · exact ⟨by simp, by simp⟩
    · decide

/-- **A rule for all operations is not audited**, for an active policy. -/
theorem all_operations_are_not_audited :
    (∃ url, sampleClient.RunsAt (podsPolicy [podsRule ["*"]]) url)
      ∧ sampleClient.isNamespacedResource pods = .ok true
      ∧ (podsPolicy [podsRule ["*"]]).Lists true pods "*"
      ∧ (sampleClient.groupPoliciesByGVR [podsPolicy [podsRule ["*"]]] true).under pods = [] := by
  refine ⟨⟨_, rfl, rfl, rfl⟩, rfl, ⟨_, mem_singleton.2 rfl, ?_⟩, ?_⟩
  · exact ⟨⟨by decide, by decide, by decide⟩, by decide, ⟨by simp, by simp⟩, by decide⟩
  · rfl

end AuditScanner
