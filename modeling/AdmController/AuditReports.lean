import Mathlib.Algebra.GroupWithZero.Nat
import AdmController.AuditPolicies

/-!
# The reports of the audit scanner

For each resource the scanner collects the answers of the policy servers in a
report with a summary, documented as a count of policies.
-/

namespace AuditScanner

open List PolicyResource

open PoliciesV1 (RuleWithOperations)

/-! ## Auditing a resource -/

structure Resource where
  (uid name inNamespace : String)
  labels : Labels

structure ResponseStatus where
  code : ℤ
  message : String

structure AdmissionResponse where
  allowed : Bool
  result : Option ResponseStatus

/-- How the policy servers answer about a resource as if it was created. -/
abbrev PolicyServers := String → Resource → Except String AdmissionResponse

/-- What was found out about a policy; no answer if something went wrong. -/
structure PolicyAuditResult where
  policy : PolicyResource
  admissionReviewResponse : Option AdmissionResponse
  errored : Bool
  answered : errored = false → admissionReviewResponse.isSome = true

variable (client : Client)

def Client.policyMatches (policy : PolicyResource) (resource : Resource) : Bool :=
  match policy.policy.getObjectSelector with
  | none => true
  | some selector =>
    match client.asSelector selector with
    | .error _ => false
    | .ok selects => selects resource.labels

variable (servers : PolicyServers) (resource : Resource)

def Client.auditPolicy (policy : Policy) : Option PolicyAuditResult :=
  if client.policyMatches policy.resource resource then
    match servers policy.policyServer resource with
    | .error _ => some ⟨policy.resource, none, true, by simp⟩
    | .ok response => some ⟨policy.resource, some response,
      response.result.any (·.code = 500), fun _ => rfl⟩
  else none

inductive PolicyResult where
  | pass | fail | error
deriving DecidableEq

structure ReportResult where
  policy : String
  result : PolicyResult
  message : String

structure ReportSummary where
  (pass fail error skip : ℕ)

/-- **The report about a resource.** Its name is the UID of the resource. -/
structure Report where
  (name inNamespace : String)
  summary : ReportSummary
  results : List ReportResult

def computePolicyResult (r : PolicyAuditResult) : PolicyResult :=
  if r.errored then .error
  else if r.admissionReviewResponse.any (·.allowed) then .pass
  else .fail

def newReportResult (r : PolicyAuditResult) : ReportResult where
  policy := r.policy.uniqueName
  result := computePolicyResult r
  message := ((r.admissionReviewResponse.bind (·.result)).map (·.message)).getD ""

def newReport : Report := ⟨resource.uid, resource.inNamespace, ⟨0, 0, 0, 0⟩, []⟩

def Report.setErrorPolicies (report : Report) (n : ℕ) : Report :=
  { report with summary := { report.summary with error := n } }

def Report.setSkipPolicies (report : Report) (n : ℕ) : Report :=
  { report with summary := { report.summary with skip := n } }

def ReportSummary.add (summary : ReportSummary) : PolicyResult → ReportSummary
  | .fail => { summary with fail := summary.fail + 1 }
  | .error => { summary with error := summary.error + 1 }
  | .pass => { summary with pass := summary.pass + 1 }

def Report.addResult (report : Report) (r : PolicyAuditResult) : Report :=
  let result := newReportResult r
  { report with
    summary := report.summary.add result.result
    results := report.results ++ [result] }

variable (policies : List Policy)

def Client.auditResults (resource : Resource) : List PolicyAuditResult :=
  policies.filterMap (client.auditPolicy servers resource)

/-- **The report about a resource**, for results in the order of arrival. -/
def buildReport (skippedNum erroredNum : ℕ) (results : List PolicyAuditResult) : Report :=
  results.foldl Report.addResult (((newReport resource).setErrorPolicies erroredNum).setSkipPolicies
    skippedNum)

def Client.Audits (skippedNum erroredNum : ℕ) (resource : Resource) (report : Report) : Prop :=
  ∃ results, results.Perm (client.auditResults servers policies resource)
    ∧ report = buildReport resource skippedNum erroredNum results

/-! ## What a report says -/

theorem buildReport_eq (skippedNum erroredNum : ℕ) (results : List PolicyAuditResult) :
    buildReport resource skippedNum erroredNum results
      = { name := resource.uid
          inNamespace := resource.inNamespace
          summary :=
            { pass := results.countP (computePolicyResult · = .pass)
              fail := results.countP (computePolicyResult · = .fail)
              error := erroredNum + results.countP (computePolicyResult · = .error)
              skip := skippedNum }
          results := results.map newReportResult } := by
  unfold buildReport
  induction results using reverseRecOn with
  | nil => rfl
  | append_singleton results r ih =>
    rw [foldl_append, ih]
    unfold Report.addResult newReportResult
    cases h : computePolicyResult r <;> simp [h, ReportSummary.add, countP_append, Nat.add_assoc]

theorem auditResults_policies (resource : Resource) :
    (client.auditResults servers policies resource).map (·.policy) = (policies.filter fun p =>
          client.policyMatches p.resource resource).map (·.resource) := by
  unfold Client.auditResults Client.auditPolicy
  induction policies with
  | nil => rfl
  | cons p policies ih =>
    by_cases h : client.policyMatches p.resource resource = true
    · cases hs : servers p.policyServer resource <;> simp [h, hs, ← ih]
    · simpa [h] using ih

/-- **A report counts policies**, each of which has at most one result. -/
structure Report.CountsPolicies (report : Report) (erroredNum : ℕ) : Prop where
  oneEach : (report.results.map (·.policy)).Nodup
  pass : report.summary.pass
    = ((report.results.filter (·.result = .pass)).map (·.policy)).toFinset.card
  fail : report.summary.fail
    = ((report.results.filter (·.result = .fail)).map (·.policy)).toFinset.card
  error : report.summary.error = erroredNum + ((report.results.filter (·.result = .error)).map
        (·.policy)).toFinset.card

theorem countP_eq_card {results : List PolicyAuditResult}
    (h : (results.map (·.policy.uniqueName)).Nodup) (status : PolicyResult) :
    results.countP (computePolicyResult · = status)
      = (((results.map newReportResult).filter (·.result = status)).map
          (·.policy)).toFinset.card := by
  have hnames : ((results.map newReportResult).filter (·.result = status)).map (·.policy)
      = (results.filter (computePolicyResult · = status)).map (·.policy.uniqueName) := by
    rw [filter_map, map_map]
    rfl
  rw [hnames, toFinset_card_of_nodup (h.sublist (filter_sublist.map _)), length_map,
    countP_eq_length_filter]

theorem Client.Audits.countsPolicies {client : Client} {servers : PolicyServers}
    {policies : List Policy} {skippedNum erroredNum : ℕ} {resource : Resource} {report : Report}
    (h : client.Audits servers policies skippedNum erroredNum resource report)
    (hnames : (policies.map (·.resource.uniqueName)).Nodup) :
    report.CountsPolicies erroredNum := by
  obtain ⟨results, hperm, rfl⟩ := h
  have hpolicies : results.map (·.policy.uniqueName) |>.Nodup := by
    have hasked := congrArg (map uniqueName)
      (auditResults_policies client servers policies resource)
    rw [map_map, map_map] at hasked
    refine (hperm.map _).nodup_iff.2 ?_
    refine hasked ▸ ?_
    exact hnames.sublist (filter_sublist.map _)
  rw [buildReport_eq]
  exact {
    oneEach := by
      rw [map_map]
      exact hpolicies
    pass := countP_eq_card hpolicies _
    fail := countP_eq_card hpolicies _
    error := congrArg (erroredNum + ·) (countP_eq_card hpolicies _) }

/-! ## How often a policy is listed -/

def timesListed (rule : RuleWithOperations) (gvr : GroupVersionResource) : ℕ :=
  rule.resources.count gvr.resource
    * (rule.apiVersions.count gvr.version * rule.apiGroups.count gvr.group)

def PolicyResource.listings (p : PolicyResource) (namespaced : Bool)
    (gvr : GroupVersionResource) : ℕ :=
  (p.auditedRules.map fun rule =>
    if ruleScopeMatchesResource rule.scope namespaced then timesListed rule gvr
    else 0).sum

theorem sum_map_ite_eq {α : Type} [DecidableEq α] (l : List α) (a : α)
    (n : ℕ) : (l.map fun b => if b = a then n else 0).sum = l.count a * n := by
  induction l with
  | nil => simp
  | cons b l ih =>
    rw [map_cons, sum_cons, ih, count_cons, Nat.add_mul, Nat.add_comm]
    by_cases h : b = a <;> simp [h]

theorem count_getRuleGVRs (rule : RuleWithOperations) (gvr : GroupVersionResource) :
    (getRuleGVRs rule).count gvr = timesListed rule gvr := by
  obtain ⟨group, version, resource⟩ := gvr
  unfold getRuleGVRs timesListed
  rw [count_flatMap, ← sum_map_ite_eq]
  congr 2
  funext r
  show count _ (rule.apiVersions.flatMap _) = _
  by_cases hr : r = resource
  · subst hr
    rw [if_pos rfl, count_flatMap, ← sum_map_ite_eq]
    congr 2
    funext v
    show count _ (rule.apiGroups.map _) = _
    by_cases hv : v = version
    · subst hv
      rw [if_pos rfl]
      exact count_map_of_injective _
        (fun g => GroupVersionResource.mk g v r) (fun _ _ h => by cases h; rfl)
        group
    · rw [if_neg hv, count_eq_zero]
      intro hmem
      obtain ⟨g, -, heq⟩ := mem_map.1 hmem
      cases heq
      exact hv rfl
  · rw [if_neg hr, count_eq_zero]
    intro hmem
    obtain ⟨v, -, hmem⟩ := mem_flatMap.1 hmem
    obtain ⟨g, -, heq⟩ := mem_map.1 hmem
    cases heq
    exact hr rfl

section

variable {client : Client} {namespaced : Bool} {p : PolicyResource}
  {policies : List PolicyResource} {gvr : GroupVersionResource}

theorem count_gvrsOf (h : client.isNamespacedResource gvr = .ok namespaced) :
    (client.gvrsOf namespaced p).count gvr = p.listings namespaced gvr := by
  unfold Client.gvrsOf listings
  rw [count_flatMap]
  congr 2
  funext rule
  show ((getRuleGVRs rule).filter (client.selects namespaced rule)).count gvr = _
  have hselects : client.selects namespaced rule gvr
      = ruleScopeMatchesResource rule.scope namespaced := by
    rw [Client.selects, h]
    simp
  by_cases hscope : ruleScopeMatchesResource rule.scope namespaced = true
  · rw [if_pos hscope, count_filter (hselects.trans hscope), count_getRuleGVRs]
  · rw [if_neg hscope, count_eq_zero]
    intro hmem
    exact hscope (hselects ▸ (mem_filter.1 hmem).2)

def Client.entries (client : Client) (namespaced : Bool) (p : PolicyResource)
    (gvr : GroupVersionResource) : ℕ :=
  (client.targets namespaced p).countP (·.1 = gvr)

theorem entries_of_runsAt {url : String} (hknows : client.Knows p) (hrun : client.RunsAt p url)
    (h : client.isNamespacedResource gvr = .ok namespaced) :
    client.entries namespaced p gvr = p.listings namespaced gvr := by
  unfold Client.entries
  rw [targets_of_runsAt hknows hrun, countP_map, ← count_gvrsOf h]
  exact countP_congr fun gvr' _ => by simp

theorem of_entries_pos (h : 0 < client.entries namespaced p gvr) :
    client.Knows p ∧ (∃ url, client.RunsAt p url)
      ∧ client.isNamespacedResource gvr = .ok namespaced := by
  obtain ⟨e, he, hgvr⟩ := countP_pos_iff.1 h
  obtain ⟨hknows, hrun, -, hmem⟩ := mem_targets.1 he
  rw [decide_eq_true_eq] at hgvr
  exact ⟨hknows, ⟨_, hrun⟩, hgvr ▸ (mem_gvrsOf.1 hmem).1⟩

theorem filter_under_names (f : PolicyResource → Bool) :
    ((((client.groupPoliciesByGVR policies namespaced).under gvr).filter
        fun e => f e.resource).map (·.resource.uniqueName))
      = policies.flatMap fun p =>
        replicate (if f p then client.entries namespaced p gvr else 0) p.uniqueName := by
  rw [under_groupPoliciesByGVR, filter_flatMap, map_flatMap, filter_flatMap, map_flatMap]
  congr 1
  funext p
  -- all entries of a policy are about that policy
  have hsame : ∀ e ∈ ((client.targets namespaced p).filter
      (·.1 = gvr)).map Prod.snd, e.resource = p := by
    intro e he
    obtain ⟨entry, hentry, rfl⟩ := mem_map.1 he
    exact (mem_targets.1 (mem_filter.1 hentry).1).2.2.1
  have hlength : (((client.targets namespaced p).filter
      (·.1 = gvr)).map Prod.snd).length = client.entries namespaced p gvr := by
    rw [length_map, ← countP_eq_length_filter]
    rfl
  generalize ((client.targets namespaced p).filter (·.1 = gvr)).map Prod.snd = es at *
  by_cases hf : f p = true
  · rw [if_pos hf, eq_replicate_iff, length_map, ← hlength,
      filter_eq_self.2 fun e he => by rw [hsame e he, hf]]
    refine ⟨rfl, fun name hname => ?_⟩
    obtain ⟨e, he, rfl⟩ := mem_map.1 hname
    rw [hsame e he]
  · rw [if_neg hf, filter_eq_nil_iff.2 fun e he => by rwa [hsame e he]]
    rfl

theorem under_names : ((client.groupPoliciesByGVR policies namespaced).under gvr).map
      (·.resource.uniqueName)
    = policies.flatMap fun p =>
      replicate (client.entries namespaced p gvr) p.uniqueName := by
  simpa using @filter_under_names client namespaced policies gvr fun _ => true

/-- **No policy is listed twice, and reports count policies**, if the rules of a
policy list each GVR at most once. -/
theorem policies_listed_once_iff (hnames : (policies.map uniqueName).Nodup) : (∀ gvr,
        (((client.groupPoliciesByGVR policies namespaced).under gvr).map
          (·.resource.uniqueName)).Nodup
          ∧ ∀ servers resource report, client.Audits servers
            ((client.groupPoliciesByGVR policies namespaced).under gvr)
            (client.groupPoliciesByGVR policies namespaced).skippedNum
            (client.groupPoliciesByGVR policies namespaced).erroredNum
            resource report →
            report.CountsPolicies (client.groupPoliciesByGVR policies namespaced).erroredNum)
      ↔ ∀ p ∈ policies, client.Knows p → (∃ url, client.RunsAt p url) →
        ∀ gvr, client.isNamespacedResource gvr = .ok namespaced →
          p.listings namespaced gvr ≤ 1 := by
  have hdisjoint (gvr : GroupVersionResource) : policies.Pairwise
      (Function.onFun List.Disjoint fun p =>
        replicate (client.entries namespaced p gvr) p.uniqueName) := by
    refine (pairwise_map.1 hnames).imp fun hne name hp hq => hne ?_
    exact (eq_of_mem_replicate hp).symm.trans (eq_of_mem_replicate hq)
  have hnodup (gvr : GroupVersionResource) :
      (((client.groupPoliciesByGVR policies namespaced).under gvr).map
        (·.resource.uniqueName)).Nodup
        ↔ ∀ p ∈ policies, client.entries namespaced p gvr ≤ 1 := by
    rw [under_names, nodup_flatMap, and_iff_left (hdisjoint gvr)]
    simp only [nodup_replicate]
  constructor
  · rintro h p hp hknows ⟨url, hrun⟩ gvr hscope
    rw [← entries_of_runsAt hknows hrun hscope]
    exact (hnodup gvr).1 (h gvr).1 p hp
  · intro h gvr
    have hgvr := (hnodup gvr).2 fun p hp => by
      rcases Nat.eq_zero_or_pos (client.entries namespaced p gvr) with hz | hpos
      · exact hz ▸ Nat.zero_le 1
      · obtain ⟨hknows, ⟨url, hrun⟩, hscope⟩ := of_entries_pos hpos
        rw [entries_of_runsAt hknows hrun hscope]
        exact h p hp hknows ⟨url, hrun⟩ gvr hscope
    exact ⟨hgvr, fun servers resource report haudit =>
      haudit.countsPolicies hgvr⟩

end

/-- A policy about pods and services, in rules of their own. -/
def workloadsPolicy : PolicyResource where
  policy := (PoliciesV1.Policy.created "team" "q"
    { PoliciesV1.PolicySpec.ofModule "registry://example.com/q:v1" with
      rules := [podsRule ["CREATE"], ⟨["CREATE"], [""], ["v1"], ["services"], none⟩] }).withStatus
        ⟨.active, none, []⟩
  backgroundAudit := true

theorem policies_listed_once_create :
    let policies := [podsPolicy [podsRule ["CREATE", "UPDATE"]], workloadsPolicy]
    ((sampleClient.groupPoliciesByGVR policies true).under pods).length = 2
      ∧ (((sampleClient.groupPoliciesByGVR policies true).under pods).map
        (·.resource.uniqueName)).Nodup := by
  intro policies
  refine ⟨by decide +kernel, ((@policies_listed_once_iff sampleClient true policies
    (by decide +kernel)).2 ?_ pods).1⟩
  rintro p hp - - ⟨group, version, resource⟩ -
  have hone (a b : String) : count a [b] ≤ 1 := count_le_length
  have hversions := Nat.mul_le_mul (hone version "v1") (hone group "")
  rcases mem_pair.1 hp with rfl | rfl
  · exact Nat.mul_le_mul (hone resource "pods") hversions
  · show count resource ["pods"] * (count version ["v1"] * count group [""])
      + count resource ["services"] * (count version ["v1"] * count group [""]) ≤ 1
    have htwo : count resource (["pods"] ++ ["services"]) ≤ 1 :=
      nodup_iff_count_le_one.1 (by decide) resource
    rw [← Nat.add_mul, ← count_append]
    exact Nat.mul_le_mul htwo hversions

/-- **A policy is listed twice** if two rules are about the creation of pods. -/
theorem policy_is_listed_twice :
    let policy := podsPolicy [podsRule ["CREATE"], podsRule ["CREATE", "UPDATE"]]
    let policies := (sampleClient.groupPoliciesByGVR [policy] true).under pods
    let pod : Resource := ⟨"uid", "nginx", "team", fun _ => none⟩
    policies.map (·.resource.uniqueName) = ["kw.ap.team.p", "kw.ap.team.p"]
      ∧ sampleClient.Audits (fun _ _ => .ok ⟨true, none⟩) policies 0 0 pod
        ⟨"uid", "team", ⟨2, 0, 0, 0⟩,
          [⟨"kw.ap.team.p", .pass, ""⟩, ⟨"kw.ap.team.p", .pass, ""⟩]⟩ := by
  refine ⟨by decide +kernel, _, List.Perm.refl _, ?_⟩
  rfl

end AuditScanner
