import AdmController.AuditReports

/-!
# Nil pointers in the audit scanner

`none` is a panic, which ends the whole scanner. Two pointers are used without
a check: the list of namespaces, nil when it cannot be obtained, and the
response of an admission review, which a policy server may leave out.
-/

namespace AuditScanner.NilPointers

/-- What a policy server does with a request. -/
inductive Reply where
  | requestFailed (e : String)
  | answered (statusCode : ℕ) (body : String)

/-! ## The scanner -/

/-- An admission review, with the pointer to its response. -/
structure AdmissionReview where
  response : Option AdmissionResponse

/-- **The world around the scanner**: the policy servers, the decoder of their
bodies, and the API server, which may end a list of objects after some pages. -/
structure World where
  client : Client
  servers : String → Resource → Reply
  unmarshal : String → Except String AdmissionReview
  auditedNamespaces : Except String (List String)
  getPolicies : String → Except String Policies
  getClusterWidePolicies : Except String Policies
  listItems : GroupVersionResource → String → List Resource

variable (w : World)

def sendAdmissionReviewToPolicyServer (policy : Policy) (resource : Resource) :
    Except String AdmissionReview :=
  match w.servers policy.policyServer resource with
  | .requestFailed e => .error ("request to policy server failed: " ++ e ++ " ")
  | .answered statusCode body =>
    if statusCode ≠ 200 then
      .error ("unexpected status code: " ++ toString statusCode ++ " body: " ++ body)
    else match w.unmarshal body with
      | .error e => .error ("cannot deserialize the audit review response: " ++ e)
      | .ok review => .ok review

/-- The answer and whether there was an error, for a policy that matches. -/
def evaluate (policy : Policy) (resource : Resource) : Option (Option AdmissionReview × Bool) :=
  match sendAdmissionReviewToPolicyServer w policy resource with
  | .error _ => some (none, true)
  -- `admissionReviewResponse.Response.Result`
  | .ok review => review.response.map
    (fun response => (some review, response.result.any (·.code = 500)))

def computePolicyResult (errored : Bool) (review : Option AdmissionReview) : Option PolicyResult :=
  if errored then some .error
  else (review.bind AdmissionReview.response).map
    (fun response => if response.allowed then .pass else .fail)

def addResult (report : Report) (policy : Policy) (review : Option AdmissionReview)
    (errored : Bool) : Option Report :=
  (computePolicyResult errored review).map fun result =>
    { report with
      summary := report.summary.add result
      results := report.results ++ [⟨policy.resource.uniqueName, result,
        (((review.bind AdmissionReview.response).bind (·.result)).map (·.message)).getD ""⟩] }

/-- One policy of an audit. -/
def auditPolicy (resource : Resource) (report : Report) (policy : Policy) : Option Report :=
  if w.client.policyMatches policy.resource resource then
    (evaluate w policy resource).bind fun (review, errored) =>
      addResult report policy review errored
  else some report

/-- **`auditClusterResource`**: the report that is stored. -/
def auditClusterResource (policies : List Policy) (resource : Resource)
    (skippedNum erroredNum : ℕ) : Option Report :=
  policies.foldlM (auditPolicy w resource)
    (((newReport resource).setSkipPolicies skippedNum).setErrorPolicies erroredNum)

/-- **`auditResource`**: the results are added in the order in which the workers
of the policies end. -/
def AuditResource (policies : List Policy) (resource : Resource) (skippedNum erroredNum : ℕ)
    (outcome : Option Report) : Prop :=
  ∃ arrived, arrived.Perm policies
    ∧ outcome = auditClusterResource w arrived resource skippedNum erroredNum

/-- The audits of the objects of all lists, in a namespace or (`""`) the cluster. -/
def auditLists (inNamespace : String) (policies : Policies) : Option Unit :=
  policies.policiesByGVR.entries.forM fun ⟨gvr, pols⟩ =>
    (w.listItems gvr inNamespace).forM fun resource =>
      (auditClusterResource w pols resource policies.skippedNum policies.erroredNum).map fun _ => ()

/-- `ScanNamespace`; its error is only joined to the others. -/
def scanNamespace (name : String) : Option (Except String Unit) :=
  match w.getPolicies name with
  | .error e => some (.error e)
  | .ok policies => (auditLists w name policies).map .ok

/-- **`ScanAllNamespaces`**, which ranges over the list whether or not it got one. -/
def scanAllNamespaces : Option Unit :=
  match w.auditedNamespaces with
  | .error _ => none
  | .ok names => names.forM fun name => (scanNamespace w name).map fun _ => ()

def scanClusterWideResources : Option (Except String Unit) :=
  match w.getClusterWidePolicies with
  | .error e => some (.error e)
  | .ok policies => (auditLists w "" policies).map .ok

/-- The server's answer about a policy has a response if it is a review. -/
def Responds (resource : Resource) (policy : Policy) : Prop :=
  w.client.policyMatches policy.resource resource = true →
    ∀ review, sendAdmissionReviewToPolicyServer w policy resource = .ok review →
      review.response.isSome = true

/-! ## Servers that answer -/

/-- The same for all objects of a scan. -/
def RespondsIn (inNamespace : String) (policies : Policies) : Prop :=
  ∀ list ∈ policies.policiesByGVR.entries, ∀ resource ∈ w.listItems list.1 inNamespace,
    ∀ policy ∈ list.2, Responds w resource policy

theorem forM_isSome {α : Type} {f : α → Option Unit} (l : List α) :
    (l.forM f).isSome = true ↔ ∀ a ∈ l, (f a).isSome = true := by
  induction l with
  | nil => simp
  | cons a l ih =>
    simp only [List.forM_eq_forM] at ih
    cases hf : f a <;> simp [hf, ih]

variable {resource : Resource}

open Option

/-! ## What a scan needs -/

theorem auditPolicy_isSome (report : Report) {policy : Policy} :
    (auditPolicy w resource report policy).isSome = true ↔ Responds w resource policy := by
  unfold auditPolicy Responds
  split
  · next hm =>
    unfold evaluate
    split
    · next hsend => simp [addResult, computePolicyResult, hsend]
    · next review hsend =>
      simp only [hm, hsend, Except.ok.injEq, forall_eq', true_imp_iff]
      cases hr : review.response with
      | none => simp
      | some response =>
        simp only [map_some, bind_some, addResult, computePolicyResult, hr]
        split <;> simp
  · next hm => simp [hm]

/-- **What one policy adds to a report**: nothing, or one result, which is an
error if the request failed. -/
theorem results_auditPolicy {report report' : Report} {policy : Policy}
    (h : auditPolicy w resource report policy = some report') :
    report.results ⊆ report'.results ∧ (w.client.policyMatches policy.resource resource = true →
        ∀ e, sendAdmissionReviewToPolicyServer w policy resource = .error e →
          ⟨policy.resource.uniqueName, .error, ""⟩ ∈ report'.results) := by
  unfold auditPolicy at h
  split at h
  · obtain ⟨⟨review, errored⟩, heval, hadd⟩ := bind_eq_some_iff.1 h
    obtain ⟨result, hresult, rfl⟩ := map_eq_some_iff.1 hadd
    refine ⟨List.subset_append_left _ _, fun _ e he => ?_⟩
    simp only [evaluate, he, some.injEq, Prod.mk.injEq] at heval
    obtain ⟨rfl, rfl⟩ := heval
    cases hresult
    simp
  · next hm =>
    cases h
    exact ⟨List.Subset.refl _, fun hm' => absurd hm' hm⟩

theorem foldlM_auditPolicy_isSome {policies : List Policy} (report : Report) :
    (policies.foldlM (auditPolicy w resource) report).isSome = true
      ↔ ∀ policy ∈ policies, Responds w resource policy := by
  induction policies generalizing report with
  | nil => simp
  | cons policy policies ih =>
    rw [List.foldlM_cons, List.forall_mem_cons, ← auditPolicy_isSome w report]
    cases h : auditPolicy w resource report policy with
    | none => simp
    | some report' => simpa using ih report'

theorem results_foldlM_auditPolicy {policies : List Policy}
    {report report' : Report} (h : policies.foldlM (auditPolicy w resource) report = some report') :
    report.results ⊆ report'.results ∧ ∀ policy ∈ policies,
      w.client.policyMatches policy.resource resource = true →
        ∀ e, sendAdmissionReviewToPolicyServer w policy resource = .error e →
          ⟨policy.resource.uniqueName, .error, ""⟩ ∈ report'.results := by
  induction policies generalizing report with
  | nil =>
    cases h
    exact ⟨List.Subset.refl _, by simp⟩
  | cons policy policies ih =>
    obtain ⟨report₁, h₁, hrest⟩ := bind_eq_some_iff.1 h
    obtain ⟨hsub, hfirst⟩ := results_auditPolicy w h₁
    obtain ⟨hsub', hothers⟩ := ih hrest
    refine ⟨List.Subset.trans hsub hsub', List.forall_mem_cons.2 ⟨fun hm e he => ?_, hothers⟩⟩
    exact hsub' (hfirst hm e he)

theorem auditLists_isSome (inNamespace : String) (policies : Policies) :
    (auditLists w inNamespace policies).isSome = true ↔ RespondsIn w inNamespace policies := by
  simp only [auditLists, forM_isSome, isSome_map, auditClusterResource,
    foldlM_auditPolicy_isSome, RespondsIn]

/-- **When the scanner panics.** The scans and audits end without a panic iff
the namespaces can be listed and no matching policy is answered with a review
without a response; and then every evaluation whose request failed is an error
in its report. -/
theorem scanner_never_panics_iff :
    ((scanAllNamespaces w).isSome = true ↔ ∃ names, w.auditedNamespaces = .ok names
      ∧ ∀ name ∈ names, ∀ policies, w.getPolicies name = .ok policies → RespondsIn w name policies)
      ∧ ((scanClusterWideResources w).isSome = true
        ↔ ∀ policies, w.getClusterWidePolicies = .ok policies → RespondsIn w "" policies)
      ∧ ∀ policies resource skippedNum erroredNum outcome,
        AuditResource w policies resource skippedNum erroredNum outcome →
          (outcome.isSome = true ↔ ∀ policy ∈ policies, Responds w resource policy)
          ∧ ∀ report, outcome = some report → ∀ policy ∈ policies,
            w.client.policyMatches policy.resource resource = true →
              ∀ e, sendAdmissionReviewToPolicyServer w policy resource = .error e →
                ⟨policy.resource.uniqueName, .error, ""⟩ ∈ report.results := by
  refine ⟨?_, ?_, ?_⟩
  · unfold scanAllNamespaces
    cases w.auditedNamespaces with
    | error e => simp
    | ok names =>
      simp only [forM_isSome, Option.isSome_map, Except.ok.injEq, exists_eq_left']
      refine forall₂_congr fun name _ => ?_
      unfold scanNamespace
      cases w.getPolicies name with
      | error e => simp
      | ok policies => simp [auditLists_isSome]
  · unfold scanClusterWideResources
    cases w.getClusterWidePolicies with
    | error e => simp
    | ok policies => simp [auditLists_isSome]
  · rintro policies resource skippedNum erroredNum outcome ⟨arrived, hperm, rfl⟩
    refine ⟨?_, fun report hreport policy hp => ?_⟩
    · rw [auditClusterResource, foldlM_auditPolicy_isSome]
      exact forall_congr' fun policy => imp_congr_left hperm.mem_iff
    · exact (results_foldlM_auditPolicy w hreport).2 policy (hperm.mem_iff.2 hp)

/-- **Both panics**: when the namespaces cannot be listed, and when a policy
that matches is answered with a review without a response. -/
theorem scanner_panics :
    let w : World := ⟨sampleClient, fun _ _ => .answered 200 "\x7b\x7d", fun _ => .ok ⟨none⟩,
      .error "forbidden", fun _ => .error "forbidden", .error "forbidden", fun _ _ => []⟩
    scanAllNamespaces w = none ∧ auditClusterResource w [⟨podsPolicy [], "policy-server-default"⟩]
      ⟨"uid", "nginx", "", fun _ => none⟩ 0 0 = none :=
  ⟨rfl, rfl⟩

end AuditScanner.NilPointers
