import AdmController.AuditReports
import AdmController.PolicyIdentities
import AdmController.StepSystem

/-!
# Scanning a namespace

`ScanNamespace` audits the resources of a namespace, GVR by GVR. An object
served under several GVRs gets the report that is written last.
-/

namespace AuditScanner

open Fallible StepSystem List PolicyResource

/-! ## The policies of a namespace -/

structure Namespace where
  name : String
  labels : Labels

def Client.policyMatchesNamespace (client : Client) (policy : PolicyResource)
    (ns : Namespace) : Except ClientError Bool :=
  match policy.policy.getNamespaceSelector with
  | none => .ok true
  | some selector => do
    let selects ← (client.asSelector selector).mapError (.badSelector policy.policy.getName)
    return selects ns.labels

def Client.findByNamespace (client : Client) (ns : Namespace) (policies : List PolicyResource) :
    Except ClientError (List PolicyResource) :=
  policies.foldlM (fun result policy => do
    let isMatch ← client.policyMatchesNamespace policy ns
    if isMatch then return result ++ [policy] else return result) []

def Client.policiesOfNamespace (client : Client) (all : List PolicyResource)
    (ns : Namespace) : Except ClientError (List PolicyResource) := do
  let clusterAdmissionPolicies ← client.findByNamespace ns
    (all.filter (·.policy.kind = .clusterAdmissionPolicy))
  let clusterAdmissionPolicyGroups ← client.findByNamespace ns
    (all.filter (·.policy.kind = .clusterAdmissionPolicyGroup))
  return clusterAdmissionPolicies ++ clusterAdmissionPolicyGroups
    ++ all.filter (fun p => p.policy.kind = .admissionPolicy ∧ p.policy.getNamespace = ns.name)
    ++ all.filter (fun p => p.policy.kind = .admissionPolicyGroup ∧ p.policy.getNamespace = ns.name)

def Client.getPoliciesByNamespace (client : Client) (all : List PolicyResource) (ns : Namespace) :
    Except ClientError Policies := do
  let policies ← client.policiesOfNamespace all ns
  return client.groupPoliciesByGVR policies true

/-! ## The scan -/

/-- **A scanner**, with the resources that it can list in a namespace. -/
structure Scanner where
  client : Client
  servers : PolicyServers
  getResources : GroupVersionResource → List Resource
  parallelResourcesAudits : ℕ

structure AuditJob where
  resource : Resource
  policies : List Policy

/-- The order in which the goroutines of a job send their results. -/
structure ArrivalOrder where
  arrange : List PolicyAuditResult → List PolicyAuditResult
  perm : ∀ results, (arrange results).Perm results

def ArrivalOrder.asked : ArrivalOrder := ⟨id, fun _ => .refl _⟩

abbrev ReportStore := String → Option Report

/-- A scan: the jobs that wait or run, and the reports, with those it wrote. -/
structure ScanState where
  (queue active : List AuditJob)
  reports : ReportStore
  keptReports : Finset String

/-- What happens in a scan: a job is started, writes its report, or fails to. -/
inductive ScanEvent where
  | start
  | finish (i : ℕ) (arrival : ArrivalOrder)
  | fail (i : ℕ)

def Scanner.reportOf (s : Scanner) (policies : Policies) (job : AuditJob)
    (arrival : ArrivalOrder) : Report :=
  buildReport job.resource policies.skippedNum policies.erroredNum (arrival.arrange
    (s.client.auditResults s.servers job.policies job.resource))

def Scanner.createOrPatchReport (s : Scanner) (policies : Policies)
    (st : ScanState) (job : AuditJob) (arrival : ArrivalOrder) : ScanState :=
  { st with
    reports := Function.update st.reports job.resource.uid (some (s.reportOf policies job arrival))
    keptReports := insert job.resource.uid st.keptReports }

/-- **One step of a scan.** -/
def Scanner.step (s : Scanner) (policies : Policies) (st : ScanState) : ScanEvent → Option ScanState
  | .start =>
    match st.queue with
    | [] => none
    | job :: queue =>
      if st.active.length < s.parallelResourcesAudits then
        some { st with queue := queue, active := job :: st.active }
      else none
  | .finish i arrival =>
    match st.active[i]? with
    | none => none
    | some job => some
      { s.createOrPatchReport policies st job arrival with
        active := st.active.eraseIdx i }
  | .fail i =>
    match st.active[i]? with
    | none => none
    | some _ => some { st with active := st.active.eraseIdx i }

def Scanner.jobs (s : Scanner)
    (order : List (Σ _ : GroupVersionResource, List Policy)) : List AuditJob :=
  order.flatMap fun e => (s.getResources e.1).map fun r => ⟨r, e.2⟩

def deleteOldReports (keptReports : Finset String) (reports : ReportStore) : ReportStore :=
  fun name => if name ∈ keptReports then reports name else none

/-- **A scan without failures** leads from the stored reports to others. -/
def Scanner.Scans (s : Scanner) (policies : Policies) (reports reports' : ReportStore) : Prop :=
  if policies.policiesByGVR.entries = [] then reports' = fun _ => none
  else ∃ order, order.Perm policies.policiesByGVR.entries
    ∧ ∃ events st, (∀ e ∈ events, ∀ i, e ≠ .fail i)
      ∧ run (s.step policies) ⟨s.jobs order, [], reports, ∅⟩ events = some st
      ∧ st.queue = [] ∧ st.active = []
      ∧ reports' = deleteOldReports st.keptReports st.reports

/-- **`ScanNamespace`**, without failures, for the policies of the cluster. -/
def Scanner.ScanNamespace (s : Scanner) (all : List PolicyResource)
    (ns : Namespace) (reports reports' : ReportStore) : Prop :=
  ∃ policies, s.client.getPoliciesByNamespace all ns = .ok policies
    ∧ s.Scans policies reports reports'

/-! ## The policies of a namespace have different names -/

theorem findByNamespace_sublist {client : Client} {ns : Namespace}
    {policies out : List PolicyResource} (h : client.findByNamespace ns policies = .ok out) :
    out.Sublist policies := by
  suffices hacc : ∀ acc, policies.foldlM (fun result policy => do
      let isMatch ← client.policyMatchesNamespace policy ns
      if isMatch then return result ++ [policy] else return result) acc
        = .ok out → ∃ found, found.Sublist policies ∧ out = acc ++ found by
    obtain ⟨found, hsub, rfl⟩ := hacc [] h
    exact hsub
  clear h
  induction policies with
  | nil =>
    intro acc h
    cases h
    exact ⟨[], .refl _, (append_nil _).symm⟩
  | cons p policies ih =>
    intro acc h
    rw [foldlM_cons, bind_eq_ok] at h
    obtain ⟨acc', hp, hrest⟩ := h
    obtain ⟨found, hsub, rfl⟩ := ih acc' hrest
    rw [bind_eq_ok] at hp
    obtain ⟨isMatch, -, hadd⟩ := hp
    cases isMatch with
    | true =>
      cases hadd
      exact ⟨p :: found, hsub.cons_cons p, append_assoc _ _ _⟩
    | false =>
      cases hadd
      exact ⟨found, hsub.cons p, rfl⟩

theorem nodup_policiesOfNamespace {client : Client} {ns : Namespace}
    {all policies : List PolicyResource} (hall : Identifiable (all.map (·.policy)))
    (h : client.policiesOfNamespace all ns = .ok policies) :
    (policies.map uniqueName).Nodup := by
  unfold Client.policiesOfNamespace at h
  rw [bind_eq_ok] at h
  obtain ⟨clusterPolicies, hpolicies, h⟩ := h
  rw [bind_eq_ok] at h
  obtain ⟨clusterGroups, hgroups, h⟩ := h
  cases h
  have hnames : (all.map uniqueName).Nodup := by
    have := hall.nodup_uniqueNames
    rwa [map_map] at this
  -- the four lists are taken from the policies of the four kinds
  let ofKind (k : PoliciesV1.Kind) := all.filter (·.policy.kind = k)
  have hkinds : ([.clusterAdmissionPolicy, .clusterAdmissionPolicyGroup,
      .admissionPolicy, .admissionPolicyGroup].flatMap fun k =>
        (ofKind k).map uniqueName).Nodup := by
    refine nodup_flatMap.2 ⟨fun k _ =>
      hnames.sublist (filter_sublist.map _), ?_⟩
    have hne : [PoliciesV1.Kind.clusterAdmissionPolicy,
      .clusterAdmissionPolicyGroup, .admissionPolicy,
      .admissionPolicyGroup].Pairwise (· ≠ ·) := by decide
    refine hne.imp fun {k k'} hne name hk hk' => ?_
    obtain ⟨p, hp, rfl⟩ := mem_map.1 hk
    obtain ⟨q, hq, hname⟩ := mem_map.1 hk'
    obtain ⟨hp, hpk⟩ := mem_filter.1 hp
    obtain ⟨hq, hqk⟩ := mem_filter.1 hq
    have heq := inj_on_of_nodup_map hnames hq hp hname
    rw [heq] at hqk
    exact hne ((of_decide_eq_true hpk).symm.trans (of_decide_eq_true hqk))
  refine hkinds.sublist ?_
  have hns (k : PoliciesV1.Kind) : (all.filter fun p =>
      p.policy.kind = k ∧ p.policy.getNamespace = ns.name).Sublist (ofKind k) := by
    refine monotone_filter_right all fun p hp => ?_
    simp only [decide_eq_true_eq] at hp ⊢
    exact hp.1
  simp only [flatMap_cons, flatMap_nil, append_nil, map_append, append_assoc]
  exact ((findByNamespace_sublist hpolicies).map _).append
    (((findByNamespace_sublist hgroups).map _).append (((hns _).map _).append ((hns _).map _)))

section

variable {s : Scanner} {selected : List PolicyResource} {policies : Policies}

/-! ## What a scan writes -/

def ScanState.left (st : ScanState) : ReportStore := deleteOldReports st.keptReports st.reports

theorem left_createOrPatchReport_self (st : ScanState) (job : AuditJob) (arrival : ArrivalOrder) :
    (s.createOrPatchReport policies st job arrival).left job.resource.uid
      = some (s.reportOf policies job arrival) := by
  refine (if_pos (Finset.mem_insert_self _ _)).trans ?_
  exact Function.update_self _ _ _

theorem left_createOrPatchReport_ne (st : ScanState) {job : AuditJob}
    (arrival : ArrivalOrder) {uid : String} (h : job.resource.uid ≠ uid) :
    (s.createOrPatchReport policies st job arrival).left uid = st.left uid := by
  have hkept : uid ∈ insert job.resource.uid st.keptReports ↔ uid ∈ st.keptReports := by
    rw [Finset.mem_insert, or_iff_right (Ne.symm h)]
  exact if_congr hkept (Function.update_of_ne (Ne.symm h) _ _) rfl

open Scanner AuditJob

theorem step_eq_some {st st' : ScanState} {e : ScanEvent}
    (hfail : ∀ i, e ≠ .fail i) (h : s.step policies st e = some st') :
    (∃ job queue, st.queue = job :: queue
      ∧ st' = { st with queue := queue, active := job :: st.active })
      ∨ ∃ i job arrival, st.active[i]? = some job
        ∧ st' = { s.createOrPatchReport policies st job arrival with
          active := st.active.eraseIdx i } := by
  cases e with
  | start =>
    dsimp only [step] at h
    split at h
    · cases h
    · next job queue hqueue =>
      split at h
      · cases h
        exact .inl ⟨job, queue, hqueue, rfl⟩
      · cases h
  | finish i arrival =>
    dsimp only [step] at h
    split at h
    · cases h
    · next job hjob =>
      cases h
      exact .inr ⟨i, job, arrival, hjob, rfl⟩
  | fail i => exact absurd rfl (hfail i)

/-- **The invariant of a scan**: each job waits, runs or has left a report. -/
structure Progress (s : Scanner) (policies : Policies) (jobs : List AuditJob)
    (st : ScanState) : Prop where
  pending : ∀ job ∈ jobs, job ∈ st.queue ∨ job ∈ st.active
    ∨ (st.left job.resource.uid).isSome = true
  queued : ∀ job ∈ st.queue, job ∈ jobs
  running : ∀ job ∈ st.active, job ∈ jobs
  written : ∀ uid report, st.left uid = some report → ∃ job ∈ jobs, job.resource.uid = uid
    ∧ ∃ arrival, report = s.reportOf policies job arrival

theorem Progress.step {jobs : List AuditJob} {st st' : ScanState}
    {e : ScanEvent} (hst : Progress s policies jobs st)
    (hfail : ∀ i, e ≠ .fail i) (h : s.step policies st e = some st') :
    Progress s policies jobs st' := by
  obtain ⟨job, queue, hqueue, rfl⟩ | ⟨i, job, arrival, hjob, rfl⟩ := step_eq_some hfail h
  · refine ⟨fun j hj => ?_, fun j hj => ?_, fun j hj => ?_, hst.written⟩
    · obtain hq | hrest := hst.pending j hj
      · rw [hqueue] at hq
        obtain rfl | hq := mem_cons.1 hq
        · exact .inr (.inl mem_cons_self)
        · exact .inl hq
      · exact .inr (hrest.imp_left (mem_cons_of_mem job))
    · exact hst.queued j (hqueue ▸ mem_cons_of_mem job hj)
    · obtain rfl | hj := mem_cons.1 hj
      · exact hst.queued j (hqueue ▸ mem_cons_self)
      · exact hst.running j hj
  · have hmem := mem_of_getElem? hjob
    refine ⟨fun j hj => ?_, hst.queued, fun j hj => ?_, fun uid report hr => ?_⟩
    · show _ ∨ _ ∨ ((s.createOrPatchReport policies st job arrival).left
        j.resource.uid).isSome = true
      by_cases huid : job.resource.uid = j.resource.uid
      · rw [← huid, left_createOrPatchReport_self]
        exact .inr (.inr rfl)
      · rw [left_createOrPatchReport_ne st arrival huid]
        refine (hst.pending j hj).imp_right (Or.imp_left fun hactive => ?_)
        -- the job that ended is another one
        obtain ⟨n, hn⟩ := mem_iff_getElem?.1 hactive
        refine mem_eraseIdx_iff_getElem?.2 ⟨n, fun heq => huid ?_, hn⟩
        rw [heq, hjob] at hn
        rw [Option.some.inj hn]
    · exact hst.running j (mem_of_mem_eraseIdx hj)
    · change (s.createOrPatchReport policies st job arrival).left uid = some report at hr
      by_cases huid : job.resource.uid = uid
      · rw [← huid, left_createOrPatchReport_self] at hr
        exact ⟨job, hst.running job hmem, huid, arrival, (Option.some.inj hr).symm⟩
      · rw [left_createOrPatchReport_ne st arrival huid] at hr
        exact hst.written uid report hr

theorem run_leaves {jobs : List AuditJob} {reports : ReportStore} {events : List ScanEvent}
    {st : ScanState} (hfail : ∀ e ∈ events, ∀ i, e ≠ .fail i)
    (hrun : run (s.step policies) ⟨jobs, [], reports, ∅⟩ events = some st) (hqueue : st.queue = [])
    (hactive : st.active = []) {job : AuditJob} (hjob : job ∈ jobs) :
    ∃ job' ∈ jobs, job'.resource.uid = job.resource.uid ∧ ∃ arrival, st.left job.resource.uid
      = some (s.reportOf policies job' arrival) := by
  have hstart : Progress s policies jobs ⟨jobs, [], reports, ∅⟩ := {
    pending := fun job hjob => .inl hjob
    queued := fun job hjob => hjob
    running := fun job hjob => absurd hjob not_mem_nil
    written := fun uid report h => by
      unfold ScanState.left deleteOldReports at h
      rw [if_neg (Finset.notMem_empty uid)] at h
      cases h }
  have hend : Progress s policies jobs st :=
    run_invariant_of_forall (s.step policies)
      (fun _ _ _ hst hlabel h => hst.step hlabel h) hstart hfail hrun
  obtain hq | ha | hleft := hend.pending job hjob
  · exact absurd hq (hqueue ▸ not_mem_nil)
  · exact absurd ha (hactive ▸ not_mem_nil)
  · obtain ⟨report, hreport⟩ := Option.isSome_iff_exists.1 hleft
    obtain ⟨job', hjob', huid, arrival, rfl⟩ := hend.written _ _ hreport
    exact ⟨job', hjob', huid, arrival, hreport⟩

theorem run_sequential (hroom : 0 < s.parallelResourcesAudits) (queue : List AuditJob)
    (reports : ReportStore) (keptReports : Finset String) :
    run (s.step policies) ⟨queue, [], reports, keptReports⟩
      (queue.flatMap fun _ => [.start, .finish 0 .asked])
      = some (queue.foldl (fun st job => s.createOrPatchReport policies st job .asked)
        ⟨[], [], reports, keptReports⟩) := by
  induction queue generalizing reports keptReports with
  | nil => rfl
  | cons job queue ih =>
    rw [flatMap_cons, run_append]
    have hjob : run (s.step policies)
        ⟨job :: queue, [], reports, keptReports⟩ [.start, .finish 0 .asked]
        = some ⟨queue, [], Function.update reports job.resource.uid
          (some (s.reportOf policies job .asked)),
          insert job.resource.uid keptReports⟩ := by
      show (if 0 < s.parallelResourcesAudits then _ else none : Option _).bind _ = _
      rw [if_pos hroom]
      rfl
    rw [hjob, Option.bind_some, ih]
    rfl

theorem foldl_createOrPatchReport_frame (jobs : List AuditJob) (st : ScanState) :
    let st' := jobs.foldl (fun st job => s.createOrPatchReport policies st job .asked) st
    st'.queue = st.queue ∧ st'.active = st.active := by
  induction jobs generalizing st with
  | nil => exact ⟨rfl, rfl⟩
  | cons job jobs ih => exact ih _

theorem left_sequential {front back : List AuditJob} {job : AuditJob}
    (hlast : ∀ j ∈ back, j.resource.uid ≠ job.resource.uid) (st : ScanState) :
    ((front ++ job :: back).foldl
      (fun st job => s.createOrPatchReport policies st job .asked) st).left
      job.resource.uid
      = some (s.reportOf policies job .asked) := by
  have hframe (st : ScanState) (j : AuditJob) (uid : String)
      (hne : some j.resource.uid ≠ some uid) :
      (s.createOrPatchReport policies st j .asked).left uid = st.left uid :=
    left_createOrPatchReport_ne st .asked fun heq => hne (congrArg some heq)
  rw [KeyedFold.foldl_split (g := ScanState.left) hframe
    fun j hj heq => hlast j hj (Option.some.inj heq)]
  exact left_createOrPatchReport_self _ job .asked

/-! ## The jobs of a scan -/

theorem mem_entries_policiesByGVR {client : Client} {e : Σ _ : GroupVersionResource, List Policy} :
    e ∈ (client.groupPoliciesByGVR selected true).policiesByGVR.entries
      ↔ e.2 = (client.groupPoliciesByGVR selected true).under e.1
        ∧ (client.groupPoliciesByGVR selected true).under e.1 ≠ [] := by
  obtain ⟨gvr, pols⟩ := e
  rw [← AList.mem_lookup_iff, Option.mem_def, groupPoliciesByGVR_policiesByGVR,
    lookup_foldl_addPolicyToMap, under_groupPoliciesByGVR]
  generalize ((selected.flatMap (client.targets true)).filter (·.1 = gvr)).map Prod.snd = under
  split
  · next h => simp [h]
  · next h => simp [h, eq_comm]

theorem mem_jobs {order : List (Σ _ : GroupVersionResource, List Policy)}
    (horder : order.Perm (s.client.groupPoliciesByGVR selected true).policiesByGVR.entries)
    {job : AuditJob} :
    job ∈ s.jobs order ↔ ∃ gvr, job.resource ∈ s.getResources gvr
      ∧ job.policies = (s.client.groupPoliciesByGVR selected true).under gvr
      ∧ (s.client.groupPoliciesByGVR selected true).under gvr ≠ [] := by
  obtain ⟨resource, pols⟩ := job
  unfold jobs
  simp only [mem_flatMap, mem_map, horder.mem_iff, mem_entries_policiesByGVR, AuditJob.mk.injEq]
  constructor
  · rintro ⟨⟨gvr, pols'⟩, ⟨hpols, hne⟩, r, hr, rfl, rfl⟩
    exact ⟨gvr, hr, hpols, hne⟩
  · rintro ⟨gvr, hr, rfl, hne⟩
    exact ⟨⟨gvr, _⟩, ⟨rfl, hne⟩, resource, hr, rfl, rfl⟩

/-! ## The results of a policy -/

/-- **A policy is evaluated for a GVR** of namespaced resources. -/
def Client.Evaluates (client : Client) (p : PolicyResource) (gvr : GroupVersionResource) : Prop :=
  client.Knows p ∧ (∃ url, client.RunsAt p url) ∧ client.isNamespacedResource gvr = .ok true
    ∧ p.Lists true gvr "CREATE"

theorem under_ne_nil_iff {client : Client} {gvr : GroupVersionResource} :
    (client.groupPoliciesByGVR selected true).under gvr ≠ []
      ↔ ∃ p ∈ selected, client.Evaluates p gvr := by
  constructor
  · intro h
    obtain ⟨e, he⟩ := exists_mem_of_ne_nil _ h
    have hp : e.resource ∈ selected := by
      rw [under_groupPoliciesByGVR] at he
      obtain ⟨target, htarget, rfl⟩ := mem_map.1 he
      obtain ⟨p, hp, hmem⟩ := mem_flatMap.1 (mem_filter.1 htarget).1
      rwa [(mem_targets.1 hmem).2.2.1]
    exact ⟨e.resource, hp, (exists_under_iff hp).1 ⟨e, he, rfl⟩⟩
  · rintro ⟨p, hp, heval⟩
    obtain ⟨e, he, -⟩ := (exists_under_iff hp).2 heval
    exact ne_nil_of_mem he

theorem count_flatMap_replicate {α : Type} {name : α → String} {l : List α}
    (h : (l.map name).Nodup) (n : α → ℕ) {a : α} (ha : a ∈ l) :
    (l.flatMap fun b => replicate (n b) (name b)).count (name a) = n a := by
  obtain ⟨l₁, l₂, rfl⟩ := append_of_mem ha
  have hother {l' : List α} (hl' : ∀ b ∈ l', name b ≠ name a) :
      (l'.flatMap fun b => replicate (n b) (name b)).count (name a) = 0 := by
    refine count_eq_zero.2 fun hmem => ?_
    obtain ⟨b, hb, heq⟩ := mem_flatMap.1 hmem
    exact hl' b hb (eq_of_mem_replicate heq).symm
  rw [map_append, map_cons, nodup_middle, nodup_cons, mem_append, not_or] at h
  obtain ⟨⟨hl₁, hl₂⟩, -⟩ := h
  rw [flatMap_append, flatMap_cons, count_append, count_append, count_replicate_self,
    hother fun b hb heq => hl₁ (heq ▸ mem_map_of_mem hb),
    hother fun b hb heq => hl₂ (heq ▸ mem_map_of_mem hb)]
  omega

theorem names_reportOf (job : AuditJob) (arrival : ArrivalOrder) :
    ((s.reportOf policies job arrival).results.map (·.policy)).Perm ((job.policies.filter fun e =>
        s.client.policyMatches e.resource job.resource).map (·.resource.uniqueName)) := by
  unfold reportOf
  rw [buildReport_eq, map_map]
  have hasked := congrArg (map uniqueName)
    (auditResults_policies s.client s.servers job.policies job.resource)
  rw [map_map, map_map] at hasked
  refine ((arrival.perm _).map _).trans ?_
  exact List.Perm.of_eq hasked

theorem count_reportOf {p : PolicyResource} {gvr gvr' : GroupVersionResource}
    (hnames : (selected.map uniqueName).Nodup) (hp : p ∈ selected)
    (heval : s.client.Evaluates p gvr) (hgvr' : s.client.isNamespacedResource gvr' = .ok true)
    (r : Resource) (arrival : ArrivalOrder) :
    ((s.reportOf policies ⟨r, (s.client.groupPoliciesByGVR selected true).under gvr'⟩
      arrival).results.map (·.policy)).count p.uniqueName
      = if s.client.policyMatches p r then p.listings true gvr' else 0 := by
  obtain ⟨hknows, ⟨url, hrun⟩, -⟩ := heval
  rw [(names_reportOf _ arrival).count_eq, filter_under_names fun q =>
    s.client.policyMatches q r, count_flatMap_replicate hnames _ hp,
    entries_of_runsAt hknows hrun hgvr']

/-! ## Complete scans -/

/-- **A policy targets a resource**, as it is served under a GVR. -/
structure Scanner.Targets (s : Scanner) (p : PolicyResource)
    (gvr : GroupVersionResource) (r : Resource) : Prop where
  evaluated : s.client.Evaluates p gvr
  listed : r ∈ s.getResources gvr
  selected : s.client.policyMatches p r = true

/-- **A complete store of reports**: one result for each policy and target. -/
def Scanner.Complete (s : Scanner) (selected : List PolicyResource)
    (reports : ReportStore) : Prop :=
  ∀ p ∈ selected, ∀ gvr r, s.Targets p gvr r → ∃ report, reports r.uid = some report
    ∧ (report.results.map (·.policy)).count p.uniqueName = 1

theorem exists_scans (hroom : 0 < s.parallelResourcesAudits)
    (huids : ∀ gvr, ((s.getResources gvr).map (·.uid)).Nodup) {gvr : GroupVersionResource}
    {r : Resource} (hgvr : (s.client.groupPoliciesByGVR selected true).under gvr ≠ [])
    (hr : r ∈ s.getResources gvr) :
    ∃ reports, s.Scans (s.client.groupPoliciesByGVR selected true) (fun _ => none) reports
      ∧ reports r.uid = some (s.reportOf (s.client.groupPoliciesByGVR selected true)
        ⟨r, (s.client.groupPoliciesByGVR selected true).under gvr⟩
        .asked) := by
  generalize hpolicies : s.client.groupPoliciesByGVR selected true = policies at *
  have hentry : (⟨gvr, policies.under gvr⟩ :
      Σ _ : GroupVersionResource, List Policy) ∈ policies.policiesByGVR.entries := by
    rw [← hpolicies, mem_entries_policiesByGVR, hpolicies]
    exact ⟨rfl, hgvr⟩
  obtain ⟨before, after, hsplit⟩ := append_of_mem hentry
  obtain ⟨front, back, hlist⟩ := append_of_mem hr
  -- the GVR is visited last
  have horder : List.Perm (before ++ after ++ [⟨gvr, policies.under gvr⟩])
      policies.policiesByGVR.entries := by
    rw [hsplit, append_assoc]
    exact List.Perm.append_left before (perm_append_singleton _ _)
  have hjobs : s.jobs (before ++ after ++ [⟨gvr, policies.under gvr⟩]) = s.jobs (before ++ after)
          ++ front.map (mk · (policies.under gvr))
        ++ ⟨r, policies.under gvr⟩ :: back.map (mk · (policies.under gvr)) := by
    unfold jobs
    rw [flatMap_append, flatMap_cons, flatMap_nil, append_nil, hlist, map_append, map_cons,
      append_assoc]
  have hlast : ∀ j ∈ back.map (mk · (policies.under gvr)), j.resource.uid ≠ r.uid := by
    intro j hj heq
    obtain ⟨r', hr', rfl⟩ := mem_map.1 hj
    have hnodup := huids gvr
    rw [hlist, map_append, map_cons, nodup_middle, nodup_cons] at hnodup
    exact hnodup.1 (mem_append_right _ (heq ▸ mem_map_of_mem (f := Resource.uid) hr'))
  have hleft := @left_sequential s policies (s.jobs (before ++ after)
    ++ front.map (mk · (policies.under gvr))) _
    ⟨r, policies.under gvr⟩ hlast ⟨[], [], fun _ => none, ∅⟩
  rw [← hjobs] at hleft
  refine ⟨_, ?_, hleft⟩
  unfold Scans
  rw [if_neg (ne_nil_of_mem hentry)]
  obtain ⟨hqueue, hactive⟩ := @foldl_createOrPatchReport_frame s policies
    (s.jobs (before ++ after ++ [⟨gvr, policies.under gvr⟩]))
    ⟨[], [], fun _ => none, ∅⟩
  refine ⟨_, horder, _, _, ?_, run_sequential hroom _ _ _, hqueue, hactive, rfl⟩
  intro e he i
  obtain ⟨-, -, hmem⟩ := mem_flatMap.1 he
  obtain rfl | rfl := mem_pair.1 hmem <;> exact fun h => nomatch h

theorem Scanner.Scans.leaves {reports reports' : ReportStore}
    (h : s.Scans (s.client.groupPoliciesByGVR selected true) reports reports')
    {gvr : GroupVersionResource} {r : Resource}
    (hgvr : (s.client.groupPoliciesByGVR selected true).under gvr ≠ [])
    (hr : r ∈ s.getResources gvr) :
    ∃ gvr' r' arrival, r' ∈ s.getResources gvr' ∧ r'.uid = r.uid
      ∧ (s.client.groupPoliciesByGVR selected true).under gvr' ≠ []
      ∧ reports' r.uid = some (s.reportOf (s.client.groupPoliciesByGVR selected true)
        ⟨r', (s.client.groupPoliciesByGVR selected true).under gvr'⟩
        arrival) := by
  have hentry : (⟨gvr, (s.client.groupPoliciesByGVR selected true).under gvr⟩ :
      Σ _ : GroupVersionResource, List Policy)
        ∈ (s.client.groupPoliciesByGVR selected true).policiesByGVR.entries :=
    mem_entries_policiesByGVR.2 ⟨rfl, hgvr⟩
  unfold Scans at h
  rw [if_neg (ne_nil_of_mem hentry)] at h
  obtain ⟨order, horder, events, st, hfail, hrun, hqueue, hactive, rfl⟩ := h
  have hjob : ⟨r, (s.client.groupPoliciesByGVR selected true).under gvr⟩
    ∈ s.jobs order := (mem_jobs horder).2 ⟨gvr, hr, rfl, hgvr⟩
  obtain ⟨⟨r', pols⟩, hjob', huid, arrival, hleft⟩ := run_leaves hfail hrun hqueue hactive hjob
  obtain ⟨gvr', hr', hpols, hgvr'⟩ := (mem_jobs horder).1 hjob'
  cases hpols
  exact ⟨gvr', r', arrival, hr', huid, hgvr', hleft⟩

/-- **When scans are complete**: if a policy that targets an object under one
GVR matches it under every GVR that is audited, and lists it exactly once. -/
theorem scan_complete_iff {all : List PolicyResource} {ns : Namespace}
    (hroom : 0 < s.parallelResourcesAudits)
    (huids : ∀ gvr, ((s.getResources gvr).map (·.uid)).Nodup)
    (hall : Identifiable (all.map (·.policy)))
    (hselected : s.client.policiesOfNamespace all ns = .ok selected) :
    (∀ reports reports', s.ScanNamespace all ns reports reports' → s.Complete selected reports')
      ↔ ∀ p ∈ selected, ∀ gvr r, s.Targets p gvr r →
        ∀ gvr', (∃ q ∈ selected, s.client.Evaluates q gvr') →
          ∀ r' ∈ s.getResources gvr', r'.uid = r.uid →
            s.client.policyMatches p r' = true ∧ p.listings true gvr' = 1 := by
  have hnames := nodup_policiesOfNamespace hall hselected
  have hget : s.client.getPoliciesByNamespace all ns
      = .ok (s.client.groupPoliciesByGVR selected true) := by
    unfold Client.getPoliciesByNamespace
    rw [hselected]
    rfl
  constructor
  · intro h p hp gvr r htarget gvr' haudited r' hr' huid
    obtain ⟨reports, hscans, hreport⟩ := exists_scans hroom huids (under_ne_nil_iff.2 haudited) hr'
    obtain ⟨report, hleft, hcount⟩ := h _ reports ⟨_, hget, hscans⟩ p hp gvr r htarget
    rw [← huid, hreport] at hleft
    cases hleft
    obtain ⟨-, -, -, -, hgvr', -⟩ := haudited
    rw [count_reportOf hnames hp htarget.evaluated hgvr'] at hcount
    split at hcount
    · next hmatch => exact ⟨hmatch, hcount⟩
    · cases hcount
  · rintro h reports reports' ⟨policies, hpolicies, hscans⟩ p hp gvr r htarget
    rw [hget] at hpolicies
    cases hpolicies
    obtain ⟨gvr', r', arrival, hr', huid, hgvr', hleft⟩ := hscans.leaves
      (under_ne_nil_iff.2 ⟨p, hp, htarget.evaluated⟩) htarget.listed
    have haudited := under_ne_nil_iff.1 hgvr'
    obtain ⟨hmatch, honce⟩ := h p hp gvr r htarget gvr' haudited r' hr' huid
    refine ⟨_, hleft, ?_⟩
    obtain ⟨-, -, -, -, hscope, -⟩ := haudited
    rw [count_reportOf hnames hp htarget.evaluated hscope, if_pos hmatch, honce]

end

def autoscalerPolicy (name : String) (versions : List String) : PolicyResource where
  policy := (PoliciesV1.Policy.created "team" name
    { PoliciesV1.PolicySpec.ofModule "registry://example.com/p:v1" with
      rules := [⟨["CREATE"], ["autoscaling"], versions,
        ["horizontalpodautoscalers"], none⟩] }).withStatus ⟨.active, none, []⟩
  backgroundAudit := true

def autoscalers (version : String) : GroupVersionResource :=
  ⟨"autoscaling", version, "horizontalpodautoscalers"⟩

def autoscaler : Resource := ⟨"uid", "web", "team", fun _ => none⟩

def autoscalerScanner : Scanner where
  client := sampleClient
  servers _ _ := .ok ⟨true, none⟩
  getResources gvr := if gvr = autoscalers "v1" ∨ gvr = autoscalers "v2" then [autoscaler] else []
  parallelResourcesAudits := 1

theorem nodup_autoscalerScanner (gvr : GroupVersionResource) :
    ((autoscalerScanner.getResources gvr).map (·.uid)).Nodup := by
  show (map _ (if _ then [autoscaler] else [])).Nodup
  split
  · exact nodup_singleton _
  · exact nodup_nil

theorem targets_autoscalerPolicy (name : String) :
    autoscalerScanner.Targets (autoscalerPolicy name ["v1"]) (autoscalers "v1") autoscaler where
  evaluated := by
    refine ⟨fun rule hrule gvr hgvr => ⟨true, rfl⟩, ⟨_, rfl, rfl, rfl⟩, rfl,
      _, mem_singleton.2 rfl, ?_⟩
    exact ⟨⟨by decide, by decide, by decide⟩, by decide, ⟨by simp, by simp⟩, by decide⟩
  listed := mem_singleton.2 rfl
  selected := rfl

theorem scan_complete_both_versions : autoscalerScanner.client.policiesOfNamespace
        [autoscalerPolicy "a" ["v1", "v2"]] ⟨"team", fun _ => none⟩
      = .ok [autoscalerPolicy "a" ["v1", "v2"]]
    ∧ ∀ reports reports', autoscalerScanner.ScanNamespace
      [autoscalerPolicy "a" ["v1", "v2"]] ⟨"team", fun _ => none⟩ reports reports' →
      autoscalerScanner.Complete [autoscalerPolicy "a" ["v1", "v2"]] reports' := by
  have hall : Identifiable ([autoscalerPolicy "a" ["v1", "v2"]].map (·.policy)) := by
    refine ⟨nodup_singleton _, fun p hp => ?_⟩
    rw [mem_singleton.1 hp]
    decide +kernel
  refine ⟨rfl, (scan_complete_iff (by decide) nodup_autoscalerScanner hall rfl).2 ?_⟩
  rintro p hp gvr r - gvr' - r' hr' -
  rw [mem_singleton.1 hp]
  refine ⟨rfl, ?_⟩
  have hgvr' : gvr' = autoscalers "v1" ∨ gvr' = autoscalers "v2" := by
    by_contra hne
    have hnil : autoscalerScanner.getResources gvr' = [] := if_neg hne
    exact absurd hr' (hnil ▸ not_mem_nil)
  obtain rfl | rfl := hgvr' <;> decide +kernel

/-- **A result is lost** if one policy is about the first version and another
about the second: a scan may leave a result for the second one only. -/
theorem first_version_is_overwritten :
    let a := autoscalerPolicy "a" ["v1"]
    let b := autoscalerPolicy "b" ["v2"]
    let ns : Namespace := ⟨"team", fun _ => none⟩
    sampleClient.policiesOfNamespace [a, b] ns = .ok [a, b]
      ∧ autoscalerScanner.Targets a (autoscalers "v1") autoscaler
      ∧ ∃ reports report, autoscalerScanner.ScanNamespace [a, b] ns (fun _ => none) reports
        ∧ reports autoscaler.uid = some report
        ∧ report.results.map (·.policy) = [b.uniqueName]
        ∧ ¬ autoscalerScanner.Complete [a, b] reports := by
  intro a b ns
  have htargets := targets_autoscalerPolicy "a"
  refine ⟨rfl, htargets, ?_⟩
  -- the second version is visited last
  obtain ⟨reports, hscans, hreport⟩ := @exists_scans autoscalerScanner [a, b]
    (by decide) nodup_autoscalerScanner (autoscalers "v2") autoscaler
    (ne_nil_of_length_pos (by decide +kernel)) (mem_singleton.2 rfl)
  refine ⟨reports, _, ⟨_, rfl, hscans⟩, hreport, by decide +kernel, ?_⟩
  intro hcomplete
  obtain ⟨report, hleft, hcount⟩ := hcomplete a mem_cons_self _ _ htargets
  rw [hreport] at hleft
  cases hleft
  exact absurd hcount (by decide +kernel)

end AuditScanner
