import AdmController.AuditScan

/-!
# Scans with failures

Listings and writes of reports may fail. This is logged, and at the end of a
scan all reports are deleted that were not stored by it.
-/

namespace AuditScanner

open StepSystem List

/-- **The beginning of a scan** that reaches so many items of each listing. -/
def Scanner.started (s : Scanner) (reached : GroupVersionResource → ℕ)
    (order : List (Σ _ : GroupVersionResource, List Policy)) (reports : ReportStore) : ScanState :=
  ⟨order.flatMap fun e => ((s.getResources e.1).take (reached e.1)).map fun r => ⟨r, e.2⟩,
    [], reports, ∅⟩

/-! ## Scans that fail -/

/-- **A scan with failures** leads from the stored reports to others. -/
def Scanner.ScansWith (s : Scanner) (policies : Policies) (reached : GroupVersionResource → ℕ)
    (order : List (Σ _ : GroupVersionResource, List Policy)) (events : List ScanEvent)
    (reports reports' : ReportStore) : Prop :=
  if policies.policiesByGVR.entries = [] then reports' = fun _ => none
  else order.Perm policies.policiesByGVR.entries
    ∧ ∃ st, run (s.step policies) (s.started reached order reports) events = some st
      ∧ st.queue = [] ∧ st.active = []
      ∧ reports' = deleteOldReports st.keptReports st.reports

/-- **A report is stored in a run**: some worker writes it, without a failure. -/
def Scanner.Stores (s : Scanner) (policies : Policies) (uid : String) :
    ScanState → List ScanEvent → Prop
  | _, [] => False
  | st, e :: events => (∃ i arrival job, e = .finish i arrival ∧ st.active[i]? = some job
        ∧ job.resource.uid = uid)
      ∨ ∃ st', s.step policies st e = some st' ∧ s.Stores policies uid st' events

/-- **Reports of objects that exist and are targeted** are not deleted. -/
def Scanner.KeepsReports (s : Scanner) (selected : List PolicyResource)
    (reports reports' : ReportStore) : Prop :=
  ∀ p ∈ selected, ∀ gvr r, s.Targets p gvr r → (reports r.uid).isSome = true →
    (reports' r.uid).isSome = true

section

variable {s : Scanner} {policies : Policies} {uid : String} {st st' : ScanState}

/-! ## When reports are kept -/

theorem isSome_left_step {e : ScanEvent} (h : s.step policies st e = some st') :
    (st'.left uid).isSome = true ↔ (st.left uid).isSome = true
      ∨ ∃ i arrival job, e = .finish i arrival ∧ st.active[i]? = some job
        ∧ job.resource.uid = uid := by
  cases e with
  | start =>
    dsimp only [Scanner.step] at h
    split at h
    · cases h
    · split at h
      · cases h
        simp [ScanState.left]
      · cases h
  | finish i arrival =>
    dsimp only [Scanner.step] at h
    split at h
    · cases h
    · next job hjob =>
      cases h
      show ((s.createOrPatchReport policies st job arrival).left uid).isSome = true ↔ _
      by_cases huid : job.resource.uid = uid
      · rw [← huid, left_createOrPatchReport_self]
        exact iff_of_true rfl (.inr ⟨i, arrival, job, rfl, hjob, rfl⟩)
      · rw [left_createOrPatchReport_ne st arrival huid]
        refine (or_iff_left ?_).symm
        rintro ⟨_, _, job', heq, hjob', huid'⟩
        cases heq
        cases hjob.symm.trans hjob'
        exact huid huid'
  | fail i =>
    dsimp only [Scanner.step] at h
    split at h
    · cases h
    · cases h
      simp [ScanState.left]

theorem isSome_left_run {events : List ScanEvent} (h : run (s.step policies) st events = some st') :
    (st'.left uid).isSome = true ↔ (st.left uid).isSome = true
      ∨ s.Stores policies uid st events := by
  induction events generalizing st with
  | nil =>
    cases h
    exact (or_iff_left not_false).symm
  | cons e events ih =>
    rw [run, Option.bind_eq_some_iff] at h
    obtain ⟨st₁, hstep, hrun⟩ := h
    rw [ih hrun, isSome_left_step hstep, or_assoc, Scanner.Stores]
    simp only [hstep, Option.some.injEq, exists_eq_left']

variable {selected : List PolicyResource} {reached : GroupVersionResource → ℕ}
  {order : List (Σ _ : GroupVersionResource, List Policy)} {events : List ScanEvent}
  {reports reports' : ReportStore}

/-- **Which reports a scan keeps**: those of objects that are targeted are kept
exactly if they are all stored again, as they are if nothing fails. -/
theorem reports_kept_iff {all : List PolicyResource} {ns : Namespace}
    (hselected : s.client.policiesOfNamespace all ns = .ok selected)
    (hpolicies : s.client.getPoliciesByNamespace all ns = .ok policies)
    (hscan : s.ScansWith policies reached order events reports reports') :
    (s.KeepsReports selected reports reports' ↔ ∀ p ∈ selected, ∀ gvr r, s.Targets p gvr r →
      (reports r.uid).isSome = true →
      s.Stores policies r.uid (s.started reached order reports) events)
      ∧ ((∀ gvr, (s.getResources gvr).length ≤ reached gvr) → (∀ e ∈ events, ∀ i, e ≠ .fail i) →
        s.KeepsReports selected reports reports') := by
  obtain rfl : s.client.groupPoliciesByGVR selected true = policies := by
    unfold Client.getPoliciesByNamespace at hpolicies
    rw [hselected] at hpolicies
    exact Except.ok.inj hpolicies
  have hentries {gvr : GroupVersionResource}
      (h : (s.client.groupPoliciesByGVR selected true).under gvr ≠ []) :
      (s.client.groupPoliciesByGVR selected true).policiesByGVR.entries ≠ [] :=
    ne_nil_of_mem ((mem_entries_policiesByGVR (e := ⟨gvr, Policies.under _ gvr⟩)).2 ⟨rfl, h⟩)
  unfold Scanner.ScansWith at hscan
  refine ⟨forall₂_congr fun p hp => forall₃_congr fun gvr r htarget => imp_congr_right fun _ => ?_,
    fun hall hfail p hp gvr r htarget _ => ?_⟩
  · rw [if_neg (hentries (under_ne_nil_iff.2 ⟨p, hp, htarget.evaluated⟩))] at hscan
    obtain ⟨-, st, hrun, -, -, rfl⟩ := hscan
    refine (isSome_left_run hrun).trans (or_iff_right ?_)
    simp [ScanState.left, deleteOldReports, Scanner.started]
  · have hunder := under_ne_nil_iff.2 ⟨p, hp, htarget.evaluated⟩
    rw [if_neg (hentries hunder)] at hscan
    obtain ⟨horder, st, hrun, hqueue, hactive, rfl⟩ := hscan
    simp only [Scanner.started, take_of_length_le (hall _)] at hrun
    have hjob : ⟨r, Policies.under _ gvr⟩ ∈ s.jobs order :=
      (mem_jobs horder).2 ⟨gvr, htarget.listed, rfl, hunder⟩
    obtain ⟨_, -, -, _, hleft⟩ := run_leaves hfail hrun hqueue hactive hjob
    exact Option.isSome_iff_exists.2 ⟨_, hleft⟩

end

def samplePolicies : Policies := sampleClient.groupPoliciesByGVR [autoscalerPolicy "a" ["v1"]] true

theorem samplePolicies_entries_ne_nil : samplePolicies.policiesByGVR.entries ≠ [] :=
  ne_nil_of_length_pos (by decide +kernel)

/-- A listing that is read to its end, and a report that is stored. -/
theorem report_stored_again : ∃ reports', autoscalerScanner.ScansWith samplePolicies (fun _ => 1)
      samplePolicies.policiesByGVR.entries [.start, .finish 0 .asked]
      (fun _ => some (newReport autoscaler)) reports'
    ∧ autoscalerScanner.KeepsReports [autoscalerPolicy "a" ["v1"]]
      (fun _ => some (newReport autoscaler)) reports' := by
  have hscan : ∃ reports', autoscalerScanner.ScansWith samplePolicies (fun _ => 1)
      samplePolicies.policiesByGVR.entries [.start, .finish 0 .asked]
      (fun _ => some (newReport autoscaler)) reports' :=
    ⟨_, (if_neg samplePolicies_entries_ne_nil).mpr ⟨.refl _, _, rfl, rfl, rfl, rfl⟩⟩
  obtain ⟨reports', hscan⟩ := hscan
  have hselected : autoscalerScanner.client.policiesOfNamespace [autoscalerPolicy "a" ["v1"]]
    ⟨"team", fun _ => none⟩ = .ok [autoscalerPolicy "a" ["v1"]] := rfl
  refine ⟨reports', hscan, (reports_kept_iff hselected rfl hscan).2 (fun gvr => ?_) (by simp)⟩
  show (if _ then [autoscaler] else []).length ≤ 1
  split <;> simp

/-- **A listing that fails** deletes the report of an object. -/
theorem report_lost : ∃ reports', autoscalerScanner.ScansWith samplePolicies (fun _ => 0)
      samplePolicies.policiesByGVR.entries [] (fun _ => some (newReport autoscaler)) reports'
    ∧ ¬ autoscalerScanner.KeepsReports [autoscalerPolicy "a" ["v1"]]
      (fun _ => some (newReport autoscaler)) reports' := by
  refine ⟨_, (if_neg samplePolicies_entries_ne_nil).mpr ⟨.refl _, _, rfl, rfl, rfl, rfl⟩,
    fun hkeeps => ?_⟩
  have hleft := hkeeps _ (mem_singleton.2 rfl) _ _ (targets_autoscalerPolicy "a") rfl
  simp [Scanner.started, deleteOldReports] at hleft

end AuditScanner
