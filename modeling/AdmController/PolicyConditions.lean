import AdmController.WebhookOwnership

/-!
# The conditions of active policies

A reconcile collects conditions in memory, and an update in between reads back
the stored status. So a policy may become active without being reported as
reachable, when its finalizer is added.
-/

namespace Controller

open Prog PoliciesV1 Remote Policy

/-- **The policies and the object in memory** are left alone. -/
abbrev KeepsPolicies {ε α : Type} (x : Prog (Remote.State Cluster Policy) ε α) : Prop :=
  x.Keeps fun s => (s.store.policies, s.object)

section

variable (p : Policy)

theorem survivesDeletions_policies (v : List Policy × Policy) :
    SurvivesDeletions p fun c o => (c.policies, o) = v :=
  fun c o mutating name uid _ h =>
    (congrArg (·, o) (policies_deleteWebhook mutating name uid c)).trans h

/-! ## What a reconcile reports -/

theorem keepsPolicies_deleteWebhookConfiguration : KeepsPolicies (deleteWebhookConfiguration p) :=
  fun s => maintains_deleteWebhookConfiguration (survivesDeletions_policies p _) s rfl

theorem keepsPolicies_legacyCleanup :
    KeepsPolicies (reconcileLegacyWebhookConfigurationCleanup p) :=
  fun s => maintains_legacyCleanup (survivesDeletions_policies p _) s rfl

end

/-- A condition of the policy in memory is true. -/
abbrev Reports (s : Remote.State Cluster Policy) (type : PolicyConditionType) : Bool :=
  isStatusConditionTrue s.object.getStatus.conditions type

/-- **The policy waits**: only its status has changed, and it is not active. -/
structure Waits (p : Policy) (c : Cluster) (s : Remote.State Cluster Policy) : Prop where
  store : s.store = c
  object : ∃ status, s.object = p.withStatus status
  active : Reports s .policyActive = false

section

variable {p : Policy} {c : Cluster} {u : Unit} {s s' : Remote.State Cluster Policy}

theorem Waits.modify (hs : Waits p c s) {f : PolicyStatus → PolicyStatus}
    (hf : isStatusConditionTrue (f s.object.getStatus).conditions .policyActive = false)
    (h : (modify fun p => p.withStatus (f p.getStatus) : Work Policy Unit) s = (.ok u, s')) :
    Waits p c s' := by
  obtain ⟨status, hobject⟩ := hs.object
  rw [modify_eq_ok h]
  refine ⟨hs.store, ⟨f status, ?_⟩, by rwa [Reports, getStatus_withStatus]⟩
  rw [hobject, getStatus_withStatus]
  cases p <;> rfl

/-! ## Policies that wait -/

theorem Waits.setStatus (hs : Waits p c s) {status : PolicyStatusEnum}
    (h : setStatus status s = (.ok u, s')) : Waits p c s' :=
  hs.modify (f := fun status' => { status' with policyStatus := status }) hs.active h

theorem Waits.setCondition (hs : Waits p c s) {condition : Condition}
    (hcondition : condition.type = .policyActive → condition.status = false)
    (h : setCondition condition s = (.ok u, s')) : Waits p c s' := by
  refine hs.modify (f := fun status => { status with
    conditions := setStatusCondition status.conditions condition }) ?_ h
  rw [isStatusConditionTrue_set]
  split
  · next htype => exact hcondition htype
  · exact hs.active

theorem Waits.of_eq (hs : Waits p c s) (hstore : s'.store = s.store)
    (hobject : s'.object = s.object) : Waits p c s' :=
  ⟨hstore.trans hs.store, hobject ▸ hs.object, by rw [Reports, hobject]; exact hs.active⟩

theorem Waits.identity (hs : Waits p c s) : s.object.identity = p.identity := by
  obtain ⟨status, hobject⟩ := hs.object
  rw [hobject]
  simp [Policy.identity, Policy.getNamespace, Policy.getName]

end

section

variable {r : PolicySubReconciler} {p : Policy} {c : Cluster} {u : Unit} {result : Result}
  {s s' : Remote.State Cluster Policy}
  (hdecode : ∀ memory stored, r.decodeStatus memory stored = stored)
  (hp : c.policy p.identity = some p)
include hdecode hp

theorem getStatus_update {what : String} (hpolicies : s.store.policies = c.policies)
    (hid : s.object.identity = p.identity) (h : update r what s = (.ok u, s')) :
    s'.object.getStatus = p.getStatus := by
  replace h := object_bind h
  obtain ⟨stored, s₁, hcall, h⟩ := bind_eq_ok.1 h
  obtain ⟨hcall, -⟩ := call_eq_ok (mapError_eq_ok.1 hcall)
  have hpolicy : s.store.policy s.object.identity = some p := by
    rw [hid, Cluster.policy, hpolicies]
    exact hp
  unfold Cluster.updatePolicy at hcall
  rw [hpolicy, Except.ok.injEq, Prod.mk.injEq] at hcall
  rw [modify_eq_ok h, getStatus_withStatus, hdecode, ← hcall.1]

/-! ## The conditions of a reconcile -/

theorem reports_unavailable (hs : Waits p c s)
    (h : reconcilePolicyServerUnavailable r s = (.ok result, s'))
    (hactive : Reports s' .policyActive = true) : s'.object.getStatus.conditions
      = p.getStatus.conditions := by
  obtain ⟨_, s₁, hremove, h⟩ := bind_eq_ok.1 h
  obtain ⟨_, s₂, hstatus, h⟩ := bind_eq_ok.1 h
  obtain ⟨-, rfl⟩ := pure_eq_ok.1 h
  have hconditions : s₂.object.getStatus.conditions = s₁.object.getStatus.conditions := by
    rw [modify_eq_ok hstatus, getStatus_withStatus]
  replace hremove := object_bind hremove
  obtain ⟨_, s₃, hdelete, hremove⟩ := bind_eq_ok.1 hremove
  obtain ⟨_, s₄, hlegacy, hremove⟩ := bind_eq_ok.1 hremove
  obtain ⟨_, s₅, hfinalizer, hremove⟩ := bind_eq_ok.1 hremove
  obtain ⟨_, s₆, hold, hremove⟩ := bind_eq_ok.1 hremove
  obtain ⟨hpolicies, hobject⟩ := Prod.mk.inj ((keepsPolicies_legacyCleanup _).eq hlegacy |>.trans
    ((keepsPolicies_deleteWebhookConfiguration _).eq hdelete))
  have hmemory : s₆.object.getStatus = s.object.getStatus ∧ s₆.object.core = s.object.core
      ∧ s₆.store.policies = s.store.policies := by
    rw [modify_eq_ok hold, modify_eq_ok hfinalizer]
    simp [hobject, hpolicies]
  split at hremove
  · have hid := eq_of_core hmemory.2.1 identity_core
    rw [hconditions, getStatus_update hdecode hp (hmemory.2.2.trans (hs.store ▸ rfl))
      (hid.trans hs.identity) hremove]
  · obtain ⟨-, rfl⟩ := pure_eq_ok.1 hremove
    rw [Reports, hconditions, hmemory.1] at hactive
    exact absurd hactive (by rw [show isStatusConditionTrue _ _ = false from hs.active]; simp)

theorem reports_activatePolicy {secret : Secret} {server : PolicyServer} (hs : Waits p c s)
    (h : activatePolicy r secret server s = (.ok result, s')) :
    Reports s' .policyUniquelyReachable = if containsFinalizer p kubewardenFinalizer then
      Reports s .policyUniquelyReachable
      else isStatusConditionTrue p.getStatus.conditions .policyUniquelyReachable := by
  obtain ⟨_, s₁, hfinalizer, h⟩ := bind_eq_ok.1 h
  replace h := object_bind h
  obtain ⟨_, s₂, hwebhook, h⟩ := bind_eq_ok.1 h
  obtain ⟨_, s₃, hlegacy, h⟩ := bind_eq_ok.1 h
  obtain ⟨_, s₄, hactive, h⟩ := bind_eq_ok.1 h
  obtain ⟨-, rfl⟩ := pure_eq_ok.1 h
  obtain ⟨_, s₅, hstatus, hcondition⟩ := bind_eq_ok.1 hactive
  obtain ⟨_, hobject⟩ := Prod.mk.inj ((keepsPolicies_legacyCleanup _).eq (mapError_eq_ok.1 hlegacy))
  obtain ⟨live, s₆, hlive, hput⟩ := bind_eq_ok.1 (mapError_eq_ok.1 hwebhook)
  have hsame : s₂.object = s₁.object := (put_eq_ok (mapError_eq_ok.1 hput)).2.trans
    (get_eq_ok (mapError_eq_ok.1 hlive)).2.2
  have hreports : Reports s₄ .policyUniquelyReachable = Reports s₁ .policyUniquelyReachable := by
    rw [Reports, modify_eq_ok hcondition, getStatus_withStatus, isStatusConditionTrue_set,
      modify_eq_ok hstatus, getStatus_withStatus]
    show isStatusConditionTrue s₃.object.getStatus.conditions _ = _
    rw [hobject, hsame]
  rw [hreports]
  replace hfinalizer := object_bind hfinalizer
  obtain ⟨status, hmemory⟩ := hs.object
  have hcontains : containsFinalizer s.object kubewardenFinalizer
      = containsFinalizer p kubewardenFinalizer := by
    rw [hmemory, containsFinalizer, getObjectMeta_withStatus]
    rfl
  rw [hcontains] at hfinalizer
  split at hfinalizer
  · next hnone =>
    obtain ⟨_, s₇, hadd, hupdate⟩ := bind_eq_ok.1 hfinalizer
    rw [if_neg (by simp [hnone]), Reports, getStatus_update hdecode hp ?_ ?_ hupdate]
    · rw [modify_eq_ok hadd]
      exact congrArg _ hs.store
    · rw [modify_eq_ok hadd, ← hs.identity]
      refine eq_of_core ?_ identity_core
      split
      · rfl
      · exact core_withFinalizers _
  · next hsome =>
    obtain ⟨-, rfl⟩ := pure_eq_ok.1 hfinalizer
    rw [if_pos (by simpa using hsome)]

theorem reports_reconcileScheduledPolicy {server : PolicyServer} (hs : Waits p c s)
    (h : reconcileScheduledPolicy r server s = (.ok result, s'))
    (hactive : Reports s' .policyActive = true) : Reports s' .policyUniquelyReachable
      = (containsFinalizer p kubewardenFinalizer
        || isStatusConditionTrue p.getStatus.conditions .policyUniquelyReachable) := by
  obtain ⟨_, s₁, hpending, h⟩ := bind_eq_ok.1 h
  have hs₁ : Waits p c s₁ := by
    replace hpending := object_bind hpending
    split at hpending
    · exact hs.setStatus hpending
    · obtain ⟨-, rfl⟩ := pure_eq_ok.1 hpending
      exact hs
  replace h := object_bind h
  obtain ⟨deployment, s₂, hdeployment, h⟩ := bind_eq_ok.1 h
  obtain ⟨-, hstore, hobject⟩ := get_eq_ok (mapError_eq_ok.1 hdeployment)
  have hs₂ := hs₁.of_eq hstore hobject
  split at h
  · obtain ⟨-, rfl⟩ := pure_eq_ok.1 h
    exact absurd hactive (by simp [hs₂.active])
  · obtain ⟨secret, s₃, hsecret, h⟩ := bind_eq_ok.1 h
    obtain ⟨-, hstore, hobject⟩ := get_eq_ok (mapError_eq_ok.1 hsecret)
    have hs₃ := hs₂.of_eq hstore hobject
    split at h
    · exact absurd h throw_ne_ok
    · obtain ⟨reachable, s₄, hreachable, h⟩ := bind_eq_ok.1 h
      obtain ⟨hstore, hobject⟩ := Prod.mk.inj (
        (keeps_isPolicyUniquelyReachable _ _ _).eq hreachable)
      have hs₄ := hs₃.of_eq hstore hobject
      split at h
      · obtain ⟨_, s₅, hcondition, h⟩ := bind_eq_ok.1 h
        obtain ⟨-, rfl⟩ := pure_eq_ok.1 h
        exact absurd hactive (by simp [(hs₄.setCondition (by simp) hcondition).active])
      · obtain ⟨_, s₅, hcondition, h⟩ := bind_eq_ok.1 h
        rw [reports_activatePolicy hdecode hp (hs₄.setCondition (by simp) hcondition) h]
        have hset : Reports s₅ .policyUniquelyReachable = true := by
          rw [Reports, modify_eq_ok hcondition, getStatus_withStatus,
            isStatusConditionTrue_set, if_pos rfl]
        rw [hset]
        cases containsFinalizer p kubewardenFinalizer <;> rfl

theorem reports_reconcilePolicy (hstore : s.store = c) (hobject : s.object = p)
    (h : reconcilePolicy r s = (.ok result, s')) (hactive : Reports s' .policyActive = true) :
    Reports s' .policyUniquelyReachable = true
      ↔ isStatusConditionTrue p.getStatus.conditions .policyUniquelyReachable = true
        ∨ containsFinalizer p kubewardenFinalizer = true ∧ ¬ Unavailable c p.getPolicyServer := by
  obtain ⟨_, s₁, hcondition, h⟩ := bind_eq_ok.1 h
  have hs₁ : Waits p c s₁ := by
    rw [modify_eq_ok hcondition, hobject]
    refine ⟨hstore, ⟨_, rfl⟩, ?_⟩
    rw [Reports, getStatus_withStatus, isStatusConditionTrue_set, if_pos rfl]
  obtain ⟨rejected, s₂, hallow, h⟩ := bind_eq_ok.1 h
  obtain ⟨rfl, -, -, hinactive⟩ | ⟨rfl, hsame, hmemory, -⟩ :=
    reconcileNamespacedPolicyAllowList_eq_ok (p := p) hallow
  · obtain ⟨-, rfl⟩ := pure_eq_ok.1 h
    exact absurd hactive (by simp [hinactive])
  have hs₂ := hs₁.of_eq hsame hmemory
  replace h := object_bind h
  obtain ⟨status, hstatus⟩ := hs₂.object
  have hserver : s₂.object.getPolicyServer = p.getPolicyServer := by
    rw [hstatus]
    exact eq_of_core (core_withStatus status) getPolicyServer_core
  split at h
  · obtain ⟨_, s₃, hunscheduled, h⟩ := bind_eq_ok.1 h
    obtain ⟨-, rfl⟩ := pure_eq_ok.1 h
    exact absurd hactive (by simp [(hs₂.setStatus hunscheduled).active])
  · obtain ⟨server, s₃, hget, h⟩ := bind_eq_ok.1 h
    obtain ⟨⟨o, ho, hfilter⟩, hsame, hmemory⟩ := getPolicyServer_eq_ok hget
    rw [hserver, hs₂.store] at ho
    have hs₃ := hs₂.of_eq hsame hmemory
    cases server with
    | none =>
      have hgone : Unavailable c p.getPolicyServer := ⟨o, ho, hfilter.symm⟩
      rw [Reports, reports_unavailable hdecode hp hs₃ h hactive]
      simp [hgone]
    | some server =>
      have hthere : ¬ Unavailable c p.getPolicyServer := by
        rintro ⟨o', ho', hnone⟩
        rw [ho] at ho'
        cases ho'
        rw [← hfilter] at hnone
        cases hnone
      rw [reports_reconcileScheduledPolicy hdecode hp hs₃ h hactive]
      simp [hthere, or_comm]

end

/-! ## Active policies -/

/-- **When an active policy is reported as reachable**: if it was before, or if
it already had the finalizer and its policy server is there. -/
theorem active_policy_is_reachable_iff {r : PolicySubReconciler} {p q : Policy} {c c' : Cluster}
    {id : Kind × String × String} {faults : List (Option String)} {result : Result}
    (hdecode : ∀ memory stored, r.decodeStatus memory stored = stored)
    (hp : c.policy id = some p) (hlive : p.isDeleted = false)
    (h : reconcileRequest r id faults c = (.ok result, c')) (hq : c'.policy id = some q)
    (hactive : isStatusConditionTrue q.getStatus.conditions .policyActive = true) :
    isStatusConditionTrue q.getStatus.conditions .policyUniquelyReachable = true
      ↔ isStatusConditionTrue p.getStatus.conditions .policyUniquelyReachable = true
        ∨ containsFinalizer p kubewardenFinalizer = true ∧ ¬ Unavailable c p.getPolicyServer := by
  obtain rfl := Cluster.identity_of_policy hp
  obtain ⟨hnone, -⟩ | ⟨_, faults, s', hstored, hrun, rfl⟩ := reconcileRequest_eq_ok h
  · exact absurd (hp.symm.trans hnone) (by simp)
  obtain rfl := Option.some.inj (hp.symm.trans hstored)
  replace hrun := object_bind hrun
  rw [if_neg (by simp [hlive])] at hrun
  obtain ⟨outcome, s₁, hattempt, hrun⟩ := bind_eq_ok.1 hrun
  obtain ⟨_, s₂, hstatus, hrun⟩ := bind_eq_ok.1 hrun
  obtain ⟨rfl, rfl⟩ := ofExcept_eq_ok.1 hrun
  have hpolicy : reconcilePolicy r ⟨c, faults, p⟩ = (.ok result, s₁) := attempt_eq_ok.1 hattempt
  have hspares : Spares p c (reconcilePolicy r) := spares_reconcilePolicy
  have hcore := (hspares ⟨c, faults, p⟩ ⟨rfl, fun _ _ _ => rfl⟩).1
  rw [hpolicy] at hcore
  obtain ⟨⟨stored, status, -, ⟨-, hsame⟩, hafter⟩, -⟩ := storeStatus_eq_ok hstatus
  rw [Policy.eq_of_core hcore Policy.identity_core, hq] at hafter
  cases hafter
  rw [Policy.getStatus_withStatus, hsame _ (by simp)] at hactive ⊢
  exact reports_reconcilePolicy hdecode hp rfl rfl hpolicy hactive

/-- **A policy that gets its finalizer** is active, but not reported as reachable. -/
theorem active_policy_is_not_reachable :
    let p := (createdClusterPolicy false).withStatus ⟨.pending, none, []⟩
    (reconcileRequest .standard createdId [] (servingCluster p)).1 = .ok .done
      ∧ ((reconcileRequest .standard createdId [] (servingCluster p)).2.policy createdId).map
          (fun q => (isStatusConditionTrue q.getStatus.conditions .policyActive,
            isStatusConditionTrue q.getStatus.conditions .policyUniquelyReachable))
        = some (true, false) := by
  decide +kernel

theorem finalized_policy_is_reachable :
    let p := (createdClusterPolicy false).withFinalizers [kubewardenFinalizer]
    ∃ c' q, reconcileRequest .standard createdId [] (servingCluster p) = (.ok .done, c')
      ∧ c'.policy createdId = some q
      ∧ isStatusConditionTrue q.getStatus.conditions .policyUniquelyReachable = true := by
  intro p
  have hok : (reconcileRequest .standard createdId [] (servingCluster p)).1 = .ok .done := by
    decide +kernel
  have hactive : (((reconcileRequest .standard createdId [] (servingCluster p)).2.policy
    createdId).map fun q => isStatusConditionTrue q.getStatus.conditions .policyActive)
      = some true := by decide +kernel
  obtain ⟨q, hq, hactive⟩ := Option.map_eq_some_iff.1 hactive
  refine ⟨_, q, Prod.ext hok rfl, hq, (active_policy_is_reachable_iff (p := p) (fun _ _ => rfl)
    (by rfl) rfl (Prod.ext hok rfl) hq hactive).2 (.inr ⟨by decide +kernel, ?_⟩)⟩
  rintro ⟨server, hserver, hnone⟩
  have hthere : (((servingCluster p).policyServer p.getPolicyServer).toOption.bind
      (·.filter fun server => server.metadata.deletionTimestamp.isNone)).isSome = true := by
    decide +kernel
  rw [hserver] at hthere
  simp [Except.toOption, hnone] at hthere

end Controller
