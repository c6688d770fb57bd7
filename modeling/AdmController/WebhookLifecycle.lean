import AdmController.PolicyReconcilerSpec
import AdmController.PolicyServerReconciler
import AdmController.PolicyValidation
import AdmController.StepSystem

/-!
# The webhook configurations of a policy

After every reconcile, a policy that must go should have no webhook
configuration, and an active one exactly one (`Lawful`).
-/

namespace Controller

open Prog StepSystem AList Cluster

open PoliciesV1 Remote Policy

/-! ## One reconcile -/

/-- **The webhook configurations fit the policy**: none is of the other kind,
and one is there if the policy is active and stays. -/
def Fits (p : Policy) (c : Cluster) : Prop :=
  c.present p.getUniqueName (!p.isMutating) = false
    ∧ (p.isDeleted = false → p.getStatus.policyStatus = .active →
      c.present p.getUniqueName p.isMutating = true)

def Gone (p : Policy) (c : Cluster) : Prop := ∀ mutating, c.present p.getUniqueName mutating = false

def ExactlyOne (p : Policy) (c : Cluster) : Prop :=
  ∀ mutating, c.present p.getUniqueName mutating = true ↔ mutating = p.isMutating

/-- **What is expected of a reconcile**: a policy that must go has no webhook
configuration afterwards; one that is active has exactly one. -/
structure Lawful (r : PolicySubReconciler) (id : Kind × String × String)
    (c c' : Cluster) : Prop where
  gone : ∀ p, c.policy id = some p → MustGo r c p →
    Gone p c' ∧ ∀ policies, p.getUniqueName ∉ c'.remaining policies
  active : ∀ p q, c.policy id = some p → p.isDeleted = false →
    c'.policy id = some q → q.getStatus.policyStatus = .active →
    ExactlyOne q c'

section

variable {r : PolicySubReconciler} {p q : Policy} {c c' : Cluster}
  {id : Kind × String × String} {result : Result}
  {faults : List (Option String)}

theorem Gone.not_mem_remaining (h : Gone p c) (policies : List Policy) :
    p.getUniqueName ∉ c.remaining policies := by
  intro hmem
  obtain ⟨-, hpresent⟩ := List.mem_filter.1 hmem
  rw [h false, h true] at hpresent
  cases hpresent

theorem gone_of_update (h : Fits p c) (hpresent : c'.present p.getUniqueName
      = Function.update (c.present p.getUniqueName) p.isMutating false) :
    Gone p c' := by
  intro mutating
  rw [hpresent, Function.update_apply]
  by_cases hm : mutating = p.isMutating
  · rw [if_pos hm]
  · rw [if_neg hm, Bool.eq_not.2 hm]
    exact h.1

theorem fits_of_core (hcore : q.core = p.core)
    (hother : c'.present p.getUniqueName (!p.isMutating) = false)
    (hown : p.isDeleted = false → q.getStatus.policyStatus = .active →
      c'.present p.getUniqueName p.isMutating = true) : Fits q c' := by
  unfold Fits
  rw [eq_of_core hcore getUniqueName_core, eq_of_core hcore isMutating_core,
    eq_of_core hcore isDeleted_core]
  exact ⟨hother, hown⟩

theorem Fits.exactlyOne (h : Fits p c) (hdeleted : p.isDeleted = false)
    (hactive : p.getStatus.policyStatus = .active) : ExactlyOne p c := by
  intro mutating
  by_cases hm : mutating = p.isMutating
  · exact iff_of_true (hm ▸ h.2 hdeleted hactive) hm
  · rw [Bool.eq_not.2 hm, h.1]
    exact iff_of_false (by simp) (by simp)

theorem reconcileRequest_eq_ok (h : reconcileRequest r id faults c = (.ok result, c')) :
    (c.policy id = none ∧ c' = c) ∨ ∃ p faults s', c.policy id = some p
      ∧ reconcile r ⟨c, faults, p⟩ = (.ok result, s')
      ∧ c' = s'.store := by
  unfold reconcileRequest at h
  split at h
  · cases h
  · split at h
    · next hnone =>
      cases h
      exact .inl ⟨hnone, rfl⟩
    · next p hp =>
      rcases hreconcile : reconcile r ⟨c, faults.tail, p⟩ with ⟨outcome, s'⟩
      rw [hreconcile] at h
      cases h
      exact .inr ⟨p, _, s', hp, hreconcile, rfl⟩

theorem Ended.webhooks {s s' : Remote.State Cluster Policy}
    (h : Ended r p s s') (htracks : Tracks p s) (hobject : s.object = p)
    (hdeleted : p.isDeleted = false) (hfits : Fits p s.store) :
    Tracks p s' ∧ (MustGo r s.store p → Gone p s'.store)
      ∧ s'.store.present p.getUniqueName (!p.isMutating) = false
      ∧ (s'.object.getStatus.policyStatus = .active →
        s'.store.present p.getUniqueName p.isMutating = true) := by
  cases h with
  | removed becomes status =>
    have hgone := gone_of_update hfits (becomes.present htracks)
    exact ⟨becomes.tracks htracks, fun _ => hgone, hgone _, fun hactive => absurd hactive status⟩
  | kept continues stays status =>
    rw [continues.present]
    refine ⟨continues.tracks htracks, fun hgo => absurd hgo stays, hfits.1,
      fun hactive => hfits.2 hdeleted ?_⟩
    rw [← hobject]
    exact status hactive
  | activated becomes stays =>
    rw [becomes.present htracks]
    refine ⟨becomes.tracks htracks, fun hgo => absurd hgo stays, ?_, fun _ => ?_⟩
    · rw [Function.update_of_ne (by simp)]
      exact hfits.1
    · rw [Function.update_self]

theorem reconcile_fits {s' : Remote.State Cluster Policy} (hp : c.policy id = some p)
    (hfits : Fits p c) (h : reconcile r ⟨c, faults, p⟩ = (.ok result, s')) :
    (MustGo r c p → Gone p s'.store) ∧ ∀ q, s'.store.policy id = some q → q.core = p.core
      ∧ Fits q s'.store := by
  have hid : p.identity = id := identity_of_policy hp
  have htracks : Tracks p ⟨c, faults, p⟩ := by
    refine ⟨rfl, fun stored hstored => ?_⟩
    rw [hid] at hstored
    cases hp.symm.trans hstored
    rfl
  obtain ⟨policy, s₁, hobject, h⟩ := bind_eq_ok.1 h
  cases hobject
  split at h
  · next hdeleted =>
    obtain ⟨_, s₂, hremove, h⟩ := bind_eq_ok.1 h
    obtain ⟨-, rfl⟩ := pure_eq_ok.1 h
    have hbecomes := becomes_removePolicyWebhooksAndFinalizers (p := p) hremove
    have hgone : Gone p s₂.store := gone_of_update hfits (hbecomes.present htracks)
    refine ⟨fun _ => hgone, fun q hq => ?_⟩
    have hcore : q.core = p.core := (hbecomes.tracks htracks).2 q (hid ▸ hq)
    refine ⟨hcore, fits_of_core hcore (hgone _) fun hnot => ?_⟩
    rw [show p.isDeleted = true from hdeleted] at hnot
    cases hnot
  · next hdeleted =>
    obtain ⟨outcome, s₂, hattempt, h⟩ := bind_eq_ok.1 h
    obtain ⟨_, s₃, hstore, h⟩ := bind_eq_ok.1 h
    obtain ⟨rfl, rfl⟩ := ofExcept_eq_ok.1 h
    have hended : Ended r p ⟨c, faults, p⟩ s₂ := ended_reconcilePolicy rfl
      (Bool.eq_false_of_not_eq_true hdeleted) (attempt_eq_ok.1 hattempt)
    obtain ⟨htracks', hgo, hother, hown⟩ := hended.webhooks htracks rfl
      (Bool.eq_false_of_not_eq_true hdeleted) hfits
    obtain ⟨⟨stored, status, hstored, ⟨hstatus, -⟩, hafter⟩, hpresent⟩ := storeStatus_eq_ok hstore
    rw [eq_of_core htracks'.1 identity_core] at hstored hafter
    refine ⟨fun hmust mutating => hpresent _ ▸ hgo hmust mutating, fun q hq => ?_⟩
    rw [← hid, hafter] at hq
    cases hq
    have hcore : (stored.withStatus status).core = p.core := by
      rw [core_withStatus]
      exact htracks'.2 stored hstored
    refine ⟨hcore, fits_of_core hcore (hpresent _ ▸ hother) fun _ hactive => ?_⟩
    rw [hpresent]
    rw [getStatus_withStatus, hstatus] at hactive
    exact hown hactive

end

/-! ## Runs -/

/-- **What happens to a policy.** -/
inductive Event where
  /-- A user updates the policy. -/
  | update (new : Policy)
  /-- A user deletes the policy. -/
  | delete (time : String)
  /-- Anything else in the cluster changes. -/
  | others (surroundings : Cluster)
  /-- The policy is reconciled, successfully. -/
  | reconcile (faults : List (Option String))

def accepted (lib : ValidationLib) (old new : Policy) : Bool :=
  new.identity = old.identity && new.getObjectMeta.deletionTimestamp
    = old.getObjectMeta.deletionTimestamp
    && (validateUpdate lib old new).isEmpty

/-- **What an event does** to the cluster. Nobody else writes webhooks. -/
def step (r : PolicySubReconciler) (lib : ValidationLib)
    (id : Kind × String × String) (c : Cluster) : Event → Option Cluster
  | .update new =>
    match c.policy id with
    | some old =>
      if accepted lib old new then (c.updatePolicy new).toOption.map Prod.snd
      else none
    | none => none
  | .delete time =>
    match c.policy id with
    | some p =>
      if p.isDeleted then some c
      else if p.getObjectMeta.finalizers = [] then some (c.replacePolicy id none)
      else some (c.replacePolicy id (some (p.withDeletionTimestamp time)))
    | none => none
  | .others surroundings => some { surroundings with
      policies := c.policies
      validating := c.validating
      mutating := c.mutating }
  | .reconcile faults =>
    match reconcileRequest r id faults c with
    | (.ok _, c') => some c'
    | _ => none

def KeepsKind (id : Kind × String × String) (c : Cluster) : Event → Prop
  | .update new => ∀ old, c.policy id = some old → new.isMutating = old.isMutating
  | _ => True

section

variable {r : PolicySubReconciler} {lib : ValidationLib} {p : Policy}
  {id : Kind × String × String} {c c' : Cluster}

theorem getUniqueName_of_identity {q : Policy} (h : q.identity = p.identity) :
    q.getUniqueName = p.getUniqueName := by
  have hkind : q.kind = p.kind := congrArg Prod.fst h
  have hnamespace : q.getNamespace = p.getNamespace := congrArg (fun id => id.2.1) h
  have hname : q.getName = p.getName := congrArg (fun id => id.2.2) h
  unfold getUniqueName
  rw [hkind, hnamespace, hname]

/-- **An update** that leaves the kind alone. -/
theorem fits_of_update {old new q : Policy} (hold : c.policy id = some old) (hfits : Fits old c)
    (haccepted : accepted lib old new = true) (hkind : new.isMutating = old.isMutating)
    (h : (c.updatePolicy new).toOption.map Prod.snd = some c') (hq : c'.policy id = some q) :
    Fits q c' := by
  simp only [accepted, Bool.and_eq_true, decide_eq_true_eq] at haccepted
  obtain ⟨⟨hidentity, hdeletion⟩, -⟩ := haccepted
  have hid : new.identity = id := hidentity.trans (identity_of_policy hold)
  unfold updatePolicy at h
  rw [hid, hold] at h
  obtain rfl := Option.some.inj h
  split at hq
  · rw [policy_replacePolicy_none] at hq
    cases hq
  · rw [policy_replacePolicy_some hold (by
      rw [← hid]
      simp [identity, getNamespace, getName])] at hq
    cases hq
    have hname : (new.withStatus old.getStatus).getUniqueName = old.getUniqueName := by
      refine getUniqueName_of_identity (Eq.trans ?_ hidentity)
      simp [identity, getNamespace, getName]
    unfold Fits
    rw [hname, isMutating_withStatus, hkind, getStatus_withStatus]
    refine ⟨hfits.1, fun hdeleted => hfits.2 ?_⟩
    rwa [isDeleted, getObjectMeta_withStatus, hdeletion] at hdeleted

theorem fits_of_deletion {time : String} {q : Policy} (hp : c.policy id = some p) (hfits : Fits p c)
    (hq : (c.replacePolicy id (some (p.withDeletionTimestamp time))).policy id = some q) :
    Fits q (c.replacePolicy id (some (p.withDeletionTimestamp time))) := by
  have hidentity : (p.withDeletionTimestamp time).identity = p.identity := by
    simp [withDeletionTimestamp, identity, getNamespace, getName]
  rw [policy_replacePolicy_some hp (hidentity.trans (identity_of_policy hp))] at hq
  cases hq
  unfold Fits
  rw [getUniqueName_of_identity hidentity]
  refine ⟨?_, fun hnot => ?_⟩
  · rw [withDeletionTimestamp, isMutating_mapMetadata]
    exact hfits.1
  · simp [isDeleted, withDeletionTimestamp] at hnot

/-- **Every event keeps the webhook configurations fitting.** -/
theorem fits_of_step {event : Event} (hfits : ∀ p, c.policy id = some p → Fits p c)
    (hkind : KeepsKind id c event) (h : step r lib id c event = some c') :
    ∀ p, c'.policy id = some p → Fits p c' := by
  intro q hq
  cases event with
  | update new =>
    dsimp only [step] at h
    split at h
    · next old hold =>
      split at h
      · next haccepted =>
        exact fits_of_update hold (hfits old hold) haccepted (hkind old hold) h hq
      · cases h
    · cases h
  | delete time =>
    dsimp only [step] at h
    split at h
    · next p hp =>
      split at h
      · cases h
        exact hfits q hq
      · split at h
        · cases h
          rw [policy_replacePolicy_none] at hq
          cases hq
        · cases h
          exact fits_of_deletion hp (hfits p hp) hq
    · cases h
  | others surroundings =>
    cases h
    exact hfits q hq
  | reconcile faults =>
    dsimp only [step] at h
    split at h
    · next result c₁ hreconcile =>
      cases h
      obtain ⟨hnone, rfl⟩ | ⟨p, faults', s', hp, hrun, rfl⟩ := reconcileRequest_eq_ok hreconcile
      · exact hfits q hq
      · exact ((reconcile_fits hp (hfits p hp) hrun).2 q hq).2
    · cases h

/-- **Webhook configurations follow the policy** after every reconcile, if its
updates do not change whether it mutates: none is left if it must go, and
exactly one is there if it is active. -/
theorem webhooks_follow_policy {c₀ : Cluster} {events : List Event}
    {faults : List (Option String)} (hpolicy : c₀.policy id = some p)
    (hstatus : p.getStatus.policyStatus ≠ .active) (hnone : Gone p c₀)
    (hkind : StepSystem.Along (step r lib id) (KeepsKind id) c₀ events)
    (hrun : run (step r lib id) c₀ events = some c)
    (hreconcile : step r lib id c (.reconcile faults) = some c') :
    Lawful r id c c' := by
  have hinit : ∀ q, c₀.policy id = some q → Fits q c₀ := by
    intro q hq
    cases hpolicy.symm.trans hq
    exact ⟨hnone _, fun _ hactive => absurd hactive hstatus⟩
  have hfits : ∀ q, c.policy id = some q → Fits q c :=
    run_induction _ (fun _ _ _ => fits_of_step) hinit hkind hrun
  dsimp only [step] at hreconcile
  split at hreconcile
  · next result c₁ h =>
    cases hreconcile
    obtain ⟨hmissing, rfl⟩ | ⟨q, faults', s', hq, hreconcile, rfl⟩ := reconcileRequest_eq_ok h
    · exact ⟨fun q hq => absurd (hmissing.symm.trans hq) (by simp),
        fun q _ hq => absurd (hmissing.symm.trans hq) (by simp)⟩
    · obtain ⟨hgo, hstored⟩ := reconcile_fits hq (hfits q hq) hreconcile
      refine ⟨fun q' hq' hmust => ?_, fun q' q'' hq' hdeleted hq'' hactive => ?_⟩
      · cases hq.symm.trans hq'
        exact ⟨hgo hmust, (hgo hmust).not_mem_remaining⟩
      · cases hq.symm.trans hq'
        obtain ⟨hcore, hfits'⟩ := hstored q'' hq''
        refine hfits'.exactlyOne ?_ hactive
        rw [Policy.eq_of_core hcore Policy.isDeleted_core]
        exact hdeleted
  · cases hreconcile

end

/-! ## A policy that is changed -/

def PolicySubReconciler.standard : PolicySubReconciler :=
  ⟨"kubewarden", "kubewarden-controller-config", true, fun _ stored => stored⟩

def createdClusterPolicy (mutating : Bool) : Policy :=
  .clusterAdmissionPolicy
    ⟨.created "" "p", { PolicySpec.ofModule "m" with
      mutating := mutating
      namespaceSelector := none
      contextAwareResources := []
      allowInsideAdmissionControllerNamespace := false }, .created, rfl⟩

def servingCluster (policy : Policy) : Cluster :=
  let server := PolicyServer.created "default" none
  let labels := singleton policyServerLabelKey "default"
  let revision := singleton "deployment.kubernetes.io/revision" "1"
  { empty with
    policies := [policy]
    policyServers := singleton "default" (policyServerToJson server)
    deployments := singleton ("kubewarden", "policy-server-default") ⟨labels, revision⟩
    replicaSets := [⟨"kubewarden", labels.insert "pod-template-hash" "h",
      revision.insert policyServerDeploymentConfigVersionAnnotation "1"⟩]
    pods := [⟨"kubewarden", labels.insert "pod-template-hash" "h", [("Ready", "True")]⟩]
    configMaps := singleton ("kubewarden", "policy-server-default")
      ⟨"1", ∅, singleton policyServerConfigPoliciesEntry (.mapping
        [(.str policy.getUniqueName, (configEntry server policy).marshalJSON)])⟩
    secrets := singleton ("kubewarden", "kubewarden-ca") ⟨∅⟩ }

def createdId : Kind × String × String := (.clusterAdmissionPolicy, "", "p")

def observed (events : List Event) : Option (Bool × PolicyStatusEnum × Bool × Bool) :=
  (run (step .standard .lenient createdId)
    (servingCluster (createdClusterPolicy false)) events).bind fun c =>
      (c.policy createdId).bind fun p =>
        (step .standard .lenient createdId c (.reconcile [])).bind fun c' =>
          (c'.policy createdId).map fun q => (p.isDeleted,
            q.getStatus.policyStatus, c'.present "kw.cap.p" false,
            c'.present "kw.cap.p" true)

theorem exists_of_observed {events : List Event} {deleted : Bool}
    {status : PolicyStatusEnum} {validating mutating : Bool}
    (h : observed events = some (deleted, status, validating, mutating)) :
    ∃ c c' p q, run (step .standard .lenient createdId)
      (servingCluster (createdClusterPolicy false)) events = some c
      ∧ step .standard .lenient createdId c (.reconcile []) = some c'
      ∧ c.policy createdId = some p ∧ p.isDeleted = deleted
      ∧ c'.policy createdId = some q ∧ q.getStatus.policyStatus = status
      ∧ c'.present q.getUniqueName false = validating
      ∧ c'.present q.getUniqueName true = mutating := by
  obtain ⟨c, hrun, h⟩ := Option.bind_eq_some_iff.1 h
  obtain ⟨p, hp, h⟩ := Option.bind_eq_some_iff.1 h
  obtain ⟨c', hstep, h⟩ := Option.bind_eq_some_iff.1 h
  obtain ⟨q, hq, h⟩ := Option.map_eq_some_iff.1 h
  have hname : q.getUniqueName = "kw.cap.p" := by
    have hidentity : q.identity = (createdClusterPolicy false).identity := identity_of_policy hq
    rw [getUniqueName_of_identity hidentity]
    rfl
  simp only [Prod.mk.injEq] at h
  rw [← hname] at h
  exact ⟨c, c', p, q, hrun, hstep, hp, h.1, hq, h.2.1, h.2.2.1, h.2.2.2⟩

theorem reconciled_twice : ∃ c c', run (step .standard .lenient createdId)
        (servingCluster (createdClusterPolicy false)) [.reconcile []] = some c
      ∧ step .standard .lenient createdId c (.reconcile []) = some c'
      ∧ Lawful .standard createdId c c' := by
  have hobserved : observed [.reconcile []]
    = some (false, .active, true, false) := by decide +kernel
  obtain ⟨c, c', p, q, hrun, hstep, -⟩ := exists_of_observed hobserved
  have hkind : StepSystem.Along (step .standard .lenient createdId)
    (KeepsKind createdId) (servingCluster (createdClusterPolicy false))
    [.reconcile []] := ⟨trivial, fun _ _ => trivial⟩
  exact ⟨c, c', hrun, hstep, webhooks_follow_policy
    (p := createdClusterPolicy false) rfl (by decide)
    (fun mutating => by cases mutating <;> rfl) hkind hrun hstep⟩

/-- **A policy that is changed to a mutating one** has both kinds. -/
theorem changed_policy_has_both : ∃ c c', run (step .standard .lenient createdId)
        (servingCluster (createdClusterPolicy false))
        [.reconcile [], .update ((createdClusterPolicy true).withFinalizers
          [kubewardenFinalizer])] = some c
      ∧ step .standard .lenient createdId c (.reconcile []) = some c'
      ∧ ¬ Lawful .standard createdId c c' := by
  have hobserved : observed [.reconcile [], .update ((createdClusterPolicy true).withFinalizers
        [kubewardenFinalizer])] = some (false, .active, true, true) := by
    decide +kernel
  obtain ⟨c, c', p, q, hrun, hstep, hp, hdeleted, hq, hactive, hvalidating,
    hmutating⟩ := exists_of_observed hobserved
  refine ⟨c, c', hrun, hstep, fun hlawful => ?_⟩
  have hone := hlawful.active p q hp hdeleted hq hactive
  have hboth := ((hone false).1 hvalidating).trans ((hone true).1 hmutating).symm
  cases hboth

end Controller
