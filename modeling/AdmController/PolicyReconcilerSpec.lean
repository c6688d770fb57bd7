import AdmController.PolicyReconciler

/-!
# What a reconcile of a policy does

What a run of each program of the reconciler has done, if it ends without an
error. Most steps change the status and finalizers of the policy only
(`Continues`), two the webhook configuration of its kind (`Becomes`).
-/

namespace PoliciesV1.Policy

/-! ## What the controller does not change -/

def core (p : Policy) : Policy := (p.withStatus .created).withFinalizers []

section

variable {p q : Policy} (status : PolicyStatus) (finalizers : List String)

@[simp] theorem core_withStatus : (p.withStatus status).core = p.core := by cases p <;> rfl

@[simp] theorem core_withFinalizers : (p.withFinalizers finalizers).core = p.core := by
  cases p <;> rfl

@[simp] theorem getStatus_withFinalizers :
    (p.withFinalizers finalizers).getStatus = p.getStatus := by
  cases p <;> rfl

theorem eq_of_core {α : Type} {f : Policy → α} (h : p.core = q.core)
    (hf : ∀ p, f p.core = f p) : f p = f q := by
  rw [← hf p, h, hf]

variable (p : Policy)

@[simp] theorem identity_core : p.core.identity = p.identity := by
  simp [core, withFinalizers, identity, getNamespace, getName]

@[simp] theorem getUniqueName_core : p.core.getUniqueName = p.getUniqueName := by
  simp [core, withFinalizers, getUniqueName, getNamespace, getName]

@[simp] theorem isMutating_core : p.core.isMutating = p.isMutating := by simp [core, withFinalizers]

@[simp] theorem isDeleted_core : p.core.isDeleted = p.isDeleted := by
  simp [core, withFinalizers, isDeleted]

@[simp] theorem getPolicyServer_core : p.core.getPolicyServer = p.getPolicyServer := by
  cases p <;> rfl

@[simp] theorem isNamespacedPolicyAllowed_core
    (allowed : Controller.NamespacedPoliciesAllowedResources) (p : Policy) :
    Controller.isNamespacedPolicyAllowed p.core allowed
      = Controller.isNamespacedPolicyAllowed p allowed := by
  cases p <;> rfl

end

end PoliciesV1.Policy

namespace Controller

open PoliciesV1 Remote Prog Policy Cluster

/-! ## Conditions -/

def isStatusConditionTrue (conditions : List Condition) (type : PolicyConditionType) : Bool :=
  (conditions.find? (·.type = type)).any (·.status)

theorem isStatusConditionTrue_set (conditions : List Condition) (c : Condition)
    (type : PolicyConditionType) : isStatusConditionTrue (setStatusCondition conditions c) type
      = if c.type = type then c.status else isStatusConditionTrue conditions type := by
  have hsame (old : Condition) : (if old.type = c.type then c else old).type = old.type := by
    split <;> simp [*]
  unfold isStatusConditionTrue setStatusCondition
  split
  · next hany =>
    simp only [List.find?_map, Function.comp_def, hsame]
    cases hfind : conditions.find? (·.type = type) with
    | none =>
      obtain ⟨old, hold, htype⟩ := List.any_eq_true.1 hany
      have hne := List.find?_eq_none.1 hfind old hold
      rw [of_decide_eq_true htype, decide_eq_true_eq] at hne
      rw [if_neg hne]
      rfl
    | some old =>
      have htype : old.type = type := by simpa using List.find?_some hfind
      simp only [Option.map_some, Option.any_some, htype, eq_comm (a := type)]
      split <;> rfl
  · next hany =>
    rw [List.find?_append]
    by_cases hc : c.type = type
    · have hnone : conditions.find? (·.type = type) = none := by simpa [hc] using hany
      simp [hnone, hc]
    · simp [hc]

/-! ## Steps that leave the webhook configurations alone -/

def Tracks (p : Policy) (s : State Cluster Policy) : Prop :=
  s.object.core = p.core ∧ ∀ stored, s.store.policy p.identity = some stored → stored.core = p.core

/-- **A run goes on** with the policy and its webhook configurations. -/
structure Continues (p : Policy) (s s' : State Cluster Policy) : Prop where
  tracks : Tracks p s → Tracks p s'
  present : s'.store.present p.getUniqueName = s.store.present p.getUniqueName

section

variable {r : PolicySubReconciler} {p : Policy} {s s₁ s' : State Cluster Policy}

theorem Continues.trans (h : Continues p s s₁) (h' : Continues p s₁ s') : Continues p s s' :=
  ⟨fun hs => h'.tracks (h.tracks hs), h'.present.trans h.present⟩

theorem continues_of_eq (hstore : s'.store = s.store)
    (hobject : s'.object = s.object) : Continues p s s' := by
  refine ⟨fun hs => ?_, by rw [hstore]⟩
  unfold Tracks at hs ⊢
  rwa [hstore, hobject]

theorem continues_get {α : Type} {f : Cluster → α} {wrap : Fault → String}
    {a : α} (h : ((get f).mapError wrap) s = (.ok a, s')) :
    Continues p s s' := by
  obtain ⟨-, hstore, hobject⟩ := get_eq_ok (mapError_eq_ok.1 h)
  exact continues_of_eq hstore hobject

theorem continues_modify {f : Policy → Policy} {u : Unit} (hf : (f s.object).core = s.object.core)
    (h : (modify f : Work Policy Unit) s = (.ok u, s')) :
    Continues p s s' := by
  rw [modify_eq_ok h]
  exact ⟨fun hs => ⟨hf.trans hs.1, hs.2⟩, rfl⟩

theorem continues_update {what : String} {u : Unit}
    (h : update r what s = (.ok u, s')) : Continues p s s' := by
  replace h := object_bind h
  obtain ⟨stored, s₂, hcall, h⟩ := bind_eq_ok.1 h
  obtain ⟨hcall, hsame⟩ := call_eq_ok (mapError_eq_ok.1 hcall)
  refine Continues.trans ?_ (continues_modify (by simp) h)
  unfold updatePolicy at hcall
  split at hcall
  · cases hcall
  · next old hold =>
    rw [Except.ok.injEq, Prod.mk.injEq] at hcall
    obtain ⟨-, hstore⟩ := hcall
    refine ⟨fun hs => ⟨hsame ▸ hs.1, fun q hq => ?_⟩, by rw [← hstore]; rfl⟩
    have hid : s.object.identity = p.identity := eq_of_core hs.1 identity_core
    rw [← hstore, hid] at hq
    split at hq
    · rw [policy_replacePolicy_none] at hq
      cases hq
    · rw [policy_replacePolicy_some (hid ▸ hold)
        (by simpa [identity, getNamespace, getName] using hid)] at hq
      cases hq
      rw [core_withStatus]
      exact hs.1

end

/-! ## Webhook configurations -/

/-- **The webhook configuration of the right kind** is there, or not, after a
run that goes on with the policy. -/
structure Becomes (p : Policy) (there : Bool) (s s' : State Cluster Policy) : Prop where
  tracks : Tracks p s → Tracks p s'
  present : Tracks p s → s'.store.present p.getUniqueName
    = Function.update (s.store.present p.getUniqueName) p.isMutating there

section

variable {r : PolicySubReconciler} {p q : Policy} {there : Bool}
  {s s₁ s' : State Cluster Policy} {u : Unit}

theorem Continues.trans_becomes (h : Continues p s s₁)
    (h' : Becomes p there s₁ s') : Becomes p there s s' :=
  ⟨fun hs => h'.tracks (h.tracks hs), fun hs =>
    h.present ▸ h'.present (h.tracks hs)⟩

theorem Becomes.trans_continues (h : Becomes p there s s₁)
    (h' : Continues p s₁ s') : Becomes p there s s' :=
  ⟨fun hs => h'.tracks (h.tracks hs), fun hs =>
    h'.present.trans (h.present hs)⟩

theorem tracks_put {f : Cluster → Cluster} {wrap : Fault → String}
    (hf : ∀ c, (f c).policies = c.policies)
    (h : ((put f).mapError wrap : Work Policy Unit) s = (.ok u, s'))
    (hs : Tracks p s) : Tracks p s' := by
  obtain ⟨hstore, hobject⟩ := put_eq_ok (mapError_eq_ok.1 h)
  refine ⟨hobject ▸ hs.1, fun stored hstored => hs.2 stored ?_⟩
  unfold policy at hstored ⊢
  rwa [hstore, hf] at hstored

theorem policies_deleteWebhook (mutating : Bool) (name : String) (uid : ℕ) (c : Cluster) :
    (c.deleteWebhook mutating name uid).policies = c.policies := by
  unfold Cluster.deleteWebhook Cluster.setWebhooks
  split
  · split
    · split <;> rfl
    · rfl
  · rfl

theorem policies_storeWebhook (mutating : Bool) (name : String)
    (webhook : WebhookConfiguration) (c : Cluster) :
    (c.storeWebhook mutating name webhook).policies = c.policies := by
  unfold storeWebhook setWebhooks
  split
  · split <;> rfl
  · split <;> rfl

theorem continues_legacyCleanupOf {mutating : Bool}
    (h : legacyCleanupOf mutating q s = (.ok u, s')) : Continues p s s' := by
  obtain ⟨webhook, s₁, hget, h⟩ := bind_eq_ok.1 h
  refine (continues_get hget).trans ?_
  split at h
  · split at h
    · refine ⟨tracks_put (policies_deleteWebhook _ _ _) h, ?_⟩
      rw [(put_eq_ok (mapError_eq_ok.1 h)).1]
      exact present_deleteWebhook_of_ne _ _ _ (getUniqueName_ne_legacy p q)
    · obtain ⟨-, rfl⟩ := pure_eq_ok.1 h
      exact continues_of_eq rfl rfl
  · obtain ⟨-, rfl⟩ := pure_eq_ok.1 h
    exact continues_of_eq rfl rfl

theorem continues_legacyCleanup (h : reconcileLegacyWebhookConfigurationCleanup q s = (.ok u, s')) :
    Continues p s s' := by
  obtain ⟨_, s₁, hvalidating, hmutating⟩ := bind_eq_ok.1 h
  exact (continues_legacyCleanupOf hvalidating).trans (continues_legacyCleanupOf hmutating)

theorem becomes_of_object (htracks : Tracks p s → Tracks p s')
    (hpresent : s'.store.present s.object.getUniqueName
      = Function.update (s.store.present s.object.getUniqueName) s.object.isMutating there) :
    Becomes p there s s' := by
  refine ⟨htracks, fun hs => ?_⟩
  rwa [eq_of_core hs.1 getUniqueName_core, eq_of_core hs.1 isMutating_core] at hpresent

theorem becomes_deleteWebhookConfiguration
    (h : deleteWebhookConfiguration s.object s = (.ok u, s')) :
    Becomes p false s s' := by
  obtain ⟨webhook, s₁, hget, h⟩ := bind_eq_ok.1 h
  obtain ⟨hwebhook, hstore, -⟩ := get_eq_ok (mapError_eq_ok.1 hget)
  have hcontinues : Continues p s s₁ := continues_get hget
  split at h
  · next live =>
    refine becomes_of_object (fun hs => tracks_put
      (policies_deleteWebhook _ _ _) h (hcontinues.tracks hs)) ?_
    rw [(put_eq_ok (mapError_eq_ok.1 h)).1, hstore]
    exact present_deleteWebhook_self _ hwebhook.symm
  · obtain ⟨-, rfl⟩ := pure_eq_ok.1 h
    refine becomes_of_object hcontinues.tracks ?_
    rw [hstore, Function.eq_update_iff]
    refine ⟨?_, fun _ _ => rfl⟩
    unfold present
    rw [← hwebhook]
    rfl

theorem becomes_reconcileWebhookConfiguration {secret : Secret} {policyServerName : String}
    (h : reconcileWebhookConfiguration r s.object secret policyServerName s = (.ok u, s')) :
    Becomes p true s s' := by
  obtain ⟨live, s₁, hget, h⟩ := bind_eq_ok.1 (mapError_eq_ok.1 h)
  obtain ⟨-, hstore, -⟩ := get_eq_ok (mapError_eq_ok.1 hget)
  have hcontinues : Continues p s s₁ := continues_get hget
  refine becomes_of_object (fun hs => tracks_put
    (policies_storeWebhook _ _ _) h (hcontinues.tracks hs)) ?_
  rw [(put_eq_ok (mapError_eq_ok.1 h)).1, hstore]
  exact present_storeWebhook _ _ _ _

theorem becomes_removePolicyWebhooksAndFinalizers
    (h : removePolicyWebhooksAndFinalizers r s = (.ok u, s')) :
    Becomes p false s s' := by
  replace h := object_bind h
  obtain ⟨_, s₂, hdelete, h⟩ := bind_eq_ok.1 h
  obtain ⟨_, s₃, hlegacy, h⟩ := bind_eq_ok.1 h
  obtain ⟨_, s₄, hfinalizer, h⟩ := bind_eq_ok.1 h
  obtain ⟨_, s₅, hold, h⟩ := bind_eq_ok.1 h
  refine (becomes_deleteWebhookConfiguration hdelete).trans_continues ?_
  refine (continues_legacyCleanup hlegacy).trans ?_
  refine (continues_modify (by simp) hfinalizer).trans ?_
  refine (continues_modify (by simp) hold).trans ?_
  split at h
  · exact continues_update h
  · obtain ⟨-, rfl⟩ := pure_eq_ok.1 h
    exact continues_of_eq rfl rfl

end

/-! ## The policy -/

def Unavailable (c : Cluster) (name : String) : Prop :=
  ∃ server, c.policyServer name = .ok server ∧ (server.filter fun server =>
        server.metadata.deletionTimestamp.isNone) = none

/-- **A policy must go**: deleted, not allowed, or without a policy server. -/
def MustGo (r : PolicySubReconciler) (c : Cluster) (p : Policy) : Prop :=
  p.isDeleted = true ∨ (isNamespacedPolicyAllowed p (allowedResources (c.configMaps.lookup
        (r.deploymentsNamespace, r.controllerConfigMapName)))).1 = false
    ∨ p.getPolicyServer ≠ "" ∧ Unavailable c p.getPolicyServer

/-- **How a policy that is not being deleted comes out of a reconcile.** -/
inductive Ended (r : PolicySubReconciler) (p : Policy) (s s' : State Cluster Policy) : Prop
  /-- The webhook configuration is removed. -/
  | removed (becomes : Becomes p false s s') (status : s'.object.getStatus.policyStatus ≠ .active)
  /-- Nothing is done, and an active policy stays active. -/
  | kept (continues : Continues p s s') (stays : ¬ MustGo r s.store p)
    (status : s'.object.getStatus.policyStatus = .active →
      s.object.getStatus.policyStatus = .active)
  /-- The webhook configuration is created. -/
  | activated (becomes : Becomes p true s s') (stays : ¬ MustGo r s.store p)

section

variable {r : PolicySubReconciler} {p : Policy}
  {s s₁ s' : State Cluster Policy} {u : Unit} {result : Result}

theorem setStatus_eq_ok {status : PolicyStatusEnum} (h : setStatus status s = (.ok u, s')) :
    Continues p s s' ∧ s'.object.getStatus.policyStatus = status := by
  refine ⟨continues_modify (by simp) h, ?_⟩
  rw [modify_eq_ok h, getStatus_withStatus]

theorem setCondition_eq_ok {c : Condition} (h : setCondition c s = (.ok u, s')) :
    s'.store = s.store ∧ Continues p s s' ∧ s'.object.getStatus.policyStatus
      = s.object.getStatus.policyStatus := by
  refine ⟨by rw [modify_eq_ok h], continues_modify (by simp) h, ?_⟩
  rw [modify_eq_ok h, getStatus_withStatus]

theorem loadControllerConfig_eq_ok {π : Type} {s s' : State Cluster π} {inNamespace name : String}
    {allowed : NamespacedPoliciesAllowedResources}
    (h : loadControllerConfig inNamespace name s = (.ok allowed, s')) :
    allowed = allowedResources (s.store.configMaps.lookup (inNamespace, name))
      ∧ s'.store = s.store ∧ s'.object = s.object := by
  obtain ⟨configMap, s₁, hget, h⟩ := bind_eq_ok.1 h
  obtain ⟨rfl, hstore, hobject⟩ := get_eq_ok (mapError_eq_ok.1 hget)
  obtain ⟨rfl, rfl⟩ := pure_eq_ok.1 h
  exact ⟨rfl, hstore, hobject⟩

theorem reconcileNamespacedPolicyAllowList_eq_ok {rejected : Bool}
    (h : reconcileNamespacedPolicyAllowList r s = (.ok rejected, s')) :
    (rejected = true ∧ Becomes p false s s' ∧ s'.object.getStatus.policyStatus = .rejected
      ∧ isStatusConditionTrue s'.object.getStatus.conditions .policyActive = false)
      ∨ rejected = false ∧ s'.store = s.store ∧ s'.object = s.object
        ∧ (isNamespacedPolicyAllowed s.object (allowedResources (s.store.configMaps.lookup
              (r.deploymentsNamespace, r.controllerConfigMapName)))).1
          = true := by
  replace h := object_bind h
  split at h
  · next hnamespace =>
    obtain ⟨rfl, rfl⟩ := pure_eq_ok.1 h
    refine .inr ⟨rfl, rfl, rfl, ?_⟩
    unfold isNamespacedPolicyAllowed
    rw [if_pos hnamespace]
  · obtain ⟨allowed, s₂, hload, h⟩ := bind_eq_ok.1 h
    obtain ⟨rfl, hstore, hsame⟩ := loadControllerConfig_eq_ok hload
    dsimp only at h
    split at h
    · next hallowed =>
      obtain ⟨rfl, rfl⟩ := pure_eq_ok.1 h
      exact .inr ⟨rfl, hstore, hsame, hallowed⟩
    · obtain ⟨_, s₃, hremove, h⟩ := bind_eq_ok.1 h
      obtain ⟨_, s₄, hstatus, h⟩ := bind_eq_ok.1 h
      obtain ⟨_, s₅, hcondition, h⟩ := bind_eq_ok.1 h
      obtain ⟨rfl, rfl⟩ := pure_eq_ok.1 h
      obtain ⟨hset, hrejected⟩ := setStatus_eq_ok (p := p) hstatus
      obtain ⟨-, hcond, hkeep⟩ := setCondition_eq_ok (p := p) hcondition
      refine .inl ⟨rfl, ?_, hkeep.trans hrejected, ?_⟩
      · refine (continues_of_eq hstore hsame).trans_becomes ?_
        refine (becomes_removePolicyWebhooksAndFinalizers hremove).trans_continues ?_
        exact hset.trans hcond
      · rw [modify_eq_ok hcondition, getStatus_withStatus, isStatusConditionTrue_set]
        rfl

theorem reconcilePolicyServerUnavailable_eq_ok
    (h : reconcilePolicyServerUnavailable r s = (.ok result, s')) :
    Becomes p false s s' ∧ s'.object.getStatus.policyStatus = .scheduled := by
  obtain ⟨_, s₁, hremove, h⟩ := bind_eq_ok.1 h
  obtain ⟨_, s₂, hstatus, h⟩ := bind_eq_ok.1 h
  obtain ⟨-, rfl⟩ := pure_eq_ok.1 h
  obtain ⟨hset, hscheduled⟩ := setStatus_eq_ok (p := p) hstatus
  exact ⟨(becomes_removePolicyWebhooksAndFinalizers hremove).trans_continues hset, hscheduled⟩

theorem continues_ensureFinalizer (h : ensureFinalizer r s = (.ok u, s')) : Continues p s s' := by
  replace h := object_bind h
  split at h
  · obtain ⟨_, s₂, hadd, hupdate⟩ := bind_eq_ok.1 h
    refine (continues_modify ?_ hadd).trans (continues_update hupdate)
    split
    · rfl
    · exact core_withFinalizers _
  · obtain ⟨-, rfl⟩ := pure_eq_ok.1 h
    exact continues_of_eq rfl rfl

theorem becomes_activatePolicy {secret : Secret} {server : PolicyServer}
    (h : activatePolicy r secret server s = (.ok result, s')) :
    Becomes p true s s' := by
  obtain ⟨_, s₁, hfinalizer, h⟩ := bind_eq_ok.1 h
  replace h := object_bind h
  obtain ⟨_, s₃, hwebhook, h⟩ := bind_eq_ok.1 h
  obtain ⟨_, s₄, hlegacy, h⟩ := bind_eq_ok.1 h
  obtain ⟨_, s₅, hactive, h⟩ := bind_eq_ok.1 h
  obtain ⟨-, rfl⟩ := pure_eq_ok.1 h
  obtain ⟨_, s₆, hstatus, hcondition⟩ := bind_eq_ok.1 hactive
  refine (continues_ensureFinalizer hfinalizer).trans_becomes ?_
  refine (becomes_reconcileWebhookConfiguration hwebhook).trans_continues ?_
  refine (continues_legacyCleanup (mapError_eq_ok.1 hlegacy)).trans ?_
  exact (setStatus_eq_ok hstatus).1.trans (setCondition_eq_ok hcondition).2.1

theorem setPending_eq_ok (h : setPending s = (.ok u, s')) : s'.store = s.store ∧ Continues p s s'
    ∧ (s'.object.getStatus.policyStatus = .active → s.object.getStatus.policyStatus = .active) := by
  replace h := object_bind h
  split at h
  · obtain ⟨hset, hpending⟩ := setStatus_eq_ok (p := p) h
    refine ⟨by rw [modify_eq_ok h], hset, fun hactive => ?_⟩
    rw [hpending] at hactive
    cases hactive
  · next hactive =>
    obtain ⟨-, rfl⟩ := pure_eq_ok.1 h
    exact ⟨rfl, continues_of_eq rfl rfl, id⟩

theorem keeps_isPolicyUniquelyReachable (deploymentName policyName : String)
    (deployment : Deployment) :
    (isPolicyUniquelyReachable r deploymentName deployment
      policyName).Keeps (fun s => (s.store, s.object)) := by
  refine (keeps_get _).attempt.bind fun configMap => ?_
  split
  · exact keeps_pure false
  · exact keeps_pure false
  · split
    · exact keeps_pure false
    · refine (keeps_get _).attempt.bind fun replicaSets => ?_
      split
      · exact keeps_pure false
      · dsimp only
        split
        · exact keeps_pure false
        · refine (keeps_get _).attempt.bind fun pods => ?_
          split
          · exact keeps_pure false
          · exact keeps_pure _

theorem ended_reconcileScheduledPolicy {server : PolicyServer} (hstays : ¬ MustGo r s.store p)
    (h : reconcileScheduledPolicy r server s = (.ok result, s')) :
    Ended r p s s' := by
  obtain ⟨_, s₁, hpending, h⟩ := bind_eq_ok.1 h
  obtain ⟨-, hcontinues, hactive⟩ := setPending_eq_ok (p := p) hpending
  replace h := object_bind h
  obtain ⟨deployment, s₃, hdeployment, h⟩ := bind_eq_ok.1 h
  have hcontinues := hcontinues.trans (continues_get hdeployment)
  obtain ⟨-, -, hsame⟩ := get_eq_ok (mapError_eq_ok.1 hdeployment)
  rw [← hsame] at hactive
  split at h
  · obtain ⟨-, rfl⟩ := pure_eq_ok.1 h
    exact .kept hcontinues hstays hactive
  · next deployment =>
    obtain ⟨secret, s₄, hsecret, h⟩ := bind_eq_ok.1 h
    have hcontinues := hcontinues.trans (continues_get hsecret)
    obtain ⟨-, -, hsame⟩ := get_eq_ok (mapError_eq_ok.1 hsecret)
    rw [← hsame] at hactive
    split at h
    · exact absurd h throw_ne_ok
    · next secret =>
      obtain ⟨reachable, s₅, hreachable, h⟩ := bind_eq_ok.1 h
      have hkeeps := (keeps_isPolicyUniquelyReachable _ _ deployment).eq hreachable
      rw [Prod.mk.injEq] at hkeeps
      have hcontinues := hcontinues.trans (continues_of_eq hkeeps.1 hkeeps.2)
      rw [← hkeeps.2] at hactive
      split at h
      · obtain ⟨_, s₆, hcondition, h⟩ := bind_eq_ok.1 h
        obtain ⟨-, rfl⟩ := pure_eq_ok.1 h
        obtain ⟨-, hset, hstatus⟩ := setCondition_eq_ok (p := p) hcondition
        exact .kept (hcontinues.trans hset) hstays (hstatus ▸ hactive)
      · obtain ⟨_, s₆, hcondition, h⟩ := bind_eq_ok.1 h
        obtain ⟨-, hset, -⟩ := setCondition_eq_ok (p := p) hcondition
        exact .activated ((hcontinues.trans hset).trans_becomes (becomes_activatePolicy h)) hstays

theorem Continues.trans_ended (h : Continues p s s₁) (hstore : s₁.store = s.store)
    (hstatus : s₁.object.getStatus.policyStatus = s.object.getStatus.policyStatus)
    (h' : Ended r p s₁ s') :
    Ended r p s s' := by
  cases h' with
  | removed becomes status => exact .removed (h.trans_becomes becomes) status
  | kept continues stays status =>
    exact .kept (h.trans continues) (hstore ▸ stays) (hstatus ▸ status)
  | activated becomes stays => exact .activated (h.trans_becomes becomes) (hstore ▸ stays)

theorem getPolicyServer_eq_ok {q : Policy} {server : Option PolicyServer}
    (h : getPolicyServer q s = (.ok server, s')) :
    (∃ o, s.store.policyServer q.getPolicyServer = .ok o ∧ server = o.filter fun server =>
          server.metadata.deletionTimestamp.isNone)
      ∧ s'.store = s.store ∧ s'.object = s.object := by
  obtain ⟨o, s₁, hcall, h⟩ := bind_eq_ok.1 h
  obtain ⟨hcall, hobject⟩ := call_eq_ok (mapError_eq_ok.1 hcall)
  obtain ⟨o', ho', heq⟩ := Fallible.map_eq_ok.1 hcall
  rw [Prod.mk.injEq] at heq
  obtain ⟨rfl, rfl⟩ := pure_eq_ok.1 h
  exact ⟨⟨o', ho', by rw [heq.1]⟩, heq.2.symm, hobject⟩

theorem ended_reconcileAllowedPolicy (hobject : s.object.core = p.core)
    (hdeleted : p.isDeleted = false)
    (hallowed : (isNamespacedPolicyAllowed p (allowedResources
      (s.store.configMaps.lookup (r.deploymentsNamespace, r.controllerConfigMapName)))).1 = true)
    (h : reconcileAllowedPolicy r s = (.ok result, s')) :
    Ended r p s s' := by
  have hname : s.object.getPolicyServer = p.getPolicyServer :=
    eq_of_core hobject getPolicyServer_core
  replace h := object_bind h
  split at h
  · next hempty =>
    obtain ⟨_, s₂, hunscheduled, h⟩ := bind_eq_ok.1 h
    obtain ⟨-, rfl⟩ := pure_eq_ok.1 h
    obtain ⟨hset, hstatus⟩ := setStatus_eq_ok (p := p) hunscheduled
    refine .kept hset ?_ (by rw [hstatus]; simp)
    simp [MustGo, hdeleted, hallowed, ← hname, hempty]
  · next hne =>
    obtain ⟨server, s₂, hserver, h⟩ := bind_eq_ok.1 h
    obtain ⟨⟨o, ho, hfilter⟩, hstore, hsame⟩ := getPolicyServer_eq_ok hserver
    have hcontinues : Continues p s s₂ := continues_of_eq hstore hsame
    cases server with
    | none =>
      obtain ⟨hbecomes, hstatus⟩ := reconcilePolicyServerUnavailable_eq_ok (p := p) h
      exact .removed (hcontinues.trans_becomes hbecomes) (by rw [hstatus]; simp)
    | some server =>
      refine hcontinues.trans_ended hstore (by rw [hsame]) (ended_reconcileScheduledPolicy ?_ h)
      rw [hstore]
      rintro (hgo | hgo | ⟨-, o', ho', hnone⟩)
      · rw [hdeleted] at hgo
        cases hgo
      · rw [hallowed] at hgo
        cases hgo
      · rw [← hname, ho] at ho'
        cases ho'
        rw [← hfilter] at hnone
        cases hnone

theorem ended_reconcilePolicy (hobject : s.object.core = p.core) (hdeleted : p.isDeleted = false)
    (h : reconcilePolicy r s = (.ok result, s')) : Ended r p s s' := by
  obtain ⟨_, s₁, hcondition, h⟩ := bind_eq_ok.1 h
  obtain ⟨hstore, hset, hstatus⟩ := setCondition_eq_ok (p := p) hcondition
  have hcore : s₁.object.core = p.core := by
    rw [modify_eq_ok hcondition, core_withStatus]
    exact hobject
  obtain ⟨rejected, s₂, hallow, h⟩ := bind_eq_ok.1 h
  obtain ⟨rfl, hbecomes, hrejected, -⟩ | ⟨rfl, hstore', hobject', hallowed⟩ :=
    reconcileNamespacedPolicyAllowList_eq_ok (p := p) hallow
  · obtain ⟨-, rfl⟩ := pure_eq_ok.1 h
    exact .removed (hset.trans_becomes hbecomes) (by rw [hrejected]; simp)
  · rw [eq_of_core (f := fun q => isNamespacedPolicyAllowed q _) hcore
      (isNamespacedPolicyAllowed_core _)] at hallowed
    have hcontinues := hset.trans (continues_of_eq hstore' hobject')
    refine hcontinues.trans_ended (hstore'.trans hstore) (hobject' ▸ hstatus)
      (ended_reconcileAllowedPolicy (hobject' ▸ hcore) hdeleted ?_ h)
    rwa [hstore']

/-- The status and the conditions, but for the one about the configuration. -/
def SameReport (status status' : PolicyStatus) : Prop :=
  status'.policyStatus = status.policyStatus ∧ ∀ type ≠ .policyServerConfigurationUpToDate,
    isStatusConditionTrue status'.conditions type = isStatusConditionTrue status.conditions type

theorem setPolicyModeStatus_eq_ok (h : setPolicyModeStatus r s = (.ok u, s')) :
    s'.store = s.store ∧ s'.object.core = s.object.core
      ∧ SameReport s.object.getStatus s'.object.getStatus := by
  replace h := object_bind h
  obtain ⟨deployment, s₂, hdeployment, h⟩ := bind_eq_ok.1 h
  obtain ⟨-, hstore, hsame⟩ := get_eq_ok (mapError_eq_ok.1 hdeployment)
  split at h
  · obtain ⟨-, rfl⟩ := pure_eq_ok.1 h
    rw [hsame]
    exact ⟨hstore, rfl, rfl, fun _ _ => rfl⟩
  · obtain ⟨configMap, s₃, hconfigMap, h⟩ := bind_eq_ok.1 h
    obtain ⟨-, hstore', hsame'⟩ := get_eq_ok (mapError_eq_ok.1 hconfigMap)
    split at h
    · exact absurd h throw_ne_ok
    · obtain ⟨_, s₄, hmode, h⟩ := bind_eq_ok.1 h
      rw [modify_eq_ok h, modify_eq_ok hmode]
      refine ⟨hstore'.trans hstore, by simp [hsame', hsame], by simp [hsame', hsame],
        fun type h => ?_⟩
      rw [getStatus_withStatus, isStatusConditionTrue_set, getStatus_withStatus,
        hsame', hsame, if_neg]
      unfold policyConfigurationCondition
      split
      · split <;> exact h.symm
      · exact h.symm

theorem storeStatus_eq_ok (h : storeStatus r s = (.ok u, s')) :
    (∃ stored status, s.store.policy s.object.identity = some stored
      ∧ SameReport s.object.getStatus status
      ∧ s'.store.policy s.object.identity = some (stored.withStatus status))
      ∧ ∀ name, s'.store.present name = s.store.present name := by
  obtain ⟨_, s₁, hmode, h⟩ := bind_eq_ok.1 h
  obtain ⟨hstore, hcore, hstatus⟩ := setPolicyModeStatus_eq_ok (mapError_eq_ok.1 hmode)
  replace h := object_bind h
  obtain ⟨_, s₃, hupdate, h⟩ := bind_eq_ok.1 h
  obtain ⟨hcall, -⟩ := call_eq_ok (mapError_eq_ok.1 hupdate)
  obtain ⟨hput, -⟩ := put_eq_ok (mapError_eq_ok.1 h)
  have hid : s₁.object.identity = s.object.identity := eq_of_core hcore identity_core
  unfold updatePolicyStatus at hcall
  split at hcall
  · cases hcall
  · next stored hstored =>
    rw [Except.ok.injEq, Prod.mk.injEq] at hcall
    obtain ⟨-, hcall⟩ := hcall
    have hreplaced : s'.store = s₁.store.replacePolicy s₁.object.identity
        (some (stored.withStatus s₁.object.getStatus)) :=
      hput.trans hcall.symm
    rw [hid, hstore] at hstored
    have hidentity : (stored.withStatus s₁.object.getStatus).identity = s.object.identity := by
      rw [← identity_of_policy hstored]
      simp [identity, getNamespace, getName]
    refine ⟨⟨stored, s₁.object.getStatus, hstored, hstatus, ?_⟩,
      fun name => by rw [hreplaced, hstore]; rfl⟩
    rw [hreplaced, hstore, hid, policy_replacePolicy_some hstored hidentity]

end

end Controller
