import AdmController.WebhookLifecycle

/-!
# Whose webhook configurations a reconcile deletes

The reconciler deletes webhook configurations by name, and by a legacy name that
different policies may share.
-/

namespace PoliciesV1.Policy

@[simp] theorem legacyPolicyUniqueName_core (p : Policy) :
    p.core.legacyPolicyUniqueName = p.legacyPolicyUniqueName := by
  simp [core, withFinalizers, legacyPolicyUniqueName, getNamespace, getName]

theorem legacyPolicyUniqueName_of_identity {p q : Policy} (h : q.identity = p.identity) :
    q.legacyPolicyUniqueName = p.legacyPolicyUniqueName := by
  simp only [identity, Prod.mk.injEq] at h
  unfold legacyPolicyUniqueName
  rw [h.1, h.2.1, h.2.2]

end PoliciesV1.Policy

namespace Controller

open Prog PoliciesV1 Remote Policy Maintains Cluster AList

/-! ## What a reconcile leaves alone -/

/-- What holds still after webhook configurations of a policy are deleted. -/
def SurvivesDeletions (p : Policy) (J : Cluster → Policy → Prop) : Prop :=
  ∀ c o mutating name uid, name = p.getUniqueName ∨ name = p.legacyPolicyUniqueName → J c o →
    J (c.deleteWebhook mutating name uid) o

section

variable {p : Policy} {J : Cluster → Policy → Prop} (hJ : SurvivesDeletions p J)
include hJ

theorem maintains_deleteWebhook {mutating : Bool} {what name : String} {uid : ℕ}
    (hname : name = p.getUniqueName ∨ name = p.legacyPolicyUniqueName) :
    (deleteWebhook mutating what name uid).Maintains fun s => J s.store s.object := by
  refine mapError (maintains_call fun c o a c' hc h => ?_) _
  cases h
  exact hJ c o mutating name uid hname hc

theorem maintains_deleteWebhookConfiguration :
    (deleteWebhookConfiguration p).Maintains fun s => J s.store s.object := by
  refine ((maintains_get _).mapError _).bind fun webhook => ?_
  split
  · exact maintains_deleteWebhook hJ (.inl rfl)
  · exact maintains_pure ()

theorem maintains_legacyCleanup :
    (reconcileLegacyWebhookConfigurationCleanup p).Maintains fun s => J s.store s.object := by
  have hkind (mutating : Bool) :
      (legacyCleanupOf mutating p).Maintains fun s => J s.store s.object := by
    refine ((maintains_get _).mapError _).bind fun webhook => ?_
    split
    · split
      · exact maintains_deleteWebhook hJ (.inr rfl)
      · exact maintains_pure ()
    · exact maintains_pure ()
  exact (hkind false).bind fun _ => hkind true

end

theorem Cluster.present_storeWebhook_of_ne (c : Cluster) (mutating : Bool) {name n : String}
    (webhook : WebhookConfiguration) (h : n ≠ name) :
    (c.storeWebhook mutating name webhook).present n = c.present n := by
  funext m
  have hinsert (w : WebhookConfiguration) : (if m = mutating then
      (c.webhooks mutating).insert name w else c.webhooks m).lookup n
        = (c.webhooks m).lookup n := by
    by_cases hm : m = mutating
    · rw [if_pos hm, hm, lookup_insert_ne h]
    · rw [if_neg hm]
  unfold storeWebhook
  split
  · rw [present, hooks, webhooks_setWebhooks, hinsert]
    rfl
  · show (((c.setWebhooks _ _).webhooks m).lookup n).isSome = _
    rw [webhooks_setWebhooks, hinsert]
    rfl

/-- **The configurations under other names** are there as before. -/
def OthersStay (p : Policy) (c₀ c : Cluster) (o : Policy) : Prop :=
  o.core = p.core ∧ ∀ name, name ≠ p.getUniqueName → name ≠ p.legacyPolicyUniqueName →
    c.present name = c₀.present name

/-- The program leaves the configurations under other names alone. -/
abbrev Spares (p : Policy) (c₀ : Cluster) {α : Type} {ε : Type}
    (x : Prog (Remote.State Cluster Policy) ε α) : Prop :=
  x.Maintains fun s => OthersStay p c₀ s.store s.object

section

variable {r : PolicySubReconciler} {p q : Policy} {c₀ : Cluster} {what : String}

theorem spares_put {f : Cluster → Cluster} (hf : ∀ c n, n ≠ p.getUniqueName →
      n ≠ p.legacyPolicyUniqueName → (f c).present n = c.present n) :
    Spares p c₀ (put f) := by
  refine maintains_call fun c o a c' hc h => ⟨hc.1, fun n hn hl => ?_⟩
  cases h
  exact (hf c n hn hl).trans (hc.2 n hn hl)

theorem spares_modify {ε : Type} {f : Policy → Policy} (hf : ∀ o, (f o).core = o.core) :
    Spares p c₀ (modify f : Prog (Remote.State Cluster Policy) ε Unit) :=
  fun _ hs => ⟨(hf _).trans hs.1, hs.2⟩

theorem othersStay_deleteWebhook (hq : q.core = p.core) :
    SurvivesDeletions q (OthersStay p c₀) := by
  refine fun c o mutating name uid hname hc => ⟨hc.1, fun n hn hl => ?_⟩
  rw [eq_of_core hq getUniqueName_core, eq_of_core hq legacyPolicyUniqueName_core] at hname
  refine (present_deleteWebhook_of_ne c _ _ ?_).trans (hc.2 n hn hl)
  rintro rfl
  exact hname.elim hn hl

theorem spares_update : Spares p c₀ (update r what) := by
  refine maintains_object fun c o _ => (mapError (maintains_call
    fun c o a c' hc h => ?_) _).bind fun stored => spares_modify fun o => o.core_withStatus _
  unfold updatePolicy at h
  split at h
  · cases h
  · cases h
    exact hc

theorem spares_removePolicyWebhooksAndFinalizers :
    Spares p c₀ (removePolicyWebhooksAndFinalizers r) := by
  refine maintains_object fun c o ho => ?_
  refine (maintains_deleteWebhookConfiguration (othersStay_deleteWebhook ho.1)).bind fun _ => ?_
  refine (maintains_legacyCleanup (othersStay_deleteWebhook ho.1)).bind fun _ => ?_
  refine (spares_modify fun o => o.core_withFinalizers _).bind fun _ => ?_
  refine (spares_modify fun o => o.core_withFinalizers _).bind fun _ => ?_
  split
  · exact spares_update
  · exact maintains_pure ()

theorem spares_setStatus (status : PolicyStatusEnum) : Spares p c₀ (setStatus status) :=
  spares_modify fun o => o.core_withStatus _

theorem spares_setCondition (c : Condition) : Spares p c₀ (setCondition c) :=
  spares_modify fun o => o.core_withStatus _

theorem spares_allowList : Spares p c₀ (reconcileNamespacedPolicyAllowList r) := by
  refine maintains_object fun c o ho => ?_
  split
  · exact maintains_pure _
  · refine (((maintains_get _).mapError _).bind fun _ => maintains_pure _).bind fun allowed => ?_
    dsimp only
    split
    · exact maintains_pure _
    · refine spares_removePolicyWebhooksAndFinalizers.bind fun _ => ?_
      refine (spares_setStatus _).bind fun _ => ?_
      exact (spares_setCondition _).bind fun _ => maintains_pure _

theorem spares_activatePolicy (secret : Secret) (server : PolicyServer) :
    Spares p c₀ (activatePolicy r secret server) := by
  have hfinalizer : Spares p c₀ (ensureFinalizer r) := by
    refine maintains_object fun c o ho => ?_
    split
    · refine (spares_modify fun o => ?_).bind fun _ => spares_update
      split
      · rfl
      · exact o.core_withFinalizers _
    · exact maintains_pure _
  refine hfinalizer.bind fun _ => maintains_object fun c o ho => ?_
  have hname := eq_of_core ho.1 getUniqueName_core
  refine ((((maintains_get _).mapError _).bind fun live => (spares_put fun c n hn _ =>
    present_storeWebhook_of_ne c _ _ (hname ▸ hn)).mapError _).mapError _).bind fun _ => ?_
  refine ((maintains_legacyCleanup (othersStay_deleteWebhook ho.1)).mapError _).bind fun _ => ?_
  exact ((spares_setStatus _).bind fun _ => spares_setCondition _).bind fun _ => maintains_pure _

theorem spares_reconcileScheduledPolicy (server : PolicyServer) :
    Spares p c₀ (reconcileScheduledPolicy r server) := by
  refine (maintains_object fun c o ho => ?_).bind fun _ => maintains_object fun c o ho => ?_
  · split
    · exact spares_setStatus _
    · exact maintains_pure _
  refine ((maintains_get _).mapError _).bind fun deployment => ?_
  split
  · exact maintains_pure _
  · refine ((maintains_get _).mapError _).bind fun secret => ?_
    split
    · exact fun _ hs => hs
    · refine bind ((keeps_isPolicyUniquelyReachable _ _ _).maintains fun v =>
        OthersStay p c₀ v.1 v.2) fun reachable => ?_
      split
      · exact (spares_setCondition _).bind fun _ => maintains_pure _
      · exact (spares_setCondition _).bind fun _ => spares_activatePolicy _ _

theorem spares_reconcilePolicy : Spares p c₀ (reconcilePolicy r) := by
  refine (spares_setCondition _).bind fun _ => spares_allowList.bind fun rejected => ?_
  split
  · exact maintains_pure _
  refine maintains_object fun c o ho => ?_
  split
  · exact (spares_setStatus _).bind fun _ => maintains_pure _
  · refine bind ((mapError (maintains_call fun c o a c' hc h => ?_) _).bind
      fun _ => maintains_pure _) fun server => ?_
    · obtain ⟨o', -, heq⟩ := Fallible.map_eq_ok.1 h
      cases heq
      exact hc
    · split
      · exact spares_removePolicyWebhooksAndFinalizers.bind fun _ =>
          (spares_setStatus _).bind fun _ => maintains_pure _
      · exact spares_reconcileScheduledPolicy _

theorem spares_storeStatus : Spares p c₀ (storeStatus r) := by
  refine bind ((maintains_object fun c o ho => ?_).mapError _) fun _ =>
    maintains_object fun c o ho => ?_
  · refine ((maintains_get _).mapError _).bind fun deployment => ?_
    split
    · exact maintains_pure _
    · refine ((maintains_get _).mapError _).bind fun configMap => ?_
      split
      · exact fun _ hs => hs
      · exact (spares_modify fun o => o.core_withStatus _).bind fun _ => spares_setCondition _
  · refine bind (mapError (maintains_call fun c o a c' hc h => ?_) _)
      fun _ => (spares_put fun _ _ _ _ => rfl).mapError _
    unfold updatePolicyStatus at h
    split at h
    · cases h
    · cases h
      exact hc

theorem present_reconcileRequest {id : Kind × String × String} {faults : List (Option String)}
    (hp : p.identity = id) {name : String} (hname : name ≠ p.getUniqueName)
    (hlegacy : name ≠ p.legacyPolicyUniqueName) :
    (reconcileRequest r id faults c₀).2.present name = c₀.present name := by
  unfold reconcileRequest
  split
  · rfl
  · split
    · rfl
    · next stored hstored =>
      have hid : stored.identity = p.identity := (identity_of_policy hstored).trans hp.symm
      have hspares : Spares stored c₀ (reconcile r) := by
        refine maintains_object fun c o ho => ?_
        split
        · exact spares_removePolicyWebhooksAndFinalizers.bind fun _ => maintains_pure _
        · exact spares_reconcilePolicy.attempt.bind fun result =>
            spares_storeStatus.bind fun _ => maintains_ofExcept _
      refine (hspares ⟨c₀, _, stored⟩ ⟨rfl, fun _ _ _ => rfl⟩).2 name ?_ ?_
      · rwa [getUniqueName_of_identity hid]
      · rwa [legacyPolicyUniqueName_of_identity hid]

/-! ## The configurations of another policy -/

/-- **The annotations identify a policy.** -/
def Identifies (p : Policy) (webhook : WebhookConfiguration) : Prop :=
  webhook.annotations.lookup "kubewardenPolicyName" = some p.getName
    ∧ webhook.annotations.lookup "kubewardenPolicyNamespace" = some p.getNamespace

/-- **A configuration as it was written for a policy**, by this controller or by
one that used legacy names. -/
def WrittenFor (p : Policy) (name : String) (webhook : WebhookConfiguration) : Prop :=
  (name = p.getUniqueName ∨ name = p.legacyPolicyUniqueName) ∧ Identifies p webhook

/-- **No configuration of another policy is deleted**, in any cluster. -/
def SparesPolicy (r : PolicySubReconciler) (p q : Policy) : Prop :=
  ∀ (c : Cluster) (faults : List (Option String)) (name : String) (mutating : Bool)
    (webhook : WebhookConfiguration), c.hooks name mutating = some webhook →
    WrittenFor q name webhook → ¬ Identifies p webhook →
    (reconcileRequest r p.identity faults c).2.present name mutating = true

end

def legacyWebhook (p : Policy) : WebhookConfiguration where
  uid := 0
  labels := singleton partOfLabelKey "kubewarden"
  annotations := (∅ : HashMap String String).insertAll [⟨"kubewardenPolicyName", p.getName⟩,
    ⟨"kubewardenPolicyNamespace", p.getNamespace⟩]
  webhooks := []

def clusterWithLegacyWebhook (p q : Policy) : Cluster :=
  { empty with
    policies := [(p.withDeletionTimestamp "now").withFinalizers []]
    validating := singleton q.legacyPolicyUniqueName (legacyWebhook q) }

variable {p q : Policy}

theorem present_after_deletion (r : PolicySubReconciler)
    (h : p.legacyPolicyUniqueName = q.legacyPolicyUniqueName) :
    (reconcileRequest r p.identity [] (clusterWithLegacyWebhook p q)).2.present
      q.legacyPolicyUniqueName false = false := by
  let p' := (p.withDeletionTimestamp "now").withFinalizers []
  let c := clusterWithLegacyWebhook p q
  let c' := c.deleteWebhook false p'.legacyPolicyUniqueName (legacyWebhook q).uid
  have hid : p'.identity = p.identity := by
    simp [p', withDeletionTimestamp, withFinalizers, identity, getNamespace, getName]
  have hpolicy : c.policy p.identity = some p' := by
    simp [c, policy, clusterWithLegacyWebhook, hid, p']
  have hlegacy : c.hooks p'.legacyPolicyUniqueName false = some (legacyWebhook q) := by
    rw [legacyPolicyUniqueName_of_identity hid, h]
    exact List.dlookup_cons_eq _ _ _
  have hown : c.hooks p'.getUniqueName p'.isMutating = none := by
    cases p'.isMutating
    · exact lookup_eq_none.2 fun hmem => getUniqueName_ne_legacy p' q (List.mem_singleton.1 hmem)
    · rfl
  have hpresent := present_deleteWebhook_self c hlegacy
  have hother : c'.hooks p'.legacyPolicyUniqueName true = none :=
    Option.not_isSome_iff_eq_none.1 ((congrFun hpresent true).trans_ne Bool.false_ne_true)
  have hdelete : deleteWebhookConfiguration p' ⟨c, [], p'⟩ = (.ok (), ⟨c, [], p'⟩) :=
    bind_eq_ok.2 ⟨none, ⟨c, [], p'⟩, by rw [← hown]; rfl, rfl⟩
  have hclean : reconcileLegacyWebhookConfigurationCleanup p' ⟨c, [], p'⟩
      = (.ok (), ⟨c', [], p'⟩) :=
    bind_eq_ok.2 ⟨(), ⟨c', [], p'⟩, bind_eq_ok.2 ⟨some (legacyWebhook q), ⟨c, [], p'⟩,
      by rw [← hlegacy]; rfl, rfl⟩, bind_eq_ok.2 ⟨none, ⟨c', [], p'⟩, by rw [← hother]; rfl, rfl⟩⟩
  have hfinalizers (finalizer : String) : containsFinalizer p' finalizer = false := by
    simp [containsFinalizer, p', withFinalizers]
  have hremove : ∃ o, removePolicyWebhooksAndFinalizers r ⟨c, [], p'⟩ = (.ok (), ⟨c', [], o⟩) :=
    ⟨_, (bind_of_ok (x := object) rfl _).trans ((bind_of_ok hdelete _).trans
      ((bind_of_ok hclean _).trans (by rw [hfinalizers, hfinalizers]; rfl)))⟩
  obtain ⟨o, hremove⟩ := hremove
  have hreconcile : reconcile r ⟨c, [], p'⟩ = (.ok .done, ⟨c', [], o⟩) :=
    (bind_of_ok (x := object) rfl _).trans (by
      rw [if_pos (by simp [isDeleted, withDeletionTimestamp, withFinalizers, p'])]
      exact bind_of_ok hremove _)
  have hrun : (reconcileRequest r p.identity [] c).2 = c' := by
    unfold reconcileRequest
    rw [hpolicy]
    exact congrArg (·.2.store) hreconcile
  rw [hrun, ← h, ← legacyPolicyUniqueName_of_identity hid, hpresent]
  rfl

theorem identifies_legacyWebhook (p : Policy) : Identifies p (legacyWebhook p) := by
  refine ⟨?_, ?_⟩
  · simp only [legacyWebhook, insertAll, List.foldl_cons, List.foldl_nil]
    rw [lookup_insert_ne (by decide), lookup_insert]
  · simp only [legacyWebhook, insertAll, List.foldl_cons, List.foldl_nil, lookup_insert]

theorem identity_of_legacyPolicyUniqueName
    (hname : p.getName = q.getName) (hnamespace : p.getNamespace = q.getNamespace)
    (h : p.legacyPolicyUniqueName = q.legacyPolicyUniqueName) : p.identity = q.identity := by
  have hkind : p.kind = q.kind := by
    have hlength := congrArg String.length h
    have hhead := congrArg (·.toList.head?) h
    unfold legacyPolicyUniqueName at hlength hhead
    cases hp : p.kind <;> cases hq : q.kind <;> simp_all <;> exact absurd hlength (by decide)
  rw [identity, hkind, hname, hnamespace]
  rfl

theorem not_sparesPolicy (r : PolicySubReconciler) (hne : p.identity ≠ q.identity)
    (heq : p.legacyPolicyUniqueName = q.legacyPolicyUniqueName) : ¬ SparesPolicy r p q := by
  intro hspares
  obtain ⟨hname, hnamespace⟩ := identifies_legacyWebhook q
  have hpresent := hspares (clusterWithLegacyWebhook p q) [] q.legacyPolicyUniqueName false
    (legacyWebhook q) (List.dlookup_cons_eq _ _ _) ⟨.inr rfl, hname, hnamespace⟩ ?_
  · rw [present_after_deletion r heq] at hpresent
    cases hpresent
  · rintro ⟨hname', hnamespace'⟩
    refine hne (identity_of_legacyPolicyUniqueName ?_ ?_ heq)
    · exact Option.some.inj (hname'.symm.trans hname)
    · exact Option.some.inj (hnamespace'.symm.trans hnamespace)

/-- **A reconcile spares the configurations of another policy** exactly if the
legacy names of the two differ. -/
theorem foreign_webhooks_kept_iff (r : PolicySubReconciler) {p q : Policy}
    (hp : RustStr.contains p.getNamespace '.' = false)
    (hq : RustStr.contains q.getNamespace '.' = false) (hne : p.identity ≠ q.identity) :
    SparesPolicy r p q ↔ p.legacyPolicyUniqueName ≠ q.legacyPolicyUniqueName := by
  constructor
  · intro hspares heq
    exact not_sparesPolicy r hne heq hspares
  · rintro hlegacy c faults name mutating webhook hwebhook ⟨hname, -⟩ -
    have hunique : q.getUniqueName ≠ p.getUniqueName := fun h =>
      hne (Policy.getUniqueName_inj hp hq h.symm)
    have hkept : c.present name mutating = true := by
      rw [Cluster.present, hwebhook]
      rfl
    rw [present_reconcileRequest rfl (p := p), hkept]
    · rintro rfl
      exact hname.elim (fun h => hunique h.symm) (Policy.getUniqueName_ne_legacy p q)
    · rintro rfl
      exact hname.elim (fun h => Policy.getUniqueName_ne_legacy q p h.symm) hlegacy

theorem policies_of_one_namespace : SparesPolicy .standard
    (.created "a" "b" (.ofModule "m")) (.created "a" "c" (.ofModule "m")) :=
  (foreign_webhooks_kept_iff _ (by decide) (by decide) (by decide)).2 (by decide)

/-- **Two policies with one legacy name**, `namespaced-a-b-c`. -/
theorem webhook_of_other_policy_deleted : ¬ SparesPolicy .standard
    (.created "a-b" "c" (.ofModule "m")) (.created "a" "b-c" (.ofModule "m")) :=
  not_sparesPolicy _ (by decide) (by decide)

end Controller
