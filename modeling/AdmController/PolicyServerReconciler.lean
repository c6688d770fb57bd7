import AdmController.PolicyReconciler

/-!
# The reconciler of policy servers

The controller of policy servers adds its finalizer and writes the
configuration of the bound policies. When a policy server is deleted, it waits
until no webhook configuration of them is left, and removes the finalizers.
-/

namespace Controller

open Prog

open Serde PoliciesV1 Remote

/-! ## The controller -/

/-- **The reconciler of policy servers.** -/
structure PolicyServerReconciler where
  (deploymentsNamespace controllerConfigMapName : String)
  /-- The order in which maps are iterated. -/
  order : MapOrder
  /-- A field that is absent from a reply keeps its value in memory. -/
  keepsAbsentFields : Bool

def configuration (s : Remote.State Cluster PolicyServer) :=
  (s.store.policyServers, s.store.policies, s.store.configMaps, s.object)

/-- **The reconcilers of the objects that back a policy server.** -/
structure BackingReconcilers where
  (certSecret podDisruptionBudget deployment service : PolicyServer → Work PolicyServer Unit)
  keeps_certSecret : ∀ server, (certSecret server).Keeps configuration
  keeps_podDisruptionBudget : ∀ server, (podDisruptionBudget server).Keeps configuration
  keeps_deployment : ∀ server, (deployment server).Keeps configuration
  keeps_service : ∀ server, (service server).Keeps configuration

def BackingReconcilers.settled : BackingReconcilers where
  certSecret _ := pure ()
  podDisruptionBudget _ := pure ()
  deployment _ := pure ()
  service _ := pure ()
  keeps_certSecret _ := keeps_pure ()
  keeps_podDisruptionBudget _ := keeps_pure ()
  keeps_deployment _ := keeps_pure ()
  keeps_service _ := keeps_pure ()

variable (r : PolicyServerReconciler) (backing : BackingReconcilers)

/-! ## The policy server in memory -/

def dropEmpty : Option (List String) → Option (List String)
  | some [] => none
  | o => o

variable (server : PolicyServer)

def decodeReply : PolicyServer :=
  if r.keepsAbsentFields then server
  else { server with spec := { server.spec with
    namespacedPoliciesCapabilities := dropEmpty server.spec.namespacedPoliciesCapabilities } }

def updateServer : Prog (Remote.State Cluster PolicyServer) Fault Unit := do
  let server ← object
  call (Cluster.updatePolicyServer server)
  modify (decodeReply r)

def ensureServerFinalizer : Work PolicyServer Unit := do
  let server ← object
  if server.metadata.finalizers.contains kubewardenFinalizer = false then
    modify fun server => server.withFinalizers (server.metadata.finalizers ++ [kubewardenFinalizer])
    (updateServer r).mapError (describe "cannot add finalizer to policy server: ")

/-! ## Conditions -/

def setServerCondition (conditions : List PolicyServerCondition)
    (c : PolicyServerCondition) : List PolicyServerCondition :=
  if conditions.any fun old => old.type = c.type then
    conditions.map fun old => if old.type = c.type then c else old
  else conditions ++ [c]

def trueCondition (type : PolicyServerConditionType) : PolicyServerCondition :=
  ⟨type, true, "ReconciliationSucceeded", ""⟩

def falseCondition (type : PolicyServerConditionType) (message : String) : PolicyServerCondition :=
  ⟨type, false, "ReconciliationFailed", message⟩

def Cluster.conditionsOf (c : Cluster) (name : String) : List PolicyServerCondition :=
  (c.policyServerConditions.lookup name).getD []

def readConditions : Work PolicyServer (List PolicyServerCondition) :=
  ask fun s => (s.store.conditionsOf s.object.metadata.name, s)

def Cluster.setConditions (c : Cluster) (name : String)
    (conditions : List PolicyServerCondition) : Cluster :=
  let updated := conditions.foldl setServerCondition (c.conditionsOf name)
  { c with
    policyServerConditions := c.policyServerConditions.insert name updated }

def storeConditions (what : String)
    (conditions : List PolicyServerCondition) : Work PolicyServer Unit := do
  let server ← object
  (put fun c => c.setConditions server.metadata.name conditions).mapError (describe what)

/-! ## Policies -/

def listedKinds : List (Kind × String) :=
  [(.clusterAdmissionPolicy, "ClusterAdmissionPolicies"), (.admissionPolicy, "AdmissionPolicies"),
    (.admissionPolicyGroup, "AdmissionPolicyGroups"),
    (.clusterAdmissionPolicyGroup, "ClusterAdmissionPolicyGroups")]

def Cluster.boundPolicies (c : Cluster) (policyServer : String) : List Policy :=
  listedKinds.flatMap fun kind => c.policiesOf kind.1 policyServer

def getPolicies : Work PolicyServer (List Policy) :=
  listedKinds.foldlM (fun policies kind => do
    let listed ← (get fun c =>
      c.policiesOf kind.1 server.metadata.name).mapError
        (describe ("failed obtaining " ++ kind.2 ++ ": "))
    return policies ++ listed) []

variable (policies : List Policy)

def filterRejectedNamespacedPolicies : Work PolicyServer (List Policy) := do
  if policies.any fun policy => policy.getNamespace ≠ "" then
    let allowed ← loadControllerConfig r.deploymentsNamespace r.controllerConfigMapName
    return policies.filter fun policy =>
      (isNamespacedPolicyAllowed policy allowed).1
  return policies

/-! ## The configuration -/

def commonLabels : List (Σ _ : String, String) :=
  [⟨"app.kubernetes.io/component", "policy-server"⟩,
    ⟨"app.kubernetes.io/instance", server.nameWithPrefix⟩,
    ⟨partOfLabelKey, "kubewarden"⟩,
    ⟨"app.kubernetes.io/managed-by", "kubewarden-controller"⟩]

def reconcilePolicyServerConfigMap : Work PolicyServer Unit :=
  (put fun c => { c with
    configMaps := c.configMaps.insert (r.deploymentsNamespace, server.nameWithPrefix)
      { resourceVersion := toString c.next
        labels := (∅ : HashMap String String).insertAll
          (⟨policyServerLabelKey, server.metadata.name⟩ :: commonLabels server)
        data := updateConfigMapData r.order server policies }
    next := c.next + 1 }).mapError (describe "cannot create or update PolicyServer ConfigMap: ")

/-! ## Deletion -/

def webhookExists (mutating : Bool) (name : String) : Work PolicyServer Bool :=
  let kind := if mutating then "MutatingWebhookConfiguration"
    else "ValidatingWebhookConfiguration"
  (get fun c => c.present name mutating).mapError (describe
    ("cannot check " ++ kind ++ " \"" ++ name ++ "\": cannot get *v1." ++ kind
      ++ " \"" ++ name ++ "\": "))

def Cluster.remaining (c : Cluster) (policies : List Policy) : List String :=
  (policies.map Policy.getUniqueName).filter fun name =>
    c.present name false || c.present name true

def remainingPolicies : Work PolicyServer (List String) :=
  policies.foldlM (fun remaining policy => do
    let name := policy.getUniqueName
    if ← webhookExists false name then return remaining ++ [name]
    if ← webhookExists true name then return remaining ++ [name]
    return remaining) []

def removeFinalizers : Work PolicyServer Result := do
  modify fun server => server.withFinalizers
    ((server.metadata.finalizers.filter (· ≠ kubewardenFinalizerPre114)).filter
      (· ≠ kubewardenFinalizer))
  match ← (updateServer r).attempt with
  | .ok () => return .done
  | .error fault =>
    if fault.conflict then return .done
    else throw (describe "cannot update policy server: " fault)

/-- **A policy server that is being deleted** waits for the webhooks to go. -/
def reconcileDeletion : Work PolicyServer Result := do
  let server ← object
  let conditions ← readConditions
  if conditions.any fun c =>
      c.type = .policyWebhooksCleanedUp ∧ c.status = true then
    removeFinalizers r
  else
    let policies ← getPolicies server
    let remaining ← remainingPolicies policies
    if remaining.length > 0 then
      storeConditions "cannot update policy server status: "
        [falseCondition .policyWebhooksCleanedUp ("Waiting for webhook cleanup of policies: "
          ++ String.intercalate ", " remaining)]
      return ⟨false, timeToRequeuePolicyReconciliation⟩
    else
      storeConditions "cannot update policy server status: "
        [trueCondition .policyWebhooksCleanedUp]
      return ⟨true, 0⟩

/-! ## The reconciler -/

/-- **Reconcile a policy server.** -/
def reconcileServer : Work PolicyServer Result := do
  let server ← object
  if server.metadata.deletionTimestamp.isSome then reconcileDeletion r
  else
    ensureServerFinalizer r
    let server ← object
    backing.certSecret server
    let policies ← (getPolicies server).mapError ("could not get policies\n" ++ ·)
    let policies ← (filterRejectedNamespacedPolicies r policies).mapError
      ("could not filter rejected namespaced policies\n" ++ ·)
    reconcilePolicyServerConfigMap r server policies
    backing.podDisruptionBudget server
    backing.deployment server
    backing.service server
    storeConditions "update policy server status error: " [trueCondition .configMapReconciled,
      trueCondition .podDisruptionBudgetReconciled,
      trueCondition .deploymentReconciled,
      trueCondition .serviceReconciled]
    return .done

def reconcileServerRequest (name : String) (faults : List (Option String))
    (c : Cluster) : Outcome String Result × Cluster :=
  match faults with
  | some msg :: _ => (.error ("failed to get policy server: " ++ msg), c)
  | faults =>
    match c.policyServer name with
    | .error fault => (.error ("failed to get policy server: " ++ fault.msg), c)
    | .ok none => (.ok .done, c)
    | .ok (some server) =>
      let (outcome, s) := reconcileServer r backing ⟨c, faults.tail, server⟩
      (outcome, s.store)

end Controller
