import AdmController.Cluster
import AdmController.PolicyIdentities

/-!
# The reconciler of policies

The four controllers of policies share one reconciler. It checks the allow list
and the policy server, waits until the policy is served, and creates the
webhook configuration, or removes it (`removePolicyWebhooksAndFinalizers`).
-/

namespace Controller

open Cluster

open Serde PoliciesV1 Remote

/-! ## The controller -/

/-- **The reconciler of policies.** -/
structure PolicySubReconciler where
  (deploymentsNamespace controllerConfigMapName : String)
  featureGateAdmissionWebhookMatchConditions : Bool
  /-- The status in memory after a reply was decoded. -/
  decodeStatus : PolicyStatus → PolicyStatus → PolicyStatus

structure Result where
  requeue : Bool
  requeueAfter : ℕ
deriving DecidableEq

def Result.done : Result := ⟨false, 0⟩

def timeToRequeuePolicyReconciliation : ℕ := 2

abbrev Work (π α : Type) := Prog (Remote.State Cluster π) String α

def describe (what : String) (fault : Fault) : String := what ++ fault.msg

def policyServerDeploymentName (policyServerName : String) : String :=
  "policy-server-" ++ policyServerName

def policyServerLabelKey : String := "kubewarden/policy-server"

def policyServerDeploymentConfigVersionAnnotation : String := "kubewarden/config-version"

def allowedResources (configMap : Option ConfigMap) : NamespacedPoliciesAllowedResources :=
  match configMap with
  | none => []
  | some configMap =>
    match configMap.data.lookup "config.yaml" with
    | none => []
    | some data => parseControllerConfig data

def loadControllerConfig {π : Type} (inNamespace name : String) :
    Work π NamespacedPoliciesAllowedResources := do
  let configMap ← (get fun c =>
    c.configMaps.lookup (inNamespace, name)).mapError
      (describe ("cannot read the controller configuration ConfigMap "
        ++ inNamespace ++ "/" ++ name ++ ": "))
  return allowedResources configMap

/-! ## The policy in memory -/

def setStatus (status : PolicyStatusEnum) : Work Policy Unit :=
  modify fun p => p.withStatus { p.getStatus with policyStatus := status }

def setCondition (c : Condition) : Work Policy Unit :=
  modify fun p => p.withStatus { p.getStatus with
    conditions := setStatusCondition p.getStatus.conditions c }

def setPolicyAsActive : Work Policy Unit := do
  setStatus .active
  setCondition ⟨.policyActive, true, "PolicyActive", "The policy webhook has been created"⟩

def containsFinalizer (p : Policy) (finalizer : String) : Bool :=
  p.getObjectMeta.finalizers.contains finalizer

def addFinalizer (finalizer : String) : Work Policy Unit :=
  modify fun p =>
    if containsFinalizer p finalizer then p
    else p.withFinalizers (p.getObjectMeta.finalizers ++ [finalizer])

def removeFinalizer (finalizer : String) : Work Policy Unit :=
  modify fun p => p.withFinalizers (p.getObjectMeta.finalizers.filter (· ≠ finalizer))

variable (r : PolicySubReconciler)

def update (what : String) : Work Policy Unit := do
  let policy ← object
  let stored ← (call (updatePolicy policy)).mapError (describe what)
  modify fun p => p.withStatus (r.decodeStatus p.getStatus stored)

/-! ## Webhook configurations -/

def partOfLabelKey : String := "app.kubernetes.io/part-of"

def hasKubewardenLabel (labels : HashMap String String) : Bool :=
  labels.lookup "kubewarden" = some "true"
    || labels.lookup partOfLabelKey = some "kubewarden"

variable (mutating : Bool)

def webhookKind : String := if mutating then "mutating" else "validating"

def caBundleForWebhook (liveCABundle : List UInt8) (caRootSecret : Secret) : List UInt8 :=
  if liveCABundle.length > 0 then liveCABundle
  else (caRootSecret.data.lookup "ca.crt").getD []
    ++ (caRootSecret.data.lookup "old-ca.crt").getD []

variable (policy : Policy)

def namespaceSelector : Option LabelSelector :=
  match policy.kind with
  | .clusterAdmissionPolicyGroup | .clusterAdmissionPolicy =>
    if policy.getAllowInsideAdmissionControllerNamespace then policy.getNamespaceSelector
    else
      let selector := policy.getNamespaceSelector.getD ⟨none, none⟩
      let excludeControllerNamespace : LabelSelectorRequirement :=
        ⟨Policy.namespaceNameLabel, "NotIn", some [r.deploymentsNamespace]⟩
      some ⟨selector.matchLabels, some (excludeControllerNamespace
        :: selector.matchExpressions.getD [])⟩
  | .admissionPolicy | .admissionPolicyGroup => policy.getNamespaceSelector

def webhookConfiguration (admissionSecret : Secret) (policyServerNameWithPrefix : String)
    (live : Option WebhookConfiguration) : WebhookConfiguration where
  uid := 0
  labels := AList.singleton partOfLabelKey "kubewarden"
  annotations := (∅ : HashMap String String).insertAll [⟨"kubewardenPolicyName", policy.getName⟩,
    ⟨"kubewardenPolicyNamespace", policy.getNamespace⟩]
  webhooks :=
    let liveCABundle := match live with
      | some ⟨_, _, _, webhook :: _⟩ => webhook.clientConfig.caBundle
      | _ => []
    [{ name := policy.getUniqueName ++ ".kubewarden.admission"
       clientConfig :=
        { service :=
          { inNamespace := r.deploymentsNamespace
            name := policyServerNameWithPrefix
            path := "/validate/" ++ policy.getUniqueName
            port := 443 }
          caBundle := caBundleForWebhook liveCABundle admissionSecret }
       rules := policy.getRules
       failurePolicy := policy.getFailurePolicy
       matchPolicy := policy.getMatchPolicy
       namespaceSelector := namespaceSelector r policy
       objectSelector := policy.getObjectSelector
       sideEffects := some (policy.getSideEffects.getD "None")
       timeoutSeconds := policy.getTimeoutSeconds
       admissionReviewVersions := ["v1"]
       matchConditions :=
        if r.featureGateAdmissionWebhookMatchConditions then policy.getMatchConditions
        else [] }]

def reconcileWebhookConfigurationOf (policy : Policy)
    (secret : Secret) (policyServerName : String) : Work Policy Unit := do
  let what := "cannot reconcile " ++ webhookKind mutating ++ " webhook: "
  let live ← (get fun c =>
    c.hooks policy.getUniqueName mutating).mapError (describe what)
  (put (storeWebhook mutating policy.getUniqueName
    (webhookConfiguration r policy secret policyServerName live))).mapError (describe what)

def reconcileWebhookConfiguration (secret : Secret)
    (policyServerName : String) : Work Policy Unit :=
  (reconcileWebhookConfigurationOf r policy.isMutating policy secret policyServerName).mapError
    (("error reconciling " ++ webhookKind policy.isMutating ++ " webhook\n") ++ ·)

def deleteWebhook (what name : String) (uid : ℕ) : Work Policy Unit :=
  (put (Cluster.deleteWebhook mutating name uid)).mapError (describe what)

def reconcileWebhookConfigurationDeletionOf (policy : Policy) : Work Policy Unit := do
  let webhook ← (get fun c =>
    c.hooks policy.getUniqueName mutating).mapError
      (describe ("cannot retrieve " ++ webhookKind mutating ++ " webhook: "))
  match webhook with
  | some webhook =>
    deleteWebhook mutating ("cannot delete " ++ webhookKind mutating ++ " webhook: ")
      policy.getUniqueName webhook.uid
  | none => pure ()

def deleteWebhookConfiguration : Work Policy Unit :=
  reconcileWebhookConfigurationDeletionOf policy.isMutating policy

def legacyCleanupOf (policy : Policy) :
    Work Policy Unit := do
  let webhook ← (get fun c =>
    c.hooks policy.legacyPolicyUniqueName mutating).mapError
      (describe ("cannot retrieve legacy " ++ webhookKind mutating ++ " webhook: "))
  match webhook with
  | some webhook =>
    if hasKubewardenLabel webhook.labels then
      deleteWebhook mutating ("cannot delete legacy " ++ webhookKind mutating ++ " webhook: ")
        policy.legacyPolicyUniqueName webhook.uid
    else pure ()
  | none => pure ()

def reconcileLegacyWebhookConfigurationCleanup :
    Work Policy Unit := do
  legacyCleanupOf false policy
  legacyCleanupOf true policy

def removePolicyWebhooksAndFinalizers : Work Policy Unit := do
  let policy ← object
  deleteWebhookConfiguration policy
  reconcileLegacyWebhookConfigurationCleanup policy
  let finalizerRemoved := containsFinalizer policy kubewardenFinalizer
    || containsFinalizer policy kubewardenFinalizerPre114
  removeFinalizer kubewardenFinalizer
  removeFinalizer kubewardenFinalizerPre114
  if finalizerRemoved then update r "cannot update policy: "

/-! ## The policy server -/

def getPolicyServer : Work Policy (Option PolicyServer) := do
  let policyServer ← (call fun c =>
    (c.policyServer policy.getPolicyServer).map fun server =>
      (server, c)).mapError (describe "could not get policy server\n")
  return policyServer.filter fun server =>
    server.metadata.deletionTimestamp.isNone

def isLatestReplicaSetFromPolicyServerDeployment (replicaSet : ReplicaSet)
    (deployment : Deployment) (configMapVersion : String) : Bool :=
  let revision := "deployment.kubernetes.io/revision"
  (replicaSet.annotations.lookup revision).getD ""
    = (deployment.annotations.lookup revision).getD ""
    && (replicaSet.annotations.lookup policyServerDeploymentConfigVersionAnnotation).getD ""
        = configMapVersion

def isPodReady (pod : Pod) : Bool :=
  match pod.conditions.find? fun c => c.1 = "Ready" with
  | some condition => condition.2 = "True"
  | none => false

def belongsTo (inNamespace : String) (deployment : Deployment)
    (objectNamespace : String) (labels : HashMap String String) : Bool :=
  objectNamespace = inNamespace && labels.lookup policyServerLabelKey
    = some ((deployment.labels.lookup policyServerLabelKey).getD "")

/-- **Whether all pods serve the policy.** A call that fails is a no. -/
def isPolicyUniquelyReachable (deploymentName : String)
    (deployment : Deployment) (policyName : String) : Work Policy Bool := do
  let hashKey := "pod-template-hash"
  match ← (get fun c => c.configMaps.lookup (r.deploymentsNamespace, deploymentName)).attempt with
  | .error _ | .ok none => return false
  | .ok (some configMap) =>
    if isPolicyInConfigMap configMap.data policyName = false then
      return false
    match ← (get fun c => c.replicaSets.filter fun s =>
        belongsTo r.deploymentsNamespace deployment s.inNamespace s.labels).attempt with
    | .error _ => return false
    | .ok replicaSets =>
      let latest := replicaSets.find? fun s =>
        isLatestReplicaSetFromPolicyServerDeployment s deployment configMap.resourceVersion
      let podTemplateHash := (latest.bind fun s => s.labels.lookup hashKey).getD ""
      if podTemplateHash = "" then return false
      match ← (get fun c => c.pods.filter fun p =>
          belongsTo r.deploymentsNamespace deployment p.inNamespace p.labels).attempt with
      | .error _ => return false
      | .ok pods =>
        return pods.length ≠ 0 && pods.all fun pod =>
          (pod.labels.lookup hashKey).getD "" = podTemplateHash && isPodReady pod

/-! ## The reconciler -/

def reconcileNamespacedPolicyAllowList : Work Policy Bool := do
  let policy ← object
  if policy.getNamespace = "" then return false
  let allowed ← loadControllerConfig r.deploymentsNamespace r.controllerConfigMapName
  let (isAllowed, disallowed) := isNamespacedPolicyAllowed policy allowed
  if isAllowed then return false
  removePolicyWebhooksAndFinalizers r
  setStatus .rejected
  setCondition ⟨.policyActive, false, "ResourcesNotAllowed",
    namespacedPolicyRejectedMessage disallowed allowed r.controllerConfigMapName⟩
  return true

def reconcilePolicyServerUnavailable : Work Policy Result := do
  removePolicyWebhooksAndFinalizers r
  setStatus .scheduled
  return .done

def ensureFinalizer : Work Policy Unit := do
  let policy ← object
  if containsFinalizer policy kubewardenFinalizer = false then
    addFinalizer kubewardenFinalizer
    update r "cannot add finalizer to policy: "

def activatePolicy (secret : Secret) (policyServer : PolicyServer) :
    Work Policy Result := do
  ensureFinalizer r
  let policy ← object
  reconcileWebhookConfiguration r policy secret policyServer.nameWithPrefix
  (reconcileLegacyWebhookConfigurationCleanup policy).mapError
    ("error cleaning up legacy webhook configurations\n" ++ ·)
  setPolicyAsActive
  return .done

def setPending : Work Policy Unit := do
  let policy ← object
  if policy.getStatus.policyStatus ≠ .active then
    setStatus .pending

def reconcileScheduledPolicy (policyServer : PolicyServer) :
    Work Policy Result := do
  setPending
  let policy ← object
  let deploymentName := policyServerDeploymentName policy.getPolicyServer
  let deployment ← (get fun c => c.deployments.lookup
    (r.deploymentsNamespace, deploymentName)).mapError
      (describe "could not read policy server Deployment\n")
  match deployment with
  | none => return ⟨true, 0⟩
  | some deployment =>
    let secret ← (get fun c => c.secrets.lookup (r.deploymentsNamespace, "kubewarden-ca")).mapError
        (describe "cannot find policy server secret\n")
    match secret with
    | none => Prog.throw (describe "cannot find policy server secret\n" (notFound "kubewarden-ca"))
    | some secret =>
      let reachable ← isPolicyUniquelyReachable r deploymentName deployment policy.getUniqueName
      if reachable = false then
        setCondition ⟨.policyUniquelyReachable, false, "LatestReplicaSetIsNotUniquelyReachable",
          "The latest replica set is not uniquely reachable"⟩
        return ⟨true, timeToRequeuePolicyReconciliation⟩
      setCondition ⟨.policyUniquelyReachable, true, "LatestReplicaSetIsUniquelyReachable",
        "The latest replica set is uniquely reachable"⟩
      activatePolicy r secret policyServer

def reconcileAllowedPolicy : Work Policy Result := do
  let policy ← object
  if policy.getPolicyServer = "" then
    setStatus .unscheduled
    return .done
  match ← getPolicyServer policy with
  | none => reconcilePolicyServerUnavailable r
  | some policyServer => reconcileScheduledPolicy r policyServer

def reconcilePolicy : Work Policy Result := do
  setCondition ⟨.policyActive, false, "PolicyActive", "The policy webhook has not been created"⟩
  let rejected ← reconcileNamespacedPolicyAllowList r
  if rejected then return .done
  reconcileAllowedPolicy r

def policyModeStatus (entry : Option PolicyServerConfigEntry) : PolicyModeStatus :=
  match entry with
  | none => .unknown
  | some entry =>
    if entry.policyMode = PoliciesV1.PolicyMode.protect.text then .mode .protect
    else if entry.policyMode = PoliciesV1.PolicyMode.monitor.text then .mode .monitor
    else .unknown

def policyConfigurationCondition (deploymentName : String)
    (configMap : ConfigMap) (deployment : Deployment) : Condition :=
  match deployment.annotations.lookup policyServerDeploymentConfigVersionAnnotation with
  | some version =>
    if version = configMap.resourceVersion then
      ⟨.policyServerConfigurationUpToDate, true, "ConfigurationVersionMatch",
        "Configuration for this policy is up to date"⟩
    else
      ⟨.policyServerConfigurationUpToDate, false, "ConfigurationVersionMismatch",
        "Configuration for this policy is not up to date"⟩
  | none =>
    ⟨.policyServerConfigurationUpToDate, false, "UnknownConfigurationVersion",
      "Configuration version annotation (" ++ policyServerDeploymentConfigVersionAnnotation
        ++ ") in deployment " ++ deploymentName ++ " is missing"⟩

def setPolicyModeStatus : Work Policy Unit := do
  let policy ← object
  let deploymentName := policyServerDeploymentName policy.getPolicyServer
  let deployment ← (get fun c => c.deployments.lookup
    (r.deploymentsNamespace, deploymentName)).mapError
      (describe "could not get policy server deployment\n")
  match deployment with
  | none => return ()
  | some deployment =>
    let configMap ← (get fun c => c.configMaps.lookup
      (r.deploymentsNamespace, deploymentName)).mapError (describe "could not get configmap\n")
    match configMap with
    | none => Prog.throw (describe "could not get configmap\n" (notFound deploymentName))
    | some configMap =>
      let mode := match getPolicyMapFromConfigMap configMap.data with
        | .ok policies => policyModeStatus (policies.lookup policy.getUniqueName)
        | .error _ => .unknown
      modify fun p => p.withStatus { p.getStatus with
        policyMode := some mode }
      setCondition (policyConfigurationCondition deploymentName configMap deployment)

def storeStatus : Work Policy Unit := do
  setPolicyModeStatus r |>.mapError ("error setting policy status: " ++ ·)
  let policy ← object
  (call (updatePolicyStatus policy)).mapError (describe "update admission policy status error: ")
  -- the count of policies is a metric, recorded elsewhere
  (put id).mapError (describe "failed to record policy mestrics: ")

def reconcile : Work Policy Result := do
  let policy ← object
  if policy.isDeleted then
    removePolicyWebhooksAndFinalizers r
    return .done
  let result ← (reconcilePolicy r).attempt
  storeStatus r
  Prog.ofExcept result

def reconcileRequest (id : Kind × String × String) (faults : List (Option String)) (c : Cluster) :
    Outcome String Result × Cluster :=
  match faults with
  | some msg :: _ => (.error ("failed to get admission policy: " ++ msg), c)
  | faults =>
    match c.policy id with
    | none => (.ok .done, c)
    | some policy =>
      let (outcome, s) := reconcile r ⟨c, faults.tail, policy⟩
      (outcome, s.store)

end Controller
