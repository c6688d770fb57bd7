import AdmController.AllowedResources
import AdmController.PolicyServerConfigMap
import AdmController.RemoteCalls

/-!
# The objects of the cluster

What the API server stores, as far as the controllers look at it. A policy
server is stored as the JSON document that was last sent, so that it is seen
what becomes of a field that is not written.
-/

namespace PoliciesV1

namespace Policy

/-! ## Changing a policy -/

def getStatus : Policy → PolicyStatus
  | .admissionPolicy p => p.status
  | .admissionPolicyGroup p => p.status
  | .clusterAdmissionPolicy p => p.status
  | .clusterAdmissionPolicyGroup p => p.status

def withStatus (status : PolicyStatus) : Policy → Policy
  | .admissionPolicy p => .admissionPolicy { p with status := status }
  | .admissionPolicyGroup p => .admissionPolicyGroup { p with status := status }
  | .clusterAdmissionPolicy p => .clusterAdmissionPolicy { p with status := status }
  | .clusterAdmissionPolicyGroup p => .clusterAdmissionPolicyGroup { p with status := status }

def mapMetadata (f : ObjectMeta → ObjectMeta)
    (hf : ∀ m, (f m).inNamespace = m.inNamespace) : Policy → Policy
  | .admissionPolicy p => .admissionPolicy { p with metadata := f p.metadata }
  | .admissionPolicyGroup p => .admissionPolicyGroup { p with metadata := f p.metadata }
  | .clusterAdmissionPolicy p => .clusterAdmissionPolicy { p with
      metadata := f p.metadata
      cluster_scoped := (hf p.metadata).trans p.cluster_scoped }
  | .clusterAdmissionPolicyGroup p => .clusterAdmissionPolicyGroup { p with
      metadata := f p.metadata
      cluster_scoped := (hf p.metadata).trans p.cluster_scoped }

def withFinalizers (finalizers : List String) : Policy → Policy :=
  mapMetadata (fun m => { m with finalizers := finalizers }) fun _ => rfl

def withDeletionTimestamp (time : String) : Policy → Policy :=
  mapMetadata (fun m => { m with deletionTimestamp := some time }) fun _ => rfl

def isDeleted (p : Policy) : Bool := p.getObjectMeta.deletionTimestamp.isSome

def getSideEffects (p : Policy) : Option String := p.common.sideEffects

def getFailurePolicy (p : Policy) : Option String := p.common.failurePolicy

def getMatchPolicy (p : Policy) : Option String := p.common.matchPolicy

def getObjectSelector (p : Policy) : Option LabelSelector := p.common.objectSelector

def namespaceNameLabel : String := "kubernetes.io/metadata.name"

def getNamespaceSelector (p : Policy) : Option LabelSelector :=
  let own := ⟨some (BTreeMap.empty.insert namespaceNameLabel p.getNamespace), none⟩
  match p with
  | .admissionPolicy _ | .admissionPolicyGroup _ => some own
  | .clusterAdmissionPolicy p => p.spec.namespaceSelector
  | .clusterAdmissionPolicyGroup p => p.spec.namespaceSelector

def getAllowInsideAdmissionControllerNamespace : Policy → Bool
  | .admissionPolicy _ | .admissionPolicyGroup _ => false
  | .clusterAdmissionPolicy p => p.spec.allowInsideAdmissionControllerNamespace
  | .clusterAdmissionPolicyGroup p => p.spec.allowInsideAdmissionControllerNamespace

section

variable (p : Policy) (status : PolicyStatus) (f : ObjectMeta → ObjectMeta)
  (hf : ∀ m, (f m).inNamespace = m.inNamespace)

@[simp] theorem getStatus_withStatus : (p.withStatus status).getStatus = status := by
  cases p <;> rfl

@[simp] theorem getObjectMeta_withStatus :
    (p.withStatus status).getObjectMeta = p.getObjectMeta := by
  cases p <;> rfl

@[simp] theorem kind_withStatus : (p.withStatus status).kind = p.kind := by cases p <;> rfl

@[simp] theorem isMutating_withStatus : (p.withStatus status).isMutating = p.isMutating := by
  cases p <;> rfl

@[simp] theorem getObjectMeta_mapMetadata :
    (p.mapMetadata f hf).getObjectMeta = f p.getObjectMeta := by
  cases p <;> rfl

@[simp] theorem kind_mapMetadata : (p.mapMetadata f hf).kind = p.kind := by cases p <;> rfl

@[simp] theorem isMutating_mapMetadata : (p.mapMetadata f hf).isMutating = p.isMutating := by
  cases p <;> rfl

end

end Policy

def setStatusCondition (conditions : List Condition) (c : Condition) : List Condition :=
  if conditions.any fun old => old.type = c.type then
    conditions.map fun old => if old.type = c.type then c else old
  else conditions ++ [c]

def kubewardenFinalizer : String := "kubewarden.io/finalizer"

def kubewardenFinalizerPre114 : String := "kubewarden"

def PolicyServer.withFinalizers (server : PolicyServer) (finalizers : List String) : PolicyServer :=
  { server with metadata := { server.metadata with finalizers := finalizers } }

def PolicyServer.nameWithPrefix (server : PolicyServer) : String :=
  "policy-server-" ++ server.metadata.name

end PoliciesV1

namespace Controller

export PoliciesV1 (Policy)

open Serde PoliciesV1 Remote GoJson

/-! ## Webhook configurations -/

structure ServiceReference where
  (inNamespace name path : String)
  port : ℕ

structure WebhookClientConfig where
  service : ServiceReference
  caBundle : List UInt8

structure Webhook where
  name : String
  clientConfig : WebhookClientConfig
  rules : List RuleWithOperations
  (failurePolicy matchPolicy : Option String)
  (namespaceSelector objectSelector : Option LabelSelector)
  sideEffects : Option String
  timeoutSeconds : Option Timeout
  admissionReviewVersions : List String
  matchConditions : List MatchCondition

/-- **A webhook configuration**, either validating or mutating. -/
structure WebhookConfiguration where
  uid : ℕ
  (labels annotations : HashMap String String)
  webhooks : List Webhook

/-! ## Other objects -/

structure Deployment where
  (labels annotations : HashMap String String)

structure ReplicaSet where
  inNamespace : String
  (labels annotations : HashMap String String)

structure Pod where
  inNamespace : String
  labels : HashMap String String
  conditions : List (String × String)

structure ConfigMap where
  resourceVersion : String
  labels : HashMap String String
  data : ConfigMapData

structure Secret where
  data : HashMap String (List UInt8)

inductive PolicyServerConditionType where
  | configMapReconciled | podDisruptionBudgetReconciled | deploymentReconciled | serviceReconciled
  | policyWebhooksCleanedUp
deriving DecidableEq

structure PolicyServerCondition where
  type : PolicyServerConditionType
  status : Bool
  (reason message : String)
deriving DecidableEq

/-! ## Policy servers as documents -/

def objectMetaFields (m : ObjectMeta) : List (String × Option Value) :=
  [("name", omitEmptyString m.name), ("namespace", omitEmptyString m.inNamespace),
    ("deletionTimestamp", omitNil .string m.deletionTimestamp),
    ("finalizers", omitEmptySlice .string m.finalizers)]

def policyServerSpecFields (spec : PolicyServerSpec) : List (String × Option Value) :=
  [("insecureSources", omitEmptySlice .string spec.insecureSources), ("sourceAuthorities",
    if spec.sourceAuthorities.entries.isEmpty then none
    else some (ofMap (fun certs => slice .string (some certs)) spec.sourceAuthorities)),
    ("namespacedPoliciesCapabilities", omitEmptySlice .string
      (spec.namespacedPoliciesCapabilities.getD []))]

def policyServerToJson (server : PolicyServer) : Value :=
  object [("metadata", some (object (objectMetaFields server.metadata))),
    ("spec", some (object (policyServerSpecFields server.spec)))]

def readObjectMeta : Option Value → Except String ObjectMeta
  | none => .ok ⟨"", "", [], none⟩
  | some v => do
    let name ← readField "name" readString v
    let inNamespace ← readField "namespace" readString v
    let deletionTimestamp ← readField "deletionTimestamp" readStringPointer v
    let finalizers ← readField "finalizers" readStrings v
    return ⟨name, inNamespace, finalizers, deletionTimestamp⟩

def readPolicyServerSpec : Option Value → Except String PolicyServerSpec
  | none => .ok ⟨none, [], ∅⟩
  | some v => do
    let insecureSources ← readField "insecureSources" readStrings v
    let sourceAuthorities ← readField "sourceAuthorities" (readMap fun v => readStrings (some v)) v
    let namespacedPoliciesCapabilities ← readField "namespacedPoliciesCapabilities"
      (readSlice readString) v
    return ⟨namespacedPoliciesCapabilities, insecureSources, sourceAuthorities⟩

def readPolicyServer (v : Value) : Except String PolicyServer := do
  let metadata ← readField "metadata" readObjectMeta v
  let spec ← readField "spec" readPolicyServerSpec v
  return ⟨metadata, spec⟩

/-- **What the API server stores**, by namespace and name. -/
structure Cluster where
  policies : List Policy
  policyServers : HashMap String Value
  policyServerConditions : HashMap String (List PolicyServerCondition)
  (validating mutating : HashMap String WebhookConfiguration)
  deployments : HashMap (String × String) Deployment
  replicaSets : List ReplicaSet
  pods : List Pod
  configMaps : HashMap (String × String) ConfigMap
  secrets : HashMap (String × String) Secret
  /-- The next number that is handed out, as an identifier or a version. -/
  next : ℕ

def Cluster.empty : Cluster where
  policies := []
  policyServers := ∅
  policyServerConditions := ∅
  validating := ∅
  mutating := ∅
  deployments := ∅
  replicaSets := []
  pods := []
  configMaps := ∅
  secrets := ∅
  next := 0

namespace Cluster

/-! ## Policies -/

def policy (c : Cluster) (id : Kind × String × String) : Option Policy :=
  c.policies.find? fun p => p.identity = id

def replacePolicy (c : Cluster) (id : Kind × String × String) (updated : Option Policy) : Cluster :=
  { c with policies := c.policies.filterMap fun p =>
      if p.identity = id then updated else some p }

def notFound (name : String) : Fault := ⟨false, name ++ " not found"⟩

/-- **Update a policy**: its status stays as it is stored, and a policy that is
being deleted goes with its last finalizer. -/
def updatePolicy (p : Policy) (c : Cluster) : Except Fault (PolicyStatus × Cluster) :=
  match c.policy p.identity with
  | none => .error (notFound p.getName)
  | some stored =>
    let updated :=
      if p.isDeleted ∧ p.getObjectMeta.finalizers = [] then none
      else some (p.withStatus stored.getStatus)
    .ok (stored.getStatus, c.replacePolicy p.identity updated)

def updatePolicyStatus (p : Policy) (c : Cluster) : Except Fault (Unit × Cluster) :=
  match c.policy p.identity with
  | none => .error (notFound p.getName)
  | some stored => .ok ((), c.replacePolicy p.identity (some (stored.withStatus p.getStatus)))

def policiesOf (c : Cluster) (kind : Kind) (policyServer : String) : List Policy :=
  c.policies.filter fun p =>
    p.kind = kind ∧ p.getPolicyServer = policyServer

/-! ## Webhook configurations -/

def webhooks (c : Cluster) (mutating : Bool) : HashMap String WebhookConfiguration :=
  if mutating then c.mutating else c.validating

def setWebhooks (c : Cluster) (mutating : Bool)
    (webhooks : HashMap String WebhookConfiguration) : Cluster :=
  if mutating then { c with mutating := webhooks }
  else { c with validating := webhooks }

def storeWebhook (mutating : Bool) (name : String)
    (webhook : WebhookConfiguration) (c : Cluster) : Cluster :=
  match (c.webhooks mutating).lookup name with
  | some live => c.setWebhooks mutating
    ((c.webhooks mutating).insert name { webhook with uid := live.uid })
  | none => { c.setWebhooks mutating
    ((c.webhooks mutating).insert name { webhook with uid := c.next }) with
      next := c.next + 1 }

def deleteWebhook (mutating : Bool) (name : String) (uid : ℕ) (c : Cluster) : Cluster :=
  match (c.webhooks mutating).lookup name with
  | some live =>
    if live.uid = uid then c.setWebhooks mutating ((c.webhooks mutating).erase name)
    else c
  | none => c

def hooks (name : String) (c : Cluster) (mutating : Bool) : Option WebhookConfiguration :=
  (c.webhooks mutating).lookup name

def present (name : String) (c : Cluster) (mutating : Bool) : Bool := (c.hooks name mutating).isSome

/-! ## Policy servers -/

def policyServer (c : Cluster) (name : String) : Except Fault (Option PolicyServer) :=
  match c.policyServers.lookup name with
  | none => .ok none
  | some v => ((readPolicyServer v).map some).mapError fun msg => ⟨false, msg⟩

def updatePolicyServer (server : PolicyServer) (c : Cluster) : Except Fault (Unit × Cluster) :=
  match c.policyServers.lookup server.metadata.name with
  | none => .error (notFound server.metadata.name)
  | some _ =>
    let updated :=
      if server.metadata.deletionTimestamp.isSome ∧ server.metadata.finalizers = [] then
        c.policyServers.erase server.metadata.name
      else c.policyServers.insert server.metadata.name (policyServerToJson server)
    .ok ((), { c with policyServers := updated })

section

variable (c : Cluster)

/-! ## What an operation leaves -/

theorem webhooks_setWebhooks (mutating m : Bool) (webhooks : HashMap String WebhookConfiguration) :
    (c.setWebhooks mutating webhooks).webhooks m
      = if m = mutating then webhooks else c.webhooks m := by
  cases mutating <;> cases m <;> rfl

theorem present_storeWebhook (mutating : Bool) (name : String) (webhook : WebhookConfiguration) :
    (c.storeWebhook mutating name webhook).present name
      = Function.update (c.present name) mutating true := by
  funext m
  have hinsert (w : WebhookConfiguration) :
      ((if m = mutating then (c.webhooks mutating).insert name w
        else c.webhooks m).lookup name).isSome
        = if m = mutating then true else ((c.webhooks m).lookup name).isSome := by
    by_cases hm : m = mutating
    · rw [if_pos hm, if_pos hm, AList.lookup_insert]
      rfl
    · rw [if_neg hm, if_neg hm]
  rw [Function.update_apply]
  unfold storeWebhook present hooks
  split
  · rw [webhooks_setWebhooks]
    exact hinsert _
  · show (((c.setWebhooks _ _).webhooks m).lookup name).isSome = _
    rw [webhooks_setWebhooks]
    exact hinsert _

theorem present_deleteWebhook_of_ne (mutating : Bool) {name n : String} (uid : ℕ) (h : n ≠ name) :
    (c.deleteWebhook mutating name uid).present n = c.present n := by
  funext m
  unfold deleteWebhook
  split
  · split
    · unfold present hooks
      rw [webhooks_setWebhooks]
      by_cases hm : m = mutating
      · rw [if_pos hm, hm, AList.lookup_erase_ne h]
      · rw [if_neg hm]
    · rfl
  · rfl

theorem present_deleteWebhook_self {mutating : Bool} {name : String}
    {live : WebhookConfiguration} (h : c.hooks name mutating = some live) :
    (c.deleteWebhook mutating name live.uid).present name
      = Function.update (c.present name) mutating false := by
  funext m
  rw [Function.update_apply]
  unfold deleteWebhook
  rw [show (c.webhooks mutating).lookup name = some live from h]
  show (((if live.uid = live.uid then _ else c).webhooks m).lookup name).isSome = _
  rw [if_pos rfl, webhooks_setWebhooks]
  by_cases hm : m = mutating
  · rw [if_pos hm, if_pos hm, AList.lookup_erase]
    rfl
  · rw [if_neg hm, if_neg hm]
    rfl

variable {c} {id : Kind × String × String}

open List

theorem identity_of_policy {p : Policy} (h : c.policy id = some p) : p.identity = id := by
  simpa using find?_some h

theorem policy_replacePolicy_some {p p' : Policy} (h : c.policy id = some p)
    (hp' : p'.identity = id) :
    (c.replacePolicy id (some p')).policy id = some p' := by
  obtain ⟨hp, as, bs, heq, hbefore⟩ := find?_eq_some_iff_append.1 h
  have has : as.filterMap (fun q => if q.identity = id then some p' else some q) = as := by
    refine (filterMap_congr fun q hq => if_neg ?_).trans filterMap_some
    simpa using hbefore q hq
  show find? _ (filterMap _ c.policies) = some p'
  rw [heq, filterMap_append, has, find?_append,
    find?_eq_none.2 fun q hq => by simpa using hbefore q hq]
  simp [show p.identity = id by simpa using hp, hp']

theorem policy_replacePolicy_none : (c.replacePolicy id none).policy id = none := by
  refine find?_eq_none.2 fun q hq => ?_
  obtain ⟨q', -, hq'⟩ := mem_filterMap.1 hq
  split at hq'
  · cases hq'
  · next hne =>
    cases hq'
    simpa using hne

end

end Cluster

end Controller
