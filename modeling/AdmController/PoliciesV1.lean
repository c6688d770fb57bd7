import AdmController.MatchResources
import AdmController.Serde

/-!
# The policy resources

The four custom resources that describe policies, and their common interface
`Policy`. What the schema guarantees is built into the types: the mode is one
of two, timeouts are between 2 and 30 seconds, and a cluster-wide resource has
no namespace.
-/

namespace PoliciesV1

open Serde

/-! ## Specifications -/

inductive PolicyMode where
  | protect
  | monitor
deriving DecidableEq

def PolicyMode.text : PolicyMode → String
  | .protect => "protect"
  | .monitor => "monitor"

structure Timeout where
  seconds : Int32
  two_le : 2 ≤ seconds.toInt
  le_thirty : seconds.toInt ≤ 30

/-- A free-form object embedded in a resource: `nil`, or its JSON. -/
abbrev RawExtension := Option Value

structure ContextAwareResource where
  (apiVersion kind : String)

/-- Which operations on which resources a policy is about. -/
structure RuleWithOperations where
  (operations apiGroups apiVersions resources : List String)
  scope : Option String

structure MatchCondition where
  (name expression : String)

structure CommonSpec where
  policyServer : String
  mode : PolicyMode
  rules : List RuleWithOperations
  (failurePolicy matchPolicy : Option String)
  matchConditions : List MatchCondition
  objectSelector : Option LabelSelector
  sideEffects : Option String
  timeoutSeconds : Option Timeout
  message : String

structure PolicySpec extends CommonSpec where
  module : String
  settings : RawExtension
  mutating : Bool
  timeoutEvalSeconds : Option Timeout

structure PolicyGroupMember where
  module : String
  settings : RawExtension
  timeoutEvalSeconds : Option Timeout

structure PolicyGroupMemberWithContext extends PolicyGroupMember where
  contextAwareResources : List ContextAwareResource

structure GroupSpec extends CommonSpec where
  expression : String

structure AdmissionPolicyGroupSpec extends GroupSpec where
  policies : HashMap String PolicyGroupMember

structure ClusterAdmissionPolicySpec extends PolicySpec where
  namespaceSelector : Option LabelSelector
  contextAwareResources : List ContextAwareResource
  allowInsideAdmissionControllerNamespace : Bool

structure ClusterAdmissionPolicyGroupSpec extends GroupSpec where
  policies : HashMap String PolicyGroupMemberWithContext
  namespaceSelector : Option LabelSelector
  allowInsideAdmissionControllerNamespace : Bool

def CommonSpec.bare : CommonSpec where
  policyServer := "default"
  mode := .protect
  rules := [⟨["CREATE"], [""], ["v1"], ["pods"], none⟩]
  failurePolicy := none
  matchPolicy := none
  matchConditions := []
  objectSelector := none
  sideEffects := none
  timeoutSeconds := none
  message := ""

def PolicySpec.ofModule (module : String) : PolicySpec :=
  { CommonSpec.bare with
    module := module
    settings := none
    mutating := false
    timeoutEvalSeconds := none }

/-! ## Status -/

inductive PolicyStatusEnum where
  | unscheduled | scheduled | pending | active | rejected
deriving DecidableEq

inductive PolicyModeStatus where
  | mode (mode : PolicyMode)
  | unknown
deriving DecidableEq

inductive PolicyConditionType where
  | policyActive | policyServerConfigurationUpToDate | policyUniquelyReachable
deriving DecidableEq

structure Condition where
  type : PolicyConditionType
  status : Bool
  (reason message : String)
deriving DecidableEq

structure PolicyStatus where
  policyStatus : PolicyStatusEnum
  policyMode : Option PolicyModeStatus
  conditions : List Condition
deriving DecidableEq

/-! ## Resources -/

structure ObjectMeta where
  (name inNamespace : String)
  finalizers : List String
  /-- The resource is being deleted. -/
  deletionTimestamp : Option String

def ObjectMeta.created (inNamespace name : String) : ObjectMeta := ⟨name, inNamespace, [], none⟩

def PolicyStatus.created : PolicyStatus := ⟨.unscheduled, none, []⟩

structure AdmissionPolicy where
  metadata : ObjectMeta
  spec : PolicySpec
  status : PolicyStatus

structure AdmissionPolicyGroup where
  metadata : ObjectMeta
  spec : AdmissionPolicyGroupSpec
  status : PolicyStatus

structure ClusterAdmissionPolicy where
  metadata : ObjectMeta
  spec : ClusterAdmissionPolicySpec
  status : PolicyStatus
  cluster_scoped : metadata.inNamespace = ""

structure ClusterAdmissionPolicyGroup where
  metadata : ObjectMeta
  spec : ClusterAdmissionPolicyGroupSpec
  status : PolicyStatus
  cluster_scoped : metadata.inNamespace = ""

/-- **A policy** of one of the four kinds. -/
inductive Policy where
  | admissionPolicy (p : AdmissionPolicy)
  | admissionPolicyGroup (p : AdmissionPolicyGroup)
  | clusterAdmissionPolicy (p : ClusterAdmissionPolicy)
  | clusterAdmissionPolicyGroup (p : ClusterAdmissionPolicyGroup)

structure PolicyServerSpec where
  namespacedPoliciesCapabilities : Option (List String)
  insecureSources : List String
  sourceAuthorities : HashMap String (List String)

structure PolicyServer where
  metadata : ObjectMeta
  spec : PolicyServerSpec

def PolicyServer.created (name : String)
    (namespacedPoliciesCapabilities : Option (List String)) : PolicyServer :=
  ⟨.created "" name, ⟨namespacedPoliciesCapabilities, [], ∅⟩⟩

inductive Kind where
  | admissionPolicy | admissionPolicyGroup | clusterAdmissionPolicy | clusterAdmissionPolicyGroup
deriving DecidableEq

namespace Policy

def created (inNamespace name : String) (spec : PolicySpec) : Policy :=
  .admissionPolicy ⟨.created inNamespace name, spec, .created⟩

def createdGroup (inNamespace name : String)
    (policies : HashMap String PolicyGroupMember) (expression : String) :
    Policy :=
  .admissionPolicyGroup ⟨.created inNamespace name,
    { CommonSpec.bare with
      message := "rejected"
      policies := policies
      expression := expression }, .created⟩

/-! ## The interface -/

def kind : Policy → Kind
  | .admissionPolicy _ => .admissionPolicy
  | .admissionPolicyGroup _ => .admissionPolicyGroup
  | .clusterAdmissionPolicy _ => .clusterAdmissionPolicy
  | .clusterAdmissionPolicyGroup _ => .clusterAdmissionPolicyGroup

def getObjectMeta : Policy → ObjectMeta
  | .admissionPolicy p => p.metadata
  | .admissionPolicyGroup p => p.metadata
  | .clusterAdmissionPolicy p => p.metadata
  | .clusterAdmissionPolicyGroup p => p.metadata

def common : Policy → CommonSpec
  | .admissionPolicy p => p.spec.toCommonSpec
  | .admissionPolicyGroup p => p.spec.toCommonSpec
  | .clusterAdmissionPolicy p => p.spec.toCommonSpec
  | .clusterAdmissionPolicyGroup p => p.spec.toCommonSpec

variable (p : Policy)

def getName : String := p.getObjectMeta.name

def getNamespace : String := p.getObjectMeta.inNamespace

def getPolicyServer : String := p.common.policyServer

def getPolicyMode : PolicyMode := p.common.mode

def getMatchConditions : List MatchCondition := p.common.matchConditions

def getTimeoutSeconds : Option Timeout := p.common.timeoutSeconds

def getMessage : String := p.common.message

def getRules : Policy → List RuleWithOperations
  | .admissionPolicy p => p.spec.rules.map fun r => { r with scope := some "Namespaced" }
  | .admissionPolicyGroup p => p.spec.rules.map fun r => { r with scope := some "Namespaced" }
  | .clusterAdmissionPolicy p => p.spec.rules
  | .clusterAdmissionPolicyGroup p => p.spec.rules

def getModule : Policy → String
  | .admissionPolicy p => p.spec.module
  | .clusterAdmissionPolicy p => p.spec.module
  | .admissionPolicyGroup _ | .clusterAdmissionPolicyGroup _ => ""

def getSettings : Policy → RawExtension
  | .admissionPolicy p => p.spec.settings
  | .clusterAdmissionPolicy p => p.spec.settings
  | .admissionPolicyGroup _ | .clusterAdmissionPolicyGroup _ => none

def isMutating : Policy → Bool
  | .admissionPolicy p => p.spec.mutating
  | .clusterAdmissionPolicy p => p.spec.mutating
  | .admissionPolicyGroup _ | .clusterAdmissionPolicyGroup _ => false

def getTimeoutEvalSeconds : Policy → Option Timeout
  | .admissionPolicy p => p.spec.timeoutEvalSeconds
  | .clusterAdmissionPolicy p => p.spec.timeoutEvalSeconds
  | .admissionPolicyGroup _ | .clusterAdmissionPolicyGroup _ => none

def getContextAwareResources : Policy → List ContextAwareResource
  | .clusterAdmissionPolicy p => p.spec.contextAwareResources
  | .admissionPolicy _ | .admissionPolicyGroup _
  | .clusterAdmissionPolicyGroup _ => []

def policyGroup : Policy → Option (HashMap String PolicyGroupMemberWithContext × String)
  | .admissionPolicyGroup p =>
    some (p.spec.policies.mapValues fun _ member =>
      { member with contextAwareResources := [] }, p.spec.expression)
  | .clusterAdmissionPolicyGroup p => some (p.spec.policies, p.spec.expression)
  | .admissionPolicy _ | .clusterAdmissionPolicy _ => none

def getUniqueName : String :=
  match p.kind with
  | .admissionPolicy => "kw.ap." ++ p.getNamespace ++ "." ++ p.getName
  | .admissionPolicyGroup => "kw.apg." ++ p.getNamespace ++ "." ++ p.getName
  | .clusterAdmissionPolicy => "kw.cap." ++ p.getName
  | .clusterAdmissionPolicyGroup => "kw.capg." ++ p.getName

def legacyPolicyUniqueName : String :=
  match p.kind with
  | .admissionPolicy => "namespaced-" ++ p.getNamespace ++ "-" ++ p.getName
  | .admissionPolicyGroup => "namespaced-group-" ++ p.getNamespace ++ "-" ++ p.getName
  | .clusterAdmissionPolicy => "clusterwide-" ++ p.getName
  | .clusterAdmissionPolicyGroup => "clusterwide-group-" ++ p.getName

/-! ## Identities -/

def identity : Kind × String × String := (p.kind, p.getNamespace, p.getName)

def IsNamespaced : Prop := p.kind = .admissionPolicy ∨ p.kind = .admissionPolicyGroup

theorem getNamespace_of_not_isNamespaced {p : Policy}
    (h : ¬ p.IsNamespaced) : p.getNamespace = "" := by
  cases p with
  | admissionPolicy p => exact absurd (.inl rfl) h
  | admissionPolicyGroup p => exact absurd (.inr rfl) h
  | clusterAdmissionPolicy p => exact p.cluster_scoped
  | clusterAdmissionPolicyGroup p => exact p.cluster_scoped

end Policy

end PoliciesV1
