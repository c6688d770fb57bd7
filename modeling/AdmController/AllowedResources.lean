import Mathlib.Data.List.Destutter
import AdmController.GoJson
import AdmController.PoliciesV1

/-!
# The allow list of namespaced policies

A namespaced policy may be about the resources that the administrator allows
(`isNamespacedPolicyAllowed`). Entries that the controller cannot use are
skipped, and a configuration that cannot be read allows nothing.
-/

namespace Controller

open Serde RustStr GoJson

structure Rule where
  (apiGroups apiVersions resources : List String)
  scope : Option String

abbrev NamespacedPoliciesAllowedResources := List Rule

/-! ## The configuration of the controller -/

def validateAPIGroup (apiGroup : String) : Bool := !contains apiGroup '*'

def validateResource (resource : String) : Bool :=
  resource ≠ "" && !contains resource '*' && !contains resource '/'

def validateNamespacedPoliciesAllowedResources (entries : List Rule) :
    NamespacedPoliciesAllowedResources :=
  entries.filterMap fun entry =>
    let apiGroups := entry.apiGroups.filter validateAPIGroup
    let resources := entry.resources.filter validateResource
    if apiGroups.length = 0 then none
    else if resources.length = 0 then none
    else some ⟨apiGroups, [], resources, none⟩

def readRule : Option Value → Except String Rule
  | none => .ok ⟨[], [], [], none⟩
  | some v => do
    let apiGroups ← readField "apiGroups" readStrings v
    let apiVersions ← readField "apiVersions" readStrings v
    let resources ← readField "resources" readStrings v
    let scope ← readField "scope" readStringPointer v
    return ⟨apiGroups, apiVersions, resources, scope⟩

def parseControllerConfig (v : Value) : NamespacedPoliciesAllowedResources :=
  match readField "namespacedPoliciesAllowedResources" (readSlice readRule) v with
  | .ok entries => validateNamespacedPoliciesAllowedResources (entries.getD [])
  | .error _ => []

/-! ## Policies -/

def allows (a : NamespacedPoliciesAllowedResources) (apiGroup resource : String) : Bool :=
  let parentResource := match splitOnce resource '/' with
    | some (parent, _) => parent
    | none => resource
  if contains apiGroup '*' then false
  else if parentResource = "" ∨ contains parentResource '*' then false
  else a.any fun entry =>
    entry.apiGroups.contains apiGroup && entry.resources.contains parentResource

def groupResource (apiGroup resource : String) : String :=
  if apiGroup = "" then resource else resource ++ "." ++ apiGroup

def disallowedTargets (a : NamespacedPoliciesAllowedResources)
    (rules : List PoliciesV1.RuleWithOperations) : List String :=
  let disallowed := rules.flatMap fun rule =>
    rule.apiGroups.flatMap fun apiGroup =>
      (rule.resources.filter fun resource => !allows a apiGroup resource).map
        fun resource => groupResource apiGroup resource
  (disallowed.insertionSort (· ≤ ·)).destutter (· ≠ ·)

/-- **Whether the controller can deploy a policy**, and what is not allowed. -/
def isNamespacedPolicyAllowed (policy : PoliciesV1.Policy)
    (allowed : NamespacedPoliciesAllowedResources) : Bool × List String :=
  if policy.getNamespace = "" then (true, [])
  else
    let disallowed := disallowedTargets allowed policy.getRules
    (disallowed.length = 0, disallowed)

def namespacedPolicyRejectedMessage (disallowed : List String)
    (allowed : NamespacedPoliciesAllowedResources) (configMapName : String) :
    String :=
  "The policy is not deployed. " ++ (if allowed.length = 0 then
        "The allow list of resources for namespaced policies is empty. "
          ++ "The controller reads the allow list from the key "
          ++ "namespacedPoliciesAllowedResources of the file config.yaml in "
          ++ "the ConfigMap " ++ configMapName ++ ". "
      else
        "The cluster administrator does not allow namespaced policies to "
          ++ "target these resources (resource.apiGroup): "
          ++ String.intercalate ", " disallowed ++ ". ")
    ++ (if disallowed.any fun target => contains target '*' then
        "Namespaced policies cannot use wildcards in apiGroups or resources. "
          ++ "Replace each wildcard with a resource name. "
      else "")
    ++ "To deploy this policy, ask the cluster administrator to add the "
    ++ "resources that the policy targets to the Helm value namespacedPoliciesAllowedResources."

end Controller
