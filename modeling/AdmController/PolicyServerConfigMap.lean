import AdmController.GoJson
import AdmController.PoliciesV1

/-!
# The configuration of a policy server

For each policy server the controller keeps a `ConfigMap` of its policies:
`buildPoliciesMap` makes an entry under each unique name, and
`addLegacyPolicyEntries` repeats it under a legacy name of one policy. The
order of a Go map is a parameter (`MapOrder`).
-/

open GoJson

open Serde PoliciesV1 PoliciesV1.ContextAwareResource

/-- **An order of iteration**: every entry of a map is visited once. -/
structure MapOrder where
  visit : {β : Type} → HashMap String β → List (Σ _ : String, β)
  perm : ∀ {β : Type} (m : HashMap String β), (visit m).Perm m.entries

def MapOrder.stored : MapOrder := ⟨fun m => m.entries, fun _ => .refl _⟩

/-! ## Entries -/

structure NamespacedName where
  (inNamespace name : String)

structure GroupMemberEntry where
  module : String
  settings : RawExtension
  contextAwareResources : List PoliciesV1.ContextAwareResource
  timeoutEvalSeconds : Option Int32
  hostCapabilities : Option (List String)

/-- **The entry of a policy.** The last two fields are used by groups only. -/
structure PolicyServerConfigEntry where
  namespacedName : NamespacedName
  (module policyMode : String)
  allowedToMutate : Bool
  contextAwareResources : List PoliciesV1.ContextAwareResource
  settings : RawExtension
  message : String
  timeoutEvalSeconds : Option Int32
  hostCapabilities : Option (List String)
  policies : HashMap String GroupMemberEntry
  expression : String

abbrev PolicyConfigEntryMap := HashMap String PolicyServerConfigEntry

/-! ## Writing -/

def NamespacedName.toJson (n : NamespacedName) : Value :=
  object [("Namespace", some (.string n.inNamespace)), ("Name", some (.string n.name))]

def PoliciesV1.ContextAwareResource.fields
    (r : ContextAwareResource) : List (String × Option Value) :=
  [("apiVersion", some (.string r.apiVersion)), ("kind", some (.string r.kind))]

def PoliciesV1.ContextAwareResource.toJson (r : ContextAwareResource) : Value := object r.fields

def settingsToJson (settings : RawExtension) : Option Value := some (pointer id settings)

def int32ToJson (n : Int32) : Value := .number n.toInt

def GroupMemberEntry.fields (m : GroupMemberEntry) : List (String × Option Value) :=
  [("module", some (.string m.module)), ("settings", settingsToJson m.settings),
    ("contextAwareResources", omitEmptySlice toJson m.contextAwareResources),
    ("timeoutEvalSeconds", omitNil int32ToJson m.timeoutEvalSeconds),
    ("hostCapabilities", some (slice .string m.hostCapabilities))]

namespace PolicyServerConfigEntry

variable (p : PolicyServerConfigEntry)

def groupFields : List (String × Option Value) :=
  [("namespacedName", some p.namespacedName.toJson), ("policyMode", some (.string p.policyMode)),
    ("policies", some (ofMap (fun m => object m.fields) p.policies)),
    ("expression", some (.string p.expression)),
    ("message", some (.string p.message))]

def policyFields : List (String × Option Value) :=
  [("namespacedName", some p.namespacedName.toJson), ("module", some (.string p.module)),
    ("policyMode", some (.string p.policyMode)),
    ("allowedToMutate", some (.bool p.allowedToMutate)),
    ("contextAwareResources", omitEmptySlice toJson p.contextAwareResources),
    ("settings", settingsToJson p.settings),
    ("message", omitEmptyString p.message),
    ("timeoutEvalSeconds", omitNil int32ToJson p.timeoutEvalSeconds),
    ("hostCapabilities", some (slice .string p.hostCapabilities))]

def marshalJSON : Value :=
  if p.policies.entries.length > 0 then object p.groupFields
  else object p.policyFields

end PolicyServerConfigEntry

/-! ## Reading -/

def readNamespacedName : Option Value → Except String NamespacedName
  | none => .ok ⟨"", ""⟩
  | some v => do
    let inNamespace ← readField "Namespace" readString v
    let name ← readField "Name" readString v
    return ⟨inNamespace, name⟩

def readContextAwareResource : Option Value → Except String PoliciesV1.ContextAwareResource
  | none => .ok ⟨"", ""⟩
  | some v => do
    let apiVersion ← readField "apiVersion" readString v
    let kind ← readField "kind" readString v
    return ⟨apiVersion, kind⟩

def readContextAwareResources (v : Option Value) :
    Except String (List PoliciesV1.ContextAwareResource) :=
  (readSlice readContextAwareResource v).map (·.getD [])

def readHostCapabilities : Option Value → Except String (Option (List String)) :=
  readSlice readString

def readMember (v : Value) : Except String GroupMemberEntry := do
  let module ← readField "module" readString v
  let settings ← readField "settings" readRaw v
  let contextAwareResources ← readField "contextAwareResources" readContextAwareResources v
  let timeoutEvalSeconds ← readField "timeoutEvalSeconds" readInt32 v
  let hostCapabilities ← readField "hostCapabilities" readHostCapabilities v
  return ⟨module, settings, contextAwareResources, timeoutEvalSeconds, hostCapabilities⟩

def readConfigEntry (v : Value) : Except String PolicyServerConfigEntry := do
  let namespacedName ← readField "namespacedName" readNamespacedName v
  let module ← readField "module" readString v
  let policyMode ← readField "policyMode" readString v
  let allowedToMutate ← readField "allowedToMutate" readBool v
  let contextAwareResources ← readField "contextAwareResources" readContextAwareResources v
  let settings ← readField "settings" readRaw v
  let message ← readField "message" readString v
  let timeoutEvalSeconds ← readField "timeoutEvalSeconds" readInt32 v
  let hostCapabilities ← readField "hostCapabilities" readHostCapabilities v
  let policies ← readField "policies" (readMap readMember) v
  let expression ← readField "expression" readString v
  return ⟨namespacedName, module, policyMode, allowedToMutate,
    contextAwareResources, settings, message, timeoutEvalSeconds,
    hostCapabilities, policies, expression⟩

def PolicyServerConfigEntry.unmarshalJSON (v : Value) :
    Except String PolicyServerConfigEntry := do
  let p ← (readConfigEntry v).mapError ("failed to unmarshal policy server config entry\n" ++ ·)
  if p.policies.entries.length = 0 ∧ p.module = "" then
    .error "policies JSON should have an URL or a list of policies to be evaluated"
  else if p.policies.entries.length ≠ 0 ∧ p.module ≠ "" then
    .error
      "policies JSON should not have an URL and a list of policies to be evaluated at the same time"
  else .ok p

/-! ## Building the map -/

def hostCapabilitiesForPolicy (admissionPolicy : PoliciesV1.Policy)
    (policyServer : PolicyServer) : List String :=
  if admissionPolicy.getNamespace = "" then ["*"]
  else match policyServer.spec.namespacedPoliciesCapabilities with
  | some capabilities => capabilities
  | none => ["*"]

def memberEntry (hostCaps : List String)
    (policy : PolicyGroupMemberWithContext) : GroupMemberEntry where
  module := policy.module
  settings := policy.settings
  contextAwareResources := policy.contextAwareResources
  timeoutEvalSeconds := policy.timeoutEvalSeconds.map Timeout.seconds
  hostCapabilities := some hostCaps

def buildPolicyGroupMembersWithContext (policies : HashMap String PolicyGroupMemberWithContext)
    (hostCaps : List String) : HashMap String GroupMemberEntry :=
  policies.mapValues fun _ policy => memberEntry hostCaps policy

def configEntry (policyServer : PolicyServer)
    (admissionPolicy : PoliciesV1.Policy) : PolicyServerConfigEntry :=
  let hostCaps := hostCapabilitiesForPolicy admissionPolicy policyServer
  { namespacedName :=
    ⟨admissionPolicy.getNamespace, admissionPolicy.getName⟩
    module := admissionPolicy.getModule
    policyMode := admissionPolicy.getPolicyMode.text
    allowedToMutate := admissionPolicy.isMutating
    contextAwareResources := admissionPolicy.getContextAwareResources
    settings := admissionPolicy.getSettings
    message := admissionPolicy.getMessage
    timeoutEvalSeconds := admissionPolicy.getTimeoutEvalSeconds.map Timeout.seconds
    hostCapabilities := some hostCaps
    policies := match admissionPolicy.policyGroup with
      | some (members, _) => buildPolicyGroupMembersWithContext members hostCaps
      | none => ∅
    expression := match admissionPolicy.policyGroup with
      | some (_, expression) => expression
      | none => "" }

def buildPoliciesMap (admissionPolicies : List PoliciesV1.Policy)
    (policyServer : PolicyServer) : PolicyConfigEntryMap :=
  admissionPolicies.foldl (fun policies admissionPolicy =>
    policies.insert admissionPolicy.getUniqueName (configEntry policyServer admissionPolicy)) ∅

def legacyNameOwners (admissionPolicies : List PoliciesV1.Policy) :
    HashMap String (List PoliciesV1.Policy) :=
  admissionPolicies.foldl (fun owners p =>
    owners.insert p.legacyPolicyUniqueName
      ((owners.lookup p.legacyPolicyUniqueName).getD [] ++ [p])) ∅

def addLegacyEntry (policies : PolicyConfigEntryMap)
    (e : Σ _ : String, List PoliciesV1.Policy) : PolicyConfigEntryMap :=
  match e.2 with
  | [owner] =>
    match policies.lookup owner.getUniqueName with
    | some entry => policies.insert e.1 entry
    | none => policies
  | _ => policies

def addLegacyPolicyEntries (order : MapOrder) (policies : PolicyConfigEntryMap)
    (admissionPolicies : List PoliciesV1.Policy) : PolicyConfigEntryMap :=
  (order.visit (legacyNameOwners admissionPolicies)).foldl addLegacyEntry policies

def policiesMap (order : MapOrder) (policyServer : PolicyServer)
    (policies : List PoliciesV1.Policy) : PolicyConfigEntryMap :=
  addLegacyPolicyEntries order (buildPoliciesMap policies policyServer) policies

/-! ## The `ConfigMap` -/

def policyServerConfigPoliciesEntry : String := "policies.yml"

def policyServerConfigSourcesEntry : String := "sources.yml"

def buildSourcesMap (policyServer : PolicyServer) : Value :=
  object [("insecure_sources", omitEmptySlice .string policyServer.spec.insecureSources),
      ("source_authorities", if policyServer.spec.sourceAuthorities.entries.isEmpty then none
        else some (ofMap (fun certs => .sequence (certs.map fun cert =>
          object [("type", some (.string "Data")), ("data", some (.string cert))]))
          policyServer.spec.sourceAuthorities))]

abbrev ConfigMapData := HashMap String Value

def updateConfigMapData (order : MapOrder) (policyServer : PolicyServer)
    (policies : List PoliciesV1.Policy) : ConfigMapData :=
  (∅ : ConfigMapData).insertAll [⟨policyServerConfigPoliciesEntry,
        ofMap PolicyServerConfigEntry.marshalJSON (policiesMap order policyServer policies)⟩,
      ⟨policyServerConfigSourcesEntry, buildSourcesMap policyServer⟩]

def getPolicyMapFromConfigMap (data : ConfigMapData) : Except String PolicyConfigEntryMap :=
  match data.lookup policyServerConfigPoliciesEntry with
  | some policies =>
    (readMap PolicyServerConfigEntry.unmarshalJSON
      (some policies)).mapError ("failed to unmarshal policy mapping\n" ++ ·)
  | none => .ok ∅

def isPolicyInConfigMap (data : ConfigMapData) (policyName : String) : Bool :=
  match getPolicyMapFromConfigMap data with
  | .ok policies => (policies.lookup policyName).isSome
  | .error _ => false
