import AdmController.HostCapabilities
import AdmController.Serde

/-!
# Policies and policy groups

The configuration of a policy server, the check of its names, and the
identifiers of policies, groups and members. Accepted names contain no slash,
so that identifiers do not clash (`validatePolicies_ok_iff`,
`PolicyID.parse_of_not_contains`).
-/

open Serde RustStr

/-! ## Identifiers -/

inductive EvaluationError where
  | invalidPolicyId (id : String)
  | policyInitialization (msg : String)
  | policyNotFound (id : String)
  | bootstrapFailure (msg : String)
  | webAssemblyError (msg : String)
  | cannotRehydratePolicyGroup (id : String)
deriving DecidableEq

def EvaluationError.text : EvaluationError → String
  | .invalidPolicyId id => "Not a valid Policy ID: " ++ id
  | .policyInitialization msg => msg
  | .policyNotFound id => "unknown policy: " ++ id
  | .bootstrapFailure msg => "bootstrap failure: " ++ msg
  | .webAssemblyError msg => "WebAssembly failure: " ++ msg
  | .cannotRehydratePolicyGroup id => "Attempted to rehydrated policy group '" ++ id ++ "'"

inductive PolicyID where
  /-- An individual policy, or a policy group. -/
  | policy (name : String)
  /-- A member of a policy group. -/
  | policyGroupPolicy (group name : String)
deriving DecidableEq

def PolicyID.text : PolicyID → String
  | .policy name => name
  | .policyGroupPolicy group name => group ++ "/" ++ name

def PolicyID.parse (s : String) : Except EvaluationError PolicyID :=
  if s = "" then .error (.invalidPolicyId s)
  else match split s '/' with
  | [_] => .ok (.policy s)
  | [group, name] => .ok (.policyGroupPolicy group name)
  | _ => .error (.invalidPolicyId s)

theorem PolicyID.parse_of_not_contains {s : String} (hne : s ≠ "") (hs : contains s '/' = false) :
    PolicyID.parse s = .ok (.policy s) := by
  unfold PolicyID.parse
  rw [if_neg hne, split_of_not_contains hs]

theorem PolicyID.text_of_parse {s : String} {id : PolicyID}
    (h : PolicyID.parse s = .ok id) : id.text = s := by
  unfold PolicyID.parse at h
  split at h
  · cases h
  · split at h
    · cases h
      rfl
    · next group name hsplit =>
      cases h
      exact join_of_split hsplit
    · cases h

/-! ## The policies file -/

inductive PolicyMode where
  | protect
  | monitor
deriving DecidableEq

structure ContextAwareResource where
  (apiVersion kind : String)
deriving DecidableEq

instance : LT ContextAwareResource where
  lt a b := a.apiVersion < b.apiVersion ∨ (a.apiVersion = b.apiVersion ∧ a.kind < b.kind)

abbrev PolicySettings := List (String × Value)

structure PolicyGroupMember where
  module : String
  settings : Option PolicySettings
  contextAwareResources : BTreeSet ContextAwareResource
  timeoutEvalSeconds : Option ℕ
  hostCapabilities : List String

structure Policy where
  module : String
  policyMode : PolicyMode
  allowedToMutate : Option Bool
  settings : Option PolicySettings
  contextAwareResources : BTreeSet ContextAwareResource
  message : Option String
  timeoutEvalSeconds : Option ℕ
  hostCapabilities : List String

structure PolicyGroup where
  policyMode : PolicyMode
  policies : HashMap String PolicyGroupMember
  (expression message : String)

inductive PolicyOrPolicyGroup where
  | policy (p : Policy)
  | policyGroup (g : PolicyGroup)

def Policy.ofModule (url : String) : Policy where
  module := url
  policyMode := .protect
  allowedToMutate := none
  settings := none
  contextAwareResources := .empty
  message := none
  timeoutEvalSeconds := none
  hostCapabilities := []

def PolicyGroupMember.ofModule (url : String) : PolicyGroupMember where
  module := url
  settings := none
  contextAwareResources := .empty
  timeoutEvalSeconds := none
  hostCapabilities := []

abbrev Policies := HashMap String PolicyOrPolicyGroup

def PolicyOrPolicyGroup.modules : PolicyOrPolicyGroup → List (String × List String)
  | .policy p => [(p.module, p.hostCapabilities)]
  | .policyGroup g => g.policies.entries.map (fun m => (m.2.module, m.2.hostCapabilities))

def configuredModules (policies : Policies) : List (String × List String) :=
  policies.entries.flatMap (fun e => e.2.modules)

inductive PolicyOrPolicyGroupSettings where
  | policy (settings : PolicySettings)
  | policyGroup (expression message : String) (policies : List String)

def PolicyGroupMember.settingsOrDefault (m : PolicyGroupMember) :
    Except String PolicyOrPolicyGroupSettings :=
  .ok (.policy (m.settings.getD []))

def PolicyOrPolicyGroup.settings : PolicyOrPolicyGroup → Except String PolicyOrPolicyGroupSettings
  | .policy p => .ok (.policy (p.settings.getD []))
  | .policyGroup g => .ok (.policyGroup g.expression g.message g.policies.keys)

/-! ## Validation of names -/

def validateEntry (name : String) : PolicyOrPolicyGroup → Except String Unit
  | entry =>
    if contains name '/' then .error ("policy name '" ++ name ++ "' contains a '/' character")
    else match entry with
    | .policy _ => .ok ()
    | .policyGroup g =>
      let invalid := g.policies.keys.filter (fun id => contains id '/')
      if invalid.isEmpty then .ok ()
      else .error ("policy group '" ++ name ++ "' contains policies with invalid names: ["
        ++ String.intercalate ", " (invalid.map debug) ++ "]")

def validatePolicies (policies : Policies) : Except String Unit :=
  policies.entries.forM (fun e => validateEntry e.1 e.2)

theorem validateEntry_ok_iff (name : String) (entry : PolicyOrPolicyGroup) :
    validateEntry name entry = .ok () ↔ contains name '/' = false ∧ ∀ g, entry = .policyGroup g →
            ∀ id ∈ g.policies.keys, contains id '/' = false := by
  unfold validateEntry
  split
  · next hname => simp [hname]
  · next hname =>
    rw [Bool.not_eq_true] at hname
    cases entry with
    | policy p => simp [hname]
    | policyGroup g =>
      simp only [hname, true_and, PolicyOrPolicyGroup.policyGroup.injEq, forall_eq']
      split
      · next hempty =>
        refine iff_of_true rfl (fun id hid => ?_)
        rw [List.isEmpty_iff, List.filter_eq_nil_iff] at hempty
        simpa using hempty id hid
      · next hempty =>
        refine iff_of_false (by rintro ⟨⟩) (fun h => hempty ?_)
        rw [List.isEmpty_iff, List.filter_eq_nil_iff]
        intro id hid
        simpa using h id hid

theorem validatePolicies_ok_iff (policies : Policies) : validatePolicies policies = .ok ()
    ↔ ∀ e ∈ policies.entries, contains e.1 '/' = false ∧ ∀ g, e.2 = .policyGroup g →
          ∀ id ∈ g.policies.keys, contains id '/' = false := by
  unfold validatePolicies
  rw [Fallible.forM_eq_ok_iff]
  exact forall₂_congr (fun e _ => validateEntry_ok_iff e.1 e.2)
