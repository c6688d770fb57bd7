import AdmController.FieldErrors
import AdmController.PoliciesV1

/-!
# Validation of policies

The checks of the webhook when a policy or a policy group is created or
updated. Neither operation looks at `spec.module`. The compilers of CEL
expressions and the syntax of qualified names are the parameters of
`ValidationLib`.
-/

namespace PoliciesV1

inductive CelErrorType where
  | required | invalid | internal | unsupported
deriving DecidableEq

inductive CelIssue where
  | environment (msg : String)
  | compilation (msg : String)
deriving DecidableEq

/-- **The libraries** that validation relies on. -/
structure ValidationLib where
  /-- Compile a match condition: the type and the detail of an error. -/
  compileMatchCondition : String → Option (CelErrorType × String)
  /-- What is wrong with a qualified name. -/
  isQualifiedName : String → List String
  /-- Compile the expression of a group: whether its type is Boolean. -/
  compileExpression : List String → String → Except CelIssue Bool

def ValidationLib.lenient : ValidationLib where
  compileMatchCondition _ := none
  isQualifiedName _ := []
  compileExpression _ _ := .ok true

/-! ## Rules -/

def specPath : FieldPath := .root "spec"

def checkArrayForEmptyString (path : FieldPath) (l : List String) : List FieldError :=
  checkEach path (fun path s =>
    if s = "" then some (.required path "must be non-empty") else none) l

def checkRulesArrayForWildcardUsage (rule : RuleWithOperations)
    (ruleField : FieldPath) : List FieldError :=
  match rule.apiGroups.findIdx? (· = "*"),
    rule.resources.findIdx? (fun r => r = "*" ∨ r = "*/*") with
  | some apiGroup, some resource =>
    [.forbidden ((ruleField.child "apiGroups").index apiGroup)
      "apiGroups cannot use wildcards when using AdmissionPolicy or AdmissionPolicyGroup",
      .forbidden ((ruleField.child "resources").index resource)
        "resources cannot use wildcards when using AdmissionPolicy or AdmissionPolicyGroup"]
  | _, _ => []

/-- The checks of one rule. -/
def validateRule (kind : Kind) (ruleField : FieldPath)
    (rule : RuleWithOperations) : List FieldError :=
  let missing (name : String) : FieldError :=
    .required (ruleField.child name) "a value must be specified"
  if rule.operations.isEmpty then [missing "operations"]
  else if rule.apiVersions.isEmpty || rule.resources.isEmpty then
    (if rule.apiVersions.isEmpty then [missing "apiVersions"] else [])
      ++ if rule.resources.isEmpty then [missing "resources"] else []
  else
    checkArrayForEmptyString (ruleField.child "operations") rule.operations
      ++ checkArrayForEmptyString (ruleField.child "apiVersions") rule.apiVersions
      ++ checkArrayForEmptyString (ruleField.child "resources") rule.resources
      ++ if kind = .admissionPolicy ∨ kind = .admissionPolicyGroup then
        checkRulesArrayForWildcardUsage rule ruleField
      else []

def validateRulesField (policy : Policy) : List FieldError :=
  let rulesField := specPath.child "rules"
  if policy.getRules.isEmpty then [.required rulesField "a value must be specified"]
  else policy.getRules.zipIdx.flatMap fun (rule, i) =>
    validateRule policy.kind (rulesField.index i) rule

/-! ## Match conditions -/

def maxMatchConditionsCount : ℕ := 64

def convertCELErrorToValidationError (path : FieldPath) (expression : String) :
    CelErrorType × String → FieldError
  | (.required, detail) => .required path detail
  | (.invalid, detail) => .invalid path (.string expression) detail
  | (.internal, detail) => .internalError path detail
  | (.unsupported, detail) => .internalError path ("unsupported error type: " ++ detail)

def validateMatchCondition (lib : ValidationLib) (v : MatchCondition)
    (path : FieldPath) : List FieldError :=
  let trimmedExpression := RustStr.trim v.expression
  (if trimmedExpression = "" then [.required (path.child "expression") ""]
    else (lib.compileMatchCondition trimmedExpression).toList.map
      (convertCELErrorToValidationError (path.child "expression") trimmedExpression))
    ++ if v.name = "" then [.required (path.child "name") ""]
      else (lib.isQualifiedName v.name).map (FieldError.invalid path (.string v.name))

def validateConditionsFrom (lib : ValidationLib) (path : FieldPath) :
    List String → ℕ → List MatchCondition → List FieldError
  | _, _, [] => []
  | seen, i, v :: rest =>
    validateMatchCondition lib v (path.index i) ++ (if v.name ≠ "" ∧ v.name ∈ seen then
        [.duplicate ((path.index i).child "name") (.string v.name)] else [])
      ++ validateConditionsFrom lib path (if v.name ≠ "" then v.name :: seen else seen) (i + 1) rest

def validateMatchConditions (lib : ValidationLib) (m : List MatchCondition)
    (path : FieldPath) : List FieldError :=
  (if m.length > maxMatchConditionsCount then
      [.tooMany path m.length maxMatchConditionsCount] else [])
    ++ validateConditionsFrom lib path [] 0 m

/-! ## Timeouts and names -/

def validateTimeoutSeconds (policy : Policy) : List FieldError :=
  match policy.getTimeoutSeconds, policy.getTimeoutEvalSeconds with
  | some timeout, some timeoutEval =>
    if timeout.seconds < timeoutEval.seconds then
      [.invalid (specPath.child "timeoutEvalSeconds") (.number timeoutEval.seconds.toInt)
        "timeoutEvalSeconds cannot be greater than timeoutSeconds"]
    else []
  | _, _ => []

def webhookNameSuffix : String := ".kubewarden.admission"

def dns1123SubdomainMaxLength : ℕ := 253

def validateUniqueNameLength (policy : Policy) : Option FieldError :=
  let webhookName := policy.getUniqueName ++ webhookNameSuffix
  if webhookName.utf8ByteSize ≤ dns1123SubdomainMaxLength then none
  else
    let maxNameLength : ℤ := dns1123SubdomainMaxLength
      - webhookNameSuffix.utf8ByteSize - policy.getUniqueName.utf8ByteSize
      + policy.getName.utf8ByteSize
    some (.invalid ((FieldPath.root "metadata").child "name") (.string policy.getName)
      ("the policy name combined with its namespace and kind produces an "
        ++ "identity that is too long ("
        ++ toString webhookName.utf8ByteSize ++ " characters, max "
        ++ toString dns1123SubdomainMaxLength
        ++ "); the name must be at most " ++ toString maxNameLength
        ++ " characters long"))

/-! ## Policies -/

def validatePolicyServerField (oldPolicy newPolicy : Policy) : Option FieldError :=
  if oldPolicy.getPolicyServer ≠ newPolicy.getPolicyServer then
    some (.forbidden (specPath.child "policyServer") "the field is immutable")
  else none

def validatePolicyModeField (oldPolicy newPolicy : Policy) : Option FieldError :=
  if oldPolicy.getPolicyMode = .protect ∧ newPolicy.getPolicyMode = .monitor
  then some (.forbidden (specPath.child "mode") ("field cannot transition from "
    ++ "protect to monitor. Recreate instead."))
  else none

def validatePolicyCreate (lib : ValidationLib) (policy : Policy) : List FieldError :=
  validateRulesField policy ++ validateMatchConditions lib policy.getMatchConditions
    (specPath.child "matchConditions")
    ++ validateTimeoutSeconds policy
    ++ (validateUniqueNameLength policy).toList

def validatePolicyUpdate (lib : ValidationLib) (oldPolicy newPolicy : Policy) : List FieldError :=
  validateRulesField newPolicy ++ validateMatchConditions lib newPolicy.getMatchConditions
    (specPath.child "matchConditions")
    ++ validateTimeoutSeconds newPolicy
    ++ (validatePolicyServerField oldPolicy newPolicy).toList
    ++ (validatePolicyModeField oldPolicy newPolicy).toList

/-! ## Groups -/

abbrev Members := HashMap String PolicyGroupMemberWithContext

def celReservedSymbols : List String :=
  ["true", "false", "null", "in", "as", "break", "const", "continue", "else",
    "for", "function", "if", "import", "let", "loop", "package", "namespace",
    "return", "var", "void", "while"]

def isIdentifierStart (c : Char) : Bool := c = '_' || c.isAlpha

def isIdentifierRest (c : Char) : Bool := isIdentifierStart c || c.isDigit

def isIdentifier (s : String) : Bool :=
  match s.toList with
  | [] => false
  | c :: rest => isIdentifierStart c && rest.all isIdentifierRest

def validatePolicyGroupMembers (members : Members) : List FieldError :=
  let path := specPath.child "policies"
  (if members.entries.length = 0 then
      [.required path "policy groups must have at least one policy member"]
    else [])
    ++ members.entries.filterMap fun e =>
      if e.1 = "" ∨ e.1 ∈ celReservedSymbols ∨ isIdentifier e.1 = false then
        some (.invalid path (.string e.1) "policy group member name is invalid")
      else none

def maxWebhookTimeoutSeconds : Int32 := 30

/-- The checks of the timeout of a member. -/
def validateMemberTimeout (groupTimeout : Option Timeout) (name : String)
    (timeoutEval : Int32) : List FieldError :=
  let path := ((specPath.child "policies").key name).child "timeoutEvalSeconds"
  (if maxWebhookTimeoutSeconds < timeoutEval then
      [.invalid path (.number timeoutEval.toInt) ("timeoutEvalSeconds cannot be greater than "
        ++ toString maxWebhookTimeoutSeconds.toInt
        ++ " (Kubernetes webhook max timeout)")]
    else [])
    ++ match groupTimeout with
      | some timeout =>
        if timeout.seconds < timeoutEval then
          [.invalid path (.number timeoutEval.toInt)
            ("timeoutEvalSeconds cannot be greater than group "
              ++ "timeoutSeconds (" ++ toString timeout.seconds.toInt
              ++ ")")]
        else []
      | none => []

/-- The checks of the timeouts of the members, one by one and together. -/
def validatePolicyGroupMembersTimeouts (groupTimeout : Option Timeout)
    (members : Members) : List FieldError :=
  let path := specPath.child "policies"
  let timeouts := members.entries.filterMap fun e =>
    e.2.timeoutEvalSeconds.map fun t => (e.1, t.seconds)
  -- the sum is a 32-bit one
  let sum := (timeouts.map Prod.snd).foldl (· + ·) (0 : Int32)
  timeouts.flatMap (fun (name, t) => validateMemberTimeout groupTimeout name t)
    ++ (match groupTimeout with
      | some timeout =>
        if timeout.seconds < sum then
          [.invalid path (.number sum.toInt)
            ("the sum of all members' timeoutEvalSeconds cannot be greater "
              ++ "than group timeoutSeconds ("
              ++ toString timeout.seconds.toInt ++ ")")]
        else []
      | none => [])
    ++ if maxWebhookTimeoutSeconds < sum then
        [.invalid path (.number sum.toInt)
          ("the sum of all members' timeoutEvalSeconds cannot be greater "
            ++ "than " ++ toString maxWebhookTimeoutSeconds.toInt
            ++ " (Kubernetes webhook max timeout)")]
      else []

def validatePolicyGroupExpressionField (lib : ValidationLib)
    (members : Members) (expression : String) : Option FieldError :=
  let path := specPath.child "expression"
  if expression = "" then some (.required path "must be non-empty")
  else match lib.compileExpression members.keys expression with
  | .error (.environment msg) =>
    some (.internalError path ("error creating CEL environment: " ++ msg))
  | .error (.compilation msg) =>
    some (.invalid path (.string expression) ("compilation failed: " ++ msg))
  | .ok false => some (.invalid path (.string expression) "must evaluate to bool")
  | .ok true => none

def validatePolicyGroupMessageField (message : String) : Option FieldError :=
  if message = "" then some (.required (specPath.child "message") "must be non-empty")
  else none

def validateGroupFields (lib : ValidationLib) (policy : Policy)
    (members : Members) (expression : String) : List FieldError :=
  validatePolicyGroupMembers members
    ++ validatePolicyGroupMembersTimeouts policy.getTimeoutSeconds members
    ++ (validatePolicyGroupExpressionField lib members expression).toList
    ++ (validatePolicyGroupMessageField policy.getMessage).toList

def validatePolicyGroupCreate (lib : ValidationLib) (policyGroup : Policy)
    (members : Members) (expression : String) : List FieldError :=
  validatePolicyCreate lib policyGroup ++ validateGroupFields lib policyGroup members expression

def validatePolicyGroupUpdate (lib : ValidationLib) (oldPolicyGroup newPolicyGroup : Policy)
    (members : Members) (expression : String) : List FieldError :=
  validatePolicyUpdate lib oldPolicyGroup newPolicyGroup
    ++ validateGroupFields lib newPolicyGroup members expression

/-! ## The webhook -/

def validateCreate (lib : ValidationLib) (policy : Policy) : List FieldError :=
  match policy.policyGroup with
  | some (members, expression) => validatePolicyGroupCreate lib policy members expression
  | none => validatePolicyCreate lib policy

def validateUpdate (lib : ValidationLib) (oldPolicy newPolicy : Policy) : List FieldError :=
  match newPolicy.policyGroup with
  | some (members, expression) =>
    validatePolicyGroupUpdate lib oldPolicy newPolicy members expression
  | none => validatePolicyUpdate lib oldPolicy newPolicy

theorem validateGroupFields_of_create {lib : ValidationLib} {policy : Policy} {members : Members}
    {expression : String} (hgroup : policy.policyGroup = some (members, expression))
    (h : validateCreate lib policy = []) :
    validateGroupFields lib policy members expression = [] := by
  unfold validateCreate at h
  rw [hgroup] at h
  exact (List.append_eq_nil_iff.1 h).2

theorem members_ne_nil_of_create {lib : ValidationLib} {policy : Policy} {members : Members}
    {expression : String} (hgroup : policy.policyGroup = some (members, expression))
    (h : validateCreate lib policy = []) : members.entries ≠ [] := by
  intro hnil
  have hfields := validateGroupFields_of_create hgroup h
  unfold validateGroupFields at hfields
  rw [List.append_eq_nil_iff, List.append_eq_nil_iff, List.append_eq_nil_iff] at hfields
  have hmembers := hfields.1.1.1
  unfold validatePolicyGroupMembers at hmembers
  rw [hnil] at hmembers
  exact absurd hmembers (by simp)

end PoliciesV1
