import AdmController.PolicyEvaluator

/-!
# Evaluating a policy group

`PolicyGroupEvaluator` evaluates the expression of a policy group, whose
members are functions of the expression language: a call runs the member's
module on the request. Both are decided by the answers of the members
(`validateLogged_spec`).
-/

open Serde

inductive GroupEvaluationError where
  | evaluatorPreNotFound (id : String)
  | settingsNotFound (id : String)
  | settingsNotValid (msg : String)
  | cannotRehydratePolicyGroupMember (id e : String)
deriving DecidableEq

def GroupEvaluationError.text : GroupEvaluationError → String
  | .evaluatorPreNotFound id => "EvaluatorPre not found: " ++ id
  | .settingsNotFound id => "settings not found policy: " ++ id
  | .settingsNotValid msg => "settings not valid: " ++ msg
  | .cannotRehydratePolicyGroupMember id e => "Attempted to rehydrated policy '" ++ id ++ "': " ++ e

structure PolicyGroupMemberSettings where
  settings : PolicySettings
  ctxAwareResourcesAllowList : BTreeSet ContextAwareResource
  epochDeadline : Option ℕ
  hostCapabilities : HostCapabilities

structure PolicyGroupMemberEvaluationResult where
  allowed : Bool
  message : Option String
deriving DecidableEq

structure PolicyGroupEvaluator (M : Type) where
  (policyId message expression : String)
  policyMembers : HashMap String (PolicyEvaluatorPre M)
  policyMembersSettings : HashMap String PolicyGroupMemberSettings

namespace PolicyGroupEvaluator

variable {M : Type} (engine : Engine M)

def new (policyId message expression : String) : PolicyGroupEvaluator M where
  policyId := policyId
  message := message
  expression := expression
  policyMembers := ∅
  policyMembersSettings := ∅

def addPolicyMember (g : PolicyGroupEvaluator M) (name : String)
    (pre : PolicyEvaluatorPre M) (settings : PolicyGroupMemberSettings) :
    PolicyGroupEvaluator M :=
  { g with
    policyMembersSettings := g.policyMembersSettings.insert name settings
    policyMembers := g.policyMembers.insert name pre }

def memberContext (name : String) (settings : PolicyGroupMemberSettings) : EvaluationContext where
  policyId := name
  ctxAwareResourcesAllowList := settings.ctxAwareResourcesAllowList
  epochDeadline := settings.epochDeadline
  hostCapabilities := settings.hostCapabilities

def memberEvaluator (g : PolicyGroupEvaluator M) (name : String) :
    Except GroupEvaluationError (PolicyEvaluator M × PolicySettings) :=
  match g.policyMembers.lookup name with
  | none => .error (.evaluatorPreNotFound name)
  | some pre =>
    match g.policyMembersSettings.lookup name with
    | none => .error (.settingsNotFound name)
    | some settings =>
      match pre.rehydrate engine (memberContext name settings) with
      | .error e => .error (.cannotRehydratePolicyGroupMember name e)
      | .ok evaluator => .ok (evaluator, settings.settings)

theorem mem_of_memberEvaluator {g : PolicyGroupEvaluator M} {engine : Engine M}
    {name : String} {m : PolicyEvaluator M × PolicySettings}
    (h : g.memberEvaluator engine name = .ok m) : name ∈ g.policyMembers := by
  by_contra hnot
  unfold memberEvaluator at h
  rw [AList.lookup_eq_none.2 hnot] at h
  cases h

/-! ## Validation of a request -/

/-- What an evaluation keeps: the results of the members that were run. -/
structure Evaluation where
  results : HashMap String PolicyGroupMemberEvaluationResult
  log : List String

def Evaluation.record (e : Evaluation) (name : String)
    (result : PolicyGroupMemberEvaluationResult) : Evaluation :=
  ⟨e.results.insert name result, e.log ++ [name]⟩

def callMember (g : PolicyGroupEvaluator M) (request : ValidateRequest)
    (name : String) (e : Evaluation) : Except String Bool × Evaluation :=
  if name ∈ g.policyMembers then
    match g.memberEvaluator engine name with
    | .error err =>
      (.error (engine.rhaiSystemError ("error invoking " ++ g.policyId ++ "/" ++ name) err.text), e)
    | .ok (evaluator, settings) =>
      let response := engine.validate evaluator request settings
      if response.patch.isSome then
        (.ok false, e.record name ⟨false, some "mutation is not allowed inside of policy group"⟩)
      else
        (.ok response.allowed, e.record name ⟨response.allowed, response.status.bind (·.message)⟩)
  else (.error ("Function not found: " ++ name), e)

def statusCauses (g : PolicyGroupEvaluator M)
    (results : HashMap String PolicyGroupMemberEvaluationResult) :
    List StatusCause :=
  g.policyMembers.keys.filterMap (fun name =>
    match results.lookup name with
    | some result =>
      if result.allowed then none
      else some { field := some ("spec.policies." ++ name), message := result.message }
    | none => none)

def evalExpression (g : PolicyGroupEvaluator M) (request : ValidateRequest) :
    Except String Bool × Evaluation :=
  (engine.rhai g.policyMembers.keys.toFinset g.expression).run (g.callMember engine request) ⟨∅, []⟩

def validateLogged (g : PolicyGroupEvaluator M) (request : ValidateRequest) :
    AdmissionResponse × List String :=
  match g.evalExpression engine request with
  | (.error e, evaluation) =>
    (AdmissionResponse.reject request.uid ("error evaluating policy group expression: " ++ e) 500,
      evaluation.log)
  | (.ok allowed, evaluation) =>
    ({ uid := request.uid
       allowed := allowed
       patchType := none
       patch := none
       status := if allowed then none
         else some
           { message := some g.message
             details := some { causes := g.statusCauses evaluation.results } }
       auditAnnotations := none
       warnings := none }, evaluation.log)

def answer (g : PolicyGroupEvaluator M) (request : ValidateRequest) (name : String) : Option Bool :=
  (g.memberEvaluator engine name).toOption.map (fun m =>
    let response := engine.validate m.1 request m.2
    response.patch.isNone && response.allowed)

variable (g : PolicyGroupEvaluator M)

theorem callMember_spec (request : ValidateRequest) (name : String) (e : Evaluation) :
    (g.callMember engine request name e).1.toOption = g.answer engine request name
      ∧ (g.callMember engine request name e).2.log
        = e.log ++ if (g.answer engine request name).isSome then [name] else [] := by
  unfold callMember answer
  by_cases hmem : name ∈ g.policyMembers
  · rw [if_pos hmem]
    cases g.memberEvaluator engine name with
    | error err => exact ⟨rfl, (List.append_nil _).symm⟩
    | ok m =>
      obtain ⟨evaluator, settings⟩ := m
      show Except.toOption (if _ then _ else _ : _ × Evaluation).1
        = some ((engine.validate evaluator request settings).patch.isNone
          && (engine.validate evaluator request settings).allowed)
        ∧ (if _ then _ else _ : Except String Bool × Evaluation).2.log = _
      cases (engine.validate evaluator request settings).patch with
      | none => exact ⟨rfl, rfl⟩
      | some patch => exact ⟨rfl, rfl⟩
  · have hnone : g.policyMembers.lookup name = none := AList.lookup_eq_none.2 hmem
    rw [if_neg hmem]
    unfold memberEvaluator
    rw [hnone]
    exact ⟨rfl, (List.append_nil _).symm⟩

theorem evalExpression_spec (g : PolicyGroupEvaluator M) (request : ValidateRequest) :
    let outcome := (engine.rhai g.policyMembers.keys.toFinset
      g.expression).outcome (g.answer engine request)
    (g.evalExpression engine request).1.toOption = outcome.1
      ∧ (g.evalExpression engine request).2.log = outcome.2 := by
  intro outcome
  constructor
  · exact RhaiEval.run_fst (fun name e => (g.callMember_spec engine request name e).1) _ _
  · exact RhaiEval.run_log (fun name e => (g.callMember_spec engine request name e).1)
      Evaluation.log
      (fun name e => (g.callMember_spec engine request name e).2) _ _

theorem validateLogged_spec (g : PolicyGroupEvaluator M) (request : ValidateRequest) :
    let outcome := (engine.rhai g.policyMembers.keys.toFinset
      g.expression).outcome (g.answer engine request)
    ((g.validateLogged engine request).1.allowed = true ↔ outcome.1 = some true)
      ∧ (g.validateLogged engine request).2 = outcome.2 := by
  intro outcome
  obtain ⟨hfst, hlog⟩ := g.evalExpression_spec engine request
  unfold validateLogged
  rw [← hfst]
  cases hrun : g.evalExpression engine request with
  | mk result evaluation =>
    rw [hrun] at hlog
    cases result with
    | error e => exact ⟨by simp [AdmissionResponse.reject, Except.toOption], hlog⟩
    | ok allowed => exact ⟨by simp [Except.toOption], hlog⟩

def validate (g : PolicyGroupEvaluator M) (request : ValidateRequest) : AdmissionResponse :=
  (g.validateLogged engine request).1

/-! ## Validation of the settings -/

def validatePolicySettings (g : PolicyGroupEvaluator M) (name : String) :
    Except GroupEvaluationError Unit :=
  match g.memberEvaluator engine name with
  | .error e => .error e
  | .ok (evaluator, settings) =>
    let response := engine.validateSettings evaluator settings
    if response.valid then .ok ()
    else .error (.settingsNotValid ("Policy settings are invalid: "
      ++ response.message.getD "no message"))

def evalAllTrue (g : PolicyGroupEvaluator M) : Except String Bool :=
  ((engine.rhai g.policyMembers.keys.toFinset g.expression).run
    (fun name u => if name ∈ g.policyMembers then (.ok true, u)
      else (.error ("Function not found: " ++ name), u)) ()).1

def settingsErrors (g : PolicyGroupEvaluator M) : List (String × String) :=
  g.policyMembers.keys.filterMap (fun name =>
      match g.validatePolicySettings engine name with
      | .ok () => none
      | .error e => some (g.policyId ++ "/" ++ name, e.text))
    ++ match g.evalAllTrue engine with
      | .ok _ => []
      | .error e => [(g.policyId, e)]

def validateSettings (g : PolicyGroupEvaluator M) : SettingsValidationResponse :=
  let errors := g.settingsErrors engine
  if errors.isEmpty then ⟨true, none⟩
  else ⟨false, some (String.intercalate ", " (errors.map (fun e => e.1 ++ ": " ++ e.2)))⟩

theorem evalAllTrue_spec : (g.evalAllTrue engine).toOption
    = ((engine.rhai g.policyMembers.keys.toFinset g.expression).outcome (fun name =>
          if name ∈ g.policyMembers then some true else none)).1 := by
  refine RhaiEval.run_fst (fun name u => ?_) _ ()
  by_cases h : name ∈ g.policyMembers
  · rw [if_pos h, if_pos h]
    rfl
  · rw [if_neg h, if_neg h]
    rfl

theorem validateSettings_spec :
    (g.validateSettings engine).valid = true ↔ (∀ name ∈ g.policyMembers,
          g.validatePolicySettings engine name = .ok ())
        ∧ (g.evalAllTrue engine).toOption.isSome := by
  show (ite _ _ _ : SettingsValidationResponse).valid = true ↔ _
  rw [apply_ite SettingsValidationResponse.valid, ite_eq_left_iff,
    imp_iff_not (by simp), not_not, List.isEmpty_iff]
  unfold settingsErrors
  rw [List.append_eq_nil_iff, List.filterMap_eq_nil_iff]
  refine and_congr (forall₂_congr fun name _ => ?_) ?_
  · cases g.validatePolicySettings engine name with
    | ok u => simp
    | error e => simp
  · cases g.evalAllTrue engine with
    | ok r => simp [Except.toOption]
    | error e => simp [Except.toOption]

end PolicyGroupEvaluator
