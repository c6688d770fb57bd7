import AdmController.GroupEvaluator
import AdmController.ShortCircuit

/-!
# The expressions of policy groups

The response of a group, read off its expression as a formula over the members.
-/

open ShortCircuit (Expr)

namespace RhaiEval

/-! ## Evaluating boolean expressions -/

def ofExprThen : Expr String → (Bool → RhaiEval) → RhaiEval
  | .call name, next => .call name next
  | .not e, next => ofExprThen e (fun a => next !a)
  | .and a b, next => ofExprThen a (fun x => if x then ofExprThen b next else next false)
  | .or a b, next => ofExprThen a (fun x => if x then next true else ofExprThen b next)

def ofExpr (e : Expr String) : RhaiEval := ofExprThen e (fun a => .done (.ok a))

variable (answer : String → Option Bool)

def outcomeThen (first : Option Bool × List String) (next : Bool → RhaiEval) :
    Option Bool × List String :=
  match first.1 with
  | some a => (((next a).outcome answer).1, first.2 ++ ((next a).outcome answer).2)
  | none => (none, first.2)

theorem outcomeThen_both {answer : String → Option Bool} {decides : Bool}
    {first second : Option Bool × List String} {rest next : Bool → RhaiEval}
    (hstop : rest decides = next decides)
    (hgo : (rest !decides).outcome answer = outcomeThen answer second next) :
    outcomeThen answer first rest = outcomeThen answer (Expr.both decides first second) next := by
  obtain ⟨result, called⟩ := first
  cases result with
  | none => rfl
  | some a =>
    by_cases ha : a = decides
    · simp [outcomeThen, Expr.both, ha, hstop]
    · obtain rfl : a = !decides := by cases a <;> cases decides <;> simp_all
      show (((rest !decides).outcome answer).1, called ++ ((rest !decides).outcome answer).2) = _
      rw [hgo]
      cases hsecond : second.1 with
      | none => simp [outcomeThen, Expr.both, hsecond]
      | some b => simp [outcomeThen, Expr.both, hsecond]

theorem outcome_ofExprThen (e : Expr String) :
    ∀ next, (ofExprThen e next).outcome answer = outcomeThen answer (e.eval answer) next := by
  induction e with
  | call name =>
    intro next
    unfold ofExprThen outcome outcomeThen Expr.eval
    cases answer name with
    | none => rfl
    | some a => rfl
  | not e ih =>
    intro next
    rw [ofExprThen, ih]
    unfold outcomeThen
    rw [Expr.eval]
    cases (e.eval answer).1 with
    | none => rfl
    | some a => rfl
  | and a b iha ihb =>
    intro next
    rw [ofExprThen, iha]
    exact outcomeThen_both rfl (ihb next)
  | or a b iha ihb =>
    intro next
    rw [ofExprThen, iha]
    exact outcomeThen_both rfl (ihb next)

theorem outcome_ofExpr (e : Expr String) : (ofExpr e).outcome answer = e.eval answer := by
  rw [ofExpr, outcome_ofExprThen]
  obtain ⟨result, called⟩ := e.eval answer
  cases result with
  | none => rfl
  | some a => simp [outcomeThen, outcome, Except.toOption]

end RhaiEval

namespace PolicyGroupEvaluator

variable {M : Type} (engine : Engine M)

/-! ## What a member has answered -/

def memberResult (g : PolicyGroupEvaluator M) (request : ValidateRequest)
    (name : String) : Option PolicyGroupMemberEvaluationResult :=
  (g.memberEvaluator engine name).toOption.map (fun m =>
    let response := engine.validate m.1 request m.2
    if response.patch.isSome then ⟨false, some "mutation is not allowed inside of policy group"⟩
    else ⟨response.allowed, response.status.bind (·.message)⟩)

variable {engine} {g : PolicyGroupEvaluator M} {request : ValidateRequest}

theorem callMember_snd (name : String) (e : Evaluation) : (g.callMember engine request name e).2
    = (g.memberResult engine request name).elim e (e.record name) := by
  unfold callMember memberResult
  by_cases hmem : name ∈ g.policyMembers
  · rw [if_pos hmem]
    cases g.memberEvaluator engine name with
    | error err => rfl
    | ok m =>
      obtain ⟨evaluator, settings⟩ := m
      show (if _ then _ else _ : Except String Bool × Evaluation).2
        = e.record name (if _ then _ else _)
      split
      · rfl
      · rfl
  · rw [if_neg hmem]
    cases hmember : g.memberEvaluator engine name with
    | error err => rfl
    | ok m => exact absurd (mem_of_memberEvaluator hmember) hmem

theorem answer_eq_map_memberResult (name : String) : g.answer engine request name
    = (g.memberResult engine request name).map (·.allowed) := by
  unfold answer memberResult
  cases g.memberEvaluator engine name with
  | error err => rfl
  | ok m =>
    show some (_ && _) = some (if _ then _ else _ : PolicyGroupMemberEvaluationResult).allowed
    cases (engine.validate m.1 request m.2).patch with
    | none => rfl
    | some patch => rfl

/-- **What has been kept**: the results of the members that have been run. -/
def Recorded (engine : Engine M) (g : PolicyGroupEvaluator M)
    (request : ValidateRequest) (e : Evaluation) : Prop :=
  ∀ name, e.results.lookup name = if name ∈ e.log then g.memberResult engine request name else none

theorem Recorded.callMember {e : Evaluation} (h : g.Recorded engine request e) (name : String) :
    g.Recorded engine request (g.callMember engine request name e).2 := by
  rw [callMember_snd]
  cases hresult : g.memberResult engine request name with
  | none => exact h
  | some result =>
    intro name'
    show (e.results.insert name result).lookup name' = if name' ∈ e.log ++ [name]
      then g.memberResult engine request name' else none
    by_cases hname : name' = name
    · subst hname
      simp [hresult]
    · rw [AList.lookup_insert_ne hname, h name']
      simp [hname]

theorem recorded_evalExpression (engine : Engine M)
    (g : PolicyGroupEvaluator M) (request : ValidateRequest) :
    g.Recorded engine request (g.evalExpression engine request).2 := by
  refine RhaiEval.run_invariant (fun name e h => h.callMember name) _ ?_
  intro name
  simp

/-! ## Causes -/

def causeField (name : String) : Option String := some ("spec.policies." ++ name)

theorem statusCauses_fields {results : HashMap String PolicyGroupMemberEvaluationResult} :
    ((g.statusCauses results).map (·.field)).Nodup
      ∧ ∀ field, field ∈ (g.statusCauses results).map (·.field) ↔ ∃ name ∈ g.policyMembers,
        (results.lookup name).map (·.allowed) = some false
        ∧ field = causeField name := by
  have hfields : (g.statusCauses results).map (·.field) = (g.policyMembers.keys.filter (fun name =>
          (results.lookup name).map (·.allowed) = some false)).map causeField := by
    unfold statusCauses
    induction g.policyMembers.keys with
    | nil => rfl
    | cons name names ih =>
      rw [List.filterMap_cons, List.filter_cons]
      cases results.lookup name with
      | none => exact ih
      | some result =>
        cases hallowed : result.allowed with
        | true => simpa [hallowed] using ih
        | false => simpa [hallowed, causeField] using ih
  have hinj : Function.Injective causeField := by
    intro a b h
    exact String.append_right_inj _ |>.1 (Option.some.inj h)
  rw [hfields]
  refine ⟨(g.policyMembers.nodupKeys.filter _).map hinj, fun field => ?_⟩
  simp only [List.mem_map, List.mem_filter, decide_eq_true_eq, AList.mem_keys, and_assoc]
  exact exists_congr fun name => and_congr_right fun _ =>
    and_congr_right fun _ => eq_comm

/-! ## The response, read off the expression -/

theorem answer_of_memberEvaluator {name : String} {evaluator : PolicyEvaluator M}
    {settings : PolicySettings} (h : g.memberEvaluator engine name = .ok (evaluator, settings)) :
    g.answer engine request name = some ((engine.validate evaluator request settings).patch.isNone
      && (engine.validate evaluator request settings).allowed) := by
  unfold answer
  rw [h]
  rfl

theorem answer_eq_none_iff {name : String} : g.answer engine request name = none
    ↔ ∃ err, g.memberEvaluator engine name = .error err := by
  unfold answer
  cases g.memberEvaluator engine name with
  | error err => simp [Except.toOption]
  | ok m => simp [Except.toOption]

theorem validate_of_ok {allowed : Bool} {evaluation : Evaluation}
    (h : g.evalExpression engine request = (.ok allowed, evaluation)) :
    g.validate engine request
      = { uid := request.uid
          allowed := allowed
          patchType := none
          patch := none
          status := if allowed then none
            else some
              { message := some g.message
                details := some { causes := g.statusCauses evaluation.results } }
          auditAnnotations := none
          warnings := none } := by
  unfold validate validateLogged
  rw [h]

theorem validate_of_error {err : String} (h : (g.evalExpression engine request).1 = .error err) :
    g.validate engine request = .reject request.uid
      ("error evaluating policy group expression: " ++ err) 500 := by
  unfold validate validateLogged
  cases hrun : g.evalExpression engine request with
  | mk result evaluation =>
    rw [hrun] at h
    cases h
    rfl

theorem validate_no_patch (engine : Engine M) (g : PolicyGroupEvaluator M)
    (request : ValidateRequest) :
    (g.validate engine request).uid = request.uid ∧ (g.validate engine request).patch = none
      ∧ (g.validate engine request).patchType = none := by
  cases hrun : g.evalExpression engine request with
  | mk result evaluation =>
    cases result with
    | ok allowed =>
      rw [validate_of_ok hrun]
      exact ⟨rfl, rfl, rfl⟩
    | error err =>
      rw [validate_of_error (congrArg Prod.fst hrun)]
      exact ⟨rfl, rfl, rfl⟩

section

variable {e : Expr String} {v : String → Bool}
  (hrhai : engine.rhai g.policyMembers.keys.toFinset g.expression = .ofExpr e)
  (hv : ∀ name evaluator settings, g.memberEvaluator engine name = .ok (evaluator, settings) →
    (v name = true ↔ (engine.validate evaluator request settings).allowed = true
      ∧ (engine.validate evaluator request settings).patch = none))

include hv in
theorem value_eq_of_answer {name : String} {a : Bool}
    (h : g.answer engine request name = some a) : v name = a := by
  cases hmember : g.memberEvaluator engine name with
  | error err =>
    rw [answer_eq_none_iff.2 ⟨err, hmember⟩] at h
    cases h
  | ok m =>
    obtain ⟨evaluator, settings⟩ := m
    rw [answer_of_memberEvaluator hmember] at h
    obtain rfl := Option.some.inj h
    rw [Bool.eq_iff_iff, hv name evaluator settings hmember,
      Bool.and_eq_true, Option.isNone_iff_eq_none]
    exact and_comm

include hrhai hv in
theorem evalExpression_of_ok
    (h : ∀ name ∈ e.calls v, ∃ member, g.memberEvaluator engine name = .ok member) :
    ∃ evaluation, g.evalExpression engine request = (.ok (e.value v), evaluation)
      ∧ evaluation.log = e.calls v := by
  have hanswers : ∀ name ∈ e.calls v, (g.answer engine request name).isSome := by
    intro name hname
    obtain ⟨⟨evaluator, settings⟩, hmember⟩ := h name hname
    rw [answer_of_memberEvaluator hmember]
    rfl
  obtain ⟨hresult, hlog⟩ := g.evalExpression_spec engine request
  rw [hrhai, RhaiEval.outcome_ofExpr, Expr.eval_eq (fun name a => value_eq_of_answer hv) hanswers]
    at hresult hlog
  cases hrun : g.evalExpression engine request with
  | mk result evaluation =>
    rw [hrun] at hresult hlog
    cases result with
    | error err => cases hresult
    | ok allowed =>
      cases hresult
      exact ⟨evaluation, rfl, hlog⟩

include hrhai hv in
theorem evalExpression_of_error
    (h : ∃ name ∈ e.calls v, ∃ err, g.memberEvaluator engine name = .error err) :
    ∃ err, (g.evalExpression engine request).1 = .error err := by
  have hnone : ∃ name ∈ e.calls v, g.answer engine request name = none := by
    obtain ⟨name, hname, herr⟩ := h
    exact ⟨name, hname, answer_eq_none_iff.2 herr⟩
  obtain ⟨hresult, -⟩ := g.evalExpression_spec engine request
  rw [hrhai, RhaiEval.outcome_ofExpr, Expr.eval_fst_eq_none
    (fun name a => value_eq_of_answer hv) hnone] at hresult
  cases hrun : (g.evalExpression engine request).1 with
  | error err => exact ⟨err, rfl⟩
  | ok allowed =>
    rw [hrun] at hresult
    cases hresult

include hv in
theorem mem_causes_iff {evaluation : Evaluation} (hrecorded : g.Recorded engine request evaluation)
    (hlog : evaluation.log = e.calls v)
    (h : ∀ name ∈ e.calls v, ∃ member, g.memberEvaluator engine name = .ok member)
    (field : Option String) :
    field ∈ (g.statusCauses evaluation.results).map (·.field) ↔ ∃ name ∈ e.calls v, v name = false
      ∧ field = some ("spec.policies." ++ name) := by
  rw [statusCauses_fields.2]
  have hlookup : ∀ name, (evaluation.results.lookup name).map (·.allowed)
      = if name ∈ e.calls v then g.answer engine request name else none := by
    intro name
    rw [hrecorded name, hlog, answer_eq_map_memberResult]
    split
    · rfl
    · rfl
  constructor
  · rintro ⟨name, -, hfalse, rfl⟩
    rw [hlookup, Option.ite_none_right_eq_some] at hfalse
    exact ⟨name, hfalse.1, value_eq_of_answer hv hfalse.2, rfl⟩
  · rintro ⟨name, hname, hfalse, rfl⟩
    obtain ⟨⟨evaluator, settings⟩, hmember⟩ := h name hname
    have hanswer : g.answer engine request name = some _ := answer_of_memberEvaluator hmember
    refine ⟨name, mem_of_memberEvaluator hmember, ?_, rfl⟩
    rw [hlookup, if_pos hname, hanswer, ← value_eq_of_answer hv hanswer, hfalse]

end

/-- **A group answers as its expression says**, with the `uid` of the request
and no patch. Members are valued by whether they allow the request without a
patch; the causes of a rejection name those that are valued `false`, once. When
the evaluator of a called member cannot be made, the code is 500. -/
theorem validate_of_expr (engine : Engine M) (g : PolicyGroupEvaluator M)
    (request : ValidateRequest) (e : Expr String)
    (hrhai : engine.rhai g.policyMembers.keys.toFinset g.expression = .ofExpr e) (v : String → Bool)
    (hv : ∀ name evaluator settings, g.memberEvaluator engine name = .ok (evaluator, settings) →
      (v name = true ↔ (engine.validate evaluator request settings).allowed = true
        ∧ (engine.validate evaluator request settings).patch = none)) :
    (g.validate engine request).uid = request.uid ∧ (g.validate engine request).patch = none
      ∧ (g.validate engine request).patchType = none
      ∧ ((∀ name ∈ e.calls v, ∃ member, g.memberEvaluator engine name = .ok member) →
          ((g.validate engine request).allowed = true ↔ e.value v = true)
          ∧ ((g.validate engine request).allowed = false →
              ∃ causes, (g.validate engine request).status
                = some { message := some g.message, details := some { causes := causes } }
                ∧ (causes.map (·.field)).Nodup
                ∧ ∀ field, field ∈ causes.map (·.field) ↔ ∃ name ∈ e.calls v, v name = false
                  ∧ field = some ("spec.policies." ++ name)))
      ∧ ((∃ name ∈ e.calls v, ∃ err, g.memberEvaluator engine name = .error err) →
          (g.validate engine request).allowed = false
            ∧ ((g.validate engine request).status.bind (·.code)) = some 500) := by
  obtain ⟨huid, hpatch, hpatchType⟩ := g.validate_no_patch engine request
  refine ⟨huid, hpatch, hpatchType, fun h => ?_, fun h => ?_⟩
  · obtain ⟨evaluation, hrun, hlog⟩ := evalExpression_of_ok hrhai hv h
    have hrecorded : g.Recorded engine request evaluation := by
      have hend := recorded_evalExpression engine g request
      rwa [hrun] at hend
    rw [validate_of_ok hrun]
    refine ⟨.rfl, fun hrejected => ⟨g.statusCauses evaluation.results, ?_,
      statusCauses_fields.1, mem_causes_iff hv hrecorded hlog h⟩⟩
    show (if e.value v then none else _) = _
    rw [show e.value v = false from hrejected]
    rfl
  · obtain ⟨err, herr⟩ := evalExpression_of_error hrhai hv h
    rw [validate_of_error herr]
    exact ⟨rfl, rfl⟩

def oneMember (expression : String) : PolicyGroupEvaluator (List UInt8) :=
  (new "group" "rejected by the group" expression).addPolicyMember "a"
    ⟨[], .wasi, none⟩ ⟨[], .empty, none, .denyAll⟩

def rejecting (e : Expr String) : Engine (List UInt8) :=
  (Engine.plain (fun _ _ => true) (fun _ _ => .ofExpr e)).withGuests
    (fun _ request _ => .reject request.uid "not allowed" 403)

theorem validate_of_expr_called_twice : ((oneMember "a() || a()").validate
        (rejecting (.or (.call "a") (.call "a"))) (.raw .null)).allowed = false
      ∧ ∃ causes, ((oneMember "a() || a()").validate
        (rejecting (.or (.call "a") (.call "a"))) (.raw .null)).status
        = some { message := some "rejected by the group"
                 details := some { causes := causes } }
        ∧ (causes.map (·.field)).Nodup
        ∧ some "spec.policies.a" ∈ causes.map (·.field) := by
  have hspec := validate_of_expr (rejecting (.or (.call "a") (.call "a")))
    (oneMember "a() || a()") (.raw .null) (.or (.call "a") (.call "a")) rfl
    (fun _ => false) (fun _ _ _ _ => by simp [rejecting, Engine.withGuests,
      AdmissionResponse.reject])
  have hall : ∀ name ∈ (Expr.or (.call "a") (.call "a")).calls
      (fun _ => false), ∃ member, (oneMember "a() || a()").memberEvaluator
        (rejecting (.or (.call "a") (.call "a"))) name = .ok member := by
    intro name hname
    obtain rfl : name = "a" := by simpa [Expr.calls, Expr.value] using hname
    exact ⟨_, rfl⟩
  have hrejected : ((oneMember "a() || a()").validate
    (rejecting (.or (.call "a") (.call "a"))) (.raw .null)).allowed
    = false := rfl
  obtain ⟨causes, hstatus, hnodup, hfields⟩ := (hspec.2.2.2.1 hall).2 hrejected
  exact ⟨hrejected, causes, hstatus, hnodup, (hfields _).2 ⟨"a", by simp [Expr.calls], rfl, rfl⟩⟩

/-! ## Expressions that pass the validation of the settings -/

theorem validate_ne_reject_iff (engine : Engine M)
    (g : PolicyGroupEvaluator M) (request : ValidateRequest) :
    (∀ err, g.validate engine request ≠ .reject request.uid
      ("error evaluating policy group expression: " ++ err) 500)
      ↔ (g.evalExpression engine request).1.toOption.isSome := by
  cases hrun : g.evalExpression engine request with
  | mk result evaluation =>
    cases result with
    | ok allowed =>
      rw [validate_of_ok hrun]
      refine iff_of_true (fun err h => ?_) rfl
      have hstatus := congrArg AdmissionResponse.status h
      cases allowed <;> simp [AdmissionResponse.reject] at hstatus
    | error err =>
      rw [validate_of_error (congrArg Prod.fst hrun)]
      exact iff_of_false (fun h => h err rfl) (by simp [Except.toOption])

section

variable (hvalid : (g.validateSettings engine).valid = true)

include hvalid in
theorem exists_memberEvaluator_of_valid {name : String} (hname : name ∈ g.policyMembers) :
    ∃ member, g.memberEvaluator engine name = .ok member := by
  have hsettings := ((g.validateSettings_spec engine).1 hvalid).1 name hname
  unfold validatePolicySettings at hsettings
  cases hmember : g.memberEvaluator engine name with
  | error err =>
    rw [hmember] at hsettings
    cases hsettings
  | ok member => exact ⟨member, rfl⟩

def answersBy (g : PolicyGroupEvaluator M) (v : String → Bool) (name : String) : Option Bool :=
  if name ∈ g.policyMembers then some (v name) else none

theorem policyId_of_memberEvaluator {name : String} {evaluator : PolicyEvaluator M}
    {settings : PolicySettings} (h : g.memberEvaluator engine name = .ok (evaluator, settings)) :
    evaluator.evalCtx.policyId = name := by
  unfold memberEvaluator at h
  split at h
  · cases h
  · split at h
    · cases h
    · split at h
      · cases h
      · rename_i hrehydrate
        cases h
        rw [PolicyEvaluatorPre.rehydrate_eq_ok engine hrehydrate]
        rfl

def following (v : String → Bool) (evaluator : PolicyEvaluator M)
    (request : ValidateRequest) (_ : PolicySettings) : AdmissionResponse where
  uid := request.uid
  allowed := v evaluator.evalCtx.policyId
  patchType := none
  patch := none
  status := none
  auditAnnotations := none
  warnings := none

variable {validate : PolicyEvaluator M → ValidateRequest → PolicySettings →
  AdmissionResponse} {v : String → Bool}

include hvalid in
theorem answer_eq_answersBy (h : ∀ name evaluator settings,
      g.memberEvaluator engine name = .ok (evaluator, settings) →
        ((validate evaluator request settings).patch.isNone
          && (validate evaluator request settings).allowed) = v name) :
    g.answer (engine.withGuests validate) request = g.answersBy v := by
  funext name
  unfold answersBy
  by_cases hname : name ∈ g.policyMembers
  · obtain ⟨⟨evaluator, settings⟩, hmember⟩ := exists_memberEvaluator_of_valid hvalid hname
    have hanswer : g.answer (engine.withGuests validate) request name
      = some _ := answer_of_memberEvaluator hmember
    rw [if_pos hname, hanswer]
    exact congrArg some (h name evaluator settings hmember)
  · rw [if_neg hname, answer_eq_none_iff]
    cases hmember : g.memberEvaluator (engine.withGuests validate) name with
    | error err => exact ⟨err, rfl⟩
    | ok member => exact absurd (mem_of_memberEvaluator hmember) hname

end

/-! ## Expressions that never fail -/

/-- What stands between the operators of an expression: a call, a Boolean, or
anything else, whose evaluation as an operand fails. -/
inductive Operand where
  | call (name : String)
  | bool (b : Bool)
  | other (error : String)

namespace Operand

variable {ν : Type}

/-- The operand has a Boolean value, given that the members are registered. -/
def known (members : HashMap String ν) : Operand → Bool
  | .call name => name ∈ members
  | .bool _ => true
  | .other _ => false

def value (v : String → Bool) : Operand → Bool
  | .call name => v name
  | .bool b => b
  | .other _ => false

def answer (answers : String → Option Bool) : Operand → Option Bool
  | .call name => answers name
  | .bool b => some b
  | .other _ => none

/-- Evaluate an expression from left to right, and go on with its value. -/
def evalThen : Expr Operand → (Bool → RhaiEval) → RhaiEval
  | .call (.call name), next => .call name next
  | .call (.bool b), next => next b
  | .call (.other error), _ => .done (.error error)
  | .not e, next => evalThen e (fun a => next !a)
  | .and a b, next => evalThen a (fun x => if x then evalThen b next else next false)
  | .or a b, next => evalThen a (fun x => if x then next true else evalThen b next)

/-- **An expression in the language of the policy server.** -/
def rhai (e : Expr Operand) : RhaiEval := evalThen e (fun a => .done (.ok a))

theorem outcome_evalThen (answers : String → Option Bool) (e : Expr Operand) :
    ∀ next, ((evalThen e next).outcome answers).1
      = (e.eval (answer answers)).1.bind fun a => ((next a).outcome answers).1 := by
  induction e with
  | call o =>
    intro next
    cases o with
    | call name =>
      simp only [evalThen, RhaiEval.outcome, Expr.eval, answer]
      cases answers name <;> rfl
    | bool b => rfl
    | other error => rfl
  | not e ih =>
    intro next
    rw [evalThen, ih, Expr.eval]
    cases (e.eval (answer answers)).1 <;> rfl
  | and a b iha ihb =>
    intro next
    rw [evalThen, iha, Expr.eval, Expr.both]
    rcases ha : a.eval (answer answers) with ⟨_ | _ | _, called⟩
    · rfl
    · rfl
    · exact ihb next
  | or a b iha ihb =>
    intro next
    rw [evalThen, iha, Expr.eval, Expr.both]
    rcases ha : a.eval (answer answers) with ⟨_ | _ | _, called⟩
    · rfl
    · exact ihb next
    · rfl

end Operand

/-- **An expression has a value** exactly if what is evaluated of it is known. -/
theorem outcome_isSome_iff (g : PolicyGroupEvaluator M) (e : Expr Operand) (v : String → Bool) :
    ((Operand.rhai e).outcome (g.answersBy v)).1.isSome
      ↔ ∀ o ∈ e.calls (Operand.value v), o.known g.policyMembers = true := by
  have hvalue : ∀ o a, Operand.answer (g.answersBy v) o = some a → Operand.value v o = a := by
    intro o a h
    cases o with
    | call name => exact (Option.ite_none_right_eq_some.1 h).2 |> Option.some.inj
    | bool b => exact Option.some.inj h
    | other error => cases h
  have hknown : ∀ o,
      (Operand.answer (g.answersBy v) o).isSome ↔ o.known g.policyMembers = true := by
    intro o
    cases o with
    | call name => simp [Operand.answer, Operand.known, answersBy]
    | bool b => simp [Operand.answer, Operand.known]
    | other error => simp [Operand.answer, Operand.known]
  rw [Operand.rhai, Operand.outcome_evalThen]
  by_cases hall : ∀ o ∈ e.calls (Operand.value v), o.known g.policyMembers = true
  · rw [Expr.eval_eq hvalue fun o ho => (hknown o).2 (hall o ho)]
    exact iff_of_true rfl hall
  · have hnone : ∃ o ∈ e.calls (Operand.value v), Operand.answer (g.answersBy v) o = none := by
      simp only [not_forall] at hall
      obtain ⟨o, ho, hunknown⟩ := hall
      exact ⟨o, ho, Option.not_isSome_iff_eq_none.1 fun h => hunknown ((hknown o).1 h)⟩
    rw [Expr.eval_fst_eq_none hvalue hnone]
    exact iff_of_false (by simp) hall

/-- An engine that reads every expression as the given one, and whose guests
reject everything. -/
def evaluating (e : Expr Operand) : Engine (List UInt8) :=
  (Engine.plain (fun _ _ => true) (fun _ _ => Operand.rhai e)).withGuests
    (fun _ request _ => .reject request.uid "not allowed" 403)

end PolicyGroupEvaluator
