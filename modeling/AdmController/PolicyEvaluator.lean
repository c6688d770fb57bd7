import AdmController.AdmissionReview
import AdmController.PolicyConfig

/-!
# Evaluating a single policy

A compiled module with an execution mode is turned into a `PolicyEvaluatorPre`,
and for every evaluation a fresh `PolicyEvaluator` is made from it
(`rehydrate`), with the evaluation context of its policy.
-/

open Serde Except

/-- The ways in which a module can be run. -/
inductive PolicyExecutionMode where
  | kubewardenWapc | opa | opaGatekeeper | wasi | ferricel
deriving DecidableEq

structure SettingsValidationResponse where
  valid : Bool
  message : Option String
deriving DecidableEq

/-! ## The engine -/

structure EvaluationContext where
  policyId : String
  ctxAwareResourcesAllowList : BTreeSet ContextAwareResource
  epochDeadline : Option ℕ
  hostCapabilities : HostCapabilities

/-- A module with its execution mode and its memory limit baked in. -/
structure PolicyEvaluatorPre (M : Type) where
  module : M
  executionMode : PolicyExecutionMode
  memoryLimit : Option ℕ

structure PolicyEvaluator (M : Type) where
  pre : PolicyEvaluatorPre M
  evalCtx : EvaluationContext

/-- **The evaluation of an expression**: done, or at the call of a member. -/
inductive RhaiEval where
  | done (result : Except String Bool)
  | call (name : String) (next : Bool → RhaiEval)

/-- Third-party code: the runtime, the guests, and the expressions. -/
structure Engine (M : Type) where
  /-- Load a precompiled module. -/
  deserialize : List UInt8 → Except String M
  /-- The checks made when a module is pre-initialized in a given mode. -/
  (wapcStackPre wasiStackPre ferricelStackPre : M → Except String Unit)
  /-- The start-up code of waPC and Rego modules. -/
  (wapcNewFromPre regoNewFromPre : PolicyEvaluatorPre M → EvaluationContext → Except String Unit)
  /-- The guest code. -/
  validateSettings : PolicyEvaluator M → PolicySettings → SettingsValidationResponse
  validate : PolicyEvaluator M → ValidateRequest → PolicySettings → AdmissionResponse
  /-- Evaluate an expression, given the registered functions. -/
  rhai : Finset String → String → RhaiEval
  /-- The text of an error raised by a registered function. -/
  rhaiSystemError : String → String → String

variable {M : Type} (engine : Engine M)

def buildPre (module : M) (mode : PolicyExecutionMode)
    (memoryLimit : Option ℕ) : Except String (PolicyEvaluatorPre M) :=
  match mode with
  | .kubewardenWapc =>
    match engine.wapcStackPre module with
    | .ok () => .ok ⟨module, mode, memoryLimit⟩
    | .error e => .error ("error when building wapc precompiled stack: " ++ e)
  | .wasi =>
    match engine.wasiStackPre module with
    | .ok () => .ok ⟨module, mode, memoryLimit⟩
    | .error e => .error ("error when building wasi precompiled stack: " ++ e)
  | .opa => .ok ⟨module, mode, memoryLimit⟩
  | .opaGatekeeper => .ok ⟨module, mode, memoryLimit⟩
  | .ferricel =>
    match engine.ferricelStackPre module with
    | .ok () => .ok ⟨module, mode, memoryLimit⟩
    | .error e => .error ("error when building ferricel precompiled stack: " ++ e)

def PolicyEvaluatorPre.rehydrate (pre : PolicyEvaluatorPre M)
    (evalCtx : EvaluationContext) : Except String (PolicyEvaluator M) :=
  match pre.executionMode with
  | .kubewardenWapc =>
    match engine.wapcNewFromPre pre evalCtx with
    | .ok () => .ok ⟨pre, evalCtx⟩
    | .error e => .error ("unable to rehydrate wapc module: " ++ e)
  | .opa | .opaGatekeeper =>
    match engine.regoNewFromPre pre evalCtx with
    | .ok () => .ok ⟨pre, evalCtx⟩
    | .error e => .error ("unable to rehydrate rego module: " ++ e)
  | .wasi | .ferricel => .ok ⟨pre, evalCtx⟩

theorem buildPre_eq_ok {module : M} {mode : PolicyExecutionMode} {memoryLimit : Option ℕ}
    {pre : PolicyEvaluatorPre M} (h : buildPre engine module mode memoryLimit = .ok pre) :
    pre = ⟨module, mode, memoryLimit⟩ := by
  unfold buildPre at h
  cases mode with
  | opa => exact (ok.inj h).symm
  | opaGatekeeper => exact (ok.inj h).symm
  | _ =>
    simp only at h
    split at h
    · exact (ok.inj h).symm
    · cases h

theorem PolicyEvaluatorPre.rehydrate_eq_ok {pre : PolicyEvaluatorPre M}
    {evalCtx : EvaluationContext} {evaluator : PolicyEvaluator M}
    (h : pre.rehydrate engine evalCtx = .ok evaluator) :
    evaluator = ⟨pre, evalCtx⟩ := by
  unfold PolicyEvaluatorPre.rehydrate at h
  split at h
  · split at h
    · exact (ok.inj h).symm
    · cases h
  · split at h
    · exact (ok.inj h).symm
    · cases h
  · split at h
    · exact (ok.inj h).symm
    · cases h
  · exact (ok.inj h).symm
  · exact (ok.inj h).symm

variable (validate : PolicyEvaluator M → ValidateRequest → PolicySettings → AdmissionResponse)

def Engine.withGuests : Engine M := { engine with validate := validate }

theorem rehydrate_withGuests (pre : PolicyEvaluatorPre M) (evalCtx : EvaluationContext) :
    pre.rehydrate (engine.withGuests validate) evalCtx = pre.rehydrate engine evalCtx := rfl

/-! ## Running an expression -/

def RhaiEval.run {σ : Type} (callMember : String → σ → Except String Bool × σ) :
    RhaiEval → σ → Except String Bool × σ
  | .done result, s => (result, s)
  | .call name next, s =>
    match callMember name s with
    | (.ok answer, s') => (next answer).run callMember s'
    | (.error e, s') => (.error e, s')

/-- **What an expression does**, given the answers of the members: its result,
if any, and the members that were called. -/
def RhaiEval.outcome (answer : String → Option Bool) : RhaiEval → Option Bool × List String
  | .done result => (result.toOption, [])
  | .call name next =>
    match answer name with
    | some a => (((next a).outcome answer).1, name :: ((next a).outcome answer).2)
    | none => (none, [])

open RhaiEval

theorem RhaiEval.run_invariant {σ : Type} {callMember : String → σ → Except String Bool × σ}
    {I : σ → Prop} (hcall : ∀ name s, I s → I (callMember name s).2) (e : RhaiEval) {s : σ}
    (hs : I s) : I (e.run callMember s).2 := by
  induction e generalizing s with
  | done result => exact hs
  | call name next ih =>
    have hstep := hcall name s hs
    unfold run
    cases hresult : callMember name s with
    | mk result s' =>
      rw [hresult] at hstep
      cases result with
      | error e => exact hstep
      | ok a => exact ih a hstep

section

variable {σ : Type} {callMember : String → σ → Except String Bool × σ}
  {answer : String → Option Bool}
  (hanswer : ∀ name s, (callMember name s).1.toOption = answer name)

include hanswer in
theorem RhaiEval.run_fst (e : RhaiEval) (s : σ) :
    (e.run callMember s).1.toOption = (e.outcome answer).1 := by
  induction e generalizing s with
  | done result => rfl
  | call name next ih =>
    unfold run outcome
    rw [← hanswer name s]
    cases hcall : callMember name s with
    | mk result s' =>
      cases result with
      | error e => rfl
      | ok a => exact ih a s'

include hanswer in
theorem RhaiEval.run_log (log : σ → List String) (hlog : ∀ name s, log (callMember name s).2
      = log s ++ if (answer name).isSome then [name] else [])
    (e : RhaiEval) (s : σ) :
    log (e.run callMember s).2 = log s ++ (e.outcome answer).2 := by
  induction e generalizing s with
  | done result => exact (List.append_nil _).symm
  | call name next ih =>
    have hfst := hanswer name s
    have hsnd := hlog name s
    unfold run outcome
    cases hcall : callMember name s with
    | mk result s' =>
      rw [hcall] at hfst hsnd
      rw [← hfst] at hsnd ⊢
      cases result with
      | error e => exact hsnd
      | ok a =>
        rw [ih a s', show log s' = log s ++ [name] from hsnd, List.append_assoc]
        rfl

end

def Engine.plain (accepts : PolicyEvaluator (List UInt8) → PolicySettings → Bool)
    (rhai : Finset String → String → RhaiEval) : Engine (List UInt8) where
  deserialize := .ok
  wapcStackPre := fun _ => .ok ()
  wasiStackPre := fun _ => .ok ()
  ferricelStackPre := fun _ => .ok ()
  wapcNewFromPre := fun _ _ => .ok ()
  regoNewFromPre := fun _ _ => .ok ()
  validateSettings := fun evaluator settings =>
    ⟨accepts evaluator settings, none⟩
  validate := fun _ request _ =>
    { uid := request.uid
      allowed := true
      patchType := none
      patch := none
      status := none
      auditAnnotations := none
      warnings := none }
  rhai := rhai
  rhaiSystemError := fun msg e => msg ++ ": " ++ e

def Engine.trusting : Engine (List UInt8) := .plain (fun _ _ => true) (fun _ _ => .done (.ok true))
