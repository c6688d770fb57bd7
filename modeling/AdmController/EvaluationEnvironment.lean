import AdmController.GroupEvaluator

/-!
# The evaluation environment

`EvaluationEnvironment` holds modules, shared through the digest of the
compiled code; settings and grants; and the errors of initialization. A call
that ends in `unreachable!()` is a failure of its own (`Failure.panic`).
-/

structure PolicyEvaluationSettings where
  policyMode : PolicyMode
  allowedToMutate : Bool
  settings : PolicyOrPolicyGroupSettings
  customRejectionMessage : Option String
  timeoutEvalSeconds : Option ℕ

structure PrecompiledPolicy where
  precompiledModule : List UInt8
  executionMode : PolicyExecutionMode
  digest : String

abbrev PrecompiledPolicies := HashMap String (Except String PrecompiledPolicy)

def epochDeadlineFor (timeoutEvalSeconds globalLimit : Option ℕ) : Option ℕ :=
  globalLimit.map (fun global => timeoutEvalSeconds.getD global)

/-- Why a call does not return: an error, or `unreachable!()`. -/
inductive Failure where
  | error (e : EvaluationError)
  | panic
deriving DecidableEq

def raise {α : Type} (x : Except EvaluationError α) : Except Failure α := x.mapError .error

def orNotFound {α : Type} (id : PolicyID) (x : Option α) : Except EvaluationError α :=
  match x with
  | some a => .ok a
  | none => .error (.policyNotFound id.text)

structure EvaluationEnvironment (M : Type) where
  alwaysAcceptAdmissionReviewsOnNamespace : Option String
  moduleDigestToPolicyEvaluatorPre : HashMap String (PolicyEvaluatorPre M)
  policyIdToCtxAwareAllowedResources : HashMap PolicyID (BTreeSet ContextAwareResource)
  policyIdToHostCapabilities : HashMap PolicyID HostCapabilities
  policyIdToModuleDigest : HashMap PolicyID String
  policyIdToSettings : HashMap PolicyID PolicyEvaluationSettings
  policyInitializationErrors : HashMap PolicyID String
  policyGroups : Finset PolicyID
  (globalPolicyEvaluationLimitSeconds policyMemoryLimitBytes : Option ℕ)

section

variable {M : Type} (engine : Engine M)

/-! ## Making evaluators -/

def createWasmtimeModule (id : PolicyID) (p : PrecompiledPolicy) : Except EvaluationError M :=
  (engine.deserialize p.precompiledModule).mapError (fun e =>
    .webAssemblyError ("could not rehydrate wasmtime::Module " ++ id.text ++ ": " ++ e))

def createPolicyEvaluatorPre (module : M) (mode : PolicyExecutionMode) (memoryLimit : Option ℕ) :
    Except EvaluationError (PolicyEvaluatorPre M) :=
  (buildPre engine module mode memoryLimit).mapError (fun e =>
    .webAssemblyError ("cannot build PolicyEvaluatorPre " ++ e))

end

namespace EvaluationEnvironment

variable {M : Type} (engine : Engine M)

def shouldAlwaysAcceptRequestsMadeInsideOfNamespace
    (env : EvaluationEnvironment M) (ns : String) : Bool :=
  env.alwaysAcceptAdmissionReviewsOnNamespace == some ns

def getPolicySettings (env : EvaluationEnvironment M) (id : PolicyID) :
    Except EvaluationError PolicyEvaluationSettings :=
  orNotFound id (env.policyIdToSettings.lookup id)

def getPolicyMode (env : EvaluationEnvironment M) (id : PolicyID) :
    Except EvaluationError PolicyMode :=
  orNotFound id ((env.policyIdToSettings.lookup id).map (·.policyMode))

def getPolicyCustomRejectionMessage (env : EvaluationEnvironment M)
    (id : PolicyID) : Except EvaluationError (Option String) :=
  orNotFound id ((env.policyIdToSettings.lookup id).map (·.customRejectionMessage))

def getPolicyAllowedToMutate (env : EvaluationEnvironment M) (id : PolicyID) :
    Except EvaluationError Bool :=
  orNotFound id ((env.policyIdToSettings.lookup id).map (·.allowedToMutate))

def rehydrate (env : EvaluationEnvironment M) (id : PolicyID) :
    Except EvaluationError (PolicyEvaluator M) :=
  if id ∈ env.policyGroups then .error (.cannotRehydratePolicyGroup id.text)
  else do
    let moduleDigest ← orNotFound id (env.policyIdToModuleDigest.lookup id)
    let policySettings ← env.getPolicySettings id
    let pre ← orNotFound id (env.moduleDigestToPolicyEvaluatorPre.lookup moduleDigest)
    let ctxAwareResources ← orNotFound id (env.policyIdToCtxAwareAllowedResources.lookup id)
    (pre.rehydrate engine
      { policyId := id.text
        ctxAwareResourcesAllowList := ctxAwareResources
        epochDeadline := epochDeadlineFor policySettings.timeoutEvalSeconds
          env.globalPolicyEvaluationLimitSeconds
        hostCapabilities := (env.policyIdToHostCapabilities.lookup id).getD .denyAll }).mapError
      (fun e => .webAssemblyError ("cannot rehydrate PolicyEvaluatorPre: " ++ e))

/-- What a group evaluator is told about one of its members. -/
def groupMember (env : EvaluationEnvironment M) (group : PolicyID) (name : String) :
    Except Failure (PolicyEvaluatorPre M × PolicyGroupMemberSettings) := do
  let id := PolicyID.policyGroupPolicy group.text name
  let moduleDigest ← raise (orNotFound id (env.policyIdToModuleDigest.lookup id))
  let pre ← raise (orNotFound id (env.moduleDigestToPolicyEvaluatorPre.lookup moduleDigest))
  let ctxAwareResources ← raise (orNotFound id (env.policyIdToCtxAwareAllowedResources.lookup id))
  let policySettings ← raise (env.getPolicySettings id)
  match policySettings.settings with
  | .policyGroup _ _ _ => .error .panic
  | .policy settings =>
    .ok (pre,
      { settings := settings
        ctxAwareResourcesAllowList := ctxAwareResources
        epochDeadline := epochDeadlineFor policySettings.timeoutEvalSeconds
          env.globalPolicyEvaluationLimitSeconds
        hostCapabilities := (env.policyIdToHostCapabilities.lookup id).getD .denyAll })

def buildPolicyGroupEvaluator (env : EvaluationEnvironment M)
    (id : PolicyID) : Except Failure (PolicyGroupEvaluator M) := do
  let policySettings ← raise (env.getPolicySettings id)
  match policySettings.settings with
  | .policy _ => .error .panic
  | .policyGroup expression message policies =>
    policies.foldlM (fun g name => do
        let member ← env.groupMember id name
        return g.addPolicyMember name member.1 member.2)
      (PolicyGroupEvaluator.new id.text message expression)

/-! ## Validation -/

def validateSettings (env : EvaluationEnvironment M) (id : PolicyID) :
    Except Failure Unit := do
  let policySettings ← raise (env.getPolicySettings id)
  match policySettings.settings with
  | .policy settings =>
    let evaluator ← raise (env.rehydrate engine id)
    let response := engine.validateSettings evaluator settings
    if response.valid then .ok ()
    else .error (.error (.policyInitialization ("Policy settings are invalid: "
      ++ response.message.getD "no message")))
  | .policyGroup _ _ _ =>
    let groupEvaluator ← env.buildPolicyGroupEvaluator id
    let response := groupEvaluator.validateSettings engine
    if response.valid then .ok ()
    else .error (.error (.policyInitialization
      (response.message.getD (id.text ++ " settings are not valid"))))

def validatePolicyLogged (env : EvaluationEnvironment M) (id : PolicyID)
    (request : ValidateRequest) :
    Except Failure (AdmissionResponse × List PolicyID) :=
  match env.policyInitializationErrors.lookup id with
  | some error => .error (.error (.policyInitialization error))
  | none => do
    let policySettings ← raise (env.getPolicySettings id)
    match policySettings.settings with
    | .policyGroup _ _ _ => .error .panic
    | .policy settings =>
      let evaluator ← raise (env.rehydrate engine id)
      .ok (engine.validate evaluator request settings, [id])

def validatePolicyGroupLogged (env : EvaluationEnvironment M) (id : PolicyID)
    (request : ValidateRequest) :
    Except Failure (AdmissionResponse × List PolicyID) := do
  let groupEvaluator ← env.buildPolicyGroupEvaluator id
  let result := groupEvaluator.validateLogged engine request
  .ok (result.1, result.2.map (PolicyID.policyGroupPolicy id.text))

def validateLogged (env : EvaluationEnvironment M) (id : PolicyID) (request : ValidateRequest) :
    Except Failure (AdmissionResponse × List PolicyID) :=
  if id ∈ env.policyGroups then env.validatePolicyGroupLogged engine id request
  else env.validatePolicyLogged engine id request

def validate (env : EvaluationEnvironment M) (id : PolicyID)
    (request : ValidateRequest) : Except Failure AdmissionResponse :=
  (env.validateLogged engine id request).map Prod.fst

/-! ## Registration -/

def cacheModule (env : EvaluationEnvironment M) (id : PolicyID) (p : PrecompiledPolicy) :
    Except EvaluationError (HashMap String (PolicyEvaluatorPre M)) :=
  if p.digest ∈ env.moduleDigestToPolicyEvaluatorPre then .ok env.moduleDigestToPolicyEvaluatorPre
  else do
    let module ← createWasmtimeModule engine id p
    let pre ← createPolicyEvaluatorPre engine module p.executionMode env.policyMemoryLimitBytes
    return env.moduleDigestToPolicyEvaluatorPre.insert p.digest pre

def insertPolicy (env : EvaluationEnvironment M) (id : PolicyID)
    (settings : PolicyEvaluationSettings) (evalCtx : EvaluationContext)
    (digest : String) : EvaluationEnvironment M :=
  { env with
    policyIdToModuleDigest := env.policyIdToModuleDigest.insert id digest
    policyIdToSettings := env.policyIdToSettings.insert id settings
    policyIdToCtxAwareAllowedResources :=
      env.policyIdToCtxAwareAllowedResources.insert id evalCtx.ctxAwareResourcesAllowList
    policyIdToHostCapabilities :=
      env.policyIdToHostCapabilities.insert id evalCtx.hostCapabilities }

def register (env : EvaluationEnvironment M) (id : PolicyID) (settings : PolicyEvaluationSettings)
    (evalCtx : EvaluationContext) (p : PrecompiledPolicy) :
    Except EvaluationError (EvaluationEnvironment M) := do
  let cache ← env.cacheModule engine id p
  return { env.insertPolicy id settings evalCtx p.digest with
    moduleDigestToPolicyEvaluatorPre := cache }

def registerPolicyGroup (env : EvaluationEnvironment M) (id : PolicyID)
    (settings : PolicyEvaluationSettings) : EvaluationEnvironment M :=
  { env with
    policyIdToSettings := env.policyIdToSettings.insert id settings
    policyGroups := insert id env.policyGroups }

def recordError (env : EvaluationEnvironment M) (id : PolicyID)
    (msg : String) : EvaluationEnvironment M :=
  { env with
    policyInitializationErrors := env.policyInitializationErrors.insert id msg }

end EvaluationEnvironment

/-! ## The builder -/

structure EvaluationEnvironmentBuilder (M : Type) where
  engine : Engine M
  precompiledPolicies : PrecompiledPolicies
  continueOnErrors : Bool
  (globalPolicyEvaluationLimitSeconds policyMemoryLimitBytes : Option ℕ)
  alwaysAcceptAdmissionReviewsOnNamespace : Option String

namespace EvaluationEnvironmentBuilder

variable {M : Type} (b : EvaluationEnvironmentBuilder M)

def initialEnvironment : EvaluationEnvironment M where
  alwaysAcceptAdmissionReviewsOnNamespace := b.alwaysAcceptAdmissionReviewsOnNamespace
  moduleDigestToPolicyEvaluatorPre := ∅
  policyIdToCtxAwareAllowedResources := ∅
  policyIdToHostCapabilities := ∅
  policyIdToModuleDigest := ∅
  policyIdToSettings := ∅
  policyInitializationErrors := ∅
  policyGroups := ∅
  globalPolicyEvaluationLimitSeconds := b.globalPolicyEvaluationLimitSeconds
  policyMemoryLimitBytes := b.policyMemoryLimitBytes

def precompiledPolicy (id : PolicyID) (url : String) : Except EvaluationError PrecompiledPolicy :=
  match b.precompiledPolicies.lookup url with
  | none => .error (.bootstrapFailure ("cannot find precompiled policy of " ++ id.text))
  | some (.error e) => .error (.bootstrapFailure (id.text ++ ": " ++ e))
  | some (.ok p) => .ok p

def bootstrapPolicy (env : EvaluationEnvironment M) (id : PolicyID) (url : String)
    (settings : PolicyEvaluationSettings) (evalCtx : EvaluationContext) :
    Except Failure Unit × EvaluationEnvironment M :=
  match b.precompiledPolicy id url with
  | .error e => (.error (.error e), env)
  | .ok p =>
    match env.register b.engine id settings evalCtx p with
    | .error e => (.error (.error (.bootstrapFailure e.text)), env)
    | .ok env' => (env'.validateSettings b.engine id, env')

def bootstrapOrRecord (env : EvaluationEnvironment M) (id : PolicyID) (url : String)
    (settings : PolicyEvaluationSettings) (evalCtx : EvaluationContext) :
    Except Failure (EvaluationEnvironment M) :=
  match b.bootstrapPolicy env id url settings evalCtx with
  | (.ok (), env') => .ok env'
  | (.error .panic, _) => .error .panic
  | (.error (.error e), env') =>
    if b.continueOnErrors then .ok (env'.recordError id e.text)
    else .error (.error e)

def settingsOrRecord (env : EvaluationEnvironment M) (id : PolicyID)
    (settings : Except String PolicyOrPolicyGroupSettings)
    (next : PolicyOrPolicyGroupSettings → Except Failure (EvaluationEnvironment M)) :
    Except Failure (EvaluationEnvironment M) :=
  match settings with
  | .ok s => next s
  | .error e =>
    if b.continueOnErrors then .ok (env.recordError id e)
    else .error (.error (.bootstrapFailure ("cannot extract settings from policy: " ++ e)))

def hostCapabilitiesOf (id : PolicyID) (patterns : List String) :
    Except EvaluationError HostCapabilities :=
  (HostCapabilities.new patterns).mapError (fun e => .bootstrapFailure
    ("invalid hostCapabilities pattern for policy " ++ id.text ++ ": " ++ e.text))

/-- One iteration of the loop over the members of a group. -/
def addMember (group : PolicyID) (env : EvaluationEnvironment M)
    (name : String) (policy : PolicyGroupMember) :
    Except Failure (EvaluationEnvironment M) :=
  let id := PolicyID.policyGroupPolicy group.text name
  b.settingsOrRecord env id policy.settingsOrDefault (fun settings => do
    let hostCapabilities ← raise (hostCapabilitiesOf group policy.hostCapabilities)
    b.bootstrapOrRecord env id policy.module
      { policyMode := .protect
        allowedToMutate := false
        settings := settings
        customRejectionMessage := none
        timeoutEvalSeconds := policy.timeoutEvalSeconds }
      { policyId := id.text
        ctxAwareResourcesAllowList := policy.contextAwareResources
        epochDeadline := epochDeadlineFor policy.timeoutEvalSeconds
          b.globalPolicyEvaluationLimitSeconds
        hostCapabilities := hostCapabilities })

/-- One iteration of the loop over the policies. -/
def addEntry (env : EvaluationEnvironment M) (name : String) (entry : PolicyOrPolicyGroup) :
    Except Failure (EvaluationEnvironment M) := do
  let id ← raise (PolicyID.parse name)
  b.settingsOrRecord env id entry.settings (fun settings =>
    match entry with
    | .policy policy => do
      let hostCapabilities ← raise (hostCapabilitiesOf id policy.hostCapabilities)
      b.bootstrapOrRecord env id policy.module
        { policyMode := policy.policyMode
          allowedToMutate := policy.allowedToMutate.getD false
          settings := settings
          customRejectionMessage := policy.message
          timeoutEvalSeconds := policy.timeoutEvalSeconds }
        { policyId := id.text
          ctxAwareResourcesAllowList := policy.contextAwareResources
          epochDeadline := epochDeadlineFor policy.timeoutEvalSeconds
            b.globalPolicyEvaluationLimitSeconds
          hostCapabilities := hostCapabilities }
    | .policyGroup g =>
      -- groups are not allowed to mutate; their settings are not validated
      g.policies.entries.foldlM (fun env member => b.addMember id env member.1 member.2)
        (env.registerPolicyGroup id
          { policyMode := g.policyMode
            allowedToMutate := false
            settings := settings
            customRejectionMessage := none
            timeoutEvalSeconds := none }))

def buildEvaluationEnvironment (policies : Policies) : Except Failure (EvaluationEnvironment M) :=
  policies.entries.foldlM (fun env e => b.addEntry env e.1 e.2) b.initialEnvironment

end EvaluationEnvironmentBuilder
