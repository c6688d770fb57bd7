import AdmController.RegistryRuns

/-!
# Answering requests

`evaluate` finds the policy a request is for and validates the request. In one
configured namespace requests are accepted without it, but its mode is still
looked up, and may not be found.
-/

inductive RequestOrigin where
  | validate
  | audit

/-! ## Adapting responses -/

structure AdmissionResponseHandler where
  policyId : PolicyID
  policyMode : PolicyMode
  allowedToMutate : Bool
  customRejectionMessage : Option String

namespace AdmissionResponseHandler

def rejectionMessageBecausePolicyIsNotAllowedToMutate (id : PolicyID) : String :=
  "Request rejected by policy " ++ id.text ++ ". The policy attempted to mutate the request, "
    ++ "but it is currently configured to not allow mutations."

def applyMonitorMode (h : AdmissionResponseHandler)
    (response : AdmissionResponse) : AdmissionResponse :=
  if h.policyMode ≠ .monitor then response
  else { response with
    allowed := true, patchType := none, patch := none, status := none }

def applyMutationConstraint (h : AdmissionResponseHandler)
    (response : AdmissionResponse) : AdmissionResponse :=
  if h.policyMode ≠ .protect then response
  else if h.allowedToMutate then response
  else if response.patch.isNone then response
  else
    { response with
      allowed := false
      status := some
        { message := some (rejectionMessageBecausePolicyIsNotAllowedToMutate h.policyId) }
      patch := none
      patchType := none }

def applyCustomRejectionMessage (h : AdmissionResponseHandler)
    (response : AdmissionResponse) : AdmissionResponse :=
  if response.allowed then response
  else match h.customRejectionMessage with
  | none => response
  | some message =>
    let status := response.status.getD {}
    let details := status.details.getD {}
    { response with
      status := some
        { status with
          message := some message
          details := some
            { details with
              causes := details.causes ++ [{ message := some (status.message.getD "") }] } } }

def processResponse (h : AdmissionResponseHandler)
    (response : AdmissionResponse) : AdmissionResponse :=
  h.applyCustomRejectionMessage (h.applyMutationConstraint (h.applyMonitorMode response))

end AdmissionResponseHandler

variable {M : Type} (engine : Engine M) (env : EvaluationEnvironment M)

/-! ## Evaluation -/

def ValidateRequest.alwaysAccepted : ValidateRequest → Bool
  | .raw _ => false
  | .admissionRequest r =>
    match r.reqNamespace with
    | none => false
    | some ns => env.shouldAlwaysAcceptRequestsMadeInsideOfNamespace ns

def vanillaValidationResponse (id : PolicyID) (request : ValidateRequest) :
    Except Failure (AdmissionResponse × Bool) :=
  match env.validate engine id request with
  | .ok response => .ok (response, true)
  | .error (.error (.policyInitialization error)) => .ok (.reject request.uid error 500, false)
  | .error (.error (.webAssemblyError error)) =>
    if RustStr.containsStr error "init interrupted, execution deadline exceeded" then
      .ok (.reject request.uid ("Policy execution interrupted because it "
        ++ "exceeded the allowed execution time") 500, false)
    else .error (.error (.webAssemblyError error))
  | .error e => .error e

def evaluate (policyId : String) (request : ValidateRequest) (origin : RequestOrigin) :
    Except Failure AdmissionResponse := do
  let id ← raise (PolicyID.parse policyId)
  if request.alwaysAccepted env then do
    -- the mode is a label of the metrics
    let _ ← raise (env.getPolicyMode id)
    return { uid := request.uid
             allowed := true
             patchType := none
             patch := none
             status := none
             auditAnnotations := none
             warnings := none }
  else do
    let (response, answered) ← vanillaValidationResponse engine env id request
    if answered then do
      let policyMode ← raise (env.getPolicyMode id)
      let allowedToMutate ← raise (env.getPolicyAllowedToMutate id)
      let customRejectionMessage ← raise (env.getPolicyCustomRejectionMessage id)
      let handler : AdmissionResponseHandler :=
        ⟨id, policyMode, allowedToMutate, customRejectionMessage⟩
      match origin with
      | .validate => return handler.processResponse response
      | .audit => return response
    else return response

section

variable {b : EvaluationEnvironmentBuilder M} {env : EvaluationEnvironment M} {policies : Policies}

/-! ## The namespace ignored by all policies -/

theorem EvaluationEnvironment.getPolicyMode_eq_ok_iff (id : PolicyID) :
    (∃ mode, env.getPolicyMode id = .ok mode) ↔ (env.slot id).settings.isSome := by
  show (∃ mode, orNotFound id (Option.map _ (env.slot id).settings) = .ok mode) ↔ _
  cases (env.slot id).settings with
  | none => simp [orNotFound]
  | some settings => simp [orNotFound]

theorem evaluate_of_alwaysAccepted {request : ValidateRequest}
    (hreq : request.alwaysAccepted env = true) (p : String) (origin : RequestOrigin) :
    evaluate engine env p request origin = (raise (PolicyID.parse p) >>= fun id =>
          raise (env.getPolicyMode id) >>= fun _ =>
            .ok ⟨request.uid, true, none, none, none, none, none⟩) := by
  unfold evaluate
  rw [hreq]
  rfl

/-- **Who may act in the exempt namespace.** A request made there is accepted,
with its own `uid`, exactly when some step of the start-up fills the slot of the
policy: it is a group, or a module with its digest could be loaded by then. -/
theorem evaluate_accepts_iff
    (hbuild : b.buildEvaluationEnvironment policies = .ok env) {ns : String}
    (hns : b.alwaysAcceptAdmissionReviewsOnNamespace = some ns) (p : String)
    {request : AdmissionRequest} (hreq : request.reqNamespace = some ns)
    (origin : RequestOrigin) :
    (∃ response, evaluate b.engine env p (.admissionRequest request) origin = .ok response
      ∧ response.allowed = true ∧ response.uid = request.uid
      ∧ response.patch = none ∧ response.status = none)
      ↔ ∃ l s l', plan policies = l ++ s :: l'
        ∧ s.id? = (PolicyID.parse p).toOption ∧ Registry.Fills b l s := by
  obtain ⟨hcfg, hregistry⟩ := EvaluationEnvironmentBuilder.reached_of_build hbuild
  have haccept : (ValidateRequest.admissionRequest request).alwaysAccepted env = true := by
    show (match request.reqNamespace with
      | none => false
      | some ns => env.shouldAlwaysAcceptRequestsMadeInsideOfNamespace ns) = true
    rw [hreq]
    exact beq_iff_eq.2 (hcfg.2.2.trans hns)
  rw [evaluate_of_alwaysAccepted b.engine haccept]
  cases PolicyID.parse p with
  | error e =>
    refine iff_of_false ?_ ?_
    · rintro ⟨response, h, -⟩
      cases h
    · -- only a failing step has no identifier
      rintro ⟨l, s, l', -, hid, hfills⟩
      cases s with
      | fail e => exact hfills
      | group id settings => cases hid
      | item i => cases hid
  | ok id =>
    have hslot : env.slot id = (Registry.after b (plan policies)).slot id :=
      congrFun (congrArg Registry.slot hregistry) id
    show (∃ response, (raise (env.getPolicyMode id) >>= fun _ => _) = .ok response ∧ _)
      ↔ ∃ (l : List Step) (s : Step) (l' : List Step), _ ∧ s.id? = some id ∧ _
    rw [← Registry.after_settings_isSome, ← hslot, ← EvaluationEnvironment.getPolicyMode_eq_ok_iff]
    constructor
    · rintro ⟨response, h, -⟩
      obtain ⟨mode, hmode, -⟩ := Fallible.bind_eq_ok.1 h
      exact ⟨mode, Fallible.mapError_eq_ok.1 hmode⟩
    · rintro ⟨mode, hmode⟩
      rw [hmode]
      exact ⟨_, rfl, rfl, rfl, rfl, rfl⟩

end

def onePolicy : Policies := AList.singleton "p" (.policy (.ofModule "registry://p"))

def tolerantBuilder (compiled : Except String PrecompiledPolicy) :
    EvaluationEnvironmentBuilder (List UInt8) where
  engine := .trusting
  precompiledPolicies := AList.singleton "registry://p" compiled
  continueOnErrors := true
  globalPolicyEvaluationLimitSeconds := none
  policyMemoryLimitBytes := none
  alwaysAcceptAdmissionReviewsOnNamespace := some "kubewarden"

def exemptRequest : AdmissionRequest := .bare "uid" (some "kubewarden")

theorem evaluate_accepts_registered :
    ∃ env, (tolerantBuilder (.ok ⟨[0], .opa, "d"⟩)).buildEvaluationEnvironment onePolicy = .ok env
      ∧ ∃ response, evaluate (tolerantBuilder (.ok ⟨[0], .opa, "d"⟩)).engine
        env "p" (.admissionRequest exemptRequest) .validate = .ok response
        ∧ response.allowed = true ∧ response.uid = exemptRequest.uid
        ∧ response.patch = none ∧ response.status = none := by
  have hbuild : (tolerantBuilder
      (.ok ⟨[0], .opa, "d"⟩)).buildEvaluationEnvironment onePolicy = .ok _ :=
    rfl
  exact ⟨_, hbuild, (evaluate_accepts_iff hbuild rfl "p" rfl .validate).2
    ⟨[], .item (.ofPolicy (.policy "p") (.ofModule "registry://p") .denyAll),
      [], rfl, rfl, _, rfl, _, List.mem_cons_self, rfl⟩⟩

/-- **A policy that could not be fetched locks the namespace.** -/
theorem evaluate_fails_in_exempt_namespace :
    ∃ env, (tolerantBuilder (.error "cannot fetch")).buildEvaluationEnvironment onePolicy = .ok env
      ∧ evaluate (tolerantBuilder (.error "cannot fetch")).engine env "p"
        (.admissionRequest exemptRequest) .validate
        = .error (.error (.policyNotFound "p")) :=
  ⟨_, rfl, rfl⟩
