import AdmController.GuestVerdicts

/-!
# The evaluation of a request by any runtime

`PolicyEvaluator::validate` hands the request to the runtime of the policy. A
request is allowed only if the guest says so, or for a CEL policy to be ignored.
-/

open Serde Burrego Prog List

/-- Third-party code around Rego guests, and their inventories. -/
structure RegoVerdictLib (I : Type) where
  texts : RegoTexts
  inventoryToValue : I → Value
  decodeAdmissionResponse : Value → Except String AdmissionResponse
  /-- The messages of a decoded list of violations. -/
  decodeViolations : Value → Except String (List (Option String))

section

variable {σ I : Type} (lib : RegoVerdictLib I) (guest : RegoGuest σ) (entrypointId : BitVec 32)

variable (settings : PolicySettings)

def opaData : KubernetesContext I → Value
  | .opa inventory => settingsToValue (settings.filter (fun entry => entry.1 ≠ "kubernetes")
        ++ [("kubernetes", lib.inventoryToValue inventory)])
  | _ => settingsToValue settings

def evaluateOpa (request : ValidateRequest)
    (ctx : KubernetesContext I) : Prog (RegoWorld σ) BurregoError Value := do
  let dataRaw ← ofExcept ((lib.texts.toVec (opaData lib settings ctx)).mapError
    (.jsonError "cannot convert OPA data to JSON"))
  evaluate guest lib.texts entrypointId (.mapping [(.str "request", request.toValue)]) dataRaw

def evaluateGatekeeper (r : AdmissionRequest) :
    KubernetesContext I → Prog (RegoWorld σ) BurregoError Value
  | .gatekeeper data => run data
  | .empty => run (RustStr.intoBytes "\x7b\x7d")
  | .opa _ => panic
where
  run (dataRaw : List UInt8) : Prog (RegoWorld σ) BurregoError Value :=
    evaluate guest lib.texts entrypointId (.mapping [(.str "parameters", settingsToValue settings),
      (.str "review", r.toValue)]) dataRaw

variable (uid : String) (result : Value)

def opaResponse : AdmissionResponse :=
  match ((result.item 0).bind (Value.get "result")).bind (Value.get "response") with
  | some response =>
    match lib.decodeAdmissionResponse response with
    | .ok response => { response with uid := uid }
    | .error e => .rejectInternalServerError uid e
  | none => .rejectInternalServerError uid "cannot interpret OPA policy result"

def gatekeeperResponse : AdmissionResponse :=
  match result.item 0 with
  | none => .rejectInternalServerError uid "invalid response from policy"
  | some response =>
    match lib.decodeViolations response with
    | .error e => .rejectInternalServerError uid ("invalid response from policy: " ++ e)
    | .ok violations =>
      { uid := uid
        allowed := violations.isEmpty
        patchType := none
        patch := none
        status := if violations.isEmpty then none
          else some { message := some (String.intercalate ", " (violations.filterMap id)) }
        auditAnnotations := none
        warnings := none }

def regoAnswer (respond : Value → AdmissionResponse) :
    Except BurregoError Value → Prog (RegoWorld σ) Empty AdmissionResponse
  | .ok result => pure (respond result)
  | .error err =>
    if err = .executionDeadlineExceeded then do
      let _ ← (reset guest lib.texts).attempt
      pure (.rejectInternalServerError uid err.toText)
    else pure (.rejectInternalServerError uid err.toText)

variable (mode : RegoPolicyExecutionMode)

def regoValidate (settings : PolicySettings)
    (request : ValidateRequest) (ctx : KubernetesContext I) :
    Prog (RegoWorld σ) Empty AdmissionResponse :=
  match mode, request with
  | .opa, request => do
    let result ← (evaluateOpa lib guest entrypointId settings request ctx).attempt
    regoAnswer lib guest request.uid (opaResponse lib request.uid) result
  | .gatekeeper, .raw _ =>
    pure (.rejectInternalServerError request.uid
      "Gatekeeper does not support raw validation requests")
  | .gatekeeper, .admissionRequest r => do
    let result ← (evaluateGatekeeper lib guest entrypointId settings r ctx).attempt
    regoAnswer lib guest request.uid (gatekeeperResponse lib request.uid) result

/-! ## Panics of the Rego runtime -/

theorem relies_evaluateOpa (request : ValidateRequest) (ctx : KubernetesContext I) :
    Relies (evaluateOpa lib guest entrypointId settings request ctx) :=
  (relies_ofExcept _).bind fun _ => relies_evaluate guest lib.texts _ _ _

variable {ctx : KubernetesContext I}

theorem relies_evaluateGatekeeper
    (r : AdmissionRequest) (hctx : ∀ inventory, ctx ≠ .opa inventory) :
    Relies (evaluateGatekeeper lib guest entrypointId settings r ctx) := by
  cases ctx with
  | empty => exact relies_evaluate guest lib.texts _ _ _
  | gatekeeper data => exact relies_evaluate guest lib.texts _ _ _
  | opa inventory => exact absurd rfl (hctx inventory)

theorem panicsOn_regoAnswer
    (respond : Value → AdmissionResponse) (result : Except BurregoError Value) :
    Prog.PanicsOn RegoWorld.log RegoEvent.Misleads (regoAnswer lib guest uid respond result) := by
  cases result with
  | ok value => exact panicsOn_pure _
  | error err =>
    simp only [regoAnswer]
    split
    · exact (panicsOn_reset guest lib.texts).attempt.bind fun _ =>
        panicsOn_pure _
    · exact panicsOn_pure _

theorem panicsOn_regoValidate (settings : PolicySettings) (request : ValidateRequest)
    (hctx : mode = .gatekeeper → ∀ inventory, ctx ≠ .opa inventory) :
    Prog.PanicsOn RegoWorld.log RegoEvent.Misleads
      (regoValidate lib guest entrypointId mode settings request ctx) := by
  unfold regoValidate
  split
  · exact (relies_evaluateOpa lib guest _ _ _ _).panics.attempt.bind
      fun result => panicsOn_regoAnswer lib guest _ _ result
  · exact panicsOn_pure _
  · exact (relies_evaluateGatekeeper lib guest _ _ _ (hctx rfl)).panics.attempt.bind
      fun result => panicsOn_regoAnswer lib guest _ _ result

/-! ## Verdicts of the Rego runtime -/

def OpaAllows : Prop :=
  ∃ response decoded, ((result.item 0).bind (Value.get "result")).bind
    (Value.get "response") = some response
    ∧ lib.decodeAdmissionResponse response = .ok decoded
    ∧ decoded.allowed = true

/-- What a Gatekeeper policy evaluates to has no violations. -/
def GatekeeperAllows : Prop :=
  ∃ response, result.item 0 = some response ∧ lib.decodeViolations response = .ok []

theorem warranted_opaResponse :
    Warranted uid (OpaAllows lib result) (opaResponse lib uid result) := by
  unfold opaResponse
  split
  case h_1 response hresponse =>
    split
    case h_1 decoded hdecoded =>
      exact ⟨rfl, fun h => ⟨response, decoded, hresponse, hdecoded, h⟩⟩
    case h_2 => exact warranted_reject
  case h_2 => exact warranted_reject

theorem warranted_gatekeeperResponse :
    Warranted uid (GatekeeperAllows lib result) (gatekeeperResponse lib uid result) := by
  unfold gatekeeperResponse
  split
  case h_1 => exact warranted_reject
  case h_2 response hresponse =>
    split
    case h_1 => exact warranted_reject
    case h_2 violations hviolations =>
      refine ⟨rfl, fun h => ⟨response, hresponse, ?_⟩⟩
      rw [hviolations, isEmpty_iff.mp h]

variable {response : AdmissionResponse} {w w' : RegoWorld σ}

theorem warranted_regoAnswer {uid : String} {reason : Value → Prop}
    {respond : Value → AdmissionResponse}
    (hrespond : ∀ value, Warranted uid (reason value) (respond value))
    {result : Except BurregoError Value}
    (h : regoAnswer lib guest uid respond result w = (.ok response, w')) :
    Warranted uid (∃ value, result = .ok value ∧ reason value) response := by
  cases result with
  | ok value =>
    obtain ⟨rfl, -⟩ := pure_eq_ok.1 h
    exact (hrespond value).mono fun hreason => ⟨value, rfl, hreason⟩
  | error err =>
    simp only [regoAnswer] at h
    split at h
    · obtain ⟨_, _, -, hpure⟩ := bind_eq_ok.1 h
      obtain ⟨rfl, -⟩ := pure_eq_ok.1 hpure
      exact warranted_reject
    · obtain ⟨rfl, -⟩ := pure_eq_ok.1 h
      exact warranted_reject

theorem warranted_attempt_regoAnswer {x : Prog (RegoWorld σ) BurregoError Value} (hx : Relies x)
    {uid : String} {reason : Value → Prop} {respond : Value → AdmissionResponse}
    (hrespond : ∀ value, Warranted uid (reason value) (respond value))
    (h : (x.attempt >>= regoAnswer lib guest uid respond) w = (.ok response, w')) :
    Warranted uid (∃ result w' new, x w = (.ok result, w')
      ∧ w'.log = w.log ++ new ∧ (∀ e ∈ new, e.Completed) ∧ reason result)
      response := by
  obtain ⟨result, w₁, hattempt, hanswer⟩ := bind_eq_ok.1 h
  have hreturns := attempt_eq_ok.1 hattempt
  refine (warranted_regoAnswer lib guest hrespond hanswer).mono ?_
  rintro ⟨value, rfl, hallows⟩
  obtain ⟨new, hnew, hcompleted⟩ := hx.completes w value w₁ hreturns
  exact ⟨value, w₁, new, hreturns, hnew, hcompleted, hallows⟩

/-- A guest has completed all its calls, and its value allows the request. -/
def RegoAllows (settings : PolicySettings) (request : ValidateRequest) (ctx : KubernetesContext I)
    (w : RegoWorld σ) : Prop :=
  match mode, request with
  | .opa, request => ∃ result w' new, evaluateOpa lib guest entrypointId settings request ctx w
        = (.ok result, w')
      ∧ w'.log = w.log ++ new ∧ (∀ e ∈ new, e.Completed)
      ∧ OpaAllows lib result
  | .gatekeeper, .raw _ => False
  | .gatekeeper, .admissionRequest r => ∃ result w' new,
    evaluateGatekeeper lib guest entrypointId settings r ctx w = (.ok result, w')
    ∧ w'.log = w.log ++ new ∧ (∀ e ∈ new, e.Completed)
    ∧ GatekeeperAllows lib result

theorem warranted_regoValidate {mode : RegoPolicyExecutionMode} {settings : PolicySettings}
    {request : ValidateRequest} (hctx : mode = .gatekeeper → ∀ inventory, ctx ≠ .opa inventory)
    (h : regoValidate lib guest entrypointId mode settings request ctx w = (.ok response, w')) :
    Warranted request.uid (RegoAllows lib guest entrypointId mode settings request ctx w)
      response := by
  cases mode with
  | opa =>
    exact warranted_attempt_regoAnswer lib guest
      (relies_evaluateOpa lib guest entrypointId settings request ctx)
      (warranted_opaResponse lib request.uid) h
  | gatekeeper =>
    cases request with
    | raw v =>
      obtain ⟨rfl, -⟩ := pure_eq_ok.1 h
      exact warranted_reject
    | admissionRequest r =>
      exact warranted_attempt_regoAnswer lib guest
        (relies_evaluateGatekeeper lib guest entrypointId settings r
          (hctx rfl)) (warranted_gatekeeperResponse lib _) h

end

namespace PolicyRuntime

/-! ## All runtimes -/

/-- **The runtime of a policy**, with its guest. -/
inductive Runtime (σ : Type) where
  | wapc (guest : String → List UInt8 → EngineReport (List UInt8))
  | rego (mode : RegoPolicyExecutionMode) (guest : RegoGuest σ)
    (entrypointId : BitVec 32) (state : σ) (addrs : PolicyAddrs)
  | cli (guest : List UInt8 → List String → WasiRun)
  | ferricel (guest : List UInt8 → Except CelEvalError String)

/-- What an evaluation depends on besides the policy. -/
structure ValidateEnv (S C O I : Type) where
  verdicts : VerdictLib
  rego : RegoVerdictLib I
  context : RegoLib O I
  channel : List (CallbackRequestType S C) → ChannelReply
  cached : Option (InventoryCache.CachedInventory (List UInt8))

section

variable {σ S C O I : Type} (env : ValidateEnv S C O I)

def kubeCtx (mode : RegoPolicyExecutionMode) (evalCtx : ChannelContext) :
    Except String (KubernetesContext I) :=
  Dialogue.against env.channel [] (buildKubernetesContext env.context mode env.cached evalCtx).run

variable (runtime : Runtime σ) (evalCtx : ChannelContext) (request : ValidateRequest)

variable (settings : PolicySettings)

def validateRecorded : Outcome Empty AdmissionResponse × List RegoEvent :=
  match runtime with
  | .wapc guest => (.ok (wapcValidate env.verdicts guest settings request), [])
  | .rego mode guest entrypointId state addrs =>
    match kubeCtx env mode evalCtx with
    | .ok ctx =>
      let (outcome, world) := regoValidate env.rego guest entrypointId mode
        settings request ctx ⟨state, addrs, []⟩
      (outcome, world.log)
    | .error e => (.ok (.reject request.uid e 500), [])
  | .cli guest => (.ok (wasiValidate env.verdicts guest settings request), [])
  | .ferricel guest => (.ok (ferricelValidate env.verdicts evalCtx.policyId
    guest settings request), [])

def validate : Outcome Empty AdmissionResponse :=
  (validateRecorded env runtime evalCtx request settings).1

def handedOver : List RegoEvent := (validateRecorded env runtime evalCtx request settings).2

theorem kubeCtx_gatekeeper_ne_opa {evalCtx : ChannelContext} {ctx : KubernetesContext I}
    (h : kubeCtx env .gatekeeper evalCtx = .ok ctx) (inventory : I) :
    ctx ≠ .opa inventory := by
  have hends : Dialogue.Ends (fun result : Except String (KubernetesContext I) =>
        result ≠ .ok (.opa inventory))
      (buildKubernetesContext env.context .gatekeeper env.cached evalCtx : HostCall S C _).run := by
    unfold buildKubernetesContext
    split
    · exact .done (by rintro ⟨⟩)
    · split
      · refine Dialogue.ends_bind (fun result => ?_) _
        cases result with
        | ok data => exact .done (by rintro ⟨⟩)
        | error e => exact .done (by rintro ⟨⟩)
      · exact .done (by rintro ⟨⟩)
  rintro rfl
  exact hends.against env.channel [] h

/-- **The reason to allow a request**: by the guest, or by being ignored. -/
def Reason (response : AdmissionResponse) : Prop :=
  match runtime with
  | .wapc guest => WapcAccepts env.verdicts guest settings request
  | .rego mode guest entrypointId state addrs =>
    ∃ ctx, kubeCtx env mode evalCtx = .ok ctx
      ∧ RegoAllows env.rego guest entrypointId mode settings request ctx ⟨state, addrs, []⟩
  | .cli guest => WasiAccepts env.verdicts guest settings request
  | .ferricel guest =>
    FerricelAccepts env.verdicts guest settings request
      ∨ FerricelIgnored env.verdicts guest settings request response

/-- **A request is answered**, with its `uid`, and allowed for a reason only. -/
def Answered : Prop :=
  ∃ response, validate env runtime evalCtx request settings = .ok response ∧ Warranted request.uid
    (Reason env runtime evalCtx request settings response) response

theorem answered_rego_iff {mode : RegoPolicyExecutionMode} {guest : RegoGuest σ}
    {entrypointId : BitVec 32} {state : σ} {addrs : PolicyAddrs} {evalCtx : ChannelContext}
    {request : ValidateRequest} {settings : PolicySettings} :
    Answered env (.rego mode guest entrypointId state addrs) evalCtx request settings
      ↔ ∀ e ∈ handedOver env (.rego mode guest entrypointId state addrs)
        evalCtx request settings, ¬ e.Misleads := by
  cases hkube : kubeCtx env mode evalCtx with
  | error e =>
    have hrecorded : validateRecorded env (.rego mode guest entrypointId
        state addrs) evalCtx request settings = (.ok (.reject request.uid e 500), []) := by
      simp only [validateRecorded, hkube]
    unfold Answered validate handedOver
    rw [hrecorded]
    exact iff_of_true ⟨_, rfl, warranted_reject⟩ (fun _ he => absurd he not_mem_nil)
  | ok ctx =>
    have hctx : mode = .gatekeeper → ∀ inventory, ctx ≠ .opa inventory := by
      rintro rfl inventory
      exact kubeCtx_gatekeeper_ne_opa env hkube inventory
    obtain ⟨new, hnew, hpanic⟩ := panicsOn_regoValidate env.rego guest
      entrypointId mode settings request hctx ⟨state, addrs, []⟩
    rw [nil_append] at hnew
    unfold Answered validate handedOver
    simp only [validateRecorded, hkube]
    rcases hrun : regoValidate env.rego guest entrypointId mode settings
      request ctx ⟨state, addrs, []⟩ with ⟨response | e | _, w'⟩
    · rw [hrun] at hnew hpanic
      refine iff_of_true ⟨response, rfl, ?_⟩ fun e he hmisleads => ?_
      · exact (warranted_regoValidate env.rego guest entrypointId hctx
          hrun).mono fun hallows => ⟨ctx, hkube, hallows⟩
      · rw [show w'.log = new from hnew] at he
        cases hpanic.mpr ⟨e, he, hmisleads⟩
    · exact e.elim
    · rw [hrun] at hnew hpanic
      obtain ⟨e, he, hmisleads⟩ := hpanic.mp rfl
      refine iff_of_false ?_ fun h => ?_
      · rintro ⟨response, hresponse, -⟩
        cases hresponse
      · refine h e ?_ hmisleads
        rw [show w'.log = new from hnew]
        exact he

/-- **Every request is answered exactly if no Rego guest misleads the host**: by
an address, an endless text, or, after a deadline, by a strange number. -/
theorem validate_answered_iff (runtime : Runtime σ)
    (evalCtx : ChannelContext) (request : ValidateRequest)
    (settings : PolicySettings) :
    Answered env runtime evalCtx request settings
      ↔ ∀ e ∈ handedOver env runtime evalCtx request settings, ¬ e.Misleads := by
  cases runtime with
  | wapc guest =>
    exact iff_of_true ⟨_, rfl, warranted_wapcValidate env.verdicts guest settings request⟩
      (fun _ he => absurd he not_mem_nil)
  | rego mode guest entrypointId state addrs => exact answered_rego_iff env
  | cli guest =>
    exact iff_of_true ⟨_, rfl, warranted_wasiValidate env.verdicts guest settings request⟩
      (fun _ he => absurd he not_mem_nil)
  | ferricel guest =>
    exact iff_of_true ⟨_, rfl, warranted_ferricelValidate env.verdicts _ guest settings request⟩
      (fun _ he => absurd he not_mem_nil)

def negativeDump : RegoGuest Unit where
  instantiate := .ok ()
  call fn _ _ := (.ok (if fn = .opaJsonDump then -1 else 1), ())
  memory _ := ⟨replicate 8 0, by decide⟩
  write _ _ s := s
  entrypoints := [("policy/main", 0)]

end

/-- Libraries for which every JSON text is the empty object. -/
def emptyObjects : ValidateEnv Unit Unit Unit Unit where
  verdicts :=
    { toVec := fun _ => .ok [123, 125]
      decodeValidationResponse := fun _ => .error "not a response"
      diff := fun _ _ => []
      patchToString := fun _ => .ok "[]"
      base64 := id
      utf8Error := fun _ => "invalid utf-8 sequence"
      failureText := fun _ => "guest call failure" }
  rego :=
    { texts :=
      { toVec := fun _ => .ok [123, 125]
        fromSlice := fun _ => .ok (.mapping [])
        debugFailure := fun _ => "trap"
        debugEntrypoints := fun _ => "entrypoints"
        memoryAccessError := "MemoryAccessError" }
      inventoryToValue := fun _ => .mapping []
      decodeAdmissionResponse := fun _ => .error "not a response"
      decodeViolations := fun _ => .error "no violations" }
  context :=
    { decodeList := fun _ => .ok ()
      decodeBool := fun _ => .ok false
      decodeString := fun _ => .ok "pods"
      opaInventory := fun _ _ => .ok ()
      gatekeeperInventory := fun _ => .ok [] }
  channel := fun _ => .dropped
  cached := none

/-- **A guest that completes every call can make `validate` panic.** -/
theorem negative_dump_is_not_answered :
    validate emptyObjects (.rego .opa negativeDump 0 () ⟨0, 0, 0⟩)
      denyingContext (.admissionRequest (.bare "uid" none)) []
      = .panic
      ∧ (∀ fn args, ∃ value, (negativeDump.call fn args ()).1 = .ok value)
      ∧ ¬ Answered emptyObjects (.rego .opa negativeDump 0 () ⟨0, 0, 0⟩)
        denyingContext (.admissionRequest (.bare "uid" none)) [] := by
  have hpanic : validate emptyObjects (.rego .opa negativeDump 0 () ⟨0, 0, 0⟩) denyingContext
    (.admissionRequest (.bare "uid" none)) [] = .panic := rfl
  refine ⟨hpanic, fun fn args => ⟨_, rfl⟩, ?_⟩
  rintro ⟨response, hresponse, -⟩
  rw [hpanic] at hresponse
  cases hresponse

end PolicyRuntime
