import AdmController.Burrego

/-!
# The verdicts of guests

waPC, WASI and CEL guests answer with a validation response as JSON. Each way
to fail is a rejection, except for a CEL expression that cannot be evaluated
with `failurePolicy: Ignore`.
-/

open Serde RustStr Fallible

/-! ## Responses -/

def AdmissionResponse.rejectInternalServerError (uid message : String) : AdmissionResponse :=
  .reject uid ("internal server error: " ++ message) 500

structure PolicyValidationResponse where
  accepted : Bool
  message : Option String
  code : Option ℕ
  mutatedObject : Option Value
  auditAnnotations : Option (List (String × String))
  warnings : Option (List String)

/-- Third-party code: JSON texts and their decoders, and JSON patches. -/
structure VerdictLib where
  toVec : Value → Except String (List UInt8)
  decodeValidationResponse : List UInt8 → Except String PolicyValidationResponse
  diff : Value → Value → List Value
  patchToString : List Value → Except String String
  base64 : String → String
  utf8Error : List UInt8 → String
  failureText : GuestFailure → String

def ValidateRequest.reqObj : ValidateRequest → Option Value
  | .raw v => some v
  | .admissionRequest r => r.toValue.get "object"

def settingsToValue (settings : PolicySettings) : Value :=
  .mapping (settings.map fun (k, v) => (.str k, v))

def validateParams (request : ValidateRequest) (settings : PolicySettings) : Value :=
  .mapping [(.str "request", request.toValue), (.str "settings", settingsToValue settings)]

section

variable (lib : VerdictLib)

def mutationPatch : Option Value → Option Value → Except String (Option String)
  | some mutObj, some reqObj =>
    match lib.diff reqObj mutObj with
    | [] => .ok none
    | diff => ((lib.patchToString diff).map (some ∘ lib.base64)).mapError
      ("cannot deserialize JSONPatch: " ++ ·)
  | _, _ => .ok none

def fromPolicyValidationResponse (uid : String) (reqObj : Option Value)
    (polValResp : PolicyValidationResponse) :
    Except String AdmissionResponse :=
  match polValResp.mutatedObject, reqObj with
  | some _, none => .ok
    { uid := uid
      allowed := false
      patchType := none
      patch := none
      status := some { message := some ("Incoming object is null, which "
        ++ "happens only with DELETE operations, but the policy is "
        ++ "attempting a mutation. This is not allowed") }
      auditAnnotations := none
      warnings := none }
  | mutatedObject, reqObj => do
    let patch ← mutationPatch lib mutatedObject reqObj
    pure
      { uid := uid
        allowed := polValResp.accepted
        patchType := if patch.isSome then some .jsonPatch else none
        patch := patch
        status := if polValResp.message.isSome || polValResp.code.isSome
          then some { message := polValResp.message, code := polValResp.code }
          else none
        auditAnnotations := polValResp.auditAnnotations
        warnings := polValResp.warnings }

def verdict (decodeError convertError uid : String) (reqObj : Option Value)
    (res : List UInt8) : AdmissionResponse :=
  match lib.decodeValidationResponse res with
  | .ok polValResp =>
    match fromPolicyValidationResponse lib uid reqObj polValResp with
    | .ok response => response
    | .error e => .rejectInternalServerError uid (convertError ++ e)
  | .error e => .rejectInternalServerError uid (decodeError ++ e)

/-! ## waPC -/

def wapcEpochInterruptionErrMsg : String := "guest code interrupted, execution deadline exceeded"

def executionTimeExceeded : String :=
  "Policy execution interrupted because it exceeded the allowed execution time"

def wapcValidate (guest : String → List UInt8 → EngineReport (List UInt8))
    (settings : PolicySettings) (request : ValidateRequest) :
    AdmissionResponse :=
  match lib.toVec (validateParams request settings) with
  | .error e => .rejectInternalServerError request.uid e
  | .ok validateStr =>
    match guest "validate" validateStr with
    | .ok res => verdict lib "invalid response from policy: "
      "invalid response format: " request.uid request.reqObj res
    | .error failure =>
      if containsStr (lib.failureText failure) wapcEpochInterruptionErrMsg then
        .reject request.uid executionTimeExceeded 500
      else .rejectInternalServerError request.uid (lib.failureText failure)

/-! ## WASI -/

/-- What there is to see of a WASI program: whether it has started, how the call
has ended, and what was written to the two pipes. -/
structure WasiRun where
  (instantiate startFn : Except String Unit)
  report : EngineReport Unit
  (stdout stderr : List UInt8)

def pipeToString (name : String) (buf : List UInt8) : Except String String :=
  match String.fromUTF8? ⟨buf.toArray⟩ with
  | some s => .ok s
  | none => .error (name ++ " pipe conversion error: "
    ++ "Cannot convert buffer to UTF8 string: " ++ lib.utf8Error buf)

def runInternal (run : WasiRun) : Except String String := do
  run.instantiate.mapError ("cannot add to linker: " ++ ·)
  run.startFn.mapError ("cannot find `_start` function inside of module: " ++ ·)
  let stderr ← pipeToString lib "stderr" run.stderr
  match run.report with
  | .ok () | .error (.exit 0 _) => pipeToString lib "stdout" run.stdout
  | .error _ => .error (trim stderr)

def wasiValidate (guest : List UInt8 → List String → WasiRun)
    (settings : PolicySettings) (request : ValidateRequest) :
    AdmissionResponse :=
  match lib.toVec (validateParams request settings) with
  | .error e => .rejectInternalServerError request.uid e
  | .ok input =>
    match runInternal lib (guest input ["policy.wasm", "validate"]) with
    | .ok stdout => verdict lib "Cannot deserialize policy validation response: "
      "Cannot convert policy validation response: " request.uid
      request.reqObj (intoBytes stdout)
    | .error e => .reject request.uid e 500

/-! ## CEL -/

/-- What the runtime does when an expression cannot be evaluated. -/
inductive FailurePolicy where
  | fail
  | ignore
deriving DecidableEq

def FailurePolicy.fromValue : Option Value → Except String FailurePolicy
  | none | some .null => .ok .fail
  | some (.string s) =>
    if s = "Fail" then .ok .fail
    else if s = "Ignore" then .ok .ignore
    else .error "failurePolicy must be either 'Fail' or 'Ignore'"
  | some _ => .error "failurePolicy must be either 'Fail' or 'Ignore'"

def FailurePolicy.ofSettings (settings : PolicySettings) : FailurePolicy :=
  match fromValue (settings.lookup "failurePolicy") with
  | .ok failurePolicy => failurePolicy
  | .error _ => .fail

def FailurePolicy.asStr : FailurePolicy → String
  | .fail => "Fail"
  | .ignore => "Ignore"

structure CelRuntimeError where
  message : String
  origin : Option String

def formatCelError (err : CelRuntimeError) : String :=
  match err.origin with
  | some origin => origin ++ ": " ++ err.message
  | none => err.message

structure CelEvalError where
  isInterrupt : Bool
  celRuntimeError : Option CelRuntimeError
  text : String

inductive FerricelRuntimeError where
  | executionDeadlineExceeded
  | celRuntimeError (err : CelRuntimeError)
  | evalFailed (text : String)

def CelEvalError.toRuntimeError (e : CelEvalError) : FerricelRuntimeError :=
  if e.isInterrupt then .executionDeadlineExceeded
  else match e.celRuntimeError with
    | some err => .celRuntimeError err
    | none => .evalFailed e.text

def buildBindings (settings : PolicySettings) (r : AdmissionRequest)
    (failurePolicy : FailurePolicy) : Value :=
  .mapping [(.str "object", r.object.getD .null), (.str "oldObject", r.oldObject.getD .null),
    (.str "request", r.toValue),
    (.str "paramRef", (settings.lookup "paramRef").getD .null),
    (.str "failurePolicy", .string failurePolicy.asStr)]

def handleCelRuntimeError (policyId uid : String) (err : CelRuntimeError) :
    FailurePolicy → AdmissionResponse
  | .fail => .rejectInternalServerError uid ("CEL runtime error: " ++ formatCelError err)
  | .ignore =>
    { uid := uid
      allowed := true
      patchType := none
      patch := none
      status := none
      auditAnnotations := none
      warnings := some ["policy " ++ policyId
        ++ " skipped (failurePolicy is Ignore): CEL runtime error: "
        ++ formatCelError err] }

open CelEvalError

def ferricelValidate (policyId : String) (guest : List UInt8 → Except CelEvalError String)
    (settings : PolicySettings) (request : ValidateRequest) :
    AdmissionResponse :=
  match request with
  | .raw _ => .rejectInternalServerError request.uid
    "ferricel runtime does not support raw validation requests"
  | .admissionRequest r =>
    match lib.toVec (buildBindings settings r (.ofSettings settings)) with
    | .error e => .rejectInternalServerError request.uid e
    | .ok bindings =>
      match (guest bindings).mapError toRuntimeError with
      | .ok result => verdict lib "Cannot deserialize ferricel response: "
        "Cannot convert policy validation response: " request.uid
        request.reqObj (intoBytes result)
      | .error .executionDeadlineExceeded => .reject request.uid executionTimeExceeded 500
      | .error (.celRuntimeError err) => handleCelRuntimeError policyId
        request.uid err (.ofSettings settings)
      | .error (.evalFailed text) => .rejectInternalServerError request.uid
        ("ferricel evaluation failed: " ++ text)

/-! ## Warranted responses -/

/-- **A response is warranted**: it has the `uid`, and allows for a reason. -/
structure Warranted (uid : String) (reason : Prop) (response : AdmissionResponse) : Prop where
  uid_eq : response.uid = uid
  allowed : response.allowed = true → reason

theorem warranted_reject {uid message : String} {code : ℕ} {reason : Prop} :
    Warranted uid reason (.reject uid message code) :=
  ⟨rfl, by rintro ⟨⟩⟩

def Accepts (res : List UInt8) : Prop :=
  ∃ polValResp, lib.decodeValidationResponse res = .ok polValResp ∧ polValResp.accepted = true

theorem warranted_fromPolicyValidationResponse {uid : String} {reqObj : Option Value}
    {polValResp : PolicyValidationResponse} {response : AdmissionResponse}
    (h : fromPolicyValidationResponse lib uid reqObj polValResp = .ok response) :
    Warranted uid (polValResp.accepted = true) response := by
  unfold fromPolicyValidationResponse at h
  split at h
  · cases h
    exact ⟨rfl, by rintro ⟨⟩⟩
  · obtain ⟨patch, -, hresponse⟩ := bind_eq_ok.mp h
    cases hresponse
    exact ⟨rfl, id⟩

theorem warranted_verdict (decodeError convertError uid : String)
    (reqObj : Option Value) (res : List UInt8) :
    Warranted uid (Accepts lib res) (verdict lib decodeError convertError uid reqObj res) := by
  unfold verdict
  split
  case h_1 polValResp hdecode =>
    split
    case h_1 response hresponse =>
      have hw := warranted_fromPolicyValidationResponse lib hresponse
      exact ⟨hw.uid_eq, fun h => ⟨polValResp, hdecode, hw.allowed h⟩⟩
    case h_2 => exact warranted_reject
  case h_2 => exact warranted_reject

theorem Warranted.mono {uid : String} {reason reason' : Prop}
    {response : AdmissionResponse} (h : Warranted uid reason response)
    (himp : reason → reason') : Warranted uid reason' response :=
  ⟨h.uid_eq, fun hallowed => himp (h.allowed hallowed)⟩

def WapcAccepts (guest : String → List UInt8 → EngineReport (List UInt8))
    (settings : PolicySettings) (request : ValidateRequest) : Prop :=
  ∃ input res, lib.toVec (validateParams request settings) = .ok input
    ∧ guest "validate" input = .ok res ∧ Accepts lib res

theorem warranted_wapcValidate (guest : String → List UInt8 → EngineReport (List UInt8))
    (settings : PolicySettings) (request : ValidateRequest) :
    Warranted request.uid (WapcAccepts lib guest settings request)
      (wapcValidate lib guest settings request) := by
  unfold wapcValidate
  split
  case h_1 => exact warranted_reject
  case h_2 input hinput =>
    split
    case h_1 res hres =>
      exact (warranted_verdict lib _ _ _ _ res).mono fun h => ⟨input, res, hinput, hres, h⟩
    case h_2 =>
      split
      · exact warranted_reject
      · exact warranted_reject

def WasiAccepts (guest : List UInt8 → List String → WasiRun)
    (settings : PolicySettings) (request : ValidateRequest) : Prop :=
  ∃ input stdout, lib.toVec (validateParams request settings) = .ok input
    ∧ (guest input ["policy.wasm", "validate"]).startFn = .ok ()
    ∧ ((guest input ["policy.wasm", "validate"]).report = .ok ()
      ∨ ∃ text, (guest input ["policy.wasm", "validate"]).report = .error (.exit 0 text))
    ∧ String.fromUTF8? ⟨(guest input ["policy.wasm", "validate"]).stdout.toArray⟩ = some stdout
    ∧ Accepts lib (intoBytes stdout)

theorem pipeToString_eq_ok {name s : String} {buf : List UInt8}
    (h : pipeToString lib name buf = .ok s) :
    String.fromUTF8? ⟨buf.toArray⟩ = some s := by
  unfold pipeToString at h
  split at h
  case h_1 s' hs' =>
    cases h
    exact hs'
  case h_2 => cases h

theorem runInternal_eq_ok {run : WasiRun} {stdout : String} (h : runInternal lib run = .ok stdout) :
    run.startFn = .ok () ∧ (run.report = .ok () ∨ ∃ text, run.report = .error (.exit 0 text))
      ∧ String.fromUTF8? ⟨run.stdout.toArray⟩ = some stdout := by
  obtain ⟨_, -, h⟩ := bind_eq_ok.mp h
  obtain ⟨_, hstart, h⟩ := bind_eq_ok.mp h
  obtain ⟨stderr, -, h⟩ := bind_eq_ok.mp h
  refine ⟨mapError_eq_ok.mp hstart, ?_⟩
  split at h
  case h_1 hreport => exact ⟨.inl hreport, pipeToString_eq_ok lib h⟩
  case h_2 text hreport =>
    exact ⟨.inr ⟨text, hreport⟩, pipeToString_eq_ok lib h⟩
  case h_3 => cases h

theorem warranted_wasiValidate (guest : List UInt8 → List String → WasiRun)
    (settings : PolicySettings) (request : ValidateRequest) :
    Warranted request.uid (WasiAccepts lib guest settings request)
      (wasiValidate lib guest settings request) := by
  unfold wasiValidate
  split
  case h_1 => exact warranted_reject
  case h_2 input hinput =>
    split
    case h_1 stdout hrun =>
      obtain ⟨hstart, hreport, hutf8⟩ := runInternal_eq_ok lib hrun
      exact (warranted_verdict lib _ _ _ _ _).mono
        fun h => ⟨input, stdout, hinput, hstart, hreport, hutf8, h⟩
    case h_2 => exact warranted_reject

def FerricelAccepts (guest : List UInt8 → Except CelEvalError String)
    (settings : PolicySettings) (request : ValidateRequest) : Prop :=
  ∃ r bindings result, request = .admissionRequest r
    ∧ lib.toVec (buildBindings settings r (.ofSettings settings)) = .ok bindings
    ∧ guest bindings = .ok result
    ∧ Accepts lib (intoBytes result)

def FerricelIgnored (guest : List UInt8 → Except CelEvalError String) (settings : PolicySettings)
    (request : ValidateRequest) (response : AdmissionResponse) : Prop :=
  settings.lookup "failurePolicy" = some (.string "Ignore")
    ∧ (∃ r bindings e err, request = .admissionRequest r
      ∧ lib.toVec (buildBindings settings r (.ofSettings settings)) = .ok bindings
      ∧ guest bindings = .error e ∧ e.isInterrupt = false
      ∧ e.celRuntimeError = some err)
    ∧ (∃ warning, response.warnings = some [warning])
    ∧ response.patch = none

open FailurePolicy

theorem ofSettings_eq_ignore {settings : PolicySettings} (h : ofSettings settings = .ignore) :
    settings.lookup "failurePolicy" = some (.string "Ignore") := by
  unfold ofSettings at h
  split at h
  case h_1 failurePolicy hvalue =>
    subst h
    unfold fromValue at hvalue
    split at hvalue
    case h_3 s hs =>
      split at hvalue
      · cases hvalue
      · split at hvalue
        case isTrue hignore => rw [hs, hignore]
        case isFalse => cases hvalue
    all_goals cases hvalue
  case h_2 => cases h

theorem warranted_ferricelValidate (policyId : String)
    (guest : List UInt8 → Except CelEvalError String)
    (settings : PolicySettings) (request : ValidateRequest) :
    Warranted request.uid (FerricelAccepts lib guest settings request
      ∨ FerricelIgnored lib guest settings request
        (ferricelValidate lib policyId guest settings request))
      (ferricelValidate lib policyId guest settings request) := by
  cases request with
  | raw v => exact warranted_reject
  | admissionRequest r =>
    unfold ferricelValidate
    simp only
    split
    case h_1 => exact warranted_reject
    case h_2 bindings hbindings =>
      cases hguest : guest bindings with
      | ok result =>
        exact (warranted_verdict lib _ _ _ _ _).mono fun h =>
          .inl ⟨r, bindings, result, rfl, hbindings, hguest, h⟩
      | error e =>
        cases hint : e.isInterrupt with
        | true =>
          simp only [Except.mapError, toRuntimeError, hint]
          exact warranted_reject
        | false =>
          cases hcel : e.celRuntimeError with
          | none =>
            simp only [Except.mapError, toRuntimeError, hint, hcel]
            exact warranted_reject
          | some err =>
            simp only [Except.mapError, toRuntimeError, hint, hcel]
            -- the one failure that may allow a request
            cases hpolicy : ofSettings settings with
            | fail => exact warranted_reject
            | ignore =>
              rw [hpolicy] at hbindings
              refine ⟨rfl, fun _ => .inr ⟨ofSettings_eq_ignore hpolicy,
                ⟨r, bindings, e, err, rfl, ?_, hguest, hint, hcel⟩,
                ⟨_, rfl⟩, rfl⟩⟩
              rw [hpolicy]
              exact hbindings

end
