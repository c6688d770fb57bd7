import AdmController.GuestVerdicts

/-!
# The patches of mutating policies

A policy that mutates answers with the whole object; the API server gets a JSON
patch and its type.
-/

open Serde Fallible

def ValidateRequest.target : ValidateRequest → Option Value
  | .raw v => some v
  | .admissionRequest r => r.object

theorem ValidateRequest.reqObj_eq_target (request : ValidateRequest) :
    request.reqObj = request.target := by
  cases request with
  | raw v => rfl
  | admissionRequest r => exact r.get_object

structure PatchReader where
  decodeBase64 : String → Option String
  parsePatch : String → Option (List Value)
  applyPatch : List Value → Value → Option Value

/-- **The libraries fit together**: what was encoded can be read again, a
difference leads from the one value to the other, and equal values have none. -/
structure PatchLaws (lib : VerdictLib) (reader : PatchReader) : Prop where
  decode_base64 : ∀ text, reader.decodeBase64 (lib.base64 text) = some text
  parse_toString : ∀ ops text, lib.patchToString ops = .ok text → reader.parsePatch text = some ops
  apply_diff : ∀ a b, reader.applyPatch (lib.diff a b) a = some b
  diff_eq_nil : ∀ a b, lib.diff a b = [] ↔ a = b

def Typed (response : AdmissionResponse) : Prop := response.patch.isSome ↔ response.patchType.isSome

/-- **What a response to a policy's answer promises** about mutations. -/
structure PatchContract (reader : PatchReader) (request : ValidateRequest)
    (polValResp : PolicyValidationResponse) (response : AdmissionResponse) :
    Prop where
  typed : Typed response
  applies : ∀ patch, response.patch = some patch →
    ∃ ops original mutated, request.target = some original ∧ polValResp.mutatedObject = some mutated
      ∧ (reader.decodeBase64 patch).bind reader.parsePatch = some ops
      ∧ reader.applyPatch ops original = some mutated
  unchanged : ∀ original, request.target = some original →
    polValResp.mutatedObject = some original → response.patch = none
  deleted : ∀ r : AdmissionRequest, request = .admissionRequest r →
    r.object = none → polValResp.mutatedObject.isSome → response.allowed = false

section

variable {lib : VerdictLib} {reader : PatchReader}

theorem typed_reject (uid message : String) (code : ℕ) : Typed (.reject uid message code) := .rfl

theorem patchContract_reject (request : ValidateRequest) (polValResp : PolicyValidationResponse)
    (uid message : String) (code : ℕ) :
    PatchContract reader request polValResp (.reject uid message code) where
  typed := typed_reject uid message code
  applies := by rintro patch ⟨⟩
  unchanged := fun _ _ _ => rfl
  deleted := fun _ _ _ _ => rfl

theorem mutationPatch_eq_some (laws : PatchLaws lib reader) {mutatedObject reqObj : Option Value}
    {patch : String} (h : mutationPatch lib mutatedObject reqObj = .ok (some patch)) :
    ∃ ops original mutated, reqObj = some original ∧ mutatedObject = some mutated
      ∧ (reader.decodeBase64 patch).bind reader.parsePatch = some ops
      ∧ reader.applyPatch ops original = some mutated := by
  unfold mutationPatch at h
  split at h
  case h_1 mutated original =>
    split at h
    · cases h
    · obtain ⟨text, htext, hpatch⟩ := map_eq_ok.1 (mapError_eq_ok.1 h)
      obtain rfl := Option.some.inj hpatch
      refine ⟨_, original, mutated, rfl, rfl, ?_, laws.apply_diff _ _⟩
      rw [laws.decode_base64]
      exact laws.parse_toString _ _ htext
  case h_2 => cases h

theorem mutationPatch_self (laws : PatchLaws lib reader) (v : Value) :
    mutationPatch lib (some v) (some v) = .ok none := by
  simp only [mutationPatch, (laws.diff_eq_nil v v).2 rfl]

variable {polValResp : PolicyValidationResponse}

theorem typed_fromPolicyValidationResponse {uid : String} {reqObj : Option Value}
    {response : AdmissionResponse}
    (h : fromPolicyValidationResponse lib uid reqObj polValResp = .ok response) :
    Typed response := by
  unfold fromPolicyValidationResponse at h
  split at h
  · cases h
    exact .rfl
  · obtain ⟨patch, -, hresponse⟩ := bind_eq_ok.1 h
    cases hresponse
    cases patch with
    | none => exact .rfl
    | some patch => exact .rfl

theorem patchContract_fromPolicyValidationResponse (laws : PatchLaws lib reader)
    {request : ValidateRequest} {uid : String} {response : AdmissionResponse}
    (h : fromPolicyValidationResponse lib uid request.reqObj polValResp = .ok response) :
    PatchContract reader request polValResp response := by
  have htyped := typed_fromPolicyValidationResponse h
  rw [request.reqObj_eq_target] at h
  unfold fromPolicyValidationResponse at h
  split at h
  case h_1 mutated hmutated htarget =>
    cases h
    exact ⟨htyped, by rintro patch ⟨⟩, fun _ _ _ => rfl, fun _ _ _ _ => rfl⟩
  case h_2 hno =>
    obtain ⟨patch, hpatch, hresponse⟩ := bind_eq_ok.1 h
    cases hresponse
    refine ⟨htyped, ?_, ?_, ?_⟩
    · rintro patch' rfl
      exact mutationPatch_eq_some laws hpatch
    · intro original htarget hmutated
      rw [htarget, hmutated, mutationPatch_self laws] at hpatch
      exact (Except.ok.inj hpatch).symm
    · intro r hr hobject hmutated
      -- a request without object has been dealt with before
      obtain ⟨mutated, hmutated⟩ := Option.isSome_iff_exists.1 hmutated
      refine (hno mutated hmutated ?_).elim
      rw [hr]
      exact hobject

theorem patchContract_verdict (laws : PatchLaws lib reader) {decodeError convertError uid : String}
    {request : ValidateRequest} {res : List UInt8}
    (hdecode : lib.decodeValidationResponse res = .ok polValResp) :
    PatchContract reader request polValResp
      (verdict lib decodeError convertError uid request.reqObj res) := by
  simp only [verdict, hdecode]
  split
  case h_1 response hresponse =>
    exact patchContract_fromPolicyValidationResponse laws hresponse
  case h_2 => exact patchContract_reject _ _ _ _ _

theorem typed_verdict (decodeError convertError uid : String)
    (reqObj : Option Value) (res : List UInt8) :
    Typed (verdict lib decodeError convertError uid reqObj res) := by
  unfold verdict
  split
  case h_1 =>
    split
    case h_1 response hresponse =>
      exact typed_fromPolicyValidationResponse hresponse
    case h_2 => exact typed_reject _ _ _
  case h_2 => exact typed_reject _ _ _

end

section

variable (lib : VerdictLib) (settings : PolicySettings)
  (request : ValidateRequest) (polValResp : PolicyValidationResponse)

variable (guest : String → List UInt8 → EngineReport (List UInt8))

/-! ## The three runtimes -/

def WapcAnswers : Prop :=
  ∃ input res, lib.toVec (validateParams request settings) = .ok input
    ∧ guest "validate" input = .ok res
    ∧ lib.decodeValidationResponse res = .ok polValResp

def WasiAnswers (guest : List UInt8 → List String → WasiRun) : Prop :=
  ∃ input stdout, lib.toVec (validateParams request settings) = .ok input
    ∧ runInternal lib (guest input ["policy.wasm", "validate"]) = .ok stdout
    ∧ lib.decodeValidationResponse (RustStr.intoBytes stdout) = .ok polValResp

def FerricelAnswers (guest : List UInt8 → Except CelEvalError String) : Prop :=
  ∃ r bindings result, request = .admissionRequest r
    ∧ lib.toVec (buildBindings settings r (.ofSettings settings)) = .ok bindings
    ∧ guest bindings = .ok result
    ∧ lib.decodeValidationResponse (RustStr.intoBytes result) = .ok polValResp

variable {lib settings request polValResp} {reader : PatchReader}

theorem typed_wapcValidate : Typed (wapcValidate lib guest settings request) := by
  unfold wapcValidate
  split
  · exact typed_reject _ _ _
  · split
    · exact typed_verdict _ _ _ _ _
    · split
      · exact typed_reject _ _ _
      · exact typed_reject _ _ _

theorem typed_wasiValidate (guest : List UInt8 → List String → WasiRun) :
    Typed (wasiValidate lib guest settings request) := by
  unfold wasiValidate
  split
  · exact typed_reject _ _ _
  · split
    · exact typed_verdict _ _ _ _ _
    · exact typed_reject _ _ _

theorem typed_ferricelValidate (policyId : String)
    (guest : List UInt8 → Except CelEvalError String) :
    Typed (ferricelValidate lib policyId guest settings request) := by
  unfold ferricelValidate
  split
  · exact typed_reject _ _ _
  · split
    · exact typed_reject _ _ _
    · split
      · exact typed_verdict _ _ _ _ _
      · exact typed_reject _ _ _
      · unfold handleCelRuntimeError
        split
        · exact typed_reject _ _ _
        · exact .rfl
      · exact typed_reject _ _ _

/-- **Patches lead to the object of the policy.** A patch comes with its type,
can be decoded, and applied to the object of the request gives the mutated one;
equal objects make no patch, and without an object a mutation is rejected. -/
theorem patches_of_runtimes (laws : PatchLaws lib reader)
    (settings : PolicySettings) (request : ValidateRequest) :
    (∀ guest, Typed (wapcValidate lib guest settings request)
      ∧ ∀ polValResp, WapcAnswers lib settings request polValResp guest →
        PatchContract reader request polValResp (wapcValidate lib guest settings request))
      ∧ (∀ guest, Typed (wasiValidate lib guest settings request)
        ∧ ∀ polValResp, WasiAnswers lib settings request polValResp guest →
          PatchContract reader request polValResp (wasiValidate lib guest settings request))
      ∧ ∀ policyId guest, Typed (ferricelValidate lib policyId guest settings request)
        ∧ ∀ polValResp, FerricelAnswers lib settings request polValResp guest →
          PatchContract reader request polValResp
            (ferricelValidate lib policyId guest settings request) := by
  refine ⟨fun guest => ⟨typed_wapcValidate guest, ?_⟩, fun guest => ⟨typed_wasiValidate guest, ?_⟩,
    fun policyId guest => ⟨typed_ferricelValidate policyId guest, ?_⟩⟩
  · rintro polValResp ⟨input, res, hinput, hres, hdecode⟩
    simp only [wapcValidate, hinput, hres]
    exact patchContract_verdict laws hdecode
  · rintro polValResp ⟨input, stdout, hinput, hrun, hdecode⟩
    simp only [wasiValidate, hinput, hrun]
    exact patchContract_verdict laws hdecode
  · rintro polValResp ⟨r, bindings, result, rfl, hbindings, hguest, hdecode⟩
    simp only [ferricelValidate, hbindings, hguest, Except.mapError]
    exact patchContract_verdict laws hdecode

end

/-! ## Libraries that fit together -/

open Classical in
noncomputable def nullingLib : VerdictLib where
  toVec := fun _ => .ok []
  decodeValidationResponse := fun _ =>
    .ok ⟨true, none, none, some .null, none, none⟩
  diff := fun a b => if a = b then [] else [b]
  patchToString := fun ops =>
    if ops = [.null] then .ok "[null]" else .error "not serialisable"
  base64 := id
  utf8Error := fun _ => "invalid utf-8 sequence"
  failureText := fun _ => "guest call failure"

def nullingReader : PatchReader where
  decodeBase64 := some
  parsePatch := fun text => if text = "[null]" then some [.null] else none
  applyPatch := fun ops a => some (ops.headD a)

theorem nullingLib_laws : PatchLaws nullingLib nullingReader where
  decode_base64 := fun _ => rfl
  parse_toString := by
    intro ops text h
    simp only [nullingLib] at h
    split at h
    case isTrue hops =>
      cases h
      exact congrArg some hops.symm
    case isFalse => cases h
  apply_diff := by
    intro a b
    by_cases hab : a = b
    · simp [nullingLib, nullingReader, hab]
    · simp [nullingLib, nullingReader, hab]
  diff_eq_nil := by
    intro a b
    simp [nullingLib]

theorem patches_of_nullingLib : (wapcValidate nullingLib (fun _ _ => .ok []) []
        (.raw (.bool true))).patch = some "[null]"
      ∧ PatchContract nullingReader (.raw (.bool true)) ⟨true, none, none, some .null, none, none⟩
        (wapcValidate nullingLib (fun _ _ => .ok []) [] (.raw (.bool true))) := by
  refine ⟨?_, ((patches_of_runtimes nullingLib_laws [] (.raw (.bool true))).1
    _).2 _ ⟨[], [], rfl, rfl, rfl⟩⟩
  simp [wapcValidate, verdict, fromPolicyValidationResponse, mutationPatch,
    ValidateRequest.reqObj, nullingLib, Except.map, Except.mapError,
    Functor.map]
