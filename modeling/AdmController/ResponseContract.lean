import AdmController.Service

/-!
# What becomes of a response

`AdmissionResponseHandler.processResponse` applies the monitor mode, mutations
that are not allowed, and the custom message (`Contract`). A type of patch
without a patch, as a Rego policy may give, is handed on (`contract_iff`).
-/

namespace AdmissionResponseHandler

def checkedStatus (h : AdmissionResponseHandler)
    (response : AdmissionResponse) : Option AdmissionResponseStatus :=
  if h.policyMode = .protect ∧ h.allowedToMutate = false ∧ response.patch.isSome then
    some { message := some (rejectionMessageBecausePolicyIsNotAllowedToMutate h.policyId) }
  else response.status

/-- **A custom message takes the place of another**, now the last cause. -/
structure Replaces (message : String) (before after : AdmissionResponseStatus) : Prop where
  message_eq : after.message = some message
  code_eq : after.code = before.code
  status_eq : after.status = before.status
  reason_eq : after.reason = before.reason
  details_eq : after.details = some
    { before.details.getD {} with
      causes := (before.details.getD {}).causes ++ [{ message := some (before.message.getD "") }] }

/-- **What `process_response` promises** about one response. -/
structure Contract (h : AdmissionResponseHandler) (response : AdmissionResponse) : Prop where
  uid_eq : (h.processResponse response).uid = response.uid
  warnings_eq : (h.processResponse response).warnings = response.warnings
  auditAnnotations_eq : (h.processResponse response).auditAnnotations = response.auditAnnotations
  monitor : h.policyMode = .monitor → (h.processResponse response).allowed = true
    ∧ (h.processResponse response).patch = none
    ∧ (h.processResponse response).patchType = none
    ∧ (h.processResponse response).status = none
  validating : h.policyMode = .protect → h.allowedToMutate = false →
    (h.processResponse response).patch = none ∧ (h.processResponse response).patchType = none
      ∧ ((h.processResponse response).allowed = true
        ↔ response.allowed = true ∧ response.patch = none)
  mutating : h.policyMode = .protect → h.allowedToMutate = true →
    (h.processResponse response).allowed = response.allowed
      ∧ (h.processResponse response).patch = response.patch
      ∧ (h.processResponse response).patchType = response.patchType
  rejected : (h.processResponse response).allowed = false →
    ∀ message, h.customRejectionMessage = some message →
      ∃ after, (h.processResponse response).status = some after
        ∧ Replaces message ((h.checkedStatus response).getD {}) after

variable {h : AdmissionResponseHandler} {response : AdmissionResponse}

/-! ## The three steps -/

theorem processResponse_of_monitor (hmode : h.policyMode = .monitor) : h.processResponse response
    = { response with
        allowed := true, patchType := none, patch := none
        status := none } := by
  simp [processResponse, applyMonitorMode, applyMutationConstraint,
    applyCustomRejectionMessage, hmode]

theorem processResponse_of_protect (hmode : h.policyMode = .protect) : h.processResponse response
    = h.applyCustomRejectionMessage (h.applyMutationConstraint response) := by
  simp [processResponse, applyMonitorMode, hmode]

theorem applyCustomRejectionMessage_eq (h : AdmissionResponseHandler)
    (response : AdmissionResponse) :
    h.applyCustomRejectionMessage response
      = { response with
          status := (h.applyCustomRejectionMessage response).status } := by
  unfold applyCustomRejectionMessage
  split
  · rfl
  · split
    · rfl
    · rfl

theorem status_applyCustomRejectionMessage (hrejected : response.allowed = false)
    {message : String} (hmessage : h.customRejectionMessage = some message) :
    ∃ after, (h.applyCustomRejectionMessage response).status = some after
      ∧ Replaces message (response.status.getD {}) after := by
  unfold applyCustomRejectionMessage
  rw [hrejected, hmessage]
  exact ⟨_, rfl, rfl, rfl, rfl, rfl, rfl⟩

theorem applyMutationConstraint_spec (hmode : h.policyMode = .protect) :
    (h.applyMutationConstraint response).uid = response.uid
      ∧ (h.applyMutationConstraint response).warnings = response.warnings
      ∧ (h.applyMutationConstraint response).auditAnnotations = response.auditAnnotations
      ∧ (h.applyMutationConstraint response).status = h.checkedStatus response := by
  unfold applyMutationConstraint checkedStatus
  cases hallowed : h.allowedToMutate with
  | true => simp [hmode]
  | false =>
    cases hpatch : response.patch with
    | none => simp [hmode]
    | some patch => simp [hmode]

/-! ## The contract -/

theorem contract_of_monitor (hmode : h.policyMode = .monitor) : h.Contract response := by
  have hno : h.policyMode ≠ .protect := by rw [hmode]; decide
  constructor
  all_goals rw [processResponse_of_monitor hmode]
  case monitor => exact fun _ => ⟨rfl, rfl, rfl, rfl⟩
  case validating => exact fun hprotect => absurd hprotect hno
  case mutating => exact fun hprotect => absurd hprotect hno
  case rejected => rintro ⟨⟩

theorem processResponse_of_validating (hmode : h.policyMode = .protect)
    (hallowed : h.allowedToMutate = false) :
    (h.processResponse response).patch = none ∧ ((h.processResponse response).patchType = none
      ↔ ¬ (response.patch = none ∧ response.patchType ≠ none))
      ∧ ((h.processResponse response).allowed = true
        ↔ response.allowed = true ∧ response.patch = none) := by
  rw [processResponse_of_protect hmode, applyCustomRejectionMessage_eq]
  unfold applyMutationConstraint
  cases hpatch : response.patch with
  | none => simp [hmode, hallowed, hpatch]
  | some patch => simp [hmode, hallowed]

theorem contract_of_protect (hmode : h.policyMode = .protect)
    (hno : h.allowedToMutate = false → ¬ (response.patch = none ∧ response.patchType ≠ none)) :
    h.Contract response := by
  have hmonitor : h.policyMode ≠ .monitor := by rw [hmode]; decide
  have hsteps : h.processResponse response
      = { h.applyMutationConstraint response with
          status := (h.processResponse response).status } := by
    rw [processResponse_of_protect hmode]
    exact applyCustomRejectionMessage_eq h _
  obtain ⟨huid, hwarnings, hannotations, hstatus⟩ := applyMutationConstraint_spec hmode
  refine ⟨?_, ?_, ?_, fun hm => absurd hm hmonitor, fun _ hallowed => ?_, fun _ hallowed => ?_,
    fun hrejected message hmsg => ?_⟩
  · rw [hsteps]
    exact huid
  · rw [hsteps]
    exact hwarnings
  · rw [hsteps]
    exact hannotations
  · obtain ⟨hpatch, hpatchType, hiff⟩ := processResponse_of_validating hmode hallowed
    exact ⟨hpatch, hpatchType.2 (hno hallowed), hiff⟩
  · have hsame : h.applyMutationConstraint response = response := by
      simp [applyMutationConstraint, hmode, hallowed]
    rw [hsteps, hsame]
    exact ⟨rfl, rfl, rfl⟩
  · have hchecked : (h.applyMutationConstraint response).allowed = false := by
      rw [hsteps] at hrejected
      exact hrejected
    rw [processResponse_of_protect hmode, ← hstatus]
    exact status_applyCustomRejectionMessage hchecked hmsg

/-- **When the contract is kept**: unless a policy that may not mutate answers
with a type of patch and no patch. -/
theorem contract_iff (h : AdmissionResponseHandler) (response : AdmissionResponse) :
    h.Contract response ↔ ¬ (h.policyMode = .protect ∧ h.allowedToMutate = false
      ∧ response.patch = none ∧ response.patchType ≠ none) := by
  cases hmode : h.policyMode with
  | monitor => exact iff_of_true (contract_of_monitor hmode) (by simp)
  | protect =>
    constructor
    · rintro hcontract ⟨-, hallowed, hgap⟩
      have hnone := (hcontract.validating hmode hallowed).2.1
      exact (processResponse_of_validating hmode hallowed).2.1.1 hnone hgap
    · intro hno
      exact contract_of_protect hmode fun hallowed hgap =>
        hno ⟨rfl, hallowed, hgap⟩

def patchTypeOnly : AdmissionResponse where
  uid := "uid"
  allowed := true
  patchType := some .jsonPatch
  patch := none
  status := none
  auditAnnotations := none
  warnings := none

/-- **A type of patch without a patch** gets through the check. -/
theorem patchTypeOnly_is_kept : ((AdmissionResponseHandler.mk (.policy "p") .protect false
        none).processResponse patchTypeOnly).patchType = some .jsonPatch
      ∧ ¬ (AdmissionResponseHandler.mk (.policy "p") .protect false
        none).Contract patchTypeOnly := by
  have hkept : ((AdmissionResponseHandler.mk (.policy "p") .protect false
    none).processResponse patchTypeOnly).patchType = some .jsonPatch := rfl
  refine ⟨hkept, fun hcontract => ?_⟩
  have hnone := (hcontract.validating rfl rfl).2.1
  rw [hkept] at hnone
  cases hnone

end AdmissionResponseHandler
