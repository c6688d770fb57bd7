import AdmController.Serde

/-!
# Admission requests and responses

The records that the API server and the policy server exchange. Guests see the
serialised form of a request, from which absent fields are left out: it has an
object exactly if the field has (`AdmissionRequest.get_object`).
-/

open Serde

/-! ## Requests -/

structure GroupVersionKind where
  (group version kind : String)

structure GroupVersionResource where
  (group version resource : String)

/-- An admission request; what is known about the user is only handed on. -/
structure AdmissionRequest where
  uid : String
  kind : GroupVersionKind
  resource : GroupVersionResource
  subResource : Option String
  requestKind : Option GroupVersionKind
  requestResource : Option GroupVersionResource
  (requestSubResource name reqNamespace : Option String)
  operation : String
  userInfo : Value
  (object oldObject : Option Value)
  dryRun : Option Bool
  options : Option Value

def AdmissionRequest.bare (uid : String) (reqNamespace : Option String) : AdmissionRequest where
  uid := uid
  kind := ⟨"", "v1", "Pod"⟩
  resource := ⟨"", "v1", "pods"⟩
  subResource := none
  requestKind := none
  requestResource := none
  requestSubResource := none
  name := none
  reqNamespace := reqNamespace
  operation := "DELETE"
  userInfo := .mapping []
  object := none
  oldObject := none
  dryRun := none
  options := none

inductive ValidateRequest where
  | raw (v : Value)
  | admissionRequest (r : AdmissionRequest)

def ValidateRequest.uid : ValidateRequest → String
  | .raw (.mapping kvs) =>
    match kvs.lookup (.str "uid") with
    | some (.string s) => s
    | _ => ""
  | .raw _ => ""
  | .admissionRequest r => r.uid

/-! ## Requests, serialised -/

def GroupVersionKind.toValue (k : GroupVersionKind) : Value :=
  .mapping [(.str "group", .string k.group),
    (.str "version", .string k.version), (.str "kind", .string k.kind)]

def GroupVersionResource.toValue (r : GroupVersionResource) : Value :=
  .mapping [(.str "group", .string r.group),
    (.str "version", .string r.version), (.str "resource", .string r.resource)]

def skipIfNone (name : String) (value : Option Value) : List (Key × Value) :=
  (value.map (fun v => (.str name, v))).toList

/-- An admission request, serialised. -/
def AdmissionRequest.toValue (r : AdmissionRequest) : Value :=
  .mapping ([(.str "uid", .string r.uid), (.str "kind", r.kind.toValue),
    (.str "resource", r.resource.toValue)]
    ++ skipIfNone "subResource" (r.subResource.map .string)
    ++ skipIfNone "requestKind" (r.requestKind.map (·.toValue))
    ++ skipIfNone "requestResource" (r.requestResource.map (·.toValue))
    ++ skipIfNone "requestSubResource" (r.requestSubResource.map .string)
    ++ skipIfNone "name" (r.name.map .string)
    ++ skipIfNone "namespace" (r.reqNamespace.map .string)
    ++ [(.str "operation", .string r.operation), (.str "userInfo", r.userInfo)]
    ++ skipIfNone "object" r.object
    ++ skipIfNone "oldObject" r.oldObject
    ++ skipIfNone "dryRun" (r.dryRun.map .bool)
    ++ skipIfNone "options" r.options)

def ValidateRequest.toValue : ValidateRequest → Value
  | .raw v => v
  | .admissionRequest r => r.toValue

theorem find?_skipIfNone_of_ne {name key : String} (h : name ≠ key) (value : Option Value) :
    (skipIfNone name value).find? (fun kv => kv.1 = .str key) = none := by
  cases value with
  | none => rfl
  | some v => simp [skipIfNone, h]

theorem find?_skipIfNone_self (name : String) (value : Option Value) :
    (skipIfNone name value).find? (fun kv => kv.1 = .str name)
      = value.map (fun v => (.str name, v)) := by
  cases value with
  | none => rfl
  | some v => simp [skipIfNone]

theorem AdmissionRequest.get_object (r : AdmissionRequest) : r.toValue.get "object" = r.object := by
  unfold AdmissionRequest.toValue Value.get
  simp (disch := decide) only [List.find?_append, find?_skipIfNone_self,
    find?_skipIfNone_of_ne, List.find?_cons, List.find?_nil]
  cases r.object with
  | none => simp
  | some object => simp

/-! ## Responses -/

inductive PatchType where
  | jsonPatch
deriving DecidableEq

inductive AdmissionResponseStatusValue where
  | success
  | failure
deriving DecidableEq

inductive StatusReason where
  | unknown | unauthorized | forbidden | notFound | alreadyExists | conflict | gone | invalid
  | serverTimeout | timeout | tooManyRequests | badRequest | methodNotAllowed | notAcceptable
  | requestEntityTooLarge | unsupportedMediaType | internalError | expired | serviceUnavailable
deriving DecidableEq

inductive CauseType where
  | fieldValueNotFound | fieldValueRequired | fieldValueDuplicate | fieldValueInvalid
  | fieldValueNotSupported | fieldValueForbidden | fieldValueTooLong | fieldValueTooMany
  | internalError | fieldValueTypeInvalid | unexpectedServerResponse | fieldManagerConflict
  | resourceVersionTooLarge
deriving DecidableEq

structure StatusCause where
  reason : Option CauseType := none
  message : Option String := none
  field : Option String := none
deriving DecidableEq

structure StatusDetails where
  name : Option String := none
  group : Option String := none
  kind : Option String := none
  uid : Option String := none
  causes : List StatusCause := []
  retryAfterSeconds : Option ℤ := none
deriving DecidableEq

structure AdmissionResponseStatus where
  status : Option AdmissionResponseStatusValue := none
  message : Option String := none
  reason : Option StatusReason := none
  details : Option StatusDetails := none
  code : Option ℕ := none
deriving DecidableEq

structure AdmissionResponse where
  uid : String
  allowed : Bool
  patchType : Option PatchType
  patch : Option String
  status : Option AdmissionResponseStatus
  auditAnnotations : Option (List (String × String))
  warnings : Option (List String)
deriving DecidableEq

def AdmissionResponse.reject (uid message : String) (code : ℕ) : AdmissionResponse where
  uid := uid
  allowed := false
  patchType := none
  patch := none
  status := some { message := some message, code := some code }
  auditAnnotations := none
  warnings := none
