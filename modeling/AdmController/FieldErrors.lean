import AdmController.Serde

/-!
# Field errors

The errors with which an admission webhook of the Kubernetes API rejects an
object: each one names the field it is about, and carries a type, the value
found there and an explanation.
-/

/-- The path of a field: names, positions in a list and keys of a map. -/
inductive FieldPath where
  | root (name : String)
  | child (parent : FieldPath) (name : String)
  | index (parent : FieldPath) (position : ℕ)
  | key (parent : FieldPath) (name : String)
deriving DecidableEq

inductive FieldErrorType where
  | required | invalid | duplicate | forbidden | tooMany | internal
deriving DecidableEq

structure FieldError where
  type : FieldErrorType
  field : FieldPath
  badValue : Serde.Value
  detail : String

namespace FieldError

variable (field : FieldPath)

def invalid (badValue : Serde.Value) (detail : String) : FieldError :=
  ⟨.invalid, field, badValue, detail⟩

def required (detail : String) : FieldError := ⟨.required, field, .string "", detail⟩

def duplicate (badValue : Serde.Value) : FieldError := ⟨.duplicate, field, badValue, ""⟩

def forbidden (detail : String) : FieldError := ⟨.forbidden, field, .string "", detail⟩

def tooMany (actual max : ℕ) : FieldError :=
  ⟨.tooMany, field, .number actual, "must have at most " ++ toString max ++ " items"⟩

def internalError (detail : String) : FieldError := ⟨.internal, field, .null, detail⟩

end FieldError

def checkEach {α : Type} (path : FieldPath)
    (check : FieldPath → α → Option FieldError) (l : List α) :
    List FieldError :=
  l.zipIdx.filterMap fun x => check (path.index x.2) x.1

theorem checkEach_eq_nil {α : Type} {path : FieldPath}
    {check : FieldPath → α → Option FieldError} {l : List α} :
    checkEach path check l = [] ↔ ∀ i x, l[i]? = some x → check (path.index i) x = none := by
  unfold checkEach
  rw [List.filterMap_eq_nil_iff]
  constructor
  · intro h i x hx
    exact h (x, i) (List.mk_mem_zipIdx_iff_getElem?.2 hx)
  · rintro h ⟨x, i⟩ hx
    exact h i x (List.mk_mem_zipIdx_iff_getElem?.1 hx)
