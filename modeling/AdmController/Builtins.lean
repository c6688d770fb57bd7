import AdmController.Effects
import AdmController.Serde

/-!
# Built-in functions of Rego

What the host's implementations of Rego's built-in functions have in common:
their arguments are JSON values, and an error names the function.
-/

namespace Builtins

open Serde

structure BuiltinError where
  (name message : String)
deriving DecidableEq

def wrongNumber (name : String) : BuiltinError := ⟨name, "Wrong number of arguments given"⟩

def asStr (name message : String) : Value → Except BuiltinError String
  | .string s => .ok s
  | _ => .error ⟨name, message⟩

end Builtins
