import Mathlib.Data.List.Basic

/-!
# Boolean expressions, evaluated from left to right

Expressions over functions, with `&&`, `||` and `!`. Evaluation calls the
functions from left to right and leaves out what is not needed; it agrees with
the formula as long as no call fails (`Expr.eval_eq`).
-/

namespace ShortCircuit

inductive Expr (ν : Type) where
  | call (name : ν)
  | not (e : Expr ν)
  | and (a b : Expr ν)
  | or (a b : Expr ν)

namespace Expr

variable {ν : Type}

def value (v : ν → Bool) : Expr ν → Bool
  | call name => v name
  | not e => !e.value v
  | and a b => a.value v && b.value v
  | or a b => a.value v || b.value v

def calls (v : ν → Bool) : Expr ν → List ν
  | call name => [name]
  | not e => e.calls v
  | and a b => a.calls v ++ if a.value v = false then [] else b.calls v
  | or a b => a.calls v ++ if a.value v = true then [] else b.calls v

def leaves : Expr ν → List ν
  | call name => [name]
  | not e => e.leaves
  | and a b | or a b => a.leaves ++ b.leaves

theorem mem_leaves_of_mem_calls {v : ν → Bool} {e : Expr ν} {name : ν} (h : name ∈ e.calls v) :
    name ∈ e.leaves := by
  induction e with
  | call name' => exact h
  | not e ih => exact ih h
  | and a b iha ihb | or a b iha ihb =>
    rw [calls, List.mem_append] at h
    refine List.mem_append.2 (h.imp iha fun h => ?_)
    split at h
    · cases h
    · exact ihb h

def both (decides : Bool) (first second : Option Bool × List ν) : Option Bool × List ν :=
  match first.1 with
  | none => first
  | some a => if a = decides then first else (second.1, first.2 ++ second.2)

/-! ## Evaluation -/

/-- **The evaluation of an expression**: its result, and what has answered. -/
def eval (answer : ν → Option Bool) : Expr ν → Option Bool × List ν
  | call name =>
    match answer name with
    | some a => (some a, [name])
    | none => (none, [])
  | not e => ((e.eval answer).1.map (!·), (e.eval answer).2)
  | and a b => both false (a.eval answer) (b.eval answer)
  | or a b => both true (a.eval answer) (b.eval answer)

variable {v : ν → Bool} {answer : ν → Option Bool}
  (hv : ∀ name a, answer name = some a → v name = a)

theorem both_eq {decides : Bool} {a b : Expr ν}
    (h : ∀ name ∈ a.calls v ++ (if a.value v = decides then []
      else b.calls v), (answer name).isSome)
    (ha : (∀ name ∈ a.calls v, (answer name).isSome) →
      a.eval answer = (some (a.value v), a.calls v))
    (hb : (∀ name ∈ b.calls v, (answer name).isSome) →
      b.eval answer = (some (b.value v), b.calls v)) :
    both decides (a.eval answer) (b.eval answer)
      = (some (if a.value v = decides then decides else b.value v),
        a.calls v ++ if a.value v = decides then [] else b.calls v) := by
  obtain ⟨hfirst, hsecond⟩ := List.forall_mem_append.1 h
  rw [ha hfirst]
  by_cases hvalue : a.value v = decides
  · simp [both, hvalue]
  · rw [if_neg hvalue] at hsecond
    simp [both, hvalue, hb hsecond]

include hv in
theorem eval_eq {e : Expr ν} (h : ∀ name ∈ e.calls v, (answer name).isSome) :
    e.eval answer = (some (e.value v), e.calls v) := by
  induction e with
  | call name =>
    obtain ⟨a, ha⟩ := Option.isSome_iff_exists.1 (h name (by simp [calls]))
    simp [eval, value, calls, ha, hv name a ha]
  | not e ih => simp [eval, value, calls, ih h]
  | and a b iha ihb =>
    rw [eval, both_eq h iha ihb, value, calls]
    cases a.value v <;> rfl
  | or a b iha ihb =>
    rw [eval, both_eq h iha ihb, value, calls]
    cases a.value v <;> rfl

include hv in
/-- Two operands one of whose calls fails. -/
theorem both_fst_eq_none {decides : Bool} {a b : Expr ν}
    (h : ∃ name ∈ a.calls v ++ (if a.value v = decides then [] else b.calls v), answer name = none)
    (ha : (∃ name ∈ a.calls v, answer name = none) → (a.eval answer).1 = none)
    (hb : (∃ name ∈ b.calls v, answer name = none) → (b.eval answer).1 = none) :
    (both decides (a.eval answer) (b.eval answer)).1 = none := by
  by_cases hfirst : ∃ name ∈ a.calls v, answer name = none
  · rw [both, ha hfirst]
    exact ha hfirst
  · -- the failing call is in the second operand, which is evaluated
    have heval := eval_eq (e := a) hv fun name hname =>
      Option.isSome_iff_ne_none.2 fun hnone => hfirst ⟨name, hname, hnone⟩
    obtain ⟨name, hmem, hnone⟩ := h
    have hsecond := (List.mem_append.1 hmem).resolve_left fun hname => hfirst ⟨name, hname, hnone⟩
    by_cases hvalue : a.value v = decides
    · simp [hvalue] at hsecond
    · rw [if_neg hvalue] at hsecond
      simp [both, heval, hvalue, hb ⟨name, hsecond, hnone⟩]

include hv in
theorem eval_fst_eq_none {e : Expr ν} (h : ∃ name ∈ e.calls v, answer name = none) :
    (e.eval answer).1 = none := by
  induction e with
  | call name =>
    obtain ⟨name', hmem, hnone⟩ := h
    obtain rfl := List.mem_singleton.1 hmem
    simp [eval, hnone]
  | not e ih => simp [eval, ih h]
  | and a b iha ihb => exact both_fst_eq_none hv h iha ihb
  | or a b iha ihb => exact both_fst_eq_none hv h iha ihb

end Expr

end ShortCircuit
