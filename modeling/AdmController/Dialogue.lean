import Mathlib.Logic.Basic

/-!
# Dialogues

A program that talks to something outside, as the tree of its questions.
`Dialogue.interpret` lets the questions of a guest be answered by a host that
asks in turn: what the host keeps to, both keep to (`Only.interpret`).
-/

/-- **A dialogue** with questions `Q`, answers `A` and a result. -/
inductive Dialogue (Q A α : Type) where
  | done (result : α)
  | ask (question : Q) (next : A → Dialogue Q A α)

namespace Dialogue

variable {Q A Q' A' α β ε : Type}

def bind : Dialogue Q A α → (α → Dialogue Q A β) → Dialogue Q A β
  | done a, f => f a
  | ask q next, f => ask q (fun a => (next a).bind f)

instance : Monad (Dialogue Q A) where
  pure := done
  bind := bind

protected theorem bind_assoc {γ : Type} (d : Dialogue Q A α) (f : α → Dialogue Q A β)
    (g : β → Dialogue Q A γ) : (d.bind f).bind g = d.bind fun a => (f a).bind g := by
  induction d with
  | done a => rfl
  | ask q next ih => simp only [bind, ih]

instance : LawfulMonad (Dialogue Q A) := by
  refine LawfulMonad.mk' _ (fun d => ?_) (fun _ _ => rfl) Dialogue.bind_assoc
  induction d with
  | done a => rfl
  | ask q next ih => exact congrArg (ask q) (funext ih)

def interpret (answer : Q → Dialogue Q' A' A) : Dialogue Q A α → Dialogue Q' A' α
  | done a => done a
  | ask q next => (answer q).bind (fun a => (next a).interpret answer)

/-- **All questions have a property**, whatever the answers. -/
inductive Only (P : Q → Prop) : Dialogue Q A α → Prop
  | done (a : α) : Only P (done a)
  | ask {q : Q} {next : A → Dialogue Q A α} (hq : P q)
    (hnext : ∀ a, Only P (next a)) : Only P (ask q next)

variable {P P' : Q → Prop} {d : Dialogue Q A α}

theorem Only.mono (h : d.Only P) (himp : ∀ q, P q → P' q) : d.Only P' := by
  induction h with
  | done a => exact .done a
  | ask hq _ ih => exact .ask (himp _ hq) ih

variable {f : α → Dialogue Q A β}

theorem Only.bind (h : d.Only P) (hf : ∀ a, (f a).Only P) : (d.bind f).Only P := by
  induction h with
  | done a => exact hf a
  | ask hq _ ih => exact .ask hq ih

theorem Only.of_bind (h : (d.bind f).Only P) : d.Only P := by
  induction d with
  | done a => exact .done a
  | ask q next ih =>
    cases h with
    | ask hq hnext => exact .ask hq fun a => ih a (hnext a)

/-- **A host keeps its guests in bounds** if its answers do. -/
theorem Only.interpret {P : Q' → Prop} {answer : Q → Dialogue Q' A' A}
    (h : ∀ q, (answer q).Only P) (d : Dialogue Q A α) :
    (d.interpret answer).Only P := by
  induction d with
  | done a => exact .done a
  | ask q next ih => exact (h q).bind ih

/-! ## Results -/

def against (answer : List Q → A) : List Q → Dialogue Q A α → α
  | _, done a => a
  | asked, ask q next => (next (answer (asked ++ [q]))).against answer (asked ++ [q])

/-- **All results have a property**, whatever the answers. -/
inductive Ends (P : α → Prop) : Dialogue Q A α → Prop
  | done {a : α} (ha : P a) : Ends P (done a)
  | ask {q : Q} {next : A → Dialogue Q A α} (hnext : ∀ a, Ends P (next a)) : Ends P (ask q next)

theorem ends_bind {P : β → Prop} (hf : ∀ a, (f a).Ends P) (d : Dialogue Q A α) :
    (d.bind f).Ends P := by
  induction d with
  | done a => exact hf a
  | ask q next ih => exact .ask ih

theorem Ends.against {P : α → Prop} (h : d.Ends P) (answer : List Q → A) (asked : List Q) :
    P (d.against answer asked) := by
  induction h generalizing asked with
  | done ha => exact ha
  | ask _ ih => exact ih _ _

/-! ## Dialogues that may fail -/

abbrev Try (Q A ε α : Type) := ExceptT ε (Dialogue Q A) α

def ofExcept (x : Except ε α) : Try Q A ε α := ExceptT.mk (done x)

def Try.Only (P : Q → Prop) (x : Try Q A ε α) : Prop := Dialogue.Only P x.run

theorem ofExcept_bind (x : Except ε α) (f : α → Except ε β) :
    ((ofExcept x : Try Q A ε α) >>= fun a => ofExcept (f a)) = ofExcept (x >>= f) := by
  cases x <;> rfl

theorem Try.only_ofExcept (x : Except ε α) : Try.Only P (ofExcept x : Try Q A ε α) := .done x

theorem Try.only_pure (a : α) : Try.Only P (pure a : Try Q A ε α) := .done _

variable {f : α → Try Q A ε β}

theorem Try.Only.bind {x : Try Q A ε α} (hx : Try.Only P x)
    (hf : ∀ a, Try.Only P (f a)) : Try.Only P (x >>= f) := by
  refine Dialogue.Only.bind hx fun r => ?_
  cases r with
  | ok a => exact hf a
  | error e => exact .done _

theorem Try.Only.of_bind {x : Try Q A ε α} (h : Try.Only P (x >>= f)) : Try.Only P x :=
  Dialogue.Only.of_bind h

theorem Try.only_ofExcept_bind {x : Except ε α} (hf : ∀ a, x = .ok a → Try.Only P (f a)) :
    Try.Only P (ofExcept x >>= f) := by
  cases x with
  | ok a => exact hf a rfl
  | error e => exact .done _

theorem Try.ofExcept_error_bind (e : ε) (f : α → Try Q A ε β) :
    (ofExcept (.error e) >>= f : Try Q A ε β) = ofExcept (.error e) :=
  rfl

theorem Try.ofExcept_ok_bind (a : α) (f : α → Try Q A ε β) :
    (ofExcept (.ok a) >>= f : Try Q A ε β) = f a :=
  rfl

end Dialogue
