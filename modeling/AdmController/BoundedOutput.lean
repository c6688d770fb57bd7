import AdmController.Store

/-!
# The bounded output of a guest

What a WASI guest writes to its standard output is kept up to a capacity. A
write that does not fit is rejected as a whole, with a trap through
`OutputStream` and with an I/O error through `AsyncWrite`.
-/

open List

/-- A pipe; its clones share one buffer. -/
structure BoundedOutputPipe where
  name : String
  capacity : ℕ

namespace BoundedOutputPipe

inductive Failure where
  | trap (message : String)
  | ioError (message : String)

/-- A call, which works on the buffer. -/
abbrev Io (α : Type) := Prog (List UInt8) Failure α

variable (checks : Bool) (pipe : BoundedOutputPipe)

def overflowMessage : String :=
  "policy exceeded the maximum allowed size of " ++ toString pipe.capacity ++ " bytes for "
    ++ pipe.name

/-- What both interfaces do with bytes, but for the failure. -/
def extend (failure : Failure) (bytes : List UInt8) : Io Unit := fun buffer =>
  match usizeSub checks pipe.capacity buffer.length with
  | .ok remaining =>
    if remaining < bytes.length then (.error failure, buffer) else (.ok (), buffer ++ bytes)
  | _ => (.panic, buffer)

def write (bytes : List UInt8) : Io Unit := extend checks pipe (.trap pipe.overflowMessage) bytes

def checkWrite : Io ℕ := fun buffer =>
  (if buffer.length < pipe.capacity then .ok (pipe.capacity - buffer.length)
    else .error (.trap pipe.overflowMessage), buffer)

def pollWrite (bytes : List UInt8) : Io ℕ := do
  extend checks pipe (.ioError pipe.overflowMessage) bytes
  return bytes.length

/-! ## Sequences of calls -/

inductive Call where
  | write (bytes : List UInt8) | checkWrite | flush | ready
  | pollWrite (bytes : List UInt8) | pollFlush | pollShutdown

def Call.bytes : Call → List UInt8
  | .write bytes => bytes
  | .pollWrite bytes => bytes
  | _ => []

/-- The answer to a call, with the number it returns, if any. -/
def answer : Call → Io (Option ℕ)
  | .write bytes => do
    write checks pipe bytes
    return none
  | .pollWrite bytes => do return some (← pollWrite checks pipe bytes)
  | .checkWrite => do return some (← checkWrite pipe)
  | _ => pure none

/-- The calls so far with their answers, and the contents of the pipe. -/
abbrev History := List (Call × Outcome Failure (Option ℕ)) × List UInt8

def record (h : History) (call : Call) : History :=
  (h.1 ++ [(call, (answer checks pipe call h.2).1)], (answer checks pipe call h.2).2)

def after (calls : List Call) : History := calls.foldl (record checks pipe) ([], [])

def accepted (h : History) : List UInt8 := (h.1.filter (·.2.isOk)).flatMap (·.1.bytes)

/-- **All or nothing**: the bytes fit and are written, or the call fails. -/
def WritesAtOnce {α : Type} (bytes buffer : List UInt8) (x : Io α) : Prop :=
  ((∃ a, x buffer = (.ok a, buffer ++ bytes)) ∧ (buffer ++ bytes).length ≤ pipe.capacity)
    ∨ ∃ e, x buffer = (.error e, buffer)

section

variable {pipe} {α β : Type} {bytes buffer : List UInt8} {x : Io α}

theorem WritesAtOnce.bind (h : pipe.WritesAtOnce bytes buffer x) (f : α → β) :
    pipe.WritesAtOnce bytes buffer (do return f (← x)) := by
  rcases h with ⟨⟨a, ha⟩, hfits⟩ | ⟨e, he⟩
  · exact .inl ⟨⟨f a, Prog.bind_of_ok ha _⟩, hfits⟩
  · exact .inr ⟨e, Prog.bind_of_error he _⟩

variable (hbuffer : buffer.length ≤ pipe.capacity)

include hbuffer

theorem writesAtOnce_of_ok {a : α} (hx : x buffer = (.ok a, buffer)) :
    pipe.WritesAtOnce [] buffer x :=
  .inl ⟨⟨a, by rw [append_nil, hx]⟩, by rwa [append_nil]⟩

theorem writesAtOnce_extend (failure : Failure) (bytes : List UInt8) :
    pipe.WritesAtOnce bytes buffer (extend checks pipe failure bytes) := by
  unfold WritesAtOnce extend
  rw [usizeSub, if_pos hbuffer]
  by_cases hfits : pipe.capacity - buffer.length < bytes.length
  · exact .inr ⟨failure, if_pos hfits⟩
  · refine .inl ⟨⟨(), if_neg hfits⟩, ?_⟩
    rw [length_append]
    omega

theorem writesAtOnce_answer (call : Call) :
    pipe.WritesAtOnce call.bytes buffer (answer checks pipe call) := by
  cases call with
  | write bytes => exact (writesAtOnce_extend checks hbuffer _ bytes).bind _
  | pollWrite bytes => exact ((writesAtOnce_extend checks hbuffer _ bytes).bind _).bind _
  | checkWrite =>
    refine WritesAtOnce.bind ?_ some
    by_cases hfull : buffer.length < pipe.capacity
    · exact writesAtOnce_of_ok hbuffer (by rw [checkWrite, if_pos hfull])
    · exact .inr ⟨_, by rw [checkWrite, if_neg hfull]⟩
  | _ => exact writesAtOnce_of_ok hbuffer rfl

end

/-- **The pipe holds the accepted writes**, in order and never more than fits;
no call underflows, and one that is rejected changes nothing. -/
theorem holds_accepted_writes (calls : List Call) :
    let contents := (after checks pipe calls).2
    contents.length ≤ pipe.capacity ∧ contents = accepted (after checks pipe calls)
      ∧ ∀ call, (answer checks pipe call contents).1 ≠ .panic
        ∧ ((answer checks pipe call contents).1.isOk = false →
          (answer checks pipe call contents).2 = contents) := by
  have hinv : (after checks pipe calls).2.length ≤ pipe.capacity
      ∧ (after checks pipe calls).2 = accepted (after checks pipe calls) := by
    induction calls using reverseRecOn with
    | nil => exact ⟨Nat.zero_le _, rfl⟩
    | append_singleton calls call ih =>
      -- the bytes of the call are appended to both sides, or to none
      obtain ⟨hle, heq⟩ := ih
      have hafter : after checks pipe (calls ++ [call])
          = record checks pipe (after checks pipe calls) call := foldl_append
      rw [hafter, record, accepted, filter_append, flatMap_append]
      rcases writesAtOnce_answer checks hle call with ⟨⟨n, hok⟩, hfits⟩ | ⟨e, he⟩
      · rw [hok]
        exact ⟨hfits, congrArg₂ _ heq (append_nil call.bytes).symm⟩
      · rw [he]
        exact ⟨hle, heq.trans (append_nil _).symm⟩
  refine ⟨hinv.1, hinv.2, fun call => ?_⟩
  rcases writesAtOnce_answer checks hinv.1 call with ⟨⟨n, hok⟩, -⟩ | ⟨e, he⟩
  · rw [hok]
    exact ⟨nofun, nofun⟩
  · rw [he]
    exact ⟨nofun, fun _ => rfl⟩

end BoundedOutputPipe
