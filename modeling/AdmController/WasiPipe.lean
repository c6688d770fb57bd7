import Mathlib.Data.List.Infix

/-!
# The standard input of WASI guests

The host hands its payloads to a WASI guest through one pipe. A new payload
replaces what is left of the one before (`Conserved`).
-/

open List

inductive WasiRuntimeError where
  | wasiPipePoisonedLock
deriving DecidableEq

def WasiRuntimeError.toText : WasiRuntimeError → String
  | .wasiPipePoisonedLock => "cannot acquire lock on WasiPipe buffer: lock is poisoned"

inductive StreamError where
  | closed
  | trap (text : String)
deriving DecidableEq

/-- **The pipe**: a buffer behind a lock, which a panic poisons. -/
structure WasiPipe where
  buffer : List UInt8
  poisoned : Bool
deriving DecidableEq

namespace WasiPipe

variable (data : List UInt8)

def new : WasiPipe := ⟨data, false⟩

variable (pipe : WasiPipe)

def lock : Except WasiRuntimeError (List UInt8) :=
  if pipe.poisoned then .error .wasiPipePoisonedLock else .ok pipe.buffer

def send :
    Except WasiRuntimeError WasiPipe := do
  let buffer ← pipe.lock
  let buffer := if buffer.isEmpty then buffer else []
  return { pipe with buffer := buffer ++ data }

def readBytes (size : ℕ) : Except WasiRuntimeError (Option (List UInt8) × WasiPipe) := do
  let buffer ← pipe.lock
  if buffer.isEmpty then return (none, pipe)
  let amt := min size buffer.length
  return (some (buffer.take amt), { pipe with buffer := buffer.drop amt })

def read (size : ℕ) : Except StreamError (List UInt8) × WasiPipe :=
  match pipe.readBytes size with
  | .ok (some data, pipe') => (.ok data, pipe')
  | .ok (none, pipe') => (.error .closed, pipe')
  | .error e => (.error (.trap e.toText), pipe)

def pollRead (remaining : ℕ) : Except String (List UInt8) × WasiPipe :=
  match pipe.readBytes remaining with
  | .ok (none, pipe') => (.ok [], pipe')
  | .ok (some data, pipe') => (.ok data, pipe')
  | .error e => (.error e.toText, pipe)

inductive PipeCall where
  | send (data : List UInt8)
  | read (size : ℕ)
  | pollRead (remaining : ℕ)

/-- **A transfer**: the pipe, the payloads, and what was read of the last. -/
structure Transfer where
  pipe : WasiPipe
  earlier : List (List UInt8)
  (payload received : List UInt8)

def Transfer.start : Transfer := ⟨new data, [], data, []⟩

def bytesOf {ε : Type} : Except ε (List UInt8) → List UInt8
  | .ok data => data
  | .error _ => []

def Transfer.perform (t : Transfer) : PipeCall → Transfer
  | .send data =>
    match t.pipe.send data with
    | .ok pipe => ⟨pipe, t.payload :: t.earlier, data, []⟩
    | .error _ => t
  | .read size =>
    let (answer, pipe) := t.pipe.read size
    { t with pipe := pipe, received := t.received ++ bytesOf answer }
  | .pollRead remaining =>
    let (answer, pipe) := t.pipe.pollRead remaining
    { t with pipe := pipe, received := t.received ++ bytesOf answer }

section

variable (pipe : WasiPipe)

/-! ## What one call does -/

theorem send_cases : pipe.send data = .ok ⟨data, pipe.poisoned⟩
    ∨ ∃ e, pipe.send data = .error e := by
  unfold send lock
  by_cases hpoisoned : pipe.poisoned = true
  · rw [if_pos hpoisoned]
    exact .inr ⟨_, rfl⟩
  · rw [if_neg hpoisoned]
    refine .inl ?_
    cases pipe.buffer with
    | nil => rfl
    | cons b rest => rfl

theorem readBytes_cases (size : ℕ) : (pipe.buffer = [] ∧ pipe.readBytes size = .ok (none, pipe))
    ∨ (pipe.buffer ≠ [] ∧ ∃ data rest, data ++ rest = pipe.buffer
      ∧ data.length = min size pipe.buffer.length
      ∧ pipe.readBytes size = .ok (some data, ⟨rest, pipe.poisoned⟩))
    ∨ ∃ e, pipe.readBytes size = .error e := by
  unfold readBytes lock
  by_cases hpoisoned : pipe.poisoned = true
  · rw [if_pos hpoisoned]
    exact .inr (.inr ⟨_, rfl⟩)
  · rw [if_neg hpoisoned]
    by_cases hempty : pipe.buffer = []
    · refine .inl ⟨hempty, ?_⟩
      show (if pipe.buffer.isEmpty = true then _ else _) = _
      rw [if_pos (isEmpty_iff.2 hempty)]
      rfl
    · refine .inr (.inl ⟨hempty, _, _, take_append_drop (min size pipe.buffer.length) _, ?_, ?_⟩)
      · exact length_take_of_le (Nat.min_le_right _ _)
      · show (if pipe.buffer.isEmpty = true then _ else _) = _
        rw [if_neg fun h => hempty (isEmpty_iff.1 h)]
        rfl

theorem read_conserves (size : ℕ) :
    bytesOf (pipe.read size).1 ++ (pipe.read size).2.buffer = pipe.buffer := by
  unfold read
  rcases pipe.readBytes_cases size with
    ⟨-, h⟩ | ⟨-, data, rest, hdata, -, h⟩ | ⟨e, h⟩
  · rw [h]
    rfl
  · rw [h]
    exact hdata
  · rw [h]
    rfl

theorem pollRead_conserves (remaining : ℕ) :
    bytesOf (pipe.pollRead remaining).1 ++ (pipe.pollRead remaining).2.buffer = pipe.buffer := by
  unfold pollRead
  rcases pipe.readBytes_cases remaining with
    ⟨-, h⟩ | ⟨-, data, rest, hdata, -, h⟩ | ⟨e, h⟩
  · rw [h]
    rfl
  · rw [h]
    exact hdata
  · rw [h]
    rfl

theorem buffer_eq_nil_of_closed {size : ℕ}
    (h : (pipe.read size).1 = .error .closed) : pipe.buffer = [] := by
  unfold read at h
  rcases pipe.readBytes_cases size with
    ⟨hempty, -⟩ | ⟨-, data, rest, -, -, heq⟩ | ⟨e, heq⟩
  · exact hempty
  · rw [heq] at h
    cases h
  · rw [heq] at h
    cases h

theorem buffer_eq_nil_of_polled {remaining : ℕ} (hroom : 0 < remaining)
    (h : (pipe.pollRead remaining).1 = .ok []) : pipe.buffer = [] := by
  unfold pollRead at h
  rcases pipe.readBytes_cases remaining with
    ⟨hempty, -⟩ | ⟨hsome, data, rest, -, hlength, heq⟩ | ⟨e, heq⟩
  · exact hempty
  · rw [heq] at h
    obtain rfl : data = [] := Except.ok.inj h
    have hpos := length_pos_iff.2 hsome
    rw [length_nil] at hlength
    omega
  · rw [heq] at h
    cases h

end

/-! ## What a run does -/

/-- **Nothing is lost and nothing comes twice** of the last payload. -/
def Transfer.Conserved (t : Transfer) : Prop := t.received ++ t.pipe.buffer = t.payload

theorem Transfer.Conserved.perform {t : Transfer} (h : t.Conserved)
    (call : PipeCall) : (t.perform call).Conserved := by
  cases call with
  | send data =>
    rcases t.pipe.send_cases data with hsend | ⟨e, hsend⟩
    · rw [Transfer.perform, hsend]
      rfl
    · rw [Transfer.perform, hsend]
      exact h
  | read size =>
    show (t.received ++ bytesOf (t.pipe.read size).1) ++ (t.pipe.read size).2.buffer = t.payload
    rw [append_assoc, read_conserves]
    exact h
  | pollRead remaining =>
    show (t.received ++ bytesOf (t.pipe.pollRead remaining).1)
      ++ (t.pipe.pollRead remaining).2.buffer = t.payload
    rw [append_assoc, pollRead_conserves]
    exact h

theorem conserved_run (calls : List PipeCall) :
    (calls.foldl Transfer.perform (.start data)).Conserved :=
  foldlRecOn calls Transfer.perform rfl fun _ h call _ => h.perform call

def largest (payloads : List (List UInt8)) : ℕ := payloads.foldr (fun p n => max p.length n) 0

/-! ## Reading to the end of file -/

/-- A call by which the guest asks for at least one byte. -/
def PipeCall.Reads : PipeCall → Prop
  | .send _ => False
  | .read size => 0 < size
  | .pollRead remaining => 0 < remaining

/-- **The lock is never poisoned**: no call panics while it holds it. -/
theorem poisoned_perform {t : Transfer} (h : t.pipe.poisoned = false) (call : PipeCall) :
    (t.perform call).pipe.poisoned = false := by
  cases call with
  | send data =>
    rcases t.pipe.send_cases data with hsend | ⟨e, hsend⟩
    · rw [Transfer.perform, hsend]
      exact h
    · rw [Transfer.perform, hsend]
      exact h
  | read size =>
    show (t.pipe.read size).2.poisoned = false
    unfold read
    rcases t.pipe.readBytes_cases size with ⟨-, heq⟩ | ⟨-, _, _, -, -, heq⟩ | ⟨e, heq⟩
    all_goals rw [heq]; exact h
  | pollRead remaining =>
    show (t.pipe.pollRead remaining).2.poisoned = false
    unfold pollRead
    rcases t.pipe.readBytes_cases remaining with ⟨-, heq⟩ | ⟨-, _, _, -, -, heq⟩ | ⟨e, heq⟩
    all_goals rw [heq]; exact h

theorem poisoned_run {t : Transfer} (h : t.pipe.poisoned = false) (calls : List PipeCall) :
    (calls.foldl Transfer.perform t).pipe.poisoned = false :=
  foldlRecOn (motive := fun t => t.pipe.poisoned = false) calls Transfer.perform h
    fun _ h call _ => poisoned_perform h call

section

variable {pipe : WasiPipe} (hlock : pipe.poisoned = false)

include hlock in
theorem readBytes_of_pos {size : ℕ} (hsize : 0 < size) (hbuffer : pipe.buffer ≠ []) :
    ∃ data rest, data ≠ [] ∧ data ++ rest = pipe.buffer
      ∧ pipe.readBytes size = .ok (some data, ⟨rest, pipe.poisoned⟩) := by
  rcases pipe.readBytes_cases size with ⟨hempty, -⟩ | ⟨-, data, rest, hdata, hlength, h⟩ | ⟨e, h⟩
  · exact absurd hempty hbuffer
  · refine ⟨data, rest, ?_, hdata, h⟩
    have hpos := length_pos_iff.2 hbuffer
    exact length_pos_iff.1 (by omega)
  · simp only [readBytes, lock, hlock, Bool.false_eq_true, if_false] at h
    change (if pipe.buffer.isEmpty then _ else _) = _ at h
    split_ifs at h <;> cases h

include hlock in
theorem read_of_pos {size : ℕ} (hsize : 0 < size) (hbuffer : pipe.buffer ≠ []) :
    (∃ data, data ≠ [] ∧ (pipe.read size).1 = .ok data)
      ∧ ∃ data, data ≠ [] ∧ (pipe.pollRead size).1 = .ok data := by
  obtain ⟨data, rest, hne, -, h⟩ := readBytes_of_pos hlock hsize hbuffer
  exact ⟨⟨data, hne, by rw [read, h]⟩, data, hne, by rw [pollRead, h]⟩

include hlock in
theorem read_of_empty (hbuffer : pipe.buffer = []) (size : ℕ) :
    (pipe.read size).1 = .error .closed ∧ (pipe.pollRead size).1 = .ok [] := by
  have h : pipe.readBytes size = .ok (none, pipe) := by
    simp only [readBytes, lock, hlock, hbuffer]
    rfl
  exact ⟨by rw [read, h], by rw [pollRead, h]⟩

end

/-- **A read makes progress**: it takes a byte at least from a buffer that has one. -/
theorem length_perform_lt {t : Transfer} (hlock : t.pipe.poisoned = false) {call : PipeCall}
    (hcall : call.Reads) : (t.perform call).payload = t.payload
      ∧ (t.perform call).pipe.buffer.length ≤ t.pipe.buffer.length - 1 := by
  -- what is delivered and what is left make up the buffer
  have hless {data rest : List UInt8} (heq : data ++ rest = t.pipe.buffer)
      (hne : t.pipe.buffer ≠ [] → data ≠ []) : rest.length ≤ t.pipe.buffer.length - 1 := by
    have hlength := congrArg length heq
    rw [length_append] at hlength
    by_cases hbuffer : t.pipe.buffer = []
    · rw [hbuffer, length_nil] at hlength
      omega
    · have hpos := length_pos_iff.2 (hne hbuffer)
      omega
  cases call with
  | send data => exact absurd hcall id
  | read size =>
    refine ⟨rfl, hless (t.pipe.read_conserves size) fun hbuffer => ?_⟩
    obtain ⟨⟨data, hne, heq⟩, -⟩ := read_of_pos hlock hcall hbuffer
    rw [heq]
    exact hne
  | pollRead remaining =>
    refine ⟨rfl, hless (t.pipe.pollRead_conserves remaining) fun hbuffer => ?_⟩
    obtain ⟨-, data, hne, heq⟩ := read_of_pos hlock hcall hbuffer
    rw [heq]
    exact hne

theorem reads_run {reads : List PipeCall} (hreads : ∀ call ∈ reads, call.Reads) {t : Transfer}
    (hlock : t.pipe.poisoned = false) : (reads.foldl Transfer.perform t).payload = t.payload
      ∧ (reads.foldl Transfer.perform t).pipe.buffer.length
        ≤ t.pipe.buffer.length - reads.length := by
  induction reads generalizing t with
  | nil => exact ⟨rfl, le_rfl⟩
  | cons call reads ih =>
    obtain ⟨hcall, hrest⟩ := forall_mem_cons.1 hreads
    obtain ⟨hpayload, hlt⟩ := length_perform_lt hlock hcall
    obtain ⟨hpayload', hle⟩ := ih hrest (poisoned_perform hlock call)
    refine ⟨hpayload'.trans hpayload, ?_⟩
    rw [foldl_cons, length_cons]
    omega

end WasiPipe
