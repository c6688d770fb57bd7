import AdmController.WasiMemory

/-!
# The evaluator of Rego guests

`burrego` evaluates a policy by calls of functions that the guest exports. A
guest may make the host panic, by a negative address, a text that has not ended
at address `2 ^ 31`, or a number that is no 64-bit integer; these are the only
panics (`relies_evaluate`, `panicsOn_reset`).
-/

open Serde Prog List

/-- The ways in which the engine may report that a call did not complete. -/
inductive GuestFailure where
  | trap (text : String)
  | exit (code : ℤ) (text : String)
  | deadline (text : String)
deriving DecidableEq

/-- **The report of the engine** on one call of a guest. -/
abbrev EngineReport (α : Type) := Except GuestFailure α

namespace Burrego

inductive RegoFn where
  | builtins | opaHeapPtrGet | opaHeapPtrSet | opaEvalCtxNew | opaEvalCtxSetInput
  | opaEvalCtxSetData | opaEvalCtxSetEntrypoint | opaEvalCtxGetResult | opaJsonDump | opaMalloc
  | opaJsonParse | eval
deriving DecidableEq

inductive BurregoError where
  | wasmEngineError (text : String)
  | regoWasmError (text : String)
  | jsonError (msg source : String)
  | executionDeadlineExceeded
deriving DecidableEq

def BurregoError.toText : BurregoError → String
  | .wasmEngineError text => "wasm engine error: " ++ text
  | .regoWasmError text => "Rego wasm error: " ++ text
  | .jsonError msg source => msg ++ ": " ++ source
  | .executionDeadlineExceeded => "guest code interrupted, execution deadline exceeded"

/-- **A guest**: how it answers calls, and the memory the host shares. -/
structure RegoGuest (σ : Type) where
  instantiate : Except String σ
  call : RegoFn → List (BitVec 32) → σ → EngineReport (BitVec 32) × σ
  memory : σ → LinearMemory
  write : ℕ → List UInt8 → σ → σ
  entrypoints : List (String × BitVec 32)

/-- Third-party code: JSON texts, and how errors and maps are printed. -/
structure RegoTexts where
  toVec : Value → Except String (List UInt8)
  fromSlice : List UInt8 → Except String Value
  debugFailure : GuestFailure → String
  debugEntrypoints : List (String × BitVec 32) → String
  memoryAccessError : String

inductive RegoEvent where
  | called (fn : RegoFn) (report : EngineReport (BitVec 32))
  | allocated (addr : BitVec 32)
  | dumped (addr : BitVec 32) (memory : LinearMemory)
  | listed (builtins : List (Key × Value))

structure PolicyAddrs where
  (dataAddr baseHeapPtr dataHeapPtr : BitVec 32)

structure RegoWorld (σ : Type) where
  state : σ
  addrs : PolicyAddrs
  log : List RegoEvent

section

variable {σ ε α : Type} (guest : RegoGuest σ) (texts : RegoTexts)

def record (e : RegoEvent) : Prog (RegoWorld σ) ε Unit :=
  .ask fun w => ((), { w with log := w.log ++ [e] })

def callFn (fn : RegoFn) (args : List (BitVec 32)) :
    Prog (RegoWorld σ) GuestFailure (BitVec 32) := fun w =>
  let (report, state) := guest.call fn args w.state
  (ofExcept report) ⟨state, w.addrs, w.log ++ [.called fn report]⟩

def mapCallError (msg : String) : GuestFailure → BurregoError
  | .deadline _ => .executionDeadlineExceeded
  | failure => .wasmEngineError (msg ++ ": " ++ texts.debugFailure failure)

def readFrom : ℕ → List UInt8 → Outcome BurregoError (List UInt8)
  | pos, memory =>
    if 2 ^ 31 ≤ pos then .panic
    else match memory with
      | [] => .error (.wasmEngineError ("cannot read from memory: " ++ texts.memoryAccessError))
      | byte :: rest =>
        if byte = 0 then .ok []
        else do
          let bytes ← readFrom (pos + 1) rest
          pure (byte :: bytes)

def readString (addr : BitVec 32) (memory : LinearMemory) : Outcome BurregoError (List UInt8) :=
  readFrom texts addr.toNat (memory.data.drop addr.toNat)

def pullJson (addr : BitVec 32) : Prog (RegoWorld σ) BurregoError Value := do
  let rawAddr ← (callFn guest .opaJsonDump [addr]).mapError fun failure =>
    .wasmEngineError ("cannot invoke opa_json_dump function: " ++ texts.debugFailure failure)
  let memory ← ask fun w => (guest.memory w.state, w)
  record (.dumped rawAddr memory)
  let data ← ofOutcome (readString texts rawAddr memory)
  ofExcept ((texts.fromSlice data).mapError
    (.jsonError "cannot convert data read from memory into utf8 String"))

def writeMemory (rawAddr : BitVec 32) (data : List UInt8) :
    Prog (RegoWorld σ) BurregoError Unit := fun w =>
  if 2 ^ 31 ≤ rawAddr.toNat then (.panic, w)
  else if rawAddr.toNat + data.length ≤ (guest.memory w.state).data.length then
    (.ok (), { w with state := guest.write rawAddr.toNat data w.state })
  else (.error (.wasmEngineError ("push_json: cannot write to memory: "
    ++ texts.memoryAccessError)), w)

def pushJsonRaw (data : List UInt8) : Prog (RegoWorld σ) BurregoError (BitVec 32) := do
  if 2 ^ 31 ≤ data.length then throw (.regoWasmError "push_json: cannot convert size to json")
  else
    let dataSize := BitVec.ofNat 32 data.length
    let rawAddr ← (callFn guest .opaMalloc [dataSize]).mapError fun failure =>
      .wasmEngineError ("push_json: cannot invoke opa_malloc function: "
        ++ texts.debugFailure failure)
    record (.allocated rawAddr)
    writeMemory guest texts rawAddr data
    let addr ← (callFn guest .opaJsonParse [rawAddr, dataSize]).mapError
      fun failure => .regoWasmError ("Cannot get memory address: " ++ texts.debugFailure failure)
    if addr = 0 then throw (.regoWasmError "Failed to load json in memory")
    else pure addr

def pushJson (value : Value) : Prog (RegoWorld σ) BurregoError (BitVec 32) := do
  let data ← ofExcept ((texts.toVec value).mapError (.jsonError "push_json"))
  pushJsonRaw guest texts data

def callPolicyFn (fn : RegoFn) (name : String) (args : List (BitVec 32)) :
    Prog (RegoWorld σ) BurregoError (BitVec 32) :=
  (callFn guest fn args).mapError (mapCallError texts ("error invoking " ++ name ++ " function"))

def getAddrs : Prog (RegoWorld σ) ε PolicyAddrs := .ask fun w => (w.addrs, w)

def setAddrs (addrs : PolicyAddrs) : Prog (RegoWorld σ) ε Unit :=
  .ask fun w => ((), { w with addrs := addrs })

def setData (data : List UInt8) : Prog (RegoWorld σ) BurregoError Unit := do
  let addrs ← getAddrs
  let _ ← callPolicyFn guest texts .opaHeapPtrSet "opa_heap_ptr_set" [addrs.baseHeapPtr]
  let dataAddr ← pushJsonRaw guest texts data
  setAddrs { addrs with dataAddr := dataAddr }
  let dataHeapPtr ← callPolicyFn guest texts .opaHeapPtrGet "opa_heap_ptr_get" []
  setAddrs ⟨dataAddr, addrs.baseHeapPtr, dataHeapPtr⟩

/-- `Policy::evaluate`. -/
def policyEvaluate (entrypointId : BitVec 32) (input : Value) :
    Prog (RegoWorld σ) BurregoError Value := do
  let addrs ← getAddrs
  let _ ← callPolicyFn guest texts .opaHeapPtrSet "opa_heap_ptr_set" [addrs.dataHeapPtr]
  let inputAddr ← pushJson guest texts input
  let ctxAddr ← callPolicyFn guest texts .opaEvalCtxNew "opa_eval_ctx_new" []
  let _ ← callPolicyFn guest texts .opaEvalCtxSetInput "opa_eval_ctx_set_input" [ctxAddr, inputAddr]
  let _ ← callPolicyFn guest texts .opaEvalCtxSetData
    "opa_eval_ctx_set_data" [ctxAddr, addrs.dataAddr]
  let _ ← callPolicyFn guest texts .opaEvalCtxSetEntrypoint
    "opa_eval_ctx_set_entrypoint" [ctxAddr, entrypointId]
  let _ ← callPolicyFn guest texts .eval "opa_eval" [ctxAddr]
  let resAddr ← callPolicyFn guest texts .opaEvalCtxGetResult "opa_eval_ctx_get_result" [ctxAddr]
  pullJson guest texts resAddr

def evaluate (entrypointId : BitVec 32) (input : Value) (data : List UInt8) :
    Prog (RegoWorld σ) BurregoError Value := do
  if guest.entrypoints.any (fun entry => entry.2 == entrypointId) then
    setData guest texts data
    policyEvaluate guest texts entrypointId input
  else
    throw (.regoWasmError ("Cannot find the specified entrypoint "
      ++ toString entrypointId.toInt ++ " inside of "
      ++ texts.debugEntrypoints guest.entrypoints))

def isI64 : Value → Bool
  | .number n => decide (-2 ^ 63 ≤ n ∧ n < 2 ^ 63)
  | _ => false

def builtinIds (builtins : List (Key × Value)) : Prog (RegoWorld σ) BurregoError Unit := fun w =>
  if builtins.all (fun entry => isI64 entry.2) then (.ok (), w)
  else (.panic, w)

def instantiateGuest : Prog (RegoWorld σ) BurregoError Unit := fun w =>
  match guest.instantiate with
  | .ok state => (.ok (), { w with state := state })
  | .error e => (.error (.wasmEngineError ("linker cannot create instance: " ++ e)), w)

def setup : Prog (RegoWorld σ) BurregoError Unit := do
  instantiateGuest guest
  let addr ← (callFn guest .builtins []).mapError fun failure =>
    .wasmEngineError ("cannot invoke builtins function: " ++ texts.debugFailure failure)
  let value ← pullJson guest texts addr
  match value with
  | .mapping builtins => do
    record (.listed builtins)
    builtinIds builtins
    let dataAddr ← pushJson guest texts (.mapping [])
    let heapPtr ← callPolicyFn guest texts .opaHeapPtrGet "opa_heap_ptr_get" []
    setAddrs ⟨dataAddr, heapPtr, heapPtr⟩
  | _ => throw (.regoWasmError "OPA builtins didn't return a dictionary")

def reset : Prog (RegoWorld σ) BurregoError Unit := fun w =>
  match setup guest texts w with
  | (.error e, w') => (.error e, { w with log := w'.log })
  | result => result

end

/-! ## What a guest may do to its host -/

/-- The address is negative, or no zero byte comes before `2 ^ 31`. -/
def Runaway (addr : BitVec 32) (memory : LinearMemory) : Prop :=
  2 ^ 31 ≤ addr.toNat ∨ (2 ^ 31 ≤ memory.data.length
    ∧ 0 ∉ (memory.data.take (2 ^ 31)).drop addr.toNat)

def RegoEvent.Misleads : RegoEvent → Prop
  | .called _ _ => False
  | .allocated addr => 2 ^ 31 ≤ addr.toNat
  | .dumped addr memory => Runaway addr memory
  | .listed builtins => ∃ entry ∈ builtins, isI64 entry.2 = false

def RegoEvent.Completed : RegoEvent → Prop
  | .called _ report => ∃ value, report = .ok value
  | _ => True

theorem readFrom_eq_panic (texts : RegoTexts) (pos : ℕ) (memory : List UInt8) :
    readFrom texts pos memory = .panic
      ↔ 2 ^ 31 - pos ≤ memory.length ∧ 0 ∉ memory.take (2 ^ 31 - pos) := by
  induction memory generalizing pos with
  | nil =>
    unfold readFrom
    by_cases hpos : 2 ^ 31 ≤ pos
    · rw [if_pos hpos, Nat.sub_eq_zero_of_le hpos]
      simp
    · rw [if_neg hpos]
      exact iff_of_false (by rintro ⟨⟩) fun h =>
        hpos (Nat.le_of_sub_eq_zero (Nat.le_zero.mp h.1))
  | cons byte rest ih =>
    unfold readFrom
    by_cases hpos : 2 ^ 31 ≤ pos
    · rw [if_pos hpos, Nat.sub_eq_zero_of_le hpos]
      simp
    · obtain ⟨n, hn⟩ : ∃ n, 2 ^ 31 - pos = n + 1 := ⟨2 ^ 31 - pos - 1, by omega⟩
      have hnext : 2 ^ 31 - (pos + 1) = n := by omega
      have ih := ih (pos + 1)
      rw [hnext] at ih
      rw [if_neg hpos, hn, take_succ_cons, mem_cons, length_cons]
      by_cases hbyte : byte = 0
      · simp [hbyte]
      · simp only [if_neg hbyte, Outcome.bind_eq_panic, ih,
          Outcome.pure_ne_panic, and_false, exists_false, or_false]
        have hne : ¬ (0 : UInt8) = byte := fun h => hbyte h.symm
        simp [hne]

theorem readString_eq_panic (texts : RegoTexts) (addr : BitVec 32) (memory : LinearMemory) :
    readString texts addr memory = .panic ↔ Runaway addr memory := by
  unfold readString Runaway
  rw [readFrom_eq_panic, length_drop, drop_take]
  by_cases haddr : 2 ^ 31 ≤ addr.toNat
  · rw [Nat.sub_eq_zero_of_le haddr]
    simp only [take_zero, not_mem_nil, Nat.zero_le, haddr, not_false_iff, true_and, true_or]
  · have hle : 2 ^ 31 - addr.toNat ≤ memory.data.length - addr.toNat
      ↔ 2 ^ 31 ≤ memory.data.length := by omega
    simp only [haddr, false_or, hle]

section

variable {σ ε ε' α β : Type}

/-- **A program of the host is at its guest's mercy**: it panics exactly if the
guest misleads it, and has a value only if every call was completed. -/
structure Relies (x : Prog (RegoWorld σ) ε α) : Prop where
  panics : Prog.PanicsOn RegoWorld.log RegoEvent.Misleads x
  completes : Prog.OkOnly RegoWorld.log RegoEvent.Completed x

theorem relies_pure (a : α) : Relies (pure a : Prog (RegoWorld σ) ε α) :=
  ⟨panicsOn_pure a, okOnly_pure a⟩

theorem relies_throw (e : ε) : Relies (throw e : Prog (RegoWorld σ) ε α) :=
  ⟨panicsOn_throw e, okOnly_throw e⟩

theorem relies_ofExcept (x : Except ε α) : Relies (ofExcept x : Prog (RegoWorld σ) ε α) :=
  ⟨panicsOn_ofExcept x, okOnly_ofExcept x⟩

variable {x : Prog (RegoWorld σ) ε α}

theorem Relies.bind {f : α → Prog (RegoWorld σ) ε β} (hx : Relies x)
    (hf : ∀ a, Relies (f a)) : Relies (x >>= f) :=
  ⟨hx.panics.bind fun a => (hf a).panics, hx.completes.bind fun a => (hf a).completes⟩

theorem Relies.mapError (hx : Relies x) (f : ε → ε') : Relies (x.mapError f) :=
  ⟨hx.panics.mapError f, hx.completes.mapError f⟩

theorem relies_ask {f : RegoWorld σ → α × RegoWorld σ} (h : ∀ w, (f w).2.log = w.log) :
    Relies (ask f : Prog (RegoWorld σ) ε α) where
  panics := panicsOn_of_silent h (fun _ => by rintro ⟨⟩)
  completes := by
    intro w a w' heq
    have hf := ask_eq_ok.1 heq
    refine ⟨[], ?_, by simp⟩
    have := h w
    rw [hf] at this
    simpa using this

theorem relies_record {e : RegoEvent} (hcompleted : e.Completed) (hlog : ∀ w, (x w).2.log = w.log)
    (hpanic : ∀ w, (x w).1 = .panic ↔ e.Misleads) :
    Relies (record e >>= fun _ => x) where
  panics := by
    intro w
    refine ⟨[e], hlog _, ?_⟩
    simp only [mem_singleton, exists_eq_left]
    exact hpanic _
  completes := by
    intro w a w' heq
    have hw' : w' = (x { w with log := w.log ++ [e] }).2 := (congrArg Prod.snd heq).symm
    refine ⟨[e], ?_, ?_⟩
    · rw [hw', hlog]
    · intro e' he'
      rw [mem_singleton.mp he']
      exact hcompleted

end

section

variable {σ : Type} (guest : RegoGuest σ) (texts : RegoTexts)

/-! ## The evaluation -/

theorem callFn_apply (fn : RegoFn) (args : List (BitVec 32)) (w : RegoWorld σ) :
    callFn guest fn args w = ofExcept (guest.call fn args w.state).1
      ⟨(guest.call fn args w.state).2, w.addrs,
        w.log ++ [.called fn (guest.call fn args w.state).1]⟩ :=
  rfl

theorem relies_callFn (fn : RegoFn) (args : List (BitVec 32)) : Relies (callFn guest fn args) where
  panics := by
    intro w
    refine ⟨[.called fn (guest.call fn args w.state).1], ?_, ?_⟩
    · rw [callFn_apply]
      cases (guest.call fn args w.state).1 <;> rfl
    · refine iff_of_false ?_ (by simp [RegoEvent.Misleads])
      rw [callFn_apply]
      cases (guest.call fn args w.state).1 <;> rintro ⟨⟩
  completes := by
    intro w a w' heq
    obtain ⟨hreport, rfl⟩ := ofExcept_eq_ok.1 heq
    refine ⟨[.called fn (guest.call fn args w.state).1], rfl, ?_⟩
    intro e he
    rw [mem_singleton.mp he]
    exact ⟨a, hreport⟩

theorem relies_callPolicyFn (fn : RegoFn) (name : String) (args : List (BitVec 32)) :
    Relies (callPolicyFn guest texts fn name args) :=
  (relies_callFn guest fn args).mapError _

theorem relies_pullJson (addr : BitVec 32) : Relies (pullJson guest texts addr) := by
  refine ((relies_callFn guest _ _).mapError _).bind fun rawAddr => ?_
  refine (relies_ask fun _ => rfl).bind fun memory => ?_
  rw [← bind_assoc]
  have hread : Relies (record (.dumped rawAddr memory) >>= fun _ =>
      (ofOutcome (readString texts rawAddr memory) : Prog (RegoWorld σ) _ _)) :=
    relies_record trivial (fun _ => rfl) (fun _ => readString_eq_panic texts rawAddr memory)
  exact hread.bind fun data => relies_ofExcept _

theorem writeMemory_log (rawAddr : BitVec 32) (data : List UInt8) (w : RegoWorld σ) :
    (writeMemory guest texts rawAddr data w).2.log = w.log := by
  unfold writeMemory
  split
  · rfl
  · split <;> rfl

theorem writeMemory_eq_panic (rawAddr : BitVec 32) (data : List UInt8) (w : RegoWorld σ) :
    (writeMemory guest texts rawAddr data w).1 = .panic ↔ 2 ^ 31 ≤ rawAddr.toNat := by
  unfold writeMemory
  by_cases h : 2 ^ 31 ≤ rawAddr.toNat
  · rw [if_pos h]
    exact iff_of_true rfl h
  · rw [if_neg h]
    refine iff_of_false ?_ h
    split <;> rintro ⟨⟩

theorem relies_pushJsonRaw (data : List UInt8) : Relies (pushJsonRaw guest texts data) := by
  unfold pushJsonRaw
  split
  · exact relies_throw _
  · refine ((relies_callFn guest _ _).mapError _).bind fun rawAddr => ?_
    rw [← bind_assoc]
    have hwrite : Relies (record (.allocated rawAddr) >>= fun _ =>
        writeMemory guest texts rawAddr data) :=
      relies_record trivial (writeMemory_log guest texts rawAddr data)
        (writeMemory_eq_panic guest texts rawAddr data)
    refine hwrite.bind fun _ => ?_
    refine ((relies_callFn guest _ _).mapError _).bind fun addr => ?_
    split
    · exact relies_throw _
    · exact relies_pure addr

theorem relies_pushJson (value : Value) : Relies (pushJson guest texts value) :=
  (relies_ofExcept _).bind fun data => relies_pushJsonRaw guest texts data

theorem relies_getAddrs {ε : Type} : Relies (getAddrs : Prog (RegoWorld σ) ε PolicyAddrs) :=
  relies_ask fun _ => rfl

theorem relies_setAddrs {ε : Type} (addrs : PolicyAddrs) :
    Relies (setAddrs addrs : Prog (RegoWorld σ) ε Unit) :=
  relies_ask fun _ => rfl

theorem relies_setData (data : List UInt8) : Relies (setData guest texts data) := by
  refine relies_getAddrs.bind fun addrs => ?_
  refine (relies_callPolicyFn guest texts _ _ _).bind fun _ => ?_
  refine (relies_pushJsonRaw guest texts data).bind fun dataAddr => ?_
  refine (relies_setAddrs _).bind fun _ => ?_
  refine (relies_callPolicyFn guest texts _ _ _).bind fun dataHeapPtr => ?_
  exact relies_setAddrs _

theorem relies_policyEvaluate (entrypointId : BitVec 32) (input : Value) :
    Relies (policyEvaluate guest texts entrypointId input) := by
  refine relies_getAddrs.bind fun addrs => ?_
  refine (relies_callPolicyFn guest texts _ _ _).bind fun _ => ?_
  refine (relies_pushJson guest texts input).bind fun inputAddr => ?_
  refine (relies_callPolicyFn guest texts _ _ _).bind fun ctxAddr => ?_
  refine (relies_callPolicyFn guest texts _ _ _).bind fun _ => ?_
  refine (relies_callPolicyFn guest texts _ _ _).bind fun _ => ?_
  refine (relies_callPolicyFn guest texts _ _ _).bind fun _ => ?_
  refine (relies_callPolicyFn guest texts _ _ _).bind fun _ => ?_
  refine (relies_callPolicyFn guest texts _ _ _).bind fun resAddr => ?_
  exact relies_pullJson guest texts resAddr

theorem relies_evaluate (entrypointId : BitVec 32) (input : Value) (data : List UInt8) :
    Relies (evaluate guest texts entrypointId input data) := by
  unfold evaluate
  split
  · exact (relies_setData guest texts data).bind fun _ =>
      relies_policyEvaluate guest texts entrypointId input
  · exact relies_throw _

/-! ## The reset -/

theorem relies_instantiateGuest : Relies (instantiateGuest guest) where
  panics := by
    refine panicsOn_of_silent (fun w => ?_) (fun w => ?_)
    · unfold instantiateGuest
      split <;> rfl
    · unfold instantiateGuest
      split <;> rintro ⟨⟩
  completes := by
    intro w a w' heq
    unfold instantiateGuest at heq
    split at heq
    · cases heq
      exact ⟨[], by simp, by simp⟩
    · cases heq

theorem relies_builtinIds (builtins : List (Key × Value)) :
    Relies (record (.listed builtins) >>= fun _ =>
      (builtinIds builtins : Prog (RegoWorld σ) _ _)) := by
  refine relies_record trivial (fun w => ?_) (fun w => ?_)
  · unfold builtinIds
    split <;> rfl
  · unfold builtinIds
    split
    case isTrue h =>
      refine iff_of_false (by rintro ⟨⟩) ?_
      rintro ⟨entry, hentry, hno⟩
      have := all_eq_true.mp h entry hentry
      rw [hno] at this
      cases this
    case isFalse h =>
      refine iff_of_true rfl ?_
      simpa [RegoEvent.Misleads] using h

theorem relies_setup : Relies (setup guest texts) := by
  refine (relies_instantiateGuest guest).bind fun _ => ?_
  refine ((relies_callFn guest _ _).mapError _).bind fun addr => ?_
  refine (relies_pullJson guest texts addr).bind fun value => ?_
  split
  case h_1 builtins =>
    rw [← bind_assoc]
    refine (relies_builtinIds builtins).bind fun _ => ?_
    refine (relies_pushJson guest texts _).bind fun dataAddr => ?_
    refine (relies_callPolicyFn guest texts _ _ _).bind fun heapPtr => ?_
    exact relies_setAddrs _
  case h_2 => exact relies_throw _

theorem panicsOn_reset : Prog.PanicsOn RegoWorld.log RegoEvent.Misleads (reset guest texts) := by
  intro w
  obtain ⟨new, hnew, hpanic⟩ := (relies_setup guest texts).panics w
  unfold reset
  rcases hsetup : setup guest texts w with ⟨a | e | _, w₁⟩
  all_goals
    rw [hsetup] at hnew hpanic
    exact ⟨new, hnew, by rw [← hpanic]⟩

end

end Burrego
