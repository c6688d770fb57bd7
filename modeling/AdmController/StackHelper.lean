import AdmController.Burrego

/-!
# The memory of a Rego guest, as the host reads and writes it

A text is read from an address up to its zero byte, and a document is written
to an address that the guest has allocated. The host takes addresses as signed
numbers, and panics where they are negative.
-/

namespace Burrego

open Prog

/-- **A text is read** up to the first zero byte, or there is an error. -/
def ReadsText (addr : BitVec 32) (memory : LinearMemory)
    (result : Outcome BurregoError (List UInt8)) : Prop :=
  (∃ bytes rest, memory.data.drop addr.toNat = bytes ++ 0 :: rest ∧ 0 ∉ bytes ∧ result = .ok bytes)
    ∨ (0 ∉ memory.data.drop addr.toNat ∧ ∃ e, result = .error e)

/-! ## Reading -/

theorem readFrom_cases (texts : RegoTexts) (pos : ℕ) (memory : List UInt8) :
    readFrom texts pos memory = .panic ∨ (∃ bytes rest, memory = bytes ++ 0 :: rest ∧ 0 ∉ bytes
      ∧ readFrom texts pos memory = .ok bytes)
      ∨ (0 ∉ memory ∧ ∃ e, readFrom texts pos memory = .error e) := by
  induction memory generalizing pos with
  | nil =>
    unfold readFrom
    split
    · exact .inl rfl
    · exact .inr (.inr ⟨List.not_mem_nil, _, rfl⟩)
  | cons byte rest ih =>
    unfold readFrom
    split
    · exact .inl rfl
    · dsimp only
      by_cases hbyte : byte = 0
      · rw [if_pos hbyte, hbyte]
        exact .inr (.inl ⟨[], rest, rfl, List.not_mem_nil, rfl⟩)
      · rw [if_neg hbyte]
        obtain h | ⟨bytes, rest', hrest, hbytes, h⟩ | ⟨hnone, e, h⟩ := ih (pos + 1)
        · rw [h]
          exact .inl rfl
        · rw [h, hrest]
          refine .inr (.inl ⟨byte :: bytes, rest', rfl, ?_, rfl⟩)
          exact List.not_mem_cons_of_ne_of_not_mem (Ne.symm hbyte) hbytes
        · rw [h]
          refine .inr (.inr ⟨?_, e, rfl⟩)
          exact List.not_mem_cons_of_ne_of_not_mem (Ne.symm hbyte) hnone

variable {σ : Type}

theorem callFn_eq {guest : RegoGuest σ} {fn : RegoFn} {args : List (BitVec 32)} {w : RegoWorld σ}
    {report : EngineReport (BitVec 32)} {state : σ}
    (h : guest.call fn args w.state = (report, state)) :
    callFn guest fn args w = (Outcome.ofExcept report,
      ⟨state, w.addrs, w.log ++ [.called fn report]⟩) := by
  unfold callFn
  rw [h]
  cases report <;> rfl

variable (guest : RegoGuest σ) (texts : RegoTexts)

/-! ## Writing -/

/-- **Data is written inside of the memory**, or there is an error. -/
def WritesInside (data : List UInt8) (w : RegoWorld σ)
    (result : Outcome BurregoError (BitVec 32)) : Prop :=
  (∃ e, result = .error e) ∨ ∃ rawAddr state, guest.call .opaMalloc [BitVec.ofNat 32 data.length]
        w.state = (.ok rawAddr, state)
      ∧ rawAddr.toNat + data.length ≤ (guest.memory state).data.length
      ∧ ∃ addr state', guest.call .opaJsonParse [rawAddr, BitVec.ofNat 32 data.length]
        (guest.write rawAddr.toNat data state) = (.ok addr, state')
        ∧ result = .ok addr

/-- The guest allocates memory at what the host takes as negative. -/
def AllocatesHigh (data : List UInt8) (w : RegoWorld σ) : Prop :=
  data.length < 2 ^ 31 ∧ ∃ rawAddr state,
    guest.call .opaMalloc [BitVec.ofNat 32 data.length] w.state
      = (.ok rawAddr, state) ∧ 2 ^ 31 ≤ rawAddr.toNat

theorem pushJsonRaw_cases (data : List UInt8) (w : RegoWorld σ) :
    ((pushJsonRaw guest texts data w).1 = .panic ∧ AllocatesHigh guest data w)
      ∨ (WritesInside guest data w (pushJsonRaw guest texts data w).1
        ∧ ¬ AllocatesHigh guest data w) := by
  unfold pushJsonRaw
  by_cases hsize : 2 ^ 31 ≤ data.length
  · rw [if_pos hsize]
    exact .inr ⟨.inl ⟨_, rfl⟩, fun h => absurd h.1 (Nat.not_lt.2 hsize)⟩
  rw [if_neg hsize]
  cases hmalloc : guest.call .opaMalloc [BitVec.ofNat 32 data.length] w.state with
  | mk report state =>
  rw [bind_apply, mapError, callFn_eq hmalloc]
  cases report with
  | error failure =>
    refine .inr ⟨.inl ⟨_, rfl⟩, ?_⟩
    rintro ⟨-, rawAddr, state', heq, -⟩
    cases hmalloc.symm.trans heq
  | ok rawAddr =>
    have hhigh : AllocatesHigh guest data w ↔ 2 ^ 31 ≤ rawAddr.toNat := by
      refine ⟨?_, fun h => ⟨Nat.not_le.1 hsize, rawAddr, state, hmalloc, h⟩⟩
      rintro ⟨-, rawAddr', state', heq, h⟩
      cases hmalloc.symm.trans heq
      exact h
    dsimp only [Outcome.ofExcept]
    rw [bind_apply, record, ask]
    dsimp only
    rw [bind_apply, writeMemory]
    by_cases haddr : 2 ^ 31 ≤ rawAddr.toNat
    · rw [if_pos haddr]
      exact .inl ⟨rfl, hhigh.2 haddr⟩
    refine .inr ⟨?_, fun h => haddr (hhigh.1 h)⟩
    rw [if_neg haddr]
    split_ifs with hroom
    · dsimp only
      cases hparse : guest.call .opaJsonParse [rawAddr, BitVec.ofNat 32 data.length]
          (guest.write rawAddr.toNat data state) with
      | mk report state' =>
      rw [bind_apply, mapError, callFn_eq hparse]
      cases report with
      | error failure => exact .inl ⟨_, rfl⟩
      | ok addr =>
        dsimp only [Outcome.ofExcept]
        split_ifs
        · exact .inl ⟨_, rfl⟩
        · exact .inr ⟨rawAddr, state, hmalloc, hroom, addr, state', hparse, rfl⟩
    · exact .inl ⟨_, rfl⟩

/-- **What the host does to the memory of a guest.** -/
theorem stackHelper_iff (addr : BitVec 32) (memory : LinearMemory)
    (data : List UInt8) (w : RegoWorld σ) :
    (ReadsText addr memory (readString texts addr memory) ↔ ¬ Runaway addr memory)
      ∧ (WritesInside guest data w (pushJsonRaw guest texts data w).1
        ↔ ¬ AllocatesHigh guest data w) := by
  constructor
  · rw [← readString_eq_panic texts]
    constructor
    · rintro (⟨_, _, -, -, h⟩ | ⟨-, _, h⟩) hpanic
      · cases h.symm.trans hpanic
      · cases h.symm.trans hpanic
    · exact (readFrom_cases texts _ _).resolve_left
  · obtain ⟨hpanic, hhigh⟩ | ⟨hwrites, hlow⟩ := pushJsonRaw_cases guest texts data w
    · refine iff_of_false ?_ (not_not.2 hhigh)
      rw [hpanic]
      rintro (⟨_, h⟩ | ⟨_, _, -, -, _, _, -, h⟩) <;> cases h
    · exact iff_of_true hwrites hlow

def boolTexts : RegoTexts where
  toVec
    | .bool true => .ok [116, 114, 117, 101]
    | .bool false => .ok [102, 97, 108, 115, 101]
    | .mapping [] => .ok [123, 125]
    | _ => .error "not supported"
  fromSlice
    | [116, 114, 117, 101] => .ok (.bool true)
    | [102, 97, 108, 115, 101] => .ok (.bool false)
    | [123, 125] => .ok (.mapping [])
    | _ => .error "expected value"
  debugFailure _ := "trap"
  debugEntrypoints _ := "entrypoints"
  memoryAccessError := "MemoryAccessError"

/-- **An address out of the memory is a panic**, not an error. -/
theorem negative_address_panics : readString boolTexts 0xFFFFFFFF ⟨[0], by decide⟩ = .panic
      ∧ ¬ ReadsText 0xFFFFFFFF ⟨[0], by decide⟩
        (readString boolTexts 0xFFFFFFFF ⟨[0], by decide⟩) := by
  have hpanic : readString boolTexts 0xFFFFFFFF ⟨[0], by decide⟩ = .panic :=
    (readString_eq_panic _ _ _).2 (.inl (by decide +kernel))
  refine ⟨hpanic, ?_⟩
  rw [hpanic]
  rintro (⟨_, _, -, -, h⟩ | ⟨-, _, h⟩) <;> cases h

end Burrego
