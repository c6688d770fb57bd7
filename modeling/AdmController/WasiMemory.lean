import AdmController.Effects
import AdmController.RuntimeRequests

/-!
# Reading the memory of WASI guests

A WASI guest calls the host with pointers and lengths, signed 32-bit integers.
-/

/-- **The linear memory** of a guest: its length is at most `isize::MAX`. -/
structure LinearMemory where
  data : List UInt8
  length_lt : data.length < 2 ^ 63

def asUsize (x : BitVec 32) : ℕ := (x.signExtend 64).toNat

section

variable {ε : Type}

def sliceToVec (data : List UInt8) (start stop : ℕ) : Outcome ε (List UInt8) :=
  if start ≤ stop ∧ stop ≤ data.length then .ok ((data.drop start).take (stop - start))
  else .panic

def addI32 (overflowChecks : Bool) (x y : BitVec 32) : Outcome ε (BitVec 32) :=
  if overflowChecks ∧ x.saddOverflow y then .panic else .ok (x + y)

def getVecFromMemory (overflowChecks : Bool) (mem : LinearMemory)
    (ptr len : BitVec 32) : Outcome ε (List UInt8) := do
  let stop ← addI32 overflowChecks ptr len
  sliceToVec mem.data (asUsize ptr) (asUsize stop)

end

namespace LinearMemory

/-! ## Which ranges are read -/

def Holds (mem : LinearMemory) (ptr len : BitVec 32) : Prop :=
  ptr.toNat + len.toNat ≤ mem.data.length

def range (mem : LinearMemory) (ptr len : BitVec 32) : List UInt8 :=
  (mem.data.drop ptr.toNat).take len.toNat

/-- The ranges the host can read: they also end below the sign bit. -/
def Readable (mem : LinearMemory) (ptr len : BitVec 32) : Prop :=
  mem.Holds ptr len ∧ ptr.toNat + len.toNat < 2 ^ 31

instance (mem : LinearMemory) (ptr len : BitVec 32) : Decidable (mem.Readable ptr len) :=
  inferInstanceAs (Decidable (_ ≤ _ ∧ _ < _))

end LinearMemory

open BitVec

theorem asUsize_of_lt {x : BitVec 32} (h : x.toNat < 2 ^ 31) : asUsize x = x.toNat := by
  have hmsb : x.msb = false := by
    rw [msb_eq_decide]
    exact decide_eq_false (by omega)
  unfold asUsize
  rw [signExtend_eq_setWidth_of_msb_false hmsb, toNat_setWidth]
  omega

theorem le_asUsize {x : BitVec 32} (h : 2 ^ 31 ≤ x.toNat) : 2 ^ 63 ≤ asUsize x := by
  have hmsb : x.msb = true := by
    rw [msb_eq_decide]
    exact decide_eq_true (by omega)
  unfold asUsize
  rw [toNat_signExtend, hmsb, toNat_setWidth]
  simp only [if_true]
  omega

section

variable {ε : Type}

theorem sliceToVec_of_le {data : List UInt8} {start stop : ℕ}
    (h₁ : start ≤ stop) (h₂ : stop ≤ data.length) :
    (sliceToVec data start stop : Outcome ε _) = .ok ((data.drop start).take (stop - start)) :=
  if_pos ⟨h₁, h₂⟩

theorem sliceToVec_out_of_bounds {data : List UInt8} {start stop : ℕ}
    (h : stop < start ∨ data.length < stop) :
    (sliceToVec data start stop : Outcome ε _) = .panic :=
  if_neg (by omega)

theorem addI32_of_lt (overflowChecks : Bool) {x y : BitVec 32} (h : x.toNat + y.toNat < 2 ^ 31) :
    (addI32 overflowChecks x y : Outcome ε _) = .ok (x + y) := by
  have hover : x.saddOverflow y = false := by
    have hx : x.toInt = x.toNat := toInt_eq_toNat_of_lt (by omega)
    have hy : y.toInt = y.toNat := toInt_eq_toNat_of_lt (by omega)
    simp only [saddOverflow, hx, hy, Bool.or_eq_false_iff, decide_eq_false_iff_not]
    omega
  unfold addI32
  rw [hover, if_neg (by simp)]

theorem sliceToVec_of_not_readable {mem : LinearMemory} {ptr len : BitVec 32}
    (h : ¬ mem.Readable ptr len) :
    (sliceToVec mem.data (asUsize ptr) (asUsize (ptr + len)) : Outcome ε _) = .panic := by
  have hmem := mem.length_lt
  have hlen := len.isLt
  have hptr := ptr.isLt
  have hsum : (ptr + len).toNat = (ptr.toNat + len.toNat) % 2 ^ 32 := toNat_add ptr len
  simp only [LinearMemory.Readable, LinearMemory.Holds] at h
  apply sliceToVec_out_of_bounds
  by_cases hs : (ptr + len).toNat < 2 ^ 31
  · rw [asUsize_of_lt hs]
    by_cases hp : ptr.toNat < 2 ^ 31
    · rw [asUsize_of_lt hp]
      omega
    · have := le_asUsize (not_lt.mp hp)
      omega
  · have := le_asUsize (not_lt.mp hs)
    omega

theorem getVecFromMemory_eq (overflowChecks : Bool) (mem : LinearMemory) (ptr len : BitVec 32) :
    (getVecFromMemory overflowChecks mem ptr len : Outcome ε _)
      = if mem.Readable ptr len then .ok (mem.range ptr len) else .panic := by
  unfold getVecFromMemory
  split
  case isTrue h =>
    obtain ⟨hin, hlt⟩ := h
    have hsum : (ptr + len).toNat = ptr.toNat + len.toNat := toNat_add_of_lt (by omega)
    rw [addI32_of_lt overflowChecks hlt]
    show sliceToVec mem.data (asUsize ptr) (asUsize (ptr + len)) = _
    rw [asUsize_of_lt (by omega), asUsize_of_lt (by omega), hsum,
      sliceToVec_of_le (by omega) hin, Nat.add_sub_cancel_left]
    rfl
  case isFalse h =>
    unfold addI32
    split
    · rfl
    · exact sliceToVec_of_not_readable h

end

/-! ## What a guest may rely on -/

def AnswersGuest {ε : Type} (mem : LinearMemory) (ptr len : BitVec 32)
    (answer : Outcome ε (List UInt8)) : Prop :=
  (mem.Holds ptr len ∧ answer = .ok (mem.range ptr len)) ∨ ∃ e, answer = .error e

theorem not_answersGuest_panic {ε : Type} (mem : LinearMemory) (ptr len : BitVec 32) :
    ¬ AnswersGuest mem ptr len (.panic : Outcome ε (List UInt8)) := by
  rintro (⟨-, h⟩ | ⟨e, h⟩)
  · cases h
  · cases h

/-- **A guest's range is answered exactly if it lies in the memory and ends
below the sign bit.** -/
theorem getVecFromMemory_answersGuest_iff {ε : Type} (overflowChecks : Bool)
    (mem : LinearMemory) (ptr len : BitVec 32) :
    AnswersGuest mem ptr len (getVecFromMemory overflowChecks mem ptr len : Outcome ε _)
      ↔ ptr.toNat + len.toNat ≤ mem.data.length ∧ ptr.toNat + len.toNat < 2 ^ 31 := by
  show _ ↔ mem.Readable ptr len
  rw [getVecFromMemory_eq]
  constructor
  · intro h
    by_contra hnot
    rw [if_neg hnot] at h
    exact not_answersGuest_panic mem ptr len h
  · intro h
    rw [if_pos h]
    exact .inl ⟨h.1, rfl⟩

theorem read_past_empty_memory_panics :
    (getVecFromMemory false ⟨[], by decide⟩ 0 1 : Outcome String _) = .panic
      ∧ ¬ AnswersGuest ⟨[], by decide⟩ 0 1
        (getVecFromMemory false ⟨[], by decide⟩ 0 1 : Outcome String _) := by
  have hpanic : (getVecFromMemory false ⟨[], by decide⟩ 0 1 : Outcome String _) = .panic := by
    rw [getVecFromMemory_eq, if_neg (by decide)]
  refine ⟨hpanic, ?_⟩
  rw [hpanic]
  exact not_answersGuest_panic _ 0 1
