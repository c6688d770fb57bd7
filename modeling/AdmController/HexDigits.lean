import Mathlib.Data.Nat.Digits.Defs

/-!
# Hexadecimal digits

The digits of numbers in base 16, as programs print them.
-/

open List

def hexDigit (n : ℕ) : Char := "0123456789abcdef".toList.getD n '0'

def upperHexDigit (n : ℕ) : Char := "0123456789ABCDEF".toList.getD n '0'

def hexValue (c : Char) : Option ℕ :=
  if '0' ≤ c ∧ c ≤ '9' then some (c.toNat - '0'.toNat)
  else if 'a' ≤ c ∧ c ≤ 'f' then some (c.toNat - 'a'.toNat + 10)
  else if 'A' ≤ c ∧ c ≤ 'F' then some (c.toNat - 'A'.toNat + 10)
  else none

theorem hexValue_hexDigit {n : ℕ} (h : n < 16) :
    hexValue (hexDigit n) = some n ∧ hexValue (upperHexDigit n) = some n := by
  have hall : ∀ n : Fin 16, hexValue (hexDigit n) = some n.val
      ∧ hexValue (upperHexDigit n) = some n.val := by
    decide +kernel
  exact hall ⟨n, h⟩

variable {c : Char}

theorem val_le_of_hexValue (h : (hexValue c).isSome) : c.val ≤ 102 := by
  unfold hexValue at h
  split_ifs at h with h₁ h₂ h₃
  · exact UInt32.le_trans h₁.2 (by decide : '9'.val ≤ 102)
  · exact h₂.2
  · exact UInt32.le_trans h₃.2 (by decide : 'F'.val ≤ 102)
  · cases h

/-- There are few characters, so that facts about digits can be tested. -/
theorem forall_of_hexValue {P : Char → Prop}
    (hall : ∀ n : Fin 103, (hexValue (Char.ofNat n)).isSome → P (Char.ofNat n))
    (h : (hexValue c).isSome) : P c := by
  have hc : c.toNat < 103 := Nat.lt_succ_of_le (val_le_of_hexValue h)
  have hof := hall ⟨c.toNat, hc⟩
  simp only [Char.ofNat_toNat] at hof
  exact hof h

theorem hexDigit_injective {m n : ℕ} (hm : m < 16) (hn : n < 16)
    (h : hexDigit m = hexDigit n) : m = n := by
  have hall : ∀ m n : Fin 16, hexDigit m = hexDigit n → m = n := by decide +kernel
  exact congrArg Fin.val (hall ⟨m, hm⟩ ⟨n, hn⟩ h)

theorem eq_of_map_hexDigit {l l' : List ℕ} (hl : ∀ d ∈ l, d < 16)
    (hl' : ∀ d ∈ l', d < 16) (h : l.map hexDigit = l'.map hexDigit) :
    l = l' := by
  induction l generalizing l' with
  | nil => exact (map_eq_nil_iff.1 h.symm).symm
  | cons d l ih =>
    cases l' with
    | nil => cases h
    | cons d' l' =>
      obtain ⟨hd, hl⟩ := forall_mem_cons.1 hl
      obtain ⟨hd', hl'⟩ := forall_mem_cons.1 hl'
      obtain ⟨hdigit, hrest⟩ := cons.inj h
      rw [hexDigit_injective hd hd' hdigit, ih hl hl' hrest]

def hexNumber (n : ℕ) : List Char := (Nat.digits 16 n).reverse.map hexDigit

theorem hexNumber_injective : Function.Injective hexNumber := by
  intro m n h
  have hdigits (k : ℕ) : ∀ d ∈ (Nat.digits 16 k).reverse, d < 16 :=
    fun d hd => Nat.digits_lt_base (by decide) (mem_reverse.1 hd)
  have heq := eq_of_map_hexDigit (hdigits m) (hdigits n) h
  exact Nat.digits_inj_iff.1 (reverse_inj.1 heq)

theorem exists_of_mem_hexNumber {n : ℕ} (h : c ∈ hexNumber n) : ∃ d < 16, hexDigit d = c := by
  obtain ⟨d, hd, rfl⟩ := mem_map.1 h
  exact ⟨d, Nat.digits_lt_base (by decide) (mem_reverse.1 hd), rfl⟩
