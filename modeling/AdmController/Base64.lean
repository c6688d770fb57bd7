import AdmController.UrlQuery

/-!
# Base64

The URL-safe alphabet without padding. Three bytes are written as four symbols,
and decoding refuses bits that stand for nothing, so that it is the inverse of
encoding (`decode_encode`).
-/

namespace Base64

def alphabet : List Char :=
  "ABCDEFGHIJKLMNOPQRSTUVWXYZabcdefghijklmnopqrstuvwxyz0123456789-_".toList

def symbol (n : ℕ) : Char := alphabet.getD n 'A'

def value (c : Char) : Option ℕ := alphabet.idxOf? c

def encode : List UInt8 → List Char
  | [] => []
  | [a] => [symbol (a.toNat / 4), symbol (a.toNat % 4 * 16)]
  | [a, b] =>
    [symbol (a.toNat / 4), symbol (a.toNat % 4 * 16 + b.toNat / 16), symbol (b.toNat % 16 * 4)]
  | a :: b :: c :: bytes =>
    symbol (a.toNat / 4) :: symbol (a.toNat % 4 * 16 + b.toNat / 16)
      :: symbol (b.toNat % 16 * 4 + c.toNat / 64) :: symbol (c.toNat % 64) :: encode bytes

def decode : List Char → Option (List UInt8)
  | [] => some []
  | [_] => none
  | [w, x] => do
    let (i, j) := (← value w, ← value x)
    if j % 16 = 0 then some [.ofNat (i * 4 + j / 16)] else none
  | [w, x, y] => do
    let (i, j, k) := (← value w, ← value x, ← value y)
    if k % 4 = 0 then some [.ofNat (i * 4 + j / 16), .ofNat (j % 16 * 16 + k / 4)] else none
  | w :: x :: y :: z :: symbols => do
    let (i, j, k, l) := (← value w, ← value x, ← value y, ← value z)
    let bytes ← decode symbols
    some (.ofNat (i * 4 + j / 16) :: .ofNat (j % 16 * 16 + k / 4) :: .ofNat (k % 4 * 64 + l)
      :: bytes)

theorem value_symbol {n : ℕ} (h : n < 64) : value (symbol n) = some n :=
  (by decide +kernel : ∀ n < 64, value (symbol n) = some n) n h

theorem ofNat_eq {n : ℕ} {b : UInt8} (h : n = b.toNat) : UInt8.ofNat n = b := by
  rw [h, UInt8.ofNat_toNat]

open Option

theorem decode_encode (bytes : List UInt8) : decode (encode bytes) = some bytes := by
  fun_induction encode bytes with
  | case1 => rfl
  | case2 a =>
    have ha := a.toNat_lt
    simp (disch := omega) only [decode, value_symbol, bind_eq_bind, bind_some,
      if_pos (Nat.mul_mod_left _ 16), some.injEq, List.cons.injEq, and_true]
    exact ofNat_eq (by omega)
  | case3 a b =>
    have ha := a.toNat_lt
    have hb := b.toNat_lt
    simp (disch := omega) only [decode, value_symbol, bind_eq_bind, bind_some,
      if_pos (Nat.mul_mod_left _ 4), some.injEq, List.cons.injEq, and_true]
    exact ⟨ofNat_eq (by omega), ofNat_eq (by omega)⟩
  | case4 a b c bytes ih =>
    have ha := a.toNat_lt
    have hb := b.toNat_lt
    have hc := c.toNat_lt
    simp (disch := omega) only [decode, value_symbol, bind_eq_bind, bind_some, ih,
      some.injEq, List.cons.injEq, and_true]
    exact ⟨ofNat_eq (by omega), ofNat_eq (by omega), ofNat_eq (by omega)⟩

theorem forall_mem_encode (bytes : List UInt8) : ∀ c ∈ encode bytes, c ∈ alphabet := by
  have hsymbol (n : ℕ) : symbol n ∈ alphabet := by
    unfold symbol
    rw [List.getD_eq_getElem?_getD]
    cases hn : alphabet[n]? with
    | none => decide +kernel
    | some d => exact List.mem_of_getElem? hn
  fun_induction encode bytes <;> simp_all

end Base64
