import AdmController.Builtins
import AdmController.Burrego
import AdmController.HexDigits

/-!
# Built-in functions that panic

Three built-in functions of Rego panic on some arguments: `hex.decode` cuts
inside of a character, `json.patch` unwraps the result of reading a patch, and
`sprintf` unwraps `as_i64` for every number.
-/

namespace Builtins

open Serde Outcome

/-! ## `hex.decode` -/

def invalidDigit : BuiltinError :=
  ⟨"hex.decode", "cannot parse input - ParseIntError \x7b kind: InvalidDigit \x7d"⟩

def fromStrRadix (c d : Char) : Except BuiltinError UInt8 :=
  match if c = '+' then some 0 else hexValue c, hexValue d with
  | some high, some low => .ok (UInt8.ofNat (16 * high + low))
  | _, _ => .error invalidDigit

def decodePairs : List Char → Outcome BuiltinError (List UInt8)
  | [] => .ok []
  | [c] => if c.utf8Size = 2 then .error invalidDigit else .panic
  | c :: d :: rest =>
    if c.utf8Size = 2 then .error invalidDigit
    else if c.utf8Size = 1 ∧ d.utf8Size = 1 then do
      let b ← .ofExcept (fromStrRadix c d)
      let bytes ← decodePairs rest
      pure (b :: bytes)
    else .panic

def hexDecode (utf8Error : List UInt8 → String) : List Value → Outcome BuiltinError Value
  | [arg] => do
    let input ← .ofExcept (asStr "hex.decode" "1st parameter is not a string" arg)
    let value ← decodePairs input.toList
    match String.fromUTF8? ⟨value.toArray⟩ with
    | some res => pure (.string res)
    | none => .error ⟨"hex.decode", "cannot parse string - " ++ utf8Error value⟩
  | _ => .error ⟨"hex.decode", "wrong number of arguments"⟩

/-- **Pairs of digits**, the first of which may be a sign. -/
inductive HexPairs : List Char → Prop
  | nil : HexPairs []
  | cons {c d : Char} {rest : List Char} (hc : c = '+' ∨ (hexValue c).isSome)
    (hd : (hexValue d).isSome) (h : HexPairs rest) : HexPairs (c :: d :: rest)

/-- **The first piece of two bytes ends inside of a character**, or behind. -/
def CutsCharacter : List Char → Prop
  | [] => False
  | [c] => c.utf8Size ≠ 2
  | c :: d :: _ => c.utf8Size ≠ 2 ∧ ¬ (c.utf8Size = 1 ∧ d.utf8Size = 1)

theorem utf8Size_of_hexValue {c : Char} (h : (hexValue c).isSome) : c.utf8Size = 1 :=
  Char.utf8Size_eq_one_iff.2 (UInt32.le_trans (val_le_of_hexValue h) (by decide))

theorem fromStrRadix_cases (c d : Char) : (∃ b, fromStrRadix c d = .ok b
      ∧ (c = '+' ∨ (hexValue c).isSome) ∧ (hexValue d).isSome)
    ∨ fromStrRadix c d = .error invalidDigit
      ∧ ¬ ((c = '+' ∨ (hexValue c).isSome) ∧ (hexValue d).isSome) := by
  unfold fromStrRadix
  by_cases hc : c = '+'
  · rw [if_pos hc]
    cases hd : hexValue d with
    | none => exact .inr ⟨rfl, by simp⟩
    | some low => exact .inl ⟨_, rfl, .inl hc, rfl⟩
  · rw [if_neg hc]
    cases hhigh : hexValue c with
    | none => exact .inr ⟨rfl, by simp [hc]⟩
    | some high =>
      cases hd : hexValue d with
      | none => exact .inr ⟨rfl, by simp⟩
      | some low => exact .inl ⟨_, rfl, .inr rfl, rfl⟩

theorem decodePairs_eq_panic (cs : List Char) :
    decodePairs cs = .panic ↔ ∃ pairs rest, cs = pairs ++ rest
      ∧ HexPairs pairs ∧ CutsCharacter rest := by
  constructor
  · intro h
    fun_induction decodePairs cs with
    | case1 => cases h
    | case2 c hc => cases h
    | case3 c hc => exact ⟨[], [c], rfl, .nil, hc⟩
    | case4 c d rest hc => cases h
    | case5 c d rest hc hone ih =>
      rcases fromStrRadix_cases c d with ⟨b, hb, hc, hd⟩ | ⟨herror, -⟩
      · rw [hb] at h
        rcases bind_eq_panic.1 h with h | ⟨b, -, h⟩
        · cases h
        rcases bind_eq_panic.1 h with h | ⟨bytes, -, h⟩
        · obtain ⟨pairs, rest', rfl, hpairs, hcuts⟩ := ih h
          exact ⟨c :: d :: pairs, rest', rfl, .cons hc hd hpairs, hcuts⟩
        · cases h
      · rw [herror] at h
        cases h
    | case6 c d rest hc hone => exact ⟨[], c :: d :: rest, rfl, .nil, hc, hone⟩
  · rintro ⟨pairs, rest, rfl, hpairs, hcuts⟩
    induction hpairs with
    | nil =>
      match rest, hcuts with
      | [c], hc => exact if_neg hc
      | c :: d :: rest, ⟨hc, hone⟩ => exact (if_neg hc).trans (if_neg hone)
    | @cons c d pairs hc hd h ih =>
      have hsize : c.utf8Size = 1 := hc.elim (fun h => h ▸ rfl) utf8Size_of_hexValue
      rcases fromStrRadix_cases c d with ⟨b, hb, -⟩ | ⟨-, hnot⟩
      · rw [List.cons_append, List.cons_append, decodePairs, if_neg (by rw [hsize]; decide),
          if_pos ⟨hsize, utf8Size_of_hexValue hd⟩, hb, ih]
        rfl
      · exact absurd ⟨hc, hd⟩ hnot

theorem hexDecode_eq_panic (utf8Error : List UInt8 → String) (args : List Value) :
    hexDecode utf8Error args = .panic ↔ ∃ s, args = [.string s]
      ∧ ∃ pairs rest, s.toList = pairs ++ rest ∧ HexPairs pairs ∧ CutsCharacter rest := by
  constructor
  · intro h
    unfold hexDecode at h
    split at h
    · next arg =>
      rcases bind_eq_panic.1 h with h | ⟨s, hs, h⟩
      · exact absurd h (ofExcept_ne_panic _)
      rcases bind_eq_panic.1 h with h | ⟨bytes, -, h⟩
      · refine ⟨s, ?_, (decodePairs_eq_panic s.toList).1 h⟩
        cases arg <;> cases hs
        rfl
      · split at h <;> cases h
    · cases h
  · rintro ⟨s, rfl, hcuts⟩
    exact bind_eq_panic.2 (.inr ⟨s, rfl, bind_eq_panic.2
      (.inl ((decodePairs_eq_panic s.toList).2 hcuts))⟩)

/-! ## `json.patch` -/

/-- Third-party code: reading and applying JSON patches. -/
structure JsonPatchLib (Patch : Type) where
  fromStr : Value → Option Patch
  patch : Value → Patch → Except String Value

def jsonPatch {Patch : Type} (lib : JsonPatchLib Patch) : List Value → Outcome BuiltinError Value
  | [.mapping obj, .sequence patches] =>
    match lib.fromStr (.sequence patches) with
    | some patch =>
      .ofExcept ((lib.patch (.mapping obj) patch).mapError fun e =>
        ⟨"json.patch", "cannot apply patch: " ++ e⟩)
    | none => .panic
  | [.mapping _, _] => .error ⟨"json.patch", "2nd parameter is not an array"⟩
  | [_, _] => .error ⟨"json.patch", "1st parameter is not an object"⟩
  | _ => .error ⟨"json.patch", "wrong number of arguments"⟩

theorem jsonPatch_eq_panic {Patch : Type} (lib : JsonPatchLib Patch) (args : List Value) :
    jsonPatch lib args = .panic ↔ ∃ obj patches, args = [.mapping obj, .sequence patches]
      ∧ lib.fromStr (.sequence patches) = none := by
  constructor
  · intro h
    unfold jsonPatch at h
    split at h
    · next obj patches =>
      split at h
      · exact absurd h (ofExcept_ne_panic _)
      · next hnone => exact ⟨obj, patches, rfl, hnone⟩
    · cases h
    · cases h
    · cases h
  · rintro ⟨obj, patches, rfl, hnone⟩
    simp only [jsonPatch, hnone]

/-! ## `sprintf` -/

/-- The values of Go templates, for JSON. -/
inductive GoTmplValue where
  | nil
  | bool (b : Bool)
  | number (n : ℤ)
  | string (s : String)
  | array (items : List GoTmplValue)
  | map (entries : List (Key × GoTmplValue))

mutual

open GoTmplValue

def GoTmplValue.ofJson : Value → Option GoTmplValue
  | .null => some .nil
  | .bool b => some (.bool b)
  | .number n => if Burrego.isI64 (.number n) then some (.number n) else none
  | .float _ => none
  | .string s => some (.string s)
  | .sequence items => (ofItems items).map .array
  | .mapping entries => (ofEntries entries).map .map

def GoTmplValue.ofItems : List Value → Option (List GoTmplValue)
  | [] => some []
  | v :: rest => (ofJson v).bind fun g => (ofItems rest).map (g :: ·)

def GoTmplValue.ofEntries : List (Key × Value) → Option (List (Key × GoTmplValue))
  | [] => some []
  | (k, v) :: rest => (ofJson v).bind fun g =>
    (ofEntries rest).map ((k, g) :: ·)

end

/-- **A value with a number that is no 64-bit integer**, at any depth. -/
inductive HasOddNumber : Value → Prop
  | number {n : ℤ} (h : Burrego.isI64 (.number n) = false) : HasOddNumber (.number n)
  | float (r : String) : HasOddNumber (.float r)
  | item {v : Value} {items : List Value} (hv : v ∈ items)
    (h : HasOddNumber v) : HasOddNumber (.sequence items)
  | entry {e : Key × Value} {entries : List (Key × Value)} (he : e ∈ entries)
    (h : HasOddNumber e.2) : HasOddNumber (.mapping entries)

mutual

theorem GoTmplValue.ofJson_eq_none : ∀ v, ofJson v = none ↔ HasOddNumber v
  | .null => by simp [ofJson]; rintro ⟨⟩
  | .bool b => by simp [ofJson]; rintro ⟨⟩
  | .string s => by simp [ofJson]; rintro ⟨⟩
  | .float r => by simp only [ofJson, true_iff]; exact .float r
  | .number n => by
    rw [ofJson]
    constructor
    · intro h
      split_ifs at h with hn
      exact .number (Bool.eq_false_iff.2 hn)
    · rintro ⟨h⟩
      rw [if_neg (Bool.eq_false_iff.1 h)]
  | .sequence items => by
    rw [ofJson, Option.map_eq_none_iff, ofItems_eq_none]
    exact ⟨fun ⟨v, hv, h⟩ => .item hv h, fun | .item hv h => ⟨_, hv, h⟩⟩
  | .mapping entries => by
    rw [ofJson, Option.map_eq_none_iff, ofEntries_eq_none]
    exact ⟨fun ⟨e, he, h⟩ => .entry he h, fun | .entry he h => ⟨_, he, h⟩⟩

theorem GoTmplValue.ofItems_eq_none : ∀ items, ofItems items = none ↔ ∃ v ∈ items, HasOddNumber v
  | [] => by simp [ofItems]
  | v :: rest => by
    rw [ofItems, List.exists_mem_cons_iff, ← ofJson_eq_none v, ← ofItems_eq_none rest]
    cases ofJson v <;> simp

theorem GoTmplValue.ofEntries_eq_none :
    ∀ entries, ofEntries entries = none ↔ ∃ e ∈ entries, HasOddNumber e.2
  | [] => by simp [ofEntries]
  | (k, v) :: rest => by
    rw [ofEntries, List.exists_mem_cons_iff, ← ofJson_eq_none v, ← ofEntries_eq_none rest]
    cases ofJson v <;> simp

end

/-- Third-party code: rendering Go templates. -/
structure GtmplLib where
  template : String → List GoTmplValue → Except String String
  debugArgs : List GoTmplValue → String

def sprintf (lib : GtmplLib) : List Value → Outcome BuiltinError Value
  | [.string fmt, .sequence items] =>
    match GoTmplValue.ofItems items with
    | none => .panic
    | some args =>
      let indexCmds := (List.range args.length).map fun i =>
        "(index . " ++ toString i ++ ")"
      let text := "\x7b\x7b printf \"" ++ fmt ++ "\" "
        ++ String.intercalate " " indexCmds ++ "\x7d\x7d"
      .ofExcept (((lib.template text args).map Value.string).mapError fun e =>
        ⟨"sprintf", "Cannot render go template '" ++ text ++ "' with args "
          ++ lib.debugArgs args ++ ": " ++ e⟩)
  | [.string _, _] => .error ⟨"sprintf", "2nd parameter is not an array"⟩
  | [_, _] => .error ⟨"sprintf", "1st parameter is not a string"⟩
  | _ => .error (wrongNumber "sprintf")

theorem sprintf_eq_panic (lib : GtmplLib) (args : List Value) :
    sprintf lib args = .panic ↔ ∃ fmt items,
      args = [.string fmt, .sequence items] ∧ ∃ v ∈ items, HasOddNumber v := by
  constructor
  · intro h
    unfold sprintf at h
    split at h
    · next fmt items =>
      split at h
      · next hnone =>
        exact ⟨fmt, items, rfl, (GoTmplValue.ofItems_eq_none items).1 hnone⟩
      · exact absurd h (ofExcept_ne_panic _)
    · cases h
    · cases h
    · cases h
  · rintro ⟨fmt, items, rfl, hodd⟩
    simp only [sprintf, (GoTmplValue.ofItems_eq_none items).2 hodd]

/-- **When built-in functions panic.** -/
theorem builtins_panic_iff {Patch : Type} (utf8Error : List UInt8 → String)
    (patches : JsonPatchLib Patch) (templates : GtmplLib) (args : List Value) :
    (hexDecode utf8Error args = .panic ↔ ∃ s, args = [.string s]
      ∧ ∃ pairs rest, s.toList = pairs ++ rest ∧ HexPairs pairs ∧ CutsCharacter rest)
    ∧ (jsonPatch patches args = .panic ↔ ∃ obj items, args = [.mapping obj, .sequence items]
      ∧ patches.fromStr (.sequence items) = none)
    ∧ (sprintf templates args = .panic ↔ ∃ fmt items,
      args = [.string fmt, .sequence items] ∧ ∃ v ∈ items, HasOddNumber v) :=
  ⟨hexDecode_eq_panic utf8Error args, jsonPatch_eq_panic patches args,
    sprintf_eq_panic templates args⟩

/-- **A single digit, or half a number, is a panic.** -/
theorem odd_arguments_panic : hexDecode (fun _ => "") [.string "a"] = .panic
      ∧ sprintf ⟨fun _ _ => .ok "", fun _ => ""⟩
        [.string "%v", .sequence [.float "0.5"]] = .panic :=
  ⟨rfl, rfl⟩

end Builtins
