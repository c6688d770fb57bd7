import AdmController.HexDigits
import AdmController.RustStr
import Mathlib.Data.List.Flatten
import Mathlib.Data.List.Perm.Subperm

/-!
# Query strings of URLs

How the URL standard writes a query and reads pairs from it. `&`, `+`, `%`, and
`=` in keys are not encoded. A text without them, tabs, line breaks and escapes
is read back as it was written (`queryPairs_of_plain`).
-/

namespace UrlQuery

open RustStr List Nat UInt8

/-! ## Bytes and characters -/

def subpart (b : UInt8) (rest : List UInt8) : ℕ :=
  let second (c : UInt8) : Bool :=
    (if b = 0xE0 then 0xA0 else if b = 0xF0 then 0x90 else 0x80) ≤ c
      && c ≤ (if b = 0xED then 0x9F else if b = 0xF4 then 0x8F else 0xBF)
  if 0xE0 ≤ b && b ≤ 0xF4 then
    match rest with
    | [] => 0
    | [c] => if second c then 1 else 0
    | c :: d :: _ =>
      if second c then if 0xF0 ≤ b && 0x80 ≤ d && d ≤ 0xBF then 2 else 1
      else 0
  else 0

/-- **`String::from_utf8_lossy`**, which replaces what is no character. -/
def fromUtf8Lossy : List UInt8 → List Char
  | [] => []
  | b :: rest =>
    match (b :: rest).toByteArray.utf8DecodeChar? 0 with
    | some c => c :: fromUtf8Lossy ((b :: rest).drop c.utf8Size)
    | none => '\uFFFD' :: fromUtf8Lossy (rest.drop (subpart b rest))
termination_by bytes => bytes.length
decreasing_by
  · have hpos := c.utf8Size_pos
    rw [length_drop, length_cons]
    omega
  · rw [length_drop, length_cons]
    omega

def utf8 (text : List Char) : List UInt8 := text.flatMap String.utf8EncodeChar

variable (text : List Char)

theorem utf8DecodeChar?_utf8_cons (c : Char) :
    (utf8 (c :: text)).toByteArray.utf8DecodeChar? 0 = some c := by
  rw [utf8, flatMap_cons, toByteArray_append]
  have h := utf8DecodeChar?_utf8Encode_singleton_append (b := (utf8 text).toByteArray) (c := c)
  rwa [utf8Encode_singleton] at h

theorem fromUtf8Lossy_utf8 : fromUtf8Lossy (utf8 text) = text := by
  induction text with
  | nil => rw [utf8, flatMap_nil, fromUtf8Lossy]
  | cons c text ih =>
    have hdecode := utf8DecodeChar?_utf8_cons text c
    have hdrop : (utf8 (c :: text)).drop c.utf8Size = utf8 text := by
      rw [utf8, flatMap_cons, ← String.length_utf8EncodeChar c, drop_left]
      rfl
    cases hbytes : utf8 (c :: text) with
    | nil =>
      rw [hbytes] at hdecode
      exact absurd (ByteArray.le_size_of_utf8DecodeChar?_eq_some hdecode)
        (Nat.not_le.2 (Nat.lt_add_left 0 c.utf8Size_pos))
    | cons b rest =>
      rw [hbytes] at hdecode hdrop
      rw [fromUtf8Lossy, hdecode]
      dsimp only
      rw [hdrop, ih]

variable {c : Char}

theorem eq_append_of_decode {bytes : List UInt8}
    (h : bytes.toByteArray.utf8DecodeChar? 0 = some c) :
    bytes = String.utf8EncodeChar c ++ bytes.drop c.utf8Size := by
  have heq := congrArg (fun b : ByteArray => b.data.toList)
    (ByteArray.eq_of_utf8DecodeChar?_eq_some h)
  have hpre : String.utf8EncodeChar c <+: bytes := by
    simp only [data_toByteArray, ByteArray.data_append, Array.toList_append] at heq
    exact ⟨_, heq.symm⟩
  rw [← String.length_utf8EncodeChar]
  exact (prefix_iff_eq_append.1 hpre).symm

theorem toNat_toUInt8_of_le {v : UInt32} (h : v ≤ 127) :
    v.toUInt8.toNat = v.toNat ∧ v.toNat < 128 := by
  have hle : v.toNat ≤ 127 := UInt32.le_iff_toNat_le.1 h
  rw [UInt32.toNat_toUInt8]
  exact ⟨mod_eq_of_lt (by omega), by omega⟩

variable {d : Char}

theorem count_utf8EncodeChar (hd : d.val ≤ 127) (c : Char) :
    (String.utf8EncodeChar c).count d.val.toUInt8 = [c].count d := by
  obtain ⟨hbyte, hsmall⟩ := toNat_toUInt8_of_le hd
  by_cases hone : c.utf8Size = 1
  · obtain ⟨hc, -⟩ := toNat_toUInt8_of_le (Char.utf8Size_eq_one_iff.1 hone)
    have hiff : c.val.toUInt8 = d.val.toUInt8 ↔ c = d := by
      rw [← UInt8.toNat_inj, hc, hbyte, UInt32.toNat_inj, Char.ext_iff]
    rw [String.utf8EncodeChar_eq_singleton hone, count_singleton,
      count_singleton, beq_eq_beq.2 hiff]
  · have hne : d ∉ [c] := fun h =>
      hone (Char.utf8Size_eq_one_iff.2 (mem_singleton.1 h ▸ hd))
    have hor : ∀ x y : UInt8, 128 ≤ y.toNat → d.val.toUInt8 ≠ x ||| y := by
      intro x y hy heq
      have h := congrArg UInt8.toNat heq
      rw [UInt8.toNat_or] at h
      have hle := right_le_or (n := x.toNat) (m := y.toNat)
      omega
    have hsize : c.utf8Size = 2 ∨ c.utf8Size = 3 ∨ c.utf8Size = 4 := by
      have hpos := c.utf8Size_pos
      have hle := c.utf8Size_le_four
      omega
    rw [count_eq_zero_of_not_mem hne]
    refine count_eq_zero_of_not_mem fun hmem => ?_
    rcases hsize with h | h | h
    · rw [String.utf8EncodeChar_eq_cons_cons h] at hmem
      rcases mem_pair.1 hmem with h | h
      all_goals exact hor _ _ (by decide) h
    · rw [String.utf8EncodeChar_eq_cons_cons_cons h] at hmem
      simp only [mem_cons, not_mem_nil, or_false] at hmem
      rcases hmem with h | h | h
      all_goals exact hor _ _ (by decide) h
    · rw [String.utf8EncodeChar_eq_cons_cons_cons_cons h] at hmem
      simp only [mem_cons, not_mem_nil, or_false] at hmem
      rcases hmem with h | h | h | h
      all_goals exact hor _ _ (by decide) h

theorem count_fromUtf8Lossy_le (hd : d.val ≤ 127) (bytes : List UInt8) :
    (fromUtf8Lossy bytes).count d ≤ bytes.count d.val.toUInt8 := by
  fun_induction fromUtf8Lossy bytes with
  | case1 => exact le_rfl
  | case2 b rest c hdecode ih =>
    have hcount := congrArg (count d.val.toUInt8) (eq_append_of_decode hdecode)
    rw [count_append, count_utf8EncodeChar hd, count_singleton] at hcount
    rw [hcount, count_cons]
    omega
  | case3 b rest hnone ih =>
    have hne : d ≠ '\uFFFD' := fun h => absurd (h ▸ hd) (by decide)
    rw [count_cons_of_ne hne.symm]
    refine ih.trans (((drop_sublist _ rest).count_le _).trans ?_)
    exact (sublist_cons_self b rest).count_le _

/-! ## Escapes -/

def isRemoved (c : Char) : Bool := c = '\t' || c = '\n' || c = '\r'

def isEncoded (c : Char) : Bool :=
  c.val < 0x20 || 0x7F ≤ c.val
    || [' ', '"', '#', '<', '>', '\x27'].contains c

def escape (b : UInt8) : List Char :=
  ['%', upperHexDigit (b.toNat / 16), upperHexDigit (b.toNat % 16)]

def percentEncode (c : Char) : List Char :=
  if isEncoded c then (String.utf8EncodeChar c).flatMap escape else [c]

def setQuery (text : List Char) : List Char :=
  (text.filter fun c => !isRemoved c).flatMap percentEncode

def readPlus (c : Char) : Char := if c = '+' then ' ' else c

def percentDecode : List Char → List UInt8
  | [] => []
  | '%' :: h :: l :: rest =>
    match hexValue h, hexValue l with
    | some high, some low => ofNat (16 * high + low) :: percentDecode rest
    | _, _ => String.utf8EncodeChar '%' ++ percentDecode (h :: l :: rest)
  | c :: rest => String.utf8EncodeChar (readPlus c) ++ percentDecode rest

def startsEscape : List Char → Bool
  | h :: l :: _ => (hexValue h).isSome && (hexValue l).isSome
  | _ => false

/-- **A text contains an escape.** -/
def Escapes (text : List Char) : Prop :=
  ∃ digits, '%' :: digits <:+ text ∧ startsEscape digits = true

variable {rest : List Char}

theorem escapes_cons :
    Escapes (c :: rest) ↔ (c = '%' ∧ startsEscape rest = true) ∨ Escapes rest := by
  constructor
  · rintro ⟨digits, hsuffix, hdigits⟩
    rcases suffix_cons_iff.1 hsuffix with heq | hsuffix
    · cases heq
      exact .inl ⟨rfl, hdigits⟩
    · exact .inr ⟨digits, hsuffix, hdigits⟩
  · rintro (⟨rfl, hdigits⟩ | ⟨digits, hsuffix, hdigits⟩)
    · exact ⟨rest, suffix_rfl, hdigits⟩
    · exact ⟨digits, hsuffix.trans (suffix_cons c rest), hdigits⟩

theorem percentDecode_cons (h : ¬ (c = '%' ∧ startsEscape rest = true)) : percentDecode (c :: rest)
    = String.utf8EncodeChar (readPlus c) ++ percentDecode rest := by
  by_cases hc : c = '%'
  · subst hc
    match rest, h with
    | [], _ => rfl
    | [_], _ => rfl
    | d :: l :: rest, h =>
      rw [percentDecode]
      cases hd : hexValue d with
      | none => rfl
      | some high =>
        cases hl : hexValue l with
        | none => rfl
        | some low => exact absurd ⟨rfl, by simp [startsEscape, hd, hl]⟩ h
  · rw [percentDecode]
    exact fun _ _ _ h => absurd h hc

theorem percentDecode_escape {h l : Char} {high low : ℕ}
    (hh : hexValue h = some high) (hl : hexValue l = some low) :
    percentDecode ('%' :: h :: l :: rest) = ofNat (16 * high + low) :: percentDecode rest := by
  rw [percentDecode, hh, hl]

/-- **A text begins with an escape, or not.** -/
theorem decode_induction {P : List Char → Prop} (nil : P [])
    (escape : ∀ h l high low rest, hexValue h = some high →
      hexValue l = some low → P rest → P ('%' :: h :: l :: rest))
    (plain : ∀ c rest, ¬ (c = '%' ∧ startsEscape rest = true) → P rest →
      P (c :: rest)) (text : List Char) : P text := by
  fun_induction percentDecode text with
  | case1 => exact nil
  | case2 h l rest high low hl hh ih => exact escape h l high low rest hh hl ih
  | case3 h l rest hnot ih =>
    refine plain '%' (h :: l :: rest) (fun hstarts => ?_) ih
    obtain ⟨hh, hl⟩ := Bool.and_eq_true_iff.1 hstarts.2
    obtain ⟨high, hh⟩ := Option.isSome_iff_exists.1 hh
    obtain ⟨low, hl⟩ := Option.isSome_iff_exists.1 hl
    exact hnot high low hh hl
  | case4 c rest hnot ih =>
    refine plain c rest (fun hstarts => ?_) ih
    match rest, hstarts with
    | h :: l :: rest, ⟨hc, _⟩ => exact hnot h l rest hc rfl

/-! ## Reading what was written -/

theorem percentDecode_escapes (bytes : List UInt8) (rest : List Char) :
    percentDecode (bytes.flatMap escape ++ rest) = bytes ++ percentDecode rest := by
  induction bytes with
  | nil => rfl
  | cons b bytes ih =>
    have hb := b.toNat_lt
    rw [flatMap_cons, append_assoc]
    show percentDecode ('%' :: upperHexDigit (b.toNat / 16)
      :: upperHexDigit (b.toNat % 16) :: (bytes.flatMap escape ++ rest)) = _
    rw [percentDecode_escape (hexValue_hexDigit (by omega)).2
      (hexValue_hexDigit (by omega)).2, ih, div_add_mod, UInt8.ofNat_toNat]
    rfl

theorem percentEncode_cases (c : Char) : percentEncode c = [c]
    ∨ (percentEncode c = (String.utf8EncodeChar c).flatMap escape
      ∧ hexValue c = none ∧ c ≠ '%' ∧ c ≠ '+'
      ∧ ∃ rest, percentEncode c = '%' :: rest) := by
  unfold percentEncode
  split_ifs with hc
  · have hnone : hexValue c = none := by
      rw [← Option.not_isSome_iff_eq_none]
      intro hsome
      exact forall_of_hexValue (P := fun c => isEncoded c = false)
        (by decide +kernel) hsome ▸ hc |> Bool.noConfusion
    refine .inr ⟨rfl, hnone, ?_, ?_, ?_⟩
    · rintro rfl
      exact absurd hc (by decide)
    · rintro rfl
      exact absurd hc (by decide)
    · cases hbytes : String.utf8EncodeChar c with
      | nil =>
        have hlen := String.length_utf8EncodeChar c
        rw [hbytes] at hlen
        exact absurd hlen.symm c.utf8Size_pos.ne'
      | cons b bytes => exact ⟨_, rfl⟩
  · exact .inl rfl

theorem startsEscape_of_none (h : hexValue c = none) (d : Char) (text : List Char) :
    startsEscape (c :: text) = false ∧ startsEscape (d :: c :: text) = false := by
  cases text <;> simp [startsEscape, h]

theorem startsEscape_flatMap : startsEscape (text.flatMap percentEncode) = startsEscape text := by
  have hpercent : hexValue '%' = none := rfl
  match text with
  | [] => rfl
  | c :: text =>
    rw [flatMap_cons]
    rcases percentEncode_cases c with hc | ⟨-, hc, -, -, rest, hrest⟩
    · rw [hc]
      match text with
      | [] => rfl
      | d :: text =>
        rw [flatMap_cons]
        rcases percentEncode_cases d with hd | ⟨-, hd, -, -, rest, hrest⟩
        · rw [hd]
          rfl
        · rw [hrest, (startsEscape_of_none hd c text).2]
          exact (startsEscape_of_none hpercent c _).2
    · rw [hrest, (startsEscape_of_none hc c text).1]
      exact (startsEscape_of_none hpercent c _).1

theorem percentDecode_flatMap :
    percentDecode (text.flatMap percentEncode) = percentDecode text := by
  induction text using decode_induction with
  | nil => rfl
  | escape h l high low rest hh hl ih =>
    have hdigit : ∀ {c : Char} {n}, hexValue c = some n → percentEncode c = [c] :=
      fun {c n} hc => (percentEncode_cases c).resolve_right fun hnot => by
        cases hc.symm.trans hnot.2.1
    rw [flatMap_cons, flatMap_cons, flatMap_cons, hdigit hh, hdigit hl]
    exact (percentDecode_escape hh hl).trans
      ((congrArg _ ih).trans (percentDecode_escape hh hl).symm)
  | plain c rest hplain ih =>
    rw [flatMap_cons, percentDecode_cons hplain]
    rcases percentEncode_cases c with hc | ⟨hc, -, -, hplus, -⟩
    · rw [hc, singleton_append, percentDecode_cons, ih]
      rwa [startsEscape_flatMap]
    · rw [hc, percentDecode_escapes, ih, readPlus, if_neg hplus]

/-! ## Weighing texts -/

def weight (text : List Char) : ℕ := 2 * text.count '%' + text.count '2'

def byteWeight (bytes : List UInt8) : ℕ := 2 * bytes.count 0x25 + bytes.count 0x32

theorem byteWeight_append (a b : List UInt8) :
    byteWeight (a ++ b) = byteWeight a + byteWeight b := by
  simp only [byteWeight, count_append]
  omega

theorem weight_append (a b : List Char) : weight (a ++ b) = weight a + weight b := by
  simp only [weight, count_append]
  omega

theorem weight_fromUtf8Lossy_le (bytes : List UInt8) :
    weight (fromUtf8Lossy bytes) ≤ byteWeight bytes := by
  have hpercent := count_fromUtf8Lossy_le (d := '%') (by decide) bytes
  have htwo := count_fromUtf8Lossy_le (d := '2') (by decide) bytes
  exact Nat.add_le_add (Nat.mul_le_mul_left 2 hpercent) htwo

theorem byteWeight_utf8EncodeChar (c : Char) :
    byteWeight (String.utf8EncodeChar (readPlus c)) = weight [c] := by
  have hpercent := count_utf8EncodeChar (d := '%') (by decide) (readPlus c)
  have htwo := count_utf8EncodeChar (d := '2') (by decide) (readPlus c)
  have hplus : weight [readPlus c] = weight [c] := by
    unfold readPlus
    split_ifs with hc
    · rw [hc]
      rfl
    · rfl
  rw [← hplus]
  exact congrArg₂ (2 * · + ·) hpercent htwo

theorem byteWeight_escape_lt {h l : Char} {high low : ℕ}
    (hh : hexValue h = some high) (hl : hexValue l = some low) :
    byteWeight [ofNat (16 * high + low)] < weight ['%', h, l] := by
  have hlt : ∀ {c : Char} {n}, hexValue c = some n → n < 16 := by
    intro c n hc
    have h16 := forall_of_hexValue (P := fun c => (hexValue c).getD 0 < 16)
      (by decide +kernel) (c := c) (by rw [hc]; rfl)
    rwa [hc] at h16
  have hsmall : 16 * high + low < 256 := by
    have hhigh := hlt hh
    have hlow := hlt hl
    omega
  have hbyte : (ofNat (16 * high + low)).toNat = 16 * high + low := toNat_ofNat_of_lt' hsmall
  have hheavy : 2 ≤ weight ['%', h, l] := by
    simp only [weight, count_cons_self]
    omega
  by_cases hp : ofNat (16 * high + low) = 0x25
  · -- the escape `%25` contains a `2`
    have htwo : h = '2' := by
      have hhigh : high = 2 := by
        rw [hp] at hbyte
        have h37 : (0x25 : UInt8).toNat = 37 := rfl
        have := hlt hl
        omega
      exact forall_of_hexValue (P := fun c => hexValue c = some 2 → c = '2')
        (by decide +kernel) (by rw [hh]; rfl) (hh.trans (by rw [hhigh]))
    rw [hp, htwo]
    simp only [weight, count_cons]
    exact lt_of_lt_of_le (by decide : byteWeight [0x25] < 3) (by simp; omega)
  · refine lt_of_le_of_lt ?_ (lt_of_lt_of_le one_lt_two hheavy)
    rw [byteWeight, count_singleton, count_singleton, if_neg (by simpa using hp)]
    split_ifs <;> decide

theorem percentDecode_cases : (¬ Escapes text ∧ percentDecode text = utf8 (text.map readPlus)
    ∧ byteWeight (percentDecode text) = weight text)
    ∨ (Escapes text ∧ byteWeight (percentDecode text) < weight text) := by
  induction text using decode_induction with
  | nil => exact .inl ⟨by simp [Escapes], rfl, rfl⟩
  | escape h l high low rest hh hl ih =>
    refine .inr ⟨escapes_cons.2 (.inl ⟨rfl, by simp [startsEscape, hh, hl]⟩), ?_⟩
    have hle : byteWeight (percentDecode rest) ≤ weight rest :=
      ih.elim (fun h => h.2.2.le) fun h => h.2.le
    calc byteWeight (percentDecode ('%' :: h :: l :: rest))
        = byteWeight [ofNat (16 * high + low)] + byteWeight (percentDecode rest) := by
          rw [percentDecode_escape hh hl, ← byteWeight_append]
          rfl
      _ < weight ['%', h, l] + weight rest :=
        add_lt_add_of_lt_of_le (byteWeight_escape_lt hh hl) hle
      _ = weight ('%' :: h :: l :: rest) := (weight_append _ _).symm
  | plain c rest hplain ih =>
    rw [percentDecode_cons hplain, byteWeight_append, byteWeight_utf8EncodeChar,
      escapes_cons, ← singleton_append, weight_append]
    rcases ih with ⟨hnot, hread, hweight⟩ | ⟨hescapes, hlt⟩
    · refine .inl ⟨fun h => h.elim hplain hnot, ?_, by rw [hweight]⟩
      rw [hread]
      rfl
    · exact .inr ⟨.inr hescapes, Nat.add_lt_add_left hlt _⟩

/-! ## Pairs of keys and values -/

def decodeText (text : List Char) : List Char := fromUtf8Lossy (percentDecode text)

def splitKey (piece : List Char) : List Char × List Char :=
  ((piece.splitOn '=').headD [], ['='].intercalate (piece.splitOn '=').tail)

def parts (query : List Char) : List (List Char × List Char) :=
  ((query.splitOn '&').filter (· ≠ [])).map splitKey

def queryPairs (query : List Char) : List (List Char × List Char) :=
  (parts query).map (Prod.map decodeText decodeText)

def joinPairs (pairs : List (List Char × List Char)) : List Char :=
  ['&'].intercalate (pairs.map fun p => p.1 ++ '=' :: p.2)

variable {sep : Char}

theorem flatMap_intercalate (hsep : percentEncode sep = [sep]) (pieces : List (List Char)) :
    ([sep].intercalate pieces).flatMap percentEncode
      = [sep].intercalate (pieces.map (·.flatMap percentEncode)) := by
  induction pieces with
  | nil => rfl
  | cons piece pieces ih =>
    cases pieces with
    | nil => simp
    | cons piece' pieces =>
      rw [intercalate_cons_cons, flatMap_append, flatMap_append, ih]
      simp only [map_cons, intercalate_cons_cons, flatMap_singleton, hsep]

theorem eq_of_mem_percentEncode (hsep : sep ≠ '%')
    (hdigit : ∀ n < 16, upperHexDigit n ≠ sep) (h : sep ∈ percentEncode c) :
    c = sep := by
  rcases percentEncode_cases c with hc | ⟨hc, -⟩
  · rw [hc] at h
    exact (mem_singleton.1 h).symm
  · rw [hc] at h
    obtain ⟨b, -, h⟩ := mem_flatMap.1 h
    have hb := b.toNat_lt
    simp only [escape, mem_cons, not_mem_nil, or_false] at h
    rcases h with h | h | h
    · exact absurd h hsep
    · exact absurd h.symm (hdigit _ (by omega))
    · exact absurd h.symm (hdigit _ (by omega))

theorem splitOn_flatMap (hsep : percentEncode sep = [sep]) (hpercent : sep ≠ '%')
    (hdigit : ∀ n < 16, upperHexDigit n ≠ sep) (text : List Char) :
    (text.flatMap percentEncode).splitOn sep
      = (text.splitOn sep).map (·.flatMap percentEncode) := by
  conv_lhs => rw [← (intercalate_splitOn sep : _ = text), flatMap_intercalate hsep]
  refine splitOn_intercalate sep (fun piece hpiece hin => ?_) (by simp)
  obtain ⟨piece, hpiece', rfl⟩ := mem_map.1 hpiece
  obtain ⟨c, hc, hin⟩ := mem_flatMap.1 hin
  exact not_mem_of_mem_splitOn hpiece' (eq_of_mem_percentEncode hpercent hdigit hin ▸ hc)

theorem splitKey_flatMap (piece : List Char) : splitKey (piece.flatMap percentEncode)
    = Prod.map (·.flatMap percentEncode) (·.flatMap percentEncode) (splitKey piece) := by
  unfold splitKey
  rw [splitOn_flatMap rfl (by decide) (by decide)]
  cases piece.splitOn '=' with
  | nil => rfl
  | cons key rest => exact Prod.ext rfl (flatMap_intercalate rfl rest).symm

variable {text : List Char}

theorem flatMap_percentEncode_eq_nil : text.flatMap percentEncode = [] ↔ text = [] := by
  refine ⟨fun h => ?_, fun h => by rw [h]; rfl⟩
  cases text with
  | nil => rfl
  | cons c text =>
    rcases percentEncode_cases c with hc | ⟨-, -, -, -, rest, hc⟩
    all_goals rw [flatMap_cons, hc] at h; cases h

theorem parts_flatMap (text : List Char) : parts (text.flatMap percentEncode)
    = (parts text).map (Prod.map (·.flatMap percentEncode) (·.flatMap percentEncode)) := by
  unfold parts
  rw [splitOn_flatMap rfl (by decide) (by decide), filter_map, map_map, map_map]
  have hfilter : (text.splitOn '&').filter
        ((fun p => decide (p ≠ [])) ∘ fun p => p.flatMap percentEncode)
      = (text.splitOn '&').filter fun p => decide (p ≠ []) :=
    filter_congr fun p _ => by simp only [Function.comp, ne_eq, flatMap_percentEncode_eq_nil]
  rw [hfilter]
  exact map_congr_left fun p _ => splitKey_flatMap p

theorem queryPairs_setQuery (text : List Char) : queryPairs (setQuery text)
    = queryPairs (text.filter fun c => !isRemoved c) := by
  rw [setQuery, queryPairs, parts_flatMap, queryPairs, map_map]
  refine map_congr_left fun p _ => ?_
  show (decodeText _, decodeText _) = (decodeText _, decodeText _)
  unfold decodeText
  rw [percentDecode_flatMap, percentDecode_flatMap]

theorem queryPairs_setQuery_setQuery (text : List Char) :
    queryPairs (setQuery (setQuery text)) = queryPairs (setQuery text) := by
  have hkept : ∀ d ∈ setQuery text, (!isRemoved d) = true := by
    intro d hd
    obtain ⟨c, hc, hd⟩ := mem_flatMap.1 hd
    by_contra hremoved
    have hsep : d ≠ '%' ∧ ∀ n < 16, upperHexDigit n ≠ d := by
      simp only [isRemoved, Bool.not_eq_true', Bool.not_eq_false,
        Bool.or_eq_true, decide_eq_true_eq] at hremoved
      rcases hremoved with (rfl | rfl) | rfl <;> decide
    rw [eq_of_mem_percentEncode hsep.1 hsep.2 hd] at hc
    exact hremoved (mem_filter.1 hc).2
  rw [queryPairs_setQuery, filter_eq_self.2 hkept]

/-! ## What is read back -/

/-- **A text without characters that are special to the reader.** -/
structure Plain (text : List Char) : Prop where
  amp : '&' ∉ text
  plus : '+' ∉ text
  kept : ∀ c ∈ text, isRemoved c = false
  escapes : ¬ Escapes text

def PlainPair (p : List Char × List Char) : Prop := Plain p.1 ∧ Plain p.2 ∧ '=' ∉ p.1

theorem decodeText_cases (text : List Char) : (¬ Escapes text ∧ decodeText text = text.map readPlus
      ∧ weight (decodeText text) ≤ weight text)
    ∨ (Escapes text ∧ weight (decodeText text) < weight text) := by
  have hle := weight_fromUtf8Lossy_le (percentDecode text)
  rcases percentDecode_cases text with ⟨hnot, hread, hweight⟩ | ⟨hesc, hlt⟩
  · refine .inl ⟨hnot, ?_, hle.trans hweight.le⟩
    rw [decodeText, hread, fromUtf8Lossy_utf8]
  · exact .inr ⟨hesc, hle.trans_lt hlt⟩

theorem map_readPlus (h : '+' ∉ text) : text.map readPlus = text := by
  refine (map_congr_left (g := id) fun c hc => ?_).trans (map_id text)
  exact if_neg (ne_of_mem_of_not_mem hc h)

theorem Plain.decodeText_eq (h : Plain text) : decodeText text = text := by
  rcases decodeText_cases text with ⟨-, hread, -⟩ | ⟨hesc, -⟩
  · rw [hread, map_readPlus h.plus]
  · exact absurd hesc h.escapes

theorem splitKey_append {key value : List Char} (h : '=' ∉ key) :
    splitKey (key ++ '=' :: value) = (key, value) := by
  unfold splitKey
  rw [splitOn_append_cons_self_of_not_mem h]
  exact Prod.ext rfl (intercalate_splitOn '=')

theorem parts_append {key : List Char} (hamp : '&' ∉ key) (heq : '=' ∉ key) (text : List Char) :
    ∃ value rest, parts (key ++ '=' :: text) = (key, value) :: rest := by
  cases hpieces : text.splitOn '&' with
  | nil => exact absurd hpieces (splitOn_ne_nil '&' text)
  | cons piece pieces =>
    have htext : ['&'].intercalate ((key ++ '=' :: piece) :: pieces) = key ++ '=' :: text := by
      rw [← (intercalate_splitOn '&' : _ = text), hpieces]
      cases pieces <;> simp [intercalate_cons_cons]
    have hnot : ∀ p ∈ piece :: pieces, '&' ∉ p := fun p hp => not_mem_of_mem_splitOn (hpieces ▸ hp)
    obtain ⟨hpiece, hnot⟩ := forall_mem_cons.1 hnot
    have hsplit : (key ++ '=' :: text).splitOn '&' = (key ++ '=' :: piece) :: pieces := by
      rw [← htext]
      refine splitOn_intercalate '&' (forall_mem_cons.2 ⟨?_, hnot⟩) (cons_ne_nil _ _)
      simp [hamp, hpiece]
    rw [parts, hsplit, filter_cons_of_pos (by simp), map_cons, splitKey_append heq]
    exact ⟨piece, _, rfl⟩

variable {pairs : List (List Char × List Char)}

theorem parts_joinPairs (h : ∀ p ∈ pairs, '&' ∉ p.1 ∧ '&' ∉ p.2 ∧ '=' ∉ p.1) :
    parts (joinPairs pairs) = pairs := by
  by_cases hpairs : pairs = []
  · rw [hpairs]
    rfl
  unfold parts joinPairs
  rw [splitOn_intercalate, filter_eq_self.2, map_map]
  · refine (map_congr_left (g := id) fun p hp => ?_).trans (map_id pairs)
    exact splitKey_append (h p hp).2.2
  · intro piece hpiece
    obtain ⟨p, -, rfl⟩ := mem_map.1 hpiece
    simp
  · intro piece hpiece
    obtain ⟨p, hp, rfl⟩ := mem_map.1 hpiece
    simp [h p hp]
  · simpa using hpairs

theorem mem_intercalate (pieces : List (List Char)) :
    (c ∈ [sep].intercalate pieces → c = sep ∨ ∃ p ∈ pieces, c ∈ p)
      ∧ ∀ p ∈ pieces, c ∈ p → c ∈ [sep].intercalate pieces := by
  induction pieces with
  | nil => simp
  | cons piece pieces ih =>
    cases pieces with
    | nil =>
      rw [intercalate_singleton, forall_mem_singleton]
      exact ⟨fun h => .inr ⟨piece, mem_cons_self, h⟩, id⟩
    | cons piece' pieces =>
      rw [intercalate_cons_cons, mem_append, mem_append,
        exists_mem_cons_iff, forall_mem_cons, mem_singleton]
      refine ⟨?_, fun h => .inl (.inl h), fun p hp h => .inr (ih.2 p hp h)⟩
      rintro ((h | h) | h)
      · exact .inr (.inl h)
      · exact .inl h
      · exact (ih.1 h).imp_right .inr

theorem mem_joinPairs (h : c ∈ joinPairs pairs) :
    c = '&' ∨ c = '=' ∨ ∃ p ∈ pairs, c ∈ p.1 ∨ c ∈ p.2 := by
  rcases (mem_intercalate _).1 h with h | ⟨piece, hpiece, h⟩
  · exact .inl h
  obtain ⟨p, hp, rfl⟩ := mem_map.1 hpiece
  rcases mem_append.1 h with h | h
  · exact .inr (.inr ⟨p, hp, .inl h⟩)
  rcases mem_cons.1 h with h | h
  · exact .inr (.inl h)
  · exact .inr (.inr ⟨p, hp, .inr h⟩)

theorem filter_joinPairs (h : ∀ p ∈ pairs, ∀ c, c ∈ p.1 ∨ c ∈ p.2 → isRemoved c = false) :
    ((joinPairs pairs).filter fun c => !isRemoved c) = joinPairs pairs := by
  refine filter_eq_self.2 fun c hc => ?_
  rcases mem_joinPairs hc with rfl | rfl | ⟨p, hp, hc⟩
  · rfl
  · rfl
  · rw [h p hp c hc]
    rfl

theorem queryPairs_of_plain (h : ∀ p ∈ pairs, PlainPair p) :
    queryPairs (setQuery (joinPairs pairs)) = pairs := by
  have hkept : ∀ p ∈ pairs, ∀ c, c ∈ p.1 ∨ c ∈ p.2 → isRemoved c = false :=
    fun p hp c hc => hc.elim ((h p hp).1.kept c) ((h p hp).2.1.kept c)
  rw [queryPairs_setQuery, filter_joinPairs hkept, queryPairs, parts_joinPairs
    fun p hp => ⟨(h p hp).1.amp, (h p hp).2.1.amp, (h p hp).2.2⟩]
  refine (map_congr_left (g := id) fun p hp => ?_).trans (map_id pairs)
  exact Prod.ext (h p hp).1.decodeText_eq (h p hp).2.1.decodeText_eq

def texts (pairs : List (List Char × List Char)) : List Char := pairs.flatMap fun p => p.1 ++ p.2

theorem weight_intercalate (hsep : weight [sep] = 0) (pieces : List (List Char)) :
    weight ([sep].intercalate pieces) = weight pieces.flatten := by
  induction pieces with
  | nil => rfl
  | cons piece pieces ih =>
    cases pieces with
    | nil => simp
    | cons piece' pieces =>
      rw [intercalate_cons_cons, weight_append, weight_append, ih, hsep]
      exact (weight_append piece _).symm

theorem weight_le_of_sublist {a b : List Char} (h : a.Sublist b) : weight a ≤ weight b :=
  Nat.add_le_add (Nat.mul_le_mul_left 2 (h.count_le '%')) (h.count_le '2')

theorem weight_splitKey (piece : List Char) :
    weight ((splitKey piece).1 ++ (splitKey piece).2) = weight piece := by
  conv_rhs => rw [← (intercalate_splitOn '=' : _ = piece), weight_intercalate rfl]
  unfold splitKey
  cases piece.splitOn '=' with
  | nil => rfl
  | cons key rest =>
    rw [weight_append, flatten_cons, weight_append]
    exact congrArg _ (weight_intercalate rfl rest)

theorem weight_parts (text : List Char) : weight (texts (parts text)) = weight text := by
  conv_rhs => rw [← (intercalate_splitOn '&' : _ = text), weight_intercalate rfl]
  unfold parts
  induction text.splitOn '&' with
  | nil => rfl
  | cons piece pieces ih =>
    rw [flatten_cons, weight_append, ← ih]
    by_cases hpiece : piece = []
    · rw [hpiece]
      exact (zero_add _).symm
    · rw [filter_cons_of_pos (by simpa using hpiece), map_cons, ← weight_splitKey piece]
      exact weight_append _ _

theorem weight_joinPairs (pairs : List (List Char × List Char)) :
    weight (joinPairs pairs) = weight (texts pairs) := by
  rw [joinPairs, weight_intercalate rfl]
  induction pairs with
  | nil => rfl
  | cons p pairs ih =>
    have hpair : weight (p.1 ++ '=' :: p.2) = weight (p.1 ++ p.2) := by
      rw [weight_append, weight_append, ← singleton_append, weight_append]
      simp [weight]
    rw [map_cons, flatten_cons, weight_append, ih, hpair]
    exact (weight_append _ _).symm

theorem weight_decode (pairs : List (List Char × List Char)) :
    weight (texts (pairs.map (Prod.map decodeText decodeText))) ≤ weight (texts pairs)
      ∧ (weight (texts pairs) ≤ weight (texts (pairs.map (Prod.map decodeText decodeText))) →
        ∀ p ∈ pairs, ¬ Escapes p.1 ∧ ¬ Escapes p.2) := by
  have hle (text : List Char) : weight (decodeText text) ≤ weight text :=
    (decodeText_cases text).elim (fun h => h.2.2) fun h => h.2.le
  have hlt {text : List Char} (h : weight text ≤ weight (decodeText text)) : ¬ Escapes text :=
    (decodeText_cases text).elim (fun h => h.1) fun h' => absurd h'.2 h.not_gt
  induction pairs with
  | nil => exact ⟨le_rfl, fun _ p hp => absurd hp not_mem_nil⟩
  | cons p pairs ih =>
    have hkey := hle p.1
    have hvalue := hle p.2
    have hread : weight (texts ((p :: pairs).map (Prod.map decodeText decodeText)))
        = weight (decodeText p.1) + weight (decodeText p.2)
          + weight (texts (pairs.map (Prod.map decodeText decodeText))) := by
      rw [← weight_append, ← weight_append]
      rfl
    have hwritten : weight (texts (p :: pairs))
        = weight p.1 + weight p.2 + weight (texts pairs) := by
      rw [← weight_append, ← weight_append]
      rfl
    rw [hread, hwritten]
    refine ⟨by have := ih.1; omega, fun hge => ?_⟩
    have hrest := ih.1
    exact forall_mem_cons.2 ⟨⟨hlt (by omega), hlt (by omega)⟩, ih.2 (by omega)⟩

theorem weight_texts_le {pairs' : List (List Char × List Char)}
    (hnodup : pairs.Nodup) (h : ∀ p ∈ pairs, p ∈ pairs') :
    weight (texts pairs) ≤ weight (texts pairs') := by
  obtain ⟨l, hperm, hsub⟩ := subperm_of_subset hnodup h
  have htexts : (texts l).Perm (texts pairs) := hperm.flatMap_right _
  calc weight (texts pairs) = weight (texts l) := by
        unfold weight
        rw [htexts.count_eq, htexts.count_eq]
    _ ≤ weight (texts pairs') := weight_le_of_sublist (hsub.flatMap _)

/-- The texts between separators. -/
theorem mem_parts {q : List Char × List Char} (h : q ∈ parts text) :
    (∀ c, c ∈ q.1 ∨ c ∈ q.2 → c ∈ text ∧ c ≠ '&') ∧ '=' ∉ q.1 := by
  obtain ⟨piece, hpiece, rfl⟩ := mem_map.1 h
  have hpiece := (mem_filter.1 hpiece).1
  have hmem : ∀ c, c ∈ (splitKey piece).1 ∨ c ∈ (splitKey piece).2 → c ∈ piece := by
    intro c hc
    rw [← (intercalate_splitOn '=' : _ = piece)]
    unfold splitKey at hc
    cases hkeys : piece.splitOn '=' with
    | nil => exact absurd hkeys (splitOn_ne_nil '=' piece)
    | cons key rest =>
      rw [hkeys] at hc
      rcases hc with hc | hc
      · exact (mem_intercalate _).2 key mem_cons_self hc
      · cases rest with
        | nil => cases hc
        | cons value rest =>
          rw [intercalate_cons_cons]
          exact mem_append_right _ hc
  refine ⟨fun c hc => ⟨?_, ?_⟩, ?_⟩
  · rw [← (intercalate_splitOn '&' : _ = text)]
    exact (mem_intercalate _).2 piece hpiece (hmem c hc)
  · rintro rfl
    exact not_mem_of_mem_splitOn hpiece (hmem _ hc)
  · unfold splitKey
    cases hkeys : piece.splitOn '=' with
    | nil => exact not_mem_nil
    | cons key rest => exact not_mem_of_mem_splitOn (hkeys ▸ mem_cons_self)

theorem eq_of_readPlus (h : readPlus c = d) (hd : d ≠ ' ') : c = d ∧ d ≠ '+' := by
  unfold readPlus at h
  split_ifs at h with hc
  · exact absurd h.symm hd
  · exact ⟨h, h ▸ hc⟩

/-- **Only plain texts are read back.** -/
theorem plain_of_read_back (hnodup : pairs.Nodup)
    (h : ∀ p ∈ pairs, p ∈ queryPairs (setQuery (joinPairs pairs))) :
    ∀ p ∈ pairs, PlainPair p := by
  rw [queryPairs_setQuery, queryPairs] at h
  obtain ⟨-, hescapes⟩ := weight_decode (parts ((joinPairs pairs).filter fun c => !isRemoved c))
  -- there are no escapes, since nothing has become lighter
  have hnone := hescapes <| calc
    _ = weight ((joinPairs pairs).filter fun c => !isRemoved c) := weight_parts _
    _ ≤ weight (joinPairs pairs) := weight_le_of_sublist filter_sublist
    _ = weight (texts pairs) := weight_joinPairs pairs
    _ ≤ _ := weight_texts_le hnodup h
  have hread {text : List Char} (h : ¬ Escapes text) : decodeText text = text.map readPlus :=
    ((decodeText_cases text).resolve_right fun h' => h h'.1).2.1
  -- hence what is read was written, and contains no separators
  have hchars : ∀ p ∈ pairs, (∀ c, c ∈ p.1 ∨ c ∈ p.2 → c ≠ ' ' →
      isRemoved c = false ∧ c ≠ '&' ∧ c ≠ '+') ∧ '=' ∉ p.1 := by
    intro p hp
    obtain ⟨q, hq, rfl⟩ := mem_map.1 (h p hp)
    obtain ⟨hmem, hkey⟩ := mem_parts hq
    rw [Prod.map_fst, Prod.map_snd, hread (hnone q hq).1, hread (hnone q hq).2]
    refine ⟨fun c hc hspace => ?_, fun heq => ?_⟩
    · have hback : (c ∈ q.1 ∨ c ∈ q.2) ∧ c ≠ '+' := by
        rw [mem_map, mem_map] at hc
        rcases hc with ⟨d, hd, hplus⟩ | ⟨d, hd, hplus⟩
        · obtain ⟨rfl, hne⟩ := eq_of_readPlus hplus hspace
          exact ⟨.inl hd, hne⟩
        · obtain ⟨rfl, hne⟩ := eq_of_readPlus hplus hspace
          exact ⟨.inr hd, hne⟩
      obtain ⟨htext, hamp⟩ := hmem c hback.1
      exact ⟨Bool.not_eq_true' _ ▸ (mem_filter.1 htext).2, hamp, hback.2⟩
    · obtain ⟨d, hd, hplus⟩ := mem_map.1 heq
      obtain ⟨rfl, -⟩ := eq_of_readPlus hplus (by decide)
      exact hkey hd
  have hkept : ∀ p ∈ pairs, ∀ c, c ∈ p.1 ∨ c ∈ p.2 → isRemoved c = false := by
    intro p hp c hc
    by_cases hspace : c = ' '
    · rw [hspace]
      rfl
    · exact ((hchars p hp).1 c hc hspace).1
  have hamp : ∀ p ∈ pairs, '&' ∉ p.1 ∧ '&' ∉ p.2 ∧ '=' ∉ p.1 :=
    fun p hp => ⟨fun hc => ((hchars p hp).1 _ (.inl hc) (by decide)).2.1 rfl,
      fun hc => ((hchars p hp).1 _ (.inr hc) (by decide)).2.1 rfl,
      (hchars p hp).2⟩
  rw [filter_joinPairs hkept, parts_joinPairs hamp] at hnone
  intro p hp
  have hplus := fun hc => ((hchars p hp).1 '+' hc (by decide)).2.2 rfl
  exact ⟨⟨(hamp p hp).1, fun hc => hplus (.inl hc),
    fun c hc => hkept p hp c (.inl hc), (hnone p hp).1⟩,
    ⟨(hamp p hp).2.1, fun hc => hplus (.inr hc),
      fun c hc => hkept p hp c (.inr hc), (hnone p hp).2⟩, (hamp p hp).2.2⟩

end UrlQuery
