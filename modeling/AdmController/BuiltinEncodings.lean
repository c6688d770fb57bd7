import AdmController.BuiltinPanics
import AdmController.UrlQuery

/-!
# Encodings of Rego

Which strings and objects are read back by the decoders for hexadecimal digits
and for queries of URLs (`encodings_inverse_iff`). `hex.encode` writes small
bytes as a single digit, where `hex.decode` reads two.
-/

namespace Builtins

open Serde UrlQuery Fallible AList List

/-! ## `hex.encode` -/

def hexByte (b : UInt8) : List Char :=
  if b.toNat < 16 then [hexDigit b.toNat]
  else [hexDigit (b.toNat / 16), hexDigit (b.toNat % 16)]

def hexEncode : List Value → Except BuiltinError Value
  | [arg] => do
    let input ← asStr "hex.encode" "1st parameter is not a string" arg
    pure (.string (.ofList ((utf8 input.toList).flatMap hexByte)))
  | _ => .error ⟨"hex.encode", "wrong number of arguments"⟩

variable {bytes : List UInt8} {s : String}

theorem fromUTF8?_eq_some : String.fromUTF8? ⟨bytes.toArray⟩ = some s ↔ bytes = utf8 s.toList := by
  have hbytes (s : String) : s.toByteArray = ⟨(utf8 s.toList).toArray⟩ := by
    conv_lhs => rw [← s.ofList_toList, String.toByteArray_ofList]
    exact ByteArray.ext (data_toByteArray (l := utf8 s.toList))
  rw [String.fromUTF8?]
  constructor
  · intro h
    split_ifs at h with hvalid
    obtain rfl := Option.some.inj h
    have harray := congrArg ByteArray.data (hbytes (String.fromUTF8 _ hvalid))
    exact toArray_inj harray
  · rintro rfl
    rw [← hbytes]
    exact dif_pos s.isValidUTF8

theorem fromStrRadix_hexDigit {b : UInt8} :
    fromStrRadix (hexDigit (b.toNat / 16)) (hexDigit (b.toNat % 16)) = .ok b := by
  have hb := b.toNat_lt
  have hplus : hexDigit (b.toNat / 16) ≠ '+' := by
    intro h
    have hvalue := (hexValue_hexDigit (show b.toNat / 16 < 16 by omega)).1
    rw [h] at hvalue
    cases hvalue
  rw [fromStrRadix, if_neg hplus, (hexValue_hexDigit (by omega)).1,
    (hexValue_hexDigit (by omega)).1]
  show Except.ok (UInt8.ofNat (16 * (b.toNat / 16) + b.toNat % 16)) = _
  rw [Nat.div_add_mod, UInt8.ofNat_toNat]

theorem decodePairs_hexByte (h : ∀ b ∈ bytes, 16 ≤ b.toNat) :
    decodePairs (bytes.flatMap hexByte) = .ok bytes := by
  induction bytes with
  | nil => rfl
  | cons b bytes ih =>
    obtain ⟨hb, h⟩ := forall_mem_cons.1 h
    have hsize (n : ℕ) (hn : n < 16) : (hexDigit n).utf8Size = 1 :=
      utf8Size_of_hexValue (by rw [(hexValue_hexDigit hn).1]; rfl)
    have hlt := b.toNat_lt
    have hhigh := hsize (b.toNat / 16) (by omega)
    have hlow := hsize (b.toNat % 16) (by omega)
    rw [flatMap_cons, hexByte, if_neg (Nat.not_lt.2 hb)]
    show decodePairs (_ :: _ :: bytes.flatMap hexByte) = _
    rw [decodePairs, if_neg (by rw [hhigh]; decide), if_pos ⟨hhigh, hlow⟩,
      fromStrRadix_hexDigit, ih h]
    rfl

theorem length_of_decodePairs {cs : List Char}
    (h : decodePairs cs = .ok bytes) : cs.length = 2 * bytes.length := by
  fun_induction decodePairs cs generalizing bytes with
  | case1 =>
    cases h
    rfl
  | case2 c hc => cases h
  | case3 c hc => cases h
  | case4 c d rest hc => cases h
  | case5 c d rest hc hone ih =>
    obtain ⟨b, -, h⟩ := Outcome.bind_eq_ok.1 h
    obtain ⟨bytes', hbytes, h⟩ := Outcome.bind_eq_ok.1 h
    cases h
    rw [length_cons, length_cons, length_cons, ih hbytes]
    omega
  | case6 c d rest hc hone => cases h

theorem length_flatMap_hexByte (bytes : List UInt8) :
    (bytes.flatMap hexByte).length ≤ 2 * bytes.length
      ∧ ((bytes.flatMap hexByte).length = 2 * bytes.length → ∀ b ∈ bytes, 16 ≤ b.toNat) := by
  induction bytes with
  | nil => simp
  | cons b bytes ih =>
    obtain ⟨hle, hall⟩ := ih
    rw [flatMap_cons, length_append, length_cons, forall_mem_cons]
    by_cases hb : b.toNat < 16
    · have hone : (hexByte b).length = 1 := by rw [hexByte, if_pos hb]; rfl
      exact ⟨by omega, fun h => by omega⟩
    · have htwo : (hexByte b).length = 2 := by rw [hexByte, if_neg hb]; rfl
      exact ⟨by omega, fun h => ⟨Nat.not_lt.1 hb, hall (by omega)⟩⟩

theorem hexDecode_string {utf8Error : List UInt8 → String} {cs : List Char} :
    hexDecode utf8Error [.string (.ofList cs)] = .ok (.string s)
      ↔ decodePairs cs = .ok (utf8 s.toList) := by
  rw [hexDecode, Outcome.bind_eq_ok]
  constructor
  · rintro ⟨input, hinput, h⟩
    cases hinput
    rw [String.toList_ofList] at h
    obtain ⟨value, hvalue, h⟩ := Outcome.bind_eq_ok.1 h
    split at h
    · next res hres =>
      cases h
      rw [hvalue, fromUTF8?_eq_some.1 hres]
    · cases h
  · intro h
    refine ⟨_, rfl, Outcome.bind_eq_ok.2 ⟨_, by rwa [String.toList_ofList], ?_⟩⟩
    rw [fromUTF8?_eq_some.2 rfl]
    rfl

/-! ## Queries -/

def inputQuery (input : String) : List Char := setQuery ("input=" ++ input).toList

def urlqueryEncode : List Value → Except BuiltinError Value
  | [arg] => do
    let input ← asStr "urlquery.encode" "1st parameter is not a string" arg
    match RustStr.stripPrefix (.ofList (inputQuery input)) "input=" with
    | some res => pure (.string res)
    | none => .error ⟨"urlquery.encode", "internal error 3"⟩
  | _ => .error ⟨"urlquery.encode", "wrong number of arguments"⟩

def urlqueryDecode : List Value → Except BuiltinError Value
  | [arg] => do
    let input ← asStr "urlquery.decode" "1st parameter is not a string" arg
    match queryPairs (inputQuery input) with
    | [(_, value)] => pure (.string (.ofList value))
    | _ => .error ⟨"urlquery.decode", "internal error 2"⟩
  | _ => .error ⟨"urlquery.decode", "wrong number of arguments"⟩

def urlqueryEncodeObject : List Value → Except BuiltinError Value
  | [.mapping obj] => do
    let queries ← obj.mapM fun (key, value) => do
      let value ← asStr "urlquery.encode_object"
        ("the value of key " ++ key.text ++ " is not a string") value
      pure (key.text.toList ++ '=' :: value.toList)
    pure (.string (.ofList (setQuery (['&'].intercalate queries))))
  | [_] => .error ⟨"urlquery.encode_object", "1st parameter is not an object"⟩
  | _ => .error ⟨"urlquery.encode_object", "wrong number of arguments"⟩

variable (o : HashMap String String)

def object : Value := .mapping (o.entries.map fun e => (.str e.1, .string e.2))

def urlqueryDecodeObject : List Value → Except BuiltinError Value
  | [arg] => do
    let input ← asStr "urlquery.decode" "1st parameter is not a string" arg
    let pairs := (queryPairs (setQuery input.toList)).map fun p =>
      ⟨.ofList p.1, .ofList p.2⟩
    pure (object ((∅ : HashMap String String).insertAll pairs))
  | _ => .error ⟨"urlquery.decode_object", "wrong number of arguments"⟩

def inputName : List Char := ['i', 'n', 'p', 'u', 't']

theorem plain_inputName : Plain inputName where
  amp := by decide
  plus := by decide
  kept := by simp [inputName, isRemoved]
  escapes := by
    rintro ⟨digits, hsuffix, -⟩
    have hpercent : '%' ∉ inputName := by decide
    exact hpercent (hsuffix.subset mem_cons_self)

theorem notMem_inputName : '=' ∉ inputName := by
  decide

theorem joinPairs_input (s : String) :
    joinPairs [(inputName, s.toList)] = ("input=" ++ s).toList := by
  rw [String.toList_append]
  exact intercalate_singleton

theorem inputQuery_eq (input : String) :
    inputQuery input = "input=".toList ++ setQuery input.toList := by
  rw [inputQuery, String.toList_append, setQuery, filter_append, flatMap_append]
  rfl

theorem urlqueryEncode_string (s : String) : urlqueryEncode [.string s]
    = .ok (.string (.ofList (setQuery s.toList))) := by
  have hstrip : RustStr.stripPrefix (.ofList (inputQuery s)) "input="
      = some (.ofList (setQuery s.toList)) := by
    rw [RustStr.stripPrefix_eq_some, inputQuery_eq, String.ofList_append, String.ofList_toList]
  refine bind_eq_ok.2 ⟨s, rfl, ?_⟩
  rw [hstrip]
  rfl

theorem queryPairs_inputQuery (s : String) : queryPairs (inputQuery (.ofList (setQuery s.toList)))
    = queryPairs (setQuery (joinPairs [(inputName, s.toList)])) := by
  have hagain : inputQuery (.ofList (setQuery s.toList)) = setQuery (inputQuery s) := by
    rw [inputQuery_eq s, inputQuery, String.toList_append]
    exact congrArg (fun l => setQuery (_ ++ l)) String.toList_ofList
  rw [hagain, inputQuery, queryPairs_setQuery_setQuery, joinPairs_input]

theorem exists_queryPairs (s : String) :
    ∃ value rest, queryPairs (setQuery (joinPairs [(inputName, s.toList)]))
      = (inputName, value) :: rest := by
  obtain ⟨value, rest, hparts⟩ := parts_append plain_inputName.amp notMem_inputName
    (s.toList.filter fun c => !isRemoved c)
  have hfilter : ((joinPairs [(inputName, s.toList)]).filter fun c => !isRemoved c)
        = inputName ++ '=' :: s.toList.filter fun c => !isRemoved c := by
    rw [joinPairs, map_singleton, intercalate_singleton]
    rfl
  rw [queryPairs_setQuery, hfilter, queryPairs, hparts, map_cons, Prod.map,
    plain_inputName.decodeText_eq]
  exact ⟨_, _, rfl⟩

theorem urlqueryDecode_string :
    urlqueryDecode [.string (.ofList (setQuery s.toList))] = .ok (.string s) ↔ Plain s.toList := by
  rw [urlqueryDecode, bind_eq_ok]
  constructor
  · rintro ⟨input, hinput, h⟩
    cases hinput
    obtain ⟨value, rest, hpairs⟩ := exists_queryPairs s
    rw [queryPairs_inputQuery, hpairs] at h
    cases rest with
    | cons p rest => cases h
    | nil =>
      cases h
      rw [String.toList_ofList] at hpairs ⊢
      have hplain := plain_of_read_back (nodup_singleton (inputName, value))
        (by rw [hpairs]; exact fun _ h => h) _ (mem_singleton_self _)
      exact hplain.2.1
  · intro h
    refine ⟨_, rfl, ?_⟩
    rw [queryPairs_inputQuery, queryPairs_of_plain
      (forall_mem_singleton.2 ⟨plain_inputName, h, notMem_inputName⟩)]
    show Except.ok (Value.string (.ofList s.toList)) = _
    rw [String.ofList_toList]

def objectPairs : List (List Char × List Char) := o.entries.map fun e => (e.1.toList, e.2.toList)

theorem urlqueryEncodeObject_object : urlqueryEncodeObject [object o]
    = .ok (.string (.ofList (setQuery (joinPairs (objectPairs o))))) := by
  refine bind_eq_ok.2 ⟨o.entries.map fun e => e.1.toList ++ '=' :: e.2.toList, ?_, ?_⟩
  · rw [mapM_eq_ok_iff, forall₂_map_left_iff, forall₂_map_right_iff, forall₂_same]
    exact fun e _ => rfl
  · rw [joinPairs, objectPairs, map_map]
    rfl

theorem object_injective : Function.Injective object := by
  intro m m' h
  refine ext (map_injective_iff.2 ?_ (Value.mapping.inj h))
  rintro ⟨k, v⟩ ⟨k', v'⟩ heq
  cases heq
  rfl

theorem nodup_objectPairs : (objectPairs o).Nodup := by
  refine List.Nodup.map ?_ o.nodupKeys.nodup
  rintro ⟨k, v⟩ ⟨k', v'⟩ heq
  obtain ⟨hk, hv⟩ := Prod.mk.inj heq
  cases String.toList_inj.1 hk
  cases String.toList_inj.1 hv
  rfl

theorem urlqueryDecodeObject_object {o : HashMap String String} : (∃ m, urlqueryDecodeObject
      [.string (.ofList (setQuery (joinPairs (objectPairs o))))]
        = .ok (object m) ∧ ∀ k, m.lookup k = o.lookup k)
    ↔ ∀ k v, o.lookup k = some v → PlainPair (k.toList, v.toList) := by
  have hentry {k v : String} (h : o.lookup k = some v) : (k.toList, v.toList) ∈ objectPairs o :=
    mem_map.2 ⟨⟨k, v⟩, mem_lookup_iff.1 h, rfl⟩
  have hdecode : urlqueryDecodeObject [.string (.ofList (setQuery (joinPairs (objectPairs o))))]
        = .ok (object ((∅ : HashMap String String).insertAll
          ((queryPairs (setQuery (joinPairs (objectPairs o)))).map fun p =>
            ⟨.ofList p.1, .ofList p.2⟩))) := by
    refine bind_eq_ok.2 ⟨_, rfl, ?_⟩
    rw [String.toList_ofList, queryPairs_setQuery_setQuery]
    rfl
  rw [hdecode]
  constructor
  · rintro ⟨m, hm, hlookup⟩ k v hkv
    obtain rfl := object_injective (Except.ok.inj hm)
    refine plain_of_read_back (nodup_objectPairs o) (fun p hp => ?_) _ (hentry hkv)
    obtain ⟨⟨k, v⟩, he, rfl⟩ := mem_map.1 hp
    have hread := mem_lookup_iff.1 ((hlookup k).trans (mem_lookup_iff.2 he))
    rcases mem_of_mem_insertAll hread with h | h
    · cases h
    · obtain ⟨p, hp, heq⟩ := mem_map.1 h
      cases heq
      rwa [String.toList_ofList, String.toList_ofList]
  · intro h
    refine ⟨_, rfl, fun k => ?_⟩
    rw [queryPairs_of_plain, objectPairs, map_map]
    · have hlookup := lookup_insertAll_map (.refl o.entries) id k
      rw [Option.map_id] at hlookup
      refine Eq.trans ?_ hlookup
      simp [Function.comp_def]
    · intro p hp
      obtain ⟨⟨k, v⟩, he, rfl⟩ := mem_map.1 hp
      exact h k v (mem_lookup_iff.2 he)

/-- **When an encoding is read back.** -/
theorem encodings_inverse_iff (utf8Error : List UInt8 → String) (s : String)
    (o : HashMap String String) :
    ((∃ text, hexEncode [.string s] = .ok text ∧ hexDecode utf8Error [text] = .ok (.string s))
      ↔ ∀ b ∈ utf8 s.toList, 16 ≤ b.toNat)
    ∧ ((∃ text, urlqueryEncode [.string s] = .ok text
        ∧ urlqueryDecode [text] = .ok (.string s)) ↔ Plain s.toList)
    ∧ ((∃ text, urlqueryEncodeObject [object o] = .ok text
        ∧ ∃ m, urlqueryDecodeObject [text] = .ok (object m) ∧ ∀ k, m.lookup k = o.lookup k)
      ↔ ∀ k v, o.lookup k = some v → PlainPair (k.toList, v.toList)) := by
  have hexists {x : Except BuiltinError Value} {v : Value} {P : Value → Prop}
      (h : x = .ok v) : (∃ text, x = .ok text ∧ P text) ↔ P v := by
    rw [h]
    exact ⟨fun ⟨_, heq, hP⟩ => Except.ok.inj heq ▸ hP, fun hP => ⟨v, rfl, hP⟩⟩
  refine ⟨?_, ?_, ?_⟩
  · rw [hexists (show hexEncode [.string s] = .ok _ from rfl), hexDecode_string]
    exact ⟨fun h => (length_flatMap_hexByte _).2 (length_of_decodePairs h), decodePairs_hexByte⟩
  · rw [hexists (urlqueryEncode_string s), urlqueryDecode_string]
  · rw [hexists (urlqueryEncodeObject_object o), urlqueryDecodeObject_object]

/-- **A line break becomes one digit, and a plus sign a space.** -/
theorem encodings_not_inverse : (hexEncode [.string "\n"] = .ok (.string "a")
      ∧ hexDecode (fun _ => "") [.string "a"] = .panic)
    ∧ urlqueryEncode [.string "a+b"] = .ok (.string "a+b")
      ∧ urlqueryDecode [.string "a+b"] ≠ .ok (.string "a+b") := by
  have hset : String.ofList (setQuery "a+b".toList) = "a+b" := by decide +kernel
  refine ⟨⟨rfl, rfl⟩, ?_, fun h => ?_⟩
  · rw [urlqueryEncode_string, hset]
  · have hplain : Plain "a+b".toList := urlqueryDecode_string.1 (by rw [hset]; exact h)
    exact hplain.plus (by decide)

end Builtins
