import Mathlib.Algebra.Group.Int.Defs
import AdmController.Fallible
import AdmController.RustCollections
import AdmController.RustStr

/-!
# Decoding documents into records

The generic half of a `serde` decoder: a document tree (`Value`), and how a
derived decoder reads a record, a list or a tagged union off it. Which shapes
of nodes are taken depends on the deserializer (`Shapes`).
-/

namespace Serde

open Fallible

/-- A key of a mapping; other keys are kept as their printed form. -/
inductive Key where
  | str (s : String)
  | index (n : ℕ)
  | other (repr : String)
deriving DecidableEq

/-- A document tree. Mappings keep their order, and may repeat a key. -/
inductive Value where
  | null
  | bool (b : Bool)
  | number (n : ℤ)
  | float (repr : String)
  | string (s : String)
  | sequence (vs : List Value)
  | mapping (kvs : List (Key × Value))

def Value.get (key : String) : Value → Option Value
  | .mapping kvs => (kvs.find? (fun kv => kv.1 = .str key)).map Prod.snd
  | _ => none

def Value.item (i : ℕ) : Value → Option Value
  | .sequence vs => vs[i]?
  | _ => none

structure Shapes where
  /-- `null` stands for an empty sequence or mapping. -/
  nullAsEmpty : Bool
  /-- A record may be given as the sequence of its fields. -/
  seqAsStruct : Bool
  /-- A key may be the position of a field instead of its name. -/
  indexAsField : Bool

def Value.unexpected : Value → String
  | .null => "unit value"
  | .bool b => "boolean `" ++ (if b then "true" else "false") ++ "`"
  | .number n => "integer `" ++ toString n ++ "`"
  | .float r => "floating point `" ++ r ++ "`"
  | .string s => "string \"" ++ s ++ "\""
  | .sequence _ => "sequence"
  | .mapping _ => "map"

def invalidType (v : Value) (expected : String) : String :=
  "invalid type: " ++ v.unexpected ++ ", expected " ++ expected

def oneOf : List String → String
  | [] => "there are no alternatives"
  | [a] => "expected `" ++ a ++ "`"
  | [a, b] => "expected `" ++ a ++ "` or `" ++ b ++ "`"
  | names => "expected one of " ++ String.intercalate ", " (names.map (fun a => "`" ++ a ++ "`"))

/-! ## Repeated keys -/

mutual

def Value.distinctKeys : Value → Bool
  | .sequence vs => Value.distinctKeysList vs
  | .mapping kvs => decide (kvs.map Prod.fst).Nodup && Value.distinctKeysEntries kvs
  | _ => true

def Value.distinctKeysList : List Value → Bool
  | [] => true
  | v :: vs => v.distinctKeys && Value.distinctKeysList vs

def Value.distinctKeysEntries : List (Key × Value) → Bool
  | [] => true
  | (_, v) :: kvs => v.distinctKeys && Value.distinctKeysEntries kvs

end

variable (sh : Shapes) (names : List String)

/-! ## Records -/

def Key.field : Key → Option ℕ
  | .str s => names.idxOf? s
  | .index n => if sh.indexAsField && n < names.length then some n else none
  | .other _ => none

def Key.text : Key → String
  | .str s => s
  | .index n => toString n
  | .other r => r

def mappingField (kvs : List (Key × Value)) (i : ℕ) : Except String (Option Value) :=
  match kvs.filter (fun kv => kv.1.field sh names == some i) with
  | [] => .ok none
  | [(_, v)] => .ok (some v)
  | _ => .error ("duplicate field `" ++ names.getD i "" ++ "`")

def structFields (expected : String) (names : List String) :
    Value → Except String (ℕ → Except String (Option Value))
  | .mapping kvs =>
    match kvs.find? (fun kv => kv.1.field sh names == none) with
    | some (k, _) => .error ("unknown field `" ++ k.text ++ "`, " ++ oneOf names)
    | none => .ok (mappingField sh names kvs)
  | .sequence vs =>
    if sh.seqAsStruct then
      if vs.length ≤ names.length then .ok (fun i => .ok vs[i]?)
      else .error ("invalid length " ++ toString vs.length ++ ", expected "
        ++ toString names.length ++ " elements in sequence")
    else .error (invalidType (.sequence vs) expected)
  | .null =>
    if sh.nullAsEmpty then .ok (fun _ => .ok none)
    else .error (invalidType .null expected)
  | v => .error (invalidType v expected)

def openStructFields (expected : String) (names : List String) :
    Value → Except String (ℕ → Except String (Option Value))
  | .mapping kvs => .ok (mappingField sh names kvs)
  | v => structFields sh expected names v

def optionField {α : Type} (decode : Value → Except String α)
    (field : Except String (Option Value)) : Except String (Option α) :=
  match field with
  | .error e => .error e
  | .ok none => .ok none
  | .ok (some .null) => .ok none
  | .ok (some v) => (decode v).map some

def requiredField {α : Type} (name : String) (decode : Value → Except String α)
    (field : Except String (Option Value)) : Except String α :=
  match field with
  | .error e => .error e
  | .ok none => .error ("missing field `" ++ name ++ "`")
  | .ok (some v) => decode v

def defaultField {α : Type} (default : α) (decode : Value → Except String α)
    (field : Except String (Option Value)) : Except String α :=
  match field with
  | .error e => .error e
  | .ok none => .ok default
  | .ok (some v) => decode v

def given : Except String (Option Value) → Option Value
  | .ok (some .null) => none
  | .ok o => o
  | .error _ => none

variable {field : Except String (Option Value)} {α : Type} {decode : Value → Except String α}

theorem rel_of_optionField {o : Option α} (h : optionField decode field = .ok o) :
    Option.Rel (fun a v => decode v = .ok a) o (given field) := by
  unfold optionField at h
  split at h
  · cases h
  · cases h
    exact .none
  · cases h
    exact .none
  · next v hnull =>
    obtain ⟨a, ha, rfl⟩ := map_eq_ok.1 h
    -- the value is not `null`, so it counts as given
    cases v with
    | null => exact absurd rfl hnull
    | _ => exact .some ha

theorem requiredField_eq_ok {name : String} {a : α} (h : requiredField name decode field = .ok a) :
    ∃ v, field = .ok (some v) ∧ decode v = .ok a := by
  unfold requiredField at h
  split at h
  · cases h
  · cases h
  · next v => exact ⟨v, rfl, h⟩

theorem defaultField_eq_ok {default : α} {a : α} (h : defaultField default decode field = .ok a) :
    (field = .ok none ∧ a = default) ∨ ∃ v, field = .ok (some v) ∧ decode v = .ok a := by
  unfold defaultField at h
  split at h
  · cases h
  · cases h
    exact Or.inl ⟨rfl, rfl⟩
  · next v => exact Or.inr ⟨v, rfl, h⟩

/-! ## Scalars, lists and maps -/

def decodeString : Value → Except String String
  | .string s => .ok s
  | v => .error (invalidType v "a string")

def decodeUnsigned (bits : ℕ) : Value → Except String ℕ
  | .number n =>
    if 0 ≤ n ∧ n < 2 ^ bits then .ok n.toNat
    else .error ("invalid value: integer `" ++ toString n ++ "`, expected u" ++ toString bits)
  | v => .error (invalidType v ("u" ++ toString bits))

theorem decodeUnsigned_eq_ok {bits : ℕ} {v : Value} {n : ℕ} (h : decodeUnsigned bits v = .ok n) :
    ∃ k : ℤ, v = .number k ∧ n = k.toNat ∧ n < 2 ^ bits := by
  unfold decodeUnsigned at h
  split at h
  · next k =>
    split at h
    · next hk =>
      rw [Except.ok.injEq] at h
      refine ⟨k, rfl, h.symm, ?_⟩
      rw [← h, ← Int.ofNat_lt, Int.toNat_of_nonneg hk.1]
      exact_mod_cast hk.2
    · cases h
  · cases h

def decodeSeq {α : Type} (decode : Value → Except String α) : Value → Except String (List α)
  | .sequence vs => vs.mapM decode
  | .null => if sh.nullAsEmpty then .ok []
    else .error (invalidType .null "a sequence")
  | v => .error (invalidType v "a sequence")

def Value.elements : Value → List Value
  | .sequence vs => vs
  | _ => []

theorem length_of_decodeSeq_eq_ok {sh : Shapes} {v : Value} {l : List α}
    (h : decodeSeq sh decode v = .ok l) : l.length = v.elements.length := by
  unfold decodeSeq at h
  split at h
  · exact length_of_mapM_eq_ok h
  · split at h
    · cases h
      rfl
    · cases h
  · cases h

def decodeStringMap : Value → Except String (AList (fun _ : String => String))
  | .mapping kvs => kvs.foldlM (fun m kv =>
    match kv.1 with
    | .str k => (decodeString kv.2).map (fun s => m.insert k s)
    | k => .error ("invalid type: `" ++ k.text ++ "`, expected a string")) ∅
  | .null => if sh.nullAsEmpty then .ok ∅
    else .error (invalidType .null "a map")
  | v => .error (invalidType v "a map")

def decodeEntries {β : Type} (decode : Value → Except String β)
    (kvs : List (Key × Value)) : Except String (List (Σ _ : String, β)) :=
  kvs.mapM fun kv =>
    match kv.1 with
    | .str k => (decode kv.2).map (fun b => ⟨k, b⟩)
    | k => .error ("invalid type: `" ++ k.text ++ "`, expected a string")

def decodeMap {β : Type} (decode : Value → Except String β) :
    Value → Except String (HashMap String β)
  | .mapping kvs => (decodeEntries decode kvs).map (AList.insertAll ∅)
  | .null => if sh.nullAsEmpty then .ok ∅
    else .error (invalidType .null "a map")
  | v => .error (invalidType v "a map")

section

variable {α β : Type} {encode : α → Value} {decode : Value → Except String β}
  {l : List (Σ _ : String, α)}

theorem decodeEntries_map_eq_ok {g : (Σ _ : String, α) → β}
    (h : ∀ e ∈ l, decode (encode e.2) = .ok (g e)) :
    decodeEntries decode (l.map fun e => (.str e.1, encode e.2))
      = .ok (l.map fun e => ⟨e.1, g e⟩) := by
  unfold decodeEntries
  rw [mapM_eq_ok_iff, List.forall₂_map_left_iff, List.forall₂_map_right_iff, List.forall₂_same]
  intro e he
  exact map_eq_ok.2 ⟨g e, h e he, rfl⟩

theorem decodeEntries_map_eq_error (h : ∃ e ∈ l, ∃ msg, decode (encode e.2) = .error msg) :
    ∃ msg, decodeEntries decode (l.map fun e => (.str e.1, encode e.2)) = .error msg := by
  obtain ⟨e, he, msg, hmsg⟩ := h
  cases hok : decodeEntries decode (l.map fun e => (.str e.1, encode e.2)) with
  | error msg' => exact ⟨msg', rfl⟩
  | ok bs =>
    obtain ⟨b, hb⟩ := exists_mapM_eq_ok.1 ⟨bs, hok⟩ _ (List.mem_map.2 ⟨e, he, rfl⟩)
    obtain ⟨b', hb', -⟩ := map_eq_ok.1 hb
    exact absurd (hmsg.symm.trans hb') (by simp)

end

/-! ## Untagged unions -/

/-- **The first variant that decodes**, or an error that does not say why. -/
def decodeUntagged {α : Type} (name : String)
    (variants : List (Value → Except String α)) (v : Value) :
    Except String α :=
  match variants.findSome? (fun decode => (decode v).toOption) with
  | some a => .ok a
  | none => .error ("data did not match any variant of untagged enum " ++ name)

section

variable {α : Type} {name : String} {decode : Value → Except String α}
  {variants : List (Value → Except String α)} {v : Value}

theorem decodeUntagged_cons_ok {a : α} (h : decode v = .ok a) :
    decodeUntagged name (decode :: variants) v = .ok a := by
  unfold decodeUntagged
  rw [List.findSome?_cons, h]
  rfl

theorem decodeUntagged_cons_error {msg : String} (h : decode v = .error msg) :
    decodeUntagged name (decode :: variants) v = decodeUntagged name variants v := by
  unfold decodeUntagged
  rw [List.findSome?_cons, h]
  rfl

end

/-! ## Internally tagged unions -/

def takeTag (tag expected : String) : Value → Except String (Value × Value)
  | .mapping kvs =>
    match kvs.filter (fun kv => kv.1 = .str tag) with
    | [] => .error ("missing field `" ++ tag ++ "`")
    | [(_, v)] => .ok (v, .mapping (kvs.filter (fun kv => ¬ kv.1 = .str tag)))
    | _ => .error ("duplicate field `" ++ tag ++ "`")
  | .sequence [] => .error ("missing field `" ++ tag ++ "`")
  | .sequence (v :: vs) => .ok (v, .sequence vs)
  | v => .error (invalidType v expected)

def variantOf : Value → Except String (Option ℕ)
  | .string s => .ok (names.idxOf? s)
  | .number n =>
    if 0 ≤ n then .ok (if n.toNat < names.length then some n.toNat else none)
    else .error (invalidType (.number n) "variant identifier")
  | v => .error (invalidType v "variant identifier")

def unknownVariant : Value → String
  | .string s => "unknown variant `" ++ s ++ "`, " ++ oneOf names
  | v => "invalid value: " ++ v.unexpected
    ++ ", expected variant index 0 <= i < " ++ toString names.length

end Serde
