import AdmController.Serde

/-!
# JSON as Go reads and writes it

The conventions of Go's `encoding/json`: a struct is written as an object,
without the `omitempty` fields that are empty. A slice is an optional list,
since `nil` and an empty slice differ. The central rule is `field_object`.
-/

namespace GoJson

open Serde Fallible List

/-! ## Writing -/

def entriesOf (fields : List (String × Option Value)) : List (Key × Value) :=
  fields.filterMap fun f => f.2.map fun v => (.str f.1, v)

def object (fields : List (String × Option Value)) : Value := .mapping (entriesOf fields)

def slice {α : Type} (encode : α → Value) : Option (List α) → Value
  | none => .null
  | some l => .sequence (l.map encode)

def pointer {α : Type} (encode : α → Value) (o : Option α) : Value := (o.map encode).getD .null

def ofMap {β : Type} (encode : β → Value) (m : HashMap String β) : Value :=
  .mapping ((m.entries.mergeSort fun a b => a.1 ≤ b.1).map fun e => (.str e.1, encode e.2))

def omitEmptyString (s : String) : Option Value := if s = "" then none else some (.string s)

def omitEmptySlice {α : Type} (encode : α → Value) (l : List α) : Option Value :=
  if l.isEmpty then none else some (.sequence (l.map encode))

def omitNil {α : Type} (encode : α → Value) (o : Option α) : Option Value := o.map encode

/-! ## Reading -/

def fold (name : String) : List Char := name.toList.map Char.toLower

def describe : Value → String
  | .null => "null"
  | .bool _ => "bool"
  | .number _ | .float _ => "number"
  | .string _ => "string"
  | .sequence _ => "array"
  | .mapping _ => "object"

def typeError (v : Value) (type : String) : String :=
  "json: cannot unmarshal " ++ describe v ++ " into Go value of type " ++ type

/-- **A field of a struct**: the value of the last entry with its name. -/
def field (name : String) : Value → Except String (Option Value)
  | .null => .ok none
  | .mapping kvs => .ok ((kvs.reverse.find? fun kv => fold kv.1.text = fold name).map Prod.snd)
  | v => .error (typeError v "struct")

def readField {α : Type} (name : String)
    (read : Option Value → Except String α) (v : Value) : Except String α :=
  (field name v).bind read

def readString : Option Value → Except String String
  | none | some .null => .ok ""
  | some (.string s) => .ok s
  | some v => .error (typeError v "string")

def readBool : Option Value → Except String Bool
  | none | some .null => .ok false
  | some (.bool b) => .ok b
  | some v => .error (typeError v "bool")

def readInt32 : Option Value → Except String (Option Int32)
  | none | some .null => .ok none
  | some (.number n) =>
    if -2 ^ 31 ≤ n ∧ n < 2 ^ 31 then .ok (some (Int32.ofInt n))
    else .error ("json: cannot unmarshal number " ++ toString n ++ " into Go value of type int32")
  | some v => .error (typeError v "int32")

def readSlice {α : Type} (read : Option Value → Except String α) :
    Option Value → Except String (Option (List α))
  | none | some .null => .ok none
  | some (.sequence vs) => (vs.mapM fun v => read (some v)).map some
  | some v => .error (typeError v "slice")

def readStringPointer : Option Value → Except String (Option String)
  | none | some .null => .ok none
  | some v => (readString (some v)).map some

def readStrings (v : Option Value) : Except String (List String) :=
  (readSlice readString v).map (·.getD [])

def readMap {β : Type} (read : Value → Except String β) :
    Option Value → Except String (HashMap String β)
  | none | some .null => .ok ∅
  | some (.mapping kvs) => (decodeEntries read kvs).map (AList.insertAll ∅)
  | some v => .error (typeError v "map")

def readRaw : Option Value → Except String (Option Value)
  | some .null => .ok none
  | o => .ok o

/-! ## Reading what was written -/

/-- Names of fields that differ even without regard to case. -/
def Distinct (name : String) (names : List String) : Prop :=
  (names.map fold).Nodup ∧ ∀ n ∈ names, fold n = fold name → n = name

instance (name : String) (names : List String) : Decidable (Distinct name names) :=
  inferInstanceAs (Decidable (_ ∧ _))

theorem entriesOf_cons (f : String × Option Value) (fields : List (String × Option Value)) :
    entriesOf (f :: fields) = (f.2.map fun v => (Key.str f.1, v)).toList ++ entriesOf fields := by
  unfold entriesOf
  cases hv : f.2 <;> simp [hv]

variable {fields : List (String × Option Value)}

/-- **A field of an object that was written** is its value, if any. -/
theorem field_object {name : String} (h : Distinct name (fields.map Prod.fst)) :
    field name (object fields) = .ok (fields.lookup name).join := by
  refine congrArg Except.ok ?_
  obtain ⟨hnodup, hname⟩ := h
  induction fields with
  | nil => rfl
  | cons f fields ih =>
    obtain ⟨hf, hnodup⟩ := nodup_cons.1 hnodup
    have hrest := ih hnodup fun n hn => hname n (mem_cons_of_mem f.1 hn)
    rw [entriesOf_cons, reverse_append, find?_append, Option.map_or, hrest, lookup_cons]
    by_cases heq : f.1 = name
    · -- no other field has this name
      have hnone : fields.lookup name = none := by
        rw [lookup_eq_none_iff]
        intro g hg
        rw [bne_iff_ne, ← heq]
        intro hname
        exact hf (mem_map.2 ⟨g.1, mem_map.2 ⟨g, hg, rfl⟩, congrArg fold hname.symm⟩)
      rw [hnone, heq, beq_self_eq_true]
      cases f.2 <;> simp [Key.text]
    · have hfold : fold f.1 ≠ fold name := fun hfold => heq (hname f.1 mem_cons_self hfold)
      rw [beq_false_of_ne (Ne.symm heq)]
      cases f.2 <;> simp [Key.text, hfold]

theorem readField_object {α : Type} {read : Option Value → Except String α} (names : List String)
    (hnames : fields.map Prod.fst = names) {name : String} (h : Distinct name names) :
    readField name read (object fields) = read (fields.lookup name).join := by
  rw [readField, field_object (hnames ▸ h)]
  rfl

variable {α β : Type}

theorem readString_omitEmptyString (s : String) : readString (omitEmptyString s) = .ok s := by
  unfold omitEmptyString
  split
  · next h => rw [h]; rfl
  · rfl

theorem readInt32_omitNil (o : Option Int32) :
    readInt32 (omitNil (fun n => .number n.toInt) o) = .ok o := by
  cases o with
  | none => rfl
  | some n =>
    have hlower : -2 ^ 31 ≤ n.toInt := Int32.le_toInt n
    have hupper : n.toInt < 2 ^ 31 := Int32.toInt_lt n
    show readInt32 (some (.number n.toInt)) = _
    rw [readInt32, if_pos ⟨hlower, hupper⟩, Int32.ofInt_toInt]

variable {encode : α → Value}

theorem mapM_map_eq_ok {read : Option Value → Except String β} {g : α → β}
    {l : List α} (h : ∀ a ∈ l, read (some (encode a)) = .ok (g a)) :
    (l.map encode).mapM (fun v => read (some v)) = .ok (l.map g) := by
  rw [mapM_eq_ok_iff, forall₂_map_left_iff, forall₂_map_right_iff, forall₂_same]
  exact h

variable {read : Option Value → Except String α}

theorem readSlice_omitEmptySlice (h : ∀ a, read (some (encode a)) = .ok a) (l : List α) :
    (readSlice read (omitEmptySlice encode l)).map (·.getD []) = .ok l := by
  cases l with
  | nil => rfl
  | cons a l =>
    have hmap := mapM_map_eq_ok (l := a :: l) (g := id) fun a _ => h a
    rw [map_id] at hmap
    show (((map encode (a :: l)).mapM fun v => read (some v)).map some).map (·.getD []) = _
    rw [hmap]
    rfl

theorem readSlice_slice (h : ∀ a, read (some (encode a)) = .ok a) (o : Option (List α)) :
    readSlice read (some (slice encode o)) = .ok o := by
  cases o with
  | none => rfl
  | some l =>
    refine map_eq_ok.2 ⟨l, ?_, rfl⟩
    have hmap := mapM_map_eq_ok (l := l) (g := id) fun a _ => h a
    rwa [map_id] at hmap

theorem perm_sorted (m : HashMap String α) :
    (m.entries.mergeSort fun a b => a.1 ≤ b.1).Perm m.entries :=
  mergeSort_perm _ _

theorem readMap_ofMap {read : Value → Except String β} {g : α → β} {m : HashMap String α}
    (h : ∀ e ∈ m.entries, read (encode e.2) = .ok (g e.2)) :
    ∃ m', readMap read (some (ofMap encode m)) = .ok m'
      ∧ ∀ k, m'.lookup k = (m.lookup k).map g := by
  have hentries : decodeEntries read ((m.entries.mergeSort
        fun a b => a.1 ≤ b.1).map fun e => (.str e.1, encode e.2))
      = .ok ((m.entries.mergeSort fun a b => a.1 ≤ b.1).map fun e => ⟨e.1, g e.2⟩) :=
    decodeEntries_map_eq_ok fun e he => h e ((perm_sorted m).mem_iff.1 he)
  exact ⟨_, map_eq_ok.2 ⟨_, hentries, rfl⟩, fun k => AList.lookup_insertAll_map (perm_sorted m) g k⟩

theorem readMap_ofMap_error {read : Value → Except String β} {m : HashMap String α}
    (h : ∃ e ∈ m.entries, ∃ msg, read (encode e.2) = .error msg) :
    ∃ msg, readMap read (some (ofMap encode m)) = .error msg := by
  obtain ⟨e, he, hmsg⟩ := h
  obtain ⟨msg, hmsg⟩ := decodeEntries_map_eq_error ⟨e, (perm_sorted m).mem_iff.2 he, hmsg⟩
  exact ⟨msg, map_eq_error.2 hmsg⟩

section

variable {sh : Shapes} {fields : List (String × Option Value)} {names : List String}

/-! ## Objects as a derived decoder sees them -/

theorem filter_entriesOf (h : (fields.map Prod.fst).Nodup) (name : String) :
    (entriesOf fields).filter (fun kv => kv.1 = .str name)
      = ((fields.lookup name).join.map fun v => (.str name, v)).toList := by
  induction fields with
  | nil => rfl
  | cons f fields ih =>
    obtain ⟨hf, hfields⟩ := nodup_cons.1 h
    rw [entriesOf_cons, filter_append, ih hfields, lookup_cons]
    by_cases heq : name = f.1
    · -- no other field has this name
      have hnone : fields.lookup name = none := by
        rw [lookup_eq_none_iff]
        intro g hg
        rw [bne_iff_ne, heq]
        exact fun hname => hf (hname ▸ mem_map.2 ⟨g, hg, rfl⟩)
      rw [hnone, heq, beq_self_eq_true]
      cases f.2 <;> simp
    · rw [beq_false_of_ne heq]
      cases f.2 <;> simp [Ne.symm heq]

theorem idxOf?_eq_some_iff_eq (hnames : names.Nodup) {i : ℕ}
    {name s : String} (hi : names[i]? = some name) :
    names.idxOf? s = some i ↔ s = name := by
  obtain ⟨hlt, hget⟩ := List.getElem?_eq_some_iff.1 hi
  rw [List.idxOf?_eq_some_iff]
  constructor
  · rintro ⟨_, hs, -⟩
    exact hs.symm.trans hget
  · rintro rfl
    refine ⟨hlt, hget, fun j hj hs => ?_⟩
    have hij := (hnames.getElem_inj_iff).1 (hs.trans hget.symm)
    omega

theorem mappingField_entriesOf (h : (fields.map Prod.fst).Nodup) (hnames : names.Nodup) {i : ℕ}
    {name : String} (hi : names[i]? = some name) :
    mappingField sh names (entriesOf fields) i = .ok (fields.lookup name).join := by
  have hfield (kv : Key × Value) (hkv : kv ∈ entriesOf fields) :
      (kv.1.field sh names == some i) = decide (kv.1 = .str name) := by
    obtain ⟨f, -, hf⟩ := mem_filterMap.1 hkv
    obtain ⟨v, -, rfl⟩ := Option.map_eq_some_iff.1 hf
    rw [Bool.eq_iff_iff, beq_iff_eq, decide_eq_true_iff, Key.str.injEq]
    exact idxOf?_eq_some_iff_eq hnames hi
  unfold mappingField
  rw [filter_congr hfield, filter_entriesOf h]
  cases (fields.lookup name).join <;> rfl

theorem structFields_object {expected : String} (h : ∀ name ∈ fields.map Prod.fst, name ∈ names) :
    structFields sh expected names (object fields)
      = .ok (mappingField sh names (entriesOf fields)) := by
  have hnone : (entriesOf fields).find? (fun kv => kv.1.field sh names == none) = none := by
    rw [find?_eq_none]
    intro kv hkv
    obtain ⟨f, hmem, hf⟩ := mem_filterMap.1 hkv
    obtain ⟨v, -, rfl⟩ := Option.map_eq_some_iff.1 hf
    show ¬ (names.idxOf? f.1 == none) = true
    rw [beq_iff_eq, ← Option.isNone_iff_eq_none, Bool.not_eq_true,
      Option.isNone_eq_false_iff, isSome_idxOf?]
    exact h f.1 (mem_map.2 ⟨f, hmem, rfl⟩)
  rw [object, structFields, hnone]

theorem decodeMap_ofMap {α β : Type} [Nonempty β] (sh : Shapes) (decode : Value → Except String β)
    (encode : α → Value) {m : HashMap String α}
    (h : ∀ e ∈ m.entries, ∃ b, decode (encode e.2) = .ok b) :
    ∃ m', decodeMap sh decode (ofMap encode m) = .ok m'
      ∧ ∀ k, Option.Rel (fun a b => decode (encode a) = .ok b) (m.lookup k) (m'.lookup k) := by
  have hvalue (a : α) (ha : ∃ k, ⟨k, a⟩ ∈ m.entries) : ∃ b, decode (encode a) = .ok b :=
    ha.elim fun k hk => h ⟨k, a⟩ hk
  choose! g hg using hvalue
  obtain ⟨m', hm', hlookup⟩ := readMap_ofMap fun e he => hg e.2 ⟨e.1, he⟩
  refine ⟨m', hm', fun k => ?_⟩
  rw [hlookup]
  cases hk : m.lookup k with
  | none => exact .none
  | some a => exact .some (hg a ⟨k, AList.mem_lookup_iff.1 hk⟩)

end

end GoJson
