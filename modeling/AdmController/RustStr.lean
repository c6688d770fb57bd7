import Mathlib.Data.List.DropRight
import Mathlib.Data.List.Infix
import Mathlib.Data.String.Basic

/-!
# Rust strings, read through their characters

Rust's `str` methods and the joining of paths, as functions on character lists.
Pieces without the separator are recovered by splitting their concatenation:
joining is an injective code (`RustStr.eq_intercalate_iff`).
-/

namespace RustStr

open List

variable (s : String)

def contains (c : Char) : Bool := decide (c ∈ s.toList)

def containsStr (s p : String) : Bool := decide (p.toList <:+: s.toList)

def split (c : Char) : List String := (s.toList.splitOn c).map String.ofList

def splitOnce (c : Char) : Option (String × String) :=
  if contains s c then
    some (String.ofList (s.toList.takeWhile (· != c)),
      String.ofList ((s.toList.dropWhile (· != c)).drop 1))
  else none

def rsplitOnce (c : Char) : Option (String × String) :=
  if contains s c then
    some (String.ofList (s.toList.rdropWhile (· != c)).dropLast,
      String.ofList (s.toList.rtakeWhile (· != c)))
  else none

def startsWith (s p : String) : Bool := p.toList.isPrefixOf s.toList

def endsWith (s p : String) : Bool := p.toList.isSuffixOf s.toList

def stripPrefix (s p : String) : Option String :=
  if startsWith s p then some (String.ofList (s.toList.drop p.toList.length))
  else none

def stripSuffix (s p : String) : Option String :=
  if endsWith s p then some (String.ofList (s.toList.take (s.toList.length - p.toList.length)))
  else none

def hasRun (p : Char → Bool) (n : ℕ) (s : String) : Bool :=
  s.toList.tails.any (fun l => decide (n ≤ l.length) && (l.take n).all p)

def isWhitespace (c : Char) : Bool :=
  let n := c.toNat
  (0x09 ≤ n && n ≤ 0x0D) || n == 0x20 || n == 0x85 || n == 0xA0
    || n == 0x1680 || (0x2000 ≤ n && n ≤ 0x200A) || n == 0x2028
    || n == 0x2029 || n == 0x202F || n == 0x205F || n == 0x3000

def trim : String :=
  String.ofList (((s.toList.dropWhile isWhitespace).reverse.dropWhile isWhitespace).reverse)

def debug : String :=
  let escape : Char → List Char
    | '"' => ['\\', '"']
    | '\\' => ['\\', '\\']
    | '\n' => ['\\', 'n']
    | '\r' => ['\\', 'r']
    | '\t' => ['\\', 't']
    | c => [c]
  String.ofList ('"' :: s.toList.flatMap escape ++ ['"'])

def intoBytes : List UInt8 := s.toUTF8.data.toList

def joinPath (a b : String) : String :=
  if startsWith b "/" then b
  else if a = "" || endsWith a "/" then a ++ b
  else a ++ "/" ++ b

theorem contains_append (a b : String) (c : Char) :
    contains (a ++ b) c = (contains a c || contains b c) := by
  simp [contains]

variable {c : Char} {s : String}

/-! ## Splitting -/

theorem split_of_not_contains (h : contains s c = false) : split s c = [s] := by
  have hc : c ∉ s.toList := by simpa [contains] using h
  unfold split
  rw [splitOn_eq_singleton hc]
  simp

variable {a b : String}

/-- **Two pieces are recovered from their concatenation**, if the first one does
not contain the separator. -/
theorem split_join (ha : contains a c = false) :
    split (a ++ String.ofList [c] ++ b) c = a :: split b c := by
  have hc : c ∉ a.toList := by simpa [contains] using ha
  unfold split
  rw [String.toList_append, String.toList_append, String.toList_ofList,
    append_assoc, singleton_append,
    splitOn_append_cons_self_of_not_mem hc]
  simp

theorem join_of_split (h : split s c = [a, b]) : a ++ String.ofList [c] ++ b = s := by
  obtain ⟨la, rest, hsplit, rfl, hrest⟩ := map_eq_cons_iff.1 h
  obtain ⟨lb, rest', rfl, rfl, hnil⟩ := map_eq_cons_iff.1 hrest
  obtain rfl := map_eq_nil_iff.1 hnil
  have hjoin : _ = s.toList := intercalate_splitOn c
  rw [hsplit] at hjoin
  rw [← String.toList_inj, ← hjoin]
  simp [intercalate]

theorem intercalate_split (s : String) (c : Char) :
    String.intercalate (String.ofList [c]) (split s c) = s := by
  rw [← String.toList_inj, String.toList_intercalate, String.toList_ofList]
  have hmap : (split s c).map String.toList = s.toList.splitOn c := by
    simp [split, Function.comp_def]
  rw [hmap]
  exact intercalate_splitOn c

/-- **Joining codes lists of pieces** without the separator. -/
theorem eq_intercalate_iff {l : List String} (hne : l ≠ []) (hl : ∀ a ∈ l, contains a c = false) :
    s = String.intercalate (String.ofList [c]) l ↔ split s c = l := by
  constructor
  · rintro rfl
    have hc : ∀ a ∈ l.map String.toList, c ∉ a := by
      intro a ha
      obtain ⟨b, hb, rfl⟩ := mem_map.1 ha
      simpa [contains] using hl b hb
    unfold split
    rw [String.toList_intercalate, String.toList_ofList,
      splitOn_intercalate c hc (by simpa using hne)]
    simp [Function.comp_def]
  · rintro rfl
    exact (intercalate_split s c).symm

theorem split_append (a b : String) (c : Char) :
    split (a ++ String.ofList [c] ++ b) c = split a c ++ split b c := by
  unfold split
  rw [String.toList_append, String.toList_append, String.toList_ofList,
    append_assoc, singleton_append, splitOn_append_cons_self,
    map_append]

theorem endsWith_sep_iff {t : String} (ht : contains t c = false) :
    endsWith s (String.ofList [c] ++ t) = true ↔ ∃ init, init ≠ [] ∧ split s c = init ++ [t] := by
  unfold endsWith
  rw [isSuffixOf_iff_suffix]
  constructor
  · rintro ⟨l, hl⟩
    have hs : s = String.ofList l ++ String.ofList [c] ++ t := by
      rw [← String.toList_inj, ← hl]
      simp
    refine ⟨split (String.ofList l) c, by simp [split], ?_⟩
    rw [hs, split_append, split_of_not_contains ht]
  · rintro ⟨init, hne, hsplit⟩
    refine ⟨(String.intercalate (String.ofList [c]) init).toList, ?_⟩
    rw [← intercalate_split s c, hsplit, String.intercalate_append_of_ne_nil hne (cons_ne_nil t [])]
    simp

theorem contains_intercalate {sep : String} {d : Char} {l : List String}
    (hsep : contains sep d = false) :
    contains (String.intercalate sep l) d = true ↔ ∃ a ∈ l, contains a d = true := by
  have hd : d ∉ sep.toList := by simpa [contains] using hsep
  simp only [contains, decide_eq_true_eq]
  induction l with
  | nil => simp
  | cons a l ih =>
    cases l with
    | nil => simp
    | cons b l =>
      rw [String.intercalate_cons_cons, String.toList_append,
        String.toList_append, mem_append, mem_append]
      simp only [ih, hd, or_false, exists_mem_cons_iff]

theorem split_ne_nil (s : String) (c : Char) : split s c ≠ [] := by
  simp [split]

theorem forall_of_mem_splitOnP {p : Char → Bool} {l piece : List Char} (h : piece ∈ l.splitOnP p) :
    ∀ d ∈ piece, p d = false := by
  induction l generalizing piece with
  | nil => simp_all
  | cons d l ih =>
    rw [splitOnP_cons_eq_if_modifyHead] at h
    split at h
    · rcases mem_cons.1 h with rfl | h
      · exact fun _ h => absurd h not_mem_nil
      · exact ih h
    · next hd =>
      cases hl : l.splitOnP p with
      | nil => exact absurd hl (splitOnP_ne_nil p l)
      | cons first rest =>
        rw [hl, modifyHead_cons] at h
        rcases mem_cons.1 h with rfl | h
        · exact forall_mem_cons.2 ⟨Bool.eq_false_iff.2 hd, ih (hl ▸ mem_cons_self)⟩
        · exact ih (hl ▸ mem_cons_of_mem first h)

theorem not_mem_of_mem_splitOn {l piece : List Char} (h : piece ∈ l.splitOn c) : c ∉ piece := by
  rw [splitOn_eq_splitOnP] at h
  exact fun hc => by simpa using forall_of_mem_splitOnP h c hc

theorem not_contains_of_mem_split (h : a ∈ split s c) : contains a c = false := by
  obtain ⟨piece, hpiece, rfl⟩ := mem_map.1 h
  simpa [contains] using not_mem_of_mem_splitOn hpiece

theorem two_le_length_split (h : contains s c = true) : 2 ≤ (split s c).length := by
  have hmem : c ∈ s.toList := by simpa [contains] using h
  obtain ⟨l, m, hlm⟩ := append_of_mem hmem
  have hs : s = String.ofList l ++ String.ofList [c] ++ String.ofList m := by
    rw [← String.toList_inj, hlm]
    simp
  have hl := length_pos_iff.2 (split_ne_nil (String.ofList l) c)
  have hm := length_pos_iff.2 (split_ne_nil (String.ofList m) c)
  rw [hs, split_append, length_append]
  omega

theorem join_of_splitOnce (h : splitOnce s c = some (a, b)) : a ++ String.ofList [c] ++ b = s := by
  unfold splitOnce at h
  rw [Option.ite_none_right_eq_some] at h
  obtain ⟨hc, hab⟩ := h
  obtain ⟨rfl, rfl⟩ := Prod.mk.inj (Option.some.inj hab)
  have hdrop : s.toList.dropWhile (· != c) = c :: (s.toList.dropWhile (· != c)).drop 1 := by
    cases hl : s.toList.dropWhile (· != c) with
    | nil =>
      have hmem : c ∈ s.toList := by simpa [contains] using hc
      have hall : s.toList.takeWhile (· != c) ++ s.toList.dropWhile (· != c)
        = s.toList := takeWhile_append_dropWhile
      rw [hl, append_nil] at hall
      rw [← hall] at hmem
      exact absurd (mem_takeWhile_imp hmem) (by simp)
    | cons d l =>
      have hd := head?_dropWhile_not (· != c) s.toList
      rw [hl] at hd
      have hdc : d = c := by simpa using hd
      rw [hdc]
      rfl
  rw [← String.toList_inj, String.toList_append, String.toList_append,
    String.toList_ofList, String.toList_ofList, String.toList_ofList,
    append_assoc, singleton_append, ← hdrop,
    takeWhile_append_dropWhile]

theorem bne_of_not_contains (h : contains s c = false) : ∀ d ∈ s.toList, (d != c) = true := by
  simp only [contains, decide_eq_false_iff_not] at h
  exact fun d hd => bne_iff_ne.2 fun heq => h (heq ▸ hd)

theorem splitOnce_eq_some : splitOnce s c = some (a, b)
    ↔ s = a ++ String.ofList [c] ++ b ∧ contains a c = false := by
  constructor
  · intro h
    refine ⟨(join_of_splitOnce h).symm, ?_⟩
    unfold splitOnce at h
    rw [Option.ite_none_right_eq_some] at h
    rw [← (Prod.mk.inj (Option.some.inj h.2)).1]
    simp only [contains, String.toList_ofList, decide_eq_false_iff_not]
    intro hmem
    simpa using mem_takeWhile_imp hmem
  · rintro ⟨rfl, ha⟩
    have hc := bne_of_not_contains ha
    have hlist : (a ++ String.ofList [c] ++ b).toList = a.toList ++ c :: b.toList := by simp
    unfold splitOnce contains
    rw [hlist, if_pos (by simp), takeWhile_append_of_pos hc, dropWhile_append_of_pos hc]
    simp

theorem append_sep_inj {a' b' : String} (ha : contains a c = false) (ha' : contains a' c = false)
    (h : a ++ String.ofList [c] ++ b = a' ++ String.ofList [c] ++ b') :
    a = a' ∧ b = b' := by
  have hleft : splitOnce (a ++ String.ofList [c] ++ b) c = some (a, b) :=
    splitOnce_eq_some.2 ⟨rfl, ha⟩
  have hright := splitOnce_eq_some.2 ⟨h, ha'⟩
  exact Prod.mk.inj (Option.some.inj (hleft.symm.trans hright))

theorem rsplitOnce_eq_some : rsplitOnce s c = some (a, b)
    ↔ s = a ++ String.ofList [c] ++ b ∧ contains b c = false := by
  unfold rsplitOnce
  rw [Option.ite_none_right_eq_some, Option.some.injEq, Prod.mk.injEq]
  constructor
  · rintro ⟨hs, rfl, rfl⟩
    have hne : s.toList.rdropWhile (· != c) ≠ [] := by
      rw [Ne, rdropWhile_eq_nil_iff]
      intro hall
      have hmem : c ∈ s.toList := by simpa [contains] using hs
      simpa using hall c hmem
    have hlast : (s.toList.rdropWhile (· != c)).getLast hne = c := by
      simpa using rdropWhile_last_not _ _ hne
    have hdrop := dropLast_append_getLast hne
    rw [hlast] at hdrop
    refine ⟨?_, ?_⟩
    · rw [← String.toList_inj, String.toList_append, String.toList_append,
        String.toList_ofList, String.toList_ofList, String.toList_ofList,
        hdrop, rdropWhile_append_rtakeWhile]
    · simp only [contains, String.toList_ofList, decide_eq_false_iff_not]
      intro hmem
      simpa using mem_rtakeWhile_imp hmem
  · rintro ⟨rfl, hb⟩
    have hc : ∀ d ∈ b.toList.reverse, (d != c) = true := fun d hd =>
      bne_of_not_contains hb d (mem_reverse.1 hd)
    have hlist : (a ++ String.ofList [c] ++ b).toList.reverse
      = b.toList.reverse ++ c :: a.toList.reverse := by simp
    unfold rdropWhile rtakeWhile
    rw [hlist, takeWhile_append_of_pos hc, dropWhile_append_of_pos hc]
    simp [contains]

/-! ## Stripping a beginning or an end -/

theorem startsWith_iff {p : String} : startsWith s p = true ↔ ∃ r, s = p ++ r := by
  unfold startsWith
  rw [List.isPrefixOf_iff_prefix]
  constructor
  · rintro ⟨l, hl⟩
    exact ⟨String.ofList l, by rw [← String.toList_inj, ← hl]; simp⟩
  · rintro ⟨r, rfl⟩
    exact ⟨r.toList, by simp⟩

theorem startsWith_sep_iff {t : String} : startsWith s (t ++ String.ofList [c]) = true
    ↔ ∃ rest, rest ≠ [] ∧ split s c = split t c ++ rest := by
  rw [startsWith_iff]
  constructor
  · rintro ⟨r, rfl⟩
    exact ⟨split r c, split_ne_nil r c, split_append t r c⟩
  · rintro ⟨rest, hne, hsplit⟩
    refine ⟨String.intercalate (String.ofList [c]) rest, ?_⟩
    rw [← intercalate_split s c, hsplit, String.intercalate_append_of_ne_nil (split_ne_nil t c) hne,
      intercalate_split]

theorem stripSuffix_eq_some {p r : String} : stripSuffix s p = some r ↔ s = r ++ p := by
  unfold stripSuffix endsWith
  rw [Option.ite_none_right_eq_some, isSuffixOf_iff_suffix, Option.some.injEq]
  constructor
  · rintro ⟨⟨l, hl⟩, rfl⟩
    rw [← hl, length_append, Nat.add_sub_cancel, take_left,
      ← String.toList_inj, String.toList_append, String.toList_ofList, hl]
  · rintro rfl
    rw [String.toList_append, length_append, Nat.add_sub_cancel, take_left, String.ofList_toList]
    exact ⟨suffix_append _ _, rfl⟩

theorem stripPrefix_eq_some {p r : String} : stripPrefix s p = some r ↔ s = p ++ r := by
  unfold stripPrefix startsWith
  rw [Option.ite_none_right_eq_some, isPrefixOf_iff_prefix, Option.some.injEq]
  constructor
  · rintro ⟨⟨l, hl⟩, rfl⟩
    rw [← hl, drop_left, ← String.toList_inj, String.toList_append, String.toList_ofList, hl]
  · rintro rfl
    rw [String.toList_append, drop_left, String.ofList_toList]
    exact ⟨prefix_append _ _, rfl⟩

/-! ## Searching -/

theorem hasRun_iff {p : Char → Bool} {n : ℕ} : hasRun p n s = true
    ↔ ∃ a run b, s = a ++ run ++ b ∧ run.toList.length = n ∧ ∀ c ∈ run.toList, p c = true := by
  simp only [hasRun, any_eq_true, Bool.and_eq_true, decide_eq_true_eq, all_eq_true, mem_tails]
  constructor
  · rintro ⟨l, ⟨a, ha⟩, hlen, hall⟩
    refine ⟨String.ofList a, String.ofList (l.take n), String.ofList (l.drop n), ?_, ?_, ?_⟩
    · rw [← String.toList_inj, ← ha]
      simp
    · rw [String.toList_ofList, length_take_of_le hlen]
    · rwa [String.toList_ofList]
  · rintro ⟨a, run, b, rfl, rfl, hall⟩
    refine ⟨run.toList ++ b.toList, ⟨a.toList, by simp⟩, by simp, ?_⟩
    rwa [take_left]

/-! ## Trimming -/

theorem trim_of_forall (h : ∀ c, contains s c = true → isWhitespace c = false) : trim s = s := by
  have hmem : ∀ c ∈ s.toList, isWhitespace c = false :=
    fun c hc => h c (by simpa [contains] using hc)
  have hleft : s.toList.dropWhile isWhitespace = s.toList :=
    dropWhile_eq_self_iff.2 fun hpos =>
      Bool.eq_false_iff.1 (hmem _ (getElem_mem hpos))
  have hright : s.toList.reverse.dropWhile isWhitespace = s.toList.reverse :=
    dropWhile_eq_self_iff.2 fun hpos =>
      Bool.eq_false_iff.1 (hmem _ (mem_reverse.1 (getElem_mem hpos)))
  rw [trim, hleft, hright, reverse_reverse, String.ofList_toList]

theorem trim_trim (s : String) : trim (trim s) = trim s := by
  set l := (s.toList.dropWhile isWhitespace).rdropWhile isWhitespace with hl
  have htrim : trim s = String.ofList l := rfl
  have hleft : l.dropWhile isWhitespace = l := by
    rw [dropWhile_eq_self_iff]
    intro hpos
    -- what remains begins as it did before its end was cut off
    have hpre : l <+: s.toList.dropWhile isWhitespace := rdropWhile_prefix _ _
    rw [hpre.getElem hpos]
    exact dropWhile_get_zero_not _ _ _
  show String.ofList (((trim s).toList.dropWhile isWhitespace).rdropWhile isWhitespace) = trim s
  rw [htrim, String.toList_ofList, hleft, hl, rdropWhile_idempotent]

end RustStr
