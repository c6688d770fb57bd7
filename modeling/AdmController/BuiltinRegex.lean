import AdmController.Builtins
import Mathlib.Computability.Language

/-!
# The built-in functions on regular expressions

`regex.split` returns one string, not an array. `regex.template_match` makes one
regular expression of a template and looks for it in the string.
-/

namespace Builtins

open Serde List

/-- **The regex crate.** -/
structure RegexLib (R : Type) where
  new : List Char → Except String R
  isMatch : R → List Char → Bool
  split : R → List Char → List (List Char)
  escape : List Char → List Char

variable {R : Type} (lib : RegexLib R)

/-! ## Splitting -/

def regexSplit : List Value → Except BuiltinError Value
  | [pattern, string] => do
    let patternStr ← asStr "regex.split" "1st parameter is not a string" pattern
    let stringStr ← asStr "regex.split" "2nd parameter is not a string" string
    match lib.new patternStr.toList with
    | .error e => .error ⟨"regex.split",
      "cannot build regex from the given pattern string '" ++ patternStr ++ "': " ++ e⟩
    | .ok r => .ok (.string (String.ofList (lib.split r stringStr.toList).flatten))
  | _ => .error (wrongNumber "regex.split")

/-- Pieces that give the string, with the matches between them. -/
def SplitsInto (string : String) (texts : List (List Char))
    (result : Except BuiltinError Value) : Prop :=
  ∃ pieces : List (List Char),
    result = .ok (.sequence (pieces.map fun p => .string (String.ofList p)))
      ∧ pieces.length = texts.length + 1
      ∧ (zipWith (· ++ ·) pieces (texts ++ [[]])).flatten = string.toList

/-- **The pieces are never returned as an array.** -/
theorem regexSplit_never (pattern string : String) (texts : List (List Char)) :
    ¬ SplitsInto string texts (regexSplit lib [.string pattern, .string string]) := by
  rintro ⟨pieces, hresult, -⟩
  obtain ⟨_, -, hresult⟩ := Fallible.bind_eq_ok.1 hresult
  obtain ⟨_, -, hresult⟩ := Fallible.bind_eq_ok.1 hresult
  split at hresult <;> cases hresult

def literalRegex : RegexLib (List Char) where
  new p := .ok p
  isMatch p s := decide (p <:+: s)
  split p s := match p with
    | [c] => s.splitOn c
    | _ => [s]
  escape p := p

theorem pieces_in_one_string : regexSplit literalRegex [.string ",", .string "a,b"]
        = .ok (.string "ab")
      ∧ ¬ SplitsInto "a,b" [[',']] (regexSplit literalRegex [.string ",", .string "a,b"]) := by
  refine ⟨rfl, ?_⟩
  rintro ⟨pieces, hresult, -⟩
  cases hresult

/-! ## Templates -/

structure Expression where
  isRegexp : Bool
  expression : List Char

def Expression.display (e : Expression) : List Char :=
  if e.isRegexp then e.expression else lib.escape e.expression

/-- The variables of the loop in `regexp_from_template`. -/
structure TemplateState where
  expressions : List Expression
  currentExpression : Expression
  delimitersOpen : ℤ

def Expression.push (e : Expression) : List Expression := if e.expression.isEmpty then [] else [e]

def TemplateState.step (a b : Char) (st : TemplateState) (c : Char) : TemplateState :=
  if c = a then
    if st.delimitersOpen + 1 = 1 then
      ⟨st.expressions ++ st.currentExpression.push, ⟨true, []⟩, st.delimitersOpen + 1⟩
    else { st with delimitersOpen := st.delimitersOpen + 1 }
  else if c = b then
    if st.delimitersOpen - 1 = 0 then
      ⟨st.expressions ++ st.currentExpression.push, ⟨false, []⟩, st.delimitersOpen - 1⟩
    else { st with delimitersOpen := st.delimitersOpen - 1 }
  else { st with currentExpression :=
    ⟨st.currentExpression.isRegexp, st.currentExpression.expression ++ [c]⟩ }

def TemplateState.finish (st : TemplateState) : List Expression :=
  st.expressions ++ st.currentExpression.push

open TemplateState Expression

/-- The expressions that the loop cuts a template into. -/
def expressionsOf (template : List Char) (a b : Char) : List Expression :=
  (template.foldl (step a b) ⟨[], ⟨false, []⟩, 0⟩).finish

def templateText (template : List Char) (a b : Char) : List Char :=
  (expressionsOf template a b).flatMap (·.display lib)

def regexpFromTemplate (template : List Char) (a b : Char) : Except BuiltinError R :=
  (lib.new (templateText lib template a b)).mapError fun e =>
    ⟨"regex", "tried to initialize an invalid regular expression: " ++ e⟩

def oneByte (long : String) : List Char → Except BuiltinError Char
  | [c] => if c.utf8Size = 1 then .ok c else .error ⟨"regex.template_match", long⟩
  | _ => .error ⟨"regex.template_match", long⟩

def delimiter (message long : String) (v : Value) :
    Except BuiltinError Char := do
  let s ← asStr "regex.template_match" message v
  oneByte long s.toList

def templateMatch : List Value → Except BuiltinError Value
  | [pattern, string, start, stop] => do
    let patternStr ← asStr "regex.template_match" "1st parameter is not a string" pattern
    let stringStr ← asStr "regex.template_match" "2nd parameter is not a string" string
    let delimiterStart ← delimiter "3rd parameter is not a string"
      "3rd parameter has to be exactly one character long" start
    let delimiterEnd ← delimiter "4th parameter is not a string"
      "4th parameter has to be exactly one character long" stop
    let computedRegexp ← regexpFromTemplate lib patternStr.toList delimiterStart delimiterEnd
    .ok (.bool (lib.isMatch computedRegexp stringStr.toList))
  | _ => .error (wrongNumber "regex.template_match")

/-! ## What a template means -/

/-- **The parts of a template**, from a depth and a current part on; there are
none if the delimiters are unbalanced. -/
def parts (a b : Char) : ℕ → List Char → List Char → Option (List Expression)
  | 0, cur, [] => some (push ⟨false, cur⟩)
  | _ + 1, _, [] => none
  | 0, cur, c :: t =>
    if c = a then (parts a b 1 [] t).map (push ⟨false, cur⟩ ++ ·)
    else if c = b then none
    else parts a b 0 (cur ++ [c]) t
  | 1, cur, c :: t =>
    if c = a then parts a b 2 (cur ++ [c]) t
    else if c = b then (parts a b 0 [] t).map (push ⟨true, cur⟩ ++ ·)
    else parts a b 1 (cur ++ [c]) t
  | d + 2, cur, c :: t =>
    if c = a then parts a b (d + 3) (cur ++ [c]) t
    else if c = b then parts a b (d + 1) (cur ++ [c]) t
    else parts a b (d + 2) (cur ++ [c]) t

/-! ## What the regex crate does -/

/-- The alternatives of two patterns that are put side by side: the last one of the
first goes with the first one of the second. -/
def beside {α : Type} (op : α → α → α) : List α → List α → List α
  | [p], q :: qs => op p q :: qs
  | p :: p' :: ps, qs => p :: beside op (p' :: ps) qs
  | _, qs => qs

def joined (patterns : List (List Char)) : List Char := ['|'].intercalate patterns

/-- **The regex crate's semantics.** A pattern is a choice of alternatives. Some
patterns are plain: valid, and without alternatives, flags and anchors on the
outside. These can be put side by side, and are looked for as words of a language. -/
structure RegexSemantics where
  lang : List Char → Language Char
  Plain : List Char → Prop
  alternatives : List Char → List (List Char)
  joined_alternatives : ∀ p, alternatives p ≠ [] ∧ joined (alternatives p) = p
  exists_new : ∀ ps, ps ≠ [] → (∀ p ∈ ps, Plain p) → ∃ r, lib.new (joined ps) = .ok r
    ∧ ∀ s, lib.isMatch r s = true ↔ ∃ p ∈ ps, ∃ u ∈ lang p, u <:+: s
  lang_eq : ∀ p, (∀ q ∈ alternatives p, Plain q) →
    ∀ u, u ∈ lang p ↔ ∃ q ∈ alternatives p, u ∈ lang q
  plain_nil : Plain [] ∧ lang [] = 1
  plain_append : ∀ p q, Plain p → Plain q → Plain (p ++ q) ∧ lang (p ++ q) = lang p * lang q
  plain_escape : ∀ x, Plain (lib.escape x) ∧ lang (lib.escape x) = {x}

variable {lib} (sem : RegexSemantics lib)

namespace RegexSemantics

def part (e : Expression) : Language Char :=
  if e.isRegexp then sem.lang e.expression else {e.expression}

/-- The strings that a template describes. -/
def whole (ps : List Expression) : Language Char := (ps.map sem.part).prod

/-- The languages of the alternatives of a part. -/
def choices (e : Expression) : List (Language Char) :=
  if e.isRegexp then (sem.alternatives e.expression).map sem.lang else [{e.expression}]

/-- **The alternatives of parts without grouping**: an alternation reaches over the
part that it is in. -/
def ungrouped (ps : List Expression) : List (Language Char) :=
  ps.foldr (fun e ls => beside (· * ·) (sem.choices e) ls) [1]

/-- The regular expressions are valid, and have no flags and anchors outside. -/
def Closed (ps : List Expression) : Prop :=
  ∀ e ∈ ps, e.isRegexp = true → ∀ q ∈ sem.alternatives e.expression, sem.Plain q

/-- **The property.** -/
def Matches (t s : String) (a b : Char) : Prop :=
  let result := templateMatch lib [.string t, .string s,
    .string (String.singleton a), .string (String.singleton b)]
  match parts a b 0 [] t.toList with
  | none => ∃ e, result = .error e
  | some ps => ∃ w, result = .ok (.bool w) ∧ (w = true ↔ s.toList ∈ sem.whole ps)

end RegexSemantics

/-- What is left of a part without the delimiters in it. -/
def withoutDelimiters (a b : Char) (e : Expression) : List Expression :=
  push ⟨e.isRegexp, e.expression.filter fun c => c ≠ a && c ≠ b⟩

/-- **The condition.** Unbalanced templates are refused for their delimiters only. A
balanced one has to describe the whole of a string exactly if a part of the string is
one of the alternatives that are there when its regular expressions lose their
delimiters and their grouping. -/
def RegexSemantics.Condition (t s : String) (a b : Char) : Prop :=
  match parts a b 0 [] t.toList with
  | none => a.utf8Size ≠ 1 ∨ b.utf8Size ≠ 1
  | some ps => a.utf8Size = 1 ∧ b.utf8Size = 1
    ∧ ((∃ l ∈ sem.ungrouped (ps.flatMap (withoutDelimiters a b)), ∃ u ∈ l, u <:+: s.toList)
      ↔ s.toList ∈ sem.whole ps)

/-! ## The loop over a template -/

theorem flatMap_push (a b : Char) (e : Expression) :
    (push e).flatMap (withoutDelimiters a b) = withoutDelimiters a b e := by
  obtain ⟨isRegexp, expression⟩ := e
  cases expression <;> simp [push, withoutDelimiters]

/-! ## Both together -/

/-- **Balanced templates are cut into their parts**, without the delimiters in them.
The depth of the loop is the one of the parts. -/
theorem foldl_step_of_parts {a b : Char} {t : List Char} :
    ∀ {d : ℕ} {es : List Expression} {cur : List Char} {ps : List Expression},
      parts a b d cur t = some ps →
      (t.foldl (step a b) ⟨es, ⟨decide (0 < d), cur.filter fun c => c ≠ a && c ≠ b⟩, d⟩).finish
        = es ++ ps.flatMap (withoutDelimiters a b) := by
  induction t with
  | nil =>
    intro d es cur ps h
    cases d with
    | zero =>
      cases h
      rw [flatMap_push]
      rfl
    | succ d => cases h
  | cons c t ih =>
    intro d es cur ps h
    -- a character that is no delimiter, or one in a regular expression
    have hkept (hc : c ≠ a ∧ c ≠ b) (e : Expression) (n : ℤ) :
        step a b ⟨es, ⟨e.isRegexp, cur.filter fun c => c ≠ a && c ≠ b⟩, n⟩ c
          = ⟨es, ⟨e.isRegexp, (cur ++ [c]).filter fun c => c ≠ a && c ≠ b⟩, n⟩ := by
      simp [step, hc]
    have hdropped (hc : c = a ∨ c = b) : (cur ++ [c]).filter (fun c => c ≠ a && c ≠ b)
        = cur.filter fun c => c ≠ a && c ≠ b := by
      rcases hc with rfl | rfl <;> simp
    rw [foldl_cons]
    match d with
    | 0 =>
      rw [parts] at h
      split_ifs at h with ha hb
      · obtain ⟨qs, hqs, rfl⟩ := Option.map_eq_some_iff.1 h
        rw [flatMap_append, flatMap_push, ← append_assoc, ← ih hqs]
        simp [step, ha, withoutDelimiters]
      · exact (hkept ⟨ha, hb⟩ ⟨false, []⟩ 0).symm ▸ ih h
    | 1 =>
      rw [parts] at h
      split_ifs at h with ha hb
      · rw [← ih h, hdropped (.inl ha)]
        simp [step, ha]
      · obtain ⟨qs, hqs, rfl⟩ := Option.map_eq_some_iff.1 h
        rw [flatMap_append, flatMap_push, ← append_assoc, ← ih hqs, step, if_neg ha, if_pos hb]
        rfl
      · exact (hkept ⟨ha, hb⟩ ⟨true, []⟩ 1).symm ▸ ih h
    | d + 2 =>
      rw [parts] at h
      split_ifs at h with ha hb
      · have hdeep : ¬ ((d + 2 : ℕ) : ℤ) + 1 = 1 := by omega
        rw [← ih h, hdropped (.inl ha), step, if_pos ha, if_neg hdeep]
        rfl
      · have hdeep : ¬ ((d + 2 : ℕ) : ℤ) - 1 = 0 := by omega
        have hdepth : ((d + 2 : ℕ) : ℤ) - 1 = (d + 1 : ℕ) := by omega
        rw [← ih h, hdropped (.inr hb), step, if_neg ha, if_pos hb, if_neg hdeep, hdepth]
        rfl
      · exact (hkept ⟨ha, hb⟩ ⟨true, []⟩ (d + 2 : ℕ)).symm ▸ ih h

/-! ## Patterns side by side -/

theorem joined_cons (p : List Char) {ps : List (List Char)} (h : ps ≠ []) :
    joined (p :: ps) = p ++ '|' :: joined ps := by
  cases ps with
  | nil => exact absurd rfl h
  | cons q qs => simp [joined, intercalate, intersperse]

theorem joined_singleton (p : List Char) : joined [p] = p := by
  simp [joined, intercalate, intersperse]

theorem joined_beside {ps qs : List (List Char)} (hps : ps ≠ []) (hqs : qs ≠ []) :
    beside (· ++ ·) ps qs ≠ [] ∧ joined (beside (· ++ ·) ps qs) = joined ps ++ joined qs := by
  induction ps with
  | nil => exact absurd rfl hps
  | cons p ps ih =>
    cases ps with
    | nil =>
      obtain ⟨q, qs, rfl⟩ := exists_cons_of_ne_nil hqs
      refine ⟨cons_ne_nil _ _, ?_⟩
      rw [beside, joined_singleton]
      cases qs with
      | nil => rw [joined_singleton, joined_singleton]
      | cons q' qs =>
        rw [joined_cons _ (cons_ne_nil _ _), joined_cons _ (cons_ne_nil _ _), append_assoc]
    | cons p' ps =>
      obtain ⟨hne, heq⟩ := ih (cons_ne_nil _ _)
      refine ⟨cons_ne_nil _ _, ?_⟩
      rw [beside, joined_cons p hne, heq, joined_cons p (cons_ne_nil _ _), append_assoc]
      rfl

namespace RegexSemantics

/-- The alternatives of a part, as they stand in the text. -/
def patterns (e : Expression) : List (List Char) :=
  if e.isRegexp then sem.alternatives e.expression else [lib.escape e.expression]

def ungroupedPatterns (ps : List Expression) : List (List Char) :=
  ps.foldr (fun e qs => beside (· ++ ·) (sem.patterns e) qs) [[]]

theorem joined_patterns (e : Expression) :
    sem.patterns e ≠ [] ∧ joined (sem.patterns e) = e.display lib := by
  unfold patterns display
  split
  · exact sem.joined_alternatives e.expression
  · exact ⟨cons_ne_nil _ _, joined_singleton _⟩

theorem joined_ungroupedPatterns (ps : List Expression) : sem.ungroupedPatterns ps ≠ []
    ∧ joined (sem.ungroupedPatterns ps) = ps.flatMap (·.display lib) := by
  induction ps with
  | nil => exact ⟨cons_ne_nil _ _, rfl⟩
  | cons e ps ih =>
    obtain ⟨hne, heq⟩ := sem.joined_patterns e
    obtain ⟨hbeside, hjoined⟩ := joined_beside hne ih.1
    refine ⟨hbeside, hjoined.trans ?_⟩
    rw [heq, ih.2, flatMap_cons]

theorem plain_beside {ps qs : List (List Char)} (hps : ∀ p ∈ ps, sem.Plain p)
    (hqs : ∀ q ∈ qs, sem.Plain q) : (∀ p ∈ beside (· ++ ·) ps qs, sem.Plain p)
      ∧ (beside (· ++ ·) ps qs).map sem.lang
        = beside (· * ·) (ps.map sem.lang) (qs.map sem.lang) := by
  induction ps with
  | nil => exact ⟨hqs, rfl⟩
  | cons p ps ih =>
    obtain ⟨hp, hps⟩ := forall_mem_cons.1 hps
    cases ps with
    | nil =>
      cases qs with
      | nil => exact ⟨hqs, rfl⟩
      | cons q qs =>
        obtain ⟨hq, hqs⟩ := forall_mem_cons.1 hqs
        obtain ⟨hplain, hlang⟩ := sem.plain_append p q hp hq
        exact ⟨forall_mem_cons.2 ⟨hplain, hqs⟩, congrArg (· :: _) hlang⟩
    | cons p' ps =>
      obtain ⟨hplain, hlang⟩ := ih hps
      exact ⟨forall_mem_cons.2 ⟨hp, hplain⟩, congrArg (sem.lang p :: ·) hlang⟩

theorem plain_ungroupedPatterns {ps : List Expression} (h : sem.Closed ps) :
    (∀ p ∈ sem.ungroupedPatterns ps, sem.Plain p)
      ∧ (sem.ungroupedPatterns ps).map sem.lang = sem.ungrouped ps := by
  induction ps with
  | nil => exact ⟨forall_mem_singleton.2 sem.plain_nil.1, congrArg (fun l => [l]) sem.plain_nil.2⟩
  | cons e ps ih =>
    obtain ⟨he, hps⟩ := forall_mem_cons.1 h
    obtain ⟨hplain, hlang⟩ := ih hps
    have hpatterns : (∀ p ∈ sem.patterns e, sem.Plain p)
        ∧ (sem.patterns e).map sem.lang = sem.choices e := by
      unfold patterns choices
      split
      · next hregexp => exact ⟨he hregexp, rfl⟩
      · obtain ⟨hescape, hword⟩ := sem.plain_escape e.expression
        exact ⟨forall_mem_singleton.2 hescape, congrArg (fun l => [l]) hword⟩
    obtain ⟨hbeside, hmap⟩ := sem.plain_beside hpatterns.1 hplain
    refine ⟨hbeside, hmap.trans ?_⟩
    rw [hpatterns.2, hlang]
    rfl

/-- **What the text of a template is found for.** -/
theorem exists_new_templateText {t : List Char} {a b : Char}
    (h : sem.Closed (expressionsOf t a b)) : ∃ r, lib.new (templateText lib t a b) = .ok r
      ∧ ∀ s, lib.isMatch r s = true
        ↔ ∃ l ∈ sem.ungrouped (expressionsOf t a b), ∃ u ∈ l, u <:+: s := by
  obtain ⟨hne, heq⟩ := sem.joined_ungroupedPatterns (expressionsOf t a b)
  obtain ⟨hplain, hlang⟩ := sem.plain_ungroupedPatterns h
  obtain ⟨r, hnew, hmatch⟩ := sem.exists_new _ hne hplain
  refine ⟨r, by rw [templateText, ← heq, hnew], fun s => (hmatch s).trans ?_⟩
  rw [← hlang]
  simp only [mem_map, exists_exists_and_eq_and]

end RegexSemantics

theorem delimiter_singleton (message long : String) (c : Char) :
    delimiter message long (.string (String.singleton c)) = if c.utf8Size = 1 then .ok c
      else .error ⟨"regex.template_match", long⟩ := by
  show oneByte long (String.singleton c).toList = _
  rw [String.toList_singleton]
  rfl

theorem templateMatch_cases (lib : RegexLib R) (t s : String) (a b : Char) :
    ((∃ e, templateMatch lib [.string t, .string s,
          .string (String.singleton a), .string (String.singleton b)]
          = .error e) ∧ (a.utf8Size = 1 → b.utf8Size = 1 →
        ∀ r, lib.new (templateText lib t.toList a b) ≠ .ok r))
      ∨ ∃ r, lib.new (templateText lib t.toList a b) = .ok r ∧ a.utf8Size = 1 ∧ b.utf8Size = 1
        ∧ templateMatch lib [.string t, .string s,
          .string (String.singleton a), .string (String.singleton b)]
          = .ok (.bool (lib.isMatch r s.toList)) := by
  have hresult : templateMatch lib [.string t, .string s,
        .string (String.singleton a), .string (String.singleton b)]
      = (do
        let start ← delimiter "3rd parameter is not a string"
          "3rd parameter has to be exactly one character long"
          (.string (String.singleton a))
        let stop ← delimiter "4th parameter is not a string"
          "4th parameter has to be exactly one character long"
          (.string (String.singleton b))
        let r ← regexpFromTemplate lib t.toList start stop
        .ok (.bool (lib.isMatch r s.toList))) := rfl
  rw [hresult, delimiter_singleton, delimiter_singleton]
  by_cases ha : a.utf8Size = 1
  · rw [if_pos ha]
    by_cases hb : b.utf8Size = 1
    · rw [if_pos hb]
      show (∃ e, (regexpFromTemplate lib t.toList a b >>= _) = .error e) ∧ _
        ∨ ∃ r, _ ∧ _ ∧ _ ∧ (regexpFromTemplate lib t.toList a b >>= _) = _
      unfold regexpFromTemplate
      cases lib.new (templateText lib t.toList a b) with
      | error e => exact .inl ⟨⟨_, rfl⟩, fun _ _ r h => by cases h⟩
      | ok r => exact .inr ⟨r, rfl, ha, hb, rfl⟩
    · rw [if_neg hb]
      exact .inl ⟨⟨_, rfl⟩, fun _ h => absurd h hb⟩
  · rw [if_neg ha]
    exact .inl ⟨⟨_, rfl⟩, fun h => absurd h ha⟩

/-- The word that a pattern stands for, if it is one: a backslash is in front of a
bar or a backslash that is meant as such. -/
def unescape : List Char → Option (List Char)
  | [] => some []
  | '\\' :: c :: p => (unescape p).map (c :: ·)
  | c :: p => if c = '|' || c = '\\' then none else (unescape p).map (c :: ·)

def inFront (x : List Char) : List (List Char) → List (List Char)
  | [] => [x]
  | p :: ps => (x ++ p) :: ps

/-- The alternatives of a pattern, between the bars without a backslash. -/
def atBars : List Char → List (List Char)
  | [] => [[]]
  | '\\' :: c :: p => inFront ['\\', c] (atBars p)
  | c :: p => if c = '|' then [] :: atBars p else inFront [c] (atBars p)

def wordRegex : RegexLib (List Char) where
  new p := .ok p
  isMatch p s := (atBars p).any fun q => (unescape q).any fun u => decide (u <:+: s)
  split _ s := [s]
  escape x := x.flatMap fun c => if c = '|' || c = '\\' then ['\\', c] else [c]

theorem joined_inFront (x : List Char) {ps : List (List Char)} (h : ps ≠ []) :
    inFront x ps ≠ [] ∧ joined (inFront x ps) = x ++ joined ps := by
  obtain ⟨p, ps, rfl⟩ := exists_cons_of_ne_nil h
  refine ⟨cons_ne_nil _ _, ?_⟩
  cases ps with
  | nil => rw [inFront, joined_singleton, joined_singleton]
  | cons q qs => rw [inFront, joined_cons _ (cons_ne_nil _ _), joined_cons _ (cons_ne_nil _ _),
      append_assoc]

theorem joined_atBars (p : List Char) : atBars p ≠ [] ∧ joined (atBars p) = p := by
  fun_induction atBars p with
  | case1 => exact ⟨cons_ne_nil _ _, rfl⟩
  | case2 c p ih =>
    obtain ⟨hne, heq⟩ := joined_inFront ['\\', c] ih.1
    exact ⟨hne, heq.trans (by rw [ih.2]; rfl)⟩
  | case3 p _ ih => exact ⟨cons_ne_nil _ _, by rw [joined_cons _ ih.1, ih.2]; rfl⟩
  | case4 c p _ _ ih =>
    obtain ⟨hne, heq⟩ := joined_inFront [c] ih.1
    exact ⟨hne, heq.trans (by rw [ih.2]; rfl)⟩

theorem atBars_cons {c : Char} (h : c ≠ '\\') (p : List Char) :
    atBars (c :: p) = if c = '|' then [] :: atBars p else inFront [c] (atBars p) := by
  rw [atBars]
  exact fun _ _ hc => absurd hc h

theorem unescape_cons {c : Char} (h : ¬ (c = '|' || c = '\\') = true) (p : List Char) :
    unescape (c :: p) = (unescape p).map (c :: ·) := by
  rw [unescape, if_neg h]
  rintro _ _ rfl
  exact absurd rfl h

theorem inFront_append (x y : List Char) {ps : List (List Char)} (h : ps ≠ []) :
    inFront (x ++ y) ps = inFront x (inFront y ps) := by
  obtain ⟨p, ps, rfl⟩ := exists_cons_of_ne_nil h
  rw [inFront, inFront, inFront, append_assoc]

/-- **A word is read as such**, and what is behind it as what it is. -/
theorem unescape_append {q x : List Char} (h : unescape q = some x) (rest : List Char) :
    unescape (q ++ rest) = (unescape rest).map (x ++ ·)
      ∧ atBars (q ++ rest) = inFront q (atBars rest) := by
  have hne := (joined_atBars rest).1
  fun_induction unescape q generalizing x with
  | case1 =>
    cases h
    obtain ⟨p, ps, hps⟩ := exists_cons_of_ne_nil hne
    exact ⟨by simp, by simp [hps, inFront]⟩
  | case2 c p ih =>
    obtain ⟨y, hy, rfl⟩ := Option.map_eq_some_iff.1 h
    obtain ⟨hunescape, hbars⟩ := ih hy
    refine ⟨?_, ?_⟩
    · rw [cons_append, cons_append, unescape, hunescape, Option.map_map]
      rfl
    · rw [cons_append, cons_append, atBars, hbars, ← inFront_append _ _ hne]
      rfl
  | case3 c p _ _ => cases h
  | case4 c p _ hc ih =>
    obtain ⟨y, hy, rfl⟩ := Option.map_eq_some_iff.1 h
    obtain ⟨hunescape, hbars⟩ := ih hy
    obtain ⟨hbar, hslash⟩ : c ≠ '|' ∧ c ≠ '\\' := by simpa using hc
    refine ⟨?_, ?_⟩
    · rw [cons_append, unescape_cons hc, hunescape, Option.map_map]
      rfl
    · rw [cons_append, atBars_cons hslash, if_neg hbar, hbars, ← inFront_append _ _ hne]
      rfl

theorem unescape_escape (x : List Char) : unescape (wordRegex.escape x) = some x := by
  induction x with
  | nil => rfl
  | cons c x ih =>
    have hcons : wordRegex.escape (c :: x)
      = (if c = '|' || c = '\\' then ['\\', c] else [c]) ++ wordRegex.escape x := rfl
    rw [hcons]
    split_ifs with hc
    · rw [cons_append, singleton_append, unescape, ih, Option.map_some]
    · rw [singleton_append, unescape_cons hc, ih, Option.map_some]

theorem atBars_of_word {q : List Char} (h : (unescape q).isSome) : atBars q = [q] := by
  obtain ⟨x, hx⟩ := Option.isSome_iff_exists.1 h
  simpa [atBars, inFront] using (unescape_append hx []).2

theorem atBars_joined {ps : List (List Char)} (hne : ps ≠ [])
    (h : ∀ p ∈ ps, (unescape p).isSome) : atBars (joined ps) = ps := by
  induction ps with
  | nil => exact absurd rfl hne
  | cons p ps ih =>
    obtain ⟨hp, hps⟩ := forall_mem_cons.1 h
    cases ps with
    | nil => rw [joined_singleton, atBars_of_word hp]
    | cons q qs =>
      obtain ⟨x, hx⟩ := Option.isSome_iff_exists.1 hp
      rw [joined_cons _ (cons_ne_nil _ _), (unescape_append hx _).2, atBars_cons (by decide),
        if_pos rfl, ih (cons_ne_nil _ _) hps, inFront, append_nil]

/-- The words that a pattern is a choice of. -/
def words (p : List Char) : Language Char := { u | ∃ q ∈ atBars p, unescape q = some u }

theorem mem_words_iff {q : List Char} (h : (unescape q).isSome) {u : List Char} :
    u ∈ words q ↔ unescape q = some u := by
  show (∃ q' ∈ atBars q, unescape q' = some u) ↔ _
  rw [atBars_of_word h]
  simp only [mem_singleton, exists_eq_left]

theorem words_eq {q x : List Char} (h : unescape q = some x) : words q = {x} := by
  ext u
  rw [mem_words_iff (h ▸ rfl), h, Option.some_inj]
  exact eq_comm

def wordSemantics : RegexSemantics wordRegex where
  lang := words
  Plain p := (unescape p).isSome
  alternatives := atBars
  joined_alternatives := joined_atBars
  exists_new ps hne h := by
    refine ⟨joined ps, rfl, fun s => ?_⟩
    rw [show wordRegex.isMatch (joined ps) s = (atBars (joined ps)).any fun q =>
      (unescape q).any fun u => decide (u <:+: s) from rfl, atBars_joined hne h]
    simp only [any_eq_true, Option.any_eq_true, decide_eq_true_eq]
    refine exists_congr fun p => and_congr_right fun hp => exists_congr fun u => ?_
    rw [mem_words_iff (h p hp)]
  lang_eq p h u := exists_congr fun q => and_congr_right fun hq => (mem_words_iff (h q hq)).symm
  plain_nil := ⟨rfl, words_eq rfl⟩
  plain_append p q hp hq := by
    obtain ⟨x, hx⟩ := Option.isSome_iff_exists.1 hp
    obtain ⟨y, hy⟩ := Option.isSome_iff_exists.1 hq
    have happend : unescape (p ++ q) = some (x ++ y) := by
      rw [(unescape_append hx q).1, hy, Option.map_some]
    refine ⟨happend ▸ rfl, ?_⟩
    rw [words_eq happend, words_eq hx, words_eq hy]
    exact Set.image2_singleton.symm
  plain_escape x := ⟨unescape_escape x ▸ rfl, words_eq (unescape_escape x)⟩

end Builtins
