import AdmController.ExpressionLanguages
import AdmController.GroupEvaluator

/-!
# When an expression means the same in both languages

The webhook accepts expressions of CEL, and the policy server evaluates them
with Rhai. The values agree (`agreed_of_celCheck`), as long as no operand is a
reserved word of Rhai, and the text is not nested too deeply for it.
-/

namespace GroupExpression

open List Languages

open PoliciesV1 Precedence

section

variable {O V T : Type} [DecidableEq V] {L : Languages O V T}

/-! ## The values agree -/

omit [DecidableEq V] in
/-- **An operand that both languages share**, of a known type. -/
def Languages.Shared (L : Languages O V T) (o : O) : Prop :=
  L.celType o ≠ .dyn ∧ ∃ x, (∀ v, L.celValue v o = some x)
    ∧ L.rhaiValue o = some x ∧ ∀ y, x = .other y → L.rhaiComparable y = true

variable {names : List String} {v : String → Bool} {answer : String → Option Bool}

structure Agreed (L : Languages O V T) (v : String → Bool)
    (answer : String → Option Bool) (e : Expr O) (t : CelType T)
    (x : Value V) : Prop where
  known : t ≠ .dyn
  value : L.celEval v e = some x
  isBool : t = .bool → ∃ b, x = .bool b
  comparable : ∀ y, x = .other y → L.rhaiComparable y = true
  outcome : ∀ next, ((L.rhaiThen e next).outcome answer).1 = ((next x).outcome answer).1

variable {e : Expr O}

theorem Agreed.exists_bool {t : CelType T} {x : Value V}
    (h : Agreed L v answer e t x) (ht : t.mayBeBool = true) :
    ∃ b, x = .bool b := by
  cases t with
  | bool => exact h.isBool rfl
  | dyn => exact absurd rfl h.known
  | other t => cases ht

theorem Agreed.of_bool {b : Bool} (hvalue : L.celEval v e = some (.bool b))
    (houtcome : ∀ next, ((L.rhaiThen e next).outcome answer).1
      = ((next (.bool b)).outcome answer).1) :
    Agreed L v answer e .bool (.bool b) where
  known := by rintro ⟨⟩
  value := hvalue
  isBool _ := ⟨b, rfl⟩
  comparable y h := by cases h
  outcome := houtcome

theorem rhaiCompare_eq {x y : Value V} (hx : ∀ z, x = .other z → L.rhaiComparable z = true)
    (hy : ∀ z, y = .other z → L.rhaiComparable z = true) :
    L.rhaiCompare x y = some (decide (x = y)) := by
  cases x with
  | bool a => cases y <;> simp [rhaiCompare]
  | other x =>
    cases y with
    | bool b => simp [rhaiCompare]
    | other y => simp [rhaiCompare, hx x rfl, hy y rfl]

section

variable {a b : Expr O} {ta tb : CelType T}

theorem Agreed.or {p q : Bool} (ha : Agreed L v answer a ta (.bool p))
    (hb : Agreed L v answer b tb (.bool q)) :
    Agreed L v answer (.bin .or a b) .bool (.bool (p || q)) := by
  refine .of_bool ?_ fun next => ?_
  · rw [celEval, ha.value, hb.value]
    cases p <;> cases q <;> rfl
  · rw [rhaiThen, ha.outcome]
    cases p with
    | true => rfl
    | false => exact hb.outcome _

theorem Agreed.and {p q : Bool} (ha : Agreed L v answer a ta (.bool p))
    (hb : Agreed L v answer b tb (.bool q)) :
    Agreed L v answer (.bin .and a b) .bool (.bool (p && q)) := by
  refine .of_bool ?_ fun next => ?_
  · rw [celEval, ha.value, hb.value]
    cases p <;> cases q <;> rfl
  · rw [rhaiThen, ha.outcome]
    cases p with
    | true => exact hb.outcome _
    | false => rfl

theorem Agreed.eq {x y : Value V} (ha : Agreed L v answer a ta x) (hb : Agreed L v answer b tb y) :
    Agreed L v answer (.bin .eq a b) .bool (.bool (decide (x = y))) := by
  refine .of_bool ?_ fun next => ?_
  · rw [celEval, ha.value, hb.value]
    rfl
  · rw [rhaiThen, ha.outcome, hb.outcome, rhaiCompare_eq ha.comparable hb.comparable]

theorem Agreed.ne {x y : Value V} (ha : Agreed L v answer a ta x) (hb : Agreed L v answer b tb y) :
    Agreed L v answer (.bin .ne a b) .bool (.bool (decide (x ≠ y))) := by
  refine .of_bool ?_ fun next => ?_
  · rw [celEval, ha.value, hb.value]
    rfl
  · rw [rhaiThen, ha.outcome, hb.outcome, rhaiCompare_eq ha.comparable hb.comparable, decide_not]

end

theorem agreed_of_celCheck {t : CelType T} (hanswer : ∀ name ∈ names, answer name = some (v name))
    (hshared : ∀ o, .other o ∈ e.atoms → L.Shared o)
    (h : L.celCheck names e = some t) : ∃ x, Agreed L v answer e t x := by
  induction e generalizing t with
  | atom a =>
    cases a with
    | call name =>
      rw [celCheck] at h
      split at h
      · next hname =>
        cases h
        refine ⟨_, .of_bool rfl fun next => ?_⟩
        rw [rhaiThen, RhaiEval.outcome, hanswer name hname]
      · cases h
    | bool b =>
      cases h
      exact ⟨_, .of_bool rfl fun next => rfl⟩
    | other o =>
      cases h
      obtain ⟨hdyn, x, hcel, hrhai, hcomparable⟩ := hshared o mem_cons_self
      refine ⟨x, hdyn, hcel v, fun hbool =>
        L.celValue_of_bool hbool (hcel v), hcomparable, fun next => ?_⟩
      rw [rhaiThen, hrhai]
  | not e ih =>
    obtain ⟨t', ht', h⟩ := Option.bind_eq_some_iff.1 h
    split at h
    · next hbool =>
      cases h
      obtain ⟨x, hx⟩ := ih hshared ht'
      obtain ⟨b, rfl⟩ := hx.exists_bool hbool
      refine ⟨.bool !b, .of_bool ?_ fun next => ?_⟩
      · rw [celEval, hx.value]
        rfl
      · rw [rhaiThen, hx.outcome]
        rfl
    · cases h
  | bin o a b iha ihb =>
    obtain ⟨ta, hta, h⟩ := Option.bind_eq_some_iff.1 h
    obtain ⟨tb, htb, h⟩ := Option.bind_eq_some_iff.1 h
    obtain ⟨x, hx⟩ := iha (fun o ho => hshared o (mem_append_left _ ho)) hta
    obtain ⟨y, hy⟩ := ihb (fun o ho => hshared o (mem_append_right _ ho)) htb
    -- the operands of a Boolean operator are Booleans
    have hlogic (h : (if ta.mayBeBool && tb.mayBeBool then
        some (CelType.bool : CelType T) else none) = some t) :
        t = .bool ∧ (∃ p, x = .bool p) ∧ ∃ q, y = .bool q := by
      split at h
      · next hbool =>
        cases h
        rw [Bool.and_eq_true] at hbool
        exact ⟨rfl, hx.exists_bool hbool.1, hy.exists_bool hbool.2⟩
      · cases h
    have hcompare (h : (if L.celComparable ta tb then
        some (CelType.bool : CelType T) else none) = some t) : t = .bool := by
      split at h
      · cases h
        rfl
      · cases h
    cases o with
    | or =>
      obtain ⟨rfl, ⟨p, rfl⟩, q, rfl⟩ := hlogic h
      exact ⟨_, hx.or hy⟩
    | and =>
      obtain ⟨rfl, ⟨p, rfl⟩, q, rfl⟩ := hlogic h
      exact ⟨_, hx.and hy⟩
    | eq =>
      obtain rfl := hcompare h
      exact ⟨_, hx.eq hy⟩
    | ne =>
      obtain rfl := hcompare h
      exact ⟨_, hx.ne hy⟩

end

section

variable {O V T : Type} {L : Languages O V T} {names : List String} {e : Expr O}

theorem rhaiMayBeBool_of_celCheck {t : CelType T} (hshared : ∀ o, .other o ∈ e.atoms → L.Shared o)
    (h : L.celCheck names e = some t) (ht : t.mayBeBool = true) : L.rhaiMayBeBool e = true := by
  match e with
  | .atom (.call _) | .atom (.bool _) | .not _ | .bin .. => rfl
  | .atom (.other o) =>
    obtain ⟨hdyn, x, hcel, hrhai, -⟩ := hshared o mem_cons_self
    obtain rfl : L.celType o = t := Option.some.inj h
    have hbool : L.celType o = .bool := by
      cases hcase : L.celType o with
      | bool => rfl
      | dyn => exact absurd hcase hdyn
      | other t => rw [hcase] at ht; cases ht
    obtain ⟨b, rfl⟩ := L.celValue_of_bool hbool (hcel fun _ => true)
    rw [rhaiMayBeBool, hrhai]

/-- **What CEL accepts passes the checks of Rhai's parser**, as far as both know the
operands. -/
theorem rhaiChecks_of_celCheck {t : CelType T} (hshared : ∀ o, .other o ∈ e.atoms → L.Shared o)
    (h : L.celCheck names e = some t) : L.rhaiChecks e = true := by
  induction e generalizing t with
  | atom a => rfl
  | not e ih =>
    obtain ⟨t', ht', -⟩ := Option.bind_eq_some_iff.1 h
    exact ih hshared ht'
  | bin o a b iha ihb =>
    obtain ⟨ta, hta, h⟩ := Option.bind_eq_some_iff.1 h
    obtain ⟨tb, htb, h⟩ := Option.bind_eq_some_iff.1 h
    have hsharedA (o) (ho : .other o ∈ a.atoms) : L.Shared o := hshared o (mem_append_left _ ho)
    have hsharedB (o) (ho : .other o ∈ b.atoms) : L.Shared o := hshared o (mem_append_right _ ho)
    have hsides := And.intro (iha hsharedA hta) (ihb hsharedB htb)
    have hlogic (h : (if ta.mayBeBool && tb.mayBeBool then
        some (CelType.bool : CelType T) else none) = some t) :
        (L.rhaiChecks a && L.rhaiChecks b && L.rhaiMayBeBool a && L.rhaiMayBeBool b) = true := by
      obtain ⟨hbool, -⟩ := Option.ite_none_right_eq_some.1 h
      obtain ⟨ha, hb⟩ := Bool.and_eq_true_iff.1 hbool
      simp [hsides, rhaiMayBeBool_of_celCheck hsharedA hta ha,
        rhaiMayBeBool_of_celCheck hsharedB htb hb]
    cases o with
    | or => exact hlogic h
    | and => exact hlogic h
    | eq | ne => exact Bool.and_eq_true_iff.2 hsides

end

section

variable {O V T : Type} [DecidableEq V] (L : Languages O V T)

/-! ## Groups that were accepted -/

omit [DecidableEq V] in
def CompilesCel (lib : ValidationLib) : Prop :=
  ∀ names text, lib.compileExpression names text = .ok true → L.CelAccepts names text

/-- **A group that the webhook accepts**: its members and its expression. -/
structure Accepted (lib : ValidationLib) (members : Members) (text : String) : Prop where
  members_ok : validatePolicyGroupMembers members = []
  expression_ok : validatePolicyGroupExpressionField lib members text = none

omit [DecidableEq V] in
def Languages.operands (text : String) : List (Operand O) :=
  ((L.tokens text).getD []).filterMap Tok.atom?

omit [DecidableEq V] in
/-- The text is not nested too deeply for Rhai. -/
def Languages.WithinDepth (text : String) : Prop :=
  L.rhaiDepth ((L.tokens text).getD []) ≤ L.rhaiMaxDepth

def answering (members : Members) (v : String → Bool) (name : String) : Option Bool :=
  if name ∈ members then some (v name) else none

/-- **Both languages agree on a text**: Rhai evaluates it to its value in CEL,
whatever the members answer. -/
def LanguagesAgree (members : Members) (text : String) : Prop :=
  ∀ v : String → Bool, ∃ b, L.CelValue v text (.bool b)
    ∧ ((L.rhai text).outcome (answering members v)).1 = some b

variable {L} {lib : ValidationLib} {members : Members} {text : String}

omit [DecidableEq V] in
theorem Accepted.celAccepts (h : Accepted lib members text)
    (hlib : CompilesCel L lib) : L.CelAccepts members.keys text := by
  have hexpression := h.expression_ok
  unfold validatePolicyGroupExpressionField at hexpression
  split at hexpression
  · cases hexpression
  · split at hexpression
    · cases hexpression
    · cases hexpression
    · cases hexpression
    · next hcompile => exact hlib _ _ hcompile

/-- **When both languages agree** on an accepted group: exactly when Rhai
accepts the names of the members that are called and knows the other operands, and
the text is not nested too deeply. -/
theorem languages_agree_iff (hlib : CompilesCel L lib) (haccepted : Accepted lib members text)
    (hshared : ∀ o, .other o ∈ L.operands text → L.rhaiReads (.other o) = true → L.Shared o) :
    LanguagesAgree L members text
      ↔ (∀ a ∈ L.operands text, L.rhaiReads a = true) ∧ L.WithinDepth text := by
  obtain ⟨ts, e, hts, hderives, hcheck⟩ := haccepted.celAccepts hlib
  have hoperands : L.operands text = ts.filterMap Tok.atom? := by
    rw [operands, hts, Option.getD_some]
  have hatoms : e.atoms = L.operands text := hderives.derives.atoms_eq.trans hoperands.symm
  have hdepth : L.WithinDepth text ↔ L.rhaiDepth ts ≤ L.rhaiMaxDepth := by
    rw [WithinDepth, hts, Option.getD_some]
  have hparse : L.rhaiParse text = if (L.operands text).all L.rhaiReads
      && L.rhaiDepth ts ≤ L.rhaiMaxDepth then (some e).filter L.rhaiChecks else none := by
    rw [rhaiParse, hts, hoperands, ← celDerives_iff.1 hderives]
    rfl
  rw [← all_eq_true, hdepth]
  constructor
  · intro hagree
    by_contra hnot
    have hrefused : ¬ ((L.operands text).all L.rhaiReads
        && L.rhaiDepth ts ≤ L.rhaiMaxDepth) = true := by
      rwa [Bool.and_eq_true, decide_eq_true_iff]
    obtain ⟨b, -, houtcome⟩ := hagree fun _ => true
    rw [rhai, hparse, if_neg hrefused] at houtcome
    cases houtcome
  · rintro ⟨hall, hwithin⟩ v
    have hanswer : ∀ name ∈ members.keys, answering members v name = some (v name) :=
      fun name hname => if_pos (AList.mem_keys.2 hname)
    have hothers (o : O) (ho : .other o ∈ e.atoms) : L.Shared o := by
      rw [hatoms] at ho
      exact hshared o ho (all_eq_true.1 hall _ ho)
    obtain ⟨x, hx⟩ := agreed_of_celCheck hanswer hothers hcheck
    obtain ⟨b, rfl⟩ := hx.isBool rfl
    refine ⟨b, ⟨ts, e, hts, hderives, hx.value⟩, ?_⟩
    have hread : ((L.operands text).all L.rhaiReads && L.rhaiDepth ts ≤ L.rhaiMaxDepth) = true := by
      rw [Bool.and_eq_true, decide_eq_true_iff]
      exact ⟨hall, hwithin⟩
    rw [rhai, hparse, if_pos hread, Option.filter_some,
      if_pos (rhaiChecks_of_celCheck hothers hcheck)]
    exact hx.outcome _

end

/-! ## The documented vocabularies -/

def rhaiReservedWords : List String :=
  ["true", "false", "let", "const", "if", "else", "switch", "do", "while",
    "until", "loop", "for", "in", "continue", "break", "return", "throw",
    "try", "catch", "fn", "private", "import", "export", "as", "this", "var",
    "static", "shared", "goto", "exit", "match", "case", "public",
    "protected", "new", "use", "with", "is", "module", "package", "super",
    "thread", "spawn", "go", "await", "async", "sync", "yield", "default",
    "void", "null", "nil"]

def startsWithLetter (name : String) : Bool :=
  match name.toList.dropWhile (· = '_') with
  | c :: _ => c.isAlpha
  | [] => false

/-- How deep the parentheses of a text are. -/
def parenDepth {O : Type} (ts : List (Token O)) : ℕ :=
  (ts.foldl (fun (depth, deepest) t => match t with
    | .lparen => (depth + 1, max deepest (depth + 1))
    | .rparen => (depth - 1, deepest)
    | _ => (depth, deepest)) (0, 0)).2

/-- Numbers as the other operands. Two levels are counted for a parenthesis and one
for an operator, and the engine allows 64. -/
def Languages.numbers : Languages ℕ ℕ Unit where
  readOther cs :=
    let digits := cs.takeWhile Char.isDigit
    if digits.isEmpty then none
    else some (digits.foldl (fun n c => 10 * n + (c.toNat - 48)) 0, cs.dropWhile Char.isDigit)
  celType _ := .other ()
  celValue _ n := some (.other n)
  celComparable
    | .bool, .other _ => false
    | .other _, .bool => false
    | _, _ => true
  rhaiCallable name := startsWithLetter name && !rhaiReservedWords.contains name
  rhaiValue n := some (.other n)
  rhaiComparable _ := true
  rhaiDepth ts := 1 + 2 * parenDepth ts + ts.countP fun t => match t with
    | .op _ => true
    | _ => false
  rhaiMaxDepth := 64
  rhaiError
    | .parsing => "Syntax error"
    | .mismatchedOperand => "Function not found"
    | .mismatchedOutput => "Output type incorrect"
  celValue_of_bool h := by cases h

theorem shared_numbers (n : ℕ) : numbers.Shared n := by
  refine ⟨by rintro ⟨⟩, .other n, fun _ => rfl, rfl, fun _ _ => rfl⟩

section

variable {O V T : Type} (L : Languages O V T)

def Languages.celCompiles (names : List String) (text : String) : Bool :=
  match (L.tokens text).bind (Precedence.parse rhaiPrecedence) with
  | none => false
  | some e =>
    match L.celCheck names e with
    | some .bool => true
    | _ => false

def Languages.validationLib : ValidationLib :=
  { ValidationLib.lenient with
    compileExpression names text :=
      if L.celCompiles names text then .ok true
      else .error (.compilation "syntax error") }

theorem compilesCel_validationLib : CompilesCel L L.validationLib := by
  intro names text h
  have hcompiles : L.celCompiles names text = true := by
    by_contra hnot
    rw [show L.validationLib.compileExpression names text
      = .error (.compilation "syntax error") from if_neg hnot] at h
    cases h
  unfold celCompiles at hcompiles
  split at hcompiles
  · cases hcompiles
  · next e hparse =>
    split at hcompiles
    · next hcheck =>
      obtain ⟨ts, hts, hparse⟩ := Option.bind_eq_some_iff.1 hparse
      exact ⟨ts, e, hts, celDerives_iff.2 hparse, hcheck⟩
    · cases hcompiles

end

def membersNamed (names : List String) : Members :=
  (∅ : Members).insertAll (names.map fun name => ⟨name, ⟨"m", none, none⟩, []⟩)

theorem numbers_agree : LanguagesAgree numbers (membersNamed ["a", "b"])
      "!a() || b() == (1 != 2)" := by
  have haccepted : Accepted numbers.validationLib
      (membersNamed ["a", "b"]) "!a() || b() == (1 != 2)" :=
    ⟨isEmpty_iff.1 (by decide +kernel), Option.isNone_iff_eq_none.1 (by decide +kernel)⟩
  exact (languages_agree_iff (compilesCel_validationLib _) haccepted
    fun n _ _ => shared_numbers n).2 ⟨by decide +kernel, Nat.le_of_ble_eq_true (by decide +kernel)⟩

/-- **A member whose name is a keyword of Rhai** is accepted by the webhook. -/
theorem private_member_disagrees : CompilesCel numbers numbers.validationLib
      ∧ Accepted numbers.validationLib (membersNamed ["private"]) "private()"
      ∧ ¬ LanguagesAgree numbers (membersNamed ["private"]) "private()" := by
  refine ⟨compilesCel_validationLib _, ⟨isEmpty_iff.1 (by decide +kernel),
    Option.isNone_iff_eq_none.1 (by decide +kernel)⟩, fun hagree => ?_⟩
  obtain ⟨b, -, houtcome⟩ := hagree fun _ => true
  have hnone : ((numbers.rhai "private()").outcome
      (answering (membersNamed ["private"]) fun _ => true)).1 = none := by
    decide +kernel
  cases hnone.symm.trans houtcome

end GroupExpression
