import AdmController.PolicyEvaluator
import AdmController.PolicyValidation
import AdmController.Precedence

/-!
# Two languages for the expressions of groups

The expression of a policy group is compiled by the webhook as CEL, and
evaluated by the policy server with Rhai: the tokens, the grammar, the type
checker and the values of CEL, and the parser and the evaluation of Rhai.
-/

namespace GroupExpression

open PoliciesV1 Precedence

/-! ## Texts -/

inductive BinOp where
  | or | and | eq | ne
deriving DecidableEq

/-- An operand: a call of a member, a Boolean, or another one. -/
inductive Operand (O : Type) where
  | call (name : String)
  | bool (b : Bool)
  | other (o : O)

abbrev Token (O : Type) := Tok BinOp (Operand O)

abbrev Expr (O : Type) := Tree BinOp (Operand O)

inductive Value (V : Type) where
  | bool (b : Bool)
  | other (x : V)
deriving DecidableEq

inductive CelType (T : Type) where
  | bool
  | dyn
  | other (t : T)

inductive RhaiError where
  | parsing | mismatchedOperand | mismatchedOutput

/-- **What is not modelled of the two languages**: other operands, which function
names Rhai accepts, and how it counts the levels of an expression. -/
structure Languages (O V T : Type) where
  /-- Read an operand at the beginning of a text. -/
  readOther : List Char → Option (O × List Char)
  celType : O → CelType T
  /-- The value of an operand in CEL, given the answers of the members. -/
  celValue : (String → Bool) → O → Option (Value V)
  /-- Whether values of two types can be compared. -/
  celComparable : CelType T → CelType T → Bool
  rhaiCallable : String → Bool
  /-- The value of an operand in Rhai, if it is one. -/
  rhaiValue : O → Option (Value V)
  /-- Whether Rhai compares a value. -/
  rhaiComparable : V → Bool
  /-- The levels at which the parser of Rhai is for a text, and how many it allows
  (`Engine::max_expr_depth`). -/
  rhaiDepth : List (Token O) → ℕ
  rhaiMaxDepth : ℕ
  rhaiError : RhaiError → String
  /-- The type checker of CEL is right about Booleans. -/
  celValue_of_bool : ∀ {o v x}, celType o = .bool → celValue v o = some x → ∃ b, x = .bool b

/-! ## Tokens -/

def isSpace (c : Char) : Bool := c = ' ' || c = '\t' || c = '\n' || c = '\r' || c = Char.ofNat 12

def skipBlanks : ℕ → List Char → List Char
  | 0, cs => cs
  | fuel + 1, '/' :: '/' :: cs => skipBlanks fuel (cs.dropWhile (· ≠ '\n'))
  | fuel + 1, c :: cs => if isSpace c then skipBlanks fuel cs else c :: cs
  | _ + 1, [] => []

def blanks (cs : List Char) : List Char := skipBlanks cs.length cs

section

variable {O V T : Type} (L : Languages O V T)

def readSymbol : List Char → Option (Token O × List Char)
  | '&' :: '&' :: cs => some (.op .and, cs)
  | '|' :: '|' :: cs => some (.op .or, cs)
  | '=' :: '=' :: cs => some (.op .eq, cs)
  | '!' :: '=' :: cs => some (.op .ne, cs)
  | '!' :: cs => some (.not, cs)
  | '(' :: cs => some (.lparen, cs)
  | ')' :: cs => some (.rparen, cs)
  | _ => none

def readWord (cs : List Char) : Option (Token O × List Char) :=
  let name := String.ofList (cs.takeWhile isIdentifierRest)
  let rest := cs.dropWhile isIdentifierRest
  if isIdentifier name then
    match blanks rest with
    | '(' :: arguments =>
      match blanks arguments with
      | ')' :: rest => some (.atom (.call name), rest)
      | _ => none
    | _ =>
      if name = "true" then some (.atom (.bool true), rest)
      else if name = "false" then some (.atom (.bool false), rest)
      else none
  else none

def readToken (cs : List Char) : Option (Token O × List Char) :=
  readSymbol cs <|> (L.readOther cs).map (fun x => (.atom (.other x.1), x.2)) <|> readWord cs

def scan : ℕ → List Char → Option (List (Token O))
  | 0, _ => none
  | fuel + 1, cs =>
    match blanks cs with
    | [] => some []
    | cs => (readToken L cs).bind fun x => (scan fuel x.2).map (x.1 :: ·)

def Languages.tokens (text : String) : Option (List (Token O)) :=
  scan L (text.length + 1) text.toList

end

/-! ## CEL -/

inductive Nonterminal where
  | conditionalOr | conditionalAnd | relation | unary

/-- **The grammar of CEL.** -/
inductive CelDerives {O : Type} : Nonterminal → List (Token O) → Expr O → Prop
  | or {l r : List (Token O)} {a b : Expr O} :
    CelDerives .conditionalOr l a → CelDerives .conditionalAnd r b →
    CelDerives .conditionalOr (l ++ .op .or :: r) (.bin .or a b)
  | conditionalAnd {ts : List (Token O)} {e : Expr O} :
    CelDerives .conditionalAnd ts e → CelDerives .conditionalOr ts e
  | and {l r : List (Token O)} {a b : Expr O} :
    CelDerives .conditionalAnd l a → CelDerives .relation r b →
    CelDerives .conditionalAnd (l ++ .op .and :: r) (.bin .and a b)
  | relation {ts : List (Token O)} {e : Expr O} :
    CelDerives .relation ts e → CelDerives .conditionalAnd ts e
  | eq {l r : List (Token O)} {a b : Expr O} : CelDerives .relation l a → CelDerives .unary r b →
    CelDerives .relation (l ++ .op .eq :: r) (.bin .eq a b)
  | ne {l r : List (Token O)} {a b : Expr O} : CelDerives .relation l a → CelDerives .unary r b →
    CelDerives .relation (l ++ .op .ne :: r) (.bin .ne a b)
  | unary {ts : List (Token O)} {e : Expr O} : CelDerives .unary ts e → CelDerives .relation ts e
  | not {ts : List (Token O)} {e : Expr O} :
    CelDerives .unary ts e → CelDerives .unary (.not :: ts) (.not e)
  | paren {ts : List (Token O)} {e : Expr O} : CelDerives .conditionalOr ts e →
    CelDerives .unary (.lparen :: ts ++ [.rparen]) e
  | operand (a : Operand O) : CelDerives .unary [.atom a] (.atom a)

namespace CelType

def mayBeBool {T : Type} : CelType T → Bool
  | .bool | .dyn => true
  | .other _ => false

end CelType

/-- **`&&` in CEL**: a false operand decides, also when the other one fails. -/
def celAnd {V : Type} : Option (Value V) → Option (Value V) → Option (Value V)
  | some (.bool false), _ => some (.bool false)
  | _, some (.bool false) => some (.bool false)
  | some (.bool true), some (.bool true) => some (.bool true)
  | _, _ => none

/-- **`||` in CEL**: a true operand decides, also when the other one fails. -/
def celOr {V : Type} : Option (Value V) → Option (Value V) → Option (Value V)
  | some (.bool true), _ => some (.bool true)
  | _, some (.bool true) => some (.bool true)
  | some (.bool false), some (.bool false) => some (.bool false)
  | _, _ => none

def Value.not {V : Type} : Value V → Option (Value V)
  | .bool b => some (.bool !b)
  | .other _ => none

namespace Languages

variable {O V T : Type} [DecidableEq V] (L : Languages O V T)

def celCheck (names : List String) : Expr O → Option (CelType T)
  | .atom (.call name) => if name ∈ names then some .bool else none
  | .atom (.bool _) => some .bool
  | .atom (.other o) => some (L.celType o)
  | .not e => (celCheck names e).bind fun t => if t.mayBeBool then some .bool else none
  | .bin o a b =>
    (celCheck names a).bind fun t => (celCheck names b).bind fun t' =>
      match o with
      | .or | .and => if t.mayBeBool && t'.mayBeBool then some .bool else none
      | .eq | .ne => if L.celComparable t t' then some .bool else none

/-- **The value of an expression in CEL**, given the answers of the members. -/
def celEval (v : String → Bool) : Expr O → Option (Value V)
  | .atom (.call name) => some (.bool (v name))
  | .atom (.bool b) => some (.bool b)
  | .atom (.other o) => L.celValue v o
  | .not e => (celEval v e).bind Value.not
  | .bin .or a b => celOr (celEval v a) (celEval v b)
  | .bin .and a b => celAnd (celEval v a) (celEval v b)
  | .bin .eq a b => (celEval v a).bind fun x => (celEval v b).map fun y => .bool (decide (x = y))
  | .bin .ne a b => (celEval v a).bind fun x => (celEval v b).map fun y => .bool (decide (x ≠ y))

omit [DecidableEq V] in
/-- **A text that CEL accepts** as a Boolean expression. -/
def CelAccepts (names : List String) (text : String) : Prop :=
  ∃ ts e, L.tokens text = some ts ∧ CelDerives .conditionalOr ts e ∧ L.celCheck names e = some .bool

def CelValue (v : String → Bool) (text : String) (x : Value V) : Prop :=
  ∃ ts e, L.tokens text = some ts ∧ CelDerives .conditionalOr ts e ∧ L.celEval v e = some x

end Languages

/-! ## Rhai -/

def rhaiPrecedence : BinOp → ℕ
  | .or => 30
  | .and => 60
  | .eq | .ne => 90

namespace Languages

variable {O V T : Type} [DecidableEq V] (L : Languages O V T)

omit [DecidableEq V] in
def rhaiReads : Operand O → Bool
  | .call name => L.rhaiCallable name
  | .bool _ => true
  | .other o => (L.rhaiValue o).isSome

omit [DecidableEq V] in
/-- The operand of `&&` or `||` is no literal of another type. -/
def rhaiMayBeBool : Expr O → Bool
  | .atom (.other o) =>
    match L.rhaiValue o with
    | some (.other _) => false
    | _ => true
  | _ => true

omit [DecidableEq V] in
/-- What the parser checks of an expression. -/
def rhaiChecks : Expr O → Bool
  | .atom _ => true
  | .not e => rhaiChecks e
  | .bin .or a b | .bin .and a b =>
    rhaiChecks a && rhaiChecks b && rhaiMayBeBool L a && rhaiMayBeBool L b
  | .bin .eq a b | .bin .ne a b => rhaiChecks a && rhaiChecks b

omit [DecidableEq V] in
def rhaiParse (text : String) : Option (Expr O) :=
  (L.tokens text).bind fun ts =>
    if (ts.filterMap Tok.atom?).all L.rhaiReads && L.rhaiDepth ts ≤ L.rhaiMaxDepth then
      (Precedence.parse rhaiPrecedence ts).filter L.rhaiChecks
    else none

def rhaiCompare : Value V → Value V → Option Bool
  | .bool a, .bool b => some (decide (a = b))
  | .other x, .other y =>
    if L.rhaiComparable x && L.rhaiComparable y then some (decide (x = y))
    else none
  | _, _ => some false

def withBool (next : Bool → RhaiEval) : Value V → RhaiEval
  | .bool b => next b
  | .other _ => .done (.error (L.rhaiError .mismatchedOperand))

/-- **Evaluate an expression** from left to right, and go on with its value. -/
def rhaiThen : Expr O → (Value V → RhaiEval) → RhaiEval
  | .atom (.call name), next => .call name fun b => next (.bool b)
  | .atom (.bool b), next => next (.bool b)
  | .atom (.other o), next =>
    match L.rhaiValue o with
    | some x => next x
    | none => .done (.error (L.rhaiError .parsing))
  | .not e, next => rhaiThen e (L.withBool fun b => next (.bool !b))
  | .bin .or a b, next => rhaiThen a (L.withBool fun x =>
    if x then next (.bool true)
    else rhaiThen b (L.withBool fun y => next (.bool y)))
  | .bin .and a b, next => rhaiThen a (L.withBool fun x =>
    if x then rhaiThen b (L.withBool fun y => next (.bool y))
    else next (.bool false))
  | .bin .eq a b, next => rhaiThen a fun x => rhaiThen b fun y =>
    match L.rhaiCompare x y with
    | some equal => next (.bool equal)
    | none => .done (.error (L.rhaiError .mismatchedOperand))
  | .bin .ne a b, next => rhaiThen a fun x => rhaiThen b fun y =>
    match L.rhaiCompare x y with
    | some equal => next (.bool !equal)
    | none => .done (.error (L.rhaiError .mismatchedOperand))

def rhai (text : String) : RhaiEval :=
  match L.rhaiParse text with
  | none => .done (.error (L.rhaiError .parsing))
  | some e => L.rhaiThen e fun
    | .bool b => .done (.ok b)
    | .other _ => .done (.error (L.rhaiError .mismatchedOutput))

end Languages

section

variable {O : Type} {ts : List (Token O)} {e : Expr O}

/-! ## The grammars agree -/

def Nonterminal.layer : Nonterminal → Layer
  | .conditionalOr => .binary 30
  | .conditionalAnd => .binary 60
  | .relation => .binary 90
  | .unary => .unary

theorem CelDerives.derives {N : Nonterminal} (h : CelDerives N ts e) :
    Derives rhaiPrecedence N.layer ts e := by
  induction h with
  | or _ _ iha ihb => exact .bin (Nat.le_refl 30) iha (ihb.mono (by decide))
  | conditionalAnd _ ih => exact ih.mono (by decide)
  | and _ _ iha ihb => exact .bin (Nat.le_refl 60) iha (ihb.mono (by decide))
  | relation _ ih => exact ih.mono (by decide)
  | eq _ _ iha ihb => exact .bin (Nat.le_refl 90) iha (.unary ihb)
  | ne _ _ iha ihb => exact .bin (Nat.le_refl 90) iha (.unary ihb)
  | unary _ ih => exact .unary ih
  | not _ ih => exact .not ih
  | paren _ ih => exact .paren (ih.mono (by decide))
  | operand a => exact .atom a

theorem CelDerives.of_unary (h : CelDerives .unary ts e) (N : Nonterminal) : CelDerives N ts e := by
  cases N with
  | conditionalOr => exact .conditionalAnd (.relation (.unary h))
  | conditionalAnd => exact .relation (.unary h)
  | relation => exact .unary h
  | unary => exact h

def nonterminal : Layer → Nonterminal
  | .binary n =>
    if n ≤ 30 then .conditionalOr
    else if n ≤ 60 then .conditionalAnd
    else if n ≤ 90 then .relation
    else .unary
  | .unary => .unary

section

variable {n : ℕ}

theorem CelDerives.of_conditionalOr (h : CelDerives .conditionalOr ts e)
    (hn : n ≤ 30) : CelDerives (nonterminal (.binary n)) ts e := by
  rw [nonterminal, if_pos hn]
  exact h

theorem CelDerives.of_conditionalAnd (h : CelDerives .conditionalAnd ts e)
    (hn : n ≤ 60) : CelDerives (nonterminal (.binary n)) ts e := by
  by_cases hor : n ≤ 30
  · exact (CelDerives.conditionalAnd h).of_conditionalOr hor
  · rw [nonterminal, if_neg hor, if_pos hn]
    exact h

theorem CelDerives.of_relation (h : CelDerives .relation ts e)
    (hn : n ≤ 90) : CelDerives (nonterminal (.binary n)) ts e := by
  by_cases hand : n ≤ 60
  · exact (CelDerives.relation h).of_conditionalAnd hand
  · rw [nonterminal, if_neg (by omega), if_neg hand, if_pos hn]
    exact h

end

theorem celDerives_of_derives {layer : Layer} (h : Derives rhaiPrecedence layer ts e) :
    CelDerives (nonterminal layer) ts e := by
  induction h with
  | unary _ ih => exact CelDerives.of_unary ih _
  | @bin n o l r a b hn _ _ iha ihb =>
    cases o with
    | or => exact (CelDerives.or iha ihb).of_conditionalOr hn
    | and => exact (CelDerives.and iha ihb).of_conditionalAnd hn
    | eq => exact (CelDerives.eq iha ihb).of_relation hn
    | ne => exact (CelDerives.ne iha ihb).of_relation hn
  | not _ ih => exact .not ih
  | paren _ ih => exact .paren ih
  | atom a => exact .operand a

theorem celDerives_iff : CelDerives .conditionalOr ts e
    ↔ Precedence.parse rhaiPrecedence ts = some e := by
  rw [parse_eq_some_iff]
  exact ⟨fun h => h.derives.mono (by decide), celDerives_of_derives⟩

end

end GroupExpression
