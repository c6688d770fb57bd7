import Mathlib.Data.List.Basic

/-!
# Reading expressions by precedence

Two accounts of the tree of an expression with binary operators, a negation and
parentheses: a grammar with one nonterminal per precedence (`Derives`), and a
parser by precedence climbing (`climb`). They agree (`parse_eq_some_iff`).
-/

namespace Precedence

open List Option Nat

inductive Tok (β α : Type) where
  | op (o : β)
  | not | lparen | rparen
  | atom (a : α)
deriving DecidableEq

def Tok.atom? {β α : Type} : Tok β α → Option α
  | .atom a => some a
  | _ => none

inductive Tree (β α : Type) where
  | atom (a : α)
  | not (e : Tree β α)
  | bin (o : β) (a b : Tree β α)

def Tree.atoms {β α : Type} : Tree β α → List α
  | .atom a => [a]
  | .not e => e.atoms
  | .bin _ a b => a.atoms ++ b.atoms

/-! ## The grammar -/

/-- The layers of the grammar: operators of some precedence, and operands. -/
inductive Layer where
  | binary (n : ℕ)
  | unary

section

variable {β α : Type} (prec : β → ℕ)

/-- **The grammar in layers.** -/
inductive Derives : Layer → List (Tok β α) → Tree β α → Prop
  | unary {n : ℕ} {ts : List (Tok β α)} {e : Tree β α} :
    Derives .unary ts e → Derives (.binary n) ts e
  | bin {n : ℕ} {o : β} {l r : List (Tok β α)} {a b : Tree β α} :
    n ≤ prec o → Derives (.binary (prec o)) l a →
    Derives (.binary (prec o + 1)) r b →
    Derives (.binary n) (l ++ .op o :: r) (.bin o a b)
  | not {ts : List (Tok β α)} {e : Tree β α} :
    Derives .unary ts e → Derives .unary (.not :: ts) (.not e)
  | paren {ts : List (Tok β α)} {e : Tree β α} :
    Derives (.binary 1) ts e → Derives .unary (.lparen :: ts ++ [.rparen]) e
  | atom (a : α) : Derives .unary [.atom a] (.atom a)

/-! ## The parser -/

/-- What the parser does next: read an operand, or go on with operators that
bind tighter than a given precedence. -/
inductive Mode (β α : Type) where
  | unary
  | binary (p : ℕ) (lhs : Tree β α)

def climb : ℕ → Mode β α → List (Tok β α) → Option (Tree β α × List (Tok β α))
  | 0, _, _ => none
  | fuel + 1, .unary, .not :: ts => (climb fuel .unary ts).map fun x => (.not x.1, x.2)
  | fuel + 1, .unary, .lparen :: ts =>
    (climb fuel .unary ts).bind fun x =>
      (climb fuel (.binary 0 x.1) x.2).bind fun y =>
        match y.2 with
        | .rparen :: rest => some (y.1, rest)
        | _ => none
  | _ + 1, .unary, .atom a :: ts => some (.atom a, ts)
  | _ + 1, .unary, _ => none
  | fuel + 1, .binary p lhs, .op o :: ts =>
    if prec o ≤ p then some (lhs, .op o :: ts)
    else (climb fuel .unary ts).bind fun x =>
      (climb fuel (.binary (prec o) x.1) x.2).bind fun y =>
        climb fuel (.binary p (.bin o lhs y.1)) y.2
  | _ + 1, .binary _ lhs, ts => some (lhs, ts)

def unary (ts : List (Tok β α)) : Option (Tree β α × List (Tok β α)) :=
  climb prec (ts.length + 1) .unary ts

def binary (p : ℕ) (lhs : Tree β α) (ts : List (Tok β α)) : Option (Tree β α × List (Tok β α)) :=
  climb prec (ts.length + 1) (.binary p lhs) ts

def expression (p : ℕ) (ts : List (Tok β α)) : Option (Tree β α × List (Tok β α)) :=
  (unary prec ts).bind fun x => binary prec p x.1 x.2

def parse (ts : List (Tok β α)) : Option (Tree β α) :=
  match expression prec 0 ts with
  | some (e, []) => some e
  | _ => none

def next : List (Tok β α) → ℕ
  | .op o :: _ => prec o
  | _ => 0

end

section

variable {β α : Type} {prec : β → ℕ} {fuel : ℕ} {mode : Mode β α}
  {ts rest : List (Tok β α)} {e : Tree β α}

/-! ## Fuel -/

theorem length_le_of_climb (h : climb prec fuel mode ts = some (e, rest)) :
    rest.length ≤ ts.length ∧ (mode = .unary → rest.length < ts.length) := by
  fun_induction climb prec fuel mode ts generalizing e rest with
  | case1 => cases h
  | case2 fuel ts ih =>
    obtain ⟨x, hx, hrest⟩ := map_eq_some_iff.1 h
    cases hrest
    have hxle := (ih hx).1
    rw [length_cons]
    omega
  | case3 fuel ts ihx ihy =>
    obtain ⟨x, hx, h⟩ := bind_eq_some_iff.1 h
    obtain ⟨⟨y, tokens⟩, hy, h⟩ := bind_eq_some_iff.1 h
    have hxle := (ihx hx).1
    have hyle := (ihy x hy).1
    dsimp only at h
    split at h
    · cases h
      rw [length_cons] at hyle ⊢
      omega
    · cases h
  | case4 fuel a ts =>
    cases h
    simp
  | case5 => cases h
  | case6 fuel p lhs o ts hle =>
    cases h
    simp
  | case7 fuel p lhs o ts hlt ihx ihy ihrest =>
    obtain ⟨x, hx, h⟩ := bind_eq_some_iff.1 h
    obtain ⟨y, hy, h⟩ := bind_eq_some_iff.1 h
    have hxle := (ihx hx).1
    have hyle := (ihy x hy).1
    have hrest := (ihrest y h).1
    refine ⟨?_, fun hmode => by cases hmode⟩
    rw [length_cons]
    omega
  | case8 fuel p lhs ts =>
    cases h
    exact ⟨Nat.le_refl _, fun hmode => by cases hmode⟩

theorem climb_congr {fuel' : ℕ} (hfuel : ts.length < fuel) (hfuel' : ts.length < fuel') :
    climb prec fuel mode ts = climb prec fuel' mode ts := by
  induction fuel generalizing fuel' mode ts with
  | zero => omega
  | succ fuel ih =>
    obtain ⟨fuel', rfl⟩ : ∃ n, fuel' = n + 1 := ⟨fuel' - 1, by omega⟩
    cases ts with
    | nil => cases mode <;> rfl
    | cons t ts =>
      rw [length_cons] at hfuel hfuel'
      have hoperand : climb prec fuel .unary ts = climb prec fuel' .unary ts :=
        ih (by omega) (by omega)
      -- what comes after the operand is shorter still
      have hafter {x : Tree β α × List (Tok β α)}
          (hx : climb prec fuel' .unary ts = some x) (p : ℕ) :
          climb prec fuel (.binary p x.1) x.2 = climb prec fuel' (.binary p x.1) x.2 := by
        have hlt := (length_le_of_climb hx).1
        exact ih (by omega) (by omega)
      cases mode with
      | unary =>
        cases t with
        | op o => rfl
        | rparen => rfl
        | atom a => rfl
        | not =>
          show (climb prec fuel .unary ts).map _ = (climb prec fuel' .unary ts).map _
          rw [hoperand]
        | lparen =>
          show (climb prec fuel .unary ts).bind _ = (climb prec fuel' .unary ts).bind _
          rw [hoperand]
          refine bind_congr fun x hx => ?_
          rw [hafter hx 0]
      | binary p lhs =>
        cases t with
        | not => rfl
        | lparen => rfl
        | rparen => rfl
        | atom a => rfl
        | op o =>
          show (if prec o ≤ p then _ else (climb prec fuel .unary ts).bind _)
            = if prec o ≤ p then _ else (climb prec fuel' .unary ts).bind _
          rw [hoperand]
          congr 1
          refine bind_congr fun x hx => ?_
          rw [hafter hx (prec o)]
          refine bind_congr fun y hy => ?_
          have hxle := (length_le_of_climb hx).1
          have hyle := (length_le_of_climb hy).1
          exact ih (by omega) (by omega)

end

section

variable {β α : Type} {prec : β → ℕ} {ts : List (Tok β α)} {lhs : Tree β α} {p : ℕ}

/-! ## The parser without fuel -/

theorem unary_atom (a : α) : unary prec (.atom a :: ts) = some (.atom a, ts) := rfl

theorem unary_not : unary prec (.not :: ts) = (unary prec ts).map fun x => (.not x.1, x.2) := rfl

theorem unary_lparen : unary prec (.lparen :: ts) = (expression prec 0 ts).bind fun y =>
      match y.2 with
      | .rparen :: rest => some (y.1, rest)
      | _ => none := by
  unfold expression
  rw [bind_assoc]
  refine bind_congr fun x hx => ?_
  have hlt : x.2.length < ts.length := (length_le_of_climb hx).2 rfl
  have hfuel : x.2.length < (Tok.lparen :: ts).length := lt_succ_of_lt hlt
  rw [climb_congr hfuel (lt_succ_self _)]
  rfl

theorem binary_of_next_le (h : next prec ts ≤ p) : binary prec p lhs ts = some (lhs, ts) := by
  cases ts with
  | nil => rfl
  | cons t ts =>
    cases t with
    | op o => exact if_pos h
    | not => rfl
    | lparen => rfl
    | rparen => rfl
    | atom a => rfl

theorem binary_op {o : β} (h : p < prec o) :
    binary prec p lhs (.op o :: ts) = (expression prec (prec o) ts).bind fun y =>
      binary prec p (.bin o lhs y.1) y.2 := by
  show (if prec o ≤ p then _ else (unary prec ts).bind _) = _
  rw [if_neg (by omega)]
  unfold expression
  rw [bind_assoc]
  refine bind_congr fun x hx => ?_
  have hlt : x.2.length < ts.length := (length_le_of_climb hx).2 rfl
  have hfuel : x.2.length < (Tok.op o :: ts).length := lt_succ_of_lt hlt
  rw [climb_congr hfuel (lt_succ_self _)]
  refine bind_congr fun y hy => ?_
  have hle : y.2.length ≤ x.2.length := (length_le_of_climb hy).1
  exact climb_congr (Nat.lt_of_le_of_lt hle hfuel) (Nat.lt_succ_self _)

end

section

variable {β α : Type} {prec : β → ℕ} {ts rest : List (Tok β α)}
  {e : Tree β α} {layer : Layer} {n m : ℕ}

/-! ## The parser follows the grammar -/

theorem Derives.mono (h : Derives prec (.binary n) ts e) (hm : m ≤ n) :
    Derives prec (.binary m) ts e := by
  cases h with
  | unary h => exact .unary h
  | bin hn ha hb => exact .bin (Nat.le_trans hm hn) ha hb

theorem Derives.atoms_eq (h : Derives prec layer ts e) : e.atoms = ts.filterMap Tok.atom? := by
  induction h with
  | unary _ ih => exact ih
  | bin _ _ _ iha ihb =>
    rw [Tree.atoms, iha, ihb, filterMap_append]
    rfl
  | not _ ih => exact ih
  | paren _ ih =>
    rw [ih, cons_append, filterMap_cons, filterMap_append]
    exact (append_nil _).symm
  | atom a => rfl

/-- What the parser makes of a derivation: the left operand of what follows. -/
def Reads (prec : β → ℕ) : Layer → List (Tok β α) → Tree β α → Prop
  | .unary, ts, e => ∀ rest, unary prec (ts ++ rest) = some (e, rest)
  | .binary n, ts, e => ∀ p rest, p < n → next prec rest ≤ n →
    expression prec p (ts ++ rest) = binary prec p e rest

theorem Derives.reads (h : Derives prec layer ts e) : Reads prec layer ts e := by
  induction h with
  | unary _ ih =>
    intro p rest _ _
    rw [expression, ih rest]
    rfl
  | @bin n o l r a b hn _ _ iha ihb =>
    intro p rest hp hrest
    -- the left operand is read first; then the operator takes the right one
    have hleft : expression prec p (l ++ .op o :: (r ++ rest))
        = binary prec p a (.op o :: (r ++ rest)) :=
      iha p _ (by omega) (Nat.le_refl _)
    have hright : expression prec (prec o) (r ++ rest) = some (b, rest) := by
      rw [ihb (prec o) rest (Nat.lt_succ_self _) (by omega)]
      exact binary_of_next_le (Nat.le_trans hrest hn)
    rw [append_assoc, cons_append, hleft, binary_op (by omega), hright]
    rfl
  | not _ ih =>
    intro rest
    rw [cons_append, unary_not, ih rest]
    rfl
  | @paren ts e _ ih =>
    intro rest
    have hinner : expression prec 0 (ts ++ .rparen :: rest) = some (e, .rparen :: rest) := by
      have hnext : next prec (.rparen :: rest) = 0 := rfl
      rw [ih 0 _ Nat.zero_lt_one (by omega)]
      exact binary_of_next_le (Nat.le_of_eq hnext)
    rw [cons_append, cons_append, append_assoc, unary_lparen]
    show ((expression prec 0 (ts ++ .rparen :: rest)).bind _) = _
    rw [hinner]
    rfl
  | atom a => exact fun rest => unary_atom a

/-- What the parser returns after an operand of a layer, when no operator that
comes next binds tighter. -/
def Built (prec : β → ℕ) (ts : List (Tok β α)) (e : Tree β α)
    (rest : List (Tok β α)) : Mode β α → Prop
  | .unary => ∃ read, ts = read ++ rest ∧ Derives prec .unary read e
  | .binary p lhs => ∀ l m, Derives prec (.binary m) l lhs → p < m →
    next prec ts ≤ m → ∃ read, ts = read ++ rest
      ∧ Derives prec (.binary (p + 1)) (l ++ read) e ∧ next prec rest ≤ p

theorem built_of_climb {fuel : ℕ} {mode : Mode β α} (h : climb prec fuel mode ts = some (e, rest)) :
    Built prec ts e rest mode := by
  fun_induction climb prec fuel mode ts generalizing e rest with
  | case1 => cases h
  | case2 fuel ts ih =>
    obtain ⟨x, hx, hrest⟩ := map_eq_some_iff.1 h
    cases hrest
    obtain ⟨read, rfl, hread⟩ := ih hx
    exact ⟨.not :: read, rfl, .not hread⟩
  | case3 fuel ts ihx ihy =>
    obtain ⟨x, hx, hinner⟩ := bind_eq_some_iff.1 h
    obtain ⟨⟨y, tokens⟩, hy, hclose⟩ := bind_eq_some_iff.1 hinner
    obtain ⟨first, rfl, hfirst⟩ := ihx hx
    obtain ⟨second, hsecond, hparen, -⟩ := ihy x hy first
      (max 1 (next prec x.2)) (.unary hfirst) (by omega) (by omega)
    dsimp only at hclose
    split at hclose
    · cases hclose
      refine ⟨_, ?_, .paren hparen⟩
      rw [hsecond]
      simp
    · cases hclose
  | case4 fuel a ts =>
    cases h
    exact ⟨[.atom a], rfl, .atom a⟩
  | case5 => cases h
  | case6 fuel p lhs o ts hle =>
    cases h
    intro l m hl hp _
    exact ⟨[], rfl, by simpa using hl.mono hp, hle⟩
  | case7 fuel p lhs o ts hlt ihx ihy ihrest =>
    obtain ⟨x, hx, hbinary⟩ := bind_eq_some_iff.1 h
    obtain ⟨y, hy, hlast⟩ := bind_eq_some_iff.1 hbinary
    intro l m hl hp hnext
    obtain ⟨first, rfl, hfirst⟩ := ihx hx
    obtain ⟨second, hsecond, hright, hnext'⟩ := ihy x hy first
      (max (prec o + 1) (next prec x.2)) (.unary hfirst) (by omega) (by omega)
    -- the operator and its operands are the left operand of what follows
    have hbin : Derives prec (.binary (prec o))
        (l ++ .op o :: (first ++ second)) (.bin o lhs y.1) :=
      .bin (Nat.le_refl _) (hl.mono hnext) hright
    obtain ⟨third, hthird, he, hrest⟩ := ihrest y hlast _ (prec o) hbin (by omega) hnext'
    refine ⟨.op o :: (first ++ second) ++ third, ?_, ?_, hrest⟩
    · rw [hsecond, hthird]
      simp
    · rw [← append_assoc]
      exact he
  | case8 fuel p lhs ts hop =>
    cases h
    intro l m hl hp _
    refine ⟨[], rfl, by simpa using hl.mono hp, ?_⟩
    cases ts with
    | nil => exact zero_le p
    | cons t ts =>
      cases t with
      | op o => exact absurd rfl (hop o ts)
      | not => exact zero_le p
      | lparen => exact zero_le p
      | rparen => exact zero_le p
      | atom a => exact zero_le p

/-- **The parser and the grammar agree.** -/
theorem parse_eq_some_iff : parse prec ts = some e ↔ Derives prec (.binary 1) ts e := by
  constructor
  · intro h
    unfold parse at h
    split at h
    · next e' hexpression =>
      cases h
      obtain ⟨x, hx, hy⟩ := bind_eq_some_iff.1 hexpression
      obtain ⟨first, hts, hfirst⟩ := built_of_climb hx
      obtain ⟨second, hsecond, he, -⟩ := built_of_climb hy first
        (max 1 (next prec x.2)) (.unary hfirst) (by omega) (by omega)
      rw [hts, hsecond, append_nil]
      exact he
    · cases h
  · intro h
    have hread := h.reads 0 [] Nat.zero_lt_one (Nat.zero_le 1)
    rw [append_nil] at hread
    unfold parse
    rw [hread]
    rfl

end

end Precedence
