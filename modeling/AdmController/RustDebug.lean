import AdmController.HexDigits
import AdmController.RustCollections
import AdmController.SelfDelimiting

/-!
# Rust's `Debug` texts

What `{:?}` prints of strings, of optional values and of ordered sets. The
characters of a string are escaped; which ones are printed as they are is
decided by tables of Unicode (`printable`), on which nothing depends: the texts
are self-delimiting.
-/

namespace RustDebug

variable (printable : Char → Bool)

def letters : List (Char × Char) :=
  [('\x00', '0'), ('\t', 't'), ('\r', 'r'), ('\n', 'n'), ('"', '"'), ('\\', '\\')]

def letterOf (c : Char) : Option Char := (letters.find? (·.1 = c)).map Prod.snd

def escapeChar (c : Char) : List Char :=
  match letterOf c with
  | some letter => ['\\', letter]
  | none =>
    if printable c then [c]
    else ['\\', 'u', '\x7b'] ++ (hexNumber c.toNat ++ ['\x7d'])

def debugStr (s : String) : List Char := '"' :: s.toList.flatMap (escapeChar printable) ++ ['"']

def debugOption {α : Type} (debug : α → List Char) : Option α → List Char
  | none => "None".toList
  | some a => "Some(".toList ++ debug a ++ [')']

def debugSet {α : Type} [LT α] (debug : α → List Char) (s : BTreeSet α) : List Char :=
  '\x7b' :: ([',', ' '].intercalate (s.elems.map debug) ++ ['\x7d'])

open List

/-! ## The texts are self-delimiting -/

theorem mem_letters_of_letterOf {c l : Char} (h : letterOf c = some l) : (c, l) ∈ letters := by
  obtain ⟨p, hfind, rfl⟩ := Option.map_eq_some_iff.1 h
  obtain rfl : p.1 = c := of_decide_eq_true
    (find?_some (p := fun q : Char × Char => decide (q.1 = c)) hfind)
  exact mem_of_find?_eq_some hfind

theorem eq_of_letterOf {c c' l : Char} (h : letterOf c = some l)
    (h' : letterOf c' = some l) : c = c' := by
  have hall : ∀ p ∈ letters, ∀ q ∈ letters, p.2 = q.2 → p.1 = q.1 := by decide
  exact hall _ (mem_letters_of_letterOf h) _ (mem_letters_of_letterOf h') rfl

-- the letter of a number
theorem letterOf_ne_u (c : Char) : letterOf c ≠ some 'u' := by
  intro h
  have hall : ∀ p ∈ letters, p.2 ≠ 'u' := by decide
  exact hall _ (mem_letters_of_letterOf h) rfl

theorem selfDelimiting_number : SelfDelimiting fun c : Char => hexNumber c.toNat ++ ['\x7d'] := by
  refine SelfDelimiting.endMark ?_ ?_
  · intro c c' heq
    exact Char.toNat_inj.1 (hexNumber_injective heq)
  · intro c hmem
    obtain ⟨d, hd, hdigit⟩ := exists_of_mem_hexNumber hmem
    have hnone : ∀ d : Fin 16, hexDigit d ≠ '\x7d' := by decide +kernel
    exact hnone ⟨d, hd⟩ hdigit

theorem ne_of_letterOf_eq_none {c : Char} (h : letterOf c = none) : c ≠ '"' ∧ c ≠ '\\' := by
  constructor
  · rintro rfl
    exact absurd h (by decide)
  · rintro rfl
    exact absurd h (by decide)

/-- **The characters of a string** are printed in a self-delimiting code. -/
theorem selfDelimiting_escapeChar : SelfDelimiting (escapeChar printable) := by
  intro c c' rest rest' heq
  unfold escapeChar at heq
  cases hl : letterOf c with
  | some l =>
    cases hl' : letterOf c' with
    | some l' =>
      simp only [hl, hl', cons_append, nil_append, cons.injEq, true_and] at heq
      obtain ⟨rfl, hrest⟩ := heq
      exact ⟨eq_of_letterOf hl hl', hrest⟩
    | none =>
      simp only [hl, hl'] at heq
      split_ifs at heq with hp
      · exact absurd (cons.inj heq).1.symm (ne_of_letterOf_eq_none hl').2
      · refine absurd ?_ (letterOf_ne_u c)
        rw [hl, (cons.inj (cons.inj heq).2).1]
  | none =>
    cases hl' : letterOf c' with
    | some l' =>
      simp only [hl, hl'] at heq
      split_ifs at heq with hp
      · exact absurd (cons.inj heq).1 (ne_of_letterOf_eq_none hl).2
      · refine absurd ?_ (letterOf_ne_u c')
        rw [hl', (cons.inj (cons.inj heq).2).1]
    | none =>
      simp only [hl, hl'] at heq
      split_ifs at heq with hp hp' hp'
      · exact cons.inj heq
      · exact absurd (cons.inj heq).1 (ne_of_letterOf_eq_none hl).2
      · exact absurd (cons.inj heq).1.symm (ne_of_letterOf_eq_none hl').2
      · exact (selfDelimiting_number.front _) _ _ _ _ heq

theorem escapeChar_neverBegins_quote : NeverBegins (escapeChar printable) '"' := by
  intro c rest rest' heq
  unfold escapeChar at heq
  cases hl : letterOf c with
  | some l =>
    simp only [hl] at heq
    exact absurd (cons.inj heq).1 (by decide)
  | none =>
    simp only [hl] at heq
    split_ifs at heq with hp
    · exact (ne_of_letterOf_eq_none hl).1 (cons.inj heq).1
    · exact absurd (cons.inj heq).1 (by decide)

theorem selfDelimiting_debugStr : SelfDelimiting (debugStr printable) := by
  have hlist := (selfDelimiting_escapeChar printable).listUntil
    (escapeChar_neverBegins_quote printable)
  exact (hlist.comp fun _ _ => String.toList_injective).front ['"']

section

variable {α : Type} {debug : α → List Char}

theorem selfDelimiting_debugOption (h : SelfDelimiting debug) :
    SelfDelimiting (debugOption debug) := by
  have hsome := (h.front "Some(".toList).behind [')']
  have hoption := hsome.option (m := 'N') "one".toList
    fun a rest rest' heq => absurd (cons.inj heq).1 (by decide)
  intro o o' rest rest' heq
  cases o <;> cases o' <;> exact hoption _ _ _ _ heq

theorem selfDelimiting_debugSet [LT α] (h : SelfDelimiting debug)
    (hend : NeverBegins debug '\x7d') :
    SelfDelimiting (debugSet debug) := by
  have hlist := h.separated [' '] hend (s := ',') (by decide)
  have helems : Function.Injective (BTreeSet.elems : BTreeSet α → List α) := by
    rintro ⟨elems, _⟩ ⟨elems', _⟩ rfl
    rfl
  exact (hlist.comp helems).front ['\x7b']

end

end RustDebug
