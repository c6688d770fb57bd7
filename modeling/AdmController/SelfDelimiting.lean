import Mathlib.Logic.Function.Basic

/-!
# Self-delimiting codes

A code is self-delimiting if a text that begins with a code word does so in one
way only. Such codes are injective, and can be put side by side.
-/

open List

variable {α β γ τ : Type}

/-- **A self-delimiting code.** -/
def SelfDelimiting (enc : α → List τ) : Prop :=
  ∀ a b rest rest', enc a ++ rest = enc b ++ rest' → a = b ∧ rest = rest'

def NeverBegins (enc : α → List τ) (mark : τ) : Prop :=
  ∀ a rest rest', enc a ++ rest ≠ mark :: rest'

namespace SelfDelimiting

variable {enc : α → List τ} {enc' : β → List τ}

theorem injective (h : SelfDelimiting enc) : Function.Injective enc :=
  fun a b heq => (h a b [] [] (congrArg (· ++ []) heq)).1

theorem comp (h : SelfDelimiting enc) {f : γ → α}
    (hf : Function.Injective f) : SelfDelimiting fun c => enc (f c) := by
  intro c c' rest rest' heq
  obtain ⟨hvalue, hrest⟩ := h _ _ _ _ heq
  exact ⟨hf hvalue, hrest⟩

/-- **An end mark**: injective words that do not contain it. -/
theorem endMark {m : τ} (hinj : Function.Injective enc)
    (hm : ∀ a, m ∉ enc a) : SelfDelimiting fun a => enc a ++ [m] := by
  have hcut : ∀ v w rest rest' : List τ, m ∉ v → m ∉ w →
      v ++ m :: rest = w ++ m :: rest' → v = w ∧ rest = rest' := by
    intro v
    induction v with
    | nil =>
      intro w rest rest' _ hw heq
      cases w with
      | nil => exact ⟨rfl, (cons.inj heq).2⟩
      | cons x w => exact absurd ((cons.inj heq).1 ▸ mem_cons_self) hw
    | cons x v ih =>
      intro w rest rest' hv hw heq
      cases w with
      | nil => exact absurd ((cons.inj heq).1 ▸ mem_cons_self) hv
      | cons y w =>
        obtain ⟨rfl, htail⟩ := cons.inj heq
        obtain ⟨rfl, hrest⟩ := ih w rest rest' (fun h => hv (mem_cons_of_mem _ h))
          (fun h => hw (mem_cons_of_mem _ h)) htail
        exact ⟨rfl, hrest⟩
  intro a b rest rest' heq
  rw [append_assoc, append_assoc, singleton_append, singleton_append] at heq
  obtain ⟨hword, hrest⟩ := hcut _ _ _ _ (hm a) (hm b) heq
  exact ⟨hinj hword, hrest⟩

theorem front (h : SelfDelimiting enc) (w : List τ) : SelfDelimiting fun a => w ++ enc a := by
  intro a b rest rest' heq
  rw [append_assoc, append_assoc] at heq
  exact h _ _ _ _ (append_cancel_left heq)

theorem behind (h : SelfDelimiting enc) (w : List τ) : SelfDelimiting fun a => enc a ++ w := by
  intro a b rest rest' heq
  rw [append_assoc, append_assoc] at heq
  obtain ⟨hvalue, hrest⟩ := h _ _ _ _ heq
  exact ⟨hvalue, append_cancel_left hrest⟩

theorem pair (h : SelfDelimiting enc) (h' : SelfDelimiting enc') :
    SelfDelimiting fun p : α × β => enc p.1 ++ enc' p.2 := by
  intro p q rest rest' heq
  rw [append_assoc, append_assoc] at heq
  obtain ⟨hfirst, hrest⟩ := h _ _ _ _ heq
  obtain ⟨hsecond, hrest⟩ := h' _ _ _ _ hrest
  exact ⟨Prod.ext hfirst hsecond, hrest⟩

/-- **An optional value**: the word of no value begins differently. -/
theorem option (h : SelfDelimiting enc) {m : τ} (w : List τ) (hm : NeverBegins enc m) :
    SelfDelimiting fun o : Option α => o.elim (m :: w) enc := by
  intro o o' rest rest' heq
  cases o with
  | none =>
    cases o' with
    | none => exact ⟨rfl, append_cancel_left heq⟩
    | some b => exact absurd heq.symm (hm _ _ _)
  | some a =>
    cases o' with
    | none => exact absurd heq (hm _ _ _)
    | some b =>
      obtain ⟨hvalue, hrest⟩ := h _ _ _ _ heq
      exact ⟨congrArg some hvalue, hrest⟩

/-- **A list up to an end mark.** -/
theorem listUntil (h : SelfDelimiting enc) {m : τ} (hm : NeverBegins enc m) :
    SelfDelimiting fun l : List α => l.flatMap enc ++ [m] := by
  intro l
  induction l with
  | nil =>
    intro l' rest rest' heq
    cases l' with
    | nil => exact ⟨rfl, append_cancel_left heq⟩
    | cons b l' =>
      simp only [flatMap_cons, append_assoc] at heq
      exact absurd heq.symm (hm _ _ _)
  | cons a l ih =>
    intro l' rest rest' heq
    cases l' with
    | nil =>
      simp only [flatMap_cons, append_assoc] at heq
      exact absurd heq (hm _ _ _)
    | cons b l' =>
      simp only [flatMap_cons, append_assoc] at heq
      obtain ⟨rfl, hrest⟩ := h _ _ _ _ heq
      rw [← append_assoc, ← append_assoc (l'.flatMap enc)] at hrest
      obtain ⟨rfl, hend⟩ := ih _ _ _ hrest
      exact ⟨rfl, hend⟩

theorem intercalate_eq (sep : List τ) (a : α) (l : List α) : sep.intercalate ((a :: l).map enc)
    = enc a ++ l.flatMap fun b => sep ++ enc b := by
  induction l generalizing a with
  | nil => simp
  | cons b l ih =>
    rw [map_cons, map_cons, intercalate_cons_cons, ← map_cons, ih, flatMap_cons]
    simp only [append_assoc]

/-- **A list with separators up to an end mark** that begins nothing else. -/
theorem separated (h : SelfDelimiting enc) {s m : τ} (sep : List τ)
    (hm : NeverBegins enc m) (hs : s ≠ m) :
    SelfDelimiting fun l : List α =>
      (s :: sep).intercalate (l.map enc) ++ [m] := by
  have hrest : SelfDelimiting fun l : List α =>
      l.flatMap (fun b => (s :: sep) ++ enc b) ++ [m] :=
    (h.front (s :: sep)).listUntil fun b rest rest' heq =>
      hs (cons.inj heq).1
  intro l l' rest rest' heq
  cases l with
  | nil =>
    cases l' with
    | nil => exact ⟨rfl, append_cancel_left heq⟩
    | cons b l' =>
      simp only [intercalate_eq, append_assoc] at heq
      exact absurd heq.symm (hm _ _ _)
  | cons a l =>
    cases l' with
    | nil =>
      simp only [intercalate_eq, append_assoc] at heq
      exact absurd heq (hm _ _ _)
    | cons b l' =>
      simp only [intercalate_eq, append_assoc] at heq
      obtain ⟨rfl, htail⟩ := h _ _ _ _ heq
      rw [← append_assoc, ← append_assoc (l'.flatMap _)] at htail
      obtain ⟨rfl, hend⟩ := hrest _ _ _ _ htail
      exact ⟨rfl, hend⟩

end SelfDelimiting
