import Mathlib.Data.List.Forall2
import Mathlib.Data.List.Induction

/-!
# Rules for fallible programs

Programs that stop at their first error, in `Except ε`. The rules for loops are
`foldlM_ok_of_inv`, for an invariant of successful iterations, and
`foldlM_ok_of_total`, for a body that never fails under it.
-/

namespace Fallible

open List

variable {ε α β σ : Type} {x : Except ε α} {f : α → Except ε β}

theorem bind_eq_ok {b : β} : x >>= f = .ok b ↔ ∃ a, x = .ok a ∧ f a = .ok b := by
  cases x with
  | error e =>
    constructor
    · intro h; cases h
    · rintro ⟨a, ha, -⟩; cases ha
  | ok a =>
    constructor
    · intro h; exact ⟨a, rfl, h⟩
    · rintro ⟨a', ha, h⟩
      cases ha
      exact h

theorem bind_eq_error {e : ε} : x >>= f = .error e
    ↔ x = .error e ∨ ∃ a, x = .ok a ∧ f a = .error e := by
  cases x with
  | error e' =>
    show Except.error e' = .error e ↔ _
    simp
  | ok a =>
    show f a = .error e ↔ _
    simp

theorem map_eq_error {f : α → β} {e : ε} : x.map f = .error e ↔ x = .error e := by
  cases x with
  | error e' => simp [Except.map]
  | ok a => simp [Except.map]

theorem map_eq_ok {f : α → β} {b : β} : x.map f = .ok b ↔ ∃ a, x = .ok a ∧ f a = b := by
  cases x with
  | error e => simp [Except.map]
  | ok a => simp [Except.map]

theorem mapError_eq_ok {ε' : Type} {f : ε → ε'} {a : α} : x.mapError f = .ok a ↔ x = .ok a := by
  cases x with
  | error e => simp [Except.mapError]
  | ok a => simp [Except.mapError]

theorem mapError_eq_error {ε' : Type} {f : ε → ε'} {e' : ε'} :
    x.mapError f = .error e' ↔ ∃ e, x = .error e ∧ f e = e' := by
  cases x with
  | error e => simp [Except.mapError]
  | ok a => simp [Except.mapError]

variable {l : List α} {bs : List β}

theorem mapM_eq_ok_iff : l.mapM f = .ok bs ↔ List.Forall₂ (fun a b => f a = .ok b) l bs := by
  induction l generalizing bs with
  | nil =>
    rw [mapM_nil, forall₂_nil_left_iff]
    exact Except.ok.injEq [] bs ▸ eq_comm
  | cons a l ih =>
    rw [mapM_cons, bind_eq_ok, forall₂_cons_left_iff]
    refine exists_congr (fun b => ?_)
    rw [bind_eq_ok, ← exists_and_left]
    refine exists_congr (fun bs' => ?_)
    rw [ih]
    refine and_congr_right (fun _ => and_congr_right (fun _ => ?_))
    exact Except.ok.injEq (b :: bs') bs ▸ eq_comm

theorem mapM_congr {g : α → Except ε β} (h : ∀ a ∈ l, f a = g a) : l.mapM f = l.mapM g := by
  induction l with
  | nil => rfl
  | cons a l ih =>
    rw [mapM_cons, mapM_cons, h a mem_cons_self, ih fun b hb => h b (mem_cons_of_mem a hb)]

theorem mem_of_mapM_eq_ok (h : l.mapM f = .ok bs) {b : β} : b ∈ bs ↔ ∃ a ∈ l, f a = .ok b := by
  have hall := mapM_eq_ok_iff.1 h
  clear h
  induction hall with
  | nil => simp
  | @cons a b' l bs hab hall ih =>
    refine mem_cons.trans ((or_congr_right ih).trans ?_)
    rw [exists_mem_cons_iff, hab, Except.ok.injEq, eq_comm]

theorem exists_mapM_eq_ok : (∃ bs, l.mapM f = .ok bs) ↔ ∀ a ∈ l, ∃ b, f a = .ok b := by
  induction l with
  | nil => exact iff_of_true ⟨[], rfl⟩ (fun a ha => absurd ha not_mem_nil)
  | cons a l ih =>
    rw [forall_mem_cons, ← ih]
    simp only [mapM_eq_ok_iff, forall₂_cons_left_iff]
    constructor
    · rintro ⟨_, b, bs, hb, hbs, rfl⟩
      exact ⟨⟨b, hb⟩, bs, hbs⟩
    · rintro ⟨⟨b, hb⟩, bs, hbs⟩
      exact ⟨b :: bs, b, bs, hb, hbs, rfl⟩

theorem any_of_mapM_eq_ok {p : α → Bool} {q : β → Bool}
    (hf : ∀ a ∈ l, ∀ b, f a = .ok b → q b = p a) (h : l.mapM f = .ok bs) :
    bs.any q = l.any p := by
  induction mapM_eq_ok_iff.1 h with
  | nil => rfl
  | @cons a b l bs hb hbs ih =>
    rw [any_cons, any_cons, hf a mem_cons_self b hb,
      ih (fun a' ha' => hf a' (mem_cons_of_mem a ha')) (mapM_eq_ok_iff.2 hbs)]

theorem length_of_mapM_eq_ok (h : l.mapM f = .ok bs) : bs.length = l.length :=
  (mapM_eq_ok_iff.1 h).length_eq.symm

theorem forM_eq_ok_iff {f : α → Except ε Unit} : l.forM f = .ok () ↔ ∀ a ∈ l, f a = .ok () := by
  induction l with
  | nil => exact iff_of_true rfl (fun a ha => absurd ha not_mem_nil)
  | cons a l ih =>
    show (f a >>= fun _ => l.forM f) = .ok () ↔ _
    rw [bind_eq_ok, forall_mem_cons, ← ih]
    constructor
    · rintro ⟨u, ha, hl⟩
      exact ⟨ha, hl⟩
    · rintro ⟨ha, hl⟩
      exact ⟨(), ha, hl⟩

variable {f : σ → α → Except ε σ}

/-! ## Loops -/

theorem foldlM_flatMap {g : β → List α} (l : List β) (s : σ) :
    (l.flatMap g).foldlM f s = l.foldlM (fun s b => (g b).foldlM f s) s := by
  induction l generalizing s with
  | nil => rfl
  | cons b l ih =>
    rw [flatMap_cons, foldlM_append, foldlM_cons]
    exact congrArg _ (funext ih)

theorem foldlM_append_eq_ok {l' : List α} {s s' : σ} :
    (l ++ l').foldlM f s = .ok s' ↔ ∃ m, l.foldlM f s = .ok m ∧ l'.foldlM f m = .ok s' := by
  rw [foldlM_append, bind_eq_ok]

theorem foldlM_singleton {a : α} {s : σ} : [a].foldlM f s = f s a := by
  rw [foldlM_cons]
  cases f s a with
  | error e => rfl
  | ok s' => rfl

/-- **The invariant rule**, for invariants about the processed part of the list:
what holds initially and is kept holds of the final state. -/
theorem foldlM_ok_of_inv {P : List α → σ → Prop} {s₀ : σ} (hinit : P [] s₀)
    (hstep : ∀ l s a s', P l s → f s a = .ok s' → P (l ++ [a]) s') {s : σ}
    (h : l.foldlM f s₀ = .ok s) : P l s := by
  induction l using reverseRecOn generalizing s with
  | nil => cases h; exact hinit
  | append_singleton l a ih =>
    obtain ⟨m, hm, ha⟩ := foldlM_append_eq_ok.1 h
    rw [foldlM_singleton] at ha
    exact hstep l m a s (ih hm) ha

/-- **The totality rule**: a loop succeeds when no iteration fails. -/
theorem foldlM_ok_of_total {P : σ → Prop} {s₀ : σ}
    (hinit : P s₀) (hstep : ∀ a ∈ l, ∀ s, P s → ∃ s', f s a = .ok s' ∧ P s') :
    ∃ s, l.foldlM f s₀ = .ok s := by
  induction l generalizing s₀ with
  | nil => exact ⟨s₀, rfl⟩
  | cons a l ih =>
    obtain ⟨s₁, hs₁, hP⟩ := hstep a mem_cons_self s₀ hinit
    obtain ⟨s, hs⟩ := ih hP (fun a' ha' => hstep a' (mem_cons_of_mem _ ha'))
    refine ⟨s, ?_⟩
    rw [foldlM_cons, hs₁]
    exact hs

theorem exists_of_foldlM_eq_error {s : σ} {e : ε} (h : l.foldlM f s = .error e) :
    ∃ a ∈ l, ∃ s', f s' a = .error e := by
  induction l generalizing s with
  | nil => cases h
  | cons a l ih =>
    rw [foldlM_cons] at h
    cases hs : f s a with
    | error e' =>
      rw [hs] at h
      cases h
      exact ⟨a, mem_cons_self, s, hs⟩
    | ok s' =>
      rw [hs] at h
      obtain ⟨a', ha', hf⟩ := ih h
      exact ⟨a', mem_cons_of_mem _ ha', hf⟩

theorem isSome_eq_of_rel {r : α → β → Prop} {a : Option α} {b : Option β}
    (h : Option.Rel r a b) : a.isSome = b.isSome := by
  cases h <;> rfl

theorem forall_some_iff_of_rel {r : α → β → Prop} {a : Option α} {b : Option β} {p : α → Prop}
    {q : β → Prop} (h : Option.Rel r a b) (hr : ∀ x y, r x y → (p x ↔ q y)) :
    (∀ x, a = some x → p x) ↔ ∀ y, b = some y → q y := by
  cases h with
  | none => simp
  | some h => simpa using hr _ _ h

end Fallible
