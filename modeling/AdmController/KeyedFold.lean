import Mathlib.Data.List.Induction

/-!
# Folds over keyed operations

A state holds one value for every key, and each operation is about at most one
key. Then the value of a key after a list of operations is decided by those on
that key (`foldl_frame`, `foldl_split`).
-/

namespace KeyedFold

open List

variable {σ α κ v : Type} {g : σ → κ → v} {key : α → Option κ} {f : σ → α → σ} {l : List α}

/-- **The frame rule.** Operations on other keys leave a key alone. -/
theorem foldl_frame (hframe : ∀ s a k, key a ≠ some k → g (f s a) k = g s k)
    {k : κ} (h : ∀ a ∈ l, key a ≠ some k) (s : σ) :
    g (l.foldl f s) k = g s k := by
  induction l generalizing s with
  | nil => rfl
  | cons a l ih =>
    rw [foldl_cons, ih (fun a' ha' => h a' (mem_cons_of_mem _ ha')),
      hframe s a k (h a mem_cons_self)]

theorem foldl_split (hframe : ∀ s a k, key a ≠ some k → g (f s a) k = g s k)
    {l l' : List α} {a : α} {k : κ} (h : ∀ a' ∈ l', key a' ≠ some k) (s : σ) :
    g ((l ++ a :: l').foldl f s) k = g (f (l.foldl f s) a) k := by
  rw [foldl_append, foldl_cons, foldl_frame hframe h]

theorem exists_last {k : κ} (h : ∃ a ∈ l, key a = some k) :
    ∃ l₁ a l₂, l = l₁ ++ a :: l₂ ∧ key a = some k ∧ ∀ a' ∈ l₂, key a' ≠ some k := by
  induction l with
  | nil =>
    obtain ⟨a, ha, -⟩ := h
    exact absurd ha not_mem_nil
  | cons b l ih =>
    by_cases hl : ∃ a ∈ l, key a = some k
    · obtain ⟨l₁, a, l₂, rfl, ha, hl₂⟩ := ih hl
      exact ⟨b :: l₁, a, l₂, rfl, ha, hl₂⟩
    · obtain ⟨a, ha, hkey⟩ := h
      rcases mem_cons.1 ha with rfl | ha
      · exact ⟨[], a, l, rfl, hkey, fun a' ha' hk => hl ⟨a', ha', hk⟩⟩
      · exact absurd ⟨a, ha, hkey⟩ hl

theorem exists_split_append_singleton {P : List α → α → Prop} {a : α} :
    (∃ l₁ a' l₂, l ++ [a] = l₁ ++ a' :: l₂ ∧ P l₁ a')
      ↔ (∃ l₁ a' l₂, l = l₁ ++ a' :: l₂ ∧ P l₁ a') ∨ P l a := by
  constructor
  · rintro ⟨l₁, a', l₂, h, hP⟩
    rcases eq_nil_or_concat l₂ with rfl | ⟨l₂, a'', rfl⟩
    · obtain ⟨rfl, ha⟩ := append_inj' h rfl
      exact .inr (singleton_inj.1 ha ▸ hP)
    · have h' : l ++ [a] = (l₁ ++ a' :: l₂) ++ [a''] := by simpa using h
      exact .inl ⟨l₁, a', l₂, (append_inj' h' rfl).1, hP⟩
  · rintro (⟨l₁, a', l₂, rfl, hP⟩ | hP)
    · exact ⟨l₁, a', l₂ ++ [a], by simp, hP⟩
    · exact ⟨l, a, [], rfl, hP⟩

end KeyedFold
