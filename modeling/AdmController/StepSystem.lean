import Mathlib.Data.List.Basic

/-!
# Step systems and their runs

A step system is a partial function `step : σ → ℓ → Option σ`; its runs are
lists of labels, and the interleavings of concurrent activities. What holds
initially and is kept by every step holds at the end (`run_induction`).
-/

namespace StepSystem

variable {σ ℓ : Type*} (step : σ → ℓ → Option σ)

def run : σ → List ℓ → Option σ
  | s, [] => some s
  | s, l :: ls => (step s l).bind (fun s' => run s' ls)

def Along (P : σ → ℓ → Prop) : σ → List ℓ → Prop
  | _, [] => True
  | s, l :: ls => P s l ∧ ∀ s', step s l = some s' → Along P s' ls

open Option

theorem run_append (s : σ) (ls ls' : List ℓ) : run step s (ls ++ ls')
    = (run step s ls).bind (fun m => run step m ls') := by
  induction ls generalizing s with
  | nil => rfl
  | cons l ls ih =>
    show (step s l).bind (fun m => run step m (ls ++ ls')) = _
    simp only [ih]
    exact (bind_assoc _ _ _).symm

variable {ls : List ℓ} {s : σ} {P : σ → ℓ → Prop}

theorem Along.append {m : σ} {ls' : List ℓ} (h : Along step P s (ls ++ ls'))
    (hm : run step s ls = some m) :
    Along step P s ls ∧ Along step P m ls' := by
  induction ls generalizing s with
  | nil =>
    cases hm
    exact ⟨trivial, h⟩
  | cons l ls ih =>
    rw [run, bind_eq_some_iff] at hm
    obtain ⟨s', hs', hrun⟩ := hm
    obtain ⟨hP, hnext⟩ := h
    refine ⟨⟨hP, fun t ht => ?_⟩, (ih (hnext s' hs') hrun).2⟩
    rw [hs'] at ht
    cases ht
    exact (ih (hnext s' hs') hrun).1

variable {I : σ → Prop} {s' : σ}

/-- **Run induction.** What every step that meets the condition keeps holds at
the end of every run along which it is met. -/
theorem run_induction (hstep : ∀ s l s', I s → P s l → step s l = some s' → I s')
    (hI : I s) (hP : Along step P s ls) (hrun : run step s ls = some s') :
    I s' := by
  induction ls generalizing s with
  | nil =>
    cases hrun
    exact hI
  | cons l ls ih =>
    rw [run, bind_eq_some_iff] at hrun
    obtain ⟨m, hm, hrest⟩ := hrun
    obtain ⟨hPl, hnext⟩ := hP
    exact ih (hstep s l m hI hPl hm) (hnext m hm) hrest

theorem along_of_always (h : ∀ s l, P s l) (s : σ) (ls : List ℓ) : Along step P s ls := by
  induction ls generalizing s with
  | nil => trivial
  | cons l ls ih => exact ⟨h s l, fun s' _ => ih s'⟩

/-- **Invariants.** What every step keeps holds at the end of every run. -/
theorem run_invariant (hstep : ∀ s l s', I s → step s l = some s' → I s')
    (hI : I s) (hrun : run step s ls = some s') : I s' :=
  run_induction step (fun s l s' hs _ => hstep s l s' hs) hI
    (along_of_always step (fun _ _ => trivial) s ls) hrun

theorem along_of_forall {Q : σ → ℓ → Prop} (h : ∀ l ∈ ls, ∀ s, P s l) (hQ : Along step Q s ls) :
    Along step (fun s l => P s l ∧ Q s l) s ls := by
  induction ls generalizing s with
  | nil => trivial
  | cons l ls ih =>
    obtain ⟨hQl, hnext⟩ := hQ
    refine ⟨⟨h l List.mem_cons_self s, hQl⟩, fun s' hs' => ?_⟩
    exact ih (fun l' hl' => h l' (List.mem_cons_of_mem l hl')) (hnext s' hs')

/-- **Invariants of runs of some labels**, kept by their steps. -/
theorem run_invariant_of_forall {Q : ℓ → Prop}
    (hstep : ∀ s l s', I s → Q l → step s l = some s' → I s')
    (hI : I s) (hQ : ∀ l ∈ ls, Q l) (hrun : run step s ls = some s') : I s' :=
  run_induction step (fun s l s' hs hl => hstep s l s' hs hl.1) hI
    (along_of_forall step (fun l hl _ => hQ l hl)
      (along_of_always step (fun _ _ => trivial) s ls)) hrun

/-! ## Bounded runs -/

/-- **Bounded runs.** A run is no longer than the work that each of its steps
does some of. -/
theorem run_length_le {work : σ → ℕ} (hinv : ∀ s l s', I s → P s l →
      step s l = some s' → I s') (hwork : ∀ s l s', I s → step s l = some s' → work s' < work s)
    (hs : I s) (hsafe : Along step P s ls) (hrun : run step s ls = some s') :
    ls.length + work s' ≤ work s := by
  induction ls generalizing s with
  | nil =>
    cases hrun
    simp
  | cons l ls ih =>
    rw [run, bind_eq_some_iff] at hrun
    obtain ⟨m, hm, hrest⟩ := hrun
    have := ih (hinv s l m hs hsafe.1 hm) (hsafe.2 m hm) hrest
    have := hwork s l m hs hm
    simp only [List.length_cons]
    omega

/-- **What holds exactly if a condition was met along the run**: if this is so
for every step, it is so for every run. -/
theorem run_iff_along {Q : σ → Prop}
    (hstep : ∀ s l s', I s → step s l = some s' → I s' ∧ (Q s' ↔ Q s ∧ P s l))
    (hI : I s) (hrun : run step s ls = some s') :
    Q s' ↔ Q s ∧ Along step P s ls := by
  induction ls generalizing s with
  | nil =>
    cases hrun
    exact (and_iff_left trivial).symm
  | cons l ls ih =>
    rw [run, bind_eq_some_iff] at hrun
    obtain ⟨m, hm, hrest⟩ := hrun
    obtain ⟨hIm, hQm⟩ := hstep s l m hI hm
    have hnext : (∀ t, step s l = some t → Along step P t ls) ↔ Along step P m ls := by
      rw [hm]
      exact ⟨fun h => h m rfl, fun h t ht => some.inj ht ▸ h⟩
    rw [ih hIm hrest, hQm, and_assoc, Along, hnext]

end StepSystem
