import Mathlib.Data.List.Induction

/-!
# Programs that act on an outside world

A program `Prog W ε α` is run in a state `W` of its outside world, and ends
with a value, an error, or a panic. The rules say what a run that ends with a
value went through: `bind_eq_ok` and its companions, and `foldlM_ok_of_inv` for
loops.
-/

open List

inductive Outcome (ε α : Type) where
  | ok (a : α)
  | error (e : ε)
  | panic
deriving DecidableEq

namespace Outcome

variable {ε α β : Type}

instance : Monad (Outcome ε) where
  pure := .ok
  bind x f :=
    match x with
    | .ok a => f a
    | .error e => .error e
    | .panic => .panic

def ofExcept : Except ε α → Outcome ε α
  | .ok a => .ok a
  | .error e => .error e

def isOk : Outcome ε α → Bool
  | .ok _ => true
  | .error _ => false
  | .panic => false

theorem exists_of_isOk {W : Type} {r : Outcome ε α × W}
    (h : r.1.isOk = true) : ∃ a w', r = (.ok a, w') := by
  rcases r with ⟨a | e | _, w'⟩
  · exact ⟨a, w', rfl⟩
  · cases h
  · cases h

theorem pure_ne_panic (a : α) : (pure a : Outcome ε α) ≠ .panic := by
  rintro ⟨⟩

/-! ## Runs that end with a value -/

theorem bind_eq_ok {x : Outcome ε α} {f : α → Outcome ε β} {b : β} :
    x >>= f = .ok b ↔ ∃ a, x = .ok a ∧ f a = .ok b := by
  cases x with
  | ok a =>
    show f a = .ok b ↔ _
    simp
  | error e => exact iff_of_false (by rintro ⟨⟩) (by simp)
  | panic => exact iff_of_false (by rintro ⟨⟩) (by simp)

theorem bind_eq_panic {x : Outcome ε α} {f : α → Outcome ε β} :
    x >>= f = .panic ↔ x = .panic ∨ ∃ a, x = .ok a ∧ f a = .panic := by
  cases x with
  | ok a =>
    show f a = .panic ↔ _
    simp
  | error e =>
    simp
  | panic => exact iff_of_true rfl (.inl rfl)

theorem ofExcept_eq_ok {x : Except ε α} {a : α} : ofExcept x = .ok a ↔ x = .ok a := by
  cases x with
  | ok b => simp [ofExcept]
  | error e => simp [ofExcept]

theorem ofExcept_ne_panic (x : Except ε α) : ofExcept x ≠ .panic := by
  cases x with
  | ok a => rintro ⟨⟩
  | error e => rintro ⟨⟩

end Outcome

/-- **A program**: from a state of the world to an outcome and a state. -/
def Prog (W ε α : Type) := W → Outcome ε α × W

namespace Prog

variable {W ε ε' α β σ : Type}

instance : Monad (Prog W ε) where
  pure a := fun w => (.ok a, w)
  bind x f := fun w =>
    match x w with
    | (.ok a, w') => f a w'
    | (.error e, w') => (.error e, w')
    | (.panic, w') => (.panic, w')

def throw (e : ε) : Prog W ε α := fun w => (.error e, w)

def panic : Prog W ε α := fun w => (.panic, w)

def ofExcept : Except ε α → Prog W ε α
  | .ok a => pure a
  | .error e => throw e

def ofOutcome (x : Outcome ε α) : Prog W ε α := fun w => (x, w)

def ask (f : W → α × W) : Prog W ε α := fun w => (.ok (f w).1, (f w).2)

def mapError (x : Prog W ε α) (f : ε → ε') : Prog W ε' α := fun w =>
  match x w with
  | (.ok a, w') => (.ok a, w')
  | (.error e, w') => (.error (f e), w')
  | (.panic, w') => (.panic, w')

def attempt (x : Prog W ε α) : Prog W ε' (Except ε α) := fun w =>
  match x w with
  | (.ok a, w') => (.ok (.ok a), w')
  | (.error e, w') => (.ok (.error e), w')
  | (.panic, w') => (.panic, w')

theorem bind_apply (x : Prog W ε α) (f : α → Prog W ε β) (w : W) : (x >>= f) w = match x w with
      | (.ok a, w') => f a w'
      | (.error e, w') => (.error e, w')
      | (.panic, w') => (.panic, w') :=
  rfl

variable {x : Prog W ε α} {w w' : W} {e : ε}

theorem bind_of_error (h : x w = (.error e, w')) (f : α → Prog W ε β) :
    (x >>= f) w = (.error e, w') := by
  rw [bind_apply, h]

variable {a : α}

theorem bind_of_ok (h : x w = (.ok a, w')) (f : α → Prog W ε β) : (x >>= f) w = f a w' := by
  rw [bind_apply, h]

instance : LawfulMonad (Prog W ε) := by
  refine LawfulMonad.mk' _ ?_ ?_ ?_
  · intro α x
    funext w
    show (x >>= pure) w = x w
    rw [bind_apply]
    rcases x w with ⟨_ | _ | _, w'⟩ <;> rfl
  · intro α β a f
    rfl
  · intro α β γ x f g
    funext w
    rw [bind_apply, bind_apply, bind_apply]
    rcases x w with ⟨_ | _ | _, w'⟩ <;> rfl

variable {f : α → Prog W ε β}

theorem bind_eq_ok {b : β} : (x >>= f) w = (.ok b, w')
    ↔ ∃ a w₁, x w = (.ok a, w₁) ∧ f a w₁ = (.ok b, w') := by
  rw [bind_apply]
  rcases x w with ⟨a | e | _, w₁⟩ <;> simp

theorem bind_eq_error : (x >>= f) w = (.error e, w') ↔ x w = (.error e, w')
    ∨ ∃ a w₁, x w = (.ok a, w₁) ∧ f a w₁ = (.error e, w') := by
  rw [bind_apply]
  rcases x w with ⟨a | e | _, w₁⟩ <;> simp

variable {b : α}

theorem pure_eq_ok : (pure a : Prog W ε α) w = (.ok b, w') ↔ a = b ∧ w = w' := by
  show (Outcome.ok a, w) = (.ok b, w') ↔ _
  simp

theorem throw_ne_ok : (throw e : Prog W ε α) w ≠ (.ok b, w') := by
  rintro ⟨⟩

theorem panic_ne_ok : (panic : Prog W ε α) w ≠ (.ok b, w') := by
  rintro ⟨⟩

theorem ofExcept_eq_ok {x : Except ε α} :
    (ofExcept x : Prog W ε α) w = (.ok b, w') ↔ x = .ok b ∧ w = w' := by
  cases x with
  | ok a =>
    rw [Except.ok.injEq]
    exact pure_eq_ok
  | error e => exact iff_of_false throw_ne_ok (by rintro ⟨⟨⟩, -⟩)

theorem ofExcept_eq_error {x : Except ε α} :
    (ofExcept x : Prog W ε α) w = (.error e, w') ↔ x = .error e ∧ w = w' := by
  cases x with
  | ok a => exact iff_of_false (by rintro ⟨⟩) (by rintro ⟨⟨⟩, -⟩)
  | error e' =>
    show (Outcome.error e', w) = (.error e, w') ↔ _
    simp

theorem ofOutcome_eq_ok {x : Outcome ε α} :
    (ofOutcome x : Prog W ε α) w = (.ok b, w') ↔ x = .ok b ∧ w = w' := by
  show (x, w) = (.ok b, w') ↔ _
  rw [Prod.mk.injEq]

theorem ask_eq_ok {f : W → α × W} : (ask f : Prog W ε α) w = (.ok b, w') ↔ f w = (b, w') := by
  show (Outcome.ok (f w).1, (f w).2) = (.ok b, w') ↔ _
  rw [Prod.mk.injEq, Outcome.ok.injEq, Prod.ext_iff]

theorem mapError_eq_ok {f : ε → ε'} : x.mapError f w = (.ok a, w') ↔ x w = (.ok a, w') := by
  unfold mapError
  rcases x w with ⟨_ | _ | _, w₁⟩ <;> simp

theorem mapError_eq_error {f : ε → ε'} {e' : ε'} : x.mapError f w = (.error e', w')
    ↔ ∃ e, x w = (.error e, w') ∧ f e = e' := by
  unfold mapError
  rcases x w with ⟨_ | _ | _, w₁⟩ <;> simp [and_comm]

def Returns (x : Prog W ε α) (w : W) : Except ε α → W → Prop
  | .ok a, w' => x w = (.ok a, w')
  | .error e, w' => x w = (.error e, w')

theorem Returns.eq {r r' : Except ε α} {w₁ w₂ : W} (h : x.Returns w r w₁)
    (h' : x.Returns w r' w₂) : r = r' := by
  cases r with
  | ok a =>
    cases r' with
    | ok a' => cases h.symm.trans h'; rfl
    | error e' => cases h.symm.trans h'
  | error e =>
    cases r' with
    | ok a' => cases h.symm.trans h'
    | error e' => cases h.symm.trans h'; rfl

theorem attempt_eq_ok {r : Except ε α} : (attempt x : Prog W ε' (Except ε α)) w = (.ok r, w')
    ↔ x.Returns w r w' := by
  unfold attempt
  cases r with
  | ok a =>
    show _ ↔ x w = (.ok a, w')
    rcases x w with ⟨_ | _ | _, w₁⟩ <;> simp
  | error e =>
    show _ ↔ x w = (.error e, w')
    rcases x w with ⟨_ | _ | _, w₁⟩ <;> simp

/-! ## Programs that never panic -/

/-- **A program never panics**, in no world. -/
def NoPanic (x : Prog W ε α) : Prop := ∀ w, ∃ r w', x.Returns w r w'

theorem noPanic_pure (a : α) : (pure a : Prog W ε α).NoPanic := fun w => ⟨.ok a, w, rfl⟩

theorem noPanic_throw (e : ε) : (throw e : Prog W ε α).NoPanic := fun w => ⟨.error e, w, rfl⟩

theorem noPanic_ofExcept (x : Except ε α) : (ofExcept x : Prog W ε α).NoPanic := by
  cases x with
  | ok a => exact noPanic_pure a
  | error e => exact noPanic_throw e

theorem noPanic_ofOutcome {x : Outcome ε α} (h : x ≠ .panic) :
    (ofOutcome x : Prog W ε α).NoPanic := by
  cases x with
  | ok a => exact noPanic_pure a
  | error e => exact noPanic_throw e
  | panic => exact absurd rfl h

theorem noPanic_ask (f : W → α × W) : (ask f : Prog W ε α).NoPanic :=
  fun w => ⟨.ok (f w).1, (f w).2, rfl⟩

theorem NoPanic.bind (hx : x.NoPanic) (hf : ∀ a, (∃ w w', x w = (.ok a, w')) → (f a).NoPanic) :
    (x >>= f).NoPanic := by
  intro w
  obtain ⟨r, w₁, hr⟩ := hx w
  cases r with
  | ok a =>
    obtain ⟨r', w₂, hr'⟩ := hf a ⟨w, w₁, hr⟩ w₁
    refine ⟨r', w₂, ?_⟩
    have hbind : (x >>= f) w = f a w₁ := by rw [bind_apply, show x w = (.ok a, w₁) from hr]
    cases r' with
    | ok b => exact hbind.trans hr'
    | error e => exact hbind.trans hr'
  | error e =>
    refine ⟨.error e, w₁, ?_⟩
    show (x >>= f) w = (.error e, w₁)
    rw [bind_apply, show x w = (.error e, w₁) from hr]

theorem NoPanic.mapError (h : x.NoPanic) (f : ε → ε') : (x.mapError f).NoPanic := by
  intro w
  obtain ⟨r, w', hr⟩ := h w
  cases r with
  | ok a => exact ⟨.ok a, w', mapError_eq_ok.2 hr⟩
  | error e =>
    refine ⟨.error (f e), w', ?_⟩
    show x.mapError f w = (.error (f e), w')
    rw [Prog.mapError, show x w = (.error e, w') from hr]

theorem NoPanic.attempt (h : x.NoPanic) : (x.attempt : Prog W ε' (Except ε α)).NoPanic := by
  intro w
  obtain ⟨r, w', hr⟩ := h w
  exact ⟨.ok r, w', attempt_eq_ok.2 hr⟩

/-! ## Invariants and parts of the world

A program may leave a part of the world alone – files, while servers are
contacted. `Keeps view x` says that what is seen of the world through `view`
is the same after a run of the program, however it ends. -/

section

variable {V : Type} {view : W → V} {I : W → Prop}

/-! ## Invariants and parts of the world -/

/-- **The program maintains an invariant**, however it ends. -/
def Maintains (I : W → Prop) (x : Prog W ε α) : Prop := ∀ w, I w → I (x w).2

/-- **The program leaves a part of the world alone.** -/
def Keeps (view : W → V) (x : Prog W ε α) : Prop := ∀ w, view (x w).2 = view w

theorem maintains_pure (a : α) : Maintains I (pure a : Prog W ε α) := fun _ hw => hw

theorem maintains_ofExcept (x : Except ε α) : Maintains I (ofExcept x : Prog W ε α) := by
  cases x <;> exact fun _ hw => hw

theorem keeps_pure (a : α) : Keeps view (pure a : Prog W ε α) := fun _ => rfl

theorem keeps_throw (e : ε) : Keeps view (throw e : Prog W ε α) := fun _ => rfl

theorem keeps_ofExcept (x : Except ε α) : Keeps view (ofExcept x : Prog W ε α) :=
  fun w => maintains_ofExcept (I := fun w' => view w' = view w) x w rfl

variable {x : Prog W ε α}

theorem Maintains.bind {f : α → Prog W ε β} (hx : Maintains I x)
    (hf : ∀ a, Maintains I (f a)) : Maintains I (x >>= f) := by
  intro w hw
  have hxw := hx w hw
  rw [bind_apply]
  rcases h : x w with ⟨a | e | _, w₁⟩
  · rw [h] at hxw
    exact hf a w₁ hxw
  · rwa [h] at hxw
  · rwa [h] at hxw

theorem Maintains.mapError (hx : Maintains I x) (f : ε → ε') : Maintains I (x.mapError f) := by
  intro w hw
  have hxw := hx w hw
  unfold Prog.mapError
  rcases h : x w with ⟨a | e | _, w₁⟩
  all_goals rwa [h] at hxw

theorem Maintains.attempt (hx : Maintains I x) :
    Maintains I (x.attempt : Prog W ε' (Except ε α)) := by
  intro w hw
  have hxw := hx w hw
  unfold Prog.attempt
  rcases h : x w with ⟨a | e | _, w₁⟩
  all_goals rwa [h] at hxw

theorem Keeps.maintains (hx : Keeps view x) (J : V → Prop) : Maintains (fun w => J (view w)) x := by
  intro w hw
  rwa [hx w]

theorem Keeps.bind {f : α → Prog W ε β} (hx : Keeps view x)
    (hf : ∀ a, Keeps view (f a)) : Keeps view (x >>= f) :=
  fun w => (hx.maintains (· = view w)).bind (fun a => (hf a).maintains (· = view w)) w rfl

theorem Keeps.mapError (hx : Keeps view x) (f : ε → ε') : Keeps view (x.mapError f) :=
  fun w => (hx.maintains (· = view w)).mapError f w rfl

theorem Keeps.attempt (hx : Keeps view x) : Keeps view (x.attempt : Prog W ε' (Except ε α)) :=
  fun w => (hx.maintains (· = view w)).attempt w rfl

theorem Keeps.eq (hx : Keeps view x) {r : Outcome ε α} {w w' : W}
    (h : x w = (r, w')) : view w' = view w := by
  have hxw := hx w
  rwa [h] at hxw

theorem Keeps.of_attempt (hx : Keeps view x) {r : Except ε α} {w w' : W}
    (h : (x.attempt : Prog W ε' (Except ε α)) w = (.ok r, w')) :
    view w' = view w := by
  have hxw := hx w
  have hr := attempt_eq_ok.1 h
  cases r with
  | ok a => rwa [show x w = (.ok a, w') from hr] at hxw
  | error e => rwa [show x w = (.error e, w') from hr] at hxw

end

/-! ## Worlds that keep a log

A world may keep a log of what has happened. `PanicsOn log Bad x` says that
the program only adds to the log, and that it panics exactly if it adds an
entry of a bad kind; `OkOnly log Good x` says that it ends with a value only
if all the entries it adds are of a good kind. -/

section

variable {E : Type} (log : W → List E) (Bad Good : E → Prop)

/-! ## Worlds that keep a log -/

def PanicsOn (x : Prog W ε α) : Prop :=
  ∀ w, ∃ new, log (x w).2 = log w ++ new ∧ ((x w).1 = .panic ↔ ∃ e ∈ new, Bad e)

/-- The program ends with a value only if all it logs is good. -/
def OkOnly (x : Prog W ε α) : Prop :=
  ∀ w a w', x w = (.ok a, w') → ∃ new, log w' = log w ++ new ∧ ∀ e ∈ new, Good e

variable {log Bad Good} {x : Prog W ε α}

theorem panicsOn_of_silent (hlog : ∀ w, log (x w).2 = log w) (hpanic : ∀ w, (x w).1 ≠ .panic) :
    PanicsOn log Bad x :=
  fun w => ⟨[], by simp [hlog w], by simp [hpanic w]⟩

theorem panicsOn_pure (a : α) : PanicsOn log Bad (pure a : Prog W ε α) :=
  panicsOn_of_silent (fun _ => rfl) (fun _ => by rintro ⟨⟩)

theorem panicsOn_throw (e : ε) : PanicsOn log Bad (throw e : Prog W ε α) :=
  panicsOn_of_silent (fun _ => rfl) (fun _ => by rintro ⟨⟩)

theorem panicsOn_ofExcept (x : Except ε α) : PanicsOn log Bad (ofExcept x : Prog W ε α) := by
  cases x with
  | ok a => exact panicsOn_pure a
  | error e => exact panicsOn_throw e

/-- **The rule of sequence**: nothing is logged after a panic. -/
theorem PanicsOn.bind {f : α → Prog W ε β} (hx : PanicsOn log Bad x)
    (hf : ∀ a, PanicsOn log Bad (f a)) :
    PanicsOn log Bad (x >>= f) := by
  intro w
  obtain ⟨new, hnew, hpanic⟩ := hx w
  rw [bind_apply]
  rcases hxw : x w with ⟨a | e | _, w₁⟩
  · rw [hxw] at hnew hpanic
    obtain ⟨new', hnew', hpanic'⟩ := hf a w₁
    have hgood : ¬ ∃ e ∈ new, Bad e := fun h => by cases hpanic.mpr h
    refine ⟨new ++ new', ?_, ?_⟩
    · rw [hnew', show log w₁ = _ from hnew, append_assoc]
    · rw [hpanic']
      constructor
      · rintro ⟨e, he, hbad⟩
        exact ⟨e, mem_append_right _ he, hbad⟩
      · rintro ⟨e, he, hbad⟩
        rcases mem_append.mp he with he | he
        · exact absurd ⟨e, he, hbad⟩ hgood
        · exact ⟨e, he, hbad⟩
  · rw [hxw] at hnew hpanic
    refine ⟨new, hnew, ?_⟩
    rw [← hpanic]
    exact iff_of_false (by rintro ⟨⟩) (by rintro ⟨⟩)
  · rw [hxw] at hnew hpanic
    exact ⟨new, hnew, iff_of_true rfl (hpanic.mp rfl)⟩

theorem PanicsOn.mapError (hx : PanicsOn log Bad x) (f : ε → ε') :
    PanicsOn log Bad (x.mapError f) := by
  intro w
  obtain ⟨new, hnew, hpanic⟩ := hx w
  unfold Prog.mapError
  rcases hxw : x w with ⟨a | e | _, w₁⟩
  all_goals
    rw [hxw] at hnew hpanic
    exact ⟨new, hnew, by rw [← hpanic]; simp⟩

theorem PanicsOn.attempt (hx : PanicsOn log Bad x) :
    PanicsOn log Bad (x.attempt : Prog W ε' (Except ε α)) := by
  intro w
  obtain ⟨new, hnew, hpanic⟩ := hx w
  unfold Prog.attempt
  rcases hxw : x w with ⟨a | e | _, w₁⟩
  all_goals
    rw [hxw] at hnew hpanic
    exact ⟨new, hnew, by rw [← hpanic]; simp⟩

theorem okOnly_pure (a : α) : OkOnly log Good (pure a : Prog W ε α) := by
  intro w b w' h
  obtain ⟨-, rfl⟩ := pure_eq_ok.1 h
  exact ⟨[], by simp, by simp⟩

theorem okOnly_throw (e : ε) : OkOnly log Good (throw e : Prog W ε α) :=
  fun _ _ _ h => absurd h throw_ne_ok

theorem okOnly_ofExcept (x : Except ε α) : OkOnly log Good (ofExcept x : Prog W ε α) := by
  cases x with
  | ok a => exact okOnly_pure a
  | error e => exact okOnly_throw e

theorem OkOnly.bind {f : α → Prog W ε β} (hx : OkOnly log Good x)
    (hf : ∀ a, OkOnly log Good (f a)) :
    OkOnly log Good (x >>= f) := by
  intro w b w' h
  obtain ⟨a, w₁, ha, hb⟩ := bind_eq_ok.1 h
  obtain ⟨new, hnew, hgood⟩ := hx w a w₁ ha
  obtain ⟨new', hnew', hgood'⟩ := hf a w₁ b w' hb
  refine ⟨new ++ new', by rw [hnew', hnew, append_assoc], ?_⟩
  intro e he
  rcases mem_append.mp he with he | he
  · exact hgood e he
  · exact hgood' e he

theorem OkOnly.mapError (hx : OkOnly log Good x) (f : ε → ε') : OkOnly log Good (x.mapError f) :=
  fun w a w' h => hx w a w' (mapError_eq_ok.1 h)

end

variable {l : List α} {f : σ → α → Prog W ε σ}

/-! ## Loops -/

theorem foldlM_append_eq_ok {l' : List α} {s s' : σ} : (l ++ l').foldlM f s w = (.ok s', w')
    ↔ ∃ m w₁, l.foldlM f s w = (.ok m, w₁) ∧ l'.foldlM f m w₁ = (.ok s', w') := by
  rw [foldlM_append, bind_eq_ok]

theorem foldlM_singleton {s : σ} : [a].foldlM f s = f s a := by
  rw [foldlM_cons]
  exact bind_pure (f s a)

/-- **The invariant rule**, for invariants about the iterations so far. -/
theorem foldlM_ok_of_inv {P : List α → σ → W → Prop} {s₀ : σ} {w₀ : W}
    (hinit : P [] s₀ w₀) (hstep : ∀ l s w a s' w', l.foldlM f s₀ w₀ = (.ok s, w)
      → P l s w → f s a w = (.ok s', w') → P (l ++ [a]) s' w') {s : σ}
    (h : l.foldlM f s₀ w₀ = (.ok s, w)) :
    P l s w := by
  induction l using reverseRecOn generalizing s w with
  | nil =>
    obtain ⟨rfl, rfl⟩ := pure_eq_ok.1 h
    exact hinit
  | append_singleton l a ih =>
    obtain ⟨m, w₁, hm, ha⟩ := foldlM_append_eq_ok.1 h
    rw [foldlM_singleton] at ha
    exact hstep l m w₁ a s w hm (ih hm) ha

/-- **The totality rule**: iterations that have values give a value. -/
theorem foldlM_ok_of_total
    (hstep : ∀ a ∈ l, ∀ s w, ∃ s' w', f s a w = (.ok s', w')) (s : σ) (w : W) :
    ∃ s' w', l.foldlM f s w = (.ok s', w') := by
  induction l generalizing s w with
  | nil => exact ⟨s, w, rfl⟩
  | cons a l ih =>
    obtain ⟨s₁, w₁, h₁⟩ := hstep a mem_cons_self s w
    obtain ⟨s', w', h'⟩ := ih (fun a' ha' => hstep a' (mem_cons_of_mem _ ha')) s₁ w₁
    refine ⟨s', w', ?_⟩
    rw [foldlM_cons]
    exact bind_eq_ok.2 ⟨s₁, w₁, h₁, h'⟩

/-- **The collecting rule**: what the iterations append is all appended. -/
theorem foldlM_collect {f : List β → α → Prog W ε (List β)} {g : α → List β}
    (hstep : ∀ a ∈ l, ∀ acc, f acc a w = (.ok (acc ++ g a), w)) (acc : List β) :
    l.foldlM f acc w = (.ok (acc ++ l.flatMap g), w) := by
  induction l generalizing acc with
  | nil => simp [pure_eq_ok]
  | cons a l ih =>
    rw [foldlM_cons, flatMap_cons, ← append_assoc]
    exact bind_eq_ok.2 ⟨_, w, hstep a mem_cons_self acc,
      ih (fun b hb => hstep b (mem_cons_of_mem a hb)) _⟩

theorem exists_of_foldlM_ok {V : Type} {view : W → V} (hkeeps : ∀ s a, (f s a).Keeps view)
    {s s' : σ} (h : l.foldlM f s w = (.ok s', w')) (ha : a ∈ l) :
    ∃ t w₁ t' w₂, view w₁ = view w ∧ f t a w₁ = (.ok t', w₂) := by
  have hall := foldlM_ok_of_inv (P := fun l _ w₁ => view w₁ = view w ∧ ∀ a ∈ l,
    ∃ t w₁ t' w₂, view w₁ = view w ∧ f t a w₁ = (.ok t', w₂))
    ⟨rfl, by simp⟩
    (fun l t w₁ a t' w₂ _ hl hstep => by
      refine ⟨?_, ?_⟩
      · have hview := hkeeps t a w₁
        rw [hstep] at hview
        exact hview.trans hl.1
      · intro b hb
        rcases mem_append.1 hb with hb | hb
        · exact hl.2 b hb
        · obtain rfl := mem_singleton.1 hb
          exact ⟨t, w₁, t', w₂, hl.1, hstep⟩) h
  exact hall.2 a ha

theorem keeps_foldlM {V : Type} {view : W → V}
    (hkeeps : ∀ s a, (f s a).Keeps view) (l : List α) (s : σ) :
    Keeps view (l.foldlM f s) := by
  induction l generalizing s with
  | nil => exact keeps_pure s
  | cons a l ih =>
    rw [foldlM_cons]
    exact (hkeeps s a).bind (fun t => ih t)

/-! ## Pre- and postconditions -/

/-- **A triple**: from `P`, a run ends in `I`, and with a value in `Q`. -/
def Triple (P : W → Prop) (x : Prog W ε α) (Q : α → W → Prop) (I : W → Prop) : Prop :=
  ∀ w, P w → I (x w).2 ∧ ∀ a w', x w = (.ok a, w') → Q a w'

section

variable {P I : W → Prop} {Q : α → W → Prop} {R : β → W → Prop} {x : Prog W ε α}

theorem Triple.bind {f : α → Prog W ε β} (hx : Triple P x Q I) (hf : ∀ a, Triple (Q a) (f a) R I) :
    Triple P (x >>= f) R I := by
  intro w hw
  obtain ⟨hI, hQ⟩ := hx w hw
  rw [bind_apply]
  rcases hrun : x w with ⟨a | e | _, w'⟩
  · exact hf a w' (hQ a w' hrun)
  · rw [hrun] at hI
    exact ⟨hI, fun b w'' h => by cases h⟩
  · rw [hrun] at hI
    exact ⟨hI, fun b w'' h => by cases h⟩

theorem Triple.mapError (hx : Triple P x Q I) (f : ε → ε') : Triple P (x.mapError f) Q I := by
  intro w hw
  obtain ⟨hI, hQ⟩ := hx w hw
  refine ⟨?_, fun a w' h => hQ a w' (mapError_eq_ok.1 h)⟩
  unfold Prog.mapError
  rcases hrun : x w with ⟨a | e | _, w'⟩ <;> rw [hrun] at hI <;> exact hI

theorem Triple.imp {Q' : α → W → Prop} (hx : Triple P x Q I)
    (h : ∀ a w, Q a w → Q' a w) : Triple P x Q' I :=
  fun w hw => ⟨(hx w hw).1, fun a w' heq => h a w' ((hx w hw).2 a w' heq)⟩

theorem triple_pure {a : α} (hI : ∀ w, P w → I w) (hQ : ∀ w, P w → Q a w) :
    Triple P (pure a : Prog W ε α) Q I := by
  intro w hw
  refine ⟨hI w hw, fun b w' h => ?_⟩
  obtain ⟨rfl, rfl⟩ := pure_eq_ok.1 h
  exact hQ w hw

theorem triple_of_same (hx : ∀ w, (x w).2 = w) (hI : ∀ w, P w → I w) :
    Triple P x (fun _ => P) I := by
  intro w hw
  refine ⟨(hx w).symm ▸ hI w hw, fun a w' h => ?_⟩
  have heq : w' = w := by rw [← hx w, h]
  exact heq.symm ▸ hw

theorem triple_throw (e : ε) (hI : ∀ w, P w → I w) : Triple P (throw e : Prog W ε α) Q I :=
  fun w hw => ⟨hI w hw, fun _ _ h => absurd h throw_ne_ok⟩

theorem triple_ask {f : W → α × W} (hI : ∀ w, P w → I (f w).2) (hQ : ∀ w, P w → Q (f w).1 (f w).2) :
    Triple P (ask f : Prog W ε α) Q I := by
  intro w hw
  refine ⟨hI w hw, fun a w' h => ?_⟩
  have hf := ask_eq_ok.1 h
  have hq := hQ w hw
  rwa [hf] at hq

end

end Prog
