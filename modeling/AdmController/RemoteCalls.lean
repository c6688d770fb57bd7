import AdmController.Effects

/-!
# Programs that call a remote store

A client holds one object in memory and works on a remote store, one call at a
time. Any call may fail: the state lists what the next calls fail with. The
rules say what a call that ends with a value has done (`call_eq_ok`).
-/

namespace Remote

/-- **Why a call fails**; a conflict means another write. -/
structure Fault where
  conflict : Bool
  msg : String
deriving DecidableEq

/-- **The state of a client**: the store, faults, and the object in memory. -/
structure State (C π : Type) where
  store : C
  faults : List (Option String)
  object : π

variable {C π α ε : Type}

/-- **A call**: it may fail, and otherwise answers and changes the store. -/
def call (f : C → Except Fault (α × C)) : Prog (State C π) Fault α := fun s =>
  match s.faults with
  | some msg :: faults => (.error ⟨false, msg⟩, { s with faults := faults })
  | faults =>
    match f s.store with
    | .ok (a, store) => (.ok a, ⟨store, faults.tail, s.object⟩)
    | .error fault => (.error fault, { s with faults := faults.tail })

def get (f : C → α) : Prog (State C π) Fault α := call fun c => .ok (f c, c)

def put (f : C → C) : Prog (State C π) Fault Unit := call fun c => .ok ((), f c)

def object : Prog (State C π) ε π := Prog.ask fun s => (s.object, s)

def modify (f : π → π) : Prog (State C π) ε Unit :=
  Prog.ask fun s => ((), { s with object := f s.object })

section

variable {s s' : State C π} {a : α}

/-! ## Calls that end with a value -/

/-- **A call with a value** was made on the store. -/
theorem call_eq_ok {f : C → Except Fault (α × C)} (h : call f s = (.ok a, s')) :
    f s.store = .ok (a, s'.store) ∧ s'.object = s.object := by
  have hmade {faults : List (Option String)} (h : (match f s.store with
        | .ok (a, store) => (Outcome.ok a, (⟨store, faults, s.object⟩ : State C π))
        | .error fault => (.error fault, { s with faults := faults })) = (.ok a, s')) :
      f s.store = .ok (a, s'.store) ∧ s'.object = s.object := by
    split at h
    · next b store hf =>
      cases h
      exact ⟨hf, rfl⟩
    · cases h
  unfold call at h
  split at h
  · cases h
  · exact hmade h

theorem call_eq_error {f : C → Except Fault (α × C)} {fault : Fault}
    (h : call f s = (.error fault, s')) :
    s'.store = s.store ∧ s'.object = s.object := by
  unfold call at h
  split at h
  · cases h
    exact ⟨rfl, rfl⟩
  · split at h
    · cases h
    · cases h
      exact ⟨rfl, rfl⟩

theorem get_eq_ok {f : C → α} (h : get f s = (.ok a, s')) :
    a = f s.store ∧ s'.store = s.store ∧ s'.object = s.object := by
  obtain ⟨hf, hobject⟩ := call_eq_ok h
  rw [Except.ok.injEq, Prod.mk.injEq] at hf
  exact ⟨hf.1.symm, hf.2.symm, hobject⟩

theorem put_eq_ok {f : C → C} {u : Unit} (h : put f s = (.ok u, s')) :
    s'.store = f s.store ∧ s'.object = s.object := by
  obtain ⟨hf, hobject⟩ := call_eq_ok h
  rw [Except.ok.injEq, Prod.mk.injEq] at hf
  exact ⟨hf.2.symm, hobject⟩

theorem object_eq_ok {p : π} (h : (object : Prog (State C π) ε π) s = (.ok p, s')) :
    p = s.object ∧ s' = s := by
  cases h
  exact ⟨rfl, rfl⟩

theorem object_bind {f : π → Prog (State C π) ε α} {result : Outcome ε α × State C π}
    (h : (object >>= f) s = result) : f s.object s = result := h

theorem modify_eq_ok {f : π → π} {u : Unit}
    (h : (modify f : Prog (State C π) ε Unit) s = (.ok u, s')) :
    s' = { s with object := f s.object } := by
  cases h
  rfl

end

section

variable {J : C → π → Prop}

/-! ## What is left alone -/

/-- **A call maintains** what holds of the store and the object. -/
theorem maintains_call {f : C → Except Fault (α × C)}
    (hf : ∀ c o a c', J c o → f c = .ok (a, c') → J c' o) :
    Prog.Maintains (fun s => J s.store s.object) (call f : Prog (State C π) Fault α) := by
  intro s hs
  unfold call
  split
  · exact hs
  · split
    · next a c h => exact hf _ _ a c hs h
    · exact hs

theorem maintains_get (f : C → α) :
    Prog.Maintains (fun s => J s.store s.object) (get f : Prog (State C π) Fault α) := by
  refine maintains_call fun c o a c' hc h => ?_
  cases h
  exact hc

theorem maintains_object {f : π → Prog (State C π) ε α}
    (hf : ∀ c o, J c o → (f o).Maintains fun s => J s.store s.object) :
    Prog.Maintains (fun s => J s.store s.object) (object >>= f) :=
  fun s hs => hf s.store s.object hs s hs

end

theorem keeps_get (f : C → α) : Prog.Keeps (fun s => (s.store, s.object))
    (get f : Prog (State C π) Fault α) :=
  fun s => maintains_get (J := fun c o => (c, o) = (s.store, s.object)) f s rfl

end Remote
