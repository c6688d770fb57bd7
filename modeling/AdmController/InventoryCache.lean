import AdmController.RustCollections
import AdmController.StepSystem

/-!
# The Gatekeeper inventory cache

The Gatekeeper runtime keeps inventories in a process-wide cache. The steps are
those of watchers, which publish the instant of a change and then apply it, of
`getInventory` calls, and of time. What was read is current, or a later change
was published (`Fresh`).
-/

namespace InventoryCache

open StepSystem Function

/-- A reflector: the instant of its last change, its store, and the event that
has been published but not yet applied. -/
structure Reflector (O E : Type) where
  lastChangeSeenAt : ℕ
  store : O
  pending : Option E

structure CachedInventory (D : Type) where
  data : D
  cacheTime : ℕ

/-- What the cache does not look into: how an event changes a store, and how an
inventory is built and serialized. -/
structure Params (R O E D : Type) where
  applyWatcherEvent : E → O → O
  buildInventory : List (R × O) → Except String D

/-- Where a `get_inventory` call stands. -/
inductive Call (R O D : Type) [LT R] where
  /-- The call has started. -/
  | lookingUp (resources : BTreeSet R)
  /-- An entry was found; the listed resources are still to be checked. -/
  | checking (resources : BTreeSet R) (entry : CachedInventory D) (todo : List R)
  /-- The inventory has to be created. -/
  | creating (resources : BTreeSet R)
  /-- The instant is taken; the listed resources are still to be read. -/
  | reading (resources : BTreeSet R) (now : ℕ) (todo : List R) (content : List (R × O))
  /-- The call has returned. -/
  | returned (resources : BTreeSet R) (result : Except String D)
  /-- The call was given up because the callback channel failed. -/
  | aborted

/-- The shared state: clock, reflectors, cache, and the calls made so far. -/
structure State (R O E D : Type) [LT R] where
  clock : ℕ
  reflectors : R → Option (Reflector O E)
  inventories : BTreeSet R → Option (CachedInventory D)
  calls : ℕ → Option (Call R O D)

inductive CallAction (O : Type) where
  | lookUp | check | takeNow
  /-- Read the next store; a missing reflector is created. -/
  | read (listed : O)
  | register
  | abort

inductive Label (R O E : Type) [LT R] where
  | tick (d : ℕ)
  | publish (r : R) (event : E)
  | applyEvent (r : R)
  | start (c : ℕ) (resources : BTreeSet R)
  | call (c : ℕ) (action : CallAction O)

variable {R O E D : Type} [LT R] [DecidableEq R] (P : Params R O E D) (s : State R O E D)

def State.setReflector (r : R) (f : Reflector O E) : State R O E D :=
  { s with reflectors := update s.reflectors r (some f) }

def State.setCall (c : ℕ) (call : Call R O D) : State R O E D :=
  { s with calls := update s.calls c (some call) }

def State.insert (resources : BTreeSet R) (entry : CachedInventory D) : State R O E D :=
  { s with
    inventories := update s.inventories resources (some entry) }

@[simp] theorem State.setReflector_self (r : R)
    (f : Reflector O E) : (s.setReflector r f).reflectors r = some f :=
  update_self ..

theorem State.setReflector_of_ne {r r' : R} (f : Reflector O E) (h : r' ≠ r) :
    (s.setReflector r f).reflectors r' = s.reflectors r' :=
  update_of_ne h ..

omit [DecidableEq R] in
@[simp] theorem State.setCall_self (c : ℕ)
    (call : Call R O D) : (s.setCall c call).calls c = some call :=
  update_self ..

omit [DecidableEq R] in
theorem State.setCall_of_ne {c c' : ℕ} (call : Call R O D) (h : c' ≠ c) :
    (s.setCall c call).calls c' = s.calls c' :=
  update_of_ne h ..

@[simp] theorem State.insert_self (resources : BTreeSet R) (entry : CachedInventory D) :
    (s.insert resources entry).inventories resources = some entry :=
  update_self ..

theorem State.insert_of_ne {resources resources' : BTreeSet R} (entry : CachedInventory D)
    (h : resources' ≠ resources) :
    (s.insert resources entry).inventories resources' = s.inventories resources' :=
  update_of_ne h ..

def State.haveChangedSince (r : R) (since : ℕ) : Bool :=
  match s.reflectors r with
  | some f => decide (f.lastChangeSeenAt > since)
  | none => true

def callStep : Call R O D → CallAction O → Option (State R O E D × Call R O D)
  | .lookingUp resources, .lookUp =>
    match s.inventories resources with
    | none => some (s, .creating resources)
    | some entry => some (s, .checking resources entry resources.elems)
  | .checking resources entry [], .check => some (s, .returned resources (.ok entry.data))
  | .checking resources entry (r :: todo), .check =>
    if s.haveChangedSince r entry.cacheTime then some (s, .creating resources)
    else some (s, .checking resources entry todo)
  | .creating resources, .takeNow => some (s, .reading resources s.clock resources.elems [])
  | .reading resources now (r :: todo) content, .read listed =>
    match s.reflectors r with
    | some f => some (s, .reading resources now todo (content ++ [(r, f.store)]))
    | none =>
      some (s.setReflector r ⟨s.clock, listed, none⟩,
        .reading resources now todo (content ++ [(r, listed)]))
  | .reading resources now [] content, .register =>
    match P.buildInventory content with
    | .ok data => some (s.insert resources ⟨data, now⟩, .returned resources (.ok data))
    | .error e => some (s, .returned resources (.error e))
  | .checking _ _ _, .abort => some (s, .aborted)
  | .reading _ _ _ _, .abort => some (s, .aborted)
  | _, _ => none

def step : Label R O E → Option (State R O E D)
  | .tick d => some { s with clock := s.clock + d }
  | .publish r event =>
    match s.reflectors r with
    | some ⟨_, store, none⟩ => some (s.setReflector r ⟨s.clock, store, some event⟩)
    | _ => none
  | .applyEvent r =>
    match s.reflectors r with
    | some ⟨lastChange, store, some event⟩ =>
      some (s.setReflector r ⟨lastChange, P.applyWatcherEvent event store, none⟩)
    | _ => none
  | .start c resources =>
    match s.calls c with
    | none => some (s.setCall c (.lookingUp resources))
    | some _ => none
  | .call c action => do
    let call ← s.calls c
    let (s', call') ← callStep P s call action
    some (s'.setCall c call')

/-- Nothing is cached and no call was made; reflectors may hold anything. -/
structure State.Initial (s : State R O E D) : Prop where
  inventories : ∀ resources, s.inventories resources = none
  calls : ∀ c, s.calls c = none

/-! ## What a step can do -/

/-- **What one step of a call can do**, transition by transition. -/
inductive CallMove (s : State R O E D) :
    Call R O D → CallAction O → State R O E D → Call R O D → Prop
  | miss {resources} (h : s.inventories resources = none) :
    CallMove s (.lookingUp resources) .lookUp s (.creating resources)
  | hit {resources entry} (h : s.inventories resources = some entry) :
    CallMove s (.lookingUp resources) .lookUp s (.checking resources entry resources.elems)
  | reuse {resources entry} : CallMove s (.checking resources entry []) .check s
        (.returned resources (.ok entry.data))
  | changed {resources entry r todo} : CallMove s (.checking resources entry (r :: todo)) .check s
        (.creating resources)
  | unchanged {resources entry r todo} (h : s.haveChangedSince r entry.cacheTime = false) :
    CallMove s (.checking resources entry (r :: todo)) .check s (.checking resources entry todo)
  | takeNow {resources} : CallMove s (.creating resources) .takeNow s
        (.reading resources s.clock resources.elems [])
  | read {resources now r todo content listed f} (h : s.reflectors r = some f) :
    CallMove s (.reading resources now (r :: todo) content) (.read listed) s
      (.reading resources now todo (content ++ [(r, f.store)]))
  | create {resources now r todo content listed} (h : s.reflectors r = none) :
    CallMove s (.reading resources now (r :: todo) content) (.read listed)
      (s.setReflector r ⟨s.clock, listed, none⟩)
      (.reading resources now todo (content ++ [(r, listed)]))
  | register {resources now content data} (h : P.buildInventory content = .ok data) :
    CallMove s (.reading resources now [] content) .register
      (s.insert resources ⟨data, now⟩) (.returned resources (.ok data))
  | buildFailure {resources now content e} (h : P.buildInventory content = .error e) :
    CallMove s (.reading resources now [] content) .register s (.returned resources (.error e))
  | abort {call} : CallMove s call .abort s .aborted

theorem callMove_of_callStep {s s' : State R O E D} {call call' : Call R O D}
    {action : CallAction O} (h : callStep P s call action = some (s', call')) :
    CallMove P s call action s' call' := by
  unfold callStep at h
  split at h
  · split at h
    · next hnone => cases h; exact .miss hnone
    · next entry hsome => cases h; exact .hit hsome
  · cases h; exact .reuse
  · split at h
    · cases h; exact .changed
    · next hsame => cases h; exact .unchanged (Bool.not_eq_true _ ▸ hsame)
  · cases h; exact .takeNow
  · split at h
    · next f hf => cases h; exact .read hf
    · next hnone => cases h; exact .create hnone
  · split at h
    · next data hdata => cases h; exact .register hdata
    · next e he => cases h; exact .buildFailure he
  · cases h; exact .abort
  · cases h; exact .abort
  · cases h

/-- A step is one of time, of a reflector, or of a call. -/
inductive Move (s : State R O E D) : Label R O E → State R O E D → Prop
  | tick {d} : Move s (.tick d) { s with clock := s.clock + d }
  | publish {r event lastChange store} (h : s.reflectors r = some ⟨lastChange, store, none⟩) :
    Move s (.publish r event) (s.setReflector r ⟨s.clock, store, some event⟩)
  | applyEvent {r event lastChange store}
    (h : s.reflectors r = some ⟨lastChange, store, some event⟩) :
    Move s (.applyEvent r) (s.setReflector r ⟨lastChange, P.applyWatcherEvent event store, none⟩)
  | start {c resources} (h : s.calls c = none) :
    Move s (.start c resources) (s.setCall c (.lookingUp resources))
  | call {c action s' call call'} (h : s.calls c = some call)
    (hmove : CallMove P s call action s' call') :
    Move s (.call c action) (s'.setCall c call')

theorem move_of_step {s s' : State R O E D} {l : Label R O E}
    (h : step P s l = some s') : Move P s l s' := by
  cases l with
  | tick d => cases h; exact .tick
  | publish r event =>
    simp only [step] at h
    split at h
    · next hf => cases h; exact .publish hf
    · cases h
  | applyEvent r =>
    simp only [step] at h
    split at h
    · next hf => cases h; exact .applyEvent hf
    · cases h
  | start c resources =>
    simp only [step] at h
    split at h
    · next hc => cases h; exact .start hc
    · cases h
  | call c action =>
    simp only [step] at h
    obtain ⟨call, hcall, h⟩ := Option.bind_eq_some_iff.1 h
    obtain ⟨⟨s₁, call'⟩, hstep, h⟩ := Option.bind_eq_some_iff.1 h
    cases h
    exact .call hcall (callMove_of_callStep P hstep)

end InventoryCache
