import AdmController.StepSystem

/-!
# The workers of the audit scanner

Both scans start one goroutine for each namespace or resource: `Add` on a wait
group, `Acquire` of a permit, and the goroutine, which runs until it calls
`Done`. When an `Acquire` fails, the scan of all namespaces leaves its workers
behind, and the cluster-wide scan waits for a `Done` that nobody will call.
-/

namespace AuditScanner

open StepSystem

namespace ClusterScan

/-! ## The scan of the cluster-wide resources -/

/-- The objects of the current and the next lists (`none` is not unstructured),
whether a callback waits for a permit, the counter of the wait group, and the
workers before `Done` and before `Release`. -/
structure State (R : Type) where
  todo : List (List (Option R))
  waiting : Bool
  (counter running releasing : ℕ)
  (cancelled returned : Bool)

/-- The steps of the scan, `done` and `release` of a worker, and the cancellation
of the context. -/
inductive Act where
  | callback | acquire | acquireFails | listEnds | listFails | wait | done | release | cancel
deriving DecidableEq

variable {R : Type}

/-- **The beginning of a scan**, by what `GetClusterWidePolicies` answered:
without policies there is nothing to start. -/
def start : Except String (List (List (Option R))) → State R
  | .error _ => ⟨[], false, 0, 0, 0, false, true⟩
  | .ok [] => ⟨[], false, 0, 0, 0, false, true⟩
  | .ok lists => ⟨lists, false, 0, 0, 0, false, false⟩

/-- One step of the scan, with `parallel` permits. -/
def step (parallel : ℕ) (s : State R) : Act → Option (State R)
  | .callback =>
    match s.waiting, s.todo with
    | false, (some _ :: objects) :: lists =>
      some { s with todo := objects :: lists, waiting := true, counter := s.counter + 1 }
    | false, (none :: _) :: lists => some { s with todo := lists }
    | _, _ => none
  | .acquire =>
    if s.waiting ∧ ¬s.cancelled ∧ s.running + s.releasing < parallel then
      some { s with waiting := false, running := s.running + 1 }
    else none
  -- the callback returns an error, and the list is given up
  | .acquireFails =>
    if s.waiting ∧ s.cancelled then some { s with waiting := false, todo := s.todo.tail }
    else none
  | .listEnds =>
    match s.waiting, s.todo with
    | false, [] :: lists => some { s with todo := lists }
    | _, _ => none
  | .listFails =>
    match s.waiting, s.todo with
    | false, _ :: lists => some { s with todo := lists }
    | _, _ => none
  | .wait =>
    if s.todo = [] ∧ ¬s.waiting ∧ ¬s.returned ∧ s.counter = 0 then some { s with returned := true }
    else none
  | .done =>
    if 0 < s.running then
      some { s with counter := s.counter - 1, running := s.running - 1
                    releasing := s.releasing + 1 }
    else none
  | .release => if 0 < s.releasing then some { s with releasing := s.releasing - 1 } else none
  | .cancel => if s.cancelled then none else some { s with cancelled := true }

/-! ## What a step does -/

/-- The `Add`s that a `Done` will answer. -/
def State.expected (s : State R) : ℕ := s.running + s.waiting.toNat

/-- Every `Done` to come is counted, and after the return there is none. -/
structure State.WF (s : State R) : Prop where
  expected_le : s.expected ≤ s.counter
  returned : s.returned = true → s.todo = [] ∧ s.counter = 0

variable {parallel : ℕ}

/-- **Every step but a failed `Acquire` keeps the counter balanced**, and after
a failed one it is never balanced again. -/
theorem step_balanced (s : State R) (l : Act) (s' : State R) (hs : s.WF)
    (h : step parallel s l = some s') :
    s'.WF ∧ (s'.counter = s'.expected ↔ s.counter = s.expected ∧ l ≠ .acquireFails) := by
  obtain ⟨hle, hret⟩ := hs
  cases l <;> simp only [step] at h <;> split at h <;> cases h
  all_goals refine ⟨⟨?_, fun hr => ?_⟩, ?_⟩ <;> simp_all [State.expected] <;> omega

/-- What is left to do, counted so that every step does some of it. -/
def State.work (s : State R) : ℕ :=
  s.todo.foldr (fun objects n => 5 * objects.length + 1 + n) 0 + 4 * s.waiting.toNat
    + 3 * s.running + s.releasing + (!s.cancelled).toNat + (!s.returned).toNat

theorem step_work (s : State R) (l : Act) (s' : State R)
    (h : step parallel s l = some s') : s'.work < s.work := by
  have htail : s.todo.tail.foldr (fun objects n => 5 * objects.length + 1 + n) 0
      ≤ s.todo.foldr (fun objects n => 5 * objects.length + 1 + n) 0 := by
    cases s.todo <;> simp
  cases l <;> simp only [step] at h <;> split at h <;> cases h
  all_goals simp_all [State.work] <;> omega

/-! ## Progress and reports -/

theorem exists_step (hpar : 0 < parallel) {s : State R}
    (hbal : s.counter = s.expected) (hret : s.returned = false) :
    ∃ l, l ≠ .cancel ∧ (step parallel s l).isSome := by
  obtain ⟨todo, waiting, counter, running, releasing, cancelled, returned⟩ := s
  replace hbal : counter = running + waiting.toNat := hbal
  subst hret hbal
  cases waiting with
  | true =>
    -- a permit, or someone who will give one back, or the end of the waiting
    rcases cancelled with _ | _
    · rcases Nat.lt_or_ge (running + releasing) parallel with h | h
      · exact ⟨.acquire, by simp [step, h]⟩
      · rcases Nat.eq_zero_or_pos running with rfl | hr
        · exact ⟨.release, by simp [step]; omega⟩
        · exact ⟨.done, by simp [step, hr]⟩
    · exact ⟨.acquireFails, by simp [step]⟩
  | false =>
    rcases todo with _ | ⟨_ | ⟨_ | r, objects⟩, lists⟩
    · rcases Nat.eq_zero_or_pos running with rfl | hr
      · exact ⟨.wait, by simp [step]⟩
      · exact ⟨.done, by simp [step, hr]⟩
    · exact ⟨.listEnds, by simp [step]⟩
    · exact ⟨.callback, by simp [step]⟩
    · exact ⟨.callback, by simp [step]⟩

theorem start_balanced (lists : Except String (List (List (Option R)))) :
    (start lists).WF ∧ (start lists).counter = (start lists).expected := by
  rcases lists with _ | _ | ⟨_, _⟩ <;> exact ⟨⟨Nat.le_refl _, by simp [start]⟩, rfl⟩

/-- **A cluster-wide scan returns iff no `Acquire` of it fails.** Every run is
finite; a run that cannot go on has returned, with no worker running, iff no
`Acquire` failed along it, and no run returns while a worker is running. -/
theorem cluster_scan_returns_iff {parallel : ℕ} (hpar : 0 < parallel)
    (lists : Except String (List (List (Option R)))) (ls : List Act) (s : State R)
    (hrun : run (step parallel) (start lists) ls = some s) :
    ls.length ≤ (start lists).work ∧ (s.returned = true → s.running = 0)
      ∧ ((∀ l, l ≠ .cancel → step parallel s l = none) →
          (s.returned = true ↔ Along (step parallel) (fun _ l => l ≠ .acquireFails)
            (start lists) ls)) := by
  obtain ⟨hstart, hbal⟩ := start_balanced lists
  have hs : s.WF := run_invariant _ (fun s l s' h hl => (step_balanced s l s' h hl).1) hstart hrun
  have hiff := run_iff_along (step parallel) step_balanced hstart hrun
  have hzero : s.returned = true → s.expected = 0 := fun hr =>
    Nat.le_zero.1 ((hs.returned hr).2 ▸ hs.expected_le)
  refine ⟨?_, fun hr => (Nat.add_eq_zero_iff.1 (hzero hr)).1, fun hstuck => ?_⟩
  · have := run_length_le (step parallel) (I := fun _ => True) (fun _ _ _ _ _ _ => trivial)
      (fun s l s' _ => step_work s l s') trivial (along_of_always (step parallel)
        (P := fun _ _ => True) (fun _ _ => trivial) (start lists) ls) hrun
    omega
  · rw [← (hiff.trans (and_iff_right hbal))]
    constructor
    · intro hr
      rw [hzero hr, (hs.returned hr).2]
    · intro hbal'
      by_contra hr
      obtain ⟨l, hl, hsome⟩ := exists_step hpar hbal' (Bool.eq_false_iff.2 hr)
      rw [hstuck l hl] at hsome
      cases hsome

theorem cluster_scan_of_one_returns :
    let s : State Unit := ⟨[], false, 0, 0, 0, false, true⟩
    run (step 1) (start (.ok [[some ()]]))
      [.callback, .acquire, .listEnds, .done, .wait, .release] = some s ∧ s.returned = true :=
  have h := cluster_scan_returns_iff Nat.one_pos (.ok [[some ()]])
    [.callback, .acquire, .listEnds, .done, .wait, .release] ⟨[], false, 0, 0, 0, false, true⟩ rfl
  ⟨rfl, (h.2.2 (by rintro (_ | _ | _ | _ | _ | _ | _ | _ | _) hl <;> first | rfl | cases hl rfl)).2
    (by simp [Along])⟩

theorem cancelled_cluster_scan_is_stuck : ∃ s : State Unit,
    run (step 1) (start (.ok [[some ()]])) [.callback, .cancel, .acquireFails] = some s
      ∧ s.returned = false ∧ s.running = 0 ∧ ∀ l, step 1 s l = none := by
  refine ⟨_, rfl, rfl, rfl, fun l => ?_⟩
  cases l <;> rfl

end ClusterScan

namespace NamespaceScan

/-! ## The scan of the namespaces -/

/-- Where a worker is: not added yet, waiting for its permit, in `ScanNamespace`,
between the read and the write of the error, before `Done`, before `Release`,
and after it. -/
inductive Phase (E : Type) where
  | idle | waiting | scanning
  | holding (read : List E) (e : E)
  | finished | done | gone
deriving DecidableEq

variable {E : Type}

/-- A phase between `Add` and `Done`. -/
def Phase.counted : Phase E → Bool
  | .waiting | .scanning | .holding _ _ | .finished => true
  | _ => false

/-- A phase between `Acquire` and `Done`: the worker is running. -/
def Phase.running : Phase E → Bool
  | .scanning | .holding _ _ | .finished => true
  | _ => false

/-- A phase between `Acquire` and `Release`. -/
def Phase.permit : Phase E → Bool
  | .scanning | .holding _ _ | .finished | .done => true
  | _ => false

variable {p : Phase E}

theorem Phase.running_of_counted (h : p.counted = true) (hw : p ≠ .waiting) : p.running = true := by
  cases p <;> first | rfl | exact absurd rfl hw | cases h

theorem Phase.permit_of_running (h : p.running = true) : p.permit = true := by
  cases p <;> first | rfl | cases h

/-- What is returned, with the errors that the shared error joins: after `Wait`,
or for lack of a permit. -/
inductive Return (E : Type) where
  | waited (joined : List E)
  | notAcquired (joined : List E)

/-- The namespaces to start, the phases of the workers and the shared error. -/
structure State (E : Type) where
  todo : List String
  phase : String → Phase E
  err : List E
  cancelled : Bool
  returned : Option (Return E)

inductive Act where
  | add | wait | cancel
  | acquire (n : String) | acquireFails (n : String) | succeed (n : String)
  | read (n : String) | write (n : String) | done (n : String) | release (n : String)
deriving DecidableEq

def start (namespaces : List String) : State E := ⟨namespaces, fun _ => .idle, [], false, none⟩

def State.move (s : State E) (n : String) (p : Phase E) : State E :=
  { s with phase := Function.update s.phase n p }

/-! ## What a step keeps -/

@[grind =]
theorem State.phase_move (s : State E) (n m : String) (p : Phase E) :
    (s.move n p).phase m = if m = n then p else s.phase m :=
  Function.update_apply _ _ _ _

-- the namespaces of the cluster, what `ScanNamespace` returns for each, and the parallelism
variable (namespaces : List String) (scan : String → Option E) (parallel : ℕ)

def step [DecidableEq E] (s : State E) : Act → Option (State E)
  | .add =>
    match s.todo with
    | [] => none
    | n :: rest =>
      if s.returned.isNone ∧ ∀ m ∈ namespaces, s.phase m ≠ .waiting then
        some ({ s with todo := rest }.move n .waiting)
      else none
  | .wait =>
    if s.returned.isNone ∧ s.todo = [] ∧ ∀ m ∈ namespaces, (s.phase m).counted = false then
      some { s with returned := some (.waited s.err) }
    else none
  | .cancel => if s.cancelled then none else some { s with cancelled := true }
  | .acquire n =>
    if s.phase n = .waiting ∧ ¬s.cancelled ∧
      namespaces.countP (fun m => (s.phase m).permit) < parallel then
      some (s.move n .scanning)
    else none
  | .acquireFails n =>
    if s.phase n = .waiting ∧ s.cancelled ∧ s.returned.isNone then
      some { s.move n .idle with returned := some (.notAcquired s.err) }
    else none
  | .succeed n => if s.phase n = .scanning ∧ scan n = none then some (s.move n .finished) else none
  | .read n =>
    match s.phase n, scan n with
    | .scanning, some e => some (s.move n (.holding s.err e))
    | _, _ => none
  | .write n =>
    match s.phase n with
    | .holding read e => some { s.move n .finished with err := read ++ [e] }
    | _ => none
  | .done n => if s.phase n = .finished then some (s.move n .done) else none
  | .release n => if s.phase n = .done then some (s.move n .gone) else none

/-- A step that reads the shared error while nobody is about to write it, or
gives up while no worker is running. -/
def Undisturbed (s : State E) : Act → Prop
  | .read _ => ∀ m read e, s.phase m ≠ .holding read e
  | .acquireFails _ => ∀ m, (s.phase m).running = false
  | _ => True

/-- **What holds in undisturbed runs**: the one worker that holds the error has
read its latest value, which joins those of all workers past their write. -/
structure State.WF (s : State E) : Prop where
  nodup : s.todo.Nodup
  todo : ∀ n ∈ s.todo, n ∈ namespaces ∧ s.phase n = .idle
  added : s.cancelled = false → ∀ n ∈ namespaces, s.phase n = .idle → n ∈ s.todo
  mem : ∀ n, s.phase n ≠ .idle → n ∈ namespaces
  holding : ∀ n read e, s.phase n = .holding read e → read = s.err ∧ scan n = some e
  unique : ∀ n m r e r' e', s.phase n = .holding r e → s.phase m = .holding r' e' → n = m
  written : ∀ n e, scan n = some e → s.phase n = .finished ∨ s.phase n = .done ∨ s.phase n = .gone →
    e ∈ s.err
  joined : ∀ e ∈ s.err, ∃ n ∈ namespaces, scan n = some e
  oneWaiting : ∀ n m, s.phase n = .waiting → s.phase m = .waiting → n = m
  returned : s.returned.isNone = false → ∀ n, (s.phase n).counted = false
  waited : ∀ joined, s.returned = some (.waited joined) → s.todo = [] ∧ joined = s.err
  notAcquired : ∀ joined, s.returned = some (.notAcquired joined) → s.cancelled = true

variable {namespaces scan parallel}

theorem start_wf (hnodup : namespaces.Nodup) : (start namespaces).WF namespaces scan := by
  constructor <;> simp_all [start]

variable {s : State E}

/-- A worker that was added moves on, without writing the error. -/
theorem State.WF.move (hs : s.WF namespaces scan) {n : String}
    (hn : s.phase n ≠ .idle) (hp : p ≠ .idle ∧ p ≠ .waiting)
    (hcounted : p.counted → (s.phase n).counted)
    (hholding : ∀ read e, p = .holding read e →
      (read = s.err ∧ scan n = some e) ∧ ∀ m r e', s.phase m ≠ .holding r e')
    (hwritten : p = .finished ∨ p = .done ∨ p = .gone → ∀ e, scan n = some e → e ∈ s.err) :
    (s.move n p).WF namespaces scan := by
  cases hs
  constructor <;> first | assumption | grind [State.move]

open Phase

theorem State.WF.write (hs : s.WF namespaces scan) {n : String} {read : List E}
    {e : E} (hn : s.phase n = .holding read e) :
    State.WF namespaces scan { s.move n .finished with err := read ++ [e] } := by
  cases hs
  constructor <;> first | assumption | grind [State.move, counted]

variable [DecidableEq E]

theorem step_wf (s : State E) (l : Act) (s' : State E) (hs : s.WF namespaces scan)
    (hl : Undisturbed s l) (h : step namespaces scan parallel s l = some s') :
    s'.WF namespaces scan := by
  cases l with
  | read n =>
    simp only [step] at h
    split at h <;> cases h
    next e hn he =>
      refine hs.move (by simp [hn]) (by simp) (by simp [hn, counted]) ?_ (by simp)
      rintro _ _ ⟨⟩
      exact ⟨⟨rfl, he⟩, hl⟩
  | write n =>
    simp only [step] at h
    split at h <;> cases h
    next hn => exact hs.write hn
  | acquire n | succeed n | done n | release n =>
    simp only [step] at h
    split at h <;> cases h
    next hn =>
      refine hs.move (by simp [hn]) (by simp) (by simp [hn, counted]) nofun fun _ e he => ?_
      first | (simp_all; done) | exact hs.written n e he (by simp [hn])
  | _ =>
    cases hs
    simp only [step] at h
    split at h <;> (try split at h) <;> cases h
    all_goals
      constructor <;> first
        | assumption
        | grind [State.move, counted, running_of_counted, Undisturbed]

theorem exists_step (hpar : 0 < parallel) (hcancel : s.cancelled = false)
    (hret : s.returned.isNone) :
    ∃ l, l ≠ .cancel ∧ (step namespaces scan parallel s l).isSome := by
  -- a worker that has its permit can always move
  have hmove : ∀ n, (s.phase n).permit →
      ∃ l, l ≠ .cancel ∧ (step namespaces scan parallel s l).isSome := by
    intro n hn
    cases hp : s.phase n with
    | idle | waiting | gone => simp [hp, permit] at hn
    | scanning =>
      cases he : scan n with
      | none => exact ⟨.succeed n, by simp [step, hp, he]⟩
      | some e => exact ⟨.read n, by simp [step, hp, he]⟩
    | holding read e => exact ⟨.write n, by simp [step, hp]⟩
    | finished => exact ⟨.done n, by simp [step, hp]⟩
    | done => exact ⟨.release n, by simp [step, hp]⟩
  by_cases hw : ∃ n ∈ namespaces, s.phase n = .waiting
  · obtain ⟨n, -, hn⟩ := hw
    rcases Nat.lt_or_ge (namespaces.countP (fun m => (s.phase m).permit)) parallel with h | h
    · exact ⟨.acquire n, by simp [step, hn, hcancel, h]⟩
    · obtain ⟨m, -, hm⟩ := List.countP_pos_iff.1 (Nat.lt_of_lt_of_le hpar h)
      exact hmove m hm
  · have hw' : ∀ m ∈ namespaces, s.phase m ≠ .waiting := fun m hm h => hw ⟨m, hm, h⟩
    cases htodo : s.todo with
    | cons n rest => exact ⟨.add, by simpa [step, htodo, hret] using hw'⟩
    | nil =>
      by_cases hc : ∀ m ∈ namespaces, (s.phase m).counted = false
      · exact ⟨.wait, by simpa [step, htodo, hret] using hc⟩
      · simp only [not_forall, Bool.not_eq_false] at hc
        obtain ⟨m, hm, hcounted⟩ := hc
        exact hmove m (permit_of_running (running_of_counted hcounted (hw' m hm)))

/-- How many steps a worker in a phase has still to make. -/
def Phase.rank : Phase E → ℕ
  | .waiting => 5
  | .scanning => 4
  | .holding _ _ => 3
  | .finished => 2
  | .done => 1
  | .idle | .gone => 0

def State.ranks (s : State E) (namespaces : List String) : ℕ :=
  namespaces.foldr (fun n total => (s.phase n).rank + total) 0

/-- What is left to do: workers to start, their steps, a cancellation and the return. -/
def State.work (s : State E) (namespaces : List String) : ℕ :=
  6 * s.todo.length + s.ranks namespaces + (!s.cancelled).toNat + s.returned.isNone.toNat

omit [DecidableEq E] in
theorem State.ranks_move (hnodup : namespaces.Nodup) {n : String} (hn : n ∈ namespaces) :
    (s.move n p).ranks namespaces + (s.phase n).rank = s.ranks namespaces + p.rank := by
  unfold State.ranks
  induction namespaces with
  | nil => cases hn
  | cons m l ih =>
    obtain ⟨hm, hnodup⟩ := List.nodup_cons.1 hnodup
    simp only [List.foldr_cons]
    rcases List.mem_cons.1 hn with rfl | hl
    · have hrest : l.foldr (fun k total => ((s.move n p).phase k).rank + total) 0
          = l.foldr (fun k total => (s.phase k).rank + total) 0 :=
        List.foldr_ext _ _ _ fun k hk _ => by
          rw [State.phase_move, if_neg (ne_of_mem_of_not_mem hk hm)]
      rw [hrest, State.phase_move, if_pos rfl]
      omega
    · have := ih hnodup hl
      rw [State.phase_move, if_neg (ne_of_mem_of_not_mem hl hm).symm]
      omega

omit [DecidableEq E] in
theorem State.work_move (hnodup : namespaces.Nodup) {n : String} (hn : n ∈ namespaces)
    (hp : p.rank < (s.phase n).rank) : (s.move n p).work namespaces < s.work namespaces := by
  have := State.ranks_move (p := p) (s := s) hnodup hn
  exact Nat.add_lt_add_right (Nat.add_lt_add_right (Nat.add_lt_add_left (by omega) _) _) _

theorem step_work (hnodup : namespaces.Nodup) (s : State E) (l : Act) (s' : State E)
    (hs : s.WF namespaces scan) (h : step namespaces scan parallel s l = some s') :
    s'.work namespaces < s.work namespaces := by
  -- a worker that moves has been added, so that its rank is counted
  have hmove (n : String) (p : Phase E) (hp : p.rank < (s.phase n).rank) :=
    State.work_move hnodup (hs.mem n fun hidle => by rw [hidle] at hp; cases hp) hp
  cases l with
  | add =>
    simp only [step] at h
    split at h
    · cases h
    · next n rest htodo =>
      split at h <;> cases h
      obtain ⟨hn, hidle⟩ := hs.todo n (htodo ▸ List.mem_cons_self)
      have hranks : _ + (s.phase n).rank = s.ranks namespaces + 5 :=
        State.ranks_move (p := .waiting) (s := { s with todo := rest }) hnodup hn
      have hrank : (s.phase n).rank = 0 := congrArg Phase.rank hidle
      show 6 * rest.length + _ + (!s.cancelled).toNat + s.returned.isNone.toNat
        < 6 * s.todo.length + _ + _ + _
      rw [htodo, List.length_cons]
      omega
  | wait =>
    obtain ⟨hreturned, ⟨⟩⟩ := Option.ite_none_right_eq_some.1 h
    exact Nat.add_lt_add_left (by simp [hreturned.1]) _
  | cancel =>
    obtain ⟨hcancel, ⟨⟩⟩ := Option.ite_none_left_eq_some.1 h
    exact Nat.add_lt_add_right (Nat.add_lt_add_left (by simp [hcancel]) _) _
  | acquire n =>
    obtain ⟨hp, ⟨⟩⟩ := Option.ite_none_right_eq_some.1 h
    exact hmove n .scanning (by simp [hp.1, Phase.rank])
  | acquireFails n =>
    obtain ⟨hp, ⟨⟩⟩ := Option.ite_none_right_eq_some.1 h
    exact Nat.lt_of_le_of_lt (Nat.add_le_add_left (Nat.zero_le _) _)
      (hmove n .idle (by simp [hp.1, Phase.rank]))
  | succeed n =>
    obtain ⟨hp, ⟨⟩⟩ := Option.ite_none_right_eq_some.1 h
    exact hmove n .finished (by simp [hp.1, Phase.rank])
  | read n =>
    simp only [step] at h
    split at h
    · next hp _ => cases h; exact hmove n _ (by simp [hp, Phase.rank])
    · cases h
  | write n =>
    simp only [step] at h
    split at h
    · next hp => cases h; exact hmove n .finished (by simp [hp, Phase.rank])
    · cases h
  | done n =>
    obtain ⟨hp, ⟨⟩⟩ := Option.ite_none_right_eq_some.1 h
    exact hmove n .done (by simp [hp, Phase.rank])
  | release n =>
    obtain ⟨hp, ⟨⟩⟩ := Option.ite_none_right_eq_some.1 h
    exact hmove n .gone (by simp [hp, Phase.rank])

/-- **What a scan of all namespaces reports**: every undisturbed run is finite, and the scan
returns with no worker running; unless it is cancelled it can go on until it
returns, and what it returns then joins the errors of exactly the namespaces
that failed, so that it is nil iff none did. -/
theorem namespace_scan_reports (hpar : 0 < parallel) (hnodup : namespaces.Nodup) (ls : List Act)
    (s : State E) (hrun : run (step namespaces scan parallel) (start namespaces) ls = some s)
    (hsafe : Along (step namespaces scan parallel) Undisturbed (start namespaces) ls) :
    ls.length ≤ (start namespaces : State E).work namespaces
      ∧ (s.returned.isSome → ∀ n, (s.phase n).running = false) ∧ (s.cancelled = false →
        (s.returned = none → ∃ l, l ≠ .cancel ∧ (step namespaces scan parallel s l).isSome)
          ∧ ∀ r, s.returned = some r → ∃ joined, r = .waited joined
            ∧ (∀ e, e ∈ joined ↔ ∃ n ∈ namespaces, scan n = some e)
            ∧ (joined = [] ↔ ∀ n ∈ namespaces, scan n = none)) := by
  have hs : s.WF namespaces scan := run_induction _ step_wf (start_wf hnodup) hsafe hrun
  have hcounted : s.returned.isSome → ∀ n, (s.phase n).counted = false := fun h n =>
    hs.returned (Option.isNone_eq_false_iff.2 h) n
  have hlength := run_length_le _ step_wf (fun s l s' hs => step_work hnodup s l s' hs)
    (start_wf hnodup) hsafe hrun
  refine ⟨by omega, fun h n => ?_, fun hcancel => ⟨fun h => ?_, fun r hr => ?_⟩⟩
  · have := hcounted h n
    cases hp : s.phase n <;> simp_all [Phase.counted, Phase.running]
  · exact exists_step hpar hcancel (by rw [h]; rfl)
  · cases r with
    | notAcquired joined => exact absurd (hs.notAcquired joined hr) (by simp [hcancel])
    | waited joined =>
      obtain ⟨htodo, rfl⟩ := hs.waited joined hr
      have hjoined : ∀ e, e ∈ s.err ↔ ∃ n ∈ namespaces, scan n = some e := by
        refine fun e => ⟨hs.joined e, fun ⟨n, hn, he⟩ => hs.written n e he ?_⟩
        -- the worker was added, and is not counted any more
        have hidle : s.phase n ≠ .idle := fun hi => by simpa [htodo] using hs.added hcancel n hn hi
        have := hcounted (hr ▸ rfl) n
        cases hp : s.phase n <;> simp_all [Phase.counted]
      refine ⟨s.err, rfl, hjoined, ?_⟩
      rw [List.eq_nil_iff_forall_not_mem]
      simp only [hjoined, not_exists, not_and, Option.eq_none_iff_forall_ne_some]
      exact ⟨fun h n hn e => h e n hn, fun h e n hn => h n hn e⟩

theorem namespace_scan_of_two_reports :
    let acts : List Act := [.add, .acquire "a", .add, .acquire "b", .read "a", .write "a",
      .done "a", .read "b", .write "b", .done "b", .wait]
    ∃ s, run (step ["a", "b"] some 2) (start ["a", "b"]) acts = some s ∧ s.cancelled = false
      ∧ ∃ joined, s.returned = some (.waited joined) ∧ ∀ e, e ∈ joined ↔ e = "a" ∨ e = "b" := by
  intro acts
  have hsafe : Along (step ["a", "b"] some 2) Undisturbed (start ["a", "b"]) acts := by
    -- the errors are read when no worker holds one: every other step is free
    refine ⟨trivial, fun _ h₁ => ⟨trivial, fun _ h₂ => ⟨trivial, fun _ h₃ => ⟨trivial, fun _ h₄ =>
      ⟨?_, fun _ h₅ => ⟨trivial, fun _ h₆ => ⟨trivial, fun _ h₇ => ⟨?_, fun _ _ => ⟨trivial,
        fun _ _ => ⟨trivial, fun _ _ => ⟨trivial, fun _ _ => trivial⟩⟩⟩⟩⟩⟩⟩⟩⟩⟩⟩
    · cases h₁
      cases h₂
      cases h₃
      cases h₄
      intro m read e
      simp only [State.phase_move]
      split
      · simp
      · split <;> simp [start]
    · cases h₁
      cases h₂
      cases h₃
      cases h₄
      cases h₅
      cases h₆
      cases h₇
      intro m read e
      simp only [State.phase_move]
      split
      · simp
      · split <;> simp [start]
  obtain ⟨-, -, h⟩ := namespace_scan_reports Nat.two_pos (by decide) acts _ rfl hsafe
  obtain ⟨joined, hr, hjoined, -⟩ := (h rfl).2 _ rfl
  refine ⟨_, rfl, rfl, joined, congrArg some hr, fun e => (hjoined e).trans ?_⟩
  simp [eq_comm]

theorem namespace_error_is_lost :
    ((run (step ["a", "b"] some 2) (start ["a", "b"]) [.add, .acquire "a", .add, .acquire "b",
      .read "a", .read "b", .write "a", .write "b", .done "a", .done "b", .wait]).map (·.returned)
      = some (some (.waited ["b"])))
    ∧ (run (step ["a", "b"] some 1) (start ["a", "b"]) [.add, .acquire "a", .add, .cancel,
      .acquireFails "b"]).map (fun s => (s.returned, s.phase "a"))
      = some (some (.notAcquired []), .scanning) :=
  ⟨rfl, rfl⟩

end NamespaceScan

end AuditScanner
