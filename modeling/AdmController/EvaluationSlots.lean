import AdmController.StepSystem

/-!
# How many evaluations run at once

`acquire_semaphore_and_evaluate` takes one of `pool_size` permits. When a
client disconnects the permit is dropped and the evaluation goes on, so that
dropped handlers add to the bound on evaluations (`executing_le_add_stray`).
-/

namespace EvaluationSlots

open StepSystem List Option

/-- **An evaluation** given to `spawn_blocking`. -/
inductive Evaluation where
  | spawned
  | running
  | ended (panicked : Bool)
  deriving DecidableEq

/-- **A request**, from its arrival on. `granted` is a handler that has its
permit and was not resumed yet; `detached` was dropped after it had spawned. -/
inductive Request where
  | acquiring
  | granted
  | joining (evaluation : Evaluation)
  | detached (evaluation : Evaluation)
  | done
  deriving DecidableEq

inductive Action where
  | spawn
  | start
  | finish (panicked : Bool)
  | resume
  | disconnect

inductive Label where
  | arrive
  | grant
  | act (i : ℕ) (action : Action)

/-- **The server**: the available permits, and the requests as they arrived. -/
structure State where
  available : ℕ
  requests : List Request

def State.initial (poolSize : ℕ) : State := ⟨poolSize, []⟩

def Evaluation.act : Evaluation → Action → Option Evaluation
  | .spawned, .start => some .running
  | .running, .finish panicked => some (.ended panicked)
  | _, _ => none

def Request.act : Request → Action → Option (Request × ℕ)
  | .granted, .spawn => some (.joining .spawned, 0)
  | .joining (.ended _), .resume => some (.done, 1)
  | .acquiring, .disconnect => some (.done, 0)
  | .granted, .disconnect => some (.done, 1)
  | .joining e, .disconnect => some (.detached e, 1)
  | .joining e, a => (e.act a).map (fun e' => (.joining e', 0))
  | .detached e, a => (e.act a).map (fun e' => (.detached e', 0))
  | _, _ => none

def step (s : State) : Label → Option State
  | .arrive => some ⟨s.available, s.requests ++ [.acquiring]⟩
  | .grant =>
    if 0 < s.available then
      (s.requests.findIdx? (· == .acquiring)).map
        (fun i => ⟨s.available - 1, s.requests.set i .granted⟩)
    else none
  | .act i a => do
    let r ← s.requests[i]?
    let (r', released) ← r.act a
    some ⟨s.available + released, s.requests.set i r'⟩

def Request.holds : Request → Bool
  | .granted | .joining _ => true
  | _ => false

def Request.executing : Request → Bool
  | .joining .running | .detached .running => true
  | _ => false

def Request.waiting : Request → Bool
  | .acquiring | .granted | .joining _ | .detached .spawned => true
  | _ => false

def Request.stray : Request → Bool
  | .detached .spawned | .detached .running => true
  | _ => false

open Request

def State.executing (s : State) : ℕ := s.requests.countP Request.executing

/-- No evaluation is being executed and no request is waiting. -/
def State.Quiet (s : State) : Prop := ∀ r ∈ s.requests, r.executing = false ∧ r.waiting = false

/-! ## What a step can do -/

/-- **What can happen to a request**, with the permits it gives back. -/
inductive Request.Move : Request → Action → Request → ℕ → Prop
  | spawn : Move .granted .spawn (.joining .spawned) 0
  | resume {panicked} : Move (.joining (.ended panicked)) .resume .done 1
  | leave : Move .acquiring .disconnect .done 0
  | giveBack : Move .granted .disconnect .done 1
  | detach {e} : Move (.joining e) .disconnect (.detached e) 1
  | awaited {e a e'} (h : e.act a = some e') : Move (.joining e) a (.joining e') 0
  | alone {e a e'} (h : e.act a = some e') : Move (.detached e) a (.detached e') 0

variable {r r' : Request} {released : ℕ} {a : Action}

theorem Request.move_of_act (h : r.act a = some (r', released)) : Move r a r' released := by
  unfold act at h
  split at h
  case h_6 e a _ _ =>
    obtain ⟨e', he, heq⟩ := map_eq_some_iff.mp h
    cases heq
    exact .awaited he
  case h_7 e a =>
    obtain ⟨e', he, heq⟩ := map_eq_some_iff.mp h
    cases heq
    exact .alone he
  case h_8 => cases h
  all_goals
    cases h
    constructor

theorem Request.Move.holds_eq (h : Move r a r' released) :
    r.holds.toNat = r'.holds.toNat + released := by
  cases h <;> rfl

variable {s s' : State} {l : Label}

theorem step_cases (h : step s l = some s') :
    (l = .arrive ∧ s' = ⟨s.available, s.requests ++ [.acquiring]⟩)
      ∨ (∃ i, l = .grant ∧ 0 < s.available ∧ s.requests[i]? = some .acquiring
        ∧ s' = ⟨s.available - 1, s.requests.set i .granted⟩)
      ∨ ∃ i a r r' released, l = .act i a ∧ s.requests[i]? = some r ∧ r.Move a r' released
        ∧ s' = ⟨s.available + released, s.requests.set i r'⟩ := by
  cases l with
  | arrive => exact .inl ⟨rfl, (some.inj h).symm⟩
  | grant =>
    simp only [step] at h
    split at h
    case isTrue hpos =>
      obtain ⟨i, hi, heq⟩ := map_eq_some_iff.mp h
      obtain ⟨hlt, hacq, -⟩ := findIdx?_eq_some_iff_getElem.mp hi
      have hget : s.requests[i]? = some .acquiring :=
        List.getElem?_eq_some_iff.mpr ⟨hlt, beq_iff_eq.mp hacq⟩
      exact .inr (.inl ⟨i, rfl, hpos, hget, heq.symm⟩)
    case isFalse => cases h
  | act i a =>
    obtain ⟨r, hr, h⟩ := bind_eq_some_iff.mp h
    obtain ⟨⟨r', released⟩, hact, h⟩ := bind_eq_some_iff.mp h
    exact .inr (.inr ⟨i, a, r, r', released, rfl, hr, move_of_act hact, (some.inj h).symm⟩)

/-! ## Counting requests -/

theorem countP_set_add {α : Type} {p : α → Bool} {l : List α} {i : ℕ}
    {a : α} (b : α) (h : l[i]? = some a) :
    (l.set i b).countP p + (p a).toNat = l.countP p + (p b).toNat := by
  obtain ⟨hi, rfl⟩ := List.getElem?_eq_some_iff.mp h
  have hpos : p l[i] = true → 0 < l.countP p := fun hp =>
    countP_pos_iff.mpr ⟨l[i], getElem_mem hi, hp⟩
  rw [countP_set hi]
  cases hp : p l[i] with
  | false => cases p b <;> simp
  | true =>
    have := hpos hp
    cases p b <;> simp <;> omega

theorem countP_le_add {α : Type} {p q r : α → Bool} (l : List α)
    (h : ∀ a, p a = true → q a = true ∨ r a = true) :
    l.countP p ≤ l.countP q + l.countP r := by
  induction l with
  | nil => exact Nat.le_refl 0
  | cons a l ih =>
    have hgrow : ∀ f : α → Bool, l.countP f ≤ (a :: l).countP f :=
      fun f => (sublist_cons_self a l).countP_le
    have hq := hgrow q
    have hr := hgrow r
    by_cases hp : p a = true
    · rw [countP_cons_of_pos hp]
      rcases h a hp with ha | ha
      · rw [countP_cons_of_pos ha]
        omega
      · rw [countP_cons_of_pos ha]
        omega
    · rw [countP_cons_of_neg hp]
      omega

theorem step_permits (h : step s l = some s') : s'.available + s'.requests.countP holds
    = s.available + s.requests.countP holds := by
  rcases step_cases h with ⟨-, rfl⟩ | ⟨i, -, hpos, hget, rfl⟩
    | ⟨i, a, r, r', released, -, hget, hmove, rfl⟩
  · simp [countP_append, holds]
  · have hcount := countP_set_add (p := holds) .granted hget
    simp only [holds, Bool.toNat_true, Bool.toNat_false] at hcount
    show s.available - 1 + (s.requests.set i .granted).countP _ = _
    omega
  · have hcount := countP_set_add (p := holds) r' hget
    have hholds := hmove.holds_eq
    show s.available + released + (s.requests.set i r').countP _ = _
    omega

variable {ls : List Label} {poolSize : ℕ}

theorem available_add_holding (h : run step (.initial poolSize) ls = some s) :
    s.available + s.requests.countP holds = poolSize :=
  run_invariant step (I := fun s => s.available + s.requests.countP holds = poolSize)
    (fun _ _ _ hs hstep => (step_permits hstep).trans hs) rfl h

theorem Request.holds_or_stray (h : r.executing = true) : r.holds = true ∨ r.stray = true := by
  unfold executing at h
  split at h
  · exact .inl rfl
  · exact .inr rfl
  · cases h

theorem executing_le_add_stray (h : run step (.initial poolSize) ls = some s) :
    s.executing ≤ poolSize + s.requests.countP Request.stray := by
  have hpermits := available_add_holding h
  have hcover : s.executing ≤ s.requests.countP Request.holds + s.requests.countP Request.stray :=
    countP_le_add s.requests (fun _ h => Request.holds_or_stray h)
  omega

theorem available_of_quiet (h : run step (.initial poolSize) ls = some s) (hquiet : s.Quiet) :
    s.available = poolSize := by
  have hpermits := available_add_holding h
  have hnone : s.requests.countP holds = 0 := by
    refine countP_eq_zero.mpr fun r hr hholds => ?_
    have hwaiting := (hquiet r hr).2
    cases r with
    | granted => cases hwaiting
    | joining e => cases hwaiting
    | acquiring => cases hholds
    | detached e => cases hholds
    | done => cases hholds
  omega

/-! ## The bound -/

/-- A disconnection drops no handler whose evaluation is not over. -/
def AwaitsEvaluations (s : State) (l : Label) : Prop :=
  ∀ i e, l = .act i .disconnect → s.requests[i]? = some (.joining e) →
    ∃ panicked, e = .ended panicked

theorem Request.Move.stray_eq_false (h : Move r a r' released) (hr : r.stray = false)
    (hawaits : ∀ e, a = .disconnect → r = .joining e → ∃ panicked, e = .ended panicked) :
    r'.stray = false := by
  cases h with
  | spawn => rfl
  | resume => rfl
  | leave => rfl
  | giveBack => rfl
  | awaited _ => rfl
  | @detach e =>
    obtain ⟨panicked, rfl⟩ := hawaits e rfl rfl
    rfl
  | @alone e a e' hact =>
    -- an evaluation that is not stray is over, and does not move
    cases e with
    | spawned => cases hr
    | running => cases hr
    | ended panicked => cases hact

theorem step_stray (h : step s l = some s') (hawaits : AwaitsEvaluations s l)
    (hs : s.requests.countP stray = 0) :
    s'.requests.countP stray = 0 := by
  rcases step_cases h with ⟨-, rfl⟩ | ⟨i, -, -, hget, rfl⟩
    | ⟨i, a, r, r', released, rfl, hget, hmove, rfl⟩
  · simp [countP_append, hs, stray]
  · have hcount := countP_set_add (p := stray) .granted hget
    simp only [stray, Bool.toNat_false, hs] at hcount
    exact hcount
  · have hr : r.stray = false := by
      have := countP_eq_zero.mp hs r (mem_of_getElem? hget)
      simpa using this
    have hr' : r'.stray = false :=
      hmove.stray_eq_false hr fun e ha hre =>
        hawaits i e (by rw [ha]) (by rw [hget, hre])
    have hcount := countP_set_add (p := stray) r' hget
    rw [hr, hr', hs] at hcount
    exact hcount

/-- **The bound of the pool**, if a disconnection drops no handler whose
evaluation is not over: at most `poolSize` evaluations are executed. -/
theorem executing_le_poolSize {poolSize : ℕ} {l : List Label} {s : State}
    (hawaits : StepSystem.Along step AwaitsEvaluations (.initial poolSize) l)
    (h : run step (.initial poolSize) l = some s) :
    s.executing ≤ poolSize ∧ (s.Quiet → s.available = poolSize) := by
  have hstray : s.requests.countP Request.stray = 0 :=
    run_induction step (I := fun s => s.requests.countP Request.stray = 0)
      (fun _ _ _ hs hP hstep => step_stray hstep hP hs) rfl hawaits h
  have hbound := executing_le_add_stray h
  rw [hstray] at hbound
  exact ⟨hbound, available_of_quiet h⟩

theorem executing_le_poolSize_one : ∃ s, run step (.initial 1)
        [.arrive, .grant, .act 0 .spawn, .act 0 .start, .arrive,
          .act 0 (.finish false), .act 0 .disconnect, .grant, .act 1 .spawn,
          .act 1 .start] = some s
      ∧ s.executing = 1
      ∧ s.executing ≤ 1 ∧ (s.Quiet → s.available = 1) := by
  refine ⟨⟨0, [.detached (.ended false), .joining .running]⟩, rfl, rfl, ?_⟩
  refine executing_le_poolSize (l := [.arrive, .grant, .act 0 .spawn,
    .act 0 .start, .arrive, .act 0 (.finish false), .act 0 .disconnect,
    .grant, .act 1 .spawn, .act 1 .start]) ?_ rfl
  have hover : ∀ (i : ℕ) (e : Evaluation), 0 = i →
      [Request.joining (.ended false), .acquiring][i]? = some (.joining e) →
        e = .ended false ∨ e = .ended true := by
    rintro i e rfl he
    exact .inl (Request.joining.inj (some.inj he)).symm
  simpa [StepSystem.Along, AwaitsEvaluations, step, State.initial,
    Request.act, Evaluation.act] using hover

/-- **One permit, two evaluations**: the first client disconnects. -/
theorem disconnection_exceeds_pool : ∃ s, run step (.initial 1)
        [.arrive, .grant, .act 0 .spawn, .act 0 .start, .act 0 .disconnect,
          .arrive, .grant, .act 1 .spawn, .act 1 .start] = some s
      ∧ s.executing = 2 :=
  ⟨⟨0, [.detached .running, .joining .running]⟩, rfl, rfl⟩

/-- A request that is answered, or was abandoned and has ended. -/
def Request.over : Request → Bool
  | .done | .detached (.ended _) => true
  | _ => false

/-- A step that the server takes by itself. -/
def Label.own : Label → Bool
  | .arrive | .act _ .disconnect => false
  | _ => true

/-- A request that has its permit, or is abandoned, waits for no other. -/
theorem Request.exists_act (h : r ≠ .acquiring) (hr : r.over = false) :
    ∃ a, a ≠ .disconnect ∧ (r.act a).isSome := by
  cases r with
  | acquiring => exact absurd rfl h
  | granted => exact ⟨.spawn, nofun, rfl⟩
  | done => cases hr
  | joining e =>
    cases e with
    | spawned => exact ⟨.start, nofun, rfl⟩
    | running => exact ⟨.finish false, nofun, rfl⟩
    | ended panicked => exact ⟨.resume, nofun, rfl⟩
  | detached e =>
    cases e with
    | spawned => exact ⟨.start, nofun, rfl⟩
    | running => exact ⟨.finish false, nofun, rfl⟩
    | ended panicked => cases hr

/-- **No deadlock**: where the server has no step to take by itself, every
request is over and no permit is lost, whatever the clients did. -/
theorem over_of_stuck {poolSize : ℕ} {l : List Label} {s : State} (hpool : 0 < poolSize)
    (h : run step (.initial poolSize) l = some s) (hstuck : ∀ a, a.own = true → step s a = none) :
    (∀ r ∈ s.requests, r.over = true) ∧ s.available = poolSize := by
  have hover : ∀ r ∈ s.requests, r ≠ .acquiring → r.over = true := by
    intro r hr hne
    by_contra hnot
    obtain ⟨i, hi⟩ := mem_iff_getElem?.mp hr
    obtain ⟨a, ha, hact⟩ := r.exists_act hne (Bool.eq_false_iff.mpr hnot)
    obtain ⟨p, hp⟩ := isSome_iff_exists.mp hact
    have hown : (Label.act i a).own = true := by
      cases a <;> first | rfl | exact absurd rfl ha
    simpa [step, hi, hp] using hstuck _ hown
  have hquiet : s.requests.countP holds = 0 := by
    refine countP_eq_zero.mpr fun r hr hholds => ?_
    have hend := hover r hr (by rintro rfl; cases hholds)
    cases r with
    | granted => cases hend
    | joining e => cases hend
    | _ => cases hholds
  have hpermits := available_add_holding h
  refine ⟨fun r hr => hover r hr ?_, by omega⟩
  -- all permits are available, so that one who waits is given one
  rintro rfl
  have hgrant := hstuck .grant rfl
  rw [step, if_pos (by omega), map_eq_none_iff, findIdx?_eq_none_iff] at hgrant
  exact absurd (hgrant _ hr) (by simp)

theorem over_of_stuck_served :
    (∀ r ∈ [Request.done], r.over = true) ∧ (State.mk 1 [.done]).available = 1 := by
  refine over_of_stuck (s := ⟨1, [.done]⟩) (l := [.arrive, .grant, .act 0 .spawn, .act 0 .start,
    .act 0 (.finish true), .act 0 .resume]) (by decide) rfl ?_
  rintro (_ | _ | ⟨_ | i, a⟩) hown
  · cases hown
  · rfl
  · cases a <;> rfl
  · rfl

end EvaluationSlots
