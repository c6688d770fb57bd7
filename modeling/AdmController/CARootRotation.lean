import AdmController.CertSecrets
import AdmController.StepSystem

/-!
# Concurrent rotations of the CA

A pass that finds the CA about to expire makes a new one and saves the old
certificate, as it was in the secret that the pass was given.
-/

namespace CertReconciler

open Controller StepSystem

variable {C K : Type} (x : X509 C K)

/-! ## The passes -/

structure Version where
  resourceVersion : ℕ
  secret : Secret

/-- **Where a pass is**: what it was given, the rotation, the attempts left. -/
inductive RotatingPass where
  | idle
  | began (given : Secret)
  | trying (given : Secret) (rotation : Rotation) (attempts : ℕ)
  | updating (given : Secret) (rotation : Rotation) (attempts : ℕ) (copy : Version)

structure RotationUpdate where
  (replaced stored : Secret)

/-- **The secret with all its versions**, the passes, and their updates. -/
structure RotationState (ι : Type) where
  current : Version
  older : List Version
  passes : ι → RotatingPass
  updates : List RotationUpdate

/-- What happens; a read may return a version that is not the current one. -/
inductive RotationAction (ι : Type) where
  | read (pass : ι) (version : ℕ)
  | reconcileCARoot (pass : ι) (now : ℕ) (generated : Except String (Pem × Pem))
  | get (pass : ι) (version : ℕ)
  | update (pass : ι)
  | fail (pass : ι)
  | write (secret : Secret)

variable {ι : Type} [DecidableEq ι]

def RotationState.init (secret : Secret) : RotationState ι where
  current := ⟨0, secret⟩
  older := []
  passes _ := .idle
  updates := []

variable (s : RotationState ι)

def RotationState.version (n : ℕ) : Option Version := (s.current :: s.older)[n]?

def RotationState.goOn (pass : ι) (next : RotatingPass) : RotationState ι :=
  { s with passes := Function.update s.passes pass next }

def RotationState.store (secret : Secret) : RotationState ι :=
  { s with
    current := ⟨s.current.resourceVersion + 1, secret⟩
    older := s.current :: s.older }

def backoffSteps : ℕ := 4

/-- **One step.** A conflict is tried again; other failures end the pass. -/
def rotationStep : RotationAction ι → Option (RotationState ι)
  | .read pass n =>
    match s.passes pass, s.version n with
    | .idle, some copy => some (s.goOn pass (.began copy.secret))
    | _, _ => none
  | .reconcileCARoot pass now generated =>
    match s.passes pass with
    | .began given =>
      match reconcileCARoot x given now generated with
      | .ok (some rotation) => some (s.goOn pass (.trying given rotation backoffSteps))
      | .ok none => some (s.goOn pass .idle)
      | .error _ => some (s.goOn pass .idle)
    | _ => none
  | .get pass n =>
    match s.passes pass, s.version n with
    | .trying given rotation (attempts + 1), some copy =>
      some (s.goOn pass (.updating given rotation attempts
        { copy with secret := rotation.mutate copy.secret }))
    | _, _ => none
  | .update pass =>
    match s.passes pass with
    | .updating given rotation attempts copy =>
      if copy.resourceVersion = s.current.resourceVersion then
        some { (s.store copy.secret).goOn pass .idle with
          updates := ⟨s.current.secret, copy.secret⟩ :: s.updates }
      else if attempts = 0 then some (s.goOn pass .idle)
      else some (s.goOn pass (.trying given rotation attempts))
    | _ => none
  | .fail pass => some (s.goOn pass .idle)
  | .write secret => some (s.store secret)

/-! ## What an update keeps -/

def RotationUpdate.Keeps (u : RotationUpdate) : Prop :=
  oldRootCert u.stored = rootCert u.replaced ∧ caBundleFromSecret u.stored
    = (rootCert u.stored).getD [] ++ (rootCert u.replaced).getD []

theorem keeps_iff {u : RotationUpdate} : u.Keeps ↔ oldRootCert u.stored = rootCert u.replaced := by
  refine and_iff_left_of_imp fun h => ?_
  unfold caBundleFromSecret
  rw [h]

/-- **The condition**: an update finds the certificate its pass was given. -/
def FindsGiven : RotationAction ι → Prop
  | .update pass =>
    match s.passes pass with
    | .updating given _ _ copy =>
      copy.resourceVersion = s.current.resourceVersion → rootCert s.current.secret = rootCert given
    | _ => True
  | _ => True

def RotatingPass.Saves : RotatingPass → Prop
  | .trying given rotation _ => rootCert given = some rotation.oldCACert
  | .updating given rotation _ copy =>
    rootCert given = some rotation.oldCACert ∧ oldRootCert copy.secret = some rotation.oldCACert
  | _ => True

variable {pass : ι}

theorem saves_goOn {s : RotationState ι} {next : RotatingPass}
    (hs : ∀ p, (s.passes p).Saves) (h : next.Saves) (p : ι) :
    ((s.goOn pass next).passes p).Saves := by
  show (Function.update s.passes pass next p).Saves
  rw [Function.update_apply]
  split
  · exact h
  · exact hs p

/-- What is expected of a step: passes go on, and the updates that keep what
they replace are those that find what was given. -/
def StepSpec (a : RotationAction ι) (s' : RotationState ι) : Prop :=
  (∀ p, (s'.passes p).Saves) ∧ ((∀ u ∈ s'.updates, u.Keeps)
    ↔ (∀ u ∈ s.updates, u.Keeps) ∧ FindsGiven s a)

theorem stepSpec_goOn {s : RotationState ι} {a : RotationAction ι}
    {next : RotatingPass} (hs : ∀ p, (s.passes p).Saves) (h : next.Saves)
    (hfinds : FindsGiven s a) : StepSpec s a (s.goOn pass next) :=
  ⟨saves_goOn hs h, (and_iff_left hfinds).symm⟩

theorem stepSpec_update {s s' : RotationState ι} (hs : ∀ p, (s.passes p).Saves)
    (h : rotationStep x s (.update pass) = some s') :
    StepSpec s (.update pass) s' := by
  dsimp only [rotationStep] at h
  split at h
  · next given rotation attempts copy hpass =>
    have hsaves := hs pass
    rw [hpass] at hsaves
    have hfinds : FindsGiven s (.update pass) ↔ (copy.resourceVersion = s.current.resourceVersion →
          rootCert s.current.secret = rootCert given) := by
      dsimp only [FindsGiven]
      rw [hpass]
    split at h
    · next hcurrent =>
      cases h
      refine ⟨saves_goOn hs trivial, ?_⟩
      rw [List.forall_mem_cons, keeps_iff, and_comm, hfinds,
        imp_iff_right hcurrent, hsaves.1, hsaves.2, eq_comm]
    · next hconflict =>
      have hfound := hfinds.2 fun h => absurd h hconflict
      split at h
      · cases h
        exact stepSpec_goOn hs trivial hfound
      · cases h
        exact stepSpec_goOn hs hsaves.1 hfound
  · cases h

theorem rotationStep_spec {s s' : RotationState ι} {a : RotationAction ι}
    (hs : ∀ p, (s.passes p).Saves) (h : rotationStep x s a = some s') :
    StepSpec s a s' := by
  cases a with
  | read pass n =>
    dsimp only [rotationStep] at h
    split at h
    · cases h
      exact stepSpec_goOn hs trivial trivial
    · cases h
  | reconcileCARoot pass now generated =>
    dsimp only [rotationStep] at h
    split at h
    · split at h
      · next rotation hrotation =>
        cases h
        exact stepSpec_goOn hs (oldCACert_of_reconcileCARoot x hrotation) trivial
      · cases h
        exact stepSpec_goOn hs trivial trivial
      · cases h
        exact stepSpec_goOn hs trivial trivial
    · cases h
  | get pass n =>
    dsimp only [rotationStep] at h
    split at h
    · next given rotation attempts copy hpass _ =>
      cases h
      have hsaves := hs pass
      rw [hpass] at hsaves
      exact stepSpec_goOn hs ⟨hsaves, oldRootCert_mutate rotation copy.secret⟩ trivial
    · cases h
  | update pass => exact stepSpec_update x hs h
  | fail pass =>
    cases h
    exact stepSpec_goOn hs trivial trivial
  | write secret =>
    cases h
    exact ⟨hs, (and_iff_left trivial).symm⟩

/-- **The updates of a run keep what they replace exactly if they find it.** -/
theorem rotation_keeps_replaced_iff {secret : Secret}
    {actions : List (RotationAction ι)} {s : RotationState ι}
    (hrun : run (rotationStep x) (.init secret) actions = some s) :
    (∀ u ∈ s.updates, u.Keeps) ↔ StepSystem.Along (rotationStep x) FindsGiven
      (.init secret) actions := by
  have hinit (p : ι) : ((RotationState.init secret).passes p).Saves := trivial
  have hiff := run_iff_along (rotationStep x) (I := fun s => ∀ p, (s.passes p).Saves)
    (Q := fun s => ∀ u ∈ s.updates, u.Keeps)
    (fun _ _ _ hs hstep => rotationStep_spec x hs hstep) hinit hrun
  refine hiff.trans (and_iff_right fun u hu => ?_)
  cases hu

def sampleRotation : List (RotationAction ℕ) :=
  [.read 0 0, .reconcileCARoot 0 5000000 (.ok ([2], [102])),
    .write (sampleCARoot 1), .get 0 1, .update 0, .get 0 0, .update 0]

theorem run_sampleRotation : (run (rotationStep sampleX509)
    (.init (sampleCARoot 1)) sampleRotation).isSome = true := by
  decide +kernel

theorem rotation_keeps_replaced_after_conflict : ∃ s,
    run (rotationStep sampleX509) (.init (sampleCARoot 1)) sampleRotation = some s
      ∧ s.updates.map (fun u => (rootCert u.replaced, oldRootCert u.stored))
        = [(some [1], some [1])]
      ∧ StepSystem.Along (rotationStep sampleX509) FindsGiven
        (.init (sampleCARoot 1)) sampleRotation := by
  have hrun := (Option.some_get run_sampleRotation).symm
  refine ⟨_, hrun, by decide +kernel, (rotation_keeps_replaced_iff sampleX509 hrun).1 ?_⟩
  intro u hu
  rw [keeps_iff]
  revert u
  decide +kernel

def staleRotation : List (RotationAction ℕ) :=
  [.read 0 0, .reconcileCARoot 0 5000000 (.ok ([2], [102])), .get 0 0,
    .update 0, .read 0 1, .reconcileCARoot 0 5000000 (.ok ([3], [103])),
    .get 0 1, .update 0, .get 0 0, .update 0]

theorem run_staleRotation : (run (rotationStep sampleX509)
    (.init (sampleCARoot 1)) staleRotation).isSome = true := by
  decide +kernel

/-- **A certificate is lost**: the second rotation saves the first one. -/
theorem replaced_certificate_is_lost : ∃ s,
    run (rotationStep sampleX509) (.init (sampleCARoot 1)) staleRotation = some s
      ∧ ∃ u ∈ s.updates, rootCert u.replaced = some [2]
        ∧ rootCert u.stored = some [3] ∧ oldRootCert u.stored = some [1]
        ∧ caBundleFromSecret u.stored = [3, 1] ∧ ¬ u.Keeps := by
  have hlost : ∃ u ∈ (Option.get _ run_staleRotation).updates,
    rootCert u.replaced = some [2] ∧ rootCert u.stored = some [3] ∧ oldRootCert u.stored = some [1]
      ∧ caBundleFromSecret u.stored = [3, 1] := by decide +kernel
  obtain ⟨u, hu, hreplaced, hstored, hold, hbundle⟩ := hlost
  refine ⟨_, (Option.some_get run_staleRotation).symm, u, hu, hreplaced,
    hstored, hold, hbundle, fun hkeeps => ?_⟩
  rw [keeps_iff, hold, hreplaced] at hkeeps
  cases hkeeps

end CertReconciler
