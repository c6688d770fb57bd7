import AdmController.BootstrapPlan

/-!
# The registry behind an evaluation environment

A `Registry` tells for every identifier what is registered under it (`Slot`),
and for every digest the module. Each step of a plan changes its own slot only,
and depends on the rest through shared modules (`Registry.attempt`,
`reached_of_build`).
-/

open Fallible AList Function

/-- **What is known about one identifier.** -/
structure Slot where
  digest : Option String
  settings : Option PolicyEvaluationSettings
  ctxAwareAllowedResources : Option (BTreeSet ContextAwareResource)
  hostCapabilities : Option HostCapabilities
  error : Option String
  isGroup : Bool

namespace Slot

def empty : Slot := ⟨none, none, none, none, none, false⟩

def group (settings : PolicyEvaluationSettings) (s : Slot) : Slot :=
  { s with settings := some settings, isGroup := true }

def register (i : Item) (digest : String) (s : Slot) : Slot :=
  { s with
    digest := some digest
    settings := some i.evaluationSettings
    ctxAwareAllowedResources := some i.contextAwareResources
    hostCapabilities := some i.hostCapabilities }

structure Holds (i : Item) (d : String) (s : Slot) : Prop where
  digest : s.digest = some d
  settings : s.settings = some i.evaluationSettings
  resources : s.ctxAwareAllowedResources = some i.contextAwareResources
  capabilities : s.hostCapabilities = some i.hostCapabilities

theorem holds_register (i : Item) (d : String) (s : Slot) :
    (s.register i d).Holds i d := ⟨rfl, rfl, rfl, rfl⟩

def fail (msg : String) (s : Slot) : Slot := { s with error := some msg }

end Slot

/-- **The registry**: shared modules, and a slot for every identifier. -/
@[ext] structure Registry (M : Type) where
  cache : String → Option (PolicyEvaluatorPre M)
  slot : PolicyID → Slot

def EvaluationEnvironment.slot {M : Type} (env : EvaluationEnvironment M)
    (id : PolicyID) : Slot where
  digest := env.policyIdToModuleDigest.lookup id
  settings := env.policyIdToSettings.lookup id
  ctxAwareAllowedResources := env.policyIdToCtxAwareAllowedResources.lookup id
  hostCapabilities := env.policyIdToHostCapabilities.lookup id
  error := env.policyInitializationErrors.lookup id
  isGroup := decide (id ∈ env.policyGroups)

def EvaluationEnvironment.registry {M : Type} (env : EvaluationEnvironment M) : Registry M where
  cache := fun d => env.moduleDigestToPolicyEvaluatorPre.lookup d
  slot := env.slot

namespace EvaluationEnvironmentBuilder

variable {M : Type} (b : EvaluationEnvironmentBuilder M)

def createPre (id : PolicyID) (p : PrecompiledPolicy) :
    Except EvaluationError (PolicyEvaluatorPre M) := do
  let module ← createWasmtimeModule b.engine id p
  createPolicyEvaluatorPre b.engine module p.executionMode b.policyMemoryLimitBytes

def preFor (cached : Option (PolicyEvaluatorPre M)) (id : PolicyID)
    (p : PrecompiledPolicy) : Except EvaluationError (PolicyEvaluatorPre M) :=
  match cached with
  | some pre => .ok pre
  | none => b.createPre id p

def verdict (pre : PolicyEvaluatorPre M) (i : Item) : Except EvaluationError Unit :=
  match pre.rehydrate b.engine (i.evalCtx b.globalPolicyEvaluationLimitSeconds) with
  | .error e => .error (.webAssemblyError ("cannot rehydrate PolicyEvaluatorPre: " ++ e))
  | .ok evaluator =>
    let response := b.engine.validateSettings evaluator i.settings
    if response.valid then .ok ()
    else .error (.policyInitialization ("Policy settings are invalid: "
      ++ response.message.getD "no message"))

variable (cache : String → Option (PolicyEvaluatorPre M))

def attempt (isGroup : Bool) (i : Item) :
    Option (String × PolicyEvaluatorPre M) × Except EvaluationError Unit :=
  match b.precompiledPolicy i.id i.url with
  | .error e => (none, .error e)
  | .ok p =>
    match b.preFor (cache p.digest) i.id p with
    | .error e => (none, .error (.bootstrapFailure e.text))
    | .ok pre => (some (p.digest, pre),
      if isGroup then .error (.cannotRehydratePolicyGroup i.id.text)
      else b.verdict pre i)

theorem attempt_of_preFor (isGroup : Bool) {i : Item} {p : PrecompiledPolicy}
    {pre : PolicyEvaluatorPre M} (hp : b.precompiledPolicy i.id i.url = .ok p)
    (hpre : b.preFor (cache p.digest) i.id p = .ok pre) :
    b.attempt cache isGroup i = (some (p.digest, pre),
          if isGroup then .error (.cannotRehydratePolicyGroup i.id.text)
          else b.verdict pre i) := by
  unfold attempt
  simp only [hp, hpre]

theorem attempt_eq_ok {cache : String → Option (PolicyEvaluatorPre M)}
    {isGroup : Bool} {i : Item} (h : (b.attempt cache isGroup i).2 = .ok ()) :
    isGroup = false ∧ ∃ d pre, (b.attempt cache isGroup i).1 = some (d, pre)
      ∧ b.verdict pre i = .ok () := by
  cases hp : b.precompiledPolicy i.id i.url with
  | error e =>
    unfold attempt at h
    simp [hp] at h
  | ok p =>
    cases hpre : b.preFor (cache p.digest) i.id p with
    | error e =>
      unfold attempt at h
      simp [hp, hpre] at h
    | ok pre =>
      rw [b.attempt_of_preFor cache isGroup hp hpre] at h ⊢
      cases isGroup with
      | true => cases h
      | false => exact ⟨rfl, p.digest, pre, rfl, h⟩

end EvaluationEnvironmentBuilder

def Slot.bootstrap {M : Type} (i : Item) (result : Option (String × PolicyEvaluatorPre M)
    × Except EvaluationError Unit) (s : Slot) : Slot :=
  let s' := match result.1 with
    | some (digest, _) => s.register i digest
    | none => s
  match result.2 with
  | .ok () => s'
  | .error e => s'.fail e.text

section

variable {M : Type} (i : Item) (s : Slot) (registered : Option (String × PolicyEvaluatorPre M))
  (outcome : Except EvaluationError Unit)

theorem Slot.isGroup_bootstrap : (s.bootstrap i (registered, outcome)).isGroup = s.isGroup := by
  rcases registered with _ | ⟨d, pre⟩ <;> rcases outcome with e | u <;> rfl

theorem Slot.holds_bootstrap (d : String) (pre : PolicyEvaluatorPre M) :
    (s.bootstrap i (some (d, pre), outcome)).Holds i d := by
  rcases outcome with e | u
  · exact ⟨rfl, rfl, rfl, rfl⟩
  · exact ⟨rfl, rfl, rfl, rfl⟩

theorem Slot.error_bootstrap : (s.bootstrap i (registered, outcome)).error = match outcome with
        | .ok () => s.error
        | .error e => some e.text := by
  rcases registered with _ | ⟨d, pre⟩ <;> rcases outcome with e | u <;> rfl

theorem Slot.digest_bootstrap_empty : (Slot.empty.bootstrap i (registered, outcome)).digest
    = registered.map Prod.fst := by
  rcases registered with _ | ⟨d, pre⟩ <;> rcases outcome with e | u <;> rfl

theorem Slot.bootstrap_none :
    s.bootstrap i ((none : Option (String × PolicyEvaluatorPre M)), outcome) = match outcome with
        | .ok () => s
        | .error e => s.fail e.text := rfl

end

namespace Registry

variable {M : Type} (b : EvaluationEnvironmentBuilder M)

def empty : Registry M := ⟨fun _ => none, fun _ => .empty⟩

def attempt (r : Registry M) (i : Item) :
    Option (String × PolicyEvaluatorPre M) × Except EvaluationError Unit :=
  b.attempt r.cache (r.slot i.id).isGroup i

def share (cache : String → Option (PolicyEvaluatorPre M)) :
    Option (String × PolicyEvaluatorPre M) → String → Option (PolicyEvaluatorPre M)
  | some (digest, pre) => update cache digest (some pre)
  | none => cache

def step (r : Registry M) : Step → Registry M
  | .group id settings =>
    { r with
      slot := update r.slot id ((r.slot id).group settings) }
  | .item i =>
    { cache := share r.cache (r.attempt b i).1
      slot := update r.slot i.id ((r.slot i.id).bootstrap i (r.attempt b i)) }
  | .fail _ => r

def after (steps : List Step) : Registry M := steps.foldl (step b) empty

def Goes (r : Registry M) : Step → Prop
  | .group _ _ => True
  | .item i => b.continueOnErrors = true ∨ (r.attempt b i).2 = .ok ()
  | .fail _ => False

end Registry

namespace EvaluationEnvironment

variable {M : Type} (b : EvaluationEnvironmentBuilder M) (env : EvaluationEnvironment M)

/-! ## What the operations of the environment do to it -/

def Configured : Prop :=
  env.globalPolicyEvaluationLimitSeconds = b.globalPolicyEvaluationLimitSeconds
    ∧ env.policyMemoryLimitBytes = b.policyMemoryLimitBytes
    ∧ env.alwaysAcceptAdmissionReviewsOnNamespace = b.alwaysAcceptAdmissionReviewsOnNamespace

theorem registry_registerPolicyGroup (id : PolicyID) (settings : PolicyEvaluationSettings) :
    (env.registerPolicyGroup id settings).registry = env.registry.step b (.group id settings) := by
  refine Registry.ext rfl (funext fun j => ?_)
  show slot _ j = update env.slot id ((env.slot id).group settings) j
  by_cases h : j = id
  · subst h
    rw [update_self]
    simp [slot, registerPolicyGroup, Slot.group]
  · rw [update_of_ne h]
    simp [slot, registerPolicyGroup, lookup_insert_ne h, h]

theorem slot_recordError (id : PolicyID) (msg : String) :
    (env.recordError id msg).slot = update env.slot id ((env.slot id).fail msg) := by
  funext j
  by_cases h : j = id
  · subst h
    show { env.slot j with
      error := (env.policyInitializationErrors.insert j msg).lookup j } = _
    rw [lookup_insert, update_self]
    rfl
  · show { env.slot j with
      error := (env.policyInitializationErrors.insert id msg).lookup j } = _
    rw [lookup_insert_ne h, update_of_ne h]
    rfl

theorem slot_insertPolicy (i : Item) (globalLimit : Option ℕ) (digest : String) :
    (env.insertPolicy i.id i.evaluationSettings (i.evalCtx globalLimit) digest).slot
      = update env.slot i.id ((env.slot i.id).register i digest) := by
  funext j
  by_cases h : j = i.id
  · subst h
    rw [update_self]
    simp [slot, insertPolicy, Slot.register, Item.evalCtx, Item.evalCtxAs]
    rfl
  · rw [update_of_ne h]
    simp [slot, insertPolicy, lookup_insert_ne h]
    rfl

variable {b} {env : EvaluationEnvironment M}

theorem cacheModule_eq (hcfg : env.Configured b) (id : PolicyID) (p : PrecompiledPolicy) :
    (env.cacheModule b.engine id p).map (fun cache d => cache.lookup d)
      = (b.preFor (env.registry.cache p.digest) id p).map
        (fun pre => update env.registry.cache p.digest (some pre)) := by
  unfold cacheModule
  split
  · next hmem =>
    obtain ⟨pre, hpre⟩ := Option.isSome_iff_exists.1 (lookup_isSome.2 hmem)
    have hcache : env.registry.cache p.digest = some pre := hpre
    rw [hcache]
    show Except.ok env.registry.cache = .ok (update env.registry.cache p.digest (some pre))
    rw [← hcache, update_eq_self]
  · next hmem =>
    have hcache : env.registry.cache p.digest = none := lookup_eq_none.2 hmem
    rw [hcache, hcfg.2.1]
    show _ = (b.createPre id p).map _
    unfold EvaluationEnvironmentBuilder.createPre
    cases createWasmtimeModule b.engine id p with
    | error e => rfl
    | ok module =>
      show Except.map _ (createPolicyEvaluatorPre _ _ _ _ >>= _)
        = Except.map _ (createPolicyEvaluatorPre _ _ _ _)
      cases createPolicyEvaluatorPre b.engine module p.executionMode b.policyMemoryLimitBytes with
      | error e => rfl
      | ok pre => exact congrArg Except.ok (lookup_insert_eq_update _ _ _)

theorem register_spec (hcfg : env.Configured b) (i : Item)
    (p : PrecompiledPolicy) (globalLimit : Option ℕ) :
    (∃ e, b.preFor (env.registry.cache p.digest) i.id p = .error e
      ∧ env.register b.engine i.id i.evaluationSettings (i.evalCtx globalLimit) p = .error e)
      ∨ ∃ pre env', b.preFor (env.registry.cache p.digest) i.id p = .ok pre
        ∧ env.register b.engine i.id i.evaluationSettings (i.evalCtx globalLimit) p = .ok env'
        ∧ env'.Configured b
        ∧ env'.registry = ⟨Registry.share env.registry.cache (some (p.digest, pre)),
              update env.slot i.id ((env.slot i.id).register i p.digest)⟩ := by
  have hcache := cacheModule_eq hcfg i.id p
  unfold register
  cases hc : env.cacheModule b.engine i.id p with
  | error e =>
    rw [hc] at hcache
    cases hp : b.preFor (env.registry.cache p.digest) i.id p with
    | ok pre => rw [hp] at hcache; cases hcache
    | error e' =>
      rw [hp] at hcache
      cases hcache
      exact .inl ⟨e, rfl, rfl⟩
  | ok cache =>
    rw [hc] at hcache
    cases hp : b.preFor (env.registry.cache p.digest) i.id p with
    | error e' => rw [hp] at hcache; cases hcache
    | ok pre =>
      rw [hp] at hcache
      exact .inr ⟨pre, _, rfl, rfl, hcfg, Registry.ext
        (Except.ok.inj hcache) (slot_insertPolicy env i globalLimit _)⟩

/-! ## Evaluators of registered items -/

theorem rehydrate_of_holds (hcfg : env.Configured b) {i : Item} {digest : String}
    {pre : PolicyEvaluatorPre M} (hslot : (env.slot i.id).Holds i digest)
    (hpre : env.registry.cache digest = some pre) (hgroup : (env.slot i.id).isGroup = false) :
    env.rehydrate b.engine i.id = (pre.rehydrate b.engine
          (i.evalCtx b.globalPolicyEvaluationLimitSeconds)).mapError
          (fun e => .webAssemblyError ("cannot rehydrate PolicyEvaluatorPre: " ++ e)) := by
  unfold rehydrate getPolicySettings
  rw [if_neg (of_decide_eq_false hgroup)]
  have hd : env.policyIdToModuleDigest.lookup i.id = some digest := hslot.digest
  have hs : env.policyIdToSettings.lookup i.id = some i.evaluationSettings := hslot.settings
  have hr : env.policyIdToCtxAwareAllowedResources.lookup i.id
    = some i.contextAwareResources := hslot.resources
  have hh : env.policyIdToHostCapabilities.lookup i.id
    = some i.hostCapabilities := hslot.capabilities
  have hp : env.moduleDigestToPolicyEvaluatorPre.lookup digest = some pre := hpre
  rw [hd, hs, hr, hh, hcfg.1]
  show (orNotFound i.id (env.moduleDigestToPolicyEvaluatorPre.lookup digest) >>= _) = _
  rw [hp]
  rfl

theorem rehydrate_of_isGroup {id : PolicyID}
    (hgroup : (env.slot id).isGroup = true) (engine : Engine M) :
    env.rehydrate engine id = .error (.cannotRehydratePolicyGroup id.text) :=
  if_pos (of_decide_eq_true hgroup)

theorem validateSettings_of_holds (hcfg : env.Configured b) {i : Item} {digest : String}
    {pre : PolicyEvaluatorPre M} (hslot : (env.slot i.id).Holds i digest)
    (hpre : env.registry.cache digest = some pre) :
    env.validateSettings b.engine i.id = raise (if (env.slot i.id).isGroup
          then .error (.cannotRehydratePolicyGroup i.id.text)
          else b.verdict pre i) := by
  unfold validateSettings getPolicySettings
  have hs : env.policyIdToSettings.lookup i.id = some i.evaluationSettings := hslot.settings
  rw [hs]
  cases hgroup : (env.slot i.id).isGroup with
  | true =>
    rw [rehydrate_of_isGroup hgroup]
    rfl
  | false =>
    rw [rehydrate_of_holds hcfg hslot hpre hgroup]
    unfold EvaluationEnvironmentBuilder.verdict
    cases pre.rehydrate b.engine (i.evalCtx b.globalPolicyEvaluationLimitSeconds) with
    | error e => rfl
    | ok evaluator =>
      show _ = raise (if (b.engine.validateSettings evaluator i.settings).valid then _ else _)
      rw [apply_ite raise]
      rfl

end EvaluationEnvironment

/-! ## The environment is the registry -/

theorem Registry.after_append_singleton {M : Type}
    (b : EvaluationEnvironmentBuilder M) (steps : List Step) (s : Step) :
    Registry.after b (steps ++ [s]) = (Registry.after b steps).step b s := by
  unfold Registry.after
  rw [List.foldl_append]
  rfl

namespace EvaluationEnvironmentBuilder

variable {M : Type} {b : EvaluationEnvironmentBuilder M} {env : EvaluationEnvironment M}

open EvaluationEnvironment

theorem bootstrapPolicy_spec (hcfg : env.Configured b) (i : Item) :
    ∃ env', b.bootstrapPolicy env i.id i.url i.evaluationSettings
      (i.evalCtx b.globalPolicyEvaluationLimitSeconds)
      = (raise (env.registry.attempt b i).2, env')
      ∧ env'.Configured b
      ∧ env'.registry.cache = Registry.share env.registry.cache (env.registry.attempt b i).1
      ∧ env'.slot = update env.slot i.id ((env.slot i.id).bootstrap i
            ((env.registry.attempt b i).1, .ok ())) := by
  unfold bootstrapPolicy Registry.attempt attempt
  cases b.precompiledPolicy i.id i.url with
  | error e => exact ⟨env, rfl, hcfg, rfl, (update_eq_self _ _).symm⟩
  | ok p =>
    simp only
    rcases register_spec hcfg i p b.globalPolicyEvaluationLimitSeconds with
      ⟨e, hpre, hreg⟩ | ⟨pre, env', hpre, hreg, hcfg', hregistry⟩
    · rw [hpre, hreg]
      exact ⟨env, rfl, hcfg, rfl, (update_eq_self _ _).symm⟩
    · rw [hpre, hreg]
      have hcache : env'.registry.cache
          = Registry.share env.registry.cache (some (p.digest, pre)) :=
        congrArg Registry.cache hregistry
      have hslot : env'.slot = update env.slot i.id ((env.slot i.id).register i p.digest) :=
        congrArg Registry.slot hregistry
      have hid : env'.slot i.id = (env.slot i.id).register i p.digest := by rw [hslot, update_self]
      have hpre' : env'.registry.cache p.digest = some pre := by
        rw [hcache]
        exact update_self _ _ _
      refine ⟨env', ?_, hcfg', hcache, hslot⟩
      show (env'.validateSettings b.engine i.id, env') = _
      rw [validateSettings_of_holds hcfg' (hid ▸ Slot.holds_register i p.digest _) hpre', hid]
      rfl

theorem exec_spec (hcfg : env.Configured b) (s : Step) :
    (¬ env.registry.Goes b s ∧ ∃ e, b.exec env s = .error (.error e))
      ∨ (env.registry.Goes b s ∧ ∃ env', b.exec env s = .ok env'
        ∧ env'.Configured b ∧ env'.registry = env.registry.step b s) := by
  cases s with
  | fail e => exact .inl ⟨id, e, rfl⟩
  | group id settings =>
    exact .inr ⟨trivial, _, rfl, hcfg, registry_registerPolicyGroup b env id settings⟩
  | item i =>
    obtain ⟨env', hboot, hcfg', hcache, hslot⟩ := bootstrapPolicy_spec hcfg i
    have hexec : b.exec env (.item i) = b.bootstrapOrRecord env i.id i.url
      i.evaluationSettings (i.evalCtx b.globalPolicyEvaluationLimitSeconds) :=
      rfl
    unfold bootstrapOrRecord at hexec
    rw [hboot] at hexec
    cases hout : (env.registry.attempt b i).2 with
    | ok u =>
      rw [hout] at hexec
      refine .inr ⟨.inr hout, env', hexec, hcfg', Registry.ext hcache ?_⟩
      show env'.slot = _
      rw [hslot, ← hout]
      rfl
    | error e =>
      rw [hout] at hexec
      cases hcont : b.continueOnErrors with
      | false =>
        refine .inl ⟨fun h => ?_, e, ?_⟩
        · rcases h with h | h
          · rw [hcont] at h; cases h
          · rw [hout] at h; cases h
        · rw [hexec]
          rw [hcont]
          rfl
      | true =>
        refine .inr ⟨.inl hcont, env'.recordError i.id e.text, ?_, hcfg', Registry.ext hcache ?_⟩
        · rw [hexec]
          show (if b.continueOnErrors then _ else _) = _
          rw [hcont]
          rfl
        · show (env'.recordError i.id e.text).slot = _
          rw [slot_recordError, hslot, update_self, update_idem]
          show _ = update env.slot i.id ((env.slot i.id).bootstrap i (env.registry.attempt b i))
          unfold Slot.bootstrap
          rw [hout]

structure Reached (b : EvaluationEnvironmentBuilder M) (steps : List Step)
    (env : EvaluationEnvironment M) : Prop where
  configured : env.Configured b
  registry : env.registry = Registry.after b steps

theorem reached_of_foldlM {steps : List Step}
    (h : steps.foldlM b.exec b.initialEnvironment = .ok env) :
    Reached b steps env := by
  refine foldlM_ok_of_inv (P := Reached b) ⟨⟨rfl, rfl, rfl⟩, rfl⟩ ?_ h
  intro l env s env' hreached hexec
  rcases exec_spec hreached.configured s with
    ⟨-, e, he⟩ | ⟨-, env₁, hok, hcfg, hstep⟩
  · rw [he] at hexec
    cases hexec
  · rw [hok] at hexec
    cases hexec
    rw [hreached.registry] at hstep
    exact ⟨hcfg, hstep.trans (Registry.after_append_singleton b l s).symm⟩

variable {policies : Policies}

theorem reached_of_build (h : b.buildEvaluationEnvironment policies = .ok env) :
    Reached b (plan policies) env :=
  reached_of_foldlM (b.buildEvaluationEnvironment_eq_foldlM policies ▸ h)

theorem goes_of_build {l l' : List Step} {s : Step}
    (h : b.buildEvaluationEnvironment policies = .ok env) (hplan : plan policies = l ++ s :: l') :
    (Registry.after b l).Goes b s := by
  rw [buildEvaluationEnvironment_eq_foldlM, hplan, foldlM_append_eq_ok] at h
  obtain ⟨m, hm, hs⟩ := h
  rw [List.foldlM_cons, bind_eq_ok] at hs
  obtain ⟨m', hexec, -⟩ := hs
  have hreached := reached_of_foldlM hm
  rcases exec_spec hreached.configured s with ⟨-, e, he⟩ | ⟨hgoes, -⟩
  · rw [he] at hexec
    cases hexec
  · exact hreached.registry ▸ hgoes

theorem fail_notMem_of_build (h : b.buildEvaluationEnvironment policies = .ok env)
    (e : EvaluationError) : Step.fail e ∉ plan policies := by
  intro hmem
  obtain ⟨l, l', hplan⟩ := List.append_of_mem hmem
  exact goes_of_build h hplan

theorem build_ok_of_continueOnErrors (hcont : b.continueOnErrors = true)
    (hplan : ∀ e, Step.fail e ∉ plan policies) :
    ∃ env, b.buildEvaluationEnvironment policies = .ok env := by
  rw [buildEvaluationEnvironment_eq_foldlM]
  refine foldlM_ok_of_total (P := Configured b) ⟨rfl, rfl, rfl⟩ ?_
  intro s hs env hcfg
  rcases exec_spec hcfg s with ⟨hnot, -⟩ | ⟨-, env', hok, hcfg', -⟩
  · cases s with
    | fail e => exact absurd hs (hplan e)
    | group id settings => exact absurd trivial hnot
    | item i => exact absurd (Or.inl hcont) hnot
  · exact ⟨env', hok, hcfg'⟩

end EvaluationEnvironmentBuilder
