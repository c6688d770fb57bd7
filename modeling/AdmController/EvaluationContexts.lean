import AdmController.GroupMembers

/-!
# What a policy is evaluated with

Modules are shared between policies; settings and grants are not.
-/

namespace EvaluationEnvironmentBuilder

variable {M : Type} (b : EvaluationEnvironmentBuilder M)

def DigestsInjective : Prop :=
  ∀ url url' p p', b.precompiledPolicies.lookup url = some (.ok p) →
    b.precompiledPolicies.lookup url' = some (.ok p') →
    p.digest = p'.digest → p.precompiledModule = p'.precompiledModule

def deadline (timeoutEvalSeconds : Option ℕ) : Option ℕ :=
  match b.globalPolicyEvaluationLimitSeconds with
  | some global => some (timeoutEvalSeconds.getD global)
  | none => none

/-- **A single policy is evaluated with its own data**: its module, settings,
resources, host capabilities and deadline. -/
def UsesOwnPolicy (env : EvaluationEnvironment M) (name : String) (policy : Policy) : Prop :=
  ∃ (p : PrecompiledPolicy) (pre : PolicyEvaluatorPre M) (caps : HostCapabilities),
    b.precompiledPolicies.lookup policy.module = some (.ok p)
    ∧ HostCapabilities.new policy.hostCapabilities = .ok caps
    ∧ env.policyIdToModuleDigest.lookup (.policy name) = some p.digest
    ∧ b.engine.deserialize p.precompiledModule = .ok pre.module
    ∧ (env.policyIdToSettings.lookup (.policy name)).map (·.settings)
      = some (.policy (policy.settings.getD []))
    ∧ env.rehydrate b.engine (.policy name) = (pre.rehydrate b.engine
          { policyId := name
            ctxAwareResourcesAllowList := policy.contextAwareResources
            epochDeadline := b.deadline policy.timeoutEvalSeconds
            hostCapabilities := caps }).mapError
          (fun e => .webAssemblyError ("cannot rehydrate PolicyEvaluatorPre: " ++ e))

/-- **A member of a group is evaluated with its own data.** -/
def UsesOwnMember (env : EvaluationEnvironment M) (group name : String)
    (member : PolicyGroupMember) : Prop :=
  ∃ (p : PrecompiledPolicy) (pre : PolicyEvaluatorPre M) (caps : HostCapabilities),
    b.precompiledPolicies.lookup member.module = some (.ok p)
    ∧ HostCapabilities.new member.hostCapabilities = .ok caps
    ∧ env.policyIdToModuleDigest.lookup (.policyGroupPolicy group name) = some p.digest
    ∧ b.engine.deserialize p.precompiledModule = .ok pre.module
    ∧ ∀ g, env.buildPolicyGroupEvaluator (.policy group) = .ok g → g.memberEvaluator b.engine name
      = ((pre.rehydrate b.engine
          { policyId := name
            ctxAwareResourcesAllowList := member.contextAwareResources
            epochDeadline := b.deadline member.timeoutEvalSeconds
            hostCapabilities := caps }).mapError
          (GroupEvaluationError.cannotRehydratePolicyGroupMember name)).map
          (·, member.settings.getD [])

end EvaluationEnvironmentBuilder

section

variable {M : Type} {b : EvaluationEnvironmentBuilder M}
  {env : EvaluationEnvironment M} {policies : Policies}

open EvaluationEnvironmentBuilder

theorem epochDeadlineFor_eq (timeout : Option ℕ) :
    epochDeadlineFor timeout b.globalPolicyEvaluationLimitSeconds = b.deadline timeout := by
  unfold epochDeadlineFor deadline
  cases b.globalPolicyEvaluationLimitSeconds with
  | none => rfl
  | some global => rfl

theorem raise_ne_panic {α : Type} (x : Except EvaluationError α) : raise x ≠ .error .panic := by
  cases x with
  | error e => intro h; cases h
  | ok a => intro h; cases h

open EvaluationEnvironment Fallible

/-! ## Non-interference -/

theorem registered_of_rehydrate {engine : Engine M} {id : PolicyID} {evaluator : PolicyEvaluator M}
    (h : env.rehydrate engine id = .ok evaluator) :
    ∃ d, env.policyIdToModuleDigest.lookup id = some d := by
  unfold rehydrate at h
  split at h
  · cases h
  · obtain ⟨d, hd, -⟩ := bind_eq_ok.1 h
    cases hlookup : env.policyIdToModuleDigest.lookup id with
    | none => rw [hlookup] at hd; cases hd
    | some d' => exact ⟨d', rfl⟩

theorem registered_of_groupMember {id : PolicyID} {name : String}
    {m : PolicyEvaluatorPre M × PolicyGroupMemberSettings} (h : env.groupMember id name = .ok m) :
    ∃ d, env.policyIdToModuleDigest.lookup (.policyGroupPolicy id.text name) = some d := by
  cases hd : env.policyIdToModuleDigest.lookup (.policyGroupPolicy id.text name) with
  | none =>
    rw [groupMember_of_digest_none hd] at h
    cases h
  | some d => exact ⟨d, rfl⟩

section

variable (hvalid : validatePolicies policies = .ok ())
  (hbuild : b.buildEvaluationEnvironment policies = .ok env)

include hvalid hbuild

variable {d : String}

open EvaluationEnvironmentBuilder in
theorem own_of_registered (hsha : b.DigestsInjective) {i : Item} (hi : .item i ∈ plan policies)
    (hd : env.policyIdToModuleDigest.lookup i.id = some d) :
    ∃ p pre, b.precompiledPolicies.lookup i.url = some (.ok p)
      ∧ p.digest = d ∧ (env.slot i.id).Holds i d
      ∧ (env.slot i.id).isGroup = false
      ∧ env.registry.cache d = some pre
      ∧ b.engine.deserialize p.precompiledModule = .ok pre.module := by
  obtain ⟨-, hregistry⟩ := reached_of_build hbuild
  have hslot : (Registry.after b (plan policies)).slot = env.slot :=
    congrArg Registry.slot hregistry.symm
  obtain ⟨hholds, hgroup, ⟨p, hp, hpd⟩, pre, hpre⟩ :=
    holds_of_registered b (nodup_ids_plan hvalid) hi
      ((congrArg Slot.digest (congrFun hslot i.id)).trans hd)
  rw [hslot] at hholds hgroup
  obtain ⟨j, q, -, hq, hqd, hcreate⟩ := Registry.exists_offer_of_cache b hpre
  rw [b.compiled_eq_some] at hp hq
  have hbytes := hsha _ _ _ _ hp hq (hpd.trans hqd.symm)
  refine ⟨p, pre, hp, hpd, hholds, hgroup, ?_, ?_⟩
  · rw [hregistry]
    exact hpre
  · rw [hbytes]
    exact (b.eq_of_createPre hcreate).1

variable {name : String}

open EvaluationEnvironmentBuilder in
theorem usesOwnPolicy (hsha : b.DigestsInjective) {policy : Policy}
    (he : ⟨name, .policy policy⟩ ∈ policies.entries)
    (hd : env.policyIdToModuleDigest.lookup (.policy name) = some d) :
    b.UsesOwnPolicy env name policy := by
  have hfail := fail_notMem_of_build hbuild
  obtain ⟨caps, hcaps, hi⟩ := item_of_policy hfail he (parse_of_accepted hfail hvalid he)
  obtain ⟨p, pre, hp, rfl, hholds, hgroup, hpre, hmodule⟩ :=
    own_of_registered hvalid hbuild hsha hi hd
  have hs : env.policyIdToSettings.lookup (.policy name)
    = some (Item.ofPolicy (.policy name) policy caps).evaluationSettings :=
    hholds.settings
  refine ⟨p, pre, caps, hp, hcaps, hd, hmodule, by rw [hs]; rfl, ?_⟩
  rw [← epochDeadlineFor_eq]
  exact rehydrate_of_holds (reached_of_build hbuild).configured hholds hpre hgroup

variable {g : PolicyGroup}

open EvaluationEnvironmentBuilder in
theorem usesOwnMember (hsha : b.DigestsInjective) {group : String}
    (he : ⟨group, .policyGroup g⟩ ∈ policies.entries)
    {member : PolicyGroupMember} (hm : ⟨name, member⟩ ∈ g.policies.entries)
    (hd : env.policyIdToModuleDigest.lookup (.policyGroupPolicy group name) = some d) :
    b.UsesOwnMember env group name member := by
  have hcfg := (reached_of_build hbuild).configured
  have hfail := fail_notMem_of_build hbuild
  have hparse := parse_of_accepted hfail hvalid he
  obtain ⟨caps, hcaps, hi⟩ := item_of_member hfail he hparse hm
  obtain ⟨p, pre, hp, rfl, hholds, -, hpre, hmodule⟩ := own_of_registered hvalid hbuild hsha hi hd
  refine ⟨p, pre, caps, hp, hcaps, hd, hmodule, fun ge hge => ?_⟩
  have hgroup := slot_of_policyGroup hvalid hbuild he
  obtain ⟨hknows, -⟩ := knows_of_build (congrArg Slot.settings hgroup) rfl hge
  have hname : name ∈ g.policies.keys := List.mem_map.2 ⟨_, hm, rfl⟩
  obtain ⟨m, hlookup, hpreM, hsetM⟩ := hknows.lookup name hname
  rw [groupMember_of_holds hcfg rfl hholds hpre] at hlookup
  cases hlookup
  rw [PolicyGroupEvaluator.memberEvaluator_eq hpreM hsetM, ← epochDeadlineFor_eq]
  rfl

/-! ## No panics -/

theorem buildPolicyGroupEvaluator_ne_panic (he : ⟨name, .policyGroup g⟩ ∈ policies.entries) :
    env.buildPolicyGroupEvaluator (.policy name) ≠ .error .panic := by
  intro hpanic
  have hfail := fail_notMem_of_build hbuild
  obtain ⟨hcfg, hregistry⟩ := reached_of_build hbuild
  have hslots : env.slot = (Registry.after b (plan policies)).slot :=
    congrArg Registry.slot hregistry
  obtain ⟨member, hmember, hm⟩ :=
    exists_of_build_eq_error (congrArg Slot.settings (slot_of_policyGroup hvalid hbuild he)) rfl
      hpanic
  obtain ⟨⟨_, m⟩, hmem, rfl⟩ := List.mem_map.1 hmember
  obtain ⟨caps, -, hi⟩ := item_of_member hfail he (parse_of_accepted hfail hvalid he) hmem
  -- a member is registered, and found, or it is not, which is an error
  cases hd : (env.slot (.policyGroupPolicy name _)).digest with
  | none =>
    rw [groupMember_of_digest_none hd] at hm
    cases hm
  | some d =>
    obtain ⟨hholds, -, -, pre, hpre⟩ :=
      holds_of_registered b (nodup_ids_plan hvalid) hi (hslots ▸ hd)
    rw [← hslots] at hholds
    rw [groupMember_of_holds hcfg rfl hholds (hregistry ▸ hpre)] at hm
    cases hm

theorem validate_ne_panic (id : PolicyID) (request : ValidateRequest) :
    env.validate b.engine id request ≠ .error .panic := by
  intro hpanic
  unfold validate validateLogged at hpanic
  rw [map_eq_error] at hpanic
  rcases settings_cases hvalid hbuild id with
    hs | ⟨i, d, pre, -, rfl, hholds, hgroup, -⟩ | ⟨name, g, he, rfl, hslot⟩
  · -- the identifier is unknown
    have hs : env.policyIdToSettings.lookup id = none := hs
    unfold validatePolicyGroupLogged validatePolicyLogged buildPolicyGroupEvaluator
      getPolicySettings at hpanic
    rw [hs] at hpanic
    split at hpanic
    · cases hpanic
    · split at hpanic <;> cases hpanic
  · have hs : env.policyIdToSettings.lookup i.id = some i.evaluationSettings := hholds.settings
    rw [if_neg (of_decide_eq_false hgroup)] at hpanic
    unfold validatePolicyLogged getPolicySettings at hpanic
    rw [hs] at hpanic
    split at hpanic
    · cases hpanic
    · rcases bind_eq_error.1 hpanic with hpanic | ⟨_, hok, hpanic⟩
      · cases hpanic
      · cases hok
        rcases bind_eq_error.1 hpanic with hpanic | ⟨_, -, hpanic⟩
        · exact raise_ne_panic _ hpanic
        · cases hpanic
  · have hgroup : (env.slot (.policy name)).isGroup = true := by
      rw [hslot]
      rfl
    rw [if_pos (of_decide_eq_true hgroup)] at hpanic
    rcases bind_eq_error.1 hpanic with hpanic | ⟨_, -, hpanic⟩
    · exact buildPolicyGroupEvaluator_ne_panic hvalid hbuild he hpanic
    · cases hpanic

theorem validateSettings_ne_panic (id : PolicyID) :
    env.validateSettings b.engine id ≠ .error .panic := by
  intro hpanic
  rcases settings_cases hvalid hbuild id with
    hs | ⟨i, d, pre, -, rfl, hholds, -, hpre⟩ | ⟨name, g, he, rfl, hslot⟩
  · have hs : env.policyIdToSettings.lookup id = none := hs
    unfold validateSettings getPolicySettings at hpanic
    rw [hs] at hpanic
    cases hpanic
  · rw [validateSettings_of_holds (reached_of_build hbuild).configured hholds hpre] at hpanic
    exact raise_ne_panic _ hpanic
  · rw [validateSettings_of_group (congrArg Slot.settings hslot) rfl] at hpanic
    rcases bind_eq_error.1 hpanic with hpanic | ⟨_, -, hpanic⟩
    · exact buildPolicyGroupEvaluator_ne_panic hvalid hbuild he hpanic
    · split at hpanic <;> cases hpanic

theorem registered_of_build {group : String} (he : ⟨group, .policyGroup g⟩ ∈ policies.entries)
    {member : PolicyGroupMember} (hm : ⟨name, member⟩ ∈ g.policies.entries)
    {ge : PolicyGroupEvaluator M} (hge : env.buildPolicyGroupEvaluator (.policy group) = .ok ge) :
    ∃ d, env.policyIdToModuleDigest.lookup (.policyGroupPolicy group name) = some d := by
  obtain ⟨hknows, -⟩ := knows_of_build
    (congrArg Slot.settings (slot_of_policyGroup hvalid hbuild he)) rfl hge
  obtain ⟨m, hlookup, -⟩ := hknows.lookup name (List.mem_map.2 ⟨_, hm, rfl⟩)
  exact registered_of_groupMember hlookup

end

def PolicyEvaluator.Agrees (evaluator evaluator' : PolicyEvaluator M) : Prop :=
  evaluator.evalCtx = evaluator'.evalCtx ∧ evaluator.pre.module = evaluator'.pre.module

section

variable {policies' : Policies} {env' : EvaluationEnvironment M}
  {evaluator evaluator' : PolicyEvaluator M}

open PolicyEvaluatorPre

theorem agrees_of_usesOwnPolicy {name : String} {policy : Policy}
    (h : b.UsesOwnPolicy env name policy) (h' : b.UsesOwnPolicy env' name policy)
    (hev : env.rehydrate b.engine (.policy name) = .ok evaluator)
    (hev' : env'.rehydrate b.engine (.policy name) = .ok evaluator') :
    evaluator.Agrees evaluator' := by
  obtain ⟨p, pre, caps, hp, hcaps, -, hmodule, -, hre⟩ := h
  obtain ⟨p', pre', caps', hp', hcaps', -, hmodule', -, hre'⟩ := h'
  cases hp.symm.trans hp'
  cases hcaps.symm.trans hcaps'
  rw [hre, mapError_eq_ok] at hev
  rw [hre', mapError_eq_ok] at hev'
  rw [rehydrate_eq_ok b.engine hev, rehydrate_eq_ok b.engine hev']
  exact ⟨rfl, Except.ok.inj (hmodule.symm.trans hmodule')⟩

theorem agrees_of_usesOwnMember {group name : String} {member : PolicyGroupMember}
    {settings settings' : PolicySettings} {g g' : PolicyGroupEvaluator M}
    (h : b.UsesOwnMember env group name member) (h' : b.UsesOwnMember env' group name member)
    (hg : env.buildPolicyGroupEvaluator (.policy group) = .ok g)
    (hg' : env'.buildPolicyGroupEvaluator (.policy group) = .ok g')
    (hev : g.memberEvaluator b.engine name = .ok (evaluator, settings))
    (hev' : g'.memberEvaluator b.engine name = .ok (evaluator', settings')) :
    evaluator.Agrees evaluator' ∧ settings = settings' := by
  obtain ⟨p, pre, caps, hp, hcaps, -, hmodule, hre⟩ := h
  obtain ⟨p', pre', caps', hp', hcaps', -, hmodule', hre'⟩ := h'
  cases hp.symm.trans hp'
  cases hcaps.symm.trans hcaps'
  rw [hre g hg, map_eq_ok] at hev
  rw [hre' g' hg', map_eq_ok] at hev'
  obtain ⟨_, hev, heq⟩ := hev
  obtain ⟨_, hev', heq'⟩ := hev'
  cases heq
  cases heq'
  rw [mapError_eq_ok] at hev hev'
  rw [rehydrate_eq_ok b.engine hev, rehydrate_eq_ok b.engine hev']
  exact ⟨⟨rfl, Except.ok.inj (hmodule.symm.trans hmodule')⟩, rfl⟩

end

/-- **Every policy is evaluated with its own data**, if different modules have
different digests: identifiers do not clash; every registered policy and member
has its own module, settings, resources, host capabilities and deadline,
whatever the other entries are; and nothing panics. -/
theorem evaluators_use_own_data (hvalid : validatePolicies policies = .ok ())
    (hbuild : b.buildEvaluationEnvironment policies = .ok env)
    (hsha : b.DigestsInjective) :
    ((plan policies).filterMap Step.id?).Nodup
      ∧ (∀ name policy d, ⟨name, .policy policy⟩ ∈ policies.entries →
        env.policyIdToModuleDigest.lookup (.policy name) = some d →
        b.UsesOwnPolicy env name policy)
      ∧ (∀ group g name member d, ⟨group, .policyGroup g⟩ ∈ policies.entries →
        ⟨name, member⟩ ∈ g.policies.entries →
        env.policyIdToModuleDigest.lookup (.policyGroupPolicy group name) = some d →
        b.UsesOwnMember env group name member)
      ∧ (∀ policies' env', validatePolicies policies' = .ok () →
        b.buildEvaluationEnvironment policies' = .ok env' →
        (∀ name policy evaluator evaluator', ⟨name, .policy policy⟩ ∈ policies.entries →
          ⟨name, .policy policy⟩ ∈ policies'.entries →
          env.rehydrate b.engine (.policy name) = .ok evaluator →
          env'.rehydrate b.engine (.policy name) = .ok evaluator' →
          evaluator.Agrees evaluator')
        ∧ ∀ group g g' name member ge ge' evaluator evaluator' settings settings',
          ⟨group, .policyGroup g⟩ ∈ policies.entries →
          ⟨group, .policyGroup g'⟩ ∈ policies'.entries →
          ⟨name, member⟩ ∈ g.policies.entries →
          ⟨name, member⟩ ∈ g'.policies.entries →
          env.buildPolicyGroupEvaluator (.policy group) = .ok ge →
          env'.buildPolicyGroupEvaluator (.policy group) = .ok ge' →
          ge.memberEvaluator b.engine name = .ok (evaluator, settings) →
          ge'.memberEvaluator b.engine name = .ok (evaluator', settings') →
          evaluator.Agrees evaluator' ∧ settings = settings')
      ∧ ∀ id, env.validateSettings b.engine id ≠ .error .panic
        ∧ ∀ request, env.validate b.engine id request ≠ .error .panic := by
  refine ⟨nodup_ids_plan hvalid, fun name policy d he hd => usesOwnPolicy hvalid hbuild hsha he hd,
    fun group g name member d he hm hd =>
      usesOwnMember hvalid hbuild hsha he hm hd,
    fun policies' env' hvalid' hbuild' => ⟨?_, ?_⟩,
    fun id => ⟨validateSettings_ne_panic hvalid hbuild id,
      fun request => validate_ne_panic hvalid hbuild id request⟩⟩
  · intro name policy evaluator evaluator' he he' hev hev'
    obtain ⟨d, hd⟩ := registered_of_rehydrate hev
    obtain ⟨d', hd'⟩ := registered_of_rehydrate hev'
    exact agrees_of_usesOwnPolicy (usesOwnPolicy hvalid hbuild hsha he hd)
      (usesOwnPolicy hvalid' hbuild' hsha he' hd') hev hev'
  · intro group g g' name member ge ge' evaluator evaluator' settings
      settings' he he' hm hm' hge hge' hev hev'
    obtain ⟨d, hd⟩ := registered_of_build hvalid hbuild he hm hge
    obtain ⟨d', hd'⟩ := registered_of_build hvalid' hbuild' he' hm' hge'
    exact agrees_of_usesOwnMember (usesOwnMember hvalid hbuild hsha he hm hd)
      (usesOwnMember hvalid' hbuild' hsha he' hm' hd') hge hge' hev hev'

end

def policyAndGroup (expression : String) : Policies :=
  (AList.singleton "p" (.policy (.ofModule "registry://p"))).insert "g" (.policyGroup ⟨.protect,
    AList.singleton "m" (.ofModule "registry://p"), expression, "no"⟩)

def oneModuleBuilder (engine : Engine (List UInt8)) (continueOnErrors : Bool) :
    EvaluationEnvironmentBuilder (List UInt8) where
  engine := engine
  precompiledPolicies := AList.singleton "registry://p" (.ok ⟨[0], .opa, "d"⟩)
  continueOnErrors := continueOnErrors
  globalPolicyEvaluationLimitSeconds := some 2
  policyMemoryLimitBytes := none
  alwaysAcceptAdmissionReviewsOnNamespace := none

theorem digestsInjective_oneModuleBuilder (engine : Engine (List UInt8)) (continueOnErrors : Bool) :
    (oneModuleBuilder engine continueOnErrors).DigestsInjective := by
  intro url url' p p' h h' _
  have hmem := AList.mem_lookup_iff.1 h
  have hmem' := AList.mem_lookup_iff.1 h'
  cases List.mem_singleton.1 hmem
  cases List.mem_singleton.1 hmem'
  rfl

theorem evaluators_use_own_data_sharedModule :
    ∃ env, (oneModuleBuilder .trusting false).buildEvaluationEnvironment
      (policyAndGroup "m()") = .ok env
      ∧ (oneModuleBuilder .trusting false).UsesOwnPolicy env "p" (.ofModule "registry://p")
      ∧ (oneModuleBuilder .trusting false).UsesOwnMember env "g" "m"
        (.ofModule "registry://p") := by
  have hbuild : (oneModuleBuilder .trusting false).buildEvaluationEnvironment
    (policyAndGroup "m()") = .ok _ := rfl
  have hown := evaluators_use_own_data rfl hbuild (digestsInjective_oneModuleBuilder _ _)
  exact ⟨_, hbuild, hown.2.1 "p" _ "d" (List.mem_cons_of_mem _ List.mem_cons_self) rfl,
    hown.2.2.1 "g" _ "m" _ "d" List.mem_cons_self List.mem_cons_self rfl⟩
