import AdmController.EvaluationContexts

/-!
# What a strict start-up validates

Without `continueOnErrors` the start-up ends at the first policy or member whose
settings are rejected. Groups are not validated.
-/

open List EvaluationEnvironmentBuilder EvaluationEnvironment Registry PolicyID

def Engine.Accepts {M : Type} (engine : Engine M) (pre : PolicyEvaluatorPre M)
    (evalCtx : EvaluationContext) (settings : PolicySettings) : Prop :=
  ∃ evaluator, pre.rehydrate engine evalCtx = .ok evaluator
    ∧ (engine.validateSettings evaluator settings).valid = true

/-- **The verdict on settings depends on the module and the settings only.** -/
def Engine.VerdictsUniform {M : Type} (engine : Engine M) : Prop :=
  ∀ pre evalCtx evalCtx' settings, engine.Accepts pre evalCtx settings →
    engine.Accepts pre evalCtx' settings

theorem EvaluationEnvironmentBuilder.verdict_eq_ok_iff {M : Type}
    {b : EvaluationEnvironmentBuilder M} {pre : PolicyEvaluatorPre M} {i : Item} :
    b.verdict pre i = .ok () ↔ b.engine.Accepts pre (i.evalCtx b.globalPolicyEvaluationLimitSeconds)
      i.settings := by
  unfold verdict Engine.Accepts
  cases pre.rehydrate b.engine (i.evalCtx b.globalPolicyEvaluationLimitSeconds) with
  | error e => simp
  | ok evaluator =>
    cases hvalid : (b.engine.validateSettings evaluator i.settings).valid with
    | true => simp [hvalid]
    | false => simp [hvalid]

theorem PolicyGroupEvaluator.validatePolicySettings_eq_ok_iff {M : Type} {engine : Engine M}
    {ge : PolicyGroupEvaluator M} {name : String} {pre : PolicyEvaluatorPre M}
    {settings : PolicyGroupMemberSettings} (hpre : ge.policyMembers.lookup name = some pre)
    (hsettings : ge.policyMembersSettings.lookup name = some settings) :
    ge.validatePolicySettings engine name = .ok ()
      ↔ engine.Accepts pre (memberContext name settings) settings.settings := by
  unfold validatePolicySettings Engine.Accepts
  rw [memberEvaluator_eq hpre hsettings]
  cases pre.rehydrate engine (memberContext name settings) with
  | error e => simp [Except.map, Except.mapError]
  | ok evaluator =>
    cases hvalid : (engine.validateSettings evaluator settings.settings).valid with
    | true => simp [Except.map, Except.mapError, hvalid]
    | false => simp [Except.map, Except.mapError, hvalid]

section

variable {M : Type} {b : EvaluationEnvironmentBuilder M}
  {env : EvaluationEnvironment M} {policies : Policies}
  (hcont : b.continueOnErrors = false)
  (hbuild : b.buildEvaluationEnvironment policies = .ok env)

/-! ## Slots after a strict start-up -/

include hcont hbuild in
theorem attempt_of_strict {l l' : List Step} {i : Item}
    (hplan : plan policies = l ++ .item i :: l') :
    ((after b l).slot i.id).isGroup = false ∧ ∃ d pre, ((after b l).attempt b i).1 = some (d, pre)
      ∧ ((after b l).attempt b i).2 = .ok ()
      ∧ b.verdict pre i = .ok () := by
  have hok : ((after b l).attempt b i).2 = .ok () := by
    rcases goes_of_build hbuild hplan with h | h
    · rw [hcont] at h
      cases h
    · exact h
  obtain ⟨hgroup, d, pre, hreg, hverdict⟩ := b.attempt_eq_ok hok
  exact ⟨hgroup, d, pre, hreg, hok, hverdict⟩

include hcont hbuild in
theorem slot_of_strict_item {k : PolicyID} (hk : ∃ s ∈ plan policies, s.id? = some k)
    (hgroup : ∀ settings, .group k settings ∉ plan policies) :
    ∃ i d pre, i.id = k ∧ (env.slot k).Holds i d
      ∧ (env.slot k).isGroup = false ∧ env.registry.cache d = some pre
      ∧ b.verdict pre i = .ok () := by
  obtain ⟨l, s, l', hplan, hs, hl'⟩ := KeyedFold.exists_last hk
  have hmem : s ∈ plan policies := by
    rw [hplan]
    exact mem_append_right _ mem_cons_self
  cases s with
  | fail e => cases hs
  | group id settings =>
    cases hs
    exact absurd hmem (hgroup settings)
  | item i =>
    cases hs
    obtain ⟨hnot, d, pre, hreg, hok, hverdict⟩ := attempt_of_strict hcont hbuild hplan
    have hregistry := (reached_of_build hbuild).registry
    have hslot : env.slot i.id = ((after b l).slot i.id).bootstrap i (some (d, pre), .ok ()) := by
      show env.registry.slot i.id = _
      rw [hregistry, hplan, after_slot_split b hl', step_item_slot, ← hreg, ← hok]
    refine ⟨i, d, pre, rfl, ?_, ?_, ?_, hverdict⟩
    · rw [hslot]
      exact Slot.holds_bootstrap _ _ _ _ _
    · rw [hslot, Slot.isGroup_bootstrap]
      exact hnot
    · rw [hregistry, hplan]
      exact cache_of_attempt b hreg l'

include hcont hbuild in
theorem slot_of_strict_group {k : PolicyID} {settings : PolicyEvaluationSettings}
    (hk : .group k settings ∈ plan policies) :
    (env.slot k).settings = some settings := by
  have hex : ∃ s ∈ plan policies, s.id? = some k := ⟨_, hk, rfl⟩
  obtain ⟨l, s, l', hplan, hs, hl'⟩ := KeyedFold.exists_last hex
  have hmem : s ∈ plan policies := by
    rw [hplan]
    exact mem_append_right _ mem_cons_self
  cases s with
  | fail e => cases hs
  | item i =>
    cases hs
    -- the group was registered before, so the item could not be rehydrated
    obtain ⟨hnot, -⟩ := attempt_of_strict hcont hbuild hplan
    have hbefore : .group i.id settings ∈ l := by
      rw [hplan] at hk
      rcases mem_append.1 hk with hk | hk
      · exact hk
      · rcases mem_cons.1 hk with hk | hk
        · cases hk
        · exact absurd rfl (hl' _ hk)
    rw [(after_isGroup b l i.id).2 ⟨settings, hbefore⟩] at hnot
    cases hnot
  | group id settings' =>
    cases hs
    -- the names of the two groups are the text of the same identifier
    obtain ⟨name, g, he, hparse, rfl⟩ := policyGroup_of_group hk
    obtain ⟨name', g', he', hparse', rfl⟩ := policyGroup_of_group hmem
    cases (text_of_parse hparse).symm.trans (text_of_parse hparse')
    cases policies.nodupKeys.eq_of_mk_mem he he'
    show (env.registry.slot k).settings = _
    rw [(reached_of_build hbuild).registry, hplan, after_slot_split b hl', step_group_slot]
    rfl

end

/-! ## When all settings are valid -/

/-- **The configured identifiers**: of policies, groups and members. -/
inductive ConfiguredId (policies : Policies) : PolicyID → Prop
  | entry {name : String} {entry : PolicyOrPolicyGroup} {id : PolicyID}
    (he : ⟨name, entry⟩ ∈ policies.entries)
    (hid : parse name = .ok id) : ConfiguredId policies id
  | member {name : String} {g : PolicyGroup} {id : PolicyID} {m : String}
    (he : ⟨name, .policyGroup g⟩ ∈ policies.entries)
    (hid : parse name = .ok id) (hm : m ∈ g.policies.keys) :
    ConfiguredId policies (.policyGroupPolicy id.text m)

/-- The expression of a group evaluates when all members answer `true`. -/
def PolicyGroup.Evaluates {M : Type} (engine : Engine M) (g : PolicyGroup) : Prop :=
  ((engine.rhai g.policies.keys.toFinset g.expression).outcome
    (fun m => if m ∈ g.policies.keys then some true else none)).1.isSome

def MembersAreNotGroups (policies : Policies) : Prop :=
  ∀ name g id m name' g', ⟨name, .policyGroup g⟩ ∈ policies.entries →
    parse name = .ok id → m ∈ g.policies.keys →
    ⟨name', .policyGroup g'⟩ ∈ policies.entries →
    parse name' ≠ .ok (.policyGroupPolicy id.text m)

section

variable {M : Type} {b : EvaluationEnvironmentBuilder M}
  {env : EvaluationEnvironment M} {policies : Policies}

theorem step_of_configuredId (hfail : ∀ e, Step.fail e ∉ plan policies)
    {k : PolicyID} (hk : ConfiguredId policies k) :
    ∃ s ∈ plan policies, s.id? = some k := by
  cases hk with
  | @entry name entry id he hid =>
    cases entry with
    | policy policy =>
      obtain ⟨caps, -, hi⟩ := item_of_policy hfail he hid
      exact ⟨_, hi, rfl⟩
    | policyGroup g => exact ⟨_, group_of_policyGroup he hid, rfl⟩
  | @member name g id m he hid hm =>
    obtain ⟨⟨_, v⟩, hmem, rfl⟩ := mem_map.1 hm
    obtain ⟨caps, -, hi⟩ := item_of_member hfail he hid hmem
    exact ⟨_, hi, rfl⟩

variable {g : PolicyGroup} {id : PolicyID}

theorem evaluates_iff {ge : PolicyGroupEvaluator M}
    (hknows : PolicyGroupEvaluator.Knows (env.groupMember id) g.policies.keys ge)
    (hexpression : ge.expression = g.expression) (engine : Engine M) :
    (ge.evalAllTrue engine).toOption.isSome ↔ g.Evaluates engine := by
  have hanswer : (fun m => if m ∈ ge.policyMembers then some true else none)
      = fun m => if m ∈ g.policies.keys then some true else none := by
    funext m
    exact if_congr (hknows.mem_iff m) rfl rfl
  unfold PolicyGroup.Evaluates
  rw [ge.evalAllTrue_spec, hknows.toFinset_keys, hexpression, hanswer]

theorem validateSettings_eq_ok_iff (hs : (env.slot id).settings = some g.evaluationSettings)
    (engine : Engine M) :
    env.validateSettings engine id = .ok () ↔ ∃ ge, env.buildPolicyGroupEvaluator id = .ok ge
      ∧ PolicyGroupEvaluator.Knows (env.groupMember id) g.policies.keys ge
      ∧ (∀ m ∈ g.policies.keys, ge.validatePolicySettings engine m = .ok ())
      ∧ g.Evaluates engine := by
  rw [validateSettings_of_group hs rfl, Fallible.bind_eq_ok]
  refine exists_congr (fun ge => and_congr_right (fun hge => ?_))
  obtain ⟨hknows, -, -, hexpression⟩ := knows_of_build hs rfl hge
  have hvalid := ge.validateSettings_spec engine
  rw [evaluates_iff hknows hexpression] at hvalid
  simp only [hknows.mem_iff] at hvalid
  rw [← hvalid]
  by_cases h : (ge.validateSettings engine).valid = true
  · rw [if_pos h]
    exact iff_of_true rfl ⟨hknows, h⟩
  · rw [if_neg h]
    exact iff_of_false (fun h' => by cases h') (fun h' => h h'.2)

theorem MembersAreNotGroups.group_notMem (h : MembersAreNotGroups policies) {name : String}
    {m : String} (he : ⟨name, .policyGroup g⟩ ∈ policies.entries) (hid : parse name = .ok id)
    (hm : m ∈ g.policies.keys) (settings : PolicyEvaluationSettings) :
    .group (.policyGroupPolicy id.text m) settings ∉ plan policies := by
  intro hmem
  obtain ⟨name', g', he', hparse', -⟩ := policyGroup_of_group hmem
  exact h name g id m name' g' he hid hm he' hparse'

theorem groupMember_of_strict (hcont : b.continueOnErrors = false)
    (huniform : b.engine.VerdictsUniform) (hbuild : b.buildEvaluationEnvironment policies = .ok env)
    (hgroups : MembersAreNotGroups policies) {name : String} {m : String}
    (he : ⟨name, .policyGroup g⟩ ∈ policies.entries) (hid : parse name = .ok id)
    (hm : m ∈ g.policies.keys) :
    ∃ pre settings, env.groupMember id m = .ok (pre, settings)
      ∧ ∀ evalCtx, b.engine.Accepts pre evalCtx settings.settings := by
  have hfail := fail_notMem_of_build hbuild
  obtain ⟨i, d, pre, hk, hholds, -, hpre, hverdict⟩ :=
    slot_of_strict_item hcont hbuild (step_of_configuredId hfail (.member he hid hm))
      (hgroups.group_notMem he hid hm)
  refine ⟨pre, _, groupMember_of_holds (reached_of_build hbuild).configured hk
    (hk ▸ hholds) hpre, fun evalCtx => ?_⟩
  exact huniform _ _ _ _ (verdict_eq_ok_iff.1 hverdict)

/-- **What a strict start-up guarantees.** All settings are valid exactly when
the expression of every group evaluates with all answers `true`, and no member
has the identifier of a group. -/
theorem validateSettings_ok_iff (hcont : b.continueOnErrors = false)
    (huniform : b.engine.VerdictsUniform)
    (hbuild : b.buildEvaluationEnvironment policies = .ok env) :
    (∀ k, ConfiguredId policies k → env.validateSettings b.engine k = .ok ())
      ↔ (∀ name g, ⟨name, .policyGroup g⟩ ∈ policies.entries → g.Evaluates b.engine)
        ∧ MembersAreNotGroups policies := by
  have hfail := fail_notMem_of_build hbuild
  have hslot : ∀ name g id, ⟨name, .policyGroup g⟩ ∈ policies.entries → parse name = .ok id →
      (env.slot id).settings = some g.evaluationSettings :=
    fun name g id he hid =>
      slot_of_strict_group hcont hbuild (group_of_policyGroup he hid)
  constructor
  · intro h
    constructor
    · intro name g he
      obtain ⟨id, hid⟩ := parse_of_mem hfail he
      obtain ⟨_, -, -, -, heval⟩ := (validateSettings_eq_ok_iff
        (hslot name g id he hid) _).1 (h id (.entry he hid))
      exact heval
    · intro name g id m name' g' he hid hm he' hparse'
      obtain ⟨_, -, hknows, -⟩ := (validateSettings_eq_ok_iff
        (hslot name g id he hid) _).1 (h id (.entry he hid))
      -- the member is found, although a group is registered in its place
      obtain ⟨_, hfound, -⟩ := hknows.lookup m hm
      obtain ⟨s, settings, hs, hpolicy⟩ := settings_of_groupMember hfound
      rw [hslot name' g' _ he' hparse'] at hs
      cases hs
      cases hpolicy
  · rintro ⟨heval, hgroups⟩ k hk
    by_cases hgroup : ∃ settings, .group k settings ∈ plan policies
    · obtain ⟨settings, hstep⟩ := hgroup
      obtain ⟨name, g, he, hid, -⟩ := policyGroup_of_group hstep
      have hs := hslot name g k he hid
      obtain ⟨ge, hge⟩ := exists_build hs rfl (fun m hm => by
          obtain ⟨pre, settings, hfound, -⟩ := groupMember_of_strict hcont
            huniform hbuild hgroups he hid hm
          exact ⟨_, hfound⟩)
      obtain ⟨hknows, -⟩ := knows_of_build hs rfl hge
      refine (validateSettings_eq_ok_iff hs _).2 ⟨ge, hge, hknows, fun m hm => ?_, heval name g he⟩
      obtain ⟨known, hlookup, hpre, hsettings⟩ := hknows.lookup m hm
      obtain ⟨pre, settings, hfound, haccepts⟩ := groupMember_of_strict hcont
        huniform hbuild hgroups he hid hm
      rw [hfound] at hlookup
      cases hlookup
      exact (PolicyGroupEvaluator.validatePolicySettings_eq_ok_iff hpre hsettings).2 (haccepts _)
    · obtain ⟨i, d, pre, rfl, hholds, hnot, hpre, hverdict⟩ :=
        slot_of_strict_item hcont hbuild (step_of_configuredId hfail hk) (not_exists.1 hgroup)
      rw [validateSettings_of_holds (reached_of_build hbuild).configured
        hholds hpre, hnot, hverdict]
      rfl

end

def Engine.oneExpression : Engine (List UInt8) :=
  .plain (fun _ _ => true) (fun _ expression =>
    if expression = "m()" then .call "m" (fun answer => .done (.ok answer))
    else .done (.error "Syntax error"))

/-- **A group with a broken expression passes a strict start-up.** -/
theorem broken_expression_passes_startup : validatePolicies (policyAndGroup "m(") = .ok ()
      ∧ (oneModuleBuilder .oneExpression false).continueOnErrors = false
      ∧ ∃ env, (oneModuleBuilder .oneExpression
        false).buildEvaluationEnvironment (policyAndGroup "m(") = .ok env
        ∧ env.validateSettings .oneExpression (.policy "g")
          = .error (.error (.policyInitialization "g: Syntax error")) :=
  ⟨rfl, rfl, _, rfl, rfl⟩

theorem Engine.verdictsUniform_oneExpression : Engine.oneExpression.VerdictsUniform := by
  intro pre evalCtx evalCtx' settings _
  obtain ⟨module, mode, limit⟩ := pre
  cases mode <;> exact ⟨_, rfl, rfl⟩

theorem validateSettings_ok_correctExpression :
    ∃ env, (oneModuleBuilder .oneExpression false).buildEvaluationEnvironment
      (policyAndGroup "m()") = .ok env
      ∧ ∀ k, ConfiguredId (policyAndGroup "m()") k →
        env.validateSettings .oneExpression k = .ok () := by
  have hbuild : (oneModuleBuilder .oneExpression
    false).buildEvaluationEnvironment (policyAndGroup "m()") = .ok _ := rfl
  refine ⟨_, hbuild, (validateSettings_ok_iff rfl
    Engine.verdictsUniform_oneExpression hbuild).2 ⟨?_, ?_⟩⟩
  · intro name g he
    rcases mem_pair.1 he with h | h
    · cases h
      rfl
    · cases h
  · intro name g id m name' g' _ _ _ he' hparse
    rcases mem_pair.1 he' with h | h
    · cases h
      cases hparse
    · cases h
