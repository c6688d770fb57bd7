import AdmController.EvaluationContexts

/-!
# Policies that failed to initialize

A group does not look at recorded errors: a member whose module was registered
before its settings were rejected is run like any other.
-/

open EvaluationEnvironmentBuilder EvaluationEnvironment

/-! ## Recorded members -/

def EvaluationEnvironment.Refuses {M : Type} (env : EvaluationEnvironment M) (engine : Engine M)
    (id : PolicyID) (request : ValidateRequest) (policy : PolicyID) : Prop :=
  (∃ e, env.validateLogged engine id request = .error (.error e))
    ∨ ∃ response log, env.validateLogged engine id request = .ok (response, log)
      ∧ response.allowed = false ∧ policy ∉ log

/-- **Policies that failed to initialize are never run.** -/
structure NeverRun {M : Type} (policies : Policies)
    (env : EvaluationEnvironment M) (engine : Engine M) : Prop where
  own : ∀ id msg request, env.policyInitializationErrors.lookup id = some msg →
    ∃ e, env.validateLogged engine id request = .error (.error e)
  group : ∀ name g m msg request, ⟨name, .policyGroup g⟩ ∈ policies.entries → m ∈ g.policies.keys →
    env.policyInitializationErrors.lookup (.policyGroupPolicy name m) = some msg →
    env.Refuses engine (.policy name) request (.policyGroupPolicy name m)

section

variable {M : Type} (b : EvaluationEnvironmentBuilder M) (policies : Policies)

def Starts (name : String) (g : PolicyGroup) (m : String) : Prop :=
  ∃ i pre evaluator, .item i ∈ entrySteps name (.policyGroup g)
    ∧ i.id = .policyGroupPolicy name m ∧ b.Shares policies i pre
    ∧ pre.rehydrate b.engine (PolicyGroupEvaluator.memberContext m
      (i.memberSettings b.globalPolicyEvaluationLimitSeconds))
      = .ok evaluator

/-- The expression of a group does not hold, and does not get to a member. -/
def NeverReached (name : String) (g : PolicyGroup) (m : String) : Prop :=
  ∀ answer : String → Option Bool, (∀ n, (answer n).isSome ↔ Starts b policies name g n) →
    ((b.engine.rhai g.policies.keys.toFinset g.expression).outcome answer).1 ≠ some true
      ∧ m ∉ ((b.engine.rhai g.policies.keys.toFinset g.expression).outcome answer).2

/-- **Members with rejected settings are kept out of their group**: another
member got no module, or the member is never reached. -/
def KeepsOut : Prop :=
  ∀ name g i m pre e, ⟨name, .policyGroup g⟩ ∈ policies.entries →
    .item i ∈ entrySteps name (.policyGroup g) →
    i.id = .policyGroupPolicy name m → b.Shares policies i pre →
    b.verdict pre i = .error e →
    (∃ j, .item j ∈ entrySteps name (.policyGroup g) ∧ ∀ pre', ¬ b.Shares policies j pre')
      ∨ NeverReached b policies name g m

end

section

variable {M : Type} {b : EvaluationEnvironmentBuilder M}
  {env : EvaluationEnvironment M} {policies : Policies}

section

variable (hvalid : validatePolicies policies = .ok ())
  (hbuild : b.buildEvaluationEnvironment policies = .ok env)
  {name : String} {g : PolicyGroup}
  (he : ⟨name, .policyGroup g⟩ ∈ policies.entries)
  {ge : PolicyGroupEvaluator M}
  (hge : env.buildPolicyGroupEvaluator (.policy name) = .ok ge)
  (hknows : PolicyGroupEvaluator.Knows (env.groupMember (.policy name)) g.policies.keys ge)

include hvalid hbuild

/-! ## The evaluator of a configured group -/

include he in
theorem item_of_key {m : String} (hm : m ∈ g.policies.keys) :
    ∃ i, .item i ∈ entrySteps name (.policyGroup g) ∧ i.id = .policyGroupPolicy name m := by
  have hfail := fail_notMem_of_build hbuild
  have hparse := parse_of_accepted hfail hvalid he
  obtain ⟨⟨_, v⟩, hmem, rfl⟩ := List.mem_map.1 hm
  obtain ⟨caps, hcaps, -⟩ := item_of_member hfail he hparse hmem
  exact ⟨_, item_mem_entrySteps.2 ⟨_, hparse, .inr ⟨g, _, v, caps, rfl, hmem, hcaps, rfl⟩⟩, rfl⟩

variable {i : Item}

include he in
theorem key_of_item (hi : .item i ∈ entrySteps name (.policyGroup g)) :
    ∃ m ∈ g.policies.keys, i.id = .policyGroupPolicy name m := by
  have hparse := parse_of_accepted (fail_notMem_of_build hbuild) hvalid he
  obtain ⟨id, hid, ⟨_, _, heq, -⟩ | ⟨_, m, v, caps, heq, hm, -, rfl⟩⟩ := item_mem_entrySteps.1 hi
  · cases heq
  · cases heq
    cases hparse.symm.trans hid
    exact ⟨m, List.mem_map.2 ⟨_, hm, rfl⟩, rfl⟩

theorem groupMember_of_shares {name m : String} (hid : i.id = .policyGroupPolicy name m)
    {pre : PolicyEvaluatorPre M} (hshares : b.Shares policies i pre) :
    env.groupMember (.policy name) m
      = .ok (pre, i.memberSettings b.globalPolicyEvaluationLimitSeconds) := by
  obtain ⟨d, hholds, -, hpre, -⟩ := slot_of_shares hvalid hbuild hshares
  exact groupMember_of_holds (reached_of_build hbuild).configured hid hholds hpre

include he in
theorem exists_groupEvaluator
    (hall : ∀ i, .item i ∈ entrySteps name (.policyGroup g) → ∃ pre, b.Shares policies i pre) :
    ∃ ge, env.buildPolicyGroupEvaluator (.policy name) = .ok ge
      ∧ PolicyGroupEvaluator.Knows (env.groupMember (.policy name)) g.policies.keys ge
      ∧ ge.expression = g.expression := by
  have hs := congrArg Slot.settings (slot_of_policyGroup hvalid hbuild he)
  obtain ⟨ge, hge⟩ := exists_build hs rfl (fun m hm => by
      obtain ⟨i, hi, hid⟩ := item_of_key hvalid hbuild he hm
      obtain ⟨pre, hpre⟩ := hall i hi
      exact ⟨_, groupMember_of_shares hvalid hbuild hid hpre⟩)
  obtain ⟨hknows, -, -, hexpression⟩ := knows_of_build hs rfl hge
  exact ⟨ge, hge, hknows, hexpression⟩

include he in
theorem groupEvaluator_error (hi : .item i ∈ entrySteps name (.policyGroup g))
    (hnot : ∀ pre, ¬ b.Shares policies i pre) :
    ∃ e, env.buildPolicyGroupEvaluator (.policy name) = .error (.error e) := by
  obtain ⟨m, hm, hid⟩ := key_of_item hvalid hbuild he hi
  have hdigest := slot_of_not_shares hvalid hbuild (mem_plan_of_mem he hi) hnot
  cases hge : env.buildPolicyGroupEvaluator (.policy name) with
  | error failure =>
    cases failure with
    | error e => exact ⟨e, rfl⟩
    | panic => exact absurd hge (buildPolicyGroupEvaluator_ne_panic hvalid hbuild he)
  | ok ge =>
    obtain ⟨⟨_, v⟩, hmem, rfl⟩ := List.mem_map.1 hm
    obtain ⟨d, hd⟩ := registered_of_build hvalid hbuild he hmem hge
    rw [hid] at hdigest
    rw [show env.policyIdToModuleDigest.lookup _ = none from hdigest] at hd
    cases hd

include he in
theorem shares_of_groupEvaluator {ge : PolicyGroupEvaluator M}
    (hge : env.buildPolicyGroupEvaluator (.policy name) = .ok ge)
    (hi : .item i ∈ entrySteps name (.policyGroup g)) :
    ∃ pre, b.Shares policies i pre := by
  by_contra hnot
  obtain ⟨e, herror⟩ := groupEvaluator_error hvalid hbuild he hi (not_exists.1 hnot)
  rw [hge] at herror
  cases herror

include hknows in
theorem memberEvaluator_of_shares {m : String} (hm : m ∈ g.policies.keys)
    (hid : i.id = .policyGroupPolicy name m) {pre : PolicyEvaluatorPre M}
    (hshares : b.Shares policies i pre) (engine : Engine M) :
    ge.memberEvaluator engine m = ((pre.rehydrate engine (PolicyGroupEvaluator.memberContext m
          (i.memberSettings b.globalPolicyEvaluationLimitSeconds))).mapError
          (GroupEvaluationError.cannotRehydratePolicyGroupMember m)).map
          (·, i.settings) := by
  obtain ⟨known, hlookup, hpre, hsettings⟩ := hknows.lookup m hm
  rw [groupMember_of_shares hvalid hbuild hid hshares] at hlookup
  cases hlookup
  exact PolicyGroupEvaluator.memberEvaluator_eq hpre hsettings engine

include he hge hknows in
theorem answer_isSome_iff (validate : PolicyEvaluator M → ValidateRequest → PolicySettings →
      AdmissionResponse) (request : ValidateRequest) (m : String) :
    (ge.answer (b.engine.withGuests validate) request m).isSome ↔ Starts b policies name g m := by
  unfold PolicyGroupEvaluator.answer
  rw [Option.isSome_map]
  constructor
  · intro h
    cases hev : ge.memberEvaluator (b.engine.withGuests validate) m with
    | error e => rw [hev] at h; cases h
    | ok pair =>
      have hm := (hknows.mem_iff m).1 (PolicyGroupEvaluator.mem_of_memberEvaluator hev)
      obtain ⟨i, hi, hid⟩ := item_of_key hvalid hbuild he hm
      obtain ⟨pre, hshares⟩ := shares_of_groupEvaluator hvalid hbuild he hge hi
      rw [memberEvaluator_of_shares hvalid hbuild hknows hm hid hshares, Fallible.map_eq_ok] at hev
      obtain ⟨evaluator, hev, -⟩ := hev
      exact ⟨i, pre, evaluator, hi, hid, hshares, Fallible.mapError_eq_ok.1 hev⟩
  · rintro ⟨i, pre, evaluator, hi, hid, hshares, hev⟩
    obtain ⟨m', hm', hid'⟩ := key_of_item hvalid hbuild he hi
    cases hid.symm.trans hid'
    rw [memberEvaluator_of_shares hvalid hbuild hknows hm' hid hshares, rehydrate_withGuests, hev]
    rfl

include he hge hknows in
theorem exists_guests {answer : String → Option Bool}
    (hanswer : ∀ m, (answer m).isSome ↔ Starts b policies name g m) (request : ValidateRequest) :
    ∃ validate, ge.answer (b.engine.withGuests validate) request = answer := by
  refine ⟨fun evaluator _ _ =>
    { uid := ""
      allowed := (answer evaluator.evalCtx.policyId).getD false
      patchType := none
      patch := none
      status := none
      auditAnnotations := none
      warnings := none }, funext fun m => ?_⟩
  cases ha : answer m with
  | none =>
    refine Option.not_isSome_iff_eq_none.1 (fun h => ?_)
    have hstarts := (answer_isSome_iff hvalid hbuild he hge hknows _ request m).1 h
    rw [← hanswer, ha] at hstarts
    cases hstarts
  | some a =>
    obtain ⟨i, pre, evaluator, hi, hid, hshares, hev⟩ := (hanswer m).1 (by rw [ha]; rfl)
    obtain ⟨m', hm', hid'⟩ := key_of_item hvalid hbuild he hi
    cases hid.symm.trans hid'
    -- the evaluator of a member carries its name
    cases PolicyEvaluatorPre.rehydrate_eq_ok b.engine hev
    unfold PolicyGroupEvaluator.answer
    rw [memberEvaluator_of_shares hvalid hbuild hknows hm' hid hshares, rehydrate_withGuests, hev]
    show some ((answer m).getD false) = some a
    rw [ha]
    rfl

/-! ## When failed members are never run -/

theorem validateLogged_of_error {id : PolicyID} {msg : String}
    (h : env.policyInitializationErrors.lookup id = some msg)
    (engine : Engine M) (request : ValidateRequest) :
    env.validateLogged engine id request = .error (.error (.policyInitialization msg)) := by
  have hgroup : id ∉ env.policyGroups := by
    intro hmem
    have hslot : (env.registry.slot id).isGroup = true := decide_eq_true hmem
    rw [(reached_of_build hbuild).registry, Registry.after_isGroup] at hslot
    obtain ⟨settings, hstep⟩ := hslot
    obtain ⟨name, g, he, hparse, -⟩ := policyGroup_of_group hstep
    cases (parse_of_accepted (fail_notMem_of_build hbuild) hvalid he).symm.trans hparse
    -- nothing is recorded for a group
    have herror : (env.slot (.policy name)).error = none := by
      rw [slot_of_policyGroup hvalid hbuild he]
      rfl
    cases herror.symm.trans h
  unfold validateLogged validatePolicyLogged
  rw [if_neg hgroup, h]

theorem validateLogged_of_group {name : String} {g : PolicyGroup}
    (he : ⟨name, .policyGroup g⟩ ∈ policies.entries) (engine : Engine M)
    (request : ValidateRequest) :
    env.validateLogged engine (.policy name) request
      = (env.buildPolicyGroupEvaluator (.policy name) >>= fun ge =>
          .ok ((ge.validateLogged engine request).1, (ge.validateLogged engine request).2.map
            (PolicyID.policyGroupPolicy name))) := by
  have hgroup : (env.slot (.policy name)).isGroup = true := by
    rw [slot_of_policyGroup hvalid hbuild he]
    rfl
  exact if_pos (of_decide_eq_true hgroup)

theorem refuses_iff {name : String} {g : PolicyGroup}
    (he : ⟨name, .policyGroup g⟩ ∈ policies.entries) {ge : PolicyGroupEvaluator M}
    (hge : env.buildPolicyGroupEvaluator (.policy name) = .ok ge) (engine : Engine M)
    (request : ValidateRequest) (m : String) :
    env.Refuses engine (.policy name) request (.policyGroupPolicy name m)
      ↔ ((engine.rhai ge.policyMembers.keys.toFinset ge.expression).outcome
          (ge.answer engine request)).1 ≠ some true
        ∧ m ∉ ((engine.rhai ge.policyMembers.keys.toFinset
          ge.expression).outcome (ge.answer engine request)).2 := by
  obtain ⟨hallowed, hlog⟩ := ge.validateLogged_spec engine request
  unfold EvaluationEnvironment.Refuses
  rw [validateLogged_of_group hvalid hbuild he, hge, ← hlog, ne_eq, ← hallowed, Bool.not_eq_true]
  have hmem : PolicyID.policyGroupPolicy name m ∈ (ge.validateLogged engine request).2.map
          (PolicyID.policyGroupPolicy name)
      ↔ m ∈ (ge.validateLogged engine request).2 :=
    List.mem_map_of_injective (fun _ _ h => (PolicyID.policyGroupPolicy.inj h).2)
  rw [← hmem]
  constructor
  · rintro (⟨e, h⟩ | ⟨response, log, h, hrejected, hnot⟩)
    · cases h
    · cases h
      exact ⟨hrejected, hnot⟩
  · rintro ⟨hrejected, hnot⟩
    exact .inr ⟨_, _, rfl, hrejected, hnot⟩

end

theorem rhai_of_knows {name : String} {g : PolicyGroup} {ge : PolicyGroupEvaluator M}
    (hknows : PolicyGroupEvaluator.Knows (env.groupMember (.policy name)) g.policies.keys ge)
    (hexpression : ge.expression = g.expression) (engine : Engine M) :
    engine.rhai ge.policyMembers.keys.toFinset ge.expression
      = engine.rhai g.policies.keys.toFinset g.expression := by
  rw [hknows.toFinset_keys, hexpression]

/-- **When policies that failed to initialize are never run**, whatever the
guests do: exactly when members with rejected settings are kept out of their
groups, since another member got no module, or the expression does not hold
without getting to them. -/
theorem errored_never_run_iff (hvalid : validatePolicies policies = .ok ())
    (hbuild : b.buildEvaluationEnvironment policies = .ok env) :
    (∀ validate, NeverRun policies env (b.engine.withGuests validate)) ↔ KeepsOut b policies := by
  constructor
  · intro h name g i m pre e he hi hid hshares hverdict
    by_cases hall : ∀ j, .item j ∈ entrySteps name (.policyGroup g) →
      ∃ pre', b.Shares policies j pre'
    · refine .inr (fun answer hanswer => ?_)
      obtain ⟨ge, hge, hknows, hexpression⟩ := exists_groupEvaluator hvalid hbuild he hall
      obtain ⟨validate, hvalidate⟩ := exists_guests hvalid hbuild he hge hknows hanswer (.raw .null)
      obtain ⟨m', hm', hid'⟩ := key_of_item hvalid hbuild he hi
      cases hid.symm.trans hid'
      obtain ⟨d, -, -, -, herror⟩ := slot_of_shares hvalid hbuild hshares
      rw [hverdict, hid] at herror
      have hrefuses := (h validate).group name g m e.text (.raw .null) he hm' herror
      rw [refuses_iff hvalid hbuild he hge, hvalidate, rhai_of_knows hknows hexpression] at hrefuses
      exact hrefuses
    · push Not at hall
      exact .inl hall
  · intro h validate
    constructor
    · intro id msg request herror
      exact ⟨_, validateLogged_of_error hvalid hbuild herror _ request⟩
    · intro name g m msg request he hm herror
      obtain ⟨i, hi, hid⟩ := item_of_key hvalid hbuild he hm
      by_cases hall : ∀ j, .item j ∈ entrySteps name (.policyGroup g) →
        ∃ pre', b.Shares policies j pre'
      · obtain ⟨ge, hge, hknows, hexpression⟩ := exists_groupEvaluator hvalid hbuild he hall
        obtain ⟨pre, hshares⟩ := hall i hi
        obtain ⟨d, -, -, -, hslot⟩ := slot_of_shares hvalid hbuild hshares
        have herror : (env.slot i.id).error = some msg := hid ▸ herror
        rw [herror] at hslot
        cases hverdict : b.verdict pre i with
        | ok u => rw [hverdict] at hslot; cases hslot
        | error e =>
          rcases h name g i m pre e he hi hid hshares hverdict with
            ⟨j, hj, hnot⟩ | hnever
          · obtain ⟨pre', hpre'⟩ := hall j hj
            exact absurd hpre' (hnot pre')
          · rw [refuses_iff hvalid hbuild he hge, rhai_of_knows hknows hexpression]
            exact hnever _ (answer_isSome_iff hvalid hbuild he hge hknows validate request)
      · push Not at hall
        obtain ⟨j, hj, hnot⟩ := hall
        obtain ⟨e, herror⟩ := groupEvaluator_error hvalid hbuild he hj hnot
        refine .inl ⟨e, ?_⟩
        rw [validateLogged_of_group hvalid hbuild he, herror]
        rfl

end

def Engine.rejectingMember : Engine (List UInt8) :=
  .plain (fun evaluator _ => evaluator.evalCtx.policyId ≠ "g/m")
    (fun _ _ => .call "m" (fun answer => .done (.ok answer)))

/-- **A member with rejected settings is run**, though its error is recorded. -/
theorem rejected_member_is_run : validatePolicies (policyAndGroup "m()") = .ok ()
      ∧ ∃ env response, (oneModuleBuilder .rejectingMember
        true).buildEvaluationEnvironment (policyAndGroup "m()") = .ok env
        ∧ env.policyInitializationErrors.lookup (.policyGroupPolicy "g" "m")
          = some "Policy settings are invalid: no message"
        ∧ env.validateLogged .rejectingMember (.policy "g") (.raw .null)
          = .ok (response, [.policyGroupPolicy "g" "m"])
        ∧ response.allowed = true :=
  ⟨rfl, _, _, rfl, rfl, rfl, rfl⟩

/-- The settings of the member are rejected; two expressions are known. -/
def Engine.reading : Engine (List UInt8) :=
  .plain (fun evaluator _ => evaluator.evalCtx.policyId ≠ "g/m") fun _ expression =>
    if expression = "false && m()" then .done (.ok false)
    else .call "m" (fun answer => .done (.ok answer))

theorem errored_never_run_behind_false :
    let policies := policyAndGroup "false && m()"
    ∃ env, (oneModuleBuilder .reading true).buildEvaluationEnvironment policies = .ok env
      ∧ env.policyInitializationErrors.lookup (.policyGroupPolicy "g" "m")
        = some "Policy settings are invalid: no message"
      ∧ ∀ validate, NeverRun policies env (Engine.reading.withGuests validate) := by
  intro policies
  have hbuild : (oneModuleBuilder .reading true).buildEvaluationEnvironment policies = .ok _ := rfl
  refine ⟨_, hbuild, rfl, (errored_never_run_iff rfl hbuild).2 ?_⟩
  intro name g i m pre e hentry _ _ _ _
  -- the expression of the only group has no calls
  have hexpression : g.expression = "false && m()" := by
    have hmem : _ ∈ [_, _] := hentry
    rcases List.mem_pair.1 hmem with h | h <;> cases h
    rfl
  refine .inr fun answer _ => ?_
  rw [hexpression]
  have houtcome : ((oneModuleBuilder .reading true).engine.rhai g.policies.keys.toFinset
      "false && m()").outcome answer = (some false, []) := rfl
  rw [houtcome]
  exact ⟨by decide, List.not_mem_nil⟩
