import AdmController.AcceptedPlans

/-!
# The members a group evaluator knows

`buildPolicyGroupEvaluator` fails when a member of the group is not registered.
When it succeeds, the evaluator knows exactly the members listed in the
settings of the group, each with the module and the data found in its slot
(`knows_of_build`).
-/

open Fallible AList List

/-- **A group evaluator knows some members**, each as it was looked up. -/
structure PolicyGroupEvaluator.Knows {M : Type} (member : String →
      Except Failure (PolicyEvaluatorPre M × PolicyGroupMemberSettings))
    (names : List String) (g : PolicyGroupEvaluator M) : Prop where
  mem_iff : ∀ name, name ∈ g.policyMembers ↔ name ∈ names
  lookup : ∀ name ∈ names, ∃ m, member name = .ok m ∧ g.policyMembers.lookup name = some m.1
    ∧ g.policyMembersSettings.lookup name = some m.2

namespace PolicyGroupEvaluator

variable {M : Type} {member : String →
  Except Failure (PolicyEvaluatorPre M × PolicyGroupMemberSettings)}

theorem knows_new (policyId message expression : String) :
    Knows member [] (new policyId message expression) where
  mem_iff name := iff_of_false (notMem_empty name) not_mem_nil
  lookup _ hname := absurd hname not_mem_nil

variable {g : PolicyGroupEvaluator M}

theorem Knows.addPolicyMember {names : List String} (h : Knows member names g) {name : String}
    {m : PolicyEvaluatorPre M × PolicyGroupMemberSettings} (hm : member name = .ok m) :
    Knows member (names ++ [name]) (g.addPolicyMember name m.1 m.2) where
  mem_iff name' := by
    show name' ∈ g.policyMembers.insert name m.1 ↔ _
    rw [mem_insert, h.mem_iff, mem_append, mem_singleton, or_comm]
  lookup name' hname' := by
    show ∃ m', _ ∧ (g.policyMembers.insert name m.1).lookup name' = _
      ∧ (g.policyMembersSettings.insert name m.2).lookup name' = _
    by_cases heq : name' = name
    · subst heq
      exact ⟨m, hm, lookup_insert _, lookup_insert _⟩
    · rw [lookup_insert_ne heq, lookup_insert_ne heq]
      rcases mem_append.1 hname' with hmem | hmem
      · exact h.lookup name' hmem
      · exact absurd (mem_singleton.1 hmem) heq

theorem Knows.toFinset_keys {names : List String} (h : Knows member names g) :
    g.policyMembers.keys.toFinset = names.toFinset := by
  ext name
  rw [mem_toFinset, mem_toFinset]
  exact h.mem_iff name

theorem memberEvaluator_eq {name : String} {pre : PolicyEvaluatorPre M}
    {settings : PolicyGroupMemberSettings} (hpre : g.policyMembers.lookup name = some pre)
    (hsettings : g.policyMembersSettings.lookup name = some settings) (engine : Engine M) :
    g.memberEvaluator engine name = ((pre.rehydrate engine (memberContext name settings)).mapError
          (GroupEvaluationError.cannotRehydratePolicyGroupMember name)).map
          (·, settings.settings) := by
  unfold memberEvaluator
  rw [hpre, hsettings]
  simp only
  cases pre.rehydrate engine (memberContext name settings) with
  | error e => rfl
  | ok evaluator => rfl

end PolicyGroupEvaluator

namespace EvaluationEnvironment

variable {M : Type} {env : EvaluationEnvironment M} {id : PolicyID}
  {s : PolicyEvaluationSettings} {expression message : String}
  {names : List String}

section

variable (hs : (env.slot id).settings = some s)
  (hg : s.settings = .policyGroup expression message names)

include hs hg

open PolicyGroupEvaluator

theorem buildPolicyGroupEvaluator_eq :
    env.buildPolicyGroupEvaluator id = names.foldlM (fun g name => do
            let member ← env.groupMember id name
            return g.addPolicyMember name member.1 member.2)
          (new id.text message expression) := by
  unfold buildPolicyGroupEvaluator getPolicySettings
  rw [show env.policyIdToSettings.lookup id = some s from hs]
  obtain ⟨mode, mutate, settings, msg, timeout⟩ := s
  cases hg
  rfl

theorem knows_of_build {g : PolicyGroupEvaluator M} (h : env.buildPolicyGroupEvaluator id = .ok g) :
    Knows (env.groupMember id) names g ∧ g.policyId = id.text ∧ g.message = message
      ∧ g.expression = expression := by
  rw [buildPolicyGroupEvaluator_eq hs hg] at h
  refine foldlM_ok_of_inv (P := fun names g =>
      Knows (env.groupMember id) names g ∧ g.policyId = id.text ∧ g.message = message
        ∧ g.expression = expression)
    ⟨knows_new _ _ _, rfl, rfl, rfl⟩ ?_ h
  intro done g name g' hinv hstep
  obtain ⟨m, hm, hg'⟩ := bind_eq_ok.1 hstep
  cases hg'
  exact ⟨hinv.1.addPolicyMember hm, hinv.2⟩

theorem exists_build (hmembers : ∀ name ∈ names, ∃ m, env.groupMember id name = .ok m) :
    ∃ g, env.buildPolicyGroupEvaluator id = .ok g := by
  rw [buildPolicyGroupEvaluator_eq hs hg]
  refine foldlM_ok_of_total (P := fun _ => True) trivial ?_
  intro name hname g _
  obtain ⟨m, hm⟩ := hmembers name hname
  exact ⟨g.addPolicyMember name m.1 m.2, by rw [hm]; rfl, trivial⟩

theorem exists_of_build_eq_error {e : Failure} (h : env.buildPolicyGroupEvaluator id = .error e) :
    ∃ name ∈ names, env.groupMember id name = .error e := by
  rw [buildPolicyGroupEvaluator_eq hs hg] at h
  obtain ⟨name, hname, g, hstep⟩ := exists_of_foldlM_eq_error h
  refine ⟨name, hname, ?_⟩
  cases hm : env.groupMember id name with
  | error e' => rw [hm] at hstep; cases hstep; rfl
  | ok m => rw [hm] at hstep; cases hstep

theorem validateSettings_of_group (engine : Engine M) :
    env.validateSettings engine id = (env.buildPolicyGroupEvaluator id >>= fun g =>
          if (g.validateSettings engine).valid then .ok ()
          else .error (.error (.policyInitialization ((g.validateSettings engine).message.getD
            (id.text ++ " settings are not valid"))))) := by
  unfold validateSettings getPolicySettings
  rw [show env.policyIdToSettings.lookup id = some s from hs]
  obtain ⟨mode, mutate, settings, msg, timeout⟩ := s
  cases hg
  rfl

end

variable {name : String}

/-! ## Looking up a member -/

theorem groupMember_of_holds {b : EvaluationEnvironmentBuilder M} (hcfg : env.Configured b)
    {i : Item} (hid : i.id = .policyGroupPolicy id.text name) {d : String}
    {pre : PolicyEvaluatorPre M} (hslot : (env.slot i.id).Holds i d)
    (hpre : env.registry.cache d = some pre) :
    env.groupMember id name = .ok (pre, i.memberSettings b.globalPolicyEvaluationLimitSeconds) := by
  rw [hid] at hslot
  unfold groupMember getPolicySettings
  have hd : env.policyIdToModuleDigest.lookup
    (.policyGroupPolicy id.text name) = some d := hslot.digest
  have hs : env.policyIdToSettings.lookup (.policyGroupPolicy id.text name)
    = some i.evaluationSettings := hslot.settings
  have hr : env.policyIdToCtxAwareAllowedResources.lookup
      (.policyGroupPolicy id.text name) = some i.contextAwareResources :=
    hslot.resources
  have hh : env.policyIdToHostCapabilities.lookup
      (.policyGroupPolicy id.text name) = some i.hostCapabilities :=
    hslot.capabilities
  have hp : env.moduleDigestToPolicyEvaluatorPre.lookup d = some pre := hpre
  simp only
  rw [hd, hs, hr, hh, hcfg.1]
  show (raise (orNotFound _ (env.moduleDigestToPolicyEvaluatorPre.lookup d)) >>= _) = _
  rw [hp]
  rfl

theorem settings_of_groupMember {m : PolicyEvaluatorPre M × PolicyGroupMemberSettings}
    (h : env.groupMember id name = .ok m) :
    ∃ s settings, (env.slot (.policyGroupPolicy id.text name)).settings = some s
      ∧ s.settings = .policy settings := by
  obtain ⟨_, -, h⟩ := bind_eq_ok.1 h
  obtain ⟨_, -, h⟩ := bind_eq_ok.1 h
  obtain ⟨_, -, h⟩ := bind_eq_ok.1 h
  obtain ⟨s, hs, h⟩ := bind_eq_ok.1 h
  refine ⟨s, ?_⟩
  cases hlookup : env.policyIdToSettings.lookup (.policyGroupPolicy id.text name) with
  | none =>
    unfold getPolicySettings at hs
    rw [hlookup] at hs
    cases hs
  | some s' =>
    unfold getPolicySettings at hs
    rw [hlookup] at hs
    cases hs
    cases hsettings : s.settings with
    | policy settings => exact ⟨settings, hlookup, rfl⟩
    | policyGroup expression message policies =>
      rw [hsettings] at h
      cases h

theorem groupMember_of_digest_none
    (h : (env.slot (.policyGroupPolicy id.text name)).digest = none) :
    env.groupMember id name = .error (.error (.policyNotFound
      (PolicyID.policyGroupPolicy id.text name).text)) := by
  unfold groupMember
  simp only
  rw [show env.policyIdToModuleDigest.lookup (.policyGroupPolicy id.text name) = none from h]
  rfl

end EvaluationEnvironment
