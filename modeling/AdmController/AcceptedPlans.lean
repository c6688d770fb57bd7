import AdmController.RegistryRuns

/-!
# Plans of accepted configurations

In a configuration accepted by `validatePolicies` no name contains a slash.
Then all identifiers are different (`nodup_ids_plan`), and the slot of an item
is what bootstrapping this item left there (`slot_of_item`).
-/

open List EvaluationEnvironmentBuilder Registry PolicyID Slot

def PolicyID.owner : PolicyID → String
  | .policy name => name
  | .policyGroupPolicy group _ => group

/-! ## Identifiers -/

theorem id?_memberStep (group : PolicyID) (name : String) (m : PolicyGroupMember) :
    (memberStep group name m).id? = none ∨ (memberStep group name m).id?
      = some (.policyGroupPolicy group.text name) := by
  rcases memberStep_cases group name m with ⟨caps, -, hs⟩ | ⟨-, e, hs⟩
  · exact .inr (hs ▸ rfl)
  · exact .inl (hs ▸ rfl)

theorem id?_policyStep (id : PolicyID) (policy : Policy) : (policyStep id policy).id? = none
    ∨ (policyStep id policy).id? = some id := by
  rcases policyStep_cases id policy with ⟨caps, -, hs⟩ | ⟨-, e, hs⟩
  · exact .inr (hs ▸ rfl)
  · exact .inl (hs ▸ rfl)

open Step

theorem sublist_ids_members (group : PolicyID) (members : List (Σ _ : String, PolicyGroupMember)) :
    List.Sublist ((members.map (fun m => memberStep group m.1 m.2)).filterMap id?)
      (members.map (fun m => .policyGroupPolicy group.text m.1)) := by
  induction members with
  | nil => exact List.Sublist.slnil
  | cons m members ih =>
    rw [map_cons, map_cons]
    rcases id?_memberStep group m.1 m.2 with h | h
    · rw [filterMap_cons_none h]
      exact ih.cons _
    · rw [filterMap_cons_some h]
      exact ih.cons_cons _

theorem ids_entrySteps {name : String}
    (hname : RustStr.contains name '/' = false) (entry : PolicyOrPolicyGroup) :
    ((entrySteps name entry).filterMap id?).Nodup
      ∧ ∀ id ∈ (entrySteps name entry).filterMap id?, id.owner = name := by
  by_cases hne : name = ""
  · subst hne
    exact ⟨nodup_nil, fun id hid => absurd hid not_mem_nil⟩
  · unfold entrySteps
    rw [parse_of_not_contains hne hname]
    cases entry with
    | policy policy =>
      rcases id?_policyStep (.policy name) policy with h | h
      · simp [parsedSteps, h]
      · simp [parsedSteps, h, owner]
    | policyGroup g =>
      have hsub := sublist_ids_members (.policy name) g.policies.entries
      have hkeys : (g.policies.entries.map (fun m =>
          policyGroupPolicy name m.1)).Nodup := by
        have hmap := g.policies.nodupKeys.map (f := policyGroupPolicy name)
          (fun a a' h => (policyGroupPolicy.inj h).2)
        rw [keys, map_map] at hmap
        exact hmap
      refine ⟨nodup_cons.2 ⟨fun hmem => ?_, hkeys.sublist hsub⟩, ?_⟩
      · obtain ⟨m, -, hm⟩ := mem_map.1 (hsub.subset hmem)
        cases hm
      · intro id hid
        rcases mem_cons.1 hid with rfl | hid
        · rfl
        · obtain ⟨m, -, rfl⟩ := mem_map.1 (hsub.subset hid)
          rfl

theorem nodup_ids_plan {policies : Policies} (hvalid : validatePolicies policies = .ok ()) :
    ((plan policies).filterMap id?).Nodup := by
  have hnames := (validatePolicies_ok_iff policies).1 hvalid
  unfold plan
  rw [filterMap_flatMap, nodup_flatMap]
  refine ⟨fun e he => (ids_entrySteps (hnames e he).1 e.2).1, ?_⟩
  have hkeys := nodupKeys_iff_pairwise.1 policies.nodupKeys
  refine hkeys.imp_of_mem ?_
  intro e e' he he' hne id hid hid'
  exact hne (((ids_entrySteps (hnames e he).1 e.2).2 id hid).symm.trans
    ((ids_entrySteps (hnames e' he').1 e'.2).2 id hid'))

theorem fresh_of_nodup {l l' : List Step} {s : Step} {k : PolicyID}
    (hnodup : ((l ++ s :: l').filterMap id?).Nodup) (hs : s.id? = some k) :
    (∀ s' ∈ l, s'.id? ≠ some k) ∧ ∀ s' ∈ l', s'.id? ≠ some k := by
  rw [filterMap_append, filterMap_cons_some hs, nodup_middle, nodup_cons, mem_append] at hnodup
  constructor
  · intro s' hs' hk
    exact hnodup.1 (.inl (mem_filterMap.2 ⟨s', hs', hk⟩))
  · intro s' hs' hk
    exact hnodup.1 (.inr (mem_filterMap.2 ⟨s', hs', hk⟩))

section

variable {policies : Policies} (hfail : ∀ e, Step.fail e ∉ plan policies)

variable {e : Σ _ : String, PolicyOrPolicyGroup}

/-! ## The steps of an entry -/

theorem mem_plan_of_mem (he : e ∈ policies.entries) {s : Step} (hs : s ∈ entrySteps e.1 e.2) :
    s ∈ plan policies :=
  mem_flatMap.2 ⟨e, he, hs⟩

include hfail in
theorem parse_of_mem (he : e ∈ policies.entries) : ∃ id, parse e.1 = .ok id := by
  cases hparse : parse e.1 with
  | ok id => exact ⟨id, rfl⟩
  | error err =>
    refine absurd (mem_plan_of_mem he ?_) (hfail err)
    unfold entrySteps
    rw [hparse]
    exact mem_cons_self

include hfail in
theorem parse_of_accepted (hvalid : validatePolicies policies = .ok ())
    (he : e ∈ policies.entries) :
    parse e.1 = .ok (.policy e.1) := by
  have hname := ((validatePolicies_ok_iff policies).1 hvalid e he).1
  refine parse_of_not_contains (fun hempty => ?_) hname
  obtain ⟨id, hid⟩ := parse_of_mem hfail he
  rw [hempty] at hid
  cases hid

variable {id : PolicyID} {name : String}

include hfail in
theorem item_of_policy {policy : Policy} (he : ⟨name, .policy policy⟩ ∈ policies.entries)
    (hid : parse name = .ok id) :
    ∃ caps, HostCapabilities.new policy.hostCapabilities = .ok caps
      ∧ .item (.ofPolicy id policy caps) ∈ plan policies := by
  have hmem : policyStep id policy ∈ plan policies := by
    refine mem_plan_of_mem he ?_
    rw [entrySteps_of_parse hid]
    exact mem_cons_self
  rcases policyStep_cases id policy with ⟨caps, hcaps, hs⟩ | ⟨-, e, hs⟩
  · exact ⟨caps, hcaps, hs ▸ hmem⟩
  · exact absurd (hs ▸ hmem) (hfail e)

theorem group_of_policyGroup {g : PolicyGroup} (he : ⟨name, .policyGroup g⟩ ∈ policies.entries)
    (hid : parse name = .ok id) :
    .group id g.evaluationSettings ∈ plan policies :=
  mem_plan_of_mem he (group_mem_entrySteps.2 ⟨hid, g, rfl, rfl⟩)

theorem policyGroup_of_group {settings : PolicyEvaluationSettings}
    (h : .group id settings ∈ plan policies) :
    ∃ name g, ⟨name, .policyGroup g⟩ ∈ policies.entries
      ∧ parse name = .ok id ∧ settings = g.evaluationSettings := by
  obtain ⟨⟨name, entry⟩, he, hs⟩ := mem_flatMap.1 h
  obtain ⟨hparse, g, rfl, hsettings⟩ := group_mem_entrySteps.1 hs
  exact ⟨name, g, he, hparse, hsettings⟩

include hfail in
theorem item_of_member {g : PolicyGroup} (he : ⟨name, .policyGroup g⟩ ∈ policies.entries)
    (hid : parse name = .ok id) {member : String}
    {m : PolicyGroupMember} (hm : ⟨member, m⟩ ∈ g.policies.entries) :
    ∃ caps, HostCapabilities.new m.hostCapabilities = .ok caps
      ∧ .item (.ofMember id member m caps) ∈ plan policies := by
  have hmem : memberStep id member m ∈ plan policies := by
    refine mem_plan_of_mem he ?_
    rw [entrySteps_of_parse hid]
    exact mem_cons_of_mem _ (mem_map.2 ⟨⟨member, m⟩, hm, rfl⟩)
  rcases memberStep_cases id member m with ⟨caps, hcaps, hs⟩ | ⟨-, e, hs⟩
  · exact ⟨caps, hcaps, hs ▸ hmem⟩
  · exact absurd (hs ▸ hmem) (hfail e)

end

section

variable {M : Type} (b : EvaluationEnvironmentBuilder M) {i : Item} {l l' : List Step}

/-! ## The slots of an accepted configuration -/

theorem slot_of_item (hnodup : ((l ++ .item i :: l').filterMap id?).Nodup) :
    (after b (l ++ .item i :: l')).slot i.id = empty.bootstrap i
          (b.attempt (after b l).cache false i) := by
  obtain ⟨hl, hl'⟩ := fresh_of_nodup hnodup rfl
  rw [Registry.after_slot_split b hl', Registry.step_item_slot]
  unfold Registry.attempt
  rw [Registry.after_slot_of_fresh b hl]
  rfl

theorem slot_of_group {id : PolicyID} {settings : PolicyEvaluationSettings}
    (hnodup : ((l ++ .group id settings :: l').filterMap id?).Nodup) :
    (after b (l ++ .group id settings :: l')).slot id = empty.group settings := by
  obtain ⟨hl, hl'⟩ := fresh_of_nodup hnodup rfl
  rw [after_slot_split b hl', step_group_slot, after_slot_of_fresh b hl]

variable {d : String}

theorem holds_of_registered {steps : List Step} (hnodup : (steps.filterMap id?).Nodup)
    (hi : .item i ∈ steps) (hd : ((after b steps).slot i.id).digest = some d) :
    ((after b steps).slot i.id).Holds i d ∧ ((after b steps).slot i.id).isGroup = false
      ∧ (∃ p, b.compiled i.url = some p ∧ p.digest = d)
      ∧ ∃ pre, (after b steps).cache d = some pre := by
  obtain ⟨l, l', rfl⟩ := append_of_mem hi
  have hslot := slot_of_item b hnodup
  rw [hslot] at hd ⊢
  cases hatt : b.attempt (after b l).cache false i with
  | mk registered outcome =>
    rw [hatt] at hd
    cases registered with
    | none =>
      rw [bootstrap_none] at hd
      cases outcome <;> cases hd
    | some reg =>
      obtain ⟨d', pre⟩ := reg
      have hholds := holds_bootstrap i empty outcome d' pre
      rw [hholds.digest] at hd
      cases hd
      obtain ⟨p, hp, hpd, -⟩ := b.attempt_fst_eq_some (congrArg Prod.fst hatt)
      exact ⟨hholds, isGroup_bootstrap _ _ _ _, ⟨p, hp, hpd⟩, pre,
        cache_of_attempt b (congrArg Prod.fst hatt) l'⟩

theorem registered_of_settings {steps : List Step} (hnodup : (steps.filterMap id?).Nodup)
    (hi : .item i ∈ steps) (hs : ((after b steps).slot i.id).settings.isSome) :
    ∃ d, ((after b steps).slot i.id).digest = some d := by
  obtain ⟨l, l', rfl⟩ := append_of_mem hi
  rw [slot_of_item b hnodup] at hs ⊢
  generalize b.attempt (after b l).cache false i = result at hs ⊢
  obtain ⟨registered, outcome⟩ := result
  cases registered with
  | none =>
    rw [bootstrap_none] at hs
    cases outcome <;> cases hs
  | some reg => exact ⟨reg.1, (holds_bootstrap i _ outcome _ _).digest⟩

variable {env : EvaluationEnvironment M} {policies : Policies}

/-- An item gets a module: the first one offered for its digest by then. -/
def EvaluationEnvironmentBuilder.Shares (policies : Policies) (i : Item)
    (pre : PolicyEvaluatorPre M) : Prop :=
  ∃ l l' p, plan policies = l ++ .item i :: l' ∧ b.compiled i.url = some p
    ∧ (l ++ [item i]).findSome? (b.offeredPre p.digest) = some pre

variable {b}

theorem lookup_cache_of_shared (hbuild : b.buildEvaluationEnvironment policies = .ok env)
    (hplan : plan policies = l ++ l') {pre : PolicyEvaluatorPre M}
    (h : l.findSome? (b.offeredPre d) = some pre) :
    env.moduleDigestToPolicyEvaluatorPre.lookup d = some pre := by
  show env.registry.cache d = some pre
  rw [(reached_of_build hbuild).registry, hplan]
  exact after_cache_append b ((after_cache b _ d).trans h)

variable (hvalid : validatePolicies policies = .ok ())
  (hbuild : b.buildEvaluationEnvironment policies = .ok env)

include hvalid hbuild

theorem slot_of_policyGroup {name : String} {g : PolicyGroup}
    (he : ⟨name, .policyGroup g⟩ ∈ policies.entries) :
    env.slot (.policy name) = empty.group g.evaluationSettings := by
  have hfail := fail_notMem_of_build hbuild
  obtain ⟨l, l', hplan⟩ := append_of_mem
    (group_of_policyGroup he (parse_of_accepted hfail hvalid he))
  show env.registry.slot _ = _
  rw [(reached_of_build hbuild).registry, hplan]
  exact slot_of_group b (hplan ▸ nodup_ids_plan hvalid)

theorem registered_iff (hplan : plan policies = l ++ .item i :: l') :
    env.policyIdToModuleDigest.lookup i.id = some d
      ↔ ∃ p pre, b.compiled i.url = some p ∧ p.digest = d
        ∧ (l ++ [item i]).findSome? (b.offeredPre d) = some pre := by
  have hdigest : env.policyIdToModuleDigest.lookup i.id
      = (b.attempt (after b l).cache false i).1.map Prod.fst := by
    show (env.registry.slot i.id).digest = _
    rw [(reached_of_build hbuild).registry, hplan, slot_of_item b (hplan ▸ nodup_ids_plan hvalid)]
    exact digest_bootstrap_empty _ _ _
  have hattempt : (b.attempt (after b l).cache false i).1
      = ((Registry.after b l).attempt b i).1 := by
    unfold Registry.attempt
    rw [b.attempt_fst, b.attempt_fst]
  rw [hdigest, hattempt, attempt_after_fst]
  constructor
  · intro h
    obtain ⟨⟨_, pre⟩, hreg, rfl⟩ := Option.map_eq_some_iff.1 h
    obtain ⟨p, hp, hreg⟩ := Option.bind_eq_some_iff.1 hreg
    obtain ⟨_, hpre, hreg⟩ := Option.map_eq_some_iff.1 hreg
    cases hreg
    exact ⟨p, pre, hp, rfl, hpre⟩
  · rintro ⟨p, pre, hp, rfl, hpre⟩
    rw [hp, Option.bind_some, hpre]
    rfl

theorem slot_of_shares {pre : PolicyEvaluatorPre M} (h : b.Shares policies i pre) :
    ∃ d, (env.slot i.id).Holds i d ∧ (env.slot i.id).isGroup = false
      ∧ env.registry.cache d = some pre
      ∧ (env.slot i.id).error = match b.verdict pre i with
        | .ok () => none
        | .error e => some e.text := by
  obtain ⟨l, l', p, hplan, hp, hpre⟩ := h
  have hregistry := (reached_of_build hbuild).registry
  have hattempt := b.attempt_of_preFor _ false (b.precompiledPolicy_of_compiled hp i.id)
    ((preFor_after b _ hp).2 hpre)
  have hslot : env.slot i.id = empty.bootstrap i (some (p.digest, pre), b.verdict pre i) := by
    show env.registry.slot i.id = _
    rw [hregistry, hplan, slot_of_item b (hplan ▸ nodup_ids_plan hvalid), hattempt]
    rfl
  rw [hslot]
  exact ⟨p.digest, holds_bootstrap _ _ _ _ _, isGroup_bootstrap _ _ _ _,
    lookup_cache_of_shared hbuild (hplan.trans (append_cons _ _ _)) hpre,
    error_bootstrap _ _ _ _⟩

theorem slot_of_not_shares (hi : .item i ∈ plan policies) (h : ∀ pre, ¬ b.Shares policies i pre) :
    (env.slot i.id).digest = none := by
  obtain ⟨l, l', hplan⟩ := append_of_mem hi
  refine Option.eq_none_iff_forall_ne_some.2 (fun d hd => ?_)
  obtain ⟨p, pre, hp, rfl, hpre⟩ := (registered_iff hvalid hbuild hplan).1 hd
  exact h pre ⟨l, l', p, hplan, hp, hpre⟩

theorem settings_cases (id : PolicyID) :
    (env.slot id).settings = none ∨ (∃ i d pre, .item i ∈ plan policies ∧ i.id = id
      ∧ (env.slot id).Holds i d ∧ (env.slot id).isGroup = false
      ∧ env.registry.cache d = some pre)
      ∨ ∃ name g, ⟨name, .policyGroup g⟩ ∈ policies.entries ∧ id = .policy name
        ∧ env.slot id = empty.group g.evaluationSettings := by
  have hnodup := nodup_ids_plan hvalid
  have hfail := fail_notMem_of_build hbuild
  have hregistry := (reached_of_build hbuild).registry
  have hslot : env.slot = (after b (plan policies)).slot := congrArg slot hregistry
  cases hs : (env.slot id).settings with
  | none => exact .inl rfl
  | some settings =>
    have hsome : ((after b (plan policies)).slot id).settings.isSome := by rw [← hslot, hs]; rfl
    obtain ⟨l, s, l', hplan, hid, hfills⟩ := (after_settings_isSome b _ id).1 hsome
    have hmem : s ∈ plan policies := by
      rw [hplan]
      exact mem_append_right _ mem_cons_self
    cases s with
    | fail e => cases hid
    | item i =>
      cases hid
      obtain ⟨d, hd⟩ := registered_of_settings b hnodup hmem hsome
      obtain ⟨hholds, hgroup, -, pre, hpre⟩ := holds_of_registered b hnodup hmem hd
      rw [← hslot] at hholds hgroup
      rw [← hregistry] at hpre
      exact .inr (.inl ⟨i, d, pre, hmem, rfl, hholds, hgroup, hpre⟩)
    | group id' settings' =>
      cases hid
      obtain ⟨name, g, he, hparse, -⟩ := policyGroup_of_group hmem
      have hid : policy name = id :=
        Except.ok.inj ((parse_of_accepted hfail hvalid he).symm.trans hparse)
      exact .inr (.inr ⟨name, g, he, hid.symm, hid ▸ slot_of_policyGroup hvalid hbuild he⟩)

end
