import AdmController.PlanRemoval

/-!
# Faults stay with their entry

A tolerant start-up should contain faults (`Isolates`). Invalid capability
patterns end it though, and a known digest stands for a module compiled from
another file.
-/

open Isolation AList List Option EvaluationEnvironmentBuilder HostCapabilities PolicyID

/-! ## The same configuration in another order -/

inductive PolicyOrPolicyGroup.SameUpToOrder : PolicyOrPolicyGroup → PolicyOrPolicyGroup → Prop
  | policy (p : Policy) : SameUpToOrder (.policy p) (.policy p)
  | policyGroup (g : PolicyGroup) {members : HashMap String PolicyGroupMember}
    (h : g.policies.entries.Perm members.entries) :
    SameUpToOrder (.policyGroup g) (.policyGroup { g with policies := members })

/-- **Two configurations that differ in the order of iteration only.** -/
structure SameUpToOrder (policies policies' : Policies) : Prop where
  forth : ∀ name entry, ⟨name, entry⟩ ∈ policies.entries →
    ∃ entry', ⟨name, entry'⟩ ∈ policies'.entries ∧ entry.SameUpToOrder entry'
  back : ∀ name entry', ⟨name, entry'⟩ ∈ policies'.entries →
    ∃ entry, ⟨name, entry⟩ ∈ policies.entries ∧ entry.SameUpToOrder entry'

theorem PolicyOrPolicyGroup.SameUpToOrder.refl (entry : PolicyOrPolicyGroup) :
    entry.SameUpToOrder entry := by
  cases entry with
  | policy p => exact .policy p
  | policyGroup g => exact .policyGroup g (List.Perm.refl _)

theorem PolicyOrPolicyGroup.SameUpToOrder.mem_modules
    {entry entry' : PolicyOrPolicyGroup} (h : entry.SameUpToOrder entry')
    {m : String × List String} : m ∈ entry'.modules → m ∈ entry.modules := by
  cases h with
  | policy p => exact id
  | policyGroup g hperm => exact fun hm => ((hperm.map _).mem_iff).2 hm

namespace SameUpToOrder

theorem refl (policies : Policies) : SameUpToOrder policies policies :=
  ⟨fun _ entry he => ⟨entry, he, .refl entry⟩, fun _ entry he => ⟨entry, he, .refl entry⟩⟩

theorem insert {policies policies' : Policies} (h : SameUpToOrder policies policies')
    {name : String} {entry entry' : PolicyOrPolicyGroup} (he : ⟨name, entry⟩ ∈ policies.entries)
    (hentry : entry.SameUpToOrder entry') :
    SameUpToOrder policies (policies'.insert name entry') := by
  constructor
  · intro n e hn
    by_cases hne : n = name
    · subst hne
      cases policies.nodupKeys.eq_of_mk_mem he hn
      exact ⟨entry', mem_cons_self, hentry⟩
    · obtain ⟨e', he', hsame⟩ := h.forth n e hn
      refine ⟨e', mem_lookup_iff.1 ?_, hsame⟩
      rw [lookup_insert_ne hne]
      exact mem_lookup_iff.2 he'
  · intro n e' hn
    by_cases hne : n = name
    · subst hne
      have hlookup := mem_lookup_iff.2 hn
      rw [lookup_insert] at hlookup
      cases hlookup
      exact ⟨entry, he, hentry⟩
    · have hlookup := mem_lookup_iff.2 hn
      rw [lookup_insert_ne hne] at hlookup
      exact h.back n e' (mem_lookup_iff.1 hlookup)

variable {policies policies' : Policies} (h : SameUpToOrder policies policies')

include h in
theorem mem_configuredModules {m : String × List String} (hm : m ∈ configuredModules policies') :
    m ∈ configuredModules policies := by
  obtain ⟨⟨name, entry'⟩, he', hm⟩ := mem_flatMap.1 hm
  obtain ⟨entry, he, hsame⟩ := h.back name entry' he'
  exact mem_flatMap.2 ⟨_, he, hsame.mem_modules hm⟩

include h in
theorem parse (hnames : ∀ e ∈ policies.entries, ∃ id, parse e.1 = .ok id) :
    ∀ e ∈ policies'.entries, ∃ id, parse e.1 = .ok id := by
  rintro ⟨name, entry'⟩ he'
  obtain ⟨entry, he, -⟩ := h.back name entry' he'
  exact hnames ⟨name, entry⟩ he

include h in
theorem validatePolicies_eq_ok (hvalid : validatePolicies policies = .ok ()) :
    validatePolicies policies' = .ok () := by
  rw [validatePolicies_ok_iff] at hvalid ⊢
  rintro ⟨name, entry'⟩ he'
  obtain ⟨entry, he, hsame⟩ := h.back name entry' he'
  obtain ⟨hname, hmembers⟩ := hvalid _ he
  refine ⟨hname, fun g' hg' member hmember => ?_⟩
  cases hsame with
  | policy p => cases hg'
  | policyGroup g hperm =>
    cases hg'
    exact hmembers g rfl member (((hperm.map Sigma.fst).mem_iff).2 hmember)

end SameUpToOrder

section

variable {M : Type} (b : EvaluationEnvironmentBuilder M)

/-! ## Isolation -/

/-- There is something wrong with an item: it fails on its own. -/
def Faulty (i : Item) : Prop := ∃ e, (alone b false i).2 = .error e

/-- Faults are recorded, and everything else is as without the faulty entry. -/
structure Contained (policies : Policies) (env : EvaluationEnvironment M) : Prop where
  /-- The faults of policies and members are recorded. -/
  recorded : ∀ i, .item i ∈ plan policies → Faulty b i →
    ∃ msg, env.policyInitializationErrors.lookup i.id = some msg
  /-- Without a faulty entry, the other identifiers are the same. -/
  entry : ∀ name entry i, ⟨name, entry⟩ ∈ policies.entries →
    .item i ∈ entrySteps name entry → Faulty b i →
    ∃ env', b.buildEvaluationEnvironment (policies.erase name) = .ok env'
      ∧ ∀ k, (∀ s ∈ entrySteps name entry, s.id? ≠ some k) →
        registrations env'.registry k = registrations env.registry k
  /-- Without a faulty member, only its group has changed. -/
  member : ∀ name group g m v caps, ⟨name, .policyGroup g⟩ ∈ policies.entries →
    parse name = .ok group → ⟨m, v⟩ ∈ g.policies.entries →
    new v.hostCapabilities = .ok caps →
    Faulty b (.ofMember group m v caps) →
    ∃ env', b.buildEvaluationEnvironment (removeMember policies name m) = .ok env'
      ∧ (∀ k, k ≠ .policyGroupPolicy group.text m → k ≠ group →
        registrations env'.registry k = registrations env.registry k)
      ∧ registrations env'.registry group = (slotWithoutMember m (env.registry.slot group),
        (registrations env.registry group).2)

/-- **The start-up succeeds and contains all faults.** -/
def Isolates (policies : Policies) : Prop :=
  ∃ env, b.buildEvaluationEnvironment policies = .ok env ∧ Contained b policies env

end

/-- **The start-up contains all faults**, for every engine and order. -/
def AlwaysIsolates (precompiled : PrecompiledPolicies) (policies : Policies) : Prop :=
  ∀ (M : Type) (b : EvaluationEnvironmentBuilder M),
    b.precompiledPolicies = precompiled → b.continueOnErrors = true →
    ∀ policies', SameUpToOrder policies policies' → Isolates b policies'

/-- All patterns are valid, and equal digests mean equal codes and modes. -/
structure Robust (precompiled : PrecompiledPolicies) (policies : Policies) : Prop where
  patterns : ∀ m ∈ configuredModules policies, ∃ caps, new m.2 = .ok caps
  modules : ∀ m ∈ configuredModules policies, ∀ m' ∈ configuredModules policies, ∀ p q,
    precompiled.lookup m.1 = some (.ok p) →
    precompiled.lookup m'.1 = some (.ok q) → SameIfShared p q

section

variable {M : Type} {b : EvaluationEnvironmentBuilder M} {policies : Policies}

/-! ## Robust configurations are isolated -/

theorem Robust.fail_notMem {precompiled : PrecompiledPolicies} (h : Robust precompiled policies)
    (hnames : ∀ e ∈ policies.entries, ∃ id, parse e.1 = .ok id)
    (e : EvaluationError) : Step.fail e ∉ plan policies := by
  intro hmem
  obtain ⟨entry, he, hs⟩ := mem_flatMap.1 hmem
  obtain ⟨id, hid⟩ := hnames entry he
  exact fail_notMem_entrySteps hid (fun m hm => h.patterns m (mem_flatMap.2 ⟨entry, he, hm⟩)) e hs

variable {i : Item}

theorem url_mem_configuredModules (hi : .item i ∈ plan policies) :
    ∃ patterns, (i.url, patterns) ∈ configuredModules policies := by
  obtain ⟨entry, he, hs⟩ := mem_flatMap.1 hi
  obtain ⟨patterns, hm⟩ := url_mem_modules hs
  exact ⟨patterns, mem_flatMap.2 ⟨entry, he, hm⟩⟩

theorem Robust.consistent (h : Robust b.precompiledPolicies policies) :
    Consistent b (plan policies) := by
  intro i j p q hi hj hp hq
  obtain ⟨patterns, hm⟩ := url_mem_configuredModules hi
  obtain ⟨patterns', hm'⟩ := url_mem_configuredModules hj
  exact h.modules _ hm _ hm' p q (b.compiled_eq_some.1 hp) (b.compiled_eq_some.1 hq)

theorem Robust.reorder {precompiled : PrecompiledPolicies} (h : Robust precompiled policies)
    {policies' : Policies} (hsame : SameUpToOrder policies policies') :
    Robust precompiled policies' :=
  ⟨fun m hm => h.patterns m (hsame.mem_configuredModules hm),
    fun m hm m' hm' => h.modules m (hsame.mem_configuredModules hm) m'
      (hsame.mem_configuredModules hm')⟩

theorem error_foldl_soloStep {s : Slot} (h : s.error.isSome)
    (steps : List Step) : (steps.foldl (soloStep b) s).error.isSome := by
  induction steps generalizing s with
  | nil => exact h
  | cons t steps ih =>
    refine ih ?_
    cases t with
    | group id settings => exact h
    | fail e => exact h
    | item i =>
      show (s.bootstrap i (alone b s.isGroup i)).error.isSome
      obtain ⟨registered, outcome⟩ := alone b s.isGroup i
      rw [Slot.error_bootstrap]
      cases outcome with
      | ok u => exact h
      | error e => rfl

theorem Faulty.error (h : Faulty b i) (isGroup : Bool) : ∃ e, (alone b isGroup i).2 = .error e := by
  cases isGroup with
  | false => exact h
  | true =>
    unfold alone attempt
    cases b.precompiledPolicy i.id i.url with
    | error e => exact ⟨e, rfl⟩
    | ok p =>
      simp only
      cases b.preFor none i.id p with
      | error e => exact ⟨_, rfl⟩
      | ok pre => exact ⟨_, rfl⟩

theorem Faulty.error_solo (h : Faulty b i) {l : List Step}
    (hi : .item i ∈ l) : (solo b l i.id).error.isSome := by
  have hmem : .item i ∈ l.filter (fun s => s.id? = some i.id) :=
    mem_filter.2 ⟨hi, decide_eq_true rfl⟩
  obtain ⟨l₁, l₂, hsplit⟩ := append_of_mem hmem
  unfold solo
  rw [hsplit, foldl_append, foldl_cons]
  refine error_foldl_soloStep ?_ l₂
  generalize l₁.foldl (soloStep b) .empty = s
  obtain ⟨e, he⟩ := h.error s.isGroup
  show (s.bootstrap i ((alone b s.isGroup i).1, (alone b s.isGroup i).2)).error.isSome
  rw [Slot.error_bootstrap, he]
  rfl

theorem itemsSubset_removeMember {name m : String} :
    ItemsSubset (plan (removeMember policies name m)) (plan policies) :=
  fun _ hi => mem_plan_of_removeMember hi (fun _ _ h => by cases h)

open Registry

theorem registrations_removeMember {name m : String} {group : PolicyID}
    (hcons : Consistent b (plan policies)) (hparse : parse name = .ok group) :
    registrations (after b (plan (removeMember policies name m))) group
      = (slotWithoutMember m ((after b (plan policies)).slot group),
        (registrations (after b (plan policies)) group).2) := by
  have hsub : ItemsSubset (plan (removeMember policies name m))
    (plan policies) := itemsSubset_removeMember
  have hslot : (after b (plan (removeMember policies name m))).slot group
      = slotWithoutMember m ((after b (plan policies)).slot group) := by
    rw [slot_eq_solo (hcons.mono hsub), slot_eq_solo hcons, ← solo_map_withoutMember]
    unfold solo
    rw [filter_plan_removeMember hparse m (ne_member group m)]
  unfold registrations
  rw [hslot]
  show (_, ((after b (plan policies)).slot group).digest.bind _) = _
  cases hd : ((after b (plan policies)).slot group).digest with
  | none => rfl
  | some d =>
    exact congrArg (Prod.mk _) (cache_eq_of_consistent hcons hsub (fun _ hi => hi) (hslot ▸ hd) hd)

theorem Robust.isolates (hrobust : Robust b.precompiledPolicies policies)
    (hnames : ∀ e ∈ policies.entries, ∃ id, parse e.1 = .ok id)
    (hcont : b.continueOnErrors = true) : Isolates b policies := by
  have hfail := hrobust.fail_notMem hnames
  have hcons := hrobust.consistent
  obtain ⟨env, hbuild⟩ := build_ok_of_continueOnErrors hcont hfail
  have hregistry := (reached_of_build hbuild).registry
  refine ⟨env, hbuild, ?_, ?_, ?_⟩
  · intro i hi hfaulty
    have herror := hfaulty.error_solo hi
    rw [← slot_eq_solo hcons, ← hregistry] at herror
    exact isSome_iff_exists.1 herror
  · intro name entry i he _ _
    obtain ⟨env', hbuild'⟩ :=
      build_ok_of_continueOnErrors hcont (fun e hmem => hfail e (plan_erase_subset he hmem))
    refine ⟨env', hbuild', fun k hk => ?_⟩
    rw [(reached_of_build hbuild').registry, hregistry]
    exact registrations_congr hcons (fun _ hi => plan_erase_subset he hi)
      (fun _ hi => hi) (filter_plan_erase he hk)
  · intro name group g m v caps he hparse hm _ _
    have hfail' : ∀ e, Step.fail e ∉ plan (removeMember policies name m) :=
      fun e hmem => hfail e (mem_plan_of_removeMember hmem (fun _ _ h => by cases h))
    obtain ⟨env', hbuild'⟩ := build_ok_of_continueOnErrors hcont hfail'
    have hregistry' := (reached_of_build hbuild').registry
    refine ⟨env', hbuild', fun k hk hgroup => ?_, ?_⟩
    · rw [hregistry', hregistry]
      refine registrations_congr hcons itemsSubset_removeMember (fun _ hi => hi) ?_
      rw [filter_plan_removeMember hparse m hk, filter_map_withoutMember_of_ne hgroup]
    · rw [hregistry', hregistry]
      exact registrations_removeMember hcons hparse

end

/-! ## Isolated configurations are robust -/

def rejectingBuilder (precompiled : PrecompiledPolicies) (policyId : String) :
    EvaluationEnvironmentBuilder (List UInt8) where
  engine := .plain (fun evaluator _ => evaluator.evalCtx.policyId ≠ policyId)
    (fun _ _ => .done (.ok true))
  precompiledPolicies := precompiled
  continueOnErrors := true
  globalPolicyEvaluationLimitSeconds := none
  policyMemoryLimitBytes := none
  alwaysAcceptAdmissionReviewsOnNamespace := none

section

variable {precompiled : PrecompiledPolicies} {policyId : String}

theorem createPre_rejectingBuilder (id : PolicyID) (p : PrecompiledPolicy) :
    (rejectingBuilder precompiled policyId).createPre id p
      = .ok ⟨p.precompiledModule, p.executionMode, none⟩ := by
  obtain ⟨code, mode, digest⟩ := p
  cases mode <;> rfl

theorem rehydrate_rejectingBuilder (pre : PolicyEvaluatorPre (List UInt8))
    (evalCtx : EvaluationContext) :
    pre.rehydrate (rejectingBuilder precompiled policyId).engine evalCtx = .ok ⟨pre, evalCtx⟩ := by
  obtain ⟨module, mode, limit⟩ := pre
  cases mode <;> rfl

theorem faulty_rejectingBuilder (i : Item) : Faulty (rejectingBuilder precompiled i.id.text) i := by
  unfold Faulty alone
  cases hp : (rejectingBuilder precompiled i.id.text).precompiledPolicy i.id i.url with
  | error e =>
    refine ⟨e, ?_⟩
    unfold attempt
    rw [hp]
  | ok p =>
    rw [attempt_of_preFor _ (fun _ => none) _ hp (createPre_rejectingBuilder i.id p)]
    unfold verdict
    rw [rehydrate_rejectingBuilder]
    exact ⟨_, if_neg (by simp [rejectingBuilder, Engine.plain, Item.evalCtx, Item.evalCtxAs])⟩

variable {q : PrecompiledPolicy} {j : Item}

theorem digest_attempt (hq : (rejectingBuilder precompiled policyId).compiled j.url = some q)
    (cache : String → Option (PolicyEvaluatorPre (List UInt8))) (isGroup : Bool) :
    ((rejectingBuilder precompiled policyId).attempt cache isGroup j).1.map
      Prod.fst = some q.digest := by
  rw [attempt_fst, hq, bind_some]
  cases cache q.digest with
  | some pre => rfl
  | none =>
    show ((createPre _ _ _).toOption.map _).map _ = _
    rw [createPre_rejectingBuilder]
    rfl

variable {i : Item} {p : PrecompiledPolicy}

open Registry SameUpToOrder

theorem cache_of_first {l : List Step}
    (hp : (rejectingBuilder precompiled policyId).compiled i.url = some p)
    (hl : ∀ s ∈ l, ∃ id settings, s = .group id settings) (l' : List Step) :
    (after (rejectingBuilder precompiled policyId) (l ++ .item i :: l')).cache p.digest
      = some ⟨p.precompiledModule, p.executionMode, none⟩ := by
  have hnone : l.findSome? ((rejectingBuilder precompiled policyId).offeredPre
      p.digest) = none := by
    refine findSome?_eq_none_iff.2 (fun s hs => ?_)
    obtain ⟨id, settings, rfl⟩ := hl s hs
    rfl
  have hoffer := (offeredPre_eq_some _).2 ⟨i, p, rfl, hp, rfl, createPre_rejectingBuilder i.id p⟩
  rw [after_cache, findSome?_append, hnone, none_or, findSome?_cons, hoffer]

theorem same_of_registrations {l₁ l₁' l₂ l₂' : List Step}
    (hp : (rejectingBuilder precompiled policyId).compiled i.url = some p)
    (hq : (rejectingBuilder precompiled policyId).compiled j.url = some q)
    (hd : p.digest = q.digest)
    (hl₁ : ∀ s ∈ l₁, ∃ id settings, s = .group id settings)
    (hl₂ : ∀ s ∈ l₂, ∃ id settings, s = .group id settings) (hj : .item j ∈ l₁')
    (hnodup : ((l₁ ++ .item i :: l₁').filterMap Step.id?).Nodup)
    (h : registrations (after (rejectingBuilder precompiled policyId)
      (l₂ ++ .item j :: l₂')) j.id = registrations (after
      (rejectingBuilder precompiled policyId) (l₁ ++ .item i :: l₁')) j.id) :
    p.precompiledModule = q.precompiledModule ∧ p.executionMode = q.executionMode := by
  obtain ⟨hslot, hcache⟩ := Prod.mk.inj h
  have hfirst := cache_of_first hp hl₁ l₁'
  have hsecond := cache_of_first hq hl₂ l₂'
  have hdigest : ((after (rejectingBuilder precompiled policyId)
      (l₁ ++ .item i :: l₁')).slot j.id).digest = some q.digest := by
    obtain ⟨l, l', rfl⟩ := append_of_mem hj
    rw [← cons_append, ← append_assoc] at hnodup ⊢
    rw [slot_of_item _ hnodup]
    exact (Slot.digest_bootstrap_empty _ _ _).trans (digest_attempt hq _ _)
  rw [hslot, hdigest, bind_some, bind_some, hsecond, ← hd, hfirst] at hcache
  obtain ⟨hcode, hmode, -⟩ := PolicyEvaluatorPre.mk.inj (some.inj hcache)
  exact ⟨hcode.symm, hmode.symm⟩

variable {caps : HostCapabilities} {g : PolicyGroup} {v : PolicyGroupMember} {m name : String}

theorem entrySteps_of_first {id : PolicyID} (hid : parse name = .ok id)
    (hcaps : new v.hostCapabilities = .ok caps) {rest : List (Σ _ : String, PolicyGroupMember)}
    (hfirst : g.policies.entries = ⟨m, v⟩ :: rest) :
    entrySteps name (.policyGroup g)
      = [.group id g.evaluationSettings] ++ .item (.ofMember id m v caps)
        :: rest.map (fun e => memberStep id e.1 e.2) := by
  rw [entrySteps_of_parse hid, ← memberStep_of_ok hcaps]
  show Step.group id _ :: g.policies.entries.map _ = _
  rw [hfirst]
  rfl

theorem exists_front {entry : PolicyOrPolicyGroup} (hi : .item i ∈ entrySteps name entry) :
    ∃ entry' l l', entry.SameUpToOrder entry' ∧ entrySteps name entry' = l ++ .item i :: l'
      ∧ ∀ s ∈ l, ∃ id settings, s = .group id settings := by
  obtain ⟨id, hid, ⟨policy, caps, rfl, hcaps, rfl⟩
    | ⟨g, member, m, caps, rfl, hm, hcaps, rfl⟩⟩ := item_mem_entrySteps.1 hi
  · refine ⟨_, [], [], .policy policy, ?_, fun s hs => by cases hs⟩
    rw [entrySteps_of_parse hid, ← policyStep_of_ok hcaps]
    rfl
  · refine ⟨_, _, _, .policyGroup g (perm_insert_of_mem hm),
      entrySteps_of_first hid hcaps entries_insert,
      fun s hs => ?_⟩
    exact ⟨_, _, mem_singleton.1 hs⟩

theorem plan_insert_insert (policies : Policies) {n n' : String} (hne : n ≠ n')
    (e e' : PolicyOrPolicyGroup) :
    ∃ rest, plan ((policies.insert n' e').insert n e) = entrySteps n e ++ (entrySteps n' e' ++ rest)
      ∧ plan (((policies.insert n' e').insert n e).erase n) = entrySteps n' e' ++ rest := by
  refine ⟨(kerase n (kerase n' policies.entries)).flatMap (fun e => entrySteps e.1 e.2), ?_, ?_⟩
  · unfold plan
    rw [entries_insert_insert policies hne, flatMap_cons, flatMap_cons]
  · unfold plan
    rw [entries_erase_insert_insert policies hne, flatMap_cons]

variable {policies : Policies}

theorem plan_of_first_member {rest : List (Σ _ : String, PolicyOrPolicyGroup)}
    (hfirst : policies.entries = ⟨name, .policyGroup g⟩ :: rest) {id : PolicyID}
    (hid : parse name = .ok id) (hcaps : new v.hostCapabilities = .ok caps)
    {rest' : List (Σ _ : String, PolicyGroupMember)}
    (hfirst' : g.policies.entries = ⟨m, v⟩ :: rest') :
    ∃ l, plan policies = [.group id g.evaluationSettings] ++ .item (.ofMember id m v caps)
      :: (rest'.map (fun e => memberStep id e.1 e.2) ++ l) := by
  refine ⟨rest.flatMap (fun e => entrySteps e.1 e.2), ?_⟩
  unfold plan
  rw [hfirst, flatMap_cons, entrySteps_of_first hid hcaps hfirst', append_assoc]
  rfl

theorem entries_removeMember_insert : ∃ rest,
    (removeMember (policies.insert name (.policyGroup g)) name m).entries
    = ⟨name, .policyGroup { g with policies := g.policies.erase m }⟩ :: rest := by
  rw [entries_removeMember, entries_insert, map_cons, if_pos rfl]
  exact ⟨_, rfl⟩

variable (h : AlwaysIsolates precompiled policies) (hvalid : validatePolicies policies = .ok ())

include h hvalid

theorem AlwaysIsolates.same_of_entries {nameI nameJ : String} (hne : nameI ≠ nameJ)
    {entryI entryJ : PolicyOrPolicyGroup} (heI : ⟨nameI, entryI⟩ ∈ policies.entries)
    (heJ : ⟨nameJ, entryJ⟩ ∈ policies.entries) (hi : .item i ∈ entrySteps nameI entryI)
    (hj : .item j ∈ entrySteps nameJ entryJ) (hp : precompiled.lookup i.url = some (.ok p))
    (hq : precompiled.lookup j.url = some (.ok q)) : SameIfShared p q := by
  intro hd
  obtain ⟨entryI', l₁, l₁', hsameI, hstepsI, hl₁⟩ := exists_front hi
  obtain ⟨entryJ', l₂, l₂', hsameJ, hstepsJ, hl₂⟩ := exists_front hj
  -- the two entries come first, with the two items at their front
  have hsame : SameUpToOrder policies ((policies.insert nameJ entryJ').insert nameI entryI') :=
    ((refl policies).insert heJ hsameJ).insert heI hsameI
  obtain ⟨env, hbuild, hcontained⟩ := h _ (rejectingBuilder precompiled i.id.text) rfl rfl _ hsame
  obtain ⟨rest, hplan, herase⟩ := plan_insert_insert policies hne entryI' entryJ'
  rw [hstepsJ, append_assoc, cons_append] at hplan herase
  have hnodup := nodup_ids_plan (hsame.validatePolicies_eq_ok hvalid)
  have hfresh : ∀ s ∈ entrySteps nameI entryI', s.id? ≠ some j.id := by
    rw [hplan, ← append_assoc] at hnodup
    exact fun s hs =>
      (fresh_of_nodup hnodup rfl).1 s (mem_append_left _ hs)
  rw [hstepsI, append_assoc, cons_append] at hplan
  have hi' : .item i ∈ entrySteps nameI entryI' := by
    rw [hstepsI]
    exact mem_append_right _ mem_cons_self
  obtain ⟨env', hbuild', hk⟩ := hcontained.entry nameI entryI' i
    mem_cons_self hi' (faulty_rejectingBuilder i)
  have hreg := hk j.id hfresh
  rw [(reached_of_build hbuild').registry, (reached_of_build hbuild).registry, hplan,
    herase] at hreg
  exact same_of_registrations ((compiled_eq_some _).2 hp) ((compiled_eq_some _).2 hq) hd hl₁ hl₂
    (mem_append_right _ (mem_append_right _ mem_cons_self))
    (hplan ▸ hnodup) hreg

theorem AlwaysIsolates.same_of_members {group : PolicyID} (hparse : parse name = .ok group)
    (he : ⟨name, .policyGroup g⟩ ∈ policies.entries) {m' : String} (hne : m ≠ m')
    {v' : PolicyGroupMember} (hm : ⟨m, v⟩ ∈ g.policies.entries)
    (hm' : ⟨m', v'⟩ ∈ g.policies.entries) {caps' : HostCapabilities}
    (hcaps : new v.hostCapabilities = .ok caps) (hcaps' : new v'.hostCapabilities = .ok caps')
    (hp : precompiled.lookup v.module = some (.ok p))
    (hq : precompiled.lookup v'.module = some (.ok q)) : SameIfShared p q := by
  intro hd
  -- the group comes first, with the two members at its front
  let g' : PolicyGroup := { g with policies := (g.policies.insert m' v').insert m v }
  have hentries : g'.policies.entries = ⟨m, v⟩ :: ⟨m', v'⟩ :: _ :=
    entries_insert_insert g.policies hne v v'
  have herased : (g'.policies.erase m).entries = ⟨m', v'⟩ :: _ :=
    entries_erase_insert_insert g.policies hne v v'
  have hperm : g.policies.entries.Perm g'.policies.entries :=
    have hperm' := perm_insert_of_mem hm'
    hperm'.trans (perm_insert_of_mem (hperm'.mem_iff.1 hm))
  have hsame : SameUpToOrder policies (policies.insert name (.policyGroup g')) :=
    (refl policies).insert he (.policyGroup g hperm)
  obtain ⟨env, hbuild, hcontained⟩ := h _ (rejectingBuilder precompiled
    (Item.ofMember group m v caps).id.text) rfl rfl _ hsame
  obtain ⟨env', hbuild', hk, -⟩ := hcontained.member name group g' m v caps
    mem_cons_self hparse (hentries ▸ mem_cons_self) hcaps
    (faulty_rejectingBuilder _)
  have hreg := hk (.policyGroupPolicy group.text m') (fun h => hne (policyGroupPolicy.inj h).2.symm)
    (ne_member group m').symm
  obtain ⟨l, hplan⟩ := plan_of_first_member entries_insert hparse hcaps hentries
  obtain ⟨rest, hrest⟩ := entries_removeMember_insert
  obtain ⟨l', hplan'⟩ := plan_of_first_member hrest hparse hcaps' herased
  rw [(reached_of_build hbuild').registry, (reached_of_build hbuild).registry, hplan,
    hplan'] at hreg
  have hnodup := nodup_ids_plan (hsame.validatePolicies_eq_ok hvalid)
  refine same_of_registrations (j := .ofMember group m' v' caps') ((compiled_eq_some _).2 hp)
    ((compiled_eq_some _).2 hq) hd
    (fun s hs => ⟨_, _, mem_singleton.1 hs⟩)
    (fun s hs => ⟨_, _, mem_singleton.1 hs⟩) ?_ (hplan ▸ hnodup) hreg
  rw [← memberStep_of_ok hcaps']
  exact mem_append_left _ mem_cons_self

theorem AlwaysIsolates.same (hi : .item i ∈ plan policies) (hj : .item j ∈ plan policies)
    (hp : precompiled.lookup i.url = some (.ok p))
    (hq : precompiled.lookup j.url = some (.ok q)) : SameIfShared p q := by
  -- an item shares its module with itself
  have hself : i.url = j.url → SameIfShared p q := by
    intro hurl _
    rw [hurl, hq] at hp
    cases hp
    exact ⟨rfl, rfl⟩
  obtain ⟨⟨nameI, entryI⟩, heI, hi⟩ := mem_flatMap.1 hi
  obtain ⟨⟨nameJ, entryJ⟩, heJ, hj⟩ := mem_flatMap.1 hj
  by_cases hname : nameI = nameJ
  · subst hname
    cases policies.nodupKeys.eq_of_mk_mem heI heJ
    obtain ⟨id, hid, hcasesI⟩ := item_mem_entrySteps.1 hi
    obtain ⟨id', hid', hcasesJ⟩ := item_mem_entrySteps.1 hj
    cases hid.symm.trans hid'
    cases entryI with
    | policy policy =>
      obtain ⟨_, _, heq, -, rfl⟩ | ⟨_, _, _, _, heq, -⟩ := hcasesI
      · obtain ⟨_, _, heq', -, rfl⟩ | ⟨_, _, _, _, heq', -⟩ := hcasesJ
        · cases heq
          cases heq'
          exact hself rfl
        · cases heq'
      · cases heq
    | policyGroup g =>
      obtain ⟨_, _, heq, -⟩ | ⟨_, m, v, caps, heq, hm, hcaps, rfl⟩ := hcasesI
      · cases heq
      · obtain ⟨_, _, heq', -⟩ | ⟨_, m', v', caps', heq', hm', hcaps', rfl⟩ := hcasesJ
        · cases heq'
        · cases heq
          cases heq'
          by_cases hne : m = m'
          · subst hne
            cases g.policies.nodupKeys.eq_of_mk_mem hm hm'
            exact hself rfl
          · exact h.same_of_members hvalid hid heI hne hm hm' hcaps hcaps' hp hq
  · exact h.same_of_entries hvalid hname heI heJ hi hj hp hq

theorem AlwaysIsolates.robust : Robust precompiled policies := by
  obtain ⟨env, hbuild, -⟩ := h _ (rejectingBuilder precompiled "") rfl rfl _ (refl policies)
  have hfail := fail_notMem_of_build hbuild
  constructor
  · intro m hm
    obtain ⟨i, -, -, hcaps⟩ := item_of_module hfail hm
    exact ⟨_, hcaps⟩
  · intro m hm m' hm' p q hp hq
    obtain ⟨i, hi, hurl, -⟩ := item_of_module hfail hm
    obtain ⟨j, hj, hurl', -⟩ := item_of_module hfail hm'
    exact h.same hvalid hi hj (hurl ▸ hp) (hurl' ▸ hq)

end

/-! ## When faults are contained -/

/-- **Faults are contained in robust configurations, and only there.** A
tolerant start-up records every fault under its identifier and leaves everything
else as if the faulty entry or member were removed, for every engine and order.
-/
theorem isolates_iff_robust {precompiled : PrecompiledPolicies} {policies : Policies}
    (hnames : ∀ e ∈ policies.entries, ∃ id, parse e.1 = .ok id) :
    (Robust precompiled policies → AlwaysIsolates precompiled policies)
      ∧ (validatePolicies policies = .ok () → (AlwaysIsolates precompiled policies
        ↔ Robust precompiled policies)) := by
  have hsufficient : Robust precompiled policies → AlwaysIsolates precompiled policies := by
    intro h M b hb hcont policies' hsame
    subst hb
    exact (h.reorder hsame).isolates (hsame.parse hnames) hcont
  exact ⟨hsufficient, fun hvalid => ⟨fun h => h.robust hvalid, hsufficient⟩⟩

def mistypedCapabilities : Policies :=
  (singleton "q" (.policy (.ofModule "registry://q"))).insert "p"
    (.policy { Policy.ofModule "registry://p" with
      hostCapabilities := ["oci*"] })

def twoModules : PrecompiledPolicies :=
  (singleton "registry://q" (.ok ⟨[1], .opa, "e"⟩)).insert "registry://p" (.ok ⟨[0], .opa, "d"⟩)

/-- **A mistyped pattern ends a tolerant start-up**, with nothing recorded. -/
theorem mistyped_pattern_ends_startup : validatePolicies mistypedCapabilities = .ok ()
      ∧ (rejectingBuilder twoModules "").continueOnErrors = true
      ∧ (rejectingBuilder twoModules "").buildEvaluationEnvironment mistypedCapabilities
        = .error (.error (.bootstrapFailure ("invalid hostCapabilities pattern for policy p: "
          ++ (HostCapabilitiesPatternError.invalidWildcard "oci*").text)))
      ∧ ∃ env, (rejectingBuilder twoModules "").buildEvaluationEnvironment
        (mistypedCapabilities.erase "p") = .ok env
        ∧ env.policyInitializationErrors.lookup (.policy "q") = none :=
  ⟨rfl, rfl, rfl, _, rfl, rfl⟩

theorem isolates_iff_robust_corrected : AlwaysIsolates twoModules (mistypedCapabilities.insert "p"
      (.policy (.ofModule "registry://p"))) := by
  have hnames : ∀ e ∈ (mistypedCapabilities.insert "p"
      (.policy (.ofModule "registry://p"))).entries,
      ∃ id, parse e.1 = .ok id :=
    forall_mem_cons.2 ⟨⟨_, rfl⟩, forall_mem_cons.2 ⟨⟨_, rfl⟩, fun _ h => absurd h not_mem_nil⟩⟩
  refine ((isolates_iff_robust hnames).2 rfl).2 ⟨?_, ?_⟩
  · intro m hm
    rcases mem_pair.1 hm with rfl | rfl
    · exact ⟨.denyAll, rfl⟩
    · exact ⟨.denyAll, rfl⟩
  · intro m hm m' hm' p q hp hq hd
    rcases mem_pair.1 hm with rfl | rfl <;>
      rcases mem_pair.1 hm' with rfl | rfl <;> cases hp <;> cases hq
    · exact ⟨rfl, rfl⟩
    · exact absurd hd (by decide)
    · exact absurd hd (by decide)
    · exact ⟨rfl, rfl⟩
