import AdmController.Isolation

/-!
# Removing entries from a configuration

When an entry or a member is taken out of the configuration, the steps on its
identifiers disappear from the plan (`filter_plan_erase`,
`filter_plan_removeMember`); the settings of a group no longer name the member
it lost.
-/

open Isolation List PolicyID

variable {entry : PolicyOrPolicyGroup} {name : String}

/-! ## Configured modules -/

theorem url_mem_modules {i : Item} (h : .item i ∈ entrySteps name entry) :
    ∃ patterns, (i.url, patterns) ∈ entry.modules := by
  obtain ⟨id, -, ⟨policy, caps, rfl, -, rfl⟩ | ⟨g, member, m, caps, rfl, hm, -,
    rfl⟩⟩ := item_mem_entrySteps.1 h
  · exact ⟨_, mem_singleton.2 rfl⟩
  · exact ⟨_, mem_map.2 ⟨_, hm, rfl⟩⟩

theorem fail_notMem_entrySteps {id : PolicyID} (hparse : parse name = .ok id)
    (hcaps : ∀ m ∈ entry.modules, ∃ caps, HostCapabilities.new m.2 = .ok caps)
    (e : EvaluationError) : Step.fail e ∉ entrySteps name entry := by
  intro h
  rw [entrySteps_of_parse hparse] at h
  cases entry with
  | policy policy =>
    have h := mem_singleton.1 h
    obtain ⟨caps, hok⟩ := hcaps _ (mem_singleton.2 rfl)
    rcases policyStep_cases id policy with ⟨_, -, hs⟩ | ⟨hnot, -⟩
    · rw [hs] at h
      cases h
    · exact hnot caps hok
  | policyGroup g =>
    rcases mem_cons.1 h with h | h
    · cases h
    · obtain ⟨m, hm, h⟩ := mem_map.1 h
      obtain ⟨caps, hok⟩ := hcaps _ (mem_map.2 ⟨m, hm, rfl⟩)
      rcases memberStep_cases id m.1 m.2 with ⟨_, -, hs⟩ | ⟨hnot, -⟩
      · rw [hs] at h
        cases h
      · exact hnot caps hok

variable {policies : Policies}

theorem item_of_module (hfail : ∀ e, Step.fail e ∉ plan policies)
    {m : String × List String} (hm : m ∈ configuredModules policies) :
    ∃ i, .item i ∈ plan policies ∧ i.url = m.1
      ∧ HostCapabilities.new m.2 = .ok i.hostCapabilities := by
  obtain ⟨⟨name, entry⟩, he, hm⟩ := mem_flatMap.1 hm
  obtain ⟨id, hid⟩ := parse_of_mem hfail he
  cases entry with
  | policy policy =>
    cases mem_singleton.1 hm
    obtain ⟨caps, hcaps, hi⟩ := item_of_policy hfail he hid
    exact ⟨_, hi, rfl, hcaps⟩
  | policyGroup g =>
    obtain ⟨⟨member, policy⟩, hmem, rfl⟩ := mem_map.1 hm
    obtain ⟨caps, hcaps, hi⟩ := item_of_member hfail he hid hmem
    exact ⟨_, hi, rfl, hcaps⟩

/-! ## Removing an entry -/

theorem plan_erase (he : ⟨name, entry⟩ ∈ policies.entries) :
    ∃ l l', plan policies = l ++ (entrySteps name entry ++ l')
      ∧ plan (policies.erase name) = l ++ l' := by
  obtain ⟨l, l', hentries, herase⟩ := AList.exists_split_of_mem he
  refine ⟨l.flatMap (fun e => entrySteps e.1 e.2), l'.flatMap (fun e => entrySteps e.1 e.2), ?_, ?_⟩
  · unfold plan
    rw [hentries, flatMap_append, flatMap_cons]
  · show (kerase name policies.entries).flatMap _ = _
    rw [herase, flatMap_append]

variable {k : PolicyID}

theorem filter_plan_erase (he : ⟨name, entry⟩ ∈ policies.entries)
    (hk : ∀ s ∈ entrySteps name entry, s.id? ≠ some k) :
    (plan (policies.erase name)).filter (fun s => s.id? = some k)
      = (plan policies).filter (fun s => s.id? = some k) := by
  obtain ⟨l, l', hplan, herase⟩ := plan_erase he
  have hnil : (entrySteps name entry).filter (fun s => s.id? = some k) = [] :=
    filter_eq_nil_iff.2 (fun s hs => by simpa using hk s hs)
  rw [hplan, herase, filter_append, filter_append, filter_append, hnil]
  rfl

theorem plan_erase_subset (he : ⟨name, entry⟩ ∈ policies.entries) :
    plan (policies.erase name) ⊆ plan policies := by
  obtain ⟨l, l', hplan, herase⟩ := plan_erase he
  rw [hplan, herase]
  exact append_subset.2 ⟨subset_append_left _ _,
    fun s hs => mem_append_right _ (mem_append_right _ hs)⟩

/-! ## Removing a member -/

def PolicyOrPolicyGroup.eraseMember (m : String) : PolicyOrPolicyGroup → PolicyOrPolicyGroup
  | .policy p => .policy p
  | .policyGroup g => .policyGroup { g with policies := g.policies.erase m }

def removeMember (policies : Policies) (name m : String) : Policies :=
  policies.mapValues (fun n entry => if n = name then entry.eraseMember m else entry)

theorem entries_removeMember (policies : Policies) (name m : String) :
    (removeMember policies name m).entries = policies.entries.map (fun e =>
          ⟨e.1, if e.1 = name then e.2.eraseMember m else e.2⟩) := rfl

theorem filter_members_erase (group : PolicyID) (members : HashMap String PolicyGroupMember)
    (m : String) (hk : k ≠ .policyGroupPolicy group.text m) :
    ((members.erase m).entries.map
      (fun e => memberStep group e.1 e.2)).filter (fun s => s.id? = some k)
      = (members.entries.map (fun e => memberStep group e.1 e.2)).filter
        (fun s => s.id? = some k) := by
  by_cases hm : m ∈ members.entries.keys
  · obtain ⟨member, l, l', -, hentries, herase⟩ := exists_of_kerase hm
    have hnil : [memberStep group m member].filter (fun s => s.id? = some k) = [] := by
      refine filter_eq_nil_iff.2 (fun s hs => ?_)
      rw [mem_singleton.1 hs]
      rcases id?_memberStep group m member with h | h
      · simp [h]
      · simpa [h] using fun h' => hk h'.symm
    show ((kerase m members.entries).map _).filter _ = _
    rw [herase, hentries, map_append, map_append, map_cons,
      filter_append, filter_append, ← singleton_append,
      filter_append, hnil]
    rfl
  · show ((kerase m members.entries).map _).filter _ = _
    rw [kerase_of_notMem_keys hm]

theorem evaluationSettings_eraseMember (g : PolicyGroup) (m : String) :
    PolicyGroup.evaluationSettings { g with policies := g.policies.erase m }
      = withoutMember m g.evaluationSettings := by
  show PolicyEvaluationSettings.mk _ _ (.policyGroup _ _ (g.policies.erase m).keys) _ _ = _
  rw [AList.keys_erase]
  rfl

variable {group : PolicyID}

theorem filter_entrySteps_eraseMember (hparse : parse name = .ok group) (m : String)
    (hk : k ≠ .policyGroupPolicy group.text m) (entry : PolicyOrPolicyGroup) :
    (entrySteps name (entry.eraseMember m)).filter (fun s => s.id? = some k)
      = ((entrySteps name entry).map (stepWithoutMember group m)).filter
        (fun s => s.id? = some k) := by
  rw [entrySteps_of_parse hparse, entrySteps_of_parse hparse]
  cases entry with
  | policy policy =>
    show [policyStep group policy].filter _
      = [stepWithoutMember group m (policyStep group policy)].filter _
    rcases policyStep_cases group policy with ⟨_, -, hs⟩ | ⟨-, _, hs⟩
    · rw [hs]
      rfl
    · rw [hs]
      rfl
  | policyGroup g =>
    have hgroup : stepWithoutMember group m (.group group g.evaluationSettings)
      = .group group (withoutMember m g.evaluationSettings) := if_pos rfl
    have hmembers : (g.policies.entries.map
          (fun e => memberStep group e.1 e.2)).map (stepWithoutMember group m)
        = g.policies.entries.map (fun e => memberStep group e.1 e.2) := by
      rw [map_map]
      refine map_congr_left (fun e _ => ?_)
      show stepWithoutMember group m (memberStep group e.1 e.2) = _
      rcases memberStep_cases group e.1 e.2 with ⟨_, -, hs⟩ | ⟨-, _, hs⟩
      · rw [hs]
        rfl
      · rw [hs]
        rfl
    show (Step.group group (PolicyGroup.evaluationSettings
          { g with policies := g.policies.erase m })
        :: (g.policies.erase m).entries.map (fun e => memberStep group e.1 e.2)).filter _
      = (stepWithoutMember group m (.group group g.evaluationSettings)
        :: (g.policies.entries.map (fun e => memberStep group e.1 e.2)).map
          (stepWithoutMember group m)).filter _
    rw [evaluationSettings_eraseMember, hgroup, hmembers, filter_cons,
      filter_cons, filter_members_erase group g.policies m hk]

theorem map_entrySteps_of_ne {other : String} (hparse : parse name = .ok group) (hne : other ≠ name)
    (m : String) (entry : PolicyOrPolicyGroup) :
    (entrySteps other entry).map (stepWithoutMember group m) = entrySteps other entry := by
  refine (map_congr_left fun s hs => ?_).trans (map_id _)
  cases s with
  | item i => rfl
  | fail e => rfl
  | group id settings =>
    have hother := (group_mem_entrySteps.1 hs).1
    -- both names would be the text of the same identifier
    refine if_neg (fun hid : id = group => hne ?_)
    rw [← text_of_parse hother, hid, text_of_parse hparse]

theorem filter_plan_removeMember (hparse : parse name = .ok group)
    (m : String) (hk : k ≠ .policyGroupPolicy group.text m) :
    (plan (removeMember policies name m)).filter (fun s => s.id? = some k)
      = ((plan policies).map (stepWithoutMember group m)).filter (fun s => s.id? = some k) := by
  unfold plan
  rw [map_flatMap, filter_flatMap, filter_flatMap, entries_removeMember, flatMap_map]
  refine flatMap_congr (fun e _ => ?_)
  by_cases hn : e.1 = name
  · obtain ⟨n, entry⟩ := e
    cases hn
    rw [if_pos rfl]
    exact filter_entrySteps_eraseMember hparse m hk entry
  · rw [if_neg hn, map_entrySteps_of_ne hparse hn]

theorem mem_entrySteps_of_eraseMember {m : String} {s : Step}
    (h : s ∈ entrySteps name (entry.eraseMember m)) (hs : ∀ id settings, s ≠ .group id settings) :
    s ∈ entrySteps name entry := by
  cases hparse : parse name with
  | error e =>
    unfold entrySteps at h ⊢
    rw [hparse] at h ⊢
    exact h
  | ok id =>
    rw [entrySteps_of_parse hparse] at h ⊢
    cases entry with
    | policy policy => exact h
    | policyGroup g =>
      rcases mem_cons.1 h with h | h
      · exact absurd h (hs _ _)
      · obtain ⟨e, he, h⟩ := mem_map.1 h
        exact mem_cons_of_mem _ (mem_map.2 ⟨e, (kerase_sublist m g.policies.entries).subset he, h⟩)

theorem mem_plan_of_removeMember {m : String} {s : Step}
    (h : s ∈ plan (removeMember policies name m))
    (hs : ∀ id settings, s ≠ .group id settings) : s ∈ plan policies := by
  obtain ⟨e', he', h⟩ := mem_flatMap.1 h
  obtain ⟨⟨n, entry⟩, he, rfl⟩ := mem_map.1 he'
  refine mem_plan_of_mem he ?_
  have h : s ∈ entrySteps n (if n = name then entry.eraseMember m else entry) := h
  split at h
  · exact mem_entrySteps_of_eraseMember h hs
  · exact h

theorem PolicyID.ne_member (group : PolicyID) (m : String) :
    group ≠ .policyGroupPolicy group.text m := by
  cases group with
  | policy name => exact fun h => by cases h
  | policyGroupPolicy a c =>
    intro h
    have htext : a = a ++ "/" ++ c := (policyGroupPolicy.inj h).1
    have hlength := congrArg String.length htext
    rw [String.length_append, String.length_append] at hlength
    have hslash : "/".length = 1 := rfl
    omega
