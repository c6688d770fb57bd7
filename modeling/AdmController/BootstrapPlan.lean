import AdmController.EvaluationEnvironment

/-!
# The plan of a bootstrap

The nested loops that build an evaluation environment, laid out as one list of
steps: `plan` turns a configuration into steps, and building the environment is
executing them in order (`buildEvaluationEnvironment_eq_foldlM`).
-/

open List HostCapabilities

/-- **Something to bootstrap**: a single policy, or a member of a group. -/
structure Item where
  id : PolicyID
  url : String
  policyMode : PolicyMode
  allowedToMutate : Bool
  settings : PolicySettings
  customRejectionMessage : Option String
  timeoutEvalSeconds : Option ℕ
  contextAwareResources : BTreeSet ContextAwareResource
  hostCapabilities : HostCapabilities

namespace Item

def ofPolicy (id : PolicyID) (policy : Policy) (hostCapabilities : HostCapabilities) : Item where
  id := id
  url := policy.module
  policyMode := policy.policyMode
  allowedToMutate := policy.allowedToMutate.getD false
  settings := policy.settings.getD []
  customRejectionMessage := policy.message
  timeoutEvalSeconds := policy.timeoutEvalSeconds
  contextAwareResources := policy.contextAwareResources
  hostCapabilities := hostCapabilities

def ofMember (group : PolicyID) (name : String) (policy : PolicyGroupMember)
    (hostCapabilities : HostCapabilities) : Item where
  id := .policyGroupPolicy group.text name
  url := policy.module
  policyMode := .protect
  allowedToMutate := false
  settings := policy.settings.getD []
  customRejectionMessage := none
  timeoutEvalSeconds := policy.timeoutEvalSeconds
  contextAwareResources := policy.contextAwareResources
  hostCapabilities := hostCapabilities

def evaluationSettings (i : Item) : PolicyEvaluationSettings where
  policyMode := i.policyMode
  allowedToMutate := i.allowedToMutate
  settings := .policy i.settings
  customRejectionMessage := i.customRejectionMessage
  timeoutEvalSeconds := i.timeoutEvalSeconds

def evalCtxAs (i : Item) (policyId : String) (globalLimit : Option ℕ) : EvaluationContext where
  policyId := policyId
  ctxAwareResourcesAllowList := i.contextAwareResources
  epochDeadline := epochDeadlineFor i.timeoutEvalSeconds globalLimit
  hostCapabilities := i.hostCapabilities

def evalCtx (i : Item) (globalLimit : Option ℕ) : EvaluationContext :=
  i.evalCtxAs i.id.text globalLimit

def memberSettings (i : Item) (globalLimit : Option ℕ) : PolicyGroupMemberSettings where
  settings := i.settings
  ctxAwareResourcesAllowList := i.contextAwareResources
  epochDeadline := epochDeadlineFor i.timeoutEvalSeconds globalLimit
  hostCapabilities := i.hostCapabilities

end Item

def PolicyGroup.evaluationSettings (g : PolicyGroup) : PolicyEvaluationSettings where
  policyMode := g.policyMode
  allowedToMutate := false
  settings := .policyGroup g.expression g.message g.policies.keys
  customRejectionMessage := none
  timeoutEvalSeconds := none

/-- **A step of the start-up.** -/
inductive Step where
  | group (id : PolicyID) (settings : PolicyEvaluationSettings)
  | item (i : Item)
  | fail (e : EvaluationError)

def Step.id? : Step → Option PolicyID
  | .group id _ => some id
  | .item i => some i.id
  | .fail _ => none

open EvaluationEnvironmentBuilder (hostCapabilitiesOf)

def policyStep (id : PolicyID) (policy : Policy) : Step :=
  match hostCapabilitiesOf id policy.hostCapabilities with
  | .ok hostCapabilities => .item (.ofPolicy id policy hostCapabilities)
  | .error e => .fail e

def memberStep (group : PolicyID) (name : String) (policy : PolicyGroupMember) : Step :=
  match hostCapabilitiesOf group policy.hostCapabilities with
  | .ok hostCapabilities => .item (.ofMember group name policy hostCapabilities)
  | .error e => .fail e

def parsedSteps (id : PolicyID) : PolicyOrPolicyGroup → List Step
  | .policy policy => [policyStep id policy]
  | .policyGroup g =>
    .group id g.evaluationSettings :: g.policies.entries.map (fun m => memberStep id m.1 m.2)

open PolicyID

def entrySteps (name : String) (entry : PolicyOrPolicyGroup) : List Step :=
  match parse name with
  | .ok id => parsedSteps id entry
  | .error e => [.fail e]

/-- **The plan of a configuration**: the steps of its entries, in order. -/
def plan (policies : Policies) : List Step := policies.entries.flatMap (fun e => entrySteps e.1 e.2)

/-! ## The steps of an entry -/

theorem policyStep_of_ok {policy : Policy} {caps : HostCapabilities}
    (h : new policy.hostCapabilities = .ok caps) (id : PolicyID) :
    policyStep id policy = .item (.ofPolicy id policy caps) := by
  unfold policyStep hostCapabilitiesOf
  rw [h]
  rfl

theorem memberStep_of_ok {m : PolicyGroupMember} {caps : HostCapabilities}
    (h : new m.hostCapabilities = .ok caps) (group : PolicyID) (name : String) :
    memberStep group name m = .item (.ofMember group name m caps) := by
  unfold memberStep hostCapabilitiesOf
  rw [h]
  rfl

theorem policyStep_cases (id : PolicyID) (policy : Policy) :
    (∃ caps, new policy.hostCapabilities = .ok caps
      ∧ policyStep id policy = .item (.ofPolicy id policy caps))
      ∨ ((∀ caps, new policy.hostCapabilities ≠ .ok caps)
        ∧ ∃ e, policyStep id policy = .fail e) := by
  unfold policyStep hostCapabilitiesOf
  cases new policy.hostCapabilities with
  | ok caps => exact .inl ⟨caps, rfl, rfl⟩
  | error e => exact .inr ⟨(fun caps h => by cases h), _, rfl⟩

theorem memberStep_cases (group : PolicyID) (name : String) (m : PolicyGroupMember) :
    (∃ caps, new m.hostCapabilities = .ok caps
      ∧ memberStep group name m = .item (.ofMember group name m caps))
      ∨ ((∀ caps, new m.hostCapabilities ≠ .ok caps) ∧ ∃ e, memberStep group name m = .fail e) := by
  unfold memberStep hostCapabilitiesOf
  cases new m.hostCapabilities with
  | ok caps => exact .inl ⟨caps, rfl, rfl⟩
  | error e => exact .inr ⟨(fun caps h => by cases h), _, rfl⟩

variable {name : String}

theorem entrySteps_of_parse {id : PolicyID}
    (h : parse name = .ok id) (entry : PolicyOrPolicyGroup) :
    entrySteps name entry = parsedSteps id entry := by
  unfold entrySteps
  rw [h]

theorem item_mem_entrySteps {entry : PolicyOrPolicyGroup} {i : Item} :
    .item i ∈ entrySteps name entry ↔ ∃ id, parse name = .ok id
      ∧ ((∃ policy caps, entry = .policy policy ∧ new policy.hostCapabilities = .ok caps
          ∧ i = .ofPolicy id policy caps)
        ∨ ∃ g member m caps, entry = .policyGroup g ∧ ⟨member, m⟩ ∈ g.policies.entries
          ∧ new m.hostCapabilities = .ok caps
          ∧ i = .ofMember id member m caps) := by
  cases hparse : parse name with
  | error e => simp [entrySteps, hparse]
  | ok id =>
    rw [entrySteps_of_parse hparse]
    constructor
    · intro h
      refine ⟨id, rfl, ?_⟩
      cases entry with
      | policy policy =>
        have h := mem_singleton.1 h
        rcases policyStep_cases id policy with ⟨caps, hcaps, hs⟩ | ⟨-, _, hs⟩
        · rw [hs] at h
          exact .inl ⟨policy, caps, rfl, hcaps, Step.item.inj h⟩
        · rw [hs] at h
          cases h
      | policyGroup g =>
        rcases mem_cons.1 h with h | h
        · cases h
        · obtain ⟨⟨member, m⟩, hm, h⟩ := mem_map.1 h
          rcases memberStep_cases id member m with
            ⟨caps, hcaps, hs⟩ | ⟨-, _, hs⟩
          · rw [hs] at h
            exact .inr ⟨g, member, m, caps, rfl, hm, hcaps, (Step.item.inj h).symm⟩
          · rw [hs] at h
            cases h
    · rintro ⟨id', hid, h⟩
      cases hid
      rcases h with ⟨policy, caps, rfl, hcaps, rfl⟩
        | ⟨g, member, m, caps, rfl, hm, hcaps, rfl⟩
      · exact mem_singleton.2 (policyStep_of_ok hcaps id).symm
      · exact mem_cons_of_mem _ (mem_map.2 ⟨_, hm, memberStep_of_ok hcaps id member⟩)

theorem group_mem_entrySteps {entry : PolicyOrPolicyGroup}
    {id : PolicyID} {settings : PolicyEvaluationSettings} :
    .group id settings ∈ entrySteps name entry ↔ parse name = .ok id
      ∧ ∃ g, entry = .policyGroup g ∧ settings = g.evaluationSettings := by
  cases hparse : parse name with
  | error e => simp [entrySteps, hparse]
  | ok id' =>
    rw [entrySteps_of_parse hparse]
    constructor
    · intro h
      cases entry with
      | policy policy =>
        have h := mem_singleton.1 h
        rcases policyStep_cases id' policy with ⟨_, -, hs⟩ | ⟨-, _, hs⟩
        · rw [hs] at h
          cases h
        · rw [hs] at h
          cases h
      | policyGroup g =>
        rcases mem_cons.1 h with h | h
        · cases h
          exact ⟨rfl, g, rfl, rfl⟩
        · obtain ⟨m, -, h⟩ := mem_map.1 h
          rcases memberStep_cases id' m.1 m.2 with ⟨_, -, hs⟩ | ⟨-, _, hs⟩
          · rw [hs] at h
            cases h
          · rw [hs] at h
            cases h
    · rintro ⟨hid, g, rfl, rfl⟩
      cases hid
      exact mem_cons_self

namespace EvaluationEnvironmentBuilder

variable {M : Type} (b : EvaluationEnvironmentBuilder M) (env : EvaluationEnvironment M)

def exec : Step → Except Failure (EvaluationEnvironment M)
  | .group id settings => .ok (env.registerPolicyGroup id settings)
  | .item i =>
    b.bootstrapOrRecord env i.id i.url i.evaluationSettings
      (i.evalCtx b.globalPolicyEvaluationLimitSeconds)
  | .fail e => .error (.error e)

/-! ## Building is executing the plan -/

theorem exec_policyStep (id : PolicyID) (policy : Policy) : b.exec env (policyStep id policy)
    = (raise (hostCapabilitiesOf id policy.hostCapabilities) >>= fun h =>
        b.exec env (.item (.ofPolicy id policy h))) := by
  unfold policyStep
  cases hostCapabilitiesOf id policy.hostCapabilities with
  | ok h => rfl
  | error e => rfl

theorem addMember_eq_exec (group : PolicyID) (env : EvaluationEnvironment M)
    (name : String) (policy : PolicyGroupMember) :
    b.addMember group env name policy = b.exec env (memberStep group name policy) := by
  show (raise (hostCapabilitiesOf group policy.hostCapabilities) >>= fun h =>
    b.exec env (.item (.ofMember group name policy h))) = _
  unfold memberStep
  cases hostCapabilitiesOf group policy.hostCapabilities with
  | ok h => rfl
  | error e => rfl

theorem addEntry_eq_foldlM (name : String) (entry : PolicyOrPolicyGroup) :
    b.addEntry env name entry = (entrySteps name entry).foldlM b.exec env := by
  unfold addEntry entrySteps
  cases parse name with
  | error e => rfl
  | ok id =>
    cases entry with
    | policy policy =>
      show _ = [policyStep id policy].foldlM b.exec env
      rw [Fallible.foldlM_singleton, exec_policyStep]
      rfl
    | policyGroup g =>
      show g.policies.entries.foldlM (fun env m => b.addMember id env m.1 m.2)
        (env.registerPolicyGroup id g.evaluationSettings)
        = (g.policies.entries.map (fun m => memberStep id m.1 m.2)).foldlM
          b.exec (env.registerPolicyGroup id g.evaluationSettings)
      rw [foldlM_map]
      simp only [addMember_eq_exec]

theorem buildEvaluationEnvironment_eq_foldlM (policies : Policies) :
    b.buildEvaluationEnvironment policies = (plan policies).foldlM b.exec b.initialEnvironment := by
  unfold plan buildEvaluationEnvironment
  rw [Fallible.foldlM_flatMap]
  simp only [addEntry_eq_foldlM]

end EvaluationEnvironmentBuilder
