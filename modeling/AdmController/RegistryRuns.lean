import AdmController.KeyedFold
import AdmController.Registry

/-!
# Runs of the registry

What the registry holds after a list of steps: a slot is decided by the steps
on its identifier (`after_slot_split`, `after_slot_of_fresh`), a digest is
mapped to the first module offered (`after_cache`).
-/

namespace Registry

open Function

variable {M : Type} (b : EvaluationEnvironmentBuilder M)

/-! ## Slots -/

theorem step_slot_of_ne (r : Registry M) (s : Step) (k : PolicyID)
    (h : s.id? ≠ some k) : (r.step b s).slot k = r.slot k := by
  cases s with
  | fail e => rfl
  | group id settings => exact update_of_ne (fun hk => h (congrArg some hk.symm)) _ _
  | item i => exact update_of_ne (fun hk => h (congrArg some hk.symm)) _ _

theorem after_slot_split {l l' : List Step} {s : Step} {k : PolicyID}
    (h : ∀ s' ∈ l', s'.id? ≠ some k) :
    (after b (l ++ s :: l')).slot k = ((after b l).step b s).slot k :=
  KeyedFold.foldl_split (g := slot) (step_slot_of_ne b) h empty

theorem after_slot_of_fresh {l : List Step} {k : PolicyID}
    (h : ∀ s ∈ l, s.id? ≠ some k) : (after b l).slot k = .empty :=
  KeyedFold.foldl_frame (g := slot) (step_slot_of_ne b) h empty

theorem step_item_slot (r : Registry M) (i : Item) : (r.step b (.item i)).slot i.id
    = (r.slot i.id).bootstrap i (r.attempt b i) :=
  update_self _ _ _

theorem step_group_slot (r : Registry M) (id : PolicyID) (settings : PolicyEvaluationSettings) :
    (r.step b (.group id settings)).slot id = (r.slot id).group settings :=
  update_self _ _ _

end Registry

namespace EvaluationEnvironmentBuilder

variable {M : Type} (b : EvaluationEnvironmentBuilder M)

variable {pre : PolicyEvaluatorPre M} {p : PrecompiledPolicy}

/-! ## Shared modules -/

theorem createPre_eq_ok {id : PolicyID} : b.createPre id p = .ok pre
    ↔ ∃ module, b.engine.deserialize p.precompiledModule = .ok module
      ∧ buildPre b.engine module p.executionMode b.policyMemoryLimitBytes = .ok pre := by
  unfold createPre createWasmtimeModule createPolicyEvaluatorPre
  rw [Fallible.bind_eq_ok]
  simp only [Fallible.mapError_eq_ok]

theorem createPre_congr {id id' : PolicyID} {p' : PrecompiledPolicy}
    (hcode : p.precompiledModule = p'.precompiledModule)
    (hmode : p.executionMode = p'.executionMode)
    (h : b.createPre id p = .ok pre) : b.createPre id' p' = .ok pre := by
  rw [b.createPre_eq_ok] at h ⊢
  rw [← hcode, ← hmode]
  exact h

def compiled (url : String) : Option PrecompiledPolicy :=
  match b.precompiledPolicies.lookup url with
  | some (.ok p) => some p
  | _ => none

theorem compiled_eq_some {url : String} : b.compiled url = some p
    ↔ b.precompiledPolicies.lookup url = some (.ok p) := by
  unfold compiled
  rcases b.precompiledPolicies.lookup url with _ | (e | q) <;> simp

theorem toOption_precompiledPolicy (id : PolicyID) (url : String) :
    (b.precompiledPolicy id url).toOption = b.compiled url := by
  unfold precompiledPolicy compiled
  rcases b.precompiledPolicies.lookup url with _ | (e | p)
  · rfl
  · rfl
  · rfl

theorem precompiledPolicy_of_compiled {url : String} (h : b.compiled url = some p) (id : PolicyID) :
    b.precompiledPolicy id url = .ok p := by
  rw [b.compiled_eq_some] at h
  unfold precompiledPolicy
  rw [h]

theorem attempt_fst (cache : String → Option (PolicyEvaluatorPre M)) (isGroup : Bool) (i : Item) :
    (b.attempt cache isGroup i).1 = (b.compiled i.url).bind (fun p =>
          (b.preFor (cache p.digest) i.id p).toOption.map (p.digest, ·)) := by
  rw [← b.toOption_precompiledPolicy i.id]
  unfold attempt
  cases b.precompiledPolicy i.id i.url with
  | error e => rfl
  | ok p =>
    show _ = (b.preFor (cache p.digest) i.id p).toOption.map _
    simp only
    cases b.preFor (cache p.digest) i.id p with
    | error e => rfl
    | ok pre => rfl

theorem eq_of_createPre {id : PolicyID} (h : b.createPre id p = .ok pre) :
    b.engine.deserialize p.precompiledModule = .ok pre.module ∧ pre.executionMode = p.executionMode
      ∧ pre.memoryLimit = b.policyMemoryLimitBytes := by
  obtain ⟨module, hmodule, hpre⟩ := b.createPre_eq_ok.1 h
  rw [buildPre_eq_ok b.engine hpre]
  exact ⟨hmodule, rfl, rfl⟩

theorem attempt_fst_eq_some {cache : String → Option (PolicyEvaluatorPre M)} {isGroup : Bool}
    {i : Item} {d : String} (h : (b.attempt cache isGroup i).1 = some (d, pre)) :
    ∃ p, b.compiled i.url = some p ∧ p.digest = d ∧ b.preFor (cache d) i.id p = .ok pre := by
  rw [b.attempt_fst, Option.bind_eq_some_iff] at h
  obtain ⟨p, hp, h⟩ := h
  rw [Option.map_eq_some_iff] at h
  obtain ⟨pre', hpre, h⟩ := h
  cases h
  refine ⟨p, hp, rfl, ?_⟩
  cases hc : b.preFor (cache p.digest) i.id p with
  | error e => rw [hc] at hpre; cases hpre
  | ok pre' => rw [hc] at hpre; cases hpre; rfl

def offeredPre (d : String) : Step → Option (PolicyEvaluatorPre M)
  | .item i => (b.compiled i.url).bind (fun p =>
    if p.digest = d then (b.createPre i.id p).toOption else none)
  | _ => none

theorem offeredPre_eq_some {d : String} {s : Step} : b.offeredPre d s = some pre
    ↔ ∃ i p, s = .item i ∧ b.compiled i.url = some p ∧ p.digest = d
      ∧ b.createPre i.id p = .ok pre := by
  cases s with
  | group id settings => simp [offeredPre]
  | fail e => simp [offeredPre]
  | item i =>
    show (b.compiled i.url).bind _ = _ ↔ _
    rw [Option.bind_eq_some_iff]
    constructor
    · rintro ⟨p, hp, h⟩
      split at h
      · next hd =>
        refine ⟨i, p, rfl, hp, hd, ?_⟩
        cases hc : b.createPre i.id p with
        | error e => rw [hc] at h; cases h
        | ok pre' => rw [hc] at h; cases h; rfl
      · cases h
    · rintro ⟨i', p, hi, hp, hd, hpre⟩
      cases hi
      exact ⟨p, hp, by rw [if_pos hd, hpre]; rfl⟩

end EvaluationEnvironmentBuilder

namespace Registry

variable {M : Type} (b : EvaluationEnvironmentBuilder M)

theorem step_item_cache (r : Registry M) (i : Item) (d : String) : (r.step b (.item i)).cache d
    = (r.cache d).or (b.offeredPre d (.item i)) := by
  show share r.cache (b.attempt r.cache _ i).1 d = (r.cache d).or ((b.compiled i.url).bind _)
  rw [EvaluationEnvironmentBuilder.attempt_fst]
  cases b.compiled i.url with
  | none => exact (Option.or_none).symm
  | some p =>
    rw [Option.bind_some, Option.bind_some]
    by_cases hd : p.digest = d
    · subst hd
      rw [if_pos rfl]
      cases hc : r.cache p.digest with
      | some pre => exact Function.update_self _ _ _
      | none =>
        show share r.cache ((b.createPre i.id p).toOption.map _) _ = _
        cases b.createPre i.id p with
        | error e => exact hc
        | ok pre => exact Function.update_self _ _ _
    · rw [if_neg hd, Option.or_none]
      cases b.preFor (r.cache p.digest) i.id p with
      | error e => rfl
      | ok pre => exact Function.update_of_ne (Ne.symm hd) _ _

open List

theorem after_cache (l : List Step) (d : String) :
    (after b l).cache d = l.findSome? (b.offeredPre d) := by
  induction l using reverseRecOn with
  | nil => rfl
  | append_singleton l s ih =>
    rw [after_append_singleton, findSome?_append, ← ih]
    cases s with
    | item i => rw [step_item_cache, findSome?_singleton]
    | group id settings => exact (Option.or_none).symm
    | fail e => exact (Option.or_none).symm

variable {l : List Step} {pre : PolicyEvaluatorPre M} {d : String}

theorem exists_offer_of_cache (h : (after b l).cache d = some pre) :
    ∃ i p, .item i ∈ l ∧ b.compiled i.url = some p ∧ p.digest = d
      ∧ b.createPre i.id p = .ok pre := by
  rw [after_cache, findSome?_eq_some_iff] at h
  obtain ⟨l₁, s, l₂, rfl, hs, -⟩ := h
  obtain ⟨i, p, rfl, hp⟩ := b.offeredPre_eq_some.1 hs
  exact ⟨i, p, mem_append_right _ mem_cons_self, hp⟩

theorem after_cache_append {l' : List Step} (h : (after b l).cache d = some pre) :
    (after b (l ++ l')).cache d = some pre := by
  rw [after_cache] at h ⊢
  rw [findSome?_append, h]
  rfl

variable {i : Item}

theorem cache_of_attempt {isGroup : Bool}
    (h : (b.attempt (after b l).cache isGroup i).1 = some (d, pre))
    (l' : List Step) : (after b (l ++ .item i :: l')).cache d = some pre := by
  rw [append_cons]
  refine after_cache_append b ?_
  rw [after_append_singleton]
  show share (after b l).cache (b.attempt (after b l).cache _ i).1 d = some pre
  rw [b.attempt_fst] at h ⊢
  rw [h]
  exact Function.update_self _ _ _

variable (l : List Step)

/-! ## What becomes registered -/

/-- **An item can be registered**: compiled, and its digest is offered. -/
def Registrable (i : Item) : Prop :=
  ∃ p, b.compiled i.url = some p ∧ ∃ s ∈ l ++ [.item i], (b.offeredPre p.digest s).isSome

theorem offeredPre_item {p : PrecompiledPolicy} (hp : b.compiled i.url = some p) :
    b.offeredPre p.digest (.item i) = (b.createPre i.id p).toOption := by
  show (b.compiled i.url).bind _ = _
  rw [hp, Option.bind_some, if_pos rfl]

theorem attempt_after_fst (i : Item) : ((after b l).attempt b i).1
    = (b.compiled i.url).bind (fun p =>
        ((l ++ [Step.item i]).findSome? (b.offeredPre p.digest)).map (p.digest, ·)) := by
  unfold attempt
  rw [EvaluationEnvironmentBuilder.attempt_fst]
  cases hp : b.compiled i.url with
  | none => rfl
  | some p =>
    rw [Option.bind_some, Option.bind_some, findSome?_append,
      findSome?_singleton, offeredPre_item b hp, after_cache]
    cases l.findSome? (b.offeredPre p.digest) with
    | none => rfl
    | some pre => rfl

theorem preFor_after {p : PrecompiledPolicy} (hp : b.compiled i.url = some p) :
    b.preFor ((after b l).cache p.digest) i.id p = .ok pre
      ↔ (l ++ [Step.item i]).findSome? (b.offeredPre p.digest) = some pre := by
  rw [findSome?_append, findSome?_singleton, offeredPre_item b hp, after_cache]
  cases l.findSome? (b.offeredPre p.digest) with
  | some pre' =>
    show Except.ok pre' = .ok pre ↔ some pre' = some pre
    rw [Except.ok.injEq, Option.some.injEq]
  | none =>
    show b.createPre i.id p = .ok pre ↔ (b.createPre i.id p).toOption = some pre
    cases b.createPre i.id p with
    | error e => simp [Except.toOption]
    | ok pre' => simp [Except.toOption]

theorem attempt_isSome_iff (i : Item) : ((after b l).attempt b i).1.isSome ↔ Registrable b l i := by
  rw [attempt_after_fst]
  unfold Registrable
  cases b.compiled i.url with
  | none => simp
  | some p =>
    simp

theorem after_isGroup (id : PolicyID) : ((after b l).slot id).isGroup = true
    ↔ ∃ settings, .group id settings ∈ l := by
  induction l using reverseRecOn with
  | nil => simp [after, empty, Slot.empty]
  | append_singleton l s ih =>
    rw [after_append_singleton]
    by_cases hs : s.id? = some id
    · cases s with
      | fail e => cases hs
      | group id' settings =>
        cases hs
        rw [step_group_slot]
        exact iff_of_true rfl ⟨settings, mem_append_right _ mem_cons_self⟩
      | item i =>
        cases hs
        rw [step_item_slot, Slot.isGroup_bootstrap, ih]
        simp
    · rw [step_slot_of_ne b _ _ _ hs, ih]
      refine exists_congr (fun settings => ?_)
      rw [mem_append, mem_singleton]
      refine (or_iff_left (fun h => hs ?_)).symm
      rw [← h]
      rfl

def Fills : Step → Prop
  | .group _ _ => True
  | .item i => Registrable b l i
  | .fail _ => False

theorem step_settings_isSome (s : Step) (id : PolicyID) :
    (((after b l).step b s).slot id).settings.isSome ↔ ((after b l).slot id).settings.isSome
      ∨ (s.id? = some id ∧ Fills b l s) := by
  by_cases hs : s.id? = some id
  · cases s with
    | fail e => cases hs
    | group id' settings =>
      cases hs
      rw [step_group_slot]
      exact iff_of_true rfl (.inr ⟨rfl, trivial⟩)
    | item i =>
      cases hs
      rw [step_item_slot]
      show _ ↔ _ ∨ (_ ∧ Registrable b l i)
      rw [← attempt_isSome_iff]
      obtain ⟨registered, outcome⟩ := attempt b (after b l) i
      cases registered with
      | none =>
        rw [Slot.bootstrap_none]
        cases outcome <;> simp [Slot.fail, Step.id?]
      | some reg =>
        rw [(Slot.holds_bootstrap i _ outcome reg.1 reg.2).settings]
        exact iff_of_true rfl (.inr ⟨rfl, rfl⟩)
  · rw [step_slot_of_ne b _ _ _ hs]
    exact (or_iff_left (fun h => hs h.1)).symm

theorem after_settings_isSome (id : PolicyID) : ((after b l).slot id).settings.isSome
    ↔ ∃ l₁ s l₂, l = l₁ ++ s :: l₂ ∧ s.id? = some id ∧ Fills b l₁ s := by
  induction l using reverseRecOn with
  | nil => simp [after, empty, Slot.empty]
  | append_singleton l s ih =>
    rw [after_append_singleton, step_settings_isSome, ih]
    exact KeyedFold.exists_split_append_singleton.symm

theorem exists_item_of_digest {k : PolicyID} (h : ((after b l).slot k).digest = some d) :
    ∃ i p pre, .item i ∈ l ∧ b.compiled i.url = some p ∧ p.digest = d
      ∧ (after b l).cache d = some pre := by
  induction l using reverseRecOn with
  | nil => cases h
  | append_singleton l s ih =>
    -- the digest was there before
    have hold : ((after b l).slot k).digest = some d →
        ∃ i p pre, .item i ∈ l ++ [s] ∧ b.compiled i.url = some p
          ∧ p.digest = d ∧ (after b (l ++ [s])).cache d = some pre := by
      intro hd
      obtain ⟨i, p, pre, hi, hp, hpd, hpre⟩ := ih hd
      exact ⟨i, p, pre, mem_append_left _ hi, hp, hpd, after_cache_append b hpre⟩
    have hstep : (((after b l).step b s).slot k).digest = some d := by
      rw [← after_append_singleton]
      exact h
    by_cases hs : s.id? = some k
    · cases s with
      | fail e => cases hs
      | group id settings =>
        cases hs
        rw [step_group_slot] at hstep
        exact hold hstep
      | item i =>
        cases hs
        rw [step_item_slot] at hstep
        cases hatt : (after b l).attempt b i with
        | mk registered outcome =>
          rw [hatt] at hstep
          cases registered with
          | none =>
            cases outcome <;> exact hold hstep
          | some reg =>
            rw [(Slot.holds_bootstrap i _ outcome _ _).digest] at hstep
            cases hstep
            obtain ⟨p, hp, hpd, -⟩ := b.attempt_fst_eq_some (congrArg Prod.fst hatt)
            exact ⟨i, p, reg.2, mem_append_right _ mem_cons_self,
              hp, hpd, cache_of_attempt b (congrArg Prod.fst hatt) []⟩
    · rw [step_slot_of_ne b _ _ _ hs] at hstep
      exact hold hstep

end Registry
