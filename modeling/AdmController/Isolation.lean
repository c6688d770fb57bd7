import AdmController.AcceptedPlans

/-!
# Bootstrapping without interference

Items interfere only through shared modules. When equal digests stand for the
same code in the same mode (`Consistent`), the slot of an identifier is
computed from the steps on it (`slot_eq_solo`).
-/

namespace Isolation

open List Registry

variable {M : Type} (b : EvaluationEnvironmentBuilder M)

def alone (isGroup : Bool) (i : Item) :
    Option (String × PolicyEvaluatorPre M) × Except EvaluationError Unit :=
  b.attempt (fun _ => none) isGroup i

def soloStep (s : Slot) : Step → Slot
  | .group _ settings => s.group settings
  | .item i => s.bootstrap i (alone b s.isGroup i)
  | .fail _ => s

def solo (steps : List Step) (k : PolicyID) : Slot :=
  (steps.filter (fun s => s.id? = some k)).foldl (soloStep b) .empty

def SameIfShared (p q : PrecompiledPolicy) : Prop :=
  p.digest = q.digest → p.precompiledModule = q.precompiledModule
    ∧ p.executionMode = q.executionMode

/-- **Equal digests stand for the same code in the same mode.** -/
def Consistent (steps : List Step) : Prop :=
  ∀ i j p q, .item i ∈ steps → .item j ∈ steps →
    b.compiled i.url = some p → b.compiled j.url = some q → SameIfShared p q

variable {b} {l : List Step}

def ItemsSubset (l l' : List Step) : Prop := ∀ i, Step.item i ∈ l → .item i ∈ l'

theorem Consistent.mono {l' : List Step} (h : Consistent b l')
    (hsub : ItemsSubset l l') : Consistent b l :=
  fun i j p q hi hj => h i j p q (hsub i hi) (hsub j hj)

theorem createPre_of_cache {i : Item} {p : PrecompiledPolicy} {pre : PolicyEvaluatorPre M}
    (hcons : Consistent b l) (hi : .item i ∈ l) (hp : b.compiled i.url = some p)
    (h : (after b l).cache p.digest = some pre) :
    b.createPre i.id p = .ok pre := by
  obtain ⟨j, q, hj, hq, hdigest, hpre⟩ := exists_offer_of_cache b h
  obtain ⟨hcode, hmode⟩ := hcons j i q p hj hi hq hp hdigest
  exact b.createPre_congr hcode hmode hpre

theorem attempt_eq_alone {i : Item} (hcons : Consistent b (l ++ [.item i])) (isGroup : Bool) :
    b.attempt (after b l).cache isGroup i = alone b isGroup i := by
  unfold alone EvaluationEnvironmentBuilder.attempt
  cases hp : b.precompiledPolicy i.id i.url with
  | error e => rfl
  | ok p =>
    have hcompiled : b.compiled i.url = some p := by
      rw [← b.toOption_precompiledPolicy i.id, hp]
      rfl
    have hpre : b.preFor ((after b l).cache p.digest) i.id p = b.preFor none i.id p := by
      cases hcache : (after b l).cache p.digest with
      | none => rfl
      | some pre =>
        exact (createPre_of_cache hcons (mem_append_right _ mem_cons_self) hcompiled
          (after_cache_append b hcache)).symm
    simp only [hpre]

theorem slot_eq_solo (hcons : Consistent b l) (k : PolicyID) : (after b l).slot k = solo b l k := by
  induction l using reverseRecOn with
  | nil => rfl
  | append_singleton l s ih =>
    have ih := ih (hcons.mono (fun _ hi => mem_append_left _ hi))
    unfold solo
    rw [after_append_singleton, filter_append, foldl_append]
    show _ = foldl (soloStep b) (solo b l k) ([s].filter _)
    rw [← ih]
    by_cases hs : s.id? = some k
    · rw [filter_cons_of_pos (by simpa using hs), filter_nil, foldl_cons, foldl_nil]
      cases s with
      | fail e => cases hs
      | group id settings =>
        cases hs
        exact step_group_slot b _ k settings
      | item i =>
        cases hs
        rw [step_item_slot]
        exact congrArg (fun result => Slot.bootstrap i result _) (attempt_eq_alone hcons _)
    · rw [filter_cons_of_neg (by simpa using hs), filter_nil, foldl_nil]
      exact step_slot_of_ne b _ s k hs

def registrations (r : Registry M) (k : PolicyID) : Slot × Option (PolicyEvaluatorPre M) :=
  (r.slot k, (r.slot k).digest.bind r.cache)

theorem cache_eq_of_consistent {l₁ l₂ : List Step} (hcons : Consistent b l) (h₁ : ItemsSubset l₁ l)
    (h₂ : ItemsSubset l₂ l) {k : PolicyID} {d : String}
    (hd₁ : ((after b l₁).slot k).digest = some d) (hd₂ : ((after b l₂).slot k).digest = some d) :
    (after b l₁).cache d = (after b l₂).cache d := by
  obtain ⟨i, p, pre, hi, hp, rfl, hpre⟩ := exists_item_of_digest b _ hd₁
  obtain ⟨j, q, pre', hj, hq, hdigest, hpre'⟩ := exists_item_of_digest b _ hd₂
  obtain ⟨hcode, hmode⟩ := hcons i j p q (h₁ i hi) (h₂ j hj) hp hq hdigest.symm
  have hcreate := createPre_of_cache (hcons.mono h₁) hi hp hpre
  have hcreate' := createPre_of_cache (hcons.mono h₂) hj hq (hdigest ▸ hpre')
  rw [hpre, hpre']
  exact congrArg some (Except.ok.inj ((b.createPre_congr hcode hmode hcreate).symm.trans hcreate'))

theorem registrations_congr {l₁ l₂ : List Step} (hcons : Consistent b l)
    (h₁ : ItemsSubset l₁ l) (h₂ : ItemsSubset l₂ l) {k : PolicyID}
    (hk : l₁.filter (fun s => s.id? = some k) = l₂.filter (fun s => s.id? = some k)) :
    registrations (after b l₁) k = registrations (after b l₂) k := by
  have hslot : (after b l₁).slot k = (after b l₂).slot k := by
    rw [slot_eq_solo (hcons.mono h₁), slot_eq_solo (hcons.mono h₂)]
    unfold solo
    rw [hk]
  unfold registrations
  rw [hslot]
  cases hd : ((after b l₂).slot k).digest with
  | none => rfl
  | some d => exact congrArg (Prod.mk _) (cache_eq_of_consistent hcons h₁ h₂ (hslot ▸ hd) hd)

/-! ## Groups that lose a member -/

def withoutMember (m : String) (settings : PolicyEvaluationSettings) : PolicyEvaluationSettings :=
  match settings.settings with
  | .policy _ => settings
  | .policyGroup expression message policies =>
    { settings with
      settings := .policyGroup expression message (policies.erase m) }

def slotWithoutMember (m : String) (s : Slot) : Slot :=
  { s with settings := s.settings.map (withoutMember m) }

def stepWithoutMember (group : PolicyID) (m : String) : Step → Step
  | .group id settings =>
    if id = group then .group id (withoutMember m settings)
    else .group id settings
  | s => s

theorem id?_stepWithoutMember (group : PolicyID) (m : String) (s : Step) :
    (stepWithoutMember group m s).id? = s.id? := by
  cases s with
  | group id settings =>
    show (if id = group then _ else _ : Step).id? = some id
    split
    · rfl
    · rfl
  | item i => rfl
  | fail e => rfl

theorem soloStep_withoutMember (group : PolicyID) (m : String) (s : Slot)
    {t : Step} (ht : t.id? = some group) :
    soloStep b (slotWithoutMember m s) (stepWithoutMember group m t)
      = slotWithoutMember m (soloStep b s t) := by
  cases t with
  | fail e => cases ht
  | group id settings =>
    cases ht
    have hstep : stepWithoutMember group m (.group group settings)
      = .group group (withoutMember m settings) := if_pos rfl
    rw [hstep]
    rfl
  | item i =>
    show (slotWithoutMember m s).bootstrap i (alone b s.isGroup i)
      = slotWithoutMember m (s.bootstrap i (alone b s.isGroup i))
    obtain ⟨registered, outcome⟩ := alone b s.isGroup i
    rcases registered with _ | ⟨d, pre⟩ <;> rcases outcome with e | u <;> rfl

theorem foldl_withoutMember (group : PolicyID) (m : String) (s : Slot)
    {steps : List Step} (hall : ∀ t ∈ steps, t.id? = some group) :
    (steps.map (stepWithoutMember group m)).foldl (soloStep b) (slotWithoutMember m s)
      = slotWithoutMember m (steps.foldl (soloStep b) s) := by
  induction steps generalizing s with
  | nil => rfl
  | cons t steps ih =>
    rw [map_cons, foldl_cons, foldl_cons, soloStep_withoutMember group m s (hall t mem_cons_self)]
    exact ih _ (fun t' ht' => hall t' (mem_cons_of_mem _ ht'))

theorem filter_map_withoutMember (group : PolicyID) (m : String) (k : PolicyID) (l : List Step) :
    (l.map (stepWithoutMember group m)).filter (fun s => s.id? = some k)
      = (l.filter (fun s => s.id? = some k)).map (stepWithoutMember group m) := by
  rw [filter_map]
  refine congrArg _ (filter_congr fun s _ => ?_)
  show decide ((stepWithoutMember group m s).id? = some k) = _
  rw [id?_stepWithoutMember]

theorem solo_map_withoutMember (group : PolicyID) (m : String) (l : List Step) :
    solo b (l.map (stepWithoutMember group m)) group = slotWithoutMember m (solo b l group) := by
  unfold solo
  rw [filter_map_withoutMember]
  exact foldl_withoutMember group m .empty (fun s hs => of_decide_eq_true (mem_filter.1 hs).2)

theorem filter_map_withoutMember_of_ne {group k : PolicyID} (hk : k ≠ group)
    (m : String) (l : List Step) :
    (l.map (stepWithoutMember group m)).filter (fun s => s.id? = some k)
      = l.filter (fun s => s.id? = some k) := by
  rw [filter_map_withoutMember]
  refine (map_congr_left fun s hs => ?_).trans (map_id _)
  have hid : s.id? = some k := of_decide_eq_true (mem_filter.1 hs).2
  cases s with
  | group id settings =>
    cases hid
    exact if_neg hk
  | item i => rfl
  | fail e => rfl

end Isolation
