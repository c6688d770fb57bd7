import AdmController.KeyedFold
import AdmController.PolicyServerConfigMap

/-!
# Policies do not shadow each other

The unique name of a policy joins its kind, namespace and name with dots, and
determines the policy (`getUniqueName_inj`). Legacy names use dashes, which
namespaces may contain.
-/

open RustStr AList List

open PoliciesV1 Policy

namespace PoliciesV1.Policy

/-! ## Unique names -/

def kindToken : Kind → String
  | .admissionPolicy => "ap"
  | .admissionPolicyGroup => "apg"
  | .clusterAdmissionPolicy => "cap"
  | .clusterAdmissionPolicyGroup => "capg"

def qualifiedName (p : Policy) : String :=
  match p.kind with
  | .admissionPolicy | .admissionPolicyGroup => p.getNamespace ++ "." ++ p.getName
  | .clusterAdmissionPolicy | .clusterAdmissionPolicyGroup => p.getName

theorem getUniqueName_eq (p : Policy) : p.getUniqueName = "kw" ++ String.ofList ['.']
    ++ (kindToken p.kind ++ String.ofList ['.'] ++ p.qualifiedName) := by
  unfold getUniqueName qualifiedName
  cases p.kind <;> simp only [kindToken, ← String.toList_inj,
    String.toList_append, String.toList_ofList, append_assoc] <;> rfl

theorem kindToken_injective : Function.Injective kindToken := by
  intro k k' h
  cases k <;> cases k' <;> first | rfl | exact absurd h (by decide)

theorem contains_kindToken (k : Kind) : contains (kindToken k) '.' = false := by
  cases k <;> decide

variable {p q : Policy}

theorem getUniqueName_inj (hp : contains p.getNamespace '.' = false)
    (hq : contains q.getNamespace '.' = false)
    (h : p.getUniqueName = q.getUniqueName) : p.identity = q.identity := by
  rw [getUniqueName_eq, getUniqueName_eq] at h
  obtain ⟨-, hrest⟩ := append_sep_inj (by decide) (by decide) h
  obtain ⟨htoken, hname⟩ := append_sep_inj (contains_kindToken p.kind)
    (contains_kindToken q.kind) hrest
  have hkind := kindToken_injective htoken
  have hparts : p.getNamespace = q.getNamespace ∧ p.getName = q.getName := by
    unfold qualifiedName at hname
    rw [hkind] at hname
    cases hq' : q.kind with
    | admissionPolicy | admissionPolicyGroup =>
      rw [hq'] at hname
      exact append_sep_inj hp hq hname
    | clusterAdmissionPolicy | clusterAdmissionPolicyGroup =>
      rw [hq'] at hname
      refine ⟨?_, hname⟩
      rw [getNamespace_of_not_isNamespaced, getNamespace_of_not_isNamespaced]
      · simp [IsNamespaced, hq']
      · simp [IsNamespaced, hkind, hq']
  unfold identity
  rw [hkind, hparts.1, hparts.2]

theorem getUniqueName_ne_legacy (p q : Policy) : p.getUniqueName ≠ q.legacyPolicyUniqueName := by
  intro h
  have hfirst : p.getUniqueName.toList.head? = some 'k' := by
    rw [getUniqueName_eq]
    simp
  have hlegacy : q.legacyPolicyUniqueName.toList.head? ≠ some 'k' := by
    unfold legacyPolicyUniqueName
    cases q.kind <;> simp
  exact hlegacy (h ▸ hfirst)

end PoliciesV1.Policy

variable {server : PolicyServer} {policies : List PoliciesV1.Policy}

/-! ## The map -/

/-- Policies that can be told apart, in namespaces without dots. -/
structure Identifiable (policies : List PoliciesV1.Policy) : Prop where
  distinct : (policies.map identity).Nodup
  dotFree : ∀ p ∈ policies, contains p.getNamespace '.' = false

theorem Identifiable.nodup_uniqueNames (h : Identifiable policies) :
    (policies.map getUniqueName).Nodup := by
  refine List.Nodup.map_on ?_ h.distinct.of_map
  intro p hp q hq hname
  have hid := getUniqueName_inj (h.dotFree p hp) (h.dotFree q hq) hname
  exact inj_on_of_nodup_map h.distinct hp hq hid

variable {name : String}

theorem lookup_buildPoliciesMap (h : Identifiable policies) {entry : PolicyServerConfigEntry} :
    (buildPoliciesMap policies server).lookup name = some entry
      ↔ ∃ p ∈ policies, p.getUniqueName = name ∧ configEntry server p = entry := by
  have hkeys : (policies.map fun p =>
      (⟨p.getUniqueName, configEntry server p⟩ :
        Σ _ : String, PolicyServerConfigEntry)).NodupKeys := by
    rw [List.NodupKeys, List.keys, List.map_map]
    exact h.nodup_uniqueNames
  have hbuild : buildPoliciesMap policies server
      = (∅ : PolicyConfigEntryMap).insertAll (policies.map fun p =>
        ⟨p.getUniqueName, configEntry server p⟩) := by
    unfold buildPoliciesMap insertAll
    rw [foldl_map]
  rw [hbuild, ← Option.mem_def, mem_lookup_iff, mem_entries_insertAll hkeys, mem_map]
  refine exists_congr fun p => and_congr_right fun _ => ?_
  rw [Sigma.mk.injEq, heq_eq_eq]

def ownersOf (policies : List PoliciesV1.Policy) (name : String) : List PoliciesV1.Policy :=
  policies.filter fun p => p.legacyPolicyUniqueName = name

theorem lookup_legacyNameOwners (policies : List PoliciesV1.Policy)
    (name : String) : (legacyNameOwners policies).lookup name
      = if ownersOf policies name = [] then none else some (ownersOf policies name) := by
  induction policies using reverseRecOn with
  | nil => rfl
  | append_singleton policies p ih =>
    have hstep : legacyNameOwners (policies ++ [p])
        = (legacyNameOwners policies).insert p.legacyPolicyUniqueName
          (((legacyNameOwners policies).lookup p.legacyPolicyUniqueName).getD [] ++ [p]) := by
      rw [legacyNameOwners, foldl_append]
      rfl
    have howners : ownersOf (policies ++ [p]) name = ownersOf policies name
        ++ if p.legacyPolicyUniqueName = name then [p] else [] := by
      unfold ownersOf
      by_cases hname : p.legacyPolicyUniqueName = name <;> simp [hname]
    rw [hstep, howners]
    by_cases hname : p.legacyPolicyUniqueName = name
    · have hnew : ownersOf policies name ++ [p] ≠ [] := by simp
      have hold : ((legacyNameOwners policies).lookup name).getD [] = ownersOf policies name := by
        rw [ih]
        split
        · next hnil => rw [hnil]; rfl
        · rfl
      rw [hname, lookup_insert, hold, if_pos rfl, if_neg hnew]
    · rw [lookup_insert_ne (Ne.symm hname), ih, if_neg hname, append_nil]

variable {m : PolicyConfigEntryMap} {e : Σ _ : String, List PoliciesV1.Policy}

theorem lookup_addLegacyEntry_of_ne (h : some e.1 ≠ some name) :
    (addLegacyEntry m e).lookup name = m.lookup name := by
  have hne : name ≠ e.1 := fun heq => h (congrArg some heq.symm)
  unfold addLegacyEntry
  split
  · split
    · exact lookup_insert_ne hne
    · rfl
  · rfl

theorem lookup_foldl_addLegacyEntry {l : List (Σ _ : String, List _)} (h : ∀ e ∈ l, e.1 ≠ name) :
    (l.foldl addLegacyEntry m).lookup name = m.lookup name :=
  KeyedFold.foldl_frame (g := fun m name => m.lookup name)
    (fun _ _ _ => lookup_addLegacyEntry_of_ne)
    (fun e he heq => h e he (Option.some.inj heq)) m

variable {order : MapOrder}

theorem mem_visit_legacyNameOwners : e ∈ order.visit (legacyNameOwners policies)
    ↔ e.2 = ownersOf policies e.1 ∧ ownersOf policies e.1 ≠ [] := by
  rw [(order.perm _).mem_iff]
  rw [← mem_lookup_iff, lookup_legacyNameOwners, Option.mem_def]
  by_cases hnil : ownersOf policies e.1 = []
  · simp [hnil]
  · simp [hnil, eq_comm]

theorem exists_of_mem_visit (he : e ∈ order.visit (legacyNameOwners policies)) :
    ∃ q ∈ policies, q.legacyPolicyUniqueName = e.1 := by
  obtain ⟨q, hq⟩ := exists_mem_of_ne_nil _ (mem_visit_legacyNameOwners.1 he).2
  obtain ⟨hmem, hname⟩ := mem_filter.1 hq
  exact ⟨q, hmem, of_decide_eq_true hname⟩

theorem lookup_addLegacyPolicyEntries_of_ne (h : ∀ q ∈ policies, q.legacyPolicyUniqueName ≠ name) :
    (addLegacyPolicyEntries order m policies).lookup name = m.lookup name := by
  refine lookup_foldl_addLegacyEntry fun e he => ?_
  obtain ⟨q, hq, hname⟩ := exists_of_mem_visit he
  exact hname ▸ h q hq

theorem lookup_addLegacyPolicyEntries (hname : m.lookup name = none) :
    (addLegacyPolicyEntries order m policies).lookup name = match ownersOf policies name with
        | [p] => m.lookup p.getUniqueName
        | _ => none := by
  by_cases hnil : ownersOf policies name = []
  · rw [hnil, lookup_addLegacyPolicyEntries_of_ne, hname]
    intro q hq heq
    exact filter_eq_nil_iff.1 hnil q hq (decide_eq_true heq)
  set owners := ownersOf policies name with howners
  have hmem : (⟨name, owners⟩ : Σ _ : String, List _)
      ∈ order.visit (legacyNameOwners policies) :=
    mem_visit_legacyNameOwners.2 ⟨howners, hnil⟩
  have hkeys : (order.visit (legacyNameOwners policies)).NodupKeys :=
    (perm_nodupKeys (order.perm _)).2 (legacyNameOwners policies).nodupKeys
  -- the one visit of the name, and the visits before and after it
  obtain ⟨l₁, l₂, hsplit⟩ := append_of_mem hmem
  have hother : ∀ e ∈ l₁ ++ l₂, e.1 ≠ name := by
    intro e he heq
    rw [hsplit, List.NodupKeys, List.keys, List.map_append, List.map_cons,
      List.nodup_middle, List.nodup_cons, ← List.map_append] at hkeys
    exact hkeys.1 (mem_map.2 ⟨e, he, heq⟩)
  have hbefore : (l₁.foldl addLegacyEntry m).lookup name = none := by
    rw [lookup_foldl_addLegacyEntry fun e he =>
      hother e (mem_append_left l₂ he), hname]
  have hvisit : (addLegacyPolicyEntries order m policies).lookup name
      = (addLegacyEntry (l₁.foldl addLegacyEntry m) ⟨name, owners⟩).lookup name := by
    unfold addLegacyPolicyEntries
    rw [hsplit, foldl_append, foldl_cons]
    exact lookup_foldl_addLegacyEntry fun e he =>
      hother e (mem_append_right l₁ he)
  rw [hvisit]
  clear_value owners
  match owners with
  | [] => exact hbefore
  | [p] =>
    have hentry : (l₁.foldl addLegacyEntry m).lookup p.getUniqueName
        = m.lookup p.getUniqueName := by
      refine lookup_foldl_addLegacyEntry fun e he heq => ?_
      obtain ⟨q, -, hq⟩ := exists_of_mem_visit (show e ∈ order.visit (legacyNameOwners policies) by
          rw [hsplit]; exact mem_append_left _ he)
      exact getUniqueName_ne_legacy p q (heq ▸ hq.symm)
    generalize l₁.foldl addLegacyEntry m = m' at hbefore hentry ⊢
    unfold addLegacyEntry
    dsimp only
    rw [hentry]
    cases m.lookup p.getUniqueName with
    | none => exact hbefore
    | some entry => exact lookup_insert _
  | _ :: _ :: _ => exact hbefore

/-! ## No shadowing -/

def SoleOwner (policies : List PoliciesV1.Policy) (name : String) (p : PoliciesV1.Policy) : Prop :=
  p ∈ policies ∧ p.legacyPolicyUniqueName = name
    ∧ ∀ q ∈ policies, q.legacyPolicyUniqueName = name → q = p

theorem ownersOf_eq_singleton_iff (h : policies.Nodup) {p} :
    ownersOf policies name = [p] ↔ SoleOwner policies name p := by
  have hmem (q) : q ∈ ownersOf policies name
      ↔ q ∈ policies ∧ q.legacyPolicyUniqueName = name := by
    rw [ownersOf, mem_filter, decide_eq_true_eq]
  constructor
  · intro heq
    have hp : p ∈ ownersOf policies name := heq ▸ mem_singleton_self p
    refine ⟨((hmem p).1 hp).1, ((hmem p).1 hp).2, fun q hq hname => ?_⟩
    exact mem_singleton.1 (heq ▸ (hmem q).2 ⟨hq, hname⟩)
  · rintro ⟨hp, hname, hsole⟩
    have hnodup : (ownersOf policies name).Nodup := h.filter _
    refine perm_singleton.1 ((perm_ext_iff_of_nodup hnodup (nodup_singleton p)).2 fun q => ?_)
    rw [hmem, mem_singleton]
    constructor
    · exact fun hq => hsole q hq.1 hq.2
    · rintro rfl
      exact ⟨hp, hname⟩

section

variable {order : MapOrder} (h : Identifiable policies)
include h

theorem lookup_buildPoliciesMap_legacy (q : PoliciesV1.Policy) :
    (buildPoliciesMap policies server).lookup q.legacyPolicyUniqueName = none := by
  rw [Option.eq_none_iff_forall_ne_some]
  intro entry hentry
  obtain ⟨p, -, hname, -⟩ := (lookup_buildPoliciesMap h).1 hentry
  exact getUniqueName_ne_legacy p q hname

theorem lookup_policiesMap_uniqueName {p} (hp : p ∈ policies) :
    (policiesMap order server policies).lookup p.getUniqueName = some (configEntry server p) := by
  unfold policiesMap
  rw [lookup_addLegacyPolicyEntries_of_ne fun q _ heq =>
    getUniqueName_ne_legacy p q heq.symm]
  exact (lookup_buildPoliciesMap h).2 ⟨p, hp, rfl, rfl⟩

theorem lookup_policiesMap_legacy {q : PoliciesV1.Policy} {entry : PolicyServerConfigEntry} :
    (policiesMap order server policies).lookup q.legacyPolicyUniqueName = some entry
      ↔ ∃ p, SoleOwner policies q.legacyPolicyUniqueName p ∧ configEntry server p = entry := by
  have hsole (p) : ownersOf policies q.legacyPolicyUniqueName = [p]
        ↔ SoleOwner policies q.legacyPolicyUniqueName p :=
    ownersOf_eq_singleton_iff h.distinct.of_map
  unfold policiesMap
  rw [lookup_addLegacyPolicyEntries (lookup_buildPoliciesMap_legacy h q)]
  simp only [← hsole]
  match howners : ownersOf policies q.legacyPolicyUniqueName with
  | [] => simp
  | [p] =>
    have hp : p ∈ policies := ((hsole p).1 howners).1
    dsimp only
    rw [(lookup_buildPoliciesMap h).2 ⟨p, hp, rfl, rfl⟩]
    simp
  | _ :: _ :: _ => simp

theorem exists_of_lookup_policiesMap {name : String} {entry : PolicyServerConfigEntry}
    (hlookup : (policiesMap order server policies).lookup name = some entry) :
    ∃ p ∈ policies, configEntry server p = entry
      ∧ (name = p.getUniqueName ∨ name = p.legacyPolicyUniqueName) := by
  by_cases hlegacy : ∃ q ∈ policies, q.legacyPolicyUniqueName = name
  · obtain ⟨q, -, rfl⟩ := hlegacy
    obtain ⟨p, hp, hentry⟩ := (lookup_policiesMap_legacy h).1 hlookup
    exact ⟨p, hp.1, hentry, .inr hp.2.1.symm⟩
  · unfold policiesMap at hlookup
    rw [lookup_addLegacyPolicyEntries_of_ne fun q hq heq =>
      hlegacy ⟨q, hq, heq⟩] at hlookup
    obtain ⟨p, hp, heq, hentry⟩ := (lookup_buildPoliciesMap h).1 hlookup
    exact ⟨p, hp, hentry, .inl heq.symm⟩

end

/-- **No policy shadows another.** Unique names differ, and are no legacy names;
each leads to the entry of its policy, a legacy name to that of its only owner,
and there are no other names. -/
theorem policies_map_lookup (order : MapOrder)
    (server : PoliciesV1.PolicyServer) (h : Identifiable policies) :
    (policies.map Policy.getUniqueName).Nodup ∧ (∀ p ∈ policies, ∀ q : PoliciesV1.Policy,
          p.getUniqueName ≠ q.legacyPolicyUniqueName)
      ∧ (∀ p ∈ policies, (policiesMap order server policies).lookup p.getUniqueName
            = some (configEntry server p))
      ∧ (∀ q : PoliciesV1.Policy, (q.legacyPolicyUniqueName ∈ policiesMap order server policies
              ↔ ∃ p, SoleOwner policies q.legacyPolicyUniqueName p)
            ∧ ∀ p, SoleOwner policies q.legacyPolicyUniqueName p →
              (policiesMap order server policies).lookup
                q.legacyPolicyUniqueName = some (configEntry server p))
      ∧ ∀ name ∈ policiesMap order server policies, ∃ p ∈ policies, name = p.getUniqueName
            ∨ name = p.legacyPolicyUniqueName := by
  refine ⟨h.nodup_uniqueNames, fun p _ q => Policy.getUniqueName_ne_legacy p q,
    fun p hp => lookup_policiesMap_uniqueName h hp,
    fun q => ⟨?_, fun p hp => ?_⟩, fun name hname => ?_⟩
  · rw [← lookup_isSome, Option.isSome_iff_exists]
    simp only [lookup_policiesMap_legacy h]
    exact ⟨fun ⟨_, p, hp, _⟩ => ⟨p, hp⟩, fun ⟨p, hp⟩ => ⟨_, p, hp, rfl⟩⟩
  · exact (lookup_policiesMap_legacy h).2 ⟨p, hp, rfl⟩
  · obtain ⟨entry, hentry⟩ := Option.isSome_iff_exists.1 (lookup_isSome.2 hname)
    obtain ⟨p, hp, -, heq⟩ := exists_of_lookup_policiesMap h hentry
    exact ⟨p, hp, heq⟩

theorem shared_legacy_name : (policiesMap .stored (.created "default" none)
        [.created "a" "b-c" (.ofModule "m"),
          .created "a-b" "c" (.ofModule "m'")]).lookup "kw.ap.a.b-c"
        = some (configEntry (.created "default" none) (.created "a" "b-c" (.ofModule "m")))
      ∧ "namespaced-a-b-c" ∉ policiesMap .stored (.created "default" none)
        [.created "a" "b-c" (.ofModule "m"), .created "a-b" "c" (.ofModule "m'")] := by
  have h : Identifiable [.created "a" "b-c" (.ofModule "m"), .created "a-b" "c" (.ofModule "m'")] :=
    ⟨by decide, by decide⟩
  obtain ⟨-, -, hunique, hlegacy, -⟩ := policies_map_lookup .stored (.created "default" none) h
  refine ⟨hunique _ mem_cons_self, fun hmem => ?_⟩
  obtain ⟨p, -, -, hsole⟩ := (hlegacy (.created "a" "b-c" (.ofModule "m"))).1.1 hmem
  have hfirst := hsole _ mem_cons_self rfl
  have hsecond := hsole (.created "a-b" "c" (.ofModule "m'")) (by simp) (by decide)
  exact absurd (congrArg Policy.getName (hfirst.trans hsecond.symm)) (by decide)
