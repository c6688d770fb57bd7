import AdmController.GatekeeperInventory
import AdmController.RustDebug

/-!
# The inventory of OPA policies

OPA policies read the objects of the cluster from `data.kubernetes`. The first
object of a plural name decides which dictionary is made, and `register`
refuses those of the other scope.
-/

namespace OpaInventory

open Fallible List Option Function BTreeMap

open Gatekeeper (DynamicObject)
open Gatekeeper.GatekeeperInventory (Listed Distinct)

inductive RegoRuntimeError where
  | opaInventoryMissingName | opaInventoryMissingNamespace | opaInventoryAddNamespacedRes
  | opaInventoryAddClusterwideRes
  | opaInventoryMissingPluralName (resource : String)

variable {D : Type}

abbrev ResourcesByName (D : Type) := BTreeMap String (DynamicObject D)

abbrev ResourcesByNamespace (D : Type) := BTreeMap String (ResourcesByName D)

inductive ResourcesByScope (D : Type) where
  | cluster (resources : ResourcesByName D)
  | inNamespace (resources : ResourcesByNamespace D)

abbrev ResourcesByPluralName (D : Type) := BTreeMap String (ResourcesByScope D)

def ResourcesByName.register (m : ResourcesByName D) (obj : DynamicObject D) :
    Except RegoRuntimeError (ResourcesByName D) :=
  match obj.name with
  | none => .error .opaInventoryMissingName
  | some name => .ok (m.insert name obj)

def ResourcesByNamespace.register (m : ResourcesByNamespace D) (obj : DynamicObject D) :
    Except RegoRuntimeError (ResourcesByNamespace D) :=
  match obj.inNamespace with
  | none => .error .opaInventoryMissingNamespace
  | some ns => (ResourcesByName.register ((m.get ns).getD .empty) obj).map (m.insert ns)

def ResourcesByScope.register (obj : DynamicObject D) :
    ResourcesByScope D → Except RegoRuntimeError (ResourcesByScope D)
  | .cluster m => (ResourcesByName.register m obj).map .cluster
  | .inNamespace m => (ResourcesByNamespace.register m obj).map .inNamespace

def register (inventory : ResourcesByPluralName D) (obj : DynamicObject D) (pluralName : String) :
    Except RegoRuntimeError (ResourcesByPluralName D) :=
  let objNamespaced := obj.inNamespace.isSome
  match inventory.get pluralName with
  | some (.cluster m) =>
    if objNamespaced then .error .opaInventoryAddNamespacedRes
    else (ResourcesByScope.register obj (.cluster m)).map (inventory.insert pluralName)
  | some (.inNamespace m) =>
    if !objNamespaced then .error .opaInventoryAddClusterwideRes
    else (ResourcesByScope.register obj (.inNamespace m)).map (inventory.insert pluralName)
  | none =>
    (ResourcesByScope.register obj
      (if objNamespaced then .inNamespace .empty else .cluster .empty)).map
      (inventory.insert pluralName)

def debugResource (printable : Char → Bool) (r : ContextAwareResource) : String :=
  String.ofList ("ContextAwareResource \x7b api_version: ".toList
    ++ RustDebug.debugStr printable r.apiVersion ++ ", kind: ".toList
    ++ RustDebug.debugStr printable r.kind ++ " \x7d".toList)

/-- `OpaInventory::new` -/
def new (printable : Char → Bool)
    (kubeResources : BTreeMap ContextAwareResource (List (DynamicObject D)))
    (pluralNames : BTreeMap ContextAwareResource String) :
    Except RegoRuntimeError (ResourcesByPluralName D) :=
  kubeResources.entries.foldlM (fun inventory entry =>
    match pluralNames.get entry.1 with
    | none => .error (.opaInventoryMissingPluralName (debugResource printable entry.1))
    | some pluralName =>
      entry.2.foldlM (fun inventory obj => register inventory obj pluralName) inventory) .empty

/-! ## What is found in an inventory -/

def ResourcesByScope.find : ResourcesByScope D → Option String → String → Option (DynamicObject D)
  | .cluster m, none, name => m.get name
  | .inNamespace m, some ns, name => (m.get ns).bind (·.get name)
  | _, _, _ => none

def ResourcesByScope.namespaced : ResourcesByScope D → Bool
  | .cluster _ => false
  | .inNamespace _ => true

def find (inventory : ResourcesByPluralName D)
    (path : String × Option String × String) : Option (DynamicObject D) :=
  (inventory.get path.1).bind (·.find path.2.1 path.2.2)

def scope (inventory : ResourcesByPluralName D) (pluralName : String) :
    Option Bool := (inventory.get pluralName).map (·.namespaced)

theorem ResourcesByScope.register_cases {s : ResourcesByScope D}
    {obj : DynamicObject D} (hs : s.namespaced = obj.inNamespace.isSome) :
    (obj.name = none ∧ ∃ e, s.register obj = .error e)
      ∨ ∃ name s', obj.name = some name ∧ s.register obj = .ok s' ∧ s'.namespaced = s.namespaced
        ∧ ∀ ns n, s'.find ns n = if (ns, n) = (obj.inNamespace, name) then some obj
          else s.find ns n := by
  unfold register ResourcesByNamespace.register ResourcesByName.register
  cases s with
  | cluster m =>
    have hns : obj.inNamespace = none := isNone_iff_eq_none.1 (isSome_eq_false_iff.1 hs.symm)
    cases obj.name with
    | none => exact .inl ⟨rfl, _, rfl⟩
    | some name =>
      refine .inr ⟨name, _, rfl, rfl, rfl, fun ns n => ?_⟩
      cases ns <;> simp [find, hns, get_insert]
  | inNamespace m =>
    obtain ⟨ns, hns⟩ := isSome_iff_exists.1 hs.symm
    rw [hns]
    cases obj.name with
    | none => exact .inl ⟨rfl, _, rfl⟩
    | some name =>
      refine .inr ⟨name, _, rfl, rfl, rfl, fun ns' n => ?_⟩
      cases ns' with
      | none => simp [find]
      | some ns' =>
        refine (PathStore.single.findBelow_putBelow m (ns, name) obj (ns', n)).trans ?_
        simp [find, PathStore.findBelow, PathStore.single]

theorem exists_register_eq {inventory : ResourcesByPluralName D} {obj : DynamicObject D}
    {pluralName : String} (h : scope inventory pluralName ≠ some (!obj.inNamespace.isSome)) :
    ∃ s : ResourcesByScope D, register inventory obj pluralName
      = (s.register obj).map (inventory.insert pluralName)
      ∧ s.namespaced = obj.inNamespace.isSome
      ∧ ∀ ns n, s.find ns n = find inventory (pluralName, ns, n) := by
  unfold scope at h
  unfold register
  cases hs : inventory.get pluralName with
  | none =>
    refine ⟨_, rfl, ?_, fun ns n => ?_⟩
    · cases obj.inNamespace <;> rfl
    · rw [find, hs]
      cases obj.inNamespace <;> cases ns <;> rfl
  | some s =>
    rw [hs] at h
    have hscope : s.namespaced = obj.inNamespace.isSome := by
      cases hns : obj.inNamespace <;> simp_all
    refine ⟨s, ?_, hscope, fun ns n => by rw [find, hs]; rfl⟩
    rw [← hscope]
    cases s <;> rfl

theorem register_cases (inventory : ResourcesByPluralName D)
    (obj : DynamicObject D) (pluralName : String) :
    ((∃ e, register inventory obj pluralName = .error e) ∧ (obj.name = none
          ∨ scope inventory pluralName = some (!obj.inNamespace.isSome)))
      ∨ ∃ name inventory', obj.name = some name ∧ register inventory obj pluralName = .ok inventory'
        ∧ scope inventory pluralName ≠ some (!obj.inNamespace.isSome)
        ∧ scope inventory' = update (scope inventory) pluralName (some obj.inNamespace.isSome)
        ∧ find inventory' = update (find inventory)
          (pluralName, obj.inNamespace, name) (some obj) := by
  by_cases hscope : scope inventory pluralName = some (!obj.inNamespace.isSome)
  · obtain ⟨s, hs, hother⟩ := map_eq_some_iff.1 hscope
    refine .inl ⟨?_, .inr hscope⟩
    unfold register
    rw [hs, ← Bool.not_not obj.inNamespace.isSome, ← hother]
    cases s <;> exact ⟨_, rfl⟩
  · obtain ⟨s, hreg, hs, hfind⟩ := exists_register_eq hscope
    rw [hreg]
    obtain ⟨hname, e, he⟩ | ⟨name, s', hname, hs', hnamespaced, hfind'⟩ :=
      ResourcesByScope.register_cases hs
    · exact .inl ⟨⟨e, by rw [he]; rfl⟩, .inl hname⟩
    refine .inr ⟨name, inventory.insert pluralName s', hname, by rw [hs']; rfl, hscope, ?_, ?_⟩
    · funext p
      rw [scope, get_insert, update_apply, ← hs, ← hnamespaced]
      split <;> rfl
    · funext key
      obtain ⟨p, ns, n⟩ := key
      rw [find, get_insert, update_apply]
      by_cases hp : p = pluralName
      · subst hp
        rw [if_pos rfl, bind_some, hfind', hfind]
        simp
      · rw [if_neg hp, if_neg fun h => hp (Prod.mk.inj h).1, find]

section

variable {printable : Char → Bool} {kubeResources :
    BTreeMap ContextAwareResource (List (DynamicObject D))}
  {pluralNames : BTreeMap ContextAwareResource String}

/-! ## Many objects -/

def Placed (kubeResources : BTreeMap ContextAwareResource (List (DynamicObject D)))
    (pluralNames : BTreeMap ContextAwareResource String) (pluralName : String)
    (obj : DynamicObject D) : Prop :=
  ∃ resource, pluralNames.get resource = some pluralName ∧ Listed kubeResources resource obj

def registrations (kubeResources : BTreeMap ContextAwareResource (List (DynamicObject D)))
    (pluralNames : BTreeMap ContextAwareResource String) :
    List (String × DynamicObject D) :=
  kubeResources.entries.flatMap fun entry =>
    (pluralNames.get entry.1).elim [] fun p => entry.2.map (Prod.mk p)

variable {e : String × DynamicObject D}

theorem mem_elim_map {o : Option String} {l : List (DynamicObject D)} :
    e ∈ o.elim [] (fun p => l.map (Prod.mk p)) ↔ o = some e.1 ∧ e.2 ∈ l := by
  cases o with
  | none => simp
  | some p =>
    obtain ⟨q, obj⟩ := e
    simp [and_comm]

theorem mem_registrations :
    e ∈ registrations kubeResources pluralNames ↔ Placed kubeResources pluralNames e.1 e.2 := by
  unfold registrations Placed Listed
  simp only [mem_flatMap, mem_elim_map, Prod.exists]
  constructor
  · rintro ⟨resource, objs, hmem, hp, hobj⟩
    exact ⟨resource, hp, objs, hmem, hobj⟩
  · rintro ⟨resource, hp, objs, hmem, hobj⟩
    exact ⟨resource, objs, hmem, hp, hobj⟩

theorem new_eq_ok_iff {inventory : ResourcesByPluralName D} :
    new printable kubeResources pluralNames = .ok inventory ↔ (∀ entry ∈ kubeResources.entries,
          (pluralNames.get entry.1).isSome = true)
        ∧ (registrations kubeResources pluralNames).foldlM
          (fun inventory e => register inventory e.2 e.1) .empty
          = .ok inventory := by
  unfold new registrations
  rw [foldlM_flatMap]
  generalize (empty : ResourcesByPluralName D) = start
  induction kubeResources.entries generalizing start with
  | nil => simp
  | cons entry l ih =>
    rw [foldlM_cons, foldlM_cons, bind_eq_ok, bind_eq_ok, forall_mem_cons]
    cases hp : pluralNames.get entry.1 with
    | none => simp
    | some p =>
      simp only [ih, elim_some, foldlM_map, isSome_some, true_and]
      constructor
      · rintro ⟨a, ha, hall, hl⟩
        exact ⟨hall, a, ha, hl⟩
      · rintro ⟨hall, a, ha, hl⟩
        exact ⟨a, ha, hall, hl⟩

/-- **The registered objects** have their scopes, and just these are found. -/
structure Registered (l : List (String × DynamicObject D))
    (inventory : ResourcesByPluralName D) : Prop where
  scope : ∀ e ∈ l, scope inventory e.1 = some e.2.inNamespace.isSome
  find : (l.Pairwise fun e e' => ¬ (e.1 = e'.1
    ∧ e.2.inNamespace = e'.2.inNamespace ∧ e.2.name = e'.2.name)) →
    ∀ p ns n obj, find inventory (p, ns, n) = some obj
      ↔ (p, obj) ∈ l ∧ obj.inNamespace = ns ∧ obj.name = some n

theorem registered_nil : Registered [] (.empty : ResourcesByPluralName D) :=
  ⟨fun _ h => absurd h not_mem_nil, fun _ _ _ _ _ => by simp [find, BTreeMap.get, BTreeMap.empty]⟩

theorem Registered.register {l : List (String × DynamicObject D)}
    {inventory inventory' : ResourcesByPluralName D} (h : Registered l inventory)
    (hreg : register inventory e.2 e.1 = .ok inventory') :
    Registered (l ++ [e]) inventory' := by
  obtain ⟨⟨_, herr⟩, -⟩ | ⟨name, _, hname, hok, hne, hscope, hfind⟩ :=
    register_cases inventory e.2 e.1
  · cases herr.symm.trans hreg
  cases hok.symm.trans hreg
  constructor
  · intro e' he'
    rw [hscope, update_apply]
    rcases mem_append.1 he' with he' | he'
    · -- an earlier object of the same plural name has the same scope
      have hold := h.scope e' he'
      split
      · next heq =>
        rw [heq] at hold
        rw [hold, ne_eq, some.injEq, Bool.eq_not] at hne
        exact congrArg some (not_not.1 hne).symm
      · exact hold
    · rw [mem_singleton.1 he', if_pos rfl]
  · intro hpairs p ns n obj
    obtain ⟨hpairs, -, hlast⟩ := pairwise_append.1 hpairs
    rw [hfind, update_apply, mem_append, mem_singleton]
    split
    · next hpath =>
      obtain ⟨rfl, rfl, rfl⟩ : p = e.1 ∧ ns = e.2.inNamespace ∧ n = name := by simpa using hpath
      constructor
      · rintro ⟨⟩
        exact ⟨.inr rfl, rfl, hname⟩
      · rintro ⟨hmem | heq, hns, hn⟩
        · exact absurd ⟨rfl, hns, hn.trans hname.symm⟩ (hlast _ hmem e (mem_singleton.2 rfl))
        · rw [← heq]
    · next hpath =>
      rw [h.find hpairs]
      refine and_congr_left fun ⟨hns, hn⟩ => (or_iff_left ?_).symm
      rintro rfl
      exact hpath (by rw [← hns, some.inj (hname.symm.trans hn)])

structure WellSorted (kubeResources : BTreeMap ContextAwareResource (List (DynamicObject D)))
    (pluralNames : BTreeMap ContextAwareResource String) : Prop where
  named : ∀ entry ∈ kubeResources.entries, ∀ obj ∈ entry.2, obj.name ≠ none
  covered : ∀ entry ∈ kubeResources.entries, (pluralNames.get entry.1).isSome = true
  injective : ∀ a ∈ kubeResources.entries, ∀ b ∈ kubeResources.entries,
    pluralNames.get a.1 = pluralNames.get b.1 → a.1 = b.1
  oneScope : ∀ entry ∈ kubeResources.entries, ∀ o ∈ entry.2, ∀ o' ∈ entry.2,
    o.inNamespace.isSome = o'.inNamespace.isSome
  distinct : Distinct kubeResources

variable (h : WellSorted kubeResources pluralNames)

include h

theorem WellSorted.eq_of_get {a b : ContextAwareResource × List (DynamicObject D)}
    (ha : a ∈ kubeResources.entries) (hb : b ∈ kubeResources.entries) {p : String}
    (hpa : pluralNames.get a.1 = some p) (hpb : pluralNames.get b.1 = some p) : a = b := by
  have hkeys : (kubeResources.entries.map Prod.fst).Nodup :=
    pairwise_map.2 (kubeResources.sorted.imp fun h => ContextAwareResource.ne_of_lt h)
  exact inj_on_of_nodup_map hkeys ha hb (h.injective a ha b hb (hpa.trans hpb.symm))

theorem WellSorted.scope_eq {p : String} {o o' : DynamicObject D}
    (ho : Placed kubeResources pluralNames p o) (ho' : Placed kubeResources pluralNames p o') :
    o.inNamespace.isSome = o'.inNamespace.isSome := by
  obtain ⟨r, hr, objs, hmem, hobj⟩ := ho
  obtain ⟨r', hr', objs', hmem', hobj'⟩ := ho'
  cases h.eq_of_get hmem hmem' hr hr'
  exact h.oneScope _ hmem o hobj o' hobj'

theorem WellSorted.pairwise : (registrations kubeResources pluralNames).Pairwise fun e e' =>
    ¬ (e.1 = e'.1 ∧ e.2.inNamespace = e'.2.inNamespace ∧ e.2.name = e'.2.name) := by
  refine pairwise_flatMap.2 ⟨fun entry hentry => ?_, ?_⟩
  · cases pluralNames.get entry.1 with
    | none => exact List.Pairwise.nil
    | some p =>
      refine pairwise_map.2 ?_
      exact (h.distinct entry hentry).imp fun hne heq => hne heq.2
  · refine kubeResources.sorted.imp_of_mem fun {a b} ha hb hlt x hx y hy heq => ?_
    refine ContextAwareResource.ne_of_lt hlt (h.injective a ha b hb ?_)
    rw [(mem_elim_map.1 hx).1, (mem_elim_map.1 hy).1, heq.1]

theorem WellSorted.exists_new :
    ∃ inventory, new printable kubeResources pluralNames = .ok inventory := by
  simp only [new_eq_ok_iff]
  refine (exists_congr fun _ => and_iff_right h.covered).2
    (foldlM_ok_of_total (P := fun s : ResourcesByPluralName D =>
      ∀ p b, scope s p = some b → ∃ o, Placed kubeResources pluralNames p o
        ∧ o.inNamespace.isSome = b) (fun p b hb => by cases hb) ?_)
  intro e he s hs
  have hplaced := mem_registrations.1 he
  obtain ⟨-, hname | hother⟩ | ⟨_, s', -, hok, -, hscope, -⟩ := register_cases s e.2 e.1
  · obtain ⟨_, _, objs, hmem, hobj⟩ := hplaced
    exact absurd hname (h.named _ hmem _ hobj)
  · obtain ⟨o, ho, hb⟩ := hs _ _ hother
    rw [h.scope_eq ho hplaced] at hb
    cases he : e.2.inNamespace.isSome <;> rw [he] at hb <;> cases hb
  · refine ⟨s', hok, fun p b hb => ?_⟩
    rw [hscope, update_apply] at hb
    split at hb
    · next hp => exact ⟨e.2, hp ▸ hplaced, some.inj hb⟩
    · exact hs p b hb

end

/-- **The inventory is exact.** Objects that are sorted well are all found, and
nothing else is; kinds of mixed scope are refused. -/
theorem opaInventory_exact (printable : Char → Bool) (kubeResources :
      BTreeMap ContextAwareResource (List (DynamicObject D)))
    (pluralNames : BTreeMap ContextAwareResource String) :
    (WellSorted kubeResources pluralNames →
      ∃ inventory, new printable kubeResources pluralNames = .ok inventory
        ∧ ∀ p ns n obj, find inventory (p, ns, n) = some obj
          ↔ Placed kubeResources pluralNames p obj ∧ obj.inNamespace = ns ∧ obj.name = some n)
      ∧ ∀ resource o o', Listed kubeResources resource o →
        Listed kubeResources resource o' → o.inNamespace = none →
        o'.inNamespace ≠ none →
        ∃ e, new printable kubeResources pluralNames = .error e := by
  have hregistered {inventory : ResourcesByPluralName D}
      (hnew : new printable kubeResources pluralNames = .ok inventory) :
      Registered (registrations kubeResources pluralNames) inventory :=
    foldlM_ok_of_inv registered_nil
      (fun _ _ _ _ hl hreg => hl.register hreg) (new_eq_ok_iff.1 hnew).2
  constructor
  · intro h
    obtain ⟨inventory, hnew⟩ :
        ∃ inventory, new printable kubeResources pluralNames = .ok inventory :=
      h.exists_new
    refine ⟨inventory, hnew, fun p ns n obj => ?_⟩
    rw [(hregistered hnew).find h.pairwise, mem_registrations]
  · intro resource o o' ho ho' hnone hsome
    cases hnew : new printable kubeResources pluralNames with
    | error e => exact ⟨e, rfl⟩
    | ok inventory =>
      obtain ⟨p, hp⟩ := isSome_iff_exists.1 ((new_eq_ok_iff.1 hnew).1 _ ho.choose_spec.1)
      have hscope := (hregistered hnew).scope (p, o) (mem_registrations.2 ⟨resource, hp, ho⟩)
      rw [(hregistered hnew).scope (p, o')
        (mem_registrations.2 ⟨resource, hp, ho'⟩), hnone] at hscope
      exact absurd (some.inj hscope) (by simpa using hsome)

def defaultNames : BTreeMap ContextAwareResource String where
  entries := [(⟨"v1", "Namespace"⟩, "namespaces"), (⟨"v1", "Pod"⟩, "pods")]
  sorted := pairwise_pair.2 (.inr ⟨rfl, by decide⟩)

theorem opaInventory_exact_default : WellSorted
      Gatekeeper.GatekeeperInventory.defaultResources defaultNames
    ∧ ∃ inventory, new (fun _ => true) Gatekeeper.GatekeeperInventory.defaultResources defaultNames
          = .ok inventory
      ∧ find inventory ("pods", some "default", "nginx")
        = some ⟨some "nginx", some "default", 1⟩ := by
  have hsorted : WellSorted Gatekeeper.GatekeeperInventory.defaultResources defaultNames := by
    refine ⟨by decide +kernel, by decide +kernel, by decide +kernel, by decide +kernel, ?_⟩
    unfold Distinct
    decide +kernel
  refine ⟨hsorted, ?_⟩
  obtain ⟨inventory, hnew, hfind⟩ := (opaInventory_exact (fun _ => true) _ _).1 hsorted
  refine ⟨inventory, hnew, (hfind _ _ _ _).2 ⟨⟨⟨"v1", "Pod"⟩, by decide +kernel,
    [⟨some "nginx", some "default", 1⟩], ?_, mem_singleton.2 rfl⟩, rfl,
    rfl⟩⟩
  exact mem_cons_of_mem _ (mem_singleton.2 rfl)

end OpaInventory
