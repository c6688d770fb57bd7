import AdmController.NestedMaps
import AdmController.PolicyConfig

/-!
# The inventory of Gatekeeper policies

Gatekeeper policies read the objects of the cluster from `data.inventory`.
-/

open List

theorem ContextAwareResource.ne_of_lt {a b : ContextAwareResource} (h : a < b) : a ≠ b := by
  rintro rfl
  rcases h with h | h
  · exact lt_irrefl _ h
  · exact lt_irrefl _ h.2

namespace Gatekeeper

/-! ## The inventory -/

/-- An object: the metadata that the inventory reads, and the rest. -/
structure DynamicObject (D : Type) where
  (name inNamespace : Option String)
  data : D

inductive RegoRuntimeError where
  | gatekeeperInventoryMissingName
  | gatekeeperInventoryMissingNamespace
deriving DecidableEq

variable {D : Type}

abbrev ResourcesByName (D : Type) := BTreeMap String (DynamicObject D)

abbrev ResourcesByKind (D : Type) := BTreeMap String (ResourcesByName D)

abbrev ResourcesByGroupVersion (D : Type) := BTreeMap String (ResourcesByKind D)

abbrev ResourcesByNamespace (D : Type) := BTreeMap String (ResourcesByGroupVersion D)

/-- **The objects of the cluster**, as Gatekeeper expects them. -/
structure GatekeeperInventory (D : Type) where
  clusterResources : ResourcesByGroupVersion D
  namespacedResources : ResourcesByNamespace D

def ResourcesByName.register (m : ResourcesByName D) (obj : DynamicObject D) :
    Except RegoRuntimeError (ResourcesByName D) :=
  match obj.name with
  | none => .error .gatekeeperInventoryMissingName
  | some name => .ok (m.insert name obj)

def ResourcesByKind.register (m : ResourcesByKind D) (obj : DynamicObject D)
    (resource : ContextAwareResource) :
    Except RegoRuntimeError (ResourcesByKind D) := do
  let entry ← ResourcesByName.register ((m.get resource.kind).getD .empty) obj
  return m.insert resource.kind entry

def ResourcesByGroupVersion.register (m : ResourcesByGroupVersion D)
    (obj : DynamicObject D) (resource : ContextAwareResource) :
    Except RegoRuntimeError (ResourcesByGroupVersion D) := do
  let entry ← ResourcesByKind.register ((m.get resource.apiVersion).getD .empty) obj resource
  return m.insert resource.apiVersion entry

def ResourcesByNamespace.register (m : ResourcesByNamespace D)
    (obj : DynamicObject D) (resource : ContextAwareResource) :
    Except RegoRuntimeError (ResourcesByNamespace D) :=
  match obj.inNamespace with
  | none => .error .gatekeeperInventoryMissingNamespace
  | some ns => do
    let entry ← ResourcesByGroupVersion.register ((m.get ns).getD .empty) obj resource
    return m.insert ns entry

namespace GatekeeperInventory

def empty : GatekeeperInventory D := ⟨.empty, .empty⟩

variable (inventory : GatekeeperInventory D)

def register (obj : DynamicObject D) (resource : ContextAwareResource) :
    Except RegoRuntimeError (GatekeeperInventory D) :=
  match obj.inNamespace with
  | some _ => do
    let namespaced ← ResourcesByNamespace.register inventory.namespacedResources obj resource
    return { inventory with namespacedResources := namespaced }
  | none => do
    let cluster ← ResourcesByGroupVersion.register inventory.clusterResources obj resource
    return { inventory with clusterResources := cluster }

variable (kubeResources : BTreeMap ContextAwareResource (List (DynamicObject D)))

def new : Except RegoRuntimeError (GatekeeperInventory D) :=
  kubeResources.entries.foldlM (fun inventory entry =>
    entry.2.foldlM (fun inventory obj => inventory.register obj entry.1) inventory) empty

def findCluster (apiVersion kind name : String) : Option (DynamicObject D) := do
  let kinds ← inventory.clusterResources.get apiVersion
  let names ← kinds.get kind
  names.get name

def findNamespaced (ns apiVersion kind name : String) : Option (DynamicObject D) := do
  let versions ← inventory.namespacedResources.get ns
  let kinds ← versions.get apiVersion
  let names ← kinds.get kind
  names.get name

/-! ## The inventory as a store -/

/-- A path in the inventory: in `cluster`, or in `namespace`. -/
abbrev Path := (String × String × String) ⊕ (String × String × String × String)

def versionStore : PathStore (ResourcesByGroupVersion D) (String × String × String)
    (DynamicObject D) :=
  .nested (.nested .single)

def store : PathStore (GatekeeperInventory D) Path (DynamicObject D) :=
  .either versionStore (.nested versionStore) ⟨fun i => (i.clusterResources, i.namespacedResources),
    fun p => ⟨p.1, p.2⟩, fun _ => rfl, fun _ => rfl⟩

def pathOf (resource : ContextAwareResource) (obj : DynamicObject D) (name : String) : Path :=
  match obj.inNamespace with
  | none => .inl (resource.apiVersion, resource.kind, name)
  | some ns => .inr (ns, resource.apiVersion, resource.kind, name)

theorem find_inl (apiVersion kind name : String) :
    store.find inventory (.inl (apiVersion, kind, name))
      = inventory.findCluster apiVersion kind name := rfl

theorem find_inr (ns apiVersion kind name : String) :
    store.find inventory (.inr (ns, apiVersion, kind, name))
      = inventory.findNamespaced ns apiVersion kind name := rfl

theorem register_eq (obj : DynamicObject D) (resource : ContextAwareResource) :
    inventory.register obj resource = match obj.name with
      | none => .error .gatekeeperInventoryMissingName
      | some name => .ok (store.put inventory (pathOf resource obj name) obj) := by
  unfold register ResourcesByNamespace.register ResourcesByGroupVersion.register
    ResourcesByKind.register ResourcesByName.register pathOf
  cases obj.inNamespace with
  | none => cases obj.name <;> rfl
  | some ns => cases obj.name <;> rfl

/-! ## Many objects -/

def registrations : List (ContextAwareResource × DynamicObject D) :=
  kubeResources.entries.flatMap fun entry => entry.2.map (Prod.mk entry.1)

def placed (l : List (ContextAwareResource × DynamicObject D)) : List (Path × DynamicObject D) :=
  l.filterMap fun e => e.2.name.map fun name => (pathOf e.1 e.2 name, e.2)

theorem new_eq : new kubeResources = (registrations kubeResources).foldlM
    (fun inventory e => inventory.register e.2 e.1) empty := by
  unfold new registrations
  rw [Fallible.foldlM_flatMap]
  congr 1
  funext inventory entry
  rw [foldlM_map]

variable {l : List (ContextAwareResource × DynamicObject D)}

theorem foldlM_register (h : ∀ e ∈ l, e.2.name ≠ none) (inventory : GatekeeperInventory D) :
    l.foldlM (fun inventory e => inventory.register e.2 e.1) inventory
      = .ok ((placed l).foldl (fun i e => store.put i e.1 e.2) inventory) := by
  induction l generalizing inventory with
  | nil => rfl
  | cons e l ih =>
    obtain ⟨hname, hl⟩ := forall_mem_cons.1 h
    obtain ⟨name, hname⟩ := Option.ne_none_iff_exists'.1 hname
    rw [foldlM_cons, register_eq, hname]
    show l.foldlM _ (store.put inventory (pathOf e.1 e.2 name) e.2) = _
    rw [ih hl, placed, placed, filterMap_cons, hname]
    rfl

theorem foldlM_register_error (h : ∃ e ∈ l, e.2.name = none) (inventory : GatekeeperInventory D) :
    ∃ err, l.foldlM (fun inventory e => inventory.register e.2 e.1) inventory = .error err := by
  induction l generalizing inventory with
  | nil =>
    obtain ⟨e, he, -⟩ := h
    exact absurd he not_mem_nil
  | cons e l ih =>
    rw [foldlM_cons, register_eq]
    cases hname : e.2.name with
    | none => exact ⟨_, rfl⟩
    | some name =>
      refine ih ?_ _
      obtain ⟨e', he', hnone⟩ := h
      refine ⟨e', (mem_cons.1 he').resolve_left ?_, hnone⟩
      rintro rfl
      exact absurd (hname.symm.trans hnone) (by simp)

theorem pathOf_inj {r r' : ContextAwareResource} {o o' : DynamicObject D}
    {n n' : String} (h : pathOf r o n = pathOf r' o' n') :
    r = r' ∧ o.inNamespace = o'.inNamespace ∧ n = n' := by
  unfold pathOf at h
  cases r
  cases r'
  cases hns : o.inNamespace <;> cases hns' : o'.inNamespace <;> simp_all

def Listed (resource : ContextAwareResource) (obj : DynamicObject D) : Prop :=
  ∃ objs, (resource, objs) ∈ kubeResources.entries ∧ obj ∈ objs

/-- No two objects of one kind share their namespace and their name. -/
def Distinct : Prop :=
  ∀ entry ∈ kubeResources.entries, entry.2.Pairwise fun a b =>
    ¬ (a.inNamespace = b.inNamespace ∧ a.name = b.name)

def SameLists (kubeResources kubeResources' :
    BTreeMap ContextAwareResource (List (DynamicObject D))) : Prop :=
  List.Forall₂ (fun entry entry' => entry.1 = entry'.1 ∧ entry.2.Perm entry'.2)
    kubeResources.entries kubeResources'.entries

section

variable {kubeResources kubeResources' : BTreeMap ContextAwareResource (List (DynamicObject D))}

theorem mem_registrations {e : ContextAwareResource × DynamicObject D} :
    e ∈ registrations kubeResources ↔ Listed kubeResources e.1 e.2 := by
  unfold registrations Listed
  simp only [mem_flatMap, mem_map, Prod.exists]
  constructor
  · rintro ⟨r, objs, hmem, obj, hobj, rfl⟩
    exact ⟨objs, hmem, hobj⟩
  · rintro ⟨objs, hmem, hobj⟩
    exact ⟨e.1, objs, hmem, e.2, hobj, rfl⟩

theorem nodup_paths (h : Distinct kubeResources) :
    ((placed (registrations kubeResources)).map Prod.fst).Nodup := by
  -- within one list by assumption, between lists by their keys
  have hpair : (registrations kubeResources).Pairwise fun e e' =>
      ¬ (e.1 = e'.1 ∧ e.2.inNamespace = e'.2.inNamespace ∧ e.2.name = e'.2.name) := by
    refine pairwise_flatMap.2 ⟨fun entry hentry => ?_, ?_⟩
    · rw [pairwise_map]
      exact (h entry hentry).imp fun hne heq => hne heq.2
    · refine kubeResources.sorted.imp fun {a b} hlt x hx y hy heq => ?_
      obtain ⟨o, -, rfl⟩ := mem_map.1 hx
      obtain ⟨o', -, rfl⟩ := mem_map.1 hy
      exact ContextAwareResource.ne_of_lt hlt heq.1
  unfold placed
  rw [List.Nodup, pairwise_map, pairwise_filterMap]
  refine hpair.imp fun hne x hx y hy heq => hne ?_
  obtain ⟨name, hname, rfl⟩ := Option.map_eq_some_iff.1 hx
  obtain ⟨name', hname', rfl⟩ := Option.map_eq_some_iff.1 hy
  obtain ⟨hresource, hns, rfl⟩ := pathOf_inj heq
  exact ⟨hresource, hns, hname.trans hname'.symm⟩

theorem registrations_perm (h : SameLists kubeResources kubeResources') :
    (registrations kubeResources).Perm (registrations kubeResources') := by
  unfold registrations
  unfold SameLists at h
  generalize kubeResources.entries = l at *
  generalize kubeResources'.entries = l' at *
  induction h with
  | nil => exact List.Perm.refl _
  | @cons entry entry' l l' hentry _ ih =>
    rw [flatMap_cons, flatMap_cons, ← hentry.1]
    exact (hentry.2.map _).append ih

theorem mem_placed {p : Path} {obj : DynamicObject D} :
    (p, obj) ∈ placed (registrations kubeResources)
      ↔ ∃ resource name, Listed kubeResources resource obj
        ∧ obj.name = some name ∧ p = pathOf resource obj name := by
  unfold placed
  simp only [mem_filterMap, mem_registrations, Option.map_eq_some_iff, Prod.exists, Prod.mk.injEq]
  constructor
  · rintro ⟨resource, o, hlisted, name, hname, rfl, rfl⟩
    exact ⟨resource, name, hlisted, hname, rfl⟩
  · rintro ⟨resource, name, hlisted, hname, rfl⟩
    exact ⟨resource, obj, hlisted, name, hname, rfl, rfl⟩

theorem find_placed (h : Distinct kubeResources) {resource : ContextAwareResource}
    {o obj : DynamicObject D} {name : String} :
    store.find (store.putAll (placed (registrations kubeResources)))
      (pathOf resource o name) = some obj
      ↔ Listed kubeResources resource obj
        ∧ obj.inNamespace = o.inNamespace ∧ obj.name = some name := by
  rw [store.find_putAll (nodup_paths h), mem_placed]
  constructor
  · rintro ⟨resource', name', hlisted, hname, hpath⟩
    obtain ⟨rfl, hns, rfl⟩ := pathOf_inj hpath
    exact ⟨hlisted, hns.symm, hname⟩
  · rintro ⟨hlisted, hns, hname⟩
    refine ⟨resource, name, hlisted, hname, ?_⟩
    unfold pathOf
    rw [hns]

end

/-- **The inventory is exact.** If objects have names and those of one kind
differ, it has just the listed objects, in whatever order they are listed. If an
object has no name, it is not built. -/
theorem gatekeeperInventory_exact (kubeResources :
      BTreeMap ContextAwareResource (List (DynamicObject D))) :
    ((∀ resource obj, Listed kubeResources resource obj → obj.name ≠ none) →
      Distinct kubeResources →
      ∃ inventory, new kubeResources = .ok inventory ∧ (∀ ns apiVersion kind name obj,
        inventory.findNamespaced ns apiVersion kind name = some obj
          ↔ Listed kubeResources ⟨apiVersion, kind⟩ obj
            ∧ obj.inNamespace = some ns ∧ obj.name = some name)
        ∧ (∀ apiVersion kind name obj, inventory.findCluster apiVersion kind name = some obj
          ↔ Listed kubeResources ⟨apiVersion, kind⟩ obj
            ∧ obj.inNamespace = none ∧ obj.name = some name)
        ∧ store.Full inventory
        ∧ ∀ kubeResources', SameLists kubeResources kubeResources' →
          new kubeResources' = .ok inventory)
      ∧ ((∃ resource obj, Listed kubeResources resource obj ∧ obj.name = none) →
          ∃ err, new kubeResources = .error err) := by
  constructor
  · intro hnames hdistinct
    have hnodup := nodup_paths hdistinct
    refine ⟨store.putAll (placed (registrations kubeResources)), ?_, ?_, ?_,
      store.full_putAll _, ?_⟩
    · rw [new_eq, foldlM_register fun e he => hnames _ _ (mem_registrations.1 he)]
      rfl
    · intro ns apiVersion kind name obj
      rw [← find_inr]
      exact @find_placed D kubeResources hdistinct ⟨apiVersion, kind⟩
        ⟨none, some ns, obj.data⟩ obj name
    · intro apiVersion kind name obj
      rw [← find_inl]
      exact @find_placed D kubeResources hdistinct ⟨apiVersion, kind⟩
        ⟨none, none, obj.data⟩ obj name
    · intro kubeResources' hsame
      have hperm := registrations_perm hsame
      rw [new_eq, foldlM_register fun e he => hnames _ _ (mem_registrations.1 (hperm.mem_iff.2 he))]
      have hplaced : (placed (registrations kubeResources)).Perm
        (placed (registrations kubeResources')) := hperm.filterMap _
      rw [store.putAll_perm hnodup hplaced]
      rfl
  · rintro ⟨resource, obj, hlisted, hname⟩
    rw [new_eq]
    exact foldlM_register_error ⟨(resource, obj), mem_registrations.2 hlisted, hname⟩ _

def defaultResources : BTreeMap ContextAwareResource (List (DynamicObject ℕ)) where
  entries := [(⟨"v1", "Namespace"⟩, [⟨some "default", none, 0⟩]),
    (⟨"v1", "Pod"⟩, [⟨some "nginx", some "default", 1⟩])]
  sorted := pairwise_pair.2 (.inr ⟨rfl, by decide⟩)

theorem gatekeeperInventory_exact_default : ∃ inventory, new defaultResources = .ok inventory
      ∧ inventory.findNamespaced "default" "v1" "Pod" "nginx"
        = some ⟨some "nginx", some "default", 1⟩
      ∧ inventory.findCluster "v1" "Namespace" "default" = some ⟨some "default", none, 0⟩ := by
  have hnames : ∀ resource obj, Listed defaultResources resource obj → obj.name ≠ none := by
    rintro resource obj ⟨objs, hmem, hobj⟩
    simp only [defaultResources, mem_cons, Prod.mk.injEq, not_mem_nil, or_false] at hmem
    rcases hmem with ⟨-, rfl⟩ | ⟨-, rfl⟩ <;> rw [mem_singleton.1 hobj] <;> simp
  have hdistinct : Distinct defaultResources := by
    intro entry hentry
    simp only [defaultResources, mem_cons, not_mem_nil, or_false] at hentry
    rcases hentry with rfl | rfl <;> exact pairwise_singleton _ _
  obtain ⟨inventory, hnew, hnamespaced, hcluster, -⟩ :=
    (gatekeeperInventory_exact defaultResources).1 hnames hdistinct
  refine ⟨inventory, hnew, (hnamespaced _ _ _ _ _).2 ⟨?_, rfl, rfl⟩,
    (hcluster _ _ _ _).2 ⟨?_, rfl, rfl⟩⟩
  · exact ⟨_, mem_cons_of_mem _ mem_cons_self, mem_cons_self⟩
  · exact ⟨_, mem_cons_self, mem_cons_self⟩

end GatekeeperInventory

end Gatekeeper
