import AdmController.CapabilityWebhook
import AdmController.PolicyServerReconcilerSpec
import AdmController.StepSystem

/-!
# The capabilities of namespaced policies over many reconciles

A policy server can restrict the capabilities of namespaced policies: an empty
list grants nothing, no list everything. The controller writes the policy
server, and an empty list is lost in its JSON.
-/

namespace Controller

open GoJson StepSystem AList List Option

open Serde PoliciesV1 Remote

/-! ## What the configuration has to carry -/

def granted (l : List String) (inNamespace : String) : List String :=
  if inNamespace = "" then ["*"] else l

/-- **An entry carries the capabilities** of its policy, or of its members. -/
def EntryCarries (l : List String) (v : Value) : Prop :=
  ∃ e, readConfigEntry v = .ok e ∧ (e.policies.entries = [] → e.hostCapabilities
    = some (granted l e.namespacedName.inNamespace))
    ∧ ∀ m ∈ e.policies.entries, m.2.hostCapabilities = some (granted l e.namespacedName.inNamespace)

def ConfigurationCarries (l : List String) (data : ConfigMapData) : Prop :=
  ∃ kvs, data.lookup policyServerConfigPoliciesEntry = some (.mapping kvs)
    ∧ ∀ kv ∈ kvs, EntryCarries l kv.2

section

variable {server : PolicyServer} {policies : List Policy} {order : MapOrder}

def EntriesOf (server : PolicyServer) (policies : List Policy) (m : PolicyConfigEntryMap) : Prop :=
  ∀ name entry, m.lookup name = some entry → ∃ p ∈ policies, configEntry server p = entry

variable {p : Policy}

theorem EntriesOf.insert {m : PolicyConfigEntryMap}
    (h : EntriesOf server policies m) (name : String) (hp : p ∈ policies) :
    EntriesOf server policies (m.insert name (configEntry server p)) := by
  intro name' entry hlookup
  by_cases hname : name' = name
  · subst hname
    rw [lookup_insert, some.injEq] at hlookup
    exact ⟨p, hp, hlookup⟩
  · rw [lookup_insert_ne hname] at hlookup
    exact h name' entry hlookup

theorem entriesOf_policiesMap : EntriesOf server policies (policiesMap order server policies) := by
  have hbuild : EntriesOf server policies (buildPoliciesMap policies server) :=
    foldlRecOn policies _ (fun _ _ h => by cases h)
      fun m hm p hp => EntriesOf.insert hm p.getUniqueName hp
  refine foldlRecOn _ _ hbuild fun m hm e _ => ?_
  unfold addLegacyEntry
  split
  · next owner howner =>
    split
    · next entry hentry =>
      obtain ⟨p, hp, rfl⟩ := hm _ _ hentry
      exact hm.insert e.1 hp
    · exact hm
  · exact hm

variable {l : List String}

theorem hostCapabilitiesForPolicy_eq
    (h : server.spec.namespacedPoliciesCapabilities = some l) (p : Policy) :
    hostCapabilitiesForPolicy p server = granted l p.getNamespace := by
  unfold hostCapabilitiesForPolicy
  rw [h]
  rfl

theorem hostCapabilities_of_lookup {name : String} {m : GroupMemberEntry}
    (h : (configEntry server p).policies.lookup name = some m) :
    m.hostCapabilities = some (hostCapabilitiesForPolicy p server) := by
  cases hgroup : p.policyGroup with
  | none =>
    rw [show (configEntry server p).policies = ∅ by simp only [configEntry, hgroup]] at h
    cases h
  | some group =>
    rw [show (configEntry server p).policies = buildPolicyGroupMembersWithContext group.1
          (hostCapabilitiesForPolicy p server) by
      simp only [configEntry, hgroup], buildPolicyGroupMembersWithContext,
      lookup_mapValues] at h
    obtain ⟨member, -, rfl⟩ := map_eq_some_iff.1 h
    rfl

theorem entryCarries_configEntry
    (h : server.spec.namespacedPoliciesCapabilities = some l) (p : Policy) :
    EntryCarries l (configEntry server p).marshalJSON := by
  have hcaps := hostCapabilitiesForPolicy_eq h p
  unfold PolicyServerConfigEntry.marshalJSON
  by_cases hempty : (configEntry server p).policies.entries = []
  · rw [if_neg (by simp [hempty])]
    refine ⟨_, readConfigEntry_policyFields _, fun _ => congrArg some hcaps, fun m hm => ?_⟩
    cases hm
  · rw [if_pos (length_pos_iff.2 hempty)]
    obtain ⟨members, hread, hlookup⟩ := readConfigEntry_groupFields (configEntry server p)
    refine ⟨_, hread, fun hnil => ?_, fun m hm => ?_⟩
    · exact absurd hnil (entries_ne_nil_of_lookup hlookup hempty)
    · -- the member was written with the capabilities of its group
      have hm : members.lookup m.1 = some m.2 := mem_lookup_iff.2 hm
      rw [hlookup] at hm
      obtain ⟨written, hwritten, heq⟩ := map_eq_some_iff.1 hm
      rw [← heq]
      exact (hostCapabilities_of_lookup hwritten).trans (congrArg some hcaps)

theorem configurationCarries_updateConfigMapData
    (h : server.spec.namespacedPoliciesCapabilities = some l) :
    ConfigurationCarries l (updateConfigMapData order server policies) := by
  refine ⟨_, lookup_updateConfigMapData, fun kv hkv => ?_⟩
  obtain ⟨e, he, rfl⟩ := mem_map.1 hkv
  have he : e ∈ (policiesMap order server policies).entries := (perm_sorted _).mem_iff.1 he
  obtain ⟨p, -, hentry⟩ := entriesOf_policiesMap e.1 e.2 (mem_lookup_iff.2 he)
  rw [← hentry]
  exact entryCarries_configEntry h p

theorem not_configurationCarries (h : server.spec.namespacedPoliciesCapabilities = none)
    (hid : Identifiable policies) (hp : p ∈ policies)
    (hnamespace : p.getNamespace ≠ "") (hgroup : p.policyGroup = none)
    (hl : l ≠ ["*"]) :
    ¬ ConfigurationCarries l (updateConfigMapData order server policies) := by
  rintro ⟨kvs, hlookup, hall⟩
  rw [lookup_updateConfigMapData] at hlookup
  cases hlookup
  have hentry : ⟨p.getUniqueName, configEntry server p⟩
      ∈ (policiesMap order server policies).entries :=
    mem_lookup_iff.1 (lookup_policiesMap_uniqueName hid hp)
  obtain ⟨e, hread, hcarries, -⟩ := hall _ (mem_map.2 ⟨_, (perm_sorted _).mem_iff.2 hentry, rfl⟩)
  have hempty : (configEntry server p).policies.entries = [] := by
    simp only [configEntry, hgroup]
    rfl
  unfold PolicyServerConfigEntry.marshalJSON at hread
  rw [if_neg (by simp [hempty]), readConfigEntry_policyFields] at hread
  cases hread
  have hcaps : hostCapabilitiesForPolicy p server = granted l p.getNamespace :=
    some.inj (hcarries rfl)
  rw [hostCapabilitiesForPolicy, if_neg hnamespace, h, granted, if_neg hnamespace] at hcaps
  exact hl hcaps.symm

end

/-! ## Runs -/

/-- **What happens around a policy server.** -/
inductive ServerEvent where
  /-- Anything but the policy server and its configuration changes. -/
  | others (surroundings : Cluster)
  /-- The policy server is reconciled, successfully. -/
  | reconcile (backing : BackingReconcilers) (order : MapOrder) (faults : List (Option String))

def putBack {α β : Type} [DecidableEq α] (key : α) (old new : HashMap α β) : HashMap α β :=
  match old.lookup key with
  | some b => new.insert key b
  | none => new.erase key

def configMapKey (r : PolicyServerReconciler) (name : String) : String × String :=
  (r.deploymentsNamespace, "policy-server-" ++ name)

def serverStep (r : PolicyServerReconciler) (name : String) (c : Cluster) :
    ServerEvent → Option Cluster
  | .others surroundings => some { surroundings with
      policyServers := putBack name c.policyServers surroundings.policyServers
      configMaps := putBack (configMapKey r name) c.configMaps surroundings.configMaps }
  | .reconcile backing order faults =>
    match reconcileServerRequest { r with order := order } backing name faults c with
    | (.ok _, c') => some c'
    | _ => none

/-- **What a reconcile has to do to the configuration**: it carries the
capabilities of a policy server that stays, and is left alone otherwise. -/
structure Restricts (r : PolicyServerReconciler) (name : String)
    (l : List String) (c c' : Cluster) : Prop where
  written : ∀ server, c.policyServer name = .ok (some server) →
    server.metadata.deletionTimestamp = none →
      ∃ configMap, c'.configMaps.lookup (configMapKey r name) = some configMap
        ∧ ConfigurationCarries l configMap.data
  kept : (∀ server, c.policyServer name = .ok (some server) →
    server.metadata.deletionTimestamp ≠ none) →
    c'.configMaps = c.configMaps

def Survives (l : List String) (server : PolicyServer) : Prop :=
  l ≠ [] ∨ kubewardenFinalizer ∈ server.metadata.finalizers

def Restricted (name : String) (l : List String) (c : Cluster) : Prop :=
  ∀ v, c.policyServers.lookup name = some v →
    ∃ server, readPolicyServer v = .ok server ∧ server.metadata.name = name
      ∧ (server.metadata.deletionTimestamp = none →
        server.spec.namespacedPoliciesCapabilities = some l ∧ Survives l server)

section

variable {r : PolicyServerReconciler} {backing : BackingReconcilers}
  {name : String} {l : List String} {c c' : Cluster}

theorem lookup_putBack {α β : Type} [DecidableEq α] (key : α)
    (old new : HashMap α β) : (putBack key old new).lookup key = old.lookup key := by
  unfold putBack
  split
  · next b hb => rw [lookup_insert, hb]
  · next hnone => rw [lookup_erase, hnone]

variable {server : PolicyServer}

theorem policyServer_eq_some : c.policyServer name = .ok (some server)
    ↔ ∃ v, c.policyServers.lookup name = some v ∧ readPolicyServer v = .ok server := by
  unfold Cluster.policyServer
  cases c.policyServers.lookup name with
  | none => simp
  | some v =>
    rw [Fallible.mapError_eq_ok, Fallible.map_eq_ok]
    simp

theorem restricted_of_update {u : Unit} (hname : server.metadata.name = name)
    (hlive : server.metadata.deletionTimestamp = none → dropEmpty
      server.spec.namespacedPoliciesCapabilities = some l ∧ Survives l server)
    (h : c.updatePolicyServer server = .ok (u, c')) :
    Restricted name l c' := by
  obtain ⟨servers, rfl, hservers⟩ := Cluster.updatePolicyServer_eq_ok h
  intro v hv
  rw [hservers] at hv
  subst hname
  split at hv
  · rw [lookup_erase] at hv
    cases hv
  · rw [lookup_insert, some.injEq] at hv
    obtain ⟨authorities, hread, -⟩ := readPolicyServer_toJson server
    rw [hv] at hread
    exact ⟨_, hread, rfl, hlive⟩

theorem dropEmpty_of_ne_nil (h : l ≠ []) : dropEmpty (some l) = some l := by
  cases l with
  | nil => exact absurd rfl h
  | cons a l => rfl

variable {faults : List (Option String)} {result : Result}

theorem reconcileServerRequest_eq_ok
    (h : reconcileServerRequest r backing name faults c = (.ok result, c')) :
    (c.policyServer name = .ok none ∧ c' = c)
      ∨ ∃ server faults' s', c.policyServer name = .ok (some server)
        ∧ reconcileServer r backing ⟨c, faults', server⟩ = (.ok result, s')
        ∧ c' = s'.store := by
  unfold reconcileServerRequest at h
  split at h
  · cases h
  · split at h
    · cases h
    · next hnone =>
      cases h
      exact .inl ⟨hnone, rfl⟩
    · next server hserver =>
      rw [Prod.mk.injEq] at h
      exact .inr ⟨server, _, _, hserver, Prod.ext h.1 rfl, h.2.symm⟩

variable {s' : Remote.State Cluster PolicyServer}

theorem restricts_of_live (hname : server.metadata.name = name)
    (hlive : server.metadata.deletionTimestamp = none)
    (hlist : server.spec.namespacedPoliciesCapabilities = some l)
    (hsurvives : Survives l server) (hrestricted : Restricted name l c)
    (h : reconcileServer r backing ⟨c, faults, server⟩ = (.ok result, s')) :
    Restricted name l s'.store ∧ ∃ configMap, s'.store.configMaps.lookup (configMapKey r name)
          = some configMap
        ∧ ConfigurationCarries l configMap.data := by
  obtain ⟨s₁, configMap, hensure, hservers, hconfigMaps, hdata⟩ := reconcileServer_eq_ok hlive h
  -- the policy server in memory keeps its name and its list
  have hmemory : s₁.object.metadata.name = name
      ∧ s₁.object.spec.namespacedPoliciesCapabilities = some l
      ∧ Restricted name l s₁.store := by
    obtain ⟨-, rfl⟩ | ⟨hmissing, hupdate, hobject⟩ := ensureServerFinalizer_eq_ok hensure
    · exact ⟨hname, hlist, hrestricted⟩
    · have hne : l ≠ [] := hsurvives.resolve_right hmissing
      have hlist' : dropEmpty (withFinalizer
          server).spec.namespacedPoliciesCapabilities = some l := by
        show dropEmpty server.spec.namespacedPoliciesCapabilities = some l
        rw [hlist, dropEmpty_of_ne_nil hne]
      have hname' : (withFinalizer server).metadata.name = name := hname
      refine ⟨?_, ?_, restricted_of_update hname' (fun _ => ⟨hlist', .inl hne⟩) hupdate⟩
      · rw [hobject]
        unfold decodeReply
        split <;> exact hname
      · rw [hobject]
        unfold decodeReply
        split
        · exact hlist
        · exact hlist'
  obtain ⟨hname₁, hlist₁, hrestricted₁⟩ := hmemory
  refine ⟨fun v hv => hrestricted₁ v (hservers ▸ hv), configMap, ?_, ?_⟩
  · rw [hconfigMaps, PolicyServer.nameWithPrefix, hname₁]
    exact lookup_insert _
  · rw [hdata]
    exact configurationCarries_updateConfigMapData hlist₁

theorem restricted_of_deleted (hname : server.metadata.name = name)
    (hdeleted : server.metadata.deletionTimestamp ≠ none) (hrestricted : Restricted name l c)
    (h : reconcileServer r backing ⟨c, faults, server⟩ = (.ok result, s')) :
    Restricted name l s'.store ∧ s'.store.configMaps = c.configMaps := by
  obtain ⟨_, s₁, hobject, h⟩ := Prog.bind_eq_ok.1 h
  cases hobject
  rw [if_pos (isSome_iff_ne_none.2 hdeleted)] at h
  obtain ⟨hconfigMaps, hservers | ⟨finalizers, hupdate⟩⟩ := reconcileDeletion_eq_ok h
  · exact ⟨fun v hv => hrestricted v (hservers ▸ hv), hconfigMaps⟩
  · have hname' : (server.withFinalizers finalizers).metadata.name = name := hname
    exact ⟨restricted_of_update hname' (fun hlive => absurd hlive hdeleted) hupdate, hconfigMaps⟩

theorem restricts_of_reconcile (hrestricted : Restricted name l c)
    (h : reconcileServerRequest r backing name faults c = (.ok result, c')) :
    Restricted name l c' ∧ Restricts r name l c c' := by
  obtain ⟨hnone, rfl⟩ | ⟨server, faults', s', hserver, hreconcile, rfl⟩ :=
    reconcileServerRequest_eq_ok h
  · refine ⟨hrestricted, fun server hserver => ?_, fun _ => rfl⟩
    cases hnone.symm.trans hserver
  · obtain ⟨v, hv, hread⟩ := policyServer_eq_some.1 hserver
    obtain ⟨server', hread', hname, hlist⟩ := hrestricted v hv
    cases hread.symm.trans hread'
    by_cases hlive : server.metadata.deletionTimestamp = none
    · obtain ⟨hrestricted', hwritten⟩ := restricts_of_live hname hlive
        (hlist hlive).1 (hlist hlive).2 hrestricted hreconcile
      exact ⟨hrestricted', fun _ _ _ => hwritten,
        fun hdeleted => absurd hlive (hdeleted server hserver)⟩
    · obtain ⟨hrestricted', hkept⟩ := restricted_of_deleted hname hlive hrestricted hreconcile
      refine ⟨hrestricted', fun server' hserver' hlive' => ?_, fun _ => hkept⟩
      cases hserver.symm.trans hserver'
      exact absurd hlive' hlive

theorem restricted_of_step {event : ServerEvent} (hrestricted : Restricted name l c)
    (h : serverStep r name c event = some c') : Restricted name l c' := by
  cases event with
  | others surroundings =>
    cases h
    intro v hv
    exact hrestricted v ((lookup_putBack _ _ _).symm.trans hv)
  | reconcile backing order faults =>
    dsimp only [serverStep] at h
    split at h
    · next hreconcile =>
      cases h
      exact (restricts_of_reconcile hrestricted hreconcile).1
    · cases h

/-- **The restriction is written.** A list that is not empty, or that is stored
with the finalizer, is what every later configuration carries for namespaced
policies; cluster-wide ones get everything. -/
theorem restriction_is_written {server : PolicyServer} {c₀ : Cluster}
    {events : List ServerEvent} {order : MapOrder}
    {faults : List (Option String)}
    (hserver : c₀.policyServer name = .ok (some server))
    (hname : server.metadata.name = name)
    (hlist : server.spec.namespacedPoliciesCapabilities = some l)
    (hsurvives : Survives l server)
    (hrun : run (serverStep r name) c₀ events = some c)
    (hreconcile : serverStep r name c (.reconcile backing order faults)
      = some c') : Restricts r name l c c' := by
  have hinit : Restricted name l c₀ := by
    intro v hv
    obtain ⟨v', hv', hread⟩ := policyServer_eq_some.1 hserver
    cases hv.symm.trans hv'
    exact ⟨server, hread, hname, fun _ => ⟨hlist, hsurvives⟩⟩
  have hrestricted : Restricted name l c :=
    run_invariant _ (fun _ _ _ => restricted_of_step) hinit hrun
  dsimp only [serverStep] at hreconcile
  split at hreconcile
  · next h =>
    cases hreconcile
    obtain ⟨hwritten, hkept⟩ := (restricts_of_reconcile hrestricted h).2
    exact ⟨hwritten, hkept⟩
  · cases hreconcile

variable (hserver : c.policyServer name = .ok (some server)) (hname : server.metadata.name = name)
  (hlive : server.metadata.deletionTimestamp = none)
  (hfinalizer : kubewardenFinalizer ∈ server.metadata.finalizers)

include hserver hname hlive hfinalizer

theorem configMap_of_finalized {order : MapOrder}
    (h : serverStep r name c (.reconcile backing order faults) = some c') :
    ∃ configMap, c'.configMaps.lookup (configMapKey r name) = some configMap ∧ configMap.data
      = updateConfigMapData order server (c.servedPolicies r name) := by
  dsimp only [serverStep] at h
  split at h
  · next hrequest =>
    cases h
    obtain ⟨hnone, -⟩ | ⟨server', faults', s', hserver', hreconcile, rfl⟩ :=
      reconcileServerRequest_eq_ok hrequest
    · cases hnone.symm.trans hserver
    · cases hserver.symm.trans hserver'
      obtain ⟨s₁, configMap, hensure, -, hconfigMaps, hdata⟩ :=
        reconcileServer_eq_ok hlive hreconcile
      obtain ⟨-, rfl⟩ | ⟨hmissing, -⟩ := ensureServerFinalizer_eq_ok hensure
      · subst hname
        refine ⟨configMap, ?_, hdata⟩
        rw [hconfigMaps]
        exact lookup_insert _
      · exact absurd hfinalizer hmissing
  · cases h

theorem not_restricts {order : MapOrder} {p : Policy}
    (hnone : server.spec.namespacedPoliciesCapabilities = none)
    (hid : Identifiable (c.servedPolicies r name))
    (hp : p ∈ c.servedPolicies r name) (hnamespace : p.getNamespace ≠ "")
    (hgroup : p.policyGroup = none) (hl : l ≠ ["*"])
    (h : serverStep r name c (.reconcile backing order faults) = some c') :
    ¬ Restricts r name l c c' := by
  intro hrestricts
  obtain ⟨configMap, hlookup, hcarries⟩ := hrestricts.written server hserver hlive
  obtain ⟨configMap', hlookup', hdata⟩ := configMap_of_finalized hserver hname hlive hfinalizer h
  cases hlookup.symm.trans hlookup'
  rw [hdata] at hcarries
  exact not_configurationCarries hnone hid hp hnamespace hgroup hl hcarries

end

/-! ## A policy server with a list -/

def PolicyServerReconciler.standard : PolicyServerReconciler :=
  ⟨"kubewarden", "kubewarden-controller-config", .stored, true⟩

def writtenServer (l : List String) : Value :=
  object [("metadata", some (object [("name", some (.string "default"))])),
    ("spec", some (object [("namespacedPoliciesCapabilities", some (.sequence (l.map .string)))]))]

def restrictedCluster (l : List String) : Cluster :=
  { Cluster.empty with
    policies := [.created "a" "p" (.ofModule "m")]
    policyServers := singleton "default" (writtenServer l)
    configMaps := singleton ("kubewarden", "kubewarden-controller-config")
      ⟨"1", ∅, singleton "config.yaml" (object
        [("namespacedPoliciesAllowedResources", some (.sequence [object
          [("apiGroups", some (.sequence [.string ""])),
            ("resources", some (.sequence [.string "pods"]))]]))])⟩ }

def ServerEvent.undisturbed : ServerEvent := .reconcile .settled .stored []

structure SeenServer where
  name : String
  capabilities : Option (List String)
  (isDeleted isFinalized : Bool)
deriving DecidableEq

def SeenServer.of (server : PolicyServer) : SeenServer :=
  ⟨server.metadata.name, server.spec.namespacedPoliciesCapabilities,
    server.metadata.deletionTimestamp.isSome,
    server.metadata.finalizers.contains kubewardenFinalizer⟩

/-- What is seen between two reconciles: the policy server, the policies that
are served, and whether the second reconcile succeeds. -/
structure SeenBetween where
  server : Option SeenServer
  served : List (String × Bool)
  succeeds : Bool
deriving DecidableEq

def seenBetween (l : List String) : Option SeenBetween :=
  (serverStep .standard "default" (restrictedCluster l) .undisturbed).map
    fun c => ⟨(c.policyServer "default").toOption.join.map SeenServer.of,
      (c.servedPolicies .standard "default").map fun p => (p.getNamespace, p.policyGroup.isSome),
      (serverStep .standard "default" c .undisturbed).isSome⟩

theorem exists_of_seenBetween {l : List String} {seen : SeenServer} {served : List (String × Bool)}
    (h : seenBetween l = some ⟨some seen, served, true⟩) :
    ∃ c c' server, serverStep .standard "default" (restrictedCluster l) .undisturbed = some c
      ∧ serverStep .standard "default" c .undisturbed = some c'
      ∧ c.policyServer "default" = .ok (some server) ∧ SeenServer.of server = seen
      ∧ (c.servedPolicies .standard "default").map
        (fun p => (p.getNamespace, p.policyGroup.isSome)) = served := by
  obtain ⟨c, hstep, h⟩ := map_eq_some_iff.1 h
  rw [SeenBetween.mk.injEq] at h
  obtain ⟨hserver, hserved, hsecond⟩ := h
  obtain ⟨c', hstep'⟩ := isSome_iff_exists.1 hsecond
  obtain ⟨server, hfound, hseen⟩ := map_eq_some_iff.1 hserver
  refine ⟨c, c', server, hstep, hstep', ?_, hseen, hserved⟩
  cases hread : c.policyServer "default" with
  | error fault =>
    rw [hread] at hfound
    cases hfound
  | ok found =>
    rw [hread] at hfound
    exact congrArg Except.ok hfound

theorem nonempty_list_is_written : ∃ c c', run (serverStep .standard "default")
        (restrictedCluster ["oci/*"]) [.undisturbed] = some c
      ∧ serverStep .standard "default" c .undisturbed = some c'
      ∧ Restricts .standard "default" ["oci/*"] c c' := by
  have hseen : seenBetween ["oci/*"]
    = some ⟨some ⟨"default", some ["oci/*"], false, true⟩, [("a", false)],
      true⟩ := by decide +kernel
  obtain ⟨c, c', server, hstep, hstep', -⟩ := exists_of_seenBetween hseen
  have hrun : run (serverStep .standard "default")
      (restrictedCluster ["oci/*"]) [.undisturbed] = some c := by
    rw [run, hstep]
    rfl
  have hserver : (restrictedCluster ["oci/*"]).policyServer "default"
    = .ok (some (.created "default" (some ["oci/*"]))) := rfl
  exact ⟨c, c', hrun, hstep', restriction_is_written hserver rfl rfl
    (.inl (cons_ne_nil _ _)) hrun hstep'⟩

/-- **An empty list is dropped**: the first reconcile adds the finalizer, and
the second one grants everything to the namespaced policy. -/
theorem restriction_is_dropped : PolicyServerWebhook.validateNamespacedPoliciesCapabilities [] = []
      ∧ (∃ server, (restrictedCluster []).policyServer "default" = .ok (some server)
        ∧ server.spec.namespacedPoliciesCapabilities = some [])
      ∧ ∃ c c', run (serverStep .standard "default") (restrictedCluster []) [.undisturbed] = some c
        ∧ serverStep .standard "default" c .undisturbed = some c'
        ∧ ¬ Restricts .standard "default" [] c c' := by
  have hseen : seenBetween []
      = some ⟨some ⟨"default", none, false, true⟩, [("a", false)], true⟩ := by
    decide +kernel
  obtain ⟨c, c', server, hstep, hstep', hserver, hseen, hserved⟩ := exists_of_seenBetween hseen
  refine ⟨rfl, ⟨.created "default" (some []), rfl, rfl⟩, c, c', ?_, hstep', ?_⟩
  · rw [run, hstep]
    rfl
  · simp only [SeenServer.of, SeenServer.mk.injEq, isSome_eq_false_iff,
      isNone_iff_eq_none, contains_iff_mem] at hseen
    obtain ⟨hname, hlist, hlive, hfinalizer⟩ := hseen
    -- the policy that is served is namespaced, and not a group
    obtain ⟨p, hp, hpolicy⟩ := map_eq_singleton_iff.1 hserved
    rw [Prod.mk.injEq, isSome_eq_false_iff, isNone_iff_eq_none] at hpolicy
    have hid : Identifiable [p] := by
      refine ⟨nodup_singleton _, fun q hq => ?_⟩
      rw [mem_singleton.1 hq, hpolicy.1]
      decide
    exact not_restricts hserver hname hlive hfinalizer hlist (hp ▸ hid)
      (hp ▸ mem_singleton_self p) (by rw [hpolicy.1]; decide) hpolicy.2
      (by decide) hstep'

end Controller
