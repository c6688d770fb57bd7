import AdmController.ConfigMapRoundTrip
import AdmController.PolicyReconcilerSpec
import AdmController.PolicyServerReconciler

/-!
# What a reconcile of a policy server does

What a reconcile of a policy server has done, if it ends without an error. The
JSON of a policy server is read back without an empty list of capabilities
(`readPolicyServer_toJson`).
-/

namespace Controller

open Prog GoJson List Cluster

open Serde PoliciesV1 Remote

/-! ## Policy servers that were stored -/

theorem readStrings_omitEmptySlice (l : List String) :
    readStrings (omitEmptySlice .string l) = .ok l :=
  readSlice_omitEmptySlice (fun _ => rfl) l

theorem readSlice_capabilities (o : Option (List String)) : readSlice readString
    (omitEmptySlice .string (o.getD [])) = .ok (dropEmpty o) := by
  match o with
  | none => rfl
  | some [] => rfl
  | some (a :: l) => exact readSlice_slice (fun _ => rfl) (some (a :: l))

theorem readObjectMeta_fields (m : ObjectMeta) :
    readObjectMeta (some (object (objectMetaFields m))) = .ok m := by
  have hread {α : Type} (read : Option Value → Except String α) (name : String)
      (hname : GoJson.Distinct name ["name", "namespace", "deletionTimestamp", "finalizers"]) :
      readField name read (object (objectMetaFields m))
        = read ((objectMetaFields m).lookup name).join :=
    readField_object _ rfl hname
  have hname := (hread readString "name" (by decide)).trans (readString_omitEmptyString m.name)
  have hnamespace := (hread readString "namespace" (by decide)).trans
    (readString_omitEmptyString m.inNamespace)
  have hdeletion : readField "deletionTimestamp" readStringPointer (object (objectMetaFields m))
      = .ok m.deletionTimestamp := by
    rw [hread _ _ (by decide)]
    show readStringPointer (omitNil .string m.deletionTimestamp) = _
    cases m.deletionTimestamp <;> rfl
  have hfinalizers := (hread readStrings "finalizers"
    (by decide)).trans (readStrings_omitEmptySlice m.finalizers)
  unfold readObjectMeta
  dsimp only
  rw [hname, hnamespace, hdeletion, hfinalizers]
  rfl

theorem readMap_sourceAuthorities (authorities : HashMap String (List String)) :
    ∃ authorities', readMap (fun v => readStrings (some v))
      (if authorities.entries.isEmpty then none
        else some (ofMap (fun certs => slice .string (some certs)) authorities))
      = .ok authorities'
      ∧ ∀ k, authorities'.lookup k = authorities.lookup k := by
  by_cases hempty : authorities.entries.isEmpty
  · have hnone : authorities = ∅ := AList.ext (isEmpty_iff.1 hempty)
    exact ⟨∅, by rw [if_pos hempty]; rfl, fun k => by rw [hnone]⟩
  · rw [if_neg hempty]
    have hcerts (certs : List String) : readStrings
        (some (slice .string (some certs))) = .ok (id certs) := by
      unfold readStrings
      rw [readSlice_slice (fun _ => rfl)]
      rfl
    obtain ⟨authorities', hread, hlookup⟩ :
        ∃ m, readMap (fun v => readStrings (some v)) (some (ofMap
              (fun certs => slice .string (some certs)) authorities))
            = .ok m
          ∧ ∀ k, m.lookup k = (authorities.lookup k).map id :=
      readMap_ofMap fun e _ => hcerts e.2
    exact ⟨authorities', hread, fun k => by rw [hlookup, Option.map_id, id]⟩

theorem readPolicyServerSpec_fields (spec : PolicyServerSpec) : ∃ authorities, readPolicyServerSpec
      (some (object (policyServerSpecFields spec)))
      = .ok ⟨dropEmpty spec.namespacedPoliciesCapabilities, spec.insecureSources, authorities⟩
    ∧ ∀ k, authorities.lookup k = spec.sourceAuthorities.lookup k := by
  have hread {α : Type} (read : Option Value → Except String α) (name : String)
      (hname : GoJson.Distinct name ["insecureSources", "sourceAuthorities",
        "namespacedPoliciesCapabilities"]) :
      readField name read (object (policyServerSpecFields spec))
        = read ((policyServerSpecFields spec).lookup name).join :=
    readField_object _ rfl hname
  have hinsecure := (hread readStrings "insecureSources"
    (by decide)).trans (readStrings_omitEmptySlice spec.insecureSources)
  obtain ⟨authorities, hmap, hlookup⟩ := readMap_sourceAuthorities spec.sourceAuthorities
  have hauthorities := (hread (readMap fun v =>
    readStrings (some v)) "sourceAuthorities" (by decide)).trans hmap
  have hcapabilities := (hread (readSlice readString)
    "namespacedPoliciesCapabilities" (by decide)).trans
      (readSlice_capabilities spec.namespacedPoliciesCapabilities)
  refine ⟨authorities, ?_, hlookup⟩
  unfold readPolicyServerSpec
  dsimp only
  rw [hinsecure, hauthorities, hcapabilities]
  rfl

theorem readPolicyServer_toJson (server : PolicyServer) :
    ∃ authorities, readPolicyServer (policyServerToJson server) = .ok ⟨server.metadata,
          dropEmpty server.spec.namespacedPoliciesCapabilities,
          server.spec.insecureSources, authorities⟩
      ∧ ∀ k, authorities.lookup k = server.spec.sourceAuthorities.lookup k := by
  have hmetadata : readField "metadata" readObjectMeta
      (policyServerToJson server) = .ok server.metadata :=
    (readField_object ["metadata", "spec"] rfl (by decide)).trans
      (readObjectMeta_fields server.metadata)
  obtain ⟨authorities, hspec, hlookup⟩ := readPolicyServerSpec_fields server.spec
  have hspec : readField "spec" readPolicyServerSpec
      (policyServerToJson server) = .ok ⟨_, _, authorities⟩ :=
    (readField_object ["metadata", "spec"] rfl (by decide)).trans hspec
  refine ⟨authorities, ?_, hlookup⟩
  unfold readPolicyServer
  rw [hmetadata, hspec]
  rfl

section

variable {r : PolicyServerReconciler} {backing : BackingReconcilers}
  {s s' : Remote.State Cluster PolicyServer}

variable {server : PolicyServer} {u : Unit}

/-! ## Writing the policy server -/

theorem Cluster.updatePolicyServer_eq_ok {c c' : Cluster}
    (h : c.updatePolicyServer server = .ok (u, c')) :
    ∃ servers, c' = { c with policyServers := servers }
      ∧ servers = if server.metadata.deletionTimestamp.isSome ∧ server.metadata.finalizers = [] then
        c.policyServers.erase server.metadata.name
      else c.policyServers.insert server.metadata.name (policyServerToJson server) := by
  unfold updatePolicyServer at h
  split at h
  · cases h
  · rw [Except.ok.injEq, Prod.mk.injEq] at h
    exact ⟨_, h.2.symm, rfl⟩

theorem updateServer_eq_ok (h : updateServer r s = (.ok u, s')) :
    s.store.updatePolicyServer s.object = .ok ((), s'.store)
      ∧ s'.object = decodeReply r s.object := by
  replace h := object_bind h
  obtain ⟨_, s₂, hcall, h⟩ := bind_eq_ok.1 h
  obtain ⟨hcall, hsame⟩ := call_eq_ok hcall
  rw [modify_eq_ok h]
  exact ⟨hcall, congrArg (decodeReply r) hsame⟩

theorem updateServer_eq_error {fault : Fault}
    (h : updateServer r s = (.error fault, s')) : s'.store = s.store := by
  obtain hobject | ⟨server, s₁, hobject, h⟩ := bind_eq_error.1 h
  · cases hobject
  · obtain ⟨rfl, rfl⟩ := object_eq_ok hobject
    obtain hcall | ⟨_, s₂, hcall, h⟩ := bind_eq_error.1 h
    · exact (call_eq_error hcall).1
    · cases h

def withFinalizer (server : PolicyServer) : PolicyServer :=
  server.withFinalizers (server.metadata.finalizers ++ [kubewardenFinalizer])

theorem ensureServerFinalizer_eq_ok (h : ensureServerFinalizer r s = (.ok u, s')) :
    (kubewardenFinalizer ∈ s.object.metadata.finalizers ∧ s' = s)
      ∨ kubewardenFinalizer ∉ s.object.metadata.finalizers
        ∧ s.store.updatePolicyServer (withFinalizer s.object) = .ok ((), s'.store)
        ∧ s'.object = decodeReply r (withFinalizer s.object) := by
  replace h := object_bind h
  split at h
  · next hmissing =>
    obtain ⟨_, s₂, hmodify, h⟩ := bind_eq_ok.1 h
    cases modify_eq_ok hmodify
    refine .inr ⟨by simpa using hmissing, ?_⟩
    exact updateServer_eq_ok (mapError_eq_ok.1 h)
  · next hpresent =>
    obtain ⟨-, rfl⟩ := pure_eq_ok.1 h
    exact .inl ⟨by simpa using hpresent, rfl⟩

theorem storeConditions_eq_ok {what : String} {conditions : List PolicyServerCondition}
    (h : storeConditions what conditions s = (.ok u, s')) :
    configuration s' = configuration s := by
  replace h := object_bind h
  obtain ⟨hstore, hsame⟩ := put_eq_ok (mapError_eq_ok.1 h)
  unfold configuration
  rw [hstore, hsame]
  rfl

variable {policies : List Policy}

/-! ## Finding the policies -/

theorem getPolicies_eq_ok (h : getPolicies server s = (.ok policies, s')) :
    policies = s.store.boundPolicies server.metadata.name
      ∧ s'.store = s.store ∧ s'.object = s.object := by
  -- the kinds that were listed so far
  refine foldlM_ok_of_inv (P := fun kinds policies s' =>
    policies = kinds.flatMap (fun kind =>
        s.store.policiesOf kind.1 server.metadata.name)
      ∧ s'.store = s.store ∧ s'.object = s.object) ⟨rfl, rfl, rfl⟩ ?_ h
  rintro kinds policies s₁ kind policies' s₂ - ⟨rfl, hstore, hobject⟩ h
  obtain ⟨listed, s₃, hget, h⟩ := bind_eq_ok.1 h
  obtain ⟨rfl, hstore', hobject'⟩ := get_eq_ok (mapError_eq_ok.1 hget)
  obtain ⟨rfl, rfl⟩ := pure_eq_ok.1 h
  refine ⟨?_, hstore'.trans hstore, hobject'.trans hobject⟩
  rw [flatMap_append, flatMap_singleton, hstore]

def Cluster.servedPolicies (c : Cluster) (r : PolicyServerReconciler)
    (policyServer : String) : List Policy :=
  (c.boundPolicies policyServer).filter fun policy =>
    (isNamespacedPolicyAllowed policy (allowedResources (c.configMaps.lookup
      (r.deploymentsNamespace, r.controllerConfigMapName)))).1

theorem filterRejectedNamespacedPolicies_eq_ok {policies' : List Policy}
    (h : filterRejectedNamespacedPolicies r policies s = (.ok policies', s')) :
    policies' = policies.filter (fun policy =>
        (isNamespacedPolicyAllowed policy (allowedResources (s.store.configMaps.lookup
          (r.deploymentsNamespace, r.controllerConfigMapName)))).1)
      ∧ s'.store = s.store ∧ s'.object = s.object := by
  unfold filterRejectedNamespacedPolicies at h
  split at h
  · obtain ⟨allowed, s₁, hload, h⟩ := bind_eq_ok.1 h
    obtain ⟨rfl, hstore, hobject⟩ := loadControllerConfig_eq_ok hload
    obtain ⟨rfl, rfl⟩ := pure_eq_ok.1 h
    exact ⟨rfl, hstore, hobject⟩
  · next hnone =>
    obtain ⟨rfl, rfl⟩ := pure_eq_ok.1 h
    refine ⟨(filter_eq_self.2 fun policy hpolicy => ?_).symm, rfl, rfl⟩
    -- cluster-wide policies are always allowed
    have hnamespace : policy.getNamespace = "" := by
      by_contra hne
      exact hnone (any_eq_true.2 ⟨policy, hpolicy, decide_eq_true hne⟩)
    unfold isNamespacedPolicyAllowed
    rw [if_pos hnamespace]

theorem webhookExists_eq_ok {mutating found : Bool} {name : String}
    (h : webhookExists mutating name s = (.ok found, s')) :
    found = s.store.present name mutating ∧ s'.store = s.store ∧ s'.object = s.object :=
  get_eq_ok (mapError_eq_ok.1 h)

theorem remainingPolicies_eq_ok {remaining : List String}
    (h : remainingPolicies policies s = (.ok remaining, s')) :
    remaining = s.store.remaining policies ∧ s'.store = s.store ∧ s'.object = s.object := by
  -- the policies that were looked at so far
  refine foldlM_ok_of_inv (P := fun policies remaining s' =>
    remaining = s.store.remaining policies ∧ s'.store = s.store
      ∧ s'.object = s.object) ⟨rfl, rfl, rfl⟩ ?_ h
  rintro policies remaining s₁ policy remaining' s₂ - ⟨rfl, hstore, hobject⟩ h
  have hnext : s.store.remaining (policies ++ [policy]) = s.store.remaining policies
        ++ if s.store.present policy.getUniqueName false
            || s.store.present policy.getUniqueName true then
          [policy.getUniqueName] else [] := by
    unfold Cluster.remaining
    rw [map_append, filter_append, map_singleton, filter_singleton]
    cases s.store.present policy.getUniqueName false
      || s.store.present policy.getUniqueName true <;> rfl
  rw [hnext]
  obtain ⟨validating, s₃, hvalidating, h⟩ := bind_eq_ok.1 h
  obtain ⟨rfl, hstore₃, hobject₃⟩ := webhookExists_eq_ok hvalidating
  rw [hstore] at h
  split at h
  · next hpresent =>
    obtain ⟨rfl, rfl⟩ := pure_eq_ok.1 h
    exact ⟨by simp [hpresent], hstore₃.trans hstore, hobject₃.trans hobject⟩
  · next hpresent =>
    obtain ⟨mutating, s₄, hmutating, h⟩ := bind_eq_ok.1 h
    obtain ⟨rfl, hstore₄, hobject₄⟩ := webhookExists_eq_ok hmutating
    rw [hstore₃, hstore] at h
    have hsame := hstore₄.trans (hstore₃.trans hstore)
    have hsame' := hobject₄.trans (hobject₃.trans hobject)
    split at h
    · next hpresent' =>
      obtain ⟨rfl, rfl⟩ := pure_eq_ok.1 h
      exact ⟨by simp [hpresent'], hsame, hsame'⟩
    · next hpresent' =>
      obtain ⟨rfl, rfl⟩ := pure_eq_ok.1 h
      exact ⟨by simp [hpresent, hpresent'], hsame, hsame'⟩

/-! ## The reconciler -/

theorem reconcilePolicyServerConfigMap_eq_ok
    (h : reconcilePolicyServerConfigMap r server policies s = (.ok u, s')) :
    ∃ configMap, s'.store.configMaps = s.store.configMaps.insert
      (r.deploymentsNamespace, server.nameWithPrefix) configMap
      ∧ configMap.data = updateConfigMapData r.order server policies
      ∧ s'.store.policyServers = s.store.policyServers := by
  obtain ⟨hstore, -⟩ := put_eq_ok (mapError_eq_ok.1 h)
  rw [hstore]
  exact ⟨_, rfl, rfl, rfl⟩

theorem reconcileDeletion_eq_ok {result : Result} (h : reconcileDeletion r s = (.ok result, s')) :
    s'.store.configMaps = s.store.configMaps ∧ (s'.store.policyServers = s.store.policyServers
      ∨ ∃ finalizers, s.store.updatePolicyServer
        (s.object.withFinalizers finalizers) = .ok ((), s'.store)) := by
  replace h := object_bind h
  obtain ⟨conditions, s₂, hconditions, h⟩ := bind_eq_ok.1 h
  cases hconditions
  split at h
  · obtain ⟨_, s₃, hmodify, h⟩ := bind_eq_ok.1 h
    cases modify_eq_ok hmodify
    obtain ⟨reply, s₄, hattempt, h⟩ := bind_eq_ok.1 h
    have hreply := attempt_eq_ok.1 hattempt
    cases reply with
    | ok _ =>
      obtain ⟨-, rfl⟩ := pure_eq_ok.1 h
      obtain ⟨hupdate, -⟩ := updateServer_eq_ok hreply
      refine ⟨?_, .inr ⟨_, hupdate⟩⟩
      obtain ⟨servers, hstore, -⟩ := updatePolicyServer_eq_ok hupdate
      rw [hstore]
    | error fault =>
      have hstore := updateServer_eq_error hreply
      dsimp only at h
      split at h
      · obtain ⟨-, rfl⟩ := pure_eq_ok.1 h
        exact ⟨by rw [hstore], .inl (by rw [hstore])⟩
      · exact absurd h throw_ne_ok
  · obtain ⟨policies, s₃, hpolicies, h⟩ := bind_eq_ok.1 h
    obtain ⟨-, hstore, -⟩ := getPolicies_eq_ok hpolicies
    obtain ⟨remaining, s₄, hremaining, h⟩ := bind_eq_ok.1 h
    obtain ⟨-, hstore', -⟩ := remainingPolicies_eq_ok hremaining
    have hkept {what : String} {conditions : List PolicyServerCondition}
        {result' : Result} (h : (storeConditions what conditions >>=
          fun _ => pure result' : Work PolicyServer Result) s₄ = (.ok result, s')) :
        s'.store.configMaps = s.store.configMaps
          ∧ s'.store.policyServers = s.store.policyServers := by
      obtain ⟨_, s₅, hstored, h⟩ := bind_eq_ok.1 h
      obtain ⟨-, rfl⟩ := pure_eq_ok.1 h
      have hsame := storeConditions_eq_ok hstored
      simp only [configuration, hstore', hstore, Prod.mk.injEq] at hsame
      exact ⟨hsame.2.2.1, hsame.1⟩
    split at h
    · exact ⟨(hkept h).1, .inl (hkept h).2⟩
    · exact ⟨(hkept h).1, .inl (hkept h).2⟩

theorem reconcileServer_eq_ok {result : Result} (hlive : s.object.metadata.deletionTimestamp = none)
    (h : reconcileServer r backing s = (.ok result, s')) :
    ∃ s₁ configMap, ensureServerFinalizer r s = (.ok (), s₁)
      ∧ s'.store.policyServers = s₁.store.policyServers
      ∧ s'.store.configMaps = s₁.store.configMaps.insert
        (r.deploymentsNamespace, s₁.object.nameWithPrefix) configMap
      ∧ configMap.data = updateConfigMapData r.order s₁.object
        (s₁.store.servedPolicies r s₁.object.metadata.name) := by
  obtain ⟨server, s₀, hobject, h⟩ := bind_eq_ok.1 h
  cases hobject
  rw [hlive] at h
  obtain ⟨_, s₁, hensure, h⟩ := bind_eq_ok.1 h
  replace h := object_bind h
  obtain ⟨_, s₃, hcert, h⟩ := bind_eq_ok.1 h
  obtain ⟨policies, s₄, hpolicies, h⟩ := bind_eq_ok.1 h
  obtain ⟨served, s₅, hserved, h⟩ := bind_eq_ok.1 h
  obtain ⟨_, s₆, hconfig, h⟩ := bind_eq_ok.1 h
  obtain ⟨_, s₇, hbudget, h⟩ := bind_eq_ok.1 h
  obtain ⟨_, s₈, hdeployment, h⟩ := bind_eq_ok.1 h
  obtain ⟨_, s₉, hservice, h⟩ := bind_eq_ok.1 h
  obtain ⟨_, s₁₀, hstored, h⟩ := bind_eq_ok.1 h
  obtain ⟨-, rfl⟩ := pure_eq_ok.1 h
  -- the other reconcilers leave the configuration alone, before and after
  have hbefore := (backing.keeps_certSecret _).eq hcert
  have hafter := (storeConditions_eq_ok hstored).trans
    (((backing.keeps_service _).eq hservice).trans
      (((backing.keeps_deployment _).eq hdeployment).trans
        ((backing.keeps_podDisruptionBudget _).eq hbudget)))
  obtain ⟨rfl, hstore₄, -⟩ := getPolicies_eq_ok (mapError_eq_ok.1 hpolicies)
  obtain ⟨rfl, hstore₅, -⟩ := filterRejectedNamespacedPolicies_eq_ok (mapError_eq_ok.1 hserved)
  obtain ⟨configMap, hwritten, hdata, hservers⟩ := reconcilePolicyServerConfigMap_eq_ok hconfig
  simp only [configuration, Prod.mk.injEq] at hbefore hafter
  obtain ⟨hservers₃, hpolicies₃, hconfigMaps₃, -⟩ := hbefore
  obtain ⟨hservers', -, hconfigMaps', -⟩ := hafter
  rw [hstore₅, hstore₄, hconfigMaps₃] at hwritten
  rw [hstore₅, hstore₄, hservers₃] at hservers
  refine ⟨s₁, configMap, hensure, hservers'.trans hservers, hconfigMaps'.trans hwritten, ?_⟩
  rw [hdata, hstore₄, hconfigMaps₃]
  unfold servedPolicies boundPolicies policiesOf
  rw [hpolicies₃]

end

end Controller
