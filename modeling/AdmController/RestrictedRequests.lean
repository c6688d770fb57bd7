import AdmController.CapabilityRestriction
import AdmController.RuntimeRequests

/-!
# From a restriction to the callback channel

The list of a policy server is copied to the entries of namespaced policies, and
gates what their guests ask of the host.
-/

open Controller PoliciesV1 HostCapabilities Dialogue

variable {S C O I : Type}

theorem only_permitted_requests (lib : ChannelLib S C O I) (ctx : ChannelContext)
    {policy : RuntimePolicy} (hpolicy : ∀ mode cached, policy ≠ .rego mode cached) :
    (policy.requests lib ctx).Only (Permitted ctx.toEvaluationContext) := by
  cases policy with
  | wapc guest =>
    exact Only.interpret (fun call => only_permitted_hostCallback lib.payloads ctx _ _ _ _) guest
  | wasi guest =>
    exact Only.interpret (fun call => only_permitted_hostCallback lib.payloads ctx _ _ _ _) guest
  | ferricel guest =>
    exact Only.interpret (only_permitted_callExtension lib.builders ctx) guest
  | rego mode cached => exact absurd rfl (hpolicy mode cached)

/-- **A restriction reaches the channel**: with the capabilities of its entry, a
namespaced policy or a member of a group, unless it is in Rego, sends only what
some pattern of the list grants. -/
theorem restricted_requests_granted (lib : ChannelLib S C O I) {ctx : ChannelContext}
    (server : PolicyServer) (p : PoliciesV1.Policy) {l caps : List String} {policy : RuntimePolicy}
    (hl : server.spec.namespacedPoliciesCapabilities = some l) (hns : p.getNamespace ≠ "")
    (hentry : (configEntry server p).hostCapabilities = some caps ∨ ∃ name m,
      (configEntry server p).policies.lookup name = some m ∧ m.hostCapabilities = some caps)
    (hctx : HostCapabilities.new caps = .ok ctx.hostCapabilities)
    (hpolicy : ∀ mode cached, policy ≠ .rego mode cached) :
    (policy.requests lib ctx).Only fun req =>
      ∃ path ∈ req.capabilities, ∃ pattern ∈ l, Grants pattern path := by
  have hcaps : hostCapabilitiesForPolicy p server = caps := by
    rcases hentry with h | ⟨name, m, hm, h⟩
    · exact Option.some.inj h
    · exact Option.some.inj ((hostCapabilities_of_lookup hm).symm.trans h)
  rw [hostCapabilitiesForPolicy_eq hl, granted, if_neg hns] at hcaps
  refine (only_permitted_requests lib ctx hpolicy).mono fun req hreq => ?_
  obtain ⟨path, hpath, hallowed⟩ := hreq.capability
  exact ⟨path, hpath, (isAllowed_iff_grants (hcaps ▸ hctx)).1 hallowed⟩

theorem restricted_requests_granted_list : ∃ h, HostCapabilities.new ["oci/*"] = .ok h
      ∧ ((RuntimePolicy.wapc (.ask ⟨"kubewarden", "kubernetes", "list_resources_all", [0]⟩
        fun _ => .done ())).requests podLib { podContext with hostCapabilities := h }).Only
          fun req => ∃ path ∈ req.capabilities, ∃ pattern ∈ ["oci/*"], Grants pattern path :=
  ⟨_, rfl, restricted_requests_granted podLib (.created "default" (some ["oci/*"]))
    (.created "ns" "name" (.ofModule "m")) rfl (by decide) (.inl rfl) rfl nofun⟩
