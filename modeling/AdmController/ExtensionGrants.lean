import AdmController.CapabilityGrants
import AdmController.FerricelExtensions

/-!
# The authorizer of extensions and the gate

A call of an extension is checked by its name, and at the gate for the request
it makes.
-/

open HostCapabilities

variable {S C : Type} (dec : BuilderDecoders C)

/-- **The capabilities of the extensions a module uses**, without those of
extensions that are not known. -/
def hostCapabilities (S : Type) (used : List (Option String × String)) : BTreeSet String :=
  .ofList (used.flatMap fun ext =>
    ((specFor dec ext.1 ext.2 : Option (ExtensionSpec S C)).map (·.capabilities)).getD [])

variable {spec : ExtensionSpec S C}

theorem capabilities_pass (h : spec ∈ allSpecs dec) :
    ∀ path ∈ spec.capabilities, Passes path ∧ RustStr.trim path = path := by
  have hpaths : ∀ path ∈ ["kubernetes/get_resource", "kubernetes/list_resources_by_namespace",
      "kubernetes/list_resources_all", "oci/v1/oci_manifest", "oci/v1/manifest_digest",
      "oci/v1/oci_manifest_config", "net/v1/dns_lookup_host", "crypto/v1/is_certificate_trusted",
      "oci/v2/verify"], Passes path ∧ RustStr.trim path = path := by
    unfold Passes
    decide +kernel
  intro path hpath
  refine hpaths path ?_
  simp only [allSpecs, List.mem_cons, List.not_mem_nil, or_false] at h
  rcases h with rfl | rfl | rfl | rfl | rfl | rfl | rfl | rfl | rfl | rfl
    | rfl | rfl | rfl | rfl | rfl <;> revert path <;> simp [builderSpec]

theorem mem_hostCapabilities {used : List (Option String × String)} {path : String} :
    path ∈ (hostCapabilities dec S used).elems ↔ ∃ ext ∈ used, ∃ spec : ExtensionSpec S C,
      specFor dec ext.1 ext.2 = some spec ∧ path ∈ spec.capabilities := by
  rw [hostCapabilities, BTreeSet.mem_ofList, List.mem_flatMap]
  refine exists_congr fun ext => and_congr_right fun _ => ?_
  cases specFor dec ext.1 ext.2 <;> simp

theorem exists_new_hostCapabilities (S : Type) (used : List (Option String × String)) :
    ∃ h, new (hostCapabilities dec S used).elems = .ok h := by
  refine exists_collect_iff.2 ?_
  rw [← List.nil_append (hostCapabilities dec S used).elems, ← List.append_nil (_ ++ _)]
  refine LoopPasses.insert (fun path hpath => .inr ?_) trivial
  obtain ⟨ext, -, spec, hspec, hmem⟩ := (mem_hostCapabilities dec).1 hpath
  exact (capabilities_pass dec (List.mem_of_find?_eq_some hspec) path hmem).1

/-- **The authorizer agrees with the gate.** A call the authorizer denies is
denied at the gate, if it comes there; and a context with the capabilities of
the used extensions denies none of them for lack of a capability. -/
theorem authorizer_agrees_with_gate (used : List (Option String × String)) (ctx : ChannelContext)
    {call : ExtensionCall} (hspec : specFor dec call.inNamespace call.function = some spec) :
    (∃ h, new (hostCapabilities dec S used).elems = .ok h)
      ∧ Gated spec call.args (fun ns operation req =>
        (authorizeExtensionCall ctx.toEvaluationContext spec ≠ .ok () →
          checkAuthorization ctx.toEvaluationContext ns operation req ≠ .ok ())
        ∧ (new (hostCapabilities dec S used).elems = .ok ctx.hostCapabilities →
          (call.inNamespace, call.function) ∈ used →
          checkHostCapability ctx.toEvaluationContext ns operation = .ok ()))
      ∧ (new (hostCapabilities dec S used).elems = .ok ctx.hostCapabilities →
        (call.inNamespace, call.function) ∈ used →
        authorizeExtensionCall ctx.toEvaluationContext spec = .ok ()) := by
  have hknown := List.mem_of_find?_eq_some hspec
  have hgranted (hnew : new (hostCapabilities dec S used).elems = .ok ctx.hostCapabilities)
      (hused : (call.inNamespace, call.function) ∈ used) (path : String)
      (hpath : path ∈ spec.capabilities) :
      ctx.toEvaluationContext.canAccessHostCapability path = true :=
    (isAllowed_iff_grants hnew).2 ⟨path, (mem_hostCapabilities dec).2
      ⟨_, hused, spec, hspec, hpath⟩,
      .inr (.inl (capabilities_pass dec hknown path hpath).2)⟩
  refine ⟨exists_new_hostCapabilities dec S used, ?_, fun hnew hused => ?_⟩
  · cases routed_of_mem dec hknown call.args with
    | alone result fails handler => exact .alone result fails handler
    | host ns operation req read handler gate =>
      have htracing := ne_tracing_of_mem_capabilities gate.2.mem
      refine .host ns operation req read handler ⟨fun hdenied hok => hdenied ?_,
        fun hnew hused => ?_⟩
      · exact if_pos (.inr ⟨_, gate.1, ((checkAuthorization_eq_ok htracing).1 hok).capability⟩)
      · exact (checkHostCapability_eq_ok htracing).2 (hgranted hnew hused _ gate.1)
  · refine if_pos ?_
    by_cases hnil : spec.capabilities = []
    · exact .inl hnil
    · obtain ⟨path, hpath⟩ := List.exists_mem_of_ne_nil _ hnil
      exact .inr ⟨path, hpath, hgranted hnew hused path hpath⟩

def BuilderDecoders.failing : BuilderDecoders Unit :=
  let fail {α β : Type} (_ : α) : Except String β := .error "not expected"
  ⟨fail, fail, fail, fail, fail, fail, fail, fail, fun _ _ _ => (), fail⟩

theorem authorizer_agrees_on_list : ∃ (h : HostCapabilities) (spec : ExtensionSpec Unit Unit),
    new (hostCapabilities .failing Unit [(some "kw.k8s", "list")]).elems = .ok h
      ∧ specFor .failing (some "kw.k8s") "list" = some spec
      ∧ authorizeExtensionCall ⟨"p", .empty, none, h⟩ spec = .ok () := by
  obtain ⟨h, hnew⟩ := exists_new_hostCapabilities .failing Unit [(some "kw.k8s", "list")]
  refine ⟨h, _, hnew, rfl, ?_⟩
  exact (@authorizer_agrees_with_gate _ _ .failing _ [(some "kw.k8s", "list")]
    ⟨⟨"p", .empty, none, h⟩, true⟩ ⟨some "kw.k8s", "list", []⟩ rfl).2.2 hnew (by simp)
