import AdmController.PoliciesV1

/-!
# The environment of a policy server

The container of a policy server gets the variables of its user and those of the
controller; the last entry of a name counts. Some variables replace the first
entry only, so that a user who has two keeps the last one.
-/

namespace Controller

open PoliciesV1 List

/-- A variable: its value is given, or comes from elsewhere (`R`). -/
structure EnvVar (R : Type) where
  (name value : String)
  valueFrom : Option R
deriving DecidableEq

/-- The configuration of the controller, with its own environment. -/
structure EnvConfig where
  deploymentsNamespace : String
  alwaysAcceptAdmissionReviewsInDeploymentsNamespace : Bool
  (metricsEnabled tracingEnabled otelSidecarEnabled hostNetwork : Bool)
  clientCAConfigMapName : String
  getenv : String → String

/-- A policy server, with the fields that its environment depends on. -/
structure ContainerSpec (R : Type) extends PolicyServerSpec where
  env : List (EnvVar R)
  (webhookPort readinessProbePort : Option ℤ)
  (verificationConfig sigstoreTrustConfig imagePullSecret : String)

variable {R : Type}

def EnvVar.of (name value : String) : EnvVar R := ⟨name, value, none⟩

/-! ## The variables of the container -/

def getPolicyServerContainer (spec : ContainerSpec R) : List (EnvVar R) :=
  spec.env ++ [.of "KUBEWARDEN_CERT_FILE" "/pki/tls.crt", .of "KUBEWARDEN_KEY_FILE" "/pki/tls.key",
    .of "KUBEWARDEN_PORT" (toString (spec.webhookPort.getD 8443)),
    .of "KUBEWARDEN_READINESS_PROBE_PORT" (toString (spec.readinessProbePort.getD 8081)),
    .of "KUBEWARDEN_POLICIES_DOWNLOAD_DIR" "/tmp",
    .of "KUBEWARDEN_POLICIES" "/config/policies.yml",
    .of "KUBEWARDEN_SIGSTORE_CACHE_DIR" "/tmp/sigstore-data"]

def appendIf (condition : Bool) (name value : String) (env : List (EnvVar R)) : List (EnvVar R) :=
  if condition then env ++ [.of name value] else env

def configureVerificationConfig (spec : ContainerSpec R) : List (EnvVar R) → List (EnvVar R) :=
  appendIf (spec.verificationConfig ≠ "") "KUBEWARDEN_VERIFICATION_CONFIG_PATH"
    "/verification/verification.yml"

def configureSigstoreTrustConfig (spec : ContainerSpec R) : List (EnvVar R) → List (EnvVar R) :=
  appendIf (spec.sigstoreTrustConfig ≠ "") "KUBEWARDEN_SIGSTORE_TRUST_CONFIG_PATH"
    "/sigstore-trust/sigstore-trust-config.json"

def configureImagePullSecret (spec : ContainerSpec R) : List (EnvVar R) → List (EnvVar R) :=
  appendIf (spec.imagePullSecret ≠ "") "KUBEWARDEN_DOCKER_CONFIG_JSON_PATH"
    "/home/kubewarden/.docker"

def configuresInsecureSources (spec : ContainerSpec R) : List (EnvVar R) → List (EnvVar R) :=
  appendIf (spec.insecureSources ≠ [] ∨ spec.sourceAuthorities.entries ≠ [])
    "KUBEWARDEN_SOURCES_PATH" "/sources/sources.yml"

def envVarsContainVariable (envVars : List (EnvVar R)) (envVarName : String) : Option ℕ :=
  envVars.findIdx? (·.name = envVarName)

def setVariable (env : List (EnvVar R)) (envvar : EnvVar R) : List (EnvVar R) :=
  match envVarsContainVariable env envvar.name with
  | some index => env.set index envvar
  | none => env ++ [envvar]

def otelEnvVarToReplicate : List String :=
  ["CERTIFICATE", "CLIENT_CERTIFICATE", "CLIENT_KEY", "COMPRESSION", "ENDPOINT", "HEADERS",
    "INSECURE", "METRICS_CERTIFICATE", "METRICS_CLIENT_CERTIFICATE", "METRICS_CLIENT_KEY",
    "METRICS_COMPRESSION", "METRICS_DEFAULT_HISTOGRAM_AGGREGATION", "METRICS_ENDPOINT",
    "METRICS_HEADERS", "METRICS_INSECURE", "METRICS_TEMPORALITY_PREFERENCE", "METRICS_TIMEOUT",
    "TIMEOUT", "TRACES_CERTIFICATE", "TRACES_CLIENT_CERTIFICATE", "TRACES_CLIENT_KEY",
    "TRACES_COMPRESSION", "TRACES_ENDPOINT", "TRACES_HEADERS", "TRACES_INSECURE",
    "TRACES_TIMEOUT"].map ("OTEL_EXPORTER_OTLP_" ++ ·)

def replicateOtelEnvVars (r : EnvConfig) (env : List (EnvVar R)) : List (EnvVar R) :=
  otelEnvVarToReplicate.foldl (fun env envVar =>
    if r.getenv envVar ≠ "" then setVariable env (.of envVar (r.getenv envVar)) else env) env

def adaptDeploymentForMetricsAndTracingConfiguration (r : EnvConfig) (env : List (EnvVar R)) :
    List (EnvVar R) :=
  let env := if r.metricsEnabled then setVariable env (.of "KUBEWARDEN_ENABLE_METRICS" "true")
    else env
  let env := if r.tracingEnabled then setVariable env (.of "KUBEWARDEN_LOG_FMT" "otlp") else env
  let env := if (r.metricsEnabled || r.tracingEnabled) && !r.otelSidecarEnabled then
    replicateOtelEnvVars r env else env
  if (r.metricsEnabled || r.tracingEnabled) && r.otelSidecarEnabled && !r.hostNetwork then
    setVariable env (.of "OTEL_EXPORTER_OTLP_ENDPOINT" "http://localhost:4317") else env

def configureMutualTLS (r : EnvConfig) : List (EnvVar R) → List (EnvVar R) :=
  appendIf (r.clientCAConfigMapName ≠ "") "KUBEWARDEN_CLIENT_CA_FILE"
    "/ca/ca.crt,/client-ca/client-ca.crt"

def updatePolicyServerDeployment (r : EnvConfig) (spec : ContainerSpec R) : List (EnvVar R) :=
  let env := appendIf r.alwaysAcceptAdmissionReviewsInDeploymentsNamespace
    "KUBEWARDEN_ALWAYS_ACCEPT_ADMISSION_REVIEWS_ON_NAMESPACE" r.deploymentsNamespace
    (getPolicyServerContainer spec)
  let env := configuresInsecureSources spec (configureImagePullSecret spec
    (configureSigstoreTrustConfig spec (configureVerificationConfig spec env)))
  configureMutualTLS r (adaptDeploymentForMetricsAndTracingConfiguration r env)

/-! ## Which variables count -/

def effective (env : List (EnvVar R)) (name : String) : Option (EnvVar R) :=
  (env.filter (·.name = name)).getLast?

section

variable (env : List (EnvVar R)) {v : EnvVar R}

theorem setVariable_cons (e v : EnvVar R) : setVariable (e :: env) v
    = if e.name = v.name then v :: env else e :: setVariable env v := by
  unfold setVariable envVarsContainVariable
  rw [findIdx?_cons]
  by_cases h : e.name = v.name
  · simp [h]
  · simp only [h, decide_false, Bool.false_eq_true, if_false]
    cases env.findIdx? (·.name = v.name) <;> rfl

theorem filter_setVariable_self :
    (setVariable env v).filter (·.name = v.name) = v :: (env.filter (·.name = v.name)).tail := by
  induction env with
  | nil => simp [setVariable, envVarsContainVariable]
  | cons e env ih =>
    rw [setVariable_cons]
    by_cases h : e.name = v.name
    · simp [h]
    · simp [h, ih]

variable {name : String}

theorem filter_setVariable_of_ne (hname : v.name ≠ name) :
    (setVariable env v).filter (·.name = name) = env.filter (·.name = name) := by
  induction env with
  | nil => simp [setVariable, envVarsContainVariable, hname]
  | cons e env ih =>
    rw [setVariable_cons]
    by_cases h : e.name = v.name
    · simp [h, hname]
    · rw [if_neg h, filter_cons, filter_cons, ih]

theorem filter_foldl_of_notMem {vars : List (EnvVar R)} (h : name ∉ vars.map (·.name)) :
    (vars.foldl setVariable env).filter (·.name = name) = env.filter (·.name = name) := by
  induction vars generalizing env with
  | nil => rfl
  | cons w vars ih =>
    rw [map_cons, mem_cons, not_or] at h
    rw [foldl_cons, ih _ h.2, filter_setVariable_of_ne env (Ne.symm h.1)]

theorem filter_foldl_setVariable {vars : List (EnvVar R)} (hvars : (vars.map (·.name)).Nodup)
    (hv : v ∈ vars) : (vars.foldl setVariable env).filter (·.name = v.name)
      = v :: (env.filter (·.name = v.name)).tail := by
  induction vars generalizing env with
  | nil => cases hv
  | cons w vars ih =>
    rw [map_cons, nodup_cons] at hvars
    rw [foldl_cons]
    obtain rfl | hv := mem_cons.1 hv
    · rw [filter_foldl_of_notMem _ hvars.1, filter_setVariable_self]
    · rw [ih _ hvars.2 hv, filter_setVariable_of_ne env fun heq => hvars.1 ?_]
      exact heq ▸ mem_map_of_mem hv

theorem filter_eq_nil_of_notMem (h : name ∉ env.map (·.name)) : env.filter (·.name = name) = [] :=
  filter_eq_nil_iff.2 fun _ he heq => h (of_decide_eq_true heq ▸ mem_map_of_mem he)

theorem filter_of_mem {env : List (EnvVar R)} (henv : (env.map (·.name)).Nodup) (hv : v ∈ env) :
    env.filter (·.name = v.name) = [v] := by
  obtain ⟨before, after, rfl⟩ := append_of_mem hv
  rw [map_append, map_cons, nodup_middle, nodup_cons, ← map_append] at henv
  have hrest := filter_eq_nil_of_notMem _ henv.1
  rw [filter_append, append_eq_nil_iff] at hrest
  rw [filter_append, hrest.1, nil_append, filter_cons, hrest.2, if_pos (by simp)]

end

/-! ## The variables of the controller -/

def appendedIf (condition : Bool) (name value : String) : List (EnvVar R) :=
  if condition then [.of name value] else []

def appendedVariables (r : EnvConfig) (spec : ContainerSpec R) : List (EnvVar R) :=
  getPolicyServerContainer { spec with env := [] }
    ++ appendedIf r.alwaysAcceptAdmissionReviewsInDeploymentsNamespace
      "KUBEWARDEN_ALWAYS_ACCEPT_ADMISSION_REVIEWS_ON_NAMESPACE" r.deploymentsNamespace
    ++ configureVerificationConfig spec [] ++ configureSigstoreTrustConfig spec []
    ++ configureImagePullSecret spec [] ++ configuresInsecureSources spec []

def replacedVariables (r : EnvConfig) : List (EnvVar R) :=
  appendedIf r.metricsEnabled "KUBEWARDEN_ENABLE_METRICS" "true"
    ++ appendedIf r.tracingEnabled "KUBEWARDEN_LOG_FMT" "otlp"
    ++ if r.metricsEnabled || r.tracingEnabled then
        if r.otelSidecarEnabled then
          appendedIf (!r.hostNetwork) "OTEL_EXPORTER_OTLP_ENDPOINT" "http://localhost:4317"
        else (otelEnvVarToReplicate.filter (r.getenv · ≠ "")).map fun name =>
          .of name (r.getenv name)
      else []

def controllerVariables (r : EnvConfig) (spec : ContainerSpec R) : List (EnvVar R) :=
  appendedVariables r spec ++ configureMutualTLS r [] ++ replacedVariables r

section

variable (r : EnvConfig) (spec : ContainerSpec R)

theorem appendIf_eq (condition : Bool) (name value : String) (env : List (EnvVar R)) :
    appendIf condition name value env = env ++ appendedIf condition name value := by
  unfold appendIf appendedIf
  split <;> simp

theorem adapt_eq (env : List (EnvVar R)) : adaptDeploymentForMetricsAndTracingConfiguration r env
    = (replacedVariables r).foldl setVariable env := by
  have hreplicate (env : List (EnvVar R)) : replicateOtelEnvVars r env
      = ((otelEnvVarToReplicate.filter (r.getenv · ≠ "")).map fun name =>
        EnvVar.of name (r.getenv name)).foldl setVariable env := by
    rw [foldl_map, foldl_filter]
    simp [replicateOtelEnvVars]
  unfold adaptDeploymentForMetricsAndTracingConfiguration replacedVariables appendedIf
  cases r.metricsEnabled <;> cases r.tracingEnabled <;> cases r.otelSidecarEnabled <;>
    cases r.hostNetwork <;> simp [hreplicate]

theorem updatePolicyServerDeployment_eq : updatePolicyServerDeployment r spec
    = (replacedVariables r).foldl setVariable (spec.env ++ appendedVariables r spec)
      ++ configureMutualTLS r [] := by
  simp only [updatePolicyServerDeployment, configureMutualTLS, adapt_eq, appendedVariables,
    configuresInsecureSources, configureImagePullSecret, configureSigstoreTrustConfig,
    configureVerificationConfig, getPolicyServerContainer, appendIf_eq, append_assoc,
    nil_append]

theorem nodup_controllerVariables : ((controllerVariables r spec).map (·.name)).Nodup := by
  have hone (condition : Bool) (name value : String) :
      ((appendedIf condition name value : List (EnvVar R)).map (·.name)).Sublist [name] := by
    unfold appendedIf
    split <;> simp [EnvVar.of]
  have hreplaced : ((replacedVariables r : List (EnvVar R)).map (·.name)).Sublist
      (["KUBEWARDEN_ENABLE_METRICS"] ++ ["KUBEWARDEN_LOG_FMT"] ++ otelEnvVarToReplicate) := by
    simp only [replacedVariables, map_append]
    refine ((hone _ _ _).append (hone _ _ _)).append ?_
    split
    · split
      · exact (hone _ _ _).trans (singleton_sublist.2 (by decide +kernel))
      · rw [map_map]
        exact (map_id _).symm ▸ filter_sublist
    · exact nil_sublist _
  have hnames : (["KUBEWARDEN_CERT_FILE", "KUBEWARDEN_KEY_FILE", "KUBEWARDEN_PORT",
    "KUBEWARDEN_READINESS_PROBE_PORT", "KUBEWARDEN_POLICIES_DOWNLOAD_DIR", "KUBEWARDEN_POLICIES",
    "KUBEWARDEN_SIGSTORE_CACHE_DIR"]
    ++ ["KUBEWARDEN_ALWAYS_ACCEPT_ADMISSION_REVIEWS_ON_NAMESPACE"]
    ++ ["KUBEWARDEN_VERIFICATION_CONFIG_PATH"] ++ ["KUBEWARDEN_SIGSTORE_TRUST_CONFIG_PATH"]
    ++ ["KUBEWARDEN_DOCKER_CONFIG_JSON_PATH"] ++ ["KUBEWARDEN_SOURCES_PATH"]
    ++ ["KUBEWARDEN_CLIENT_CA_FILE"] ++ (["KUBEWARDEN_ENABLE_METRICS"] ++ ["KUBEWARDEN_LOG_FMT"]
    ++ otelEnvVarToReplicate)).Nodup := by decide +kernel
  refine hnames.sublist ?_
  simp only [controllerVariables, appendedVariables, configureMutualTLS, configuresInsecureSources,
    configureImagePullSecret, configureSigstoreTrustConfig, configureVerificationConfig,
    appendIf_eq, nil_append, map_append]
  exact (((((((List.Sublist.refl _).append (hone _ _ _)).append (hone _ _ _)).append
    (hone _ _ _)).append (hone _ _ _)).append (hone _ _ _)).append (hone _ _ _)).append hreplaced

theorem getLast?_cons_tail {α : Type} {v : α} (l : List α) :
    (v :: l.tail).getLast? = some v ↔ l.length ≤ 1 ∨ l.getLast? = some v := by
  rcases l with _ | ⟨a, _ | ⟨b, l⟩⟩
  · simp
  · simp
  · simp [getLast?_cons_cons]

/-- **When the variables of the controller count**: if the user has each one
that is replaced at most once, or the last time as the controller sets it. -/
theorem controller_variables_win_iff : (∀ v ∈ controllerVariables r spec,
      effective (updatePolicyServerDeployment r spec) v.name = some v)
    ↔ ∀ v ∈ (replacedVariables r : List (EnvVar R)),
      (spec.env.filter (·.name = v.name)).length ≤ 1 ∨ effective spec.env v.name = some v := by
  have hnodup := nodup_controllerVariables r spec
  unfold controllerVariables at hnodup ⊢
  rw [List.map_append, List.nodup_append] at hnodup
  obtain ⟨happended, hreplaced, hdisjoint⟩ := hnodup
  have hwin {v : EnvVar R} (hv : v ∈ appendedVariables r spec ++ configureMutualTLS r []) :
      effective (updatePolicyServerDeployment r spec) v.name = some v := by
    have hother : v.name ∉ (replacedVariables r : List (EnvVar R)).map (·.name) := fun h =>
      hdisjoint _ (List.mem_map_of_mem hv) _ h rfl
    rw [effective, updatePolicyServerDeployment_eq, List.filter_append,
      filter_foldl_of_notMem _ hother, ← List.filter_append, List.append_assoc, List.filter_append,
      filter_of_mem happended hv, List.getLast?_append, List.getLast?_singleton, Option.some_or]
  have hfirst {v : EnvVar R} (hv : v ∈ replacedVariables r) :
      (updatePolicyServerDeployment r spec).filter (·.name = v.name)
        = v :: (spec.env.filter (·.name = v.name)).tail := by
    have hother := filter_eq_nil_of_notMem _ fun h =>
      hdisjoint _ h _ (List.mem_map_of_mem hv) rfl
    rw [List.filter_append, List.append_eq_nil_iff] at hother
    rw [updatePolicyServerDeployment_eq, List.filter_append,
      filter_foldl_setVariable _ hreplaced hv, List.filter_append, hother.1, hother.2,
      List.append_nil, List.append_nil]
  constructor
  · intro h v hv
    have heffective := h v (List.mem_append_right _ hv)
    rwa [effective, hfirst hv, getLast?_cons_tail] at heffective
  · intro h v hv
    obtain hv | hv := List.mem_append.1 hv
    · exact hwin hv
    · rw [effective, hfirst hv, getLast?_cons_tail]
      exact h v hv

end

theorem user_log_format_wins :
    let r : EnvConfig := ⟨"kubewarden", false, false, true, true, false, "", fun _ => ""⟩
    let spec : ContainerSpec Empty := ⟨⟨none, [], ∅⟩,
      [.of "KUBEWARDEN_LOG_FMT" "json", .of "KUBEWARDEN_LOG_FMT" "text"], none, none, "", "", ""⟩
    .of "KUBEWARDEN_LOG_FMT" "otlp" ∈ controllerVariables r spec
      ∧ effective (updatePolicyServerDeployment r spec) "KUBEWARDEN_LOG_FMT"
        = some (.of "KUBEWARDEN_LOG_FMT" "text") := by
  decide +kernel

end Controller
