import AdmController.Callback

/-!
# The extensions of CEL policies

CEL policies call the host through one list of extensions (`allSpecs`). The
gate checks the capability that the handler names, so a request is checked for
what it does only if this is the right one (`handler_capability`).
-/

open Serde RustStr CallbackRequestType

variable {S C : Type}

def Serde.Value.asStr : Value → Option String
  | .string s => some s
  | _ => none

/-- Fields of the map of `kw.k8s.get`. -/
structure GetArgs where
  (apiVersion kind name : String)
  inNamespace : Option String
  fieldMasks : Option (BTreeSet String)

/-- Fields of the map of `kw.k8s.list`. -/
structure ListArgs where
  (apiVersion kind : String)
  (inNamespace labelSelector fieldSelector : Option String)
  fieldMasks : Option (BTreeSet String)

/-- Fields of the map of `kw.crypto.verify`. -/
structure VerifyArgs where
  cert : String
  certChain : Option (List String)
  notAfter : Option String

structure PubKeyVerifyArgs where
  image : String
  pubKeys : List String
  annotations : SignerAnnotations

structure KeylessVerifyArgs where
  image : String
  (keylessIssuers keylessSubjects : List String)
  annotations : SignerAnnotations

structure KeylessPrefixVerifyArgs where
  image : String
  (keylessPrefixIssuers keylessPrefixUrls : List String)
  annotations : SignerAnnotations

structure GithubActionsVerifyArgs where
  (image owner : String)
  repo : Option String
  annotations : SignerAnnotations

structure CertificateVerifyArgs where
  (image certificate : String)
  certificateChain : Option (List String)
  requireRekorBundle : Option Bool
  annotations : SignerAnnotations

/-- Third-party code: the decoders of arguments, and of answers. -/
structure BuilderDecoders (C : Type) where
  get : Value → Except String GetArgs
  list : Value → Except String ListArgs
  verify : Value → Except String VerifyArgs
  pubKeyVerify : Value → Except String PubKeyVerifyArgs
  keylessVerify : Value → Except String KeylessVerifyArgs
  keylessPrefixVerify : Value → Except String KeylessPrefixVerifyArgs
  githubActionsVerify : Value → Except String GithubActionsVerifyArgs
  certificateVerify : Value → Except String CertificateVerifyArgs
  /-- A PEM certificate, its chain and the date it has to be valid at. -/
  certificateRequest : List UInt8 → Option (List (List UInt8)) → Option String → C
  response : List UInt8 → Except String Value

/-! ## The requests -/

def builderArg (args : List Value) (name : String) : Except String Value :=
  match args with
  | [] => .error (name ++ ": expected a builder map argument, got none")
  | v :: _ => .ok v

def strField (map : Value) (key : String) : Except String String :=
  match (map.get key).bind Value.asStr with
  | some s => .ok s
  | none => .error ("missing or non-string field '" ++ key ++ "' in builder map")

def zipSameLength {α : Type} (what : String) (make : String → String → α)
    (as bs : List String) : Except String (List α) :=
  if as.length ≠ bs.length then
    .error (what ++ " arrays have different lengths (" ++ toString as.length
      ++ " vs " ++ toString bs.length ++ ")")
  else .ok (List.zipWith make as bs)

namespace BuilderDecoders

variable (dec : BuilderDecoders C)

def parseGet (map : Value) : Except String (CallbackRequestType S C) := do
  let args ← dec.get map
  pure (.kubernetesGetResource args.apiVersion args.kind args.name
    args.inNamespace false args.fieldMasks)

def parseList (map : Value) : Except String (String × CallbackRequestType S C) := do
  let args ← dec.list map
  match args.inNamespace with
  | some inNamespace => pure ("kubernetes/list_resources_by_namespace",
    .kubernetesListResourceNamespace args.apiVersion args.kind inNamespace
      args.labelSelector args.fieldSelector args.fieldMasks)
  | none => pure ("kubernetes/list_resources_all",
    .kubernetesListResourceAll args.apiVersion args.kind args.labelSelector
      args.fieldSelector args.fieldMasks)

def parseVerify (map : Value) : Except String (CallbackRequestType S C) := do
  let args ← dec.verify map
  pure (.cryptoIsCertificateTrusted (dec.certificateRequest (intoBytes args.cert)
    (args.certChain.map (List.map intoBytes))
    args.notAfter))

def parsePubKeyVerify (map : Value) : Except String (CallbackRequestType S C) := do
  let args ← dec.pubKeyVerify map
  pure (.sigstorePubKeyVerify args.image args.pubKeys args.annotations)

def parseKeylessVerify (map : Value) : Except String (CallbackRequestType S C) := do
  let args ← dec.keylessVerify map
  let keyless ← zipSameLength "issuer/subject" KeylessInfo.mk
    args.keylessIssuers args.keylessSubjects
  pure (.sigstoreKeylessVerify args.image keyless args.annotations)

def parseKeylessPrefixVerify (map : Value) : Except String (CallbackRequestType S C) := do
  let args ← dec.keylessPrefixVerify map
  let keylessPrefix ← zipSameLength "issuer/urlPrefix" KeylessPrefixInfo.mk
    args.keylessPrefixIssuers args.keylessPrefixUrls
  pure (.sigstoreKeylessPrefixVerify args.image keylessPrefix args.annotations)

def parseGithubActionsVerify (map : Value) : Except String (CallbackRequestType S C) := do
  let args ← dec.githubActionsVerify map
  pure (.sigstoreGithubActionsVerify args.image args.owner args.repo args.annotations)

def parseCertificateVerify (map : Value) : Except String (CallbackRequestType S C) := do
  let args ← dec.certificateVerify map
  pure (.sigstoreCertificateVerify args.image (intoBytes args.certificate)
    (args.certificateChain.map (List.map intoBytes))
    (args.requireRekorBundle.getD false) args.annotations)

end BuilderDecoders

/-! ## The handlers -/

structure ExtensionSpec (S C : Type) where
  inNamespace : Option String
  function : String
  capabilities : List String
  handler : ChannelContext → List Value → HostCall S C Value

variable (dec : BuilderDecoders C)

def callHost (ctx : ChannelContext) (capability : String)
    (req : CallbackRequestType S C) : HostCall S C Value :=
  match splitOnce capability '/' with
  | none => Dialogue.ofExcept (.error ("invalid host-capability path '"
    ++ capability ++ "': expected 'namespace/operation'"))
  | some (ns, operation) => do
    let payload ← hostCallbackTyped ctx ns operation req
    Dialogue.ofExcept ((dec.response payload).mapError ("failed to deserialize response: " ++ ·))

def builderHandler (name capability : String)
    (parse : Value → Except String (CallbackRequestType S C))
    (ctx : ChannelContext) (args : List Value) : HostCall S C Value := do
  let map ← Dialogue.ofExcept (builderArg args name)
  let req ← Dialogue.ofExcept (parse map)
  callHost dec ctx capability req

def accessorHandler (read : List Value → Except String Value)
    (_ : ChannelContext) (args : List Value) : HostCall S C Value :=
  Dialogue.ofExcept (read args)

def listHandler (ctx : ChannelContext) (args : List Value) :
    HostCall S C Value := do
  let map ← Dialogue.ofExcept (builderArg args "kw.k8s.list")
  let (capability, req) ← Dialogue.ofExcept (dec.parseList map)
  callHost dec ctx capability req

def lookupHostHandler (ctx : ChannelContext) (args : List Value) :
    HostCall S C Value := do
  let host ← Dialogue.ofExcept (match args.head?.bind Value.asStr with
    | some host => .ok host
    | none => .error "expected a string argument")
  let response ← callHost dec ctx "net/v1/dns_lookup_host" (.dnsLookupHost host)
  Dialogue.ofExcept (match response.get "ips" with
    | some ips => .ok ips
    | none => .error "response missing 'ips' field")

def fieldOf (key message : String) (args : List Value) : Except String Value :=
  match args.head?.bind (Value.get key) with
  | some v => .ok v
  | none => .error message

def isTrusted (args : List Value) : Except String Value :=
  match args with
  | [] => .error "isTrusted: expected at least one argument"
  | map :: _ =>
    match (map.get "trusted").or (map.get "is_trusted") with
    | some v => .ok v
    | none => .error ("isTrusted: expected a response map with a 'trusted' or 'is_trusted' field")

def imageRequest (make : String → CallbackRequestType S C) (map : Value) :
    Except String (CallbackRequestType S C) :=
  (strField map "image").map make

def builderSpec (inNamespace function capability : String)
    (parse : Value → Except String (CallbackRequestType S C)) :
    ExtensionSpec S C :=
  ⟨some inNamespace, function, [capability],
    builderHandler dec (inNamespace ++ "." ++ function) capability parse⟩

/-- **All extensions.** -/
def allSpecs : List (ExtensionSpec S C) :=
  [builderSpec dec "kw.k8s" "get" "kubernetes/get_resource" dec.parseGet,
    ⟨some "kw.k8s", "list", ["kubernetes/list_resources_by_namespace",
      "kubernetes/list_resources_all"], listHandler dec⟩,
    builderSpec dec "kw.oci" "manifest" "oci/v1/oci_manifest" (imageRequest .ociManifest),
    builderSpec dec "kw.oci" "manifestDigest" "oci/v1/manifest_digest"
      (imageRequest .ociManifestDigest),
    builderSpec dec "kw.oci" "manifestConfig" "oci/v1/oci_manifest_config"
      (imageRequest .ociManifestAndConfig),
    ⟨some "kw.net", "lookupHost", ["net/v1/dns_lookup_host"], lookupHostHandler dec⟩,
    builderSpec dec "kw.crypto" "verify" "crypto/v1/is_certificate_trusted" dec.parseVerify,
    ⟨none, "isTrusted", [], accessorHandler isTrusted⟩,
    ⟨none, "reason", [], accessorHandler (fieldOf "reason"
      "reason: expected a response map with a 'reason' field")⟩,
    builderSpec dec "kw.sigstore" "pubKeyVerify" "oci/v2/verify" dec.parsePubKeyVerify,
    builderSpec dec "kw.sigstore" "keylessVerify" "oci/v2/verify" dec.parseKeylessVerify,
    builderSpec dec "kw.sigstore" "keylessPrefixVerify" "oci/v2/verify"
      dec.parseKeylessPrefixVerify,
    builderSpec dec "kw.sigstore" "githubActionsVerify" "oci/v2/verify"
      dec.parseGithubActionsVerify,
    builderSpec dec "kw.sigstore" "certificateVerify" "oci/v2/verify" dec.parseCertificateVerify,
    ⟨none, "digest", [], accessorHandler (fieldOf "digest"
      "digest: expected a response map with a 'digest' field")⟩]

/-! ## Calls -/

structure ExtensionCall where
  inNamespace : Option String
  function : String
  args : List Value

def specFor (inNamespace : Option String) (function : String) : Option (ExtensionSpec S C) :=
  (allSpecs dec).find? (fun spec =>
    decide (spec.inNamespace = inNamespace ∧ spec.function = function))

def authorizeExtensionCall (ctx : EvaluationContext)
    (spec : ExtensionSpec S C) : Except String Unit :=
  if spec.capabilities = [] ∨ ∃ path ∈ spec.capabilities, ctx.canAccessHostCapability path = true
  then .ok ()
  else .error (hostCapabilityDeniedMessage (spec.capabilities.headD ""))

def ExtensionCall.name (call : ExtensionCall) : String :=
  match call.inNamespace with
  | some ns => ns ++ "." ++ call.function
  | none => call.function

def callExtension (ctx : ChannelContext) (call : ExtensionCall) : HostCall S C Value :=
  match specFor dec call.inNamespace call.function with
  | none => Dialogue.ofExcept (.error (call.name
    ++ ": this extension is not known to the host. The call is denied"))
  | some spec => do
    Dialogue.ofExcept (authorizeExtensionCall ctx.toEvaluationContext spec)
    spec.handler ctx call.args

open Dialogue

/-! ## What extensions put on the channel -/

/-- **A request fits a capability**, and its kind of resource is checked. -/
structure Fits (capability : String) (req : CallbackRequestType S C) : Prop where
  mem : capability ∈ req.capabilities
  resource : req.namedResource = req.checkedResource

variable {req : CallbackRequestType S C}

theorem ne_tracing_of_mem_capabilities {ns operation : String}
    (h : ns ++ "/" ++ operation ∈ req.capabilities) : ns ≠ "tracing" := by
  rintro rfl
  have hstart : ∀ path ∈ req.capabilities, startsWith path "tracing" = false := by
    cases req <;> simp only [capabilities] <;> decide
  have htracing := hstart _ h
  simp [startsWith] at htracing

variable {capability : String}

/-- **A handler comes to the gate** with a request that has a property, or its
outcome does not depend on the context. -/
inductive Gated (spec : ExtensionSpec S C) (args : List Value)
    (P : String → String → CallbackRequestType S C → Prop) : Prop
  | alone (result : Except String Value) (fails : spec.capabilities = [] ∨ ∃ e, result = .error e)
    (handler : ∀ ctx, spec.handler ctx args = ofExcept result)
  | host (ns operation : String) (req : CallbackRequestType S C)
    (read : List UInt8 → Except String Value)
    (handler : ∀ ctx, spec.handler ctx args
      = hostCallbackTyped ctx ns operation req >>= fun payload => Dialogue.ofExcept (read payload))
    (gate : P ns operation req)

/-- The handler asks for a capability it lists, and the request fits it. -/
abbrev Routed (spec : ExtensionSpec S C) (args : List Value) : Prop :=
  Gated spec args fun ns operation req => ns ++ "/" ++ operation ∈ spec.capabilities
    ∧ Fits (ns ++ "/" ++ operation) req

variable {spec : ExtensionSpec S C} {args : List Value}

theorem routed_callHost (hmem : capability ∈ spec.capabilities) (hfits : Fits capability req)
    {f : Value → Except String Value} (h : ∀ ctx, spec.handler ctx args
      = callHost dec ctx capability req >>= fun v => Dialogue.ofExcept (f v)) :
    Routed spec args := by
  unfold callHost at h
  cases hsplit : splitOnce capability '/' with
  | none =>
    simp only [hsplit] at h
    exact .alone _ (.inr ⟨_, rfl⟩) h
  | some parts =>
    obtain ⟨ns, operation⟩ := parts
    obtain rfl : ns ++ "/" ++ operation = capability := join_of_splitOnce hsplit
    simp only [hsplit, LawfulMonad.bind_assoc, ofExcept_bind] at h
    exact .host ns operation req _ h ⟨hmem, hfits⟩

theorem routed_bind {α : Type} {x : Except String α} {f : ChannelContext → α → HostCall S C Value}
    (h : ∀ ctx, spec.handler ctx args = Dialogue.ofExcept x >>= f ctx)
    (hf : ∀ a, x = .ok a → (∀ ctx, spec.handler ctx args = f ctx a) → Routed spec args) :
    Routed spec args := by
  cases x with
  | error e => exact .alone _ (.inr ⟨e, rfl⟩) h
  | ok a => exact hf a rfl h

theorem routed_builderHandler {name : String}
    {parse : Value → Except String (CallbackRequestType S C)}
    (hspec : spec.handler = builderHandler dec name capability parse)
    (hmem : capability ∈ spec.capabilities)
    (h : ∀ map req, parse map = .ok req → Fits capability req) (args : List Value) :
    Routed spec args := by
  refine routed_bind (fun ctx => congrFun (congrFun hspec ctx) args) fun map _ hmap => ?_
  refine routed_bind hmap fun req hreq hcall => ?_
  exact routed_callHost dec hmem (h map req hreq) (f := .ok) fun ctx =>
    (hcall ctx).trans (bind_pure _).symm

theorem parseList_fits {map : Value} (h : dec.parseList map = .ok (capability, req)) :
    capability ∈ ["kubernetes/list_resources_by_namespace", "kubernetes/list_resources_all"]
      ∧ Fits capability req := by
  obtain ⟨args, -, hargs⟩ := Fallible.bind_eq_ok.1 h
  cases hns : args.inNamespace with
  | none =>
    rw [hns] at hargs
    obtain ⟨rfl, rfl⟩ := Prod.mk.inj (Except.ok.inj hargs)
    exact ⟨by simp, by simp [capabilities], rfl⟩
  | some inNamespace =>
    rw [hns] at hargs
    obtain ⟨rfl, rfl⟩ := Prod.mk.inj (Except.ok.inj hargs)
    exact ⟨by simp, by simp [capabilities], rfl⟩

theorem imageRequest_fits {make : String → CallbackRequestType S C}
    (h : ∀ image, Fits capability (make image)) (map : Value)
    (req : CallbackRequestType S C) (hreq : imageRequest make map = .ok req) :
    Fits capability req := by
  obtain ⟨image, -, rfl⟩ := Fallible.map_eq_ok.1 hreq
  exact h image

theorem fits_of_bind {α : Type} {x : Except String α}
    {f : α → Except String (CallbackRequestType S C)}
    (h : ∀ a req, f a = .ok req → Fits capability req)
    (req : CallbackRequestType S C) (hreq : x >>= f = .ok req) :
    Fits capability req := by
  obtain ⟨a, -, ha⟩ := Fallible.bind_eq_ok.1 hreq
  exact h a req ha

theorem fits_of_pure (h : Fits capability req) (req' : CallbackRequestType S C)
    (hreq : (pure req : Except String _) = .ok req') :
    Fits capability req' := by
  obtain rfl := Except.ok.inj hreq
  exact h

theorem routed_of_mem (h : spec ∈ allSpecs dec) (args : List Value) : Routed spec args := by
  have hfits : ∀ {capability : String} {req : CallbackRequestType S C},
      capability ∈ req.capabilities →
      req.namedResource = req.checkedResource → Fits capability req :=
    fun hmem hres => ⟨hmem, hres⟩
  simp only [allSpecs, List.mem_cons, List.not_mem_nil, or_false] at h
  rcases h with rfl | rfl | rfl | rfl | rfl | rfl | rfl | rfl | rfl | rfl
    | rfl | rfl | rfl | rfl | rfl
  case inr.inl =>
    refine routed_bind (fun _ => rfl) fun map _ hmap => ?_
    refine routed_bind hmap fun parsed hparsed hcall => ?_
    obtain ⟨hmem, hlist⟩ := parseList_fits dec hparsed
    exact routed_callHost dec hmem hlist (f := .ok) fun ctx => (hcall ctx).trans (bind_pure _).symm
  case inr.inr.inr.inr.inr.inl =>
    refine routed_bind (fun _ => rfl) fun host _ hcall => ?_
    exact routed_callHost dec (by simp) (hfits (by simp [capabilities]) rfl) hcall
  -- the others read a map and make one request, or none
  all_goals first
    | exact .alone _ (.inl rfl) fun _ => rfl
    | (refine routed_builderHandler dec rfl (by simp [builderSpec]) (imageRequest_fits
         fun image => hfits ?_ rfl) args
       simp [capabilities])
    | (refine routed_builderHandler dec rfl (by simp [builderSpec]) (fun map =>
         fits_of_bind fun parsed => fits_of_pure (hfits ?_ rfl)) args
       simp [capabilities])
    | (refine routed_builderHandler dec rfl (by simp [builderSpec])
         (fun map => fits_of_bind fun parsed => fits_of_bind fun zipped =>
           fits_of_pure (hfits ?_ rfl)) args
       simp [capabilities])

theorem handler_capability (h : spec ∈ allSpecs dec) (ctx : ChannelContext) (args : List Value) :
    Try.Only (Permitted ctx.toEvaluationContext) (spec.handler ctx args) := by
  cases routed_of_mem dec h args with
  | alone result _ handler => exact handler ctx ▸ Try.only_ofExcept _
  | host ns operation req read handler gate =>
    rw [handler ctx]
    refine Try.Only.bind (only_hostCallbackTyped ctx ns operation
      (ne_tracing_of_mem_capabilities gate.2.mem) fun hgranted => ?_) fun _ => Try.only_ofExcept _
    exact hgranted.permitted gate.2.mem gate.2.resource

theorem only_permitted_callExtension (ctx : ChannelContext)
    (call : ExtensionCall) : Try.Only (Permitted ctx.toEvaluationContext)
      (callExtension dec ctx call : HostCall S C Value) := by
  unfold callExtension
  cases hspec : (specFor dec call.inNamespace call.function : Option (ExtensionSpec S C)) with
  | none => exact Try.only_ofExcept _
  | some spec =>
    refine Try.only_ofExcept_bind fun _ _ => ?_
    exact handler_capability dec (List.mem_of_find?_eq_some hspec) ctx _
