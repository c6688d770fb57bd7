import AdmController.Dialogue
import AdmController.PolicyEvaluator

/-!
# The callback channel

A policy reaches the outside through the callback channel: `host_callback`
serves waPC and WASI guests, `host_callback_typed` the host itself. The
capability is checked first, and then the kind of a Kubernetes resource.
-/

open Fallible Dialogue Try

structure KeylessInfo where
  (issuer subject : String)
deriving DecidableEq

structure KeylessPrefixInfo where
  (issuer urlPrefix : String)
deriving DecidableEq

abbrev SignerAnnotations := Option (BTreeMap String String)

/-- **The requests** that can be put on the callback channel. -/
inductive CallbackRequestType (S C : Type) where
  | ociManifestDigest (image : String)
  | ociManifest (image : String)
  | ociManifestAndConfig (image : String)
  | sigstorePubKeyVerify (image : String) (pubKeys : List String) (annotations : SignerAnnotations)
  | sigstoreKeylessVerify (image : String) (keyless : List KeylessInfo)
    (annotations : SignerAnnotations)
  | sigstoreKeylessPrefixVerify (image : String)
    (keylessPrefix : List KeylessPrefixInfo) (annotations : SignerAnnotations)
  | sigstoreGithubActionsVerify (image owner : String)
    (repo : Option String) (annotations : SignerAnnotations)
  | sigstoreCertificateVerify (image : String) (certificate : List UInt8)
    (certificateChain : Option (List (List UInt8)))
    (requireRekorBundle : Bool) (annotations : SignerAnnotations)
  | dnsLookupHost (host : String)
  | kubernetesListResourceNamespace (apiVersion kind inNamespace : String)
    (labelSelector fieldSelector : Option String)
    (fieldMasks : Option (BTreeSet String))
  | kubernetesListResourceAll (apiVersion kind : String)
    (labelSelector fieldSelector : Option String)
    (fieldMasks : Option (BTreeSet String))
  | kubernetesGetResource (apiVersion kind name : String)
    (inNamespace : Option String) (disableCache : Bool)
    (fieldMasks : Option (BTreeSet String))
  | kubernetesGetResourcePluralName (apiVersion kind : String)
  | hasKubernetesListResourceAllResultChangedSinceInstant
    (apiVersion kind : String) (labelSelector fieldSelector : Option String)
    (fieldMasks : Option (BTreeSet String)) (since : ℕ)
  | kubernetesCanI (request : S) (disableCache : Bool)
  | cryptoIsCertificateTrusted (request : C)

/-- What becomes of a request: refused, answered, or left without an answer. -/
inductive ChannelReply where
  | sendError (e : String)
  | response (result : Except String (List UInt8))
  | dropped

abbrev HostCall (S C α : Type) := Dialogue.Try (CallbackRequestType S C) ChannelReply String α

structure ChannelContext extends EvaluationContext where
  hasCallbackChannel : Bool

namespace EvaluationContext

/-! ## What a context grants -/

def canAccessKubernetesResource (ctx : EvaluationContext) (apiVersion kind : String) : Bool :=
  decide (⟨apiVersion, kind⟩ ∈ ctx.ctxAwareResourcesAllowList.elems)

def canAccessHostCapability (ctx : EvaluationContext) (capabilityPath : String) : Bool :=
  ctx.hostCapabilities.isAllowed capabilityPath

end EvaluationContext

variable {S C : Type}

def CallbackRequestType.checkedResource : CallbackRequestType S C → Option (String × String)
  | .kubernetesListResourceNamespace apiVersion kind _ _ _ _ => some (apiVersion, kind)
  | .kubernetesListResourceAll apiVersion kind _ _ _ => some (apiVersion, kind)
  | .kubernetesGetResource apiVersion kind _ _ _ _ => some (apiVersion, kind)
  | _ => none

def hostCapabilityDeniedMessage (capabilityPath : String) : String :=
  "Policy has not been granted access to the '" ++ capabilityPath
    ++ "' host capability. The violation has been reported."

def kubernetesResourceDenied (apiVersion kind : String) : String :=
  "Policy has not been granted access to Kubernetes " ++ apiVersion ++ "/"
    ++ kind ++ " resources. The violation has been reported."

variable (ctx : EvaluationContext)

def checkHostCapability (ns operation : String) : Except String Unit :=
  if ns ≠ "tracing" then
    if ctx.canAccessHostCapability (ns ++ "/" ++ operation) then .ok ()
    else .error (hostCapabilityDeniedMessage (ns ++ "/" ++ operation))
  else .ok ()

def checkKubernetesResource (req : CallbackRequestType S C) : Except String Unit :=
  match req.checkedResource with
  | some (apiVersion, kind) =>
    if ctx.canAccessKubernetesResource apiVersion kind then .ok ()
    else .error (kubernetesResourceDenied apiVersion kind)
  | none => .ok ()

def checkAuthorization (ns operation : String)
    (req : CallbackRequestType S C) : Except String Unit := do
  checkHostCapability ctx ns operation
  checkKubernetesResource ctx req

/-! ## Putting a request on the channel -/

def sendRequestAndWaitForResponse (ctx : ChannelContext)
    (req : CallbackRequestType S C) : HostCall S C (List UInt8) :=
  if ctx.hasCallbackChannel then
    ExceptT.mk (.ask req fun
      | .sendError e => .done (.error ("Error sending request over callback channel: " ++ e))
      | .response (.ok payload) => .done (.ok payload)
      | .response (.error e) => .done (.error ("Callback evaluation failure: " ++ e))
      | .dropped => .done (.error "Error obtaining response over callback channel"))
  else Dialogue.ofExcept (.error "Cannot process Wasm guest request: callback channel not provided")

def hostCallbackTyped (ctx : ChannelContext) (ns operation : String)
    (req : CallbackRequestType S C) : HostCall S C (List UInt8) := do
  Dialogue.ofExcept (checkAuthorization ctx.toEvaluationContext ns operation req)
  sendRequestAndWaitForResponse ctx req

inductive SigstoreVerificationInputV1 where
  | sigstorePubKeyVerify (image : String) (pubKeys : List String) (annotations : SignerAnnotations)
  | sigstoreKeylessVerify (image : String) (keyless : List KeylessInfo)
    (annotations : SignerAnnotations)

inductive SigstoreVerificationInputV2 where
  | sigstorePubKeyVerify (image : String) (pubKeys : List String) (annotations : SignerAnnotations)
  | sigstoreKeylessVerify (image : String) (keyless : List KeylessInfo)
    (annotations : SignerAnnotations)
  | sigstoreKeylessPrefixVerify (image : String)
    (keylessPrefix : List KeylessPrefixInfo) (annotations : SignerAnnotations)
  | sigstoreGithubActionsVerify (image owner : String)
    (repo : Option String) (annotations : SignerAnnotations)
  | sigstoreCertificateVerify (image : String) (certificate : List UInt8)
    (certificateChain : Option (List (List UInt8)))
    (requireRekorBundle : Bool) (annotations : SignerAnnotations)

structure ListResourcesByNamespaceRequest where
  (apiVersion kind inNamespace : String)
  (labelSelector fieldSelector : Option String)
  fieldMasks : Option (BTreeSet String)

structure ListAllResourcesRequest where
  (apiVersion kind : String)
  (labelSelector fieldSelector : Option String)
  fieldMasks : Option (BTreeSet String)

structure GetResourceRequest where
  (apiVersion kind name : String)
  inNamespace : Option String
  disableCache : Bool
  fieldMasks : Option (BTreeSet String)

structure CanIRequest (S : Type) where
  subjectAccessReview : S
  disableCache : Bool

structure PayloadDecoders (S C : Type) where
  sigstoreV1 : List UInt8 → Except String SigstoreVerificationInputV1
  sigstoreV2 : List UInt8 → Except String SigstoreVerificationInputV2
  string : List UInt8 → Except String String
  certificate : List UInt8 → Except String C
  listByNamespace : List UInt8 → Except String ListResourcesByNamespaceRequest
  listAll : List UInt8 → Except String ListAllResourcesRequest
  getResource : List UInt8 → Except String GetResourceRequest
  canI : List UInt8 → Except String (CanIRequest S)

namespace CallbackRequestType

def ofSigstoreV1 : SigstoreVerificationInputV1 → CallbackRequestType S C
  | .sigstorePubKeyVerify image pubKeys annotations =>
    .sigstorePubKeyVerify image pubKeys annotations
  | .sigstoreKeylessVerify image keyless annotations =>
    .sigstoreKeylessVerify image keyless annotations

def ofSigstoreV2 : SigstoreVerificationInputV2 → CallbackRequestType S C
  | .sigstorePubKeyVerify image pubKeys annotations =>
    .sigstorePubKeyVerify image pubKeys annotations
  | .sigstoreKeylessVerify image keyless annotations =>
    .sigstoreKeylessVerify image keyless annotations
  | .sigstoreKeylessPrefixVerify image keylessPrefix annotations =>
    .sigstoreKeylessPrefixVerify image keylessPrefix annotations
  | .sigstoreGithubActionsVerify image owner repo annotations =>
    .sigstoreGithubActionsVerify image owner repo annotations
  | .sigstoreCertificateVerify image certificate certificateChain requireRekorBundle annotations =>
    .sigstoreCertificateVerify image certificate certificateChain requireRekorBundle annotations

def ofListByNamespace (r : ListResourcesByNamespaceRequest) : CallbackRequestType S C :=
  .kubernetesListResourceNamespace r.apiVersion r.kind r.inNamespace
    r.labelSelector r.fieldSelector r.fieldMasks

def ofListAll (r : ListAllResourcesRequest) : CallbackRequestType S C :=
  .kubernetesListResourceAll r.apiVersion r.kind r.labelSelector r.fieldSelector r.fieldMasks

def ofGetResource (r : GetResourceRequest) : CallbackRequestType S C :=
  .kubernetesGetResource r.apiVersion r.kind r.name r.inNamespace r.disableCache r.fieldMasks

def ofCanI (r : CanIRequest S) : CallbackRequestType S C :=
  .kubernetesCanI r.subjectAccessReview r.disableCache

end CallbackRequestType

/-- The request a guest asks for: the match of `host_callback`. -/
def decodeRequest (dec : PayloadDecoders S C) (ns operation : String)
    (payload : List UInt8) : Except String (CallbackRequestType S C) :=
  match ns, operation with
  | "oci", "v1/verify" => (dec.sigstoreV1 payload).map .ofSigstoreV1
  | "oci", "v2/verify" => (dec.sigstoreV2 payload).map .ofSigstoreV2
  | "oci", "v1/manifest_digest" => (dec.string payload).map .ociManifestDigest
  | "oci", "v1/oci_manifest" => (dec.string payload).map .ociManifest
  | "oci", "v1/oci_manifest_config" => (dec.string payload).map .ociManifestAndConfig
  | "net", "v1/dns_lookup_host" => (dec.string payload).map .dnsLookupHost
  | "crypto", "v1/is_certificate_trusted" =>
    (dec.certificate payload).map .cryptoIsCertificateTrusted
  | "kubernetes", "list_resources_by_namespace" =>
    (dec.listByNamespace payload).map .ofListByNamespace
  | "kubernetes", "list_resources_all" => (dec.listAll payload).map .ofListAll
  | "kubernetes", "get_resource" => (dec.getResource payload).map .ofGetResource
  | "kubernetes", "can_i" => (dec.canI payload).map .ofCanI
  | "oci", _ | "net", _ | "crypto", _ | "kubernetes", _ =>
    .error ("unknown operation: " ++ operation)
  | _, _ => .error ("unknown namespace: " ++ ns)

def hostCallback (dec : PayloadDecoders S C) (ctx : ChannelContext)
    (binding ns operation : String) (payload : List UInt8) :
    HostCall S C (List UInt8) :=
  if binding ≠ "kubewarden" then Dialogue.ofExcept (.error ("unknown binding: " ++ binding))
  else if ns = "tracing" then
    if operation = "log" then Dialogue.ofExcept (.ok [])
    else Dialogue.ofExcept (.error ("unknown operation: " ++ operation))
  else do
    Dialogue.ofExcept (checkHostCapability ctx.toEvaluationContext ns operation)
    let req ← Dialogue.ofExcept (decodeRequest dec ns operation payload)
    hostCallbackTyped ctx ns operation req

/-! ## What the checks establish -/

/-- **A request that a context grants** under a path: the capability is allowed,
and so is the kind of resource, if any. -/
structure Granted (ctx : EvaluationContext) (capabilityPath : String)
    (req : CallbackRequestType S C) : Prop where
  capability : ctx.canAccessHostCapability capabilityPath = true
  resource : ∀ apiVersion kind, req.checkedResource = some (apiVersion, kind) →
    ctx.canAccessKubernetesResource apiVersion kind = true

section

variable {ctx : EvaluationContext} {ns operation : String} {req : CallbackRequestType S C}

variable {u : Unit}

theorem checkHostCapability_eq_ok (hns : ns ≠ "tracing") :
    checkHostCapability ctx ns operation = .ok u
      ↔ ctx.canAccessHostCapability (ns ++ "/" ++ operation) = true := by
  unfold checkHostCapability
  rw [if_pos hns]
  split <;> simp [*]

theorem checkHostCapability_of_denied (hns : ns ≠ "tracing")
    (h : ctx.canAccessHostCapability (ns ++ "/" ++ operation) = false) :
    checkHostCapability ctx ns operation
      = .error (hostCapabilityDeniedMessage (ns ++ "/" ++ operation)) := by
  unfold checkHostCapability
  rw [if_pos hns, h]
  rfl

theorem checkKubernetesResource_eq_ok : checkKubernetesResource ctx req = .ok u
    ↔ ∀ apiVersion kind, req.checkedResource = some (apiVersion, kind) →
      ctx.canAccessKubernetesResource apiVersion kind = true := by
  unfold checkKubernetesResource
  cases req.checkedResource with
  | none => simp
  | some resource =>
    obtain ⟨apiVersion, kind⟩ := resource
    by_cases h : ctx.canAccessKubernetesResource apiVersion kind = true
    · simp [h]
    · simp [h]

theorem checkKubernetesResource_of_denied {apiVersion kind : String}
    (hreq : req.checkedResource = some (apiVersion, kind))
    (h : ctx.canAccessKubernetesResource apiVersion kind = false) :
    checkKubernetesResource ctx req = .error (kubernetesResourceDenied apiVersion kind) := by
  unfold checkKubernetesResource
  rw [hreq]
  show (if ctx.canAccessKubernetesResource apiVersion kind then _ else _) = _
  rw [h]
  rfl

theorem checkAuthorization_eq_ok (hns : ns ≠ "tracing") :
    checkAuthorization ctx ns operation req = .ok u ↔ Granted ctx (ns ++ "/" ++ operation) req := by
  unfold checkAuthorization
  rw [bind_eq_ok]
  constructor
  · rintro ⟨_, hcapability, hresource⟩
    exact ⟨(checkHostCapability_eq_ok hns).1 hcapability, checkKubernetesResource_eq_ok.1 hresource⟩
  · rintro ⟨hcapability, hresource⟩
    exact ⟨(), (checkHostCapability_eq_ok hns).2 hcapability,
      checkKubernetesResource_eq_ok.2 hresource⟩

end

open Dialogue

variable (dec : PayloadDecoders S C) (ctx : ChannelContext) (binding ns operation : String)

variable {req : CallbackRequestType S C} {P : CallbackRequestType S C → Prop}

/-! ## What is put on the channel -/

theorem only_sendRequestAndWaitForResponse (h : P req) :
    Try.Only P (sendRequestAndWaitForResponse ctx req) := by
  unfold sendRequestAndWaitForResponse
  split
  · refine .ask h fun reply => ?_
    rcases reply with e | (e | payload) | _
    all_goals exact .done _
  · exact only_ofExcept _

theorem only_hostCallbackTyped (hns : ns ≠ "tracing")
    (h : Granted ctx.toEvaluationContext (ns ++ "/" ++ operation) req → P req) :
    Try.Only P (hostCallbackTyped ctx ns operation req) := by
  refine only_ofExcept_bind fun _ hcheck => ?_
  exact only_sendRequestAndWaitForResponse ctx (h ((checkAuthorization_eq_ok hns).1 hcheck))

theorem only_hostCallback {payload : List UInt8} (h : ∀ req, decodeRequest dec
      ns operation payload = .ok req → Granted ctx.toEvaluationContext (ns ++
      "/" ++ operation) req → P req) :
    Try.Only P (hostCallback dec ctx binding ns operation payload) := by
  unfold hostCallback
  split
  · exact only_ofExcept _
  split
  · split
    · exact only_ofExcept _
    · exact only_ofExcept _
  · rename_i _ hns
    refine only_ofExcept_bind fun _ _ => ?_
    refine only_ofExcept_bind fun req hdecode => ?_
    exact only_hostCallbackTyped ctx ns operation hns (h req hdecode)

/-! ## Denials -/

theorem hostCallbackTyped_of_capability_denied (hns : ns ≠ "tracing")
    (hdenied : ctx.canAccessHostCapability (ns ++ "/" ++ operation) = false)
    (req : CallbackRequestType S C) :
    hostCallbackTyped ctx ns operation req = ofExcept (.error
      (hostCapabilityDeniedMessage (ns ++ "/" ++ operation))) := by
  unfold hostCallbackTyped checkAuthorization
  rw [checkHostCapability_of_denied hns hdenied]
  rfl

theorem hostCallbackTyped_of_resource_denied {apiVersion kind : String}
    (hcapability : checkHostCapability ctx.toEvaluationContext ns operation = .ok ())
    (hreq : req.checkedResource = some (apiVersion, kind))
    (hdenied : ctx.canAccessKubernetesResource apiVersion kind = false) :
    hostCallbackTyped ctx ns operation req = ofExcept
      (.error (kubernetesResourceDenied apiVersion kind)) := by
  unfold hostCallbackTyped checkAuthorization
  rw [hcapability, checkKubernetesResource_of_denied hreq hdenied]
  rfl

theorem hostCallback_eq (hns : ns ≠ "tracing") (payload : List UInt8) :
    hostCallback dec ctx "kubewarden" ns operation payload = (do
      Dialogue.ofExcept (checkHostCapability ctx.toEvaluationContext ns operation)
      let req ← Dialogue.ofExcept (decodeRequest dec ns operation payload)
      hostCallbackTyped ctx ns operation req) := by
  unfold hostCallback
  rw [if_neg (not_not_intro rfl), if_neg hns]

/-! ## Permitted requests -/

/-- The capabilities a request may be made under. -/
def CallbackRequestType.capabilities : CallbackRequestType S C → List String
  | .ociManifestDigest _ => ["oci/v1/manifest_digest"]
  | .ociManifest _ => ["oci/v1/oci_manifest"]
  | .ociManifestAndConfig _ => ["oci/v1/oci_manifest_config"]
  | .sigstorePubKeyVerify .. | .sigstoreKeylessVerify .. => ["oci/v1/verify", "oci/v2/verify"]
  | .sigstoreKeylessPrefixVerify .. | .sigstoreGithubActionsVerify ..
  | .sigstoreCertificateVerify .. => ["oci/v2/verify"]
  | .dnsLookupHost _ => ["net/v1/dns_lookup_host"]
  | .kubernetesListResourceNamespace .. | .kubernetesListResourceAll ..
  | .kubernetesGetResourcePluralName ..
  | .hasKubernetesListResourceAllResultChangedSinceInstant .. =>
    ["kubernetes/list_resources_all", "kubernetes/list_resources_by_namespace"]
  | .kubernetesGetResource .. => ["kubernetes/get_resource"]
  | .kubernetesCanI .. => ["kubernetes/can_i"]
  | .cryptoIsCertificateTrusted _ => ["crypto/v1/is_certificate_trusted"]

def CallbackRequestType.namedResource : CallbackRequestType S C → Option (String × String)
  | .kubernetesListResourceNamespace apiVersion kind _ _ _ _
  | .kubernetesListResourceAll apiVersion kind _ _ _
  | .kubernetesGetResource apiVersion kind _ _ _ _
  | .kubernetesGetResourcePluralName apiVersion kind
  | .hasKubernetesListResourceAllResultChangedSinceInstant apiVersion kind
    _ _ _ _ => some (apiVersion, kind)
  | _ => none

/-- **A permitted request**: one of its capabilities is allowed, and so is the
kind of resource it is about, if any. -/
structure Permitted (ctx : EvaluationContext) (req : CallbackRequestType S C) : Prop where
  capability : ∃ path ∈ req.capabilities, ctx.canAccessHostCapability path = true
  resource : ∀ apiVersion kind, req.namedResource = some (apiVersion, kind) →
    ctx.canAccessKubernetesResource apiVersion kind = true

theorem Granted.permitted {ctx : EvaluationContext} {path : String} (h : Granted ctx path req)
    (hpath : path ∈ req.capabilities) (hres : req.namedResource = req.checkedResource) :
    Permitted ctx req :=
  ⟨⟨path, hpath, h.capability⟩, fun apiVersion kind hreq =>
    h.resource apiVersion kind (hres ▸ hreq)⟩

open CallbackRequestType in
theorem decodeRequest_eq_ok {dec : PayloadDecoders S C} {ns operation : String}
    {payload : List UInt8} (h : decodeRequest dec ns operation payload = .ok req) :
    ns ++ "/" ++ operation ∈ req.capabilities ∧ req.namedResource = req.checkedResource := by
  unfold decodeRequest at h
  split at h
  case h_1 =>
    obtain ⟨input, -, rfl⟩ := map_eq_ok.1 h
    cases input <;> exact ⟨by simp [capabilities, ofSigstoreV1], rfl⟩
  case h_2 =>
    obtain ⟨input, -, rfl⟩ := map_eq_ok.1 h
    cases input <;> exact ⟨by simp [capabilities, ofSigstoreV2], rfl⟩
  -- every other operation has one kind of request, or none
  all_goals first
    | exact absurd h (by simp)
    | (obtain ⟨input, -, rfl⟩ := map_eq_ok.1 h
       exact ⟨by simp [capabilities, ofListByNamespace, ofListAll, ofGetResource, ofCanI], rfl⟩)

theorem only_permitted_hostCallback (payload : List UInt8) :
    Try.Only (Permitted ctx.toEvaluationContext)
      (hostCallback dec ctx binding ns operation payload) := by
  refine only_hostCallback dec ctx binding ns operation fun req hdecode hgranted => ?_
  obtain ⟨hpath, hres⟩ := decodeRequest_eq_ok hdecode
  exact hgranted.permitted hpath hres

/-! ## The gate -/

/-- **The gate of the callback channel.** Only requests granted under the path a
guest named are put on the channel. Outside `tracing`, what is denied has one
and the same answer, for every payload. The typed entry does the same. -/
theorem hostCallback_authorized : (∀ payload, Try.Only
        (Granted ctx.toEvaluationContext (ns ++ "/" ++ operation))
        (hostCallback dec ctx binding ns operation payload))
      ∧ (ns ≠ "tracing" → ∀ req : CallbackRequestType S C, Try.Only
        (Granted ctx.toEvaluationContext (ns ++ "/" ++ operation))
        (hostCallbackTyped ctx ns operation req))
      ∧ (ns ≠ "tracing" → ctx.canAccessHostCapability (ns ++ "/" ++ operation) = false →
        (∀ payload, hostCallback dec ctx binding ns operation payload
          = ofExcept (.error (if binding = "kubewarden"
            then hostCapabilityDeniedMessage (ns ++ "/" ++ operation)
            else "unknown binding: " ++ binding)))
        ∧ ∀ req : CallbackRequestType S C, hostCallbackTyped ctx ns operation req = ofExcept (.error
            (hostCapabilityDeniedMessage (ns ++ "/" ++ operation))))
      ∧ (ns ≠ "tracing" → ctx.canAccessHostCapability (ns ++ "/" ++ operation) = true →
        ∀ (req : CallbackRequestType S C) (apiVersion kind : String),
          req.checkedResource = some (apiVersion, kind) →
          ctx.canAccessKubernetesResource apiVersion kind = false →
            (∀ payload, decodeRequest dec ns operation payload = .ok req →
              hostCallback dec ctx "kubewarden" ns operation payload = ofExcept
                (.error (kubernetesResourceDenied apiVersion kind)))
            ∧ hostCallbackTyped ctx ns operation req = ofExcept (.error
              (kubernetesResourceDenied apiVersion kind)))
      ∧ (ns = "tracing" → (∀ payload, hostCallback dec ctx "kubewarden" ns operation payload
          = ofExcept (if operation = "log" then .ok []
            else .error ("unknown operation: " ++ operation)))
        ∧ ∀ req : CallbackRequestType S C, req.checkedResource = none →
          hostCallbackTyped ctx ns operation req = sendRequestAndWaitForResponse ctx req) := by
  refine ⟨fun payload => only_hostCallback dec ctx binding ns operation
    fun _ _ hgranted => hgranted,
    fun hns req => only_hostCallbackTyped ctx ns operation hns id,
    fun hns hdenied => ⟨fun payload => ?_,
      hostCallbackTyped_of_capability_denied ctx ns operation hns hdenied⟩,
    fun hns hallowed req apiVersion kind hreq hdenied => ?_,
    fun hns => ⟨fun payload => ?_, fun req hreq => ?_⟩⟩
  · by_cases hbinding : binding = "kubewarden"
    · subst hbinding
      rw [hostCallback_eq dec ctx ns operation hns,
        checkHostCapability_of_denied hns hdenied, if_pos rfl]
      exact ofExcept_error_bind _ _
    · unfold hostCallback
      rw [if_pos hbinding, if_neg hbinding]
  · have hcapability : checkHostCapability ctx.toEvaluationContext ns operation
      = .ok () := (checkHostCapability_eq_ok hns).2 hallowed
    have htyped := hostCallbackTyped_of_resource_denied ctx ns operation hcapability hreq hdenied
    refine ⟨fun payload hdecode => ?_, htyped⟩
    rw [hostCallback_eq dec ctx ns operation hns, hcapability, hdecode,
      ofExcept_ok_bind, ofExcept_ok_bind, htyped]
  · unfold hostCallback
    rw [if_neg (not_not.2 rfl), if_pos hns]
    split <;> rfl
  · have hcapability : checkHostCapability ctx.toEvaluationContext ns operation = .ok () :=
      if_neg (not_not.2 hns)
    have hresource : checkKubernetesResource ctx.toEvaluationContext req = .ok () := by
      unfold checkKubernetesResource
      rw [hreq]
    unfold hostCallbackTyped checkAuthorization
    rw [hcapability, hresource]
    rfl

def denyingContext : ChannelContext where
  policyId := "policy"
  ctxAwareResourcesAllowList := .empty
  epochDeadline := none
  hostCapabilities := .denyAll
  hasCallbackChannel := true

def resourcelessContext : ChannelContext := { denyingContext with hostCapabilities := .allowAll }

def podDecoders : PayloadDecoders Unit Unit where
  sigstoreV1 _ := .error "no signatures"
  sigstoreV2 _ := .error "no signatures"
  string _ := .error "no strings"
  certificate _ := .ok ()
  listByNamespace _ := .ok ⟨"v1", "Pod", "default", none, none, none⟩
  listAll _ := .ok ⟨"v1", "Pod", none, none, none⟩
  getResource _ := .ok ⟨"v1", "Pod", "web", none, false, none⟩
  canI _ := .ok ⟨(), false⟩

theorem hostCallback_authorized_pods :
    hostCallback podDecoders denyingContext "kubewarden" "kubernetes" "list_resources_all" [0]
      = ofExcept (.error (hostCapabilityDeniedMessage
        ("kubernetes" ++ "/" ++ "list_resources_all")))
      ∧ hostCallback podDecoders resourcelessContext "kubewarden"
        "kubernetes" "list_resources_all" [0]
        = ofExcept (.error (kubernetesResourceDenied "v1" "Pod")) := by
  have hcapability := hostCallback_authorized podDecoders denyingContext
    "kubewarden" "kubernetes" "list_resources_all"
  have hresource := hostCallback_authorized podDecoders resourcelessContext
    "kubewarden" "kubernetes" "list_resources_all"
  exact ⟨(hcapability.2.2.1 (by decide) rfl).1 [0], (hresource.2.2.2.1 (by decide) rfl
    (.kubernetesListResourceAll "v1" "Pod" none none none) "v1" "Pod" rfl
    rfl).1 [0] rfl⟩

theorem tracing_is_not_gated :
    denyingContext.canAccessHostCapability ("tracing" ++ "/" ++ "log") = false
      ∧ hostCallback podDecoders denyingContext "kubewarden" "tracing" "log" [] = ofExcept (.ok [])
      ∧ ¬ Try.Only (Granted denyingContext.toEvaluationContext ("tracing" ++ "/" ++ "log"))
        (hostCallbackTyped denyingContext "tracing" "log"
          (.dnsLookupHost "example.com" : CallbackRequestType Unit Unit)) := by
  refine ⟨rfl, rfl, fun h => ?_⟩
  -- the request is on the channel, and no capability grants it
  have hsent : hostCallbackTyped denyingContext "tracing" "log"
    (.dnsLookupHost "example.com" : CallbackRequestType Unit Unit)
    = sendRequestAndWaitForResponse denyingContext (.dnsLookupHost "example.com") := rfl
  rw [hsent] at h
  cases h with
  | ask hq _ => exact absurd hq.capability Bool.false_ne_true
