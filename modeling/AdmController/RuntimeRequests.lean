import AdmController.FerricelExtensions
import AdmController.RegoContext

/-!
# What policies ask of the host

The runtimes reach the callback channel through `host_callback`, through the
extensions of CEL, and on behalf of Rego policies. The gate keeps the first two
to permitted requests; the Rego runtime does not pass it.
-/

open Dialogue Serde

/-! ## Requests of the runtimes -/

structure GuestCall where
  (binding ns operation : String)
  payload : List UInt8

/-- **A policy**, as far as its requests go: a guest with its host calls, or a
Rego policy and the cache entry it finds. -/
inductive RuntimePolicy where
  | wapc (guest : Dialogue GuestCall (Except String (List UInt8)) Unit)
  | wasi (guest : Dialogue GuestCall (Except String (List UInt8)) Unit)
  | ferricel (guest : Dialogue ExtensionCall (Except String Value) Unit)
  | rego (mode : RegoPolicyExecutionMode)
    (cached : Option (InventoryCache.CachedInventory (List UInt8)))

variable {S C O I : Type}

/-- Third-party code around the channel. -/
structure ChannelLib (S C O I : Type) where
  payloads : PayloadDecoders S C
  builders : BuilderDecoders C
  rego : RegoLib O I

variable (lib : ChannelLib S C O I) (ctx : ChannelContext)

def serveGuest (guest : Dialogue GuestCall (Except String (List UInt8)) Unit) :
    Dialogue (CallbackRequestType S C) ChannelReply Unit :=
  guest.interpret fun call => (hostCallback lib.payloads ctx call.binding
    call.ns call.operation call.payload).run

def RuntimePolicy.requests : RuntimePolicy → Dialogue (CallbackRequestType S C) ChannelReply Unit
  | .wapc guest => serveGuest lib ctx guest
  | .wasi guest => serveGuest lib ctx guest
  | .ferricel guest => guest.interpret fun call => (callExtension lib.builders ctx call).run
  | .rego mode cached => (ExceptT.run (buildKubernetesContext lib.rego mode cached ctx)).bind
        fun _ => .done ()

/-- **Every request is permitted**, and nothing if nothing is allowed. -/
def KeepsToGrants (requests : Dialogue (CallbackRequestType S C) ChannelReply Unit) : Prop :=
  requests.Only (Permitted ctx.toEvaluationContext)
    ∧ (ctx.hostCapabilities = .denyAll → requests.Only fun _ => False)

/-! ## What is permitted -/

theorem not_permitted_of_denyAll {ctx : EvaluationContext}
    (h : ctx.hostCapabilities = .denyAll) (req : CallbackRequestType S C) :
    ¬ Permitted ctx req := by
  rintro ⟨⟨path, -, hpath⟩, -⟩
  unfold EvaluationContext.canAccessHostCapability at hpath
  rw [h] at hpath
  exact Bool.false_ne_true hpath

theorem keepsToGrants_iff {requests : Dialogue (CallbackRequestType S C) ChannelReply Unit} :
    KeepsToGrants ctx requests ↔ requests.Only (Permitted ctx.toEvaluationContext) :=
  ⟨fun h => h.1, fun h => ⟨h, fun hdeny => h.mono fun req hreq =>
    not_permitted_of_denyAll hdeny req hreq⟩⟩

def MayList (ctx : EvaluationContext) : Prop :=
  ctx.canAccessHostCapability "kubernetes/list_resources_all" = true
    ∨ ctx.canAccessHostCapability "kubernetes/list_resources_by_namespace" = true

theorem ListsOneOf.permitted_iff {req : CallbackRequestType S C}
    (h : ListsOneOf ctx.ctxAwareResourcesAllowList.elems req) :
    Permitted ctx.toEvaluationContext req ↔ MayList ctx.toEvaluationContext := by
  obtain ⟨⟨resource, hmem, hnamed⟩, hcapabilities⟩ := h
  have hcapability : (∃ path ∈ req.capabilities, ctx.canAccessHostCapability path = true)
        ↔ MayList ctx.toEvaluationContext := by
    rw [hcapabilities]
    simp [MayList]
  refine ⟨fun hpermitted => hcapability.1 hpermitted.capability,
    fun hlist => ⟨hcapability.2 hlist, fun apiVersion kind hreq => ?_⟩⟩
  obtain ⟨rfl, rfl⟩ := Prod.mk.inj (Option.some.inj (hnamed.symm.trans hreq))
  exact decide_eq_true hmem

variable {cached : Option (InventoryCache.CachedInventory (List UInt8))}

theorem exists_of_only_buildKubernetesContext {P : CallbackRequestType S C → Prop}
    {rlib : RegoLib O I} {mode : RegoPolicyExecutionMode}
    (hresources : ctx.ctxAwareResourcesAllowList.elems ≠ [])
    (hchannel : ctx.hasCallbackChannel = true)
    (h : Try.Only P (buildKubernetesContext rlib mode cached ctx)) :
    ∃ req, ListsOneOf ctx.ctxAwareResourcesAllowList.elems req ∧ P req := by
  revert hresources h
  unfold buildKubernetesContext
  generalize ctx.ctxAwareResourcesAllowList.elems = resources
  intro hresources h
  cases resources with
  | nil => exact absurd rfl hresources
  | cons resource rest =>
    have hfirst : ∀ req : CallbackRequestType S C,
        req.namedResource = some (resource.apiVersion, resource.kind) →
        req.capabilities = ["kubernetes/list_resources_all",
          "kubernetes/list_resources_by_namespace"] → P req →
        ∃ req, ListsOneOf (resource :: rest) req ∧ P req :=
      fun req hnamed hcap hreq =>
        ⟨req, ⟨⟨resource, List.mem_cons_self, hnamed⟩, hcap⟩, hreq⟩
    -- in every mode the first thing done is one request about the first kind
    have hlisted : Try.Only P (getAllowedResources rlib (resource :: rest)) →
        ∃ req, ListsOneOf (resource :: rest) req ∧ P req := fun hlist =>
      hfirst _ rfl rfl (only_makeRequestViaCallbackChannel.1 hlist.of_bind.of_bind)
    change Try.Only P (if ctx.hasCallbackChannel then _ else _) at h
    rw [if_pos hchannel] at h
    cases mode with
    | opa => exact hlisted h.of_bind
    | gatekeeper =>
      cases cached with
      | none => exact hlisted h.of_bind.of_bind
      | some entry =>
        exact hfirst _ rfl rfl (only_makeRequestViaCallbackChannel.1
          h.of_bind.of_bind.of_bind.of_bind)

/-- **A Rego policy that reads past its capabilities**: it has resources and a
channel, but listing is not allowed. -/
def ReadsUngated (ctx : ChannelContext) : RuntimePolicy → Prop
  | .rego _ _ => ctx.ctxAwareResourcesAllowList.elems ≠ []
    ∧ ctx.hasCallbackChannel = true ∧ ¬ MayList ctx.toEvaluationContext
  | _ => False

theorem only_false_buildKubernetesContext {rlib : RegoLib O I} {mode : RegoPolicyExecutionMode}
    (h : ctx.ctxAwareResourcesAllowList.elems = [] ∨ ctx.hasCallbackChannel = false) :
    Try.Only (fun _ : CallbackRequestType S C => False)
      (buildKubernetesContext rlib mode cached ctx) := by
  unfold buildKubernetesContext
  rcases h with hnil | hchannel
  · rw [hnil]
    exact Try.only_pure _
  · cases ctx.ctxAwareResourcesAllowList.elems with
    | nil => exact Try.only_pure _
    | cons resource rest =>
      rw [hchannel]
      exact Try.only_ofExcept _

/-- **Who keeps to the grants**: every policy, but for a Rego policy that reads
past its capabilities. -/
theorem requests_keepsToGrants_iff (policy : RuntimePolicy) :
    KeepsToGrants ctx (policy.requests lib ctx) ↔ ¬ ReadsUngated ctx policy := by
  rw [keepsToGrants_iff]
  cases policy with
  | wapc guest =>
    refine iff_of_true (Only.interpret (fun call => ?_) guest) not_false
    exact only_permitted_hostCallback lib.payloads ctx _ _ _ _
  | wasi guest =>
    refine iff_of_true (Only.interpret (fun call => ?_) guest) not_false
    exact only_permitted_hostCallback lib.payloads ctx _ _ _ _
  | ferricel guest =>
    refine iff_of_true (Only.interpret (fun call => ?_) guest) not_false
    exact only_permitted_callExtension lib.builders ctx call
  | rego mode cached =>
    constructor
    · rintro h ⟨hresources, hchannel, hlist⟩
      obtain ⟨req, hreq, hpermitted⟩ :=
        exists_of_only_buildKubernetesContext ctx hresources hchannel h.of_bind
      exact hlist ((hreq.permitted_iff ctx).1 hpermitted)
    · intro h
      refine Only.bind ?_ fun _ => .done ()
      by_cases hread : ctx.ctxAwareResourcesAllowList.elems = [] ∨ ctx.hasCallbackChannel = false
      · exact (only_false_buildKubernetesContext ctx hread).mono fun _ hfalse => hfalse.elim
      · have hlist : MayList ctx.toEvaluationContext := by
          by_contra hlist
          exact h ⟨fun hnil => hread (.inl hnil),
            Bool.eq_true_of_not_eq_false fun hno => hread (.inr hno), hlist⟩
        exact (only_allowed_buildKubernetesContext lib.rego mode cached
          ctx).mono fun req hreq => (hreq.permitted_iff ctx).2 hlist

def podLib : ChannelLib Unit Unit Unit Unit where
  payloads := podDecoders
  builders :=
    { get := fun _ => .error "no map"
      list := fun _ => .error "no map"
      verify := fun _ => .error "no map"
      pubKeyVerify := fun _ => .error "no map"
      keylessVerify := fun _ => .error "no map"
      keylessPrefixVerify := fun _ => .error "no map"
      githubActionsVerify := fun _ => .error "no map"
      certificateVerify := fun _ => .error "no map"
      certificateRequest := fun _ _ _ => ()
      response := fun _ => .ok .null }
  rego :=
    { decodeList := fun _ => .ok ()
      decodeBool := fun _ => .ok false
      decodeString := fun _ => .ok "pods"
      opaInventory := fun _ _ => .ok ()
      gatekeeperInventory := fun _ => .ok [] }

def podContext : ChannelContext :=
  { denyingContext with
    ctxAwareResourcesAllowList := .singleton ⟨"v1", "Pod"⟩ }

theorem rego_reads_without_capability : podContext.hostCapabilities = .denyAll
      ∧ (∃ next, (RuntimePolicy.rego .opa none).requests podLib podContext
        = .ask (.kubernetesListResourceAll "v1" "Pod" none none none) next)
      ∧ ¬ KeepsToGrants podContext ((RuntimePolicy.rego .opa none).requests podLib podContext) := by
  have hask : ∃ next, (RuntimePolicy.rego .opa none).requests podLib podContext
        = .ask (.kubernetesListResourceAll "v1" "Pod" none none none) next :=
    ⟨_, rfl⟩
  refine ⟨rfl, hask, fun h => ?_⟩
  obtain ⟨next, hnext⟩ := hask
  have hnone := h.2 rfl
  rw [hnext] at hnone
  cases hnone with
  | ask hfalse _ => exact hfalse
