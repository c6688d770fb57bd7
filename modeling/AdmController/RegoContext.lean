import AdmController.Callback
import AdmController.InventoryCache

/-!
# The Kubernetes context of Rego policies

What Rego policies may know about the cluster is read beforehand, by
`build_kubernetes_context`. It is all about kinds in the allow list
(`only_allowed_buildKubernetesContext`), but nobody looks at the capabilities
of the context.
-/

inductive RegoPolicyExecutionMode where
  | opa
  | gatekeeper
deriving DecidableEq

inductive KubernetesContext (I : Type) where
  | empty
  | opa (inventory : I)
  | gatekeeper (data : List UInt8)

/-- Third-party code, and code that makes no requests. -/
structure RegoLib (O I : Type) where
  decodeList : List UInt8 → Except String O
  decodeBool : List UInt8 → Except String Bool
  decodeString : List UInt8 → Except String String
  opaInventory : List (ContextAwareResource × O) →
    List (ContextAwareResource × String) → Except String I
  gatekeeperInventory : List (ContextAwareResource × O) → Except String (List UInt8)

variable {S C O I : Type} (lib : RegoLib O I)

def makeRequestViaCallbackChannel (req : CallbackRequestType S C) : HostCall S C (List UInt8) :=
  ExceptT.mk (.ask req fun
    | .sendError e => .done (.error ("error sending request over callback channel: " ++ e))
    | .response (.ok payload) => .done (.ok payload)
    | .response (.error e) => .done (.error
      ("cannot perform a request via callback channel: " ++ e))
    | .dropped => .done (.error "error obtaining response from callback channel: channel closed"))

def getAllResourcesByType (resource : ContextAwareResource) :
    HostCall S C O := do
  let payload ← makeRequestViaCallbackChannel (.kubernetesListResourceAll
    resource.apiVersion resource.kind none none none)
  Dialogue.ofExcept ((lib.decodeList payload).mapError
    ("cannot convert callback response into a list of kubernetes objects: " ++ ·))

def getAllowedResources : List ContextAwareResource → HostCall S C (List (ContextAwareResource × O))
  | [] => pure []
  | resource :: rest => do
    let list ← getAllResourcesByType lib resource
    let others ← getAllowedResources rest
    pure ((resource, list) :: others)

def hasResourceChangedSince (resource : ContextAwareResource) (since : ℕ) :
    HostCall S C Bool := do
  let payload ← makeRequestViaCallbackChannel
    (.hasKubernetesListResourceAllResultChangedSinceInstant
      resource.apiVersion resource.kind none none none since)
  Dialogue.ofExcept ((lib.decodeBool payload).mapError
    ("cannot convert callback response into a boolean: " ++ ·))

def haveAllowedResourcesChangedSinceInstant (since : ℕ) :
    List ContextAwareResource → HostCall S C Bool
  | [] => pure false
  | resource :: rest => do
    let changed ← hasResourceChangedSince lib resource since
    if changed then pure true
    else haveAllowedResourcesChangedSinceInstant since rest

def getPluralNames : List ContextAwareResource → HostCall S C (List (ContextAwareResource × String))
  | [] => pure []
  | resource :: rest => do
    let payload ← makeRequestViaCallbackChannel
      (.kubernetesGetResourcePluralName resource.apiVersion resource.kind)
    let name ← Dialogue.ofExcept ((lib.decodeString payload).mapError
      ("get plural name failure, cannot convert callback response: " ++ ·))
    let others ← getPluralNames rest
    pure ((resource, name) :: others)

def createInventory (resources : List ContextAwareResource) : HostCall S C (List UInt8) := do
  let content ← getAllowedResources lib resources
  Dialogue.ofExcept (lib.gatekeeperInventory content)

def getInventory (cached : Option (InventoryCache.CachedInventory (List UInt8)))
    (resources : List ContextAwareResource) : HostCall S C (List UInt8) :=
  match cached with
  | none => createInventory lib resources
  | some entry => do
    let changed ← haveAllowedResourcesChangedSinceInstant lib entry.cacheTime resources
    if changed then createInventory lib resources
    else pure entry.data

/-- `build_kubernetes_context`. -/
def buildKubernetesContext (mode : RegoPolicyExecutionMode)
    (cached : Option (InventoryCache.CachedInventory (List UInt8)))
    (ctx : ChannelContext) : HostCall S C (KubernetesContext I) :=
  match ctx.ctxAwareResourcesAllowList.elems with
  | [] => pure .empty
  | resources@(_ :: _) =>
    if ctx.hasCallbackChannel then
      match mode with
      | .opa => do
        let content ← getAllowedResources lib resources
        let names ← getPluralNames lib resources
        let inventory ← Dialogue.ofExcept (lib.opaInventory content names)
        pure (.opa inventory)
      | .gatekeeper => do
        let data ← getInventory lib cached resources
        pure (.gatekeeper data)
    else Dialogue.ofExcept (.error ("cannot build Rego context aware data:"
      ++ " callback channel is not set"))

open Dialogue Try.Only

/-! ## What is asked -/

def ListsOneOf (resources : List ContextAwareResource) (req : CallbackRequestType S C) : Prop :=
  (∃ resource ∈ resources, req.namedResource = some (resource.apiVersion, resource.kind))
    ∧ req.capabilities = ["kubernetes/list_resources_all", "kubernetes/list_resources_by_namespace"]

section

variable {P : CallbackRequestType S C → Prop}

theorem only_makeRequestViaCallbackChannel {req : CallbackRequestType S C} :
    Try.Only P (makeRequestViaCallbackChannel req) ↔ P req := by
  constructor
  · intro h
    cases h with
    | ask hq _ => exact hq
  · intro h
    refine .ask h fun reply => ?_
    rcases reply with e | (e | payload) | _
    all_goals exact .done _

variable {resources : List ContextAwareResource}

theorem only_getAllowedResources : ∀ {todo : List ContextAwareResource}, todo ⊆ resources →
      Try.Only (ListsOneOf resources) (getAllowedResources lib todo : HostCall S C _)
  | [], _ => Try.only_pure _
  | resource :: rest, hsub => by
    obtain ⟨hresource, hrest⟩ := List.cons_subset.1 hsub
    refine bind ?_ fun _ => bind (only_getAllowedResources hrest) fun _ => Try.only_pure _
    refine bind ?_ fun _ => Try.only_ofExcept _
    exact only_makeRequestViaCallbackChannel.2 ⟨⟨resource, hresource, rfl⟩, rfl⟩

theorem only_haveAllowedResourcesChanged {since : ℕ} :
    ∀ {todo : List ContextAwareResource}, todo ⊆ resources → Try.Only (ListsOneOf resources)
        (haveAllowedResourcesChangedSinceInstant lib since todo : HostCall S C _)
  | [], _ => Try.only_pure _
  | resource :: rest, hsub => by
    obtain ⟨hresource, hrest⟩ := List.cons_subset.1 hsub
    refine bind ?_ fun changed => ?_
    · refine bind ?_ fun _ => Try.only_ofExcept _
      exact only_makeRequestViaCallbackChannel.2 ⟨⟨resource, hresource, rfl⟩, rfl⟩
    · cases changed with
      | true => exact Try.only_pure _
      | false => exact only_haveAllowedResourcesChanged hrest

theorem only_getPluralNames : ∀ {todo : List ContextAwareResource}, todo ⊆ resources →
      Try.Only (ListsOneOf resources) (getPluralNames lib todo : HostCall S C _)
  | [], _ => Try.only_pure _
  | resource :: rest, hsub => by
    obtain ⟨hresource, hrest⟩ := List.cons_subset.1 hsub
    refine bind ?_ fun _ => bind (Try.only_ofExcept _)
      fun _ => bind (only_getPluralNames hrest) fun _ => Try.only_pure _
    exact only_makeRequestViaCallbackChannel.2 ⟨⟨resource, hresource, rfl⟩, rfl⟩

end

theorem only_allowed_buildKubernetesContext (mode : RegoPolicyExecutionMode)
    (cached : Option (InventoryCache.CachedInventory (List UInt8))) (ctx : ChannelContext) :
    Try.Only (ListsOneOf ctx.ctxAwareResourcesAllowList.elems)
      (buildKubernetesContext lib mode cached ctx : HostCall S C (KubernetesContext I)) := by
  have hsub := List.Subset.refl ctx.ctxAwareResourcesAllowList.elems
  have hcreate : Try.Only (ListsOneOf ctx.ctxAwareResourcesAllowList.elems)
      (createInventory lib ctx.ctxAwareResourcesAllowList.elems : HostCall S C (List UInt8)) :=
    bind (only_getAllowedResources lib hsub) fun _ => Try.only_ofExcept _
  revert hsub hcreate
  unfold buildKubernetesContext
  generalize ctx.ctxAwareResourcesAllowList.elems = resources
  intro hsub hcreate
  cases resources with
  | nil => exact Try.only_pure _
  | cons resource rest =>
    show Try.Only _ (if ctx.hasCallbackChannel then _ else _)
    split
    · cases mode with
      | opa =>
        exact bind (only_getAllowedResources lib hsub) fun _ => bind (only_getPluralNames lib hsub)
            fun _ => bind (Try.only_ofExcept _) fun _ => Try.only_pure _
      | gatekeeper =>
        refine bind ?_ fun _ => Try.only_pure _
        cases cached with
        | none => exact hcreate
        | some entry =>
          refine bind (only_haveAllowedResourcesChanged lib hsub) fun changed => ?_
          cases changed with
          | true => exact hcreate
          | false => exact Try.only_pure _
    · exact Try.only_ofExcept _
