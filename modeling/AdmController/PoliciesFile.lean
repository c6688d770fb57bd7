import Mathlib.Data.Prod.Lex
import AdmController.ConfigMapRoundTrip
import AdmController.PolicyConfig

/-!
# The configuration as the policy server reads it

The document in the `ConfigMap` is the policies file of the policy server. What
the controller omits has the default the policy server assumes.
-/

open Serde Fallible GoJson AList List ContextAwareResource

/-! ## The decoder -/

def ContextAwareResource.toLexPair (r : ContextAwareResource) :
    Lex (String × String) := toLex (r.apiVersion, r.kind)

theorem ContextAwareResource.toLexPair_injective : Function.Injective toLexPair := by
  intro a b h
  cases a
  cases b
  cases congrArg ofLex h
  rfl

theorem ContextAwareResource.lt_iff (a b : ContextAwareResource) :
    a < b ↔ a.toLexPair < b.toLexPair := by
  unfold toLexPair
  rw [Prod.Lex.toLex_lt_toLex]
  exact Iff.rfl

/-- **The order of resources is linear.** -/
instance : LinearOrder ContextAwareResource where
  le a b := a.toLexPair ≤ b.toLexPair
  lt := (· < ·)
  le_refl a := le_refl a.toLexPair
  le_trans _ _ _ h h' := le_trans h h'
  lt_iff_le_not_ge a b := (lt_iff a b).trans (lt_iff_le_not_ge)
  le_antisymm _ _ h h' := toLexPair_injective (le_antisymm h h')
  le_total a b := le_total a.toLexPair b.toLexPair
  toDecidableLE a b := inferInstanceAs (Decidable (a.toLexPair ≤ b.toLexPair))
  toDecidableLT a b := decidable_of_iff _ (lt_iff a b).symm
  toDecidableEq := inferInstance

def decodeBool : Value → Except String Bool
  | .bool b => .ok b
  | v => .error (invalidType v "a boolean")

def policyModeNames : List String := ["monitor", "protect"]

def decodePolicyMode (v : Value) : Except String PolicyMode := do
  match ← variantOf policyModeNames v with
  | some 0 => .ok .monitor
  | some 1 => .ok .protect
  | _ => .error (unknownVariant policyModeNames v)

def decodeSettings : Value → Except String PolicySettings
  | .mapping kvs => do
    let entries ← decodeEntries .ok kvs
    return entries.foldl (fun settings e =>
      settings.filter (fun s => s.1 ≠ e.1) ++ [(e.1, e.2)]) []
  | .null => .ok []
  | v => .error (invalidType v "a map")

def decodeContextAwareResource (sh : Shapes) (v : Value) :
    Except String ContextAwareResource := do
  let fields ← openStructFields sh "struct ContextAwareResource" ["apiVersion", "kind"] v
  let apiVersion ← requiredField "apiVersion" decodeString (fields 0)
  let kind ← requiredField "kind" decodeString (fields 1)
  return ⟨apiVersion, kind⟩

def decodeContextAwareResources (sh : Shapes) (v : Value) :
    Except String (BTreeSet ContextAwareResource) :=
  (decodeSeq sh (decodeContextAwareResource sh) v).map BTreeSet.ofList

def memberFieldNames : List String :=
  ["module", "settings", "contextAwareResources", "timeoutEvalSeconds", "hostCapabilities"]

def decodePolicyGroupMember (sh : Shapes) (v : Value) :
    Except String PolicyGroupMember := do
  let fields ← structFields sh "struct PolicyGroupMember" memberFieldNames v
  let module ← requiredField "module" decodeString (fields 0)
  let settings ← optionField decodeSettings (fields 1)
  let contextAwareResources ← defaultField .empty (decodeContextAwareResources sh) (fields 2)
  let timeoutEvalSeconds ← optionField (decodeUnsigned 64) (fields 3)
  let hostCapabilities ← defaultField [] (decodeSeq sh decodeString) (fields 4)
  return ⟨module, settings, contextAwareResources, timeoutEvalSeconds, hostCapabilities⟩

def policyFieldNames : List String :=
  ["module", "policyMode", "allowedToMutate", "settings",
    "contextAwareResources", "message", "timeoutEvalSeconds",
    "hostCapabilities"]

/-- Decode a policy. -/
def decodePolicy (sh : Shapes) (v : Value) : Except String Policy := do
  let fields ← openStructFields sh "struct variant PolicyOrPolicyGroup::Policy" policyFieldNames v
  let module ← requiredField "module" decodeString (fields 0)
  let policyMode ← defaultField .protect decodePolicyMode (fields 1)
  let allowedToMutate ← optionField decodeBool (fields 2)
  let settings ← optionField decodeSettings (fields 3)
  let contextAwareResources ← defaultField .empty (decodeContextAwareResources sh) (fields 4)
  let message ← optionField decodeString (fields 5)
  let timeoutEvalSeconds ← optionField (decodeUnsigned 64) (fields 6)
  let hostCapabilities ← defaultField [] (decodeSeq sh decodeString) (fields 7)
  return ⟨module, policyMode, allowedToMutate, settings,
    contextAwareResources, message, timeoutEvalSeconds, hostCapabilities⟩

def groupFieldNames : List String := ["policyMode", "policies", "expression", "message"]

/-- Decode a group. -/
def decodePolicyGroup (sh : Shapes) (v : Value) :
    Except String PolicyGroup := do
  let fields ← openStructFields sh
    "struct variant PolicyOrPolicyGroup::PolicyGroup" groupFieldNames v
  let policyMode ← defaultField .protect decodePolicyMode (fields 0)
  let policies ← requiredField "policies" (decodeMap sh (decodePolicyGroupMember sh)) (fields 1)
  let expression ← requiredField "expression" decodeString (fields 2)
  let message ← requiredField "message" decodeString (fields 3)
  return ⟨policyMode, policies, expression, message⟩

/-- **Decode an entry of the policies file**: a policy, or else a group. -/
def decodePolicyOrPolicyGroup (sh : Shapes) : Value → Except String PolicyOrPolicyGroup :=
  decodeUntagged "PolicyOrPolicyGroup" [fun v => (decodePolicy sh v).map .policy,
    fun v => (decodePolicyGroup sh v).map .policyGroup]

/-! ## What is the same on both sides -/

def serverMode : PoliciesV1.PolicyMode → PolicyMode
  | .protect => .protect
  | .monitor => .monitor

def serverResource (r : PoliciesV1.ContextAwareResource) : ContextAwareResource :=
  ⟨r.apiVersion, r.kind⟩

def objectValue (o : PolicySettings) : Value := .mapping (o.map fun kv => (.str kv.1, kv.2))

/-- **The same settings**: absent on both sides, or the same object. -/
def SameSettings (raw : PoliciesV1.RawExtension) (o : Option PolicySettings) : Prop :=
  raw = o.map objectValue ∧ ∀ settings ∈ o, (settings.map Prod.fst).Nodup

def ObjectOrAbsent (raw : PoliciesV1.RawExtension) : Prop := ∃ o, SameSettings raw o

def SameResources (l : List PoliciesV1.ContextAwareResource)
    (s : BTreeSet ContextAwareResource) : Prop :=
  ∀ r, r ∈ s.elems ↔ ∃ r' ∈ l, serverResource r' = r

def SameTimeout (timeout : Option PoliciesV1.Timeout) (n : Option ℕ) : Prop :=
  n.map (fun n => (n : ℤ)) = timeout.map fun t => t.seconds.toInt

section

variable (sh : Shapes)

/-! ## Fields -/

theorem foldl_insert_new (l : List (Σ _ : String, Value)) (acc : List (String × Value))
    (h : (acc.map Prod.fst ++ l.map Sigma.fst).Nodup) :
    l.foldl (fun settings e =>
        settings.filter (fun s => s.1 ≠ e.1) ++ [(e.1, e.2)]) acc
      = acc ++ l.map fun e => (e.1, e.2) := by
  induction l generalizing acc with
  | nil => simp
  | cons e l ih =>
    have hnew : ∀ s ∈ acc, s.1 ≠ e.1 := by
      intro s hs heq
      rw [nodup_append] at h
      exact h.2.2 s.1 (mem_map.2 ⟨s, hs, rfl⟩) e.1 (by simp) heq
    have hkeep : acc.filter (fun s => s.1 ≠ e.1) = acc :=
      filter_eq_self.2 fun s hs => decide_eq_true (hnew s hs)
    rw [foldl_cons, hkeep, ih _ (by simpa using h), map_cons, append_assoc, singleton_append]

theorem decodeSettings_objectValue {o : PolicySettings} (h : (o.map Prod.fst).Nodup) :
    decodeSettings (objectValue o) = .ok o := by
  have hentries : decodeEntries .ok (o.map fun kv => (Key.str kv.1, kv.2))
      = .ok (o.map fun kv => (⟨kv.1, kv.2⟩ : Σ _ : String, Value)) := by
    unfold decodeEntries
    rw [mapM_eq_ok_iff, forall₂_map_left_iff, forall₂_map_right_iff, forall₂_same]
    exact fun _ _ => rfl
  have hfold := foldl_insert_new (o.map fun kv => (⟨kv.1, kv.2⟩ : Σ _ : String, Value)) []
    (by simpa [map_map, Function.comp_def] using h)
  refine bind_eq_ok.2 ⟨_, hentries, congrArg Except.ok ?_⟩
  rw [hfold]
  simp [map_map, Function.comp_def]

theorem optionField_settings {raw : PoliciesV1.RawExtension}
    {o : Option PolicySettings} (h : SameSettings raw o) :
    optionField decodeSettings (.ok (settingsToJson raw)) = .ok o := by
  obtain ⟨rfl, hnodup⟩ := h
  cases o with
  | none => rfl
  | some settings =>
    show (decodeSettings (objectValue settings)).map some = _
    rw [decodeSettings_objectValue (hnodup settings rfl)]
    rfl

theorem decodeContextAwareResource_toJson (r : PoliciesV1.ContextAwareResource) :
    decodeContextAwareResource sh r.toJson = .ok (serverResource r) := by
  have hnames : (r.fields.map Prod.fst).Nodup := (by decide : ["apiVersion", "kind"].Nodup)
  have hfield (i : ℕ) (name : String) (hi : ["apiVersion", "kind"][i]? = some name) :
      mappingField sh ["apiVersion", "kind"] (entriesOf r.fields) i
        = .ok (r.fields.lookup name).join :=
    mappingField_entriesOf hnames (by decide) hi
  refine bind_eq_ok.2 ⟨_, rfl, ?_⟩
  refine bind_eq_ok.2 ⟨r.apiVersion, congrArg (requiredField "apiVersion" decodeString)
    (hfield 0 "apiVersion" rfl), ?_⟩
  refine bind_eq_ok.2 ⟨r.kind,
    congrArg (requiredField "kind" decodeString) (hfield 1 "kind" rfl), ?_⟩
  rfl

open PoliciesV1.ContextAwareResource

theorem defaultField_resources (l : List PoliciesV1.ContextAwareResource) :
    ∃ s, defaultField .empty (decodeContextAwareResources sh) (.ok (omitEmptySlice toJson l))
      = .ok s ∧ SameResources l s := by
  cases l with
  | nil => exact ⟨.empty, rfl, fun r => by simp [BTreeSet.empty]⟩
  | cons r l =>
    have hseq : ((r :: l).map toJson).mapM
        (decodeContextAwareResource sh) = .ok ((r :: l).map serverResource) := by
      rw [mapM_eq_ok_iff, forall₂_map_left_iff, forall₂_map_right_iff, forall₂_same]
      exact fun r _ => decodeContextAwareResource_toJson sh r
    refine ⟨.ofList ((r :: l).map serverResource), map_eq_ok.2 ⟨_, hseq, rfl⟩, fun r' => ?_⟩
    rw [BTreeSet.mem_ofList, mem_map]

theorem optionField_timeout (timeout : Option PoliciesV1.Timeout) :
    ∃ n, optionField (decodeUnsigned 64) (.ok (omitNil int32ToJson
      (timeout.map PoliciesV1.Timeout.seconds))) = .ok n
      ∧ SameTimeout timeout n := by
  cases timeout with
  | none => exact ⟨none, rfl, rfl⟩
  | some t =>
    have hlower := t.two_le
    have hupper := t.le_thirty
    have hdecode : decodeUnsigned 64 (int32ToJson t.seconds) = .ok t.seconds.toInt.toNat := by
      exact if_pos ⟨by omega, by omega⟩
    refine ⟨some t.seconds.toInt.toNat, map_eq_ok.2 ⟨_, hdecode, rfl⟩, ?_⟩
    show some ((t.seconds.toInt.toNat : ℤ)) = some t.seconds.toInt
    rw [Int.toNat_of_nonneg (by omega)]

theorem defaultField_capabilities (l : List String) : defaultField [] (decodeSeq sh decodeString)
    (.ok (some (slice .string (some l)))) = .ok l := by
  show (l.map Value.string).mapM decodeString = .ok l
  rw [mapM_eq_ok_iff, forall₂_map_left_iff, forall₂_same]
  exact fun _ _ => rfl

theorem optionField_message (message : String) :
    optionField decodeString (.ok (omitEmptyString message))
      = .ok (if message = "" then none else some message) := by
  unfold omitEmptyString
  split
  · rfl
  · rfl

theorem decodePolicyMode_text (mode : PoliciesV1.PolicyMode) :
    decodePolicyMode (.string mode.text) = .ok (serverMode mode) := by
  cases mode <;> rfl

end

section

variable (sh : Shapes)

/-! ## Entries -/

/-- **The same member.** -/
structure MemberAgrees (hostCaps : List String) (member : PoliciesV1.PolicyGroupMemberWithContext)
    (d : PolicyGroupMember) : Prop where
  module : d.module = member.module
  settings : SameSettings member.settings d.settings
  contextAwareResources : SameResources member.contextAwareResources d.contextAwareResources
  timeoutEvalSeconds : SameTimeout member.timeoutEvalSeconds d.timeoutEvalSeconds
  hostCapabilities : d.hostCapabilities = hostCaps

/-- **The same policy.** An empty message of the controller is none. -/
structure PolicyAgrees (server : PoliciesV1.PolicyServer)
    (p : PoliciesV1.Policy) (d : Policy) : Prop where
  module : d.module = p.getModule
  policyMode : d.policyMode = serverMode p.getPolicyMode
  allowedToMutate : d.allowedToMutate = some p.isMutating
  settings : SameSettings p.getSettings d.settings
  contextAwareResources : SameResources p.getContextAwareResources d.contextAwareResources
  message : d.message = if p.getMessage = "" then none else some p.getMessage
  timeoutEvalSeconds : SameTimeout p.getTimeoutEvalSeconds d.timeoutEvalSeconds
  hostCapabilities : d.hostCapabilities = hostCapabilitiesForPolicy p server

/-- **The same group**, with the same members by name. -/
structure GroupAgrees (server : PoliciesV1.PolicyServer)
    (p : PoliciesV1.Policy) (members : PoliciesV1.Members)
    (expression : String) (g : PolicyGroup) : Prop where
  policyMode : g.policyMode = serverMode p.getPolicyMode
  policies : ∀ name, Option.Rel (MemberAgrees (hostCapabilitiesForPolicy p server))
    (members.lookup name) (g.policies.lookup name)
  expression : g.expression = expression
  message : g.message = p.getMessage

theorem decodePolicyGroupMember_fields (hostCaps : List String)
    {member : PoliciesV1.PolicyGroupMemberWithContext} (h : ObjectOrAbsent member.settings) :
    ∃ d, decodePolicyGroupMember sh (object (memberEntry hostCaps member).fields) = .ok d
      ∧ MemberAgrees hostCaps member d := by
  have hnames : ((memberEntry hostCaps member).fields.map Prod.fst).Nodup :=
    (by decide : memberFieldNames.Nodup)
  have hfield (i : ℕ) (name : String) (hi : memberFieldNames[i]? = some name) :
      mappingField sh memberFieldNames (entriesOf (memberEntry hostCaps member).fields) i
        = .ok ((memberEntry hostCaps member).fields.lookup name).join :=
    mappingField_entriesOf hnames (by decide) hi
  obtain ⟨settings, hsettings⟩ := h
  obtain ⟨resources, hresources, hsame⟩ := defaultField_resources sh member.contextAwareResources
  obtain ⟨timeout, htimeout, hseconds⟩ := optionField_timeout member.timeoutEvalSeconds
  refine ⟨⟨member.module, settings, resources, timeout, hostCaps⟩, ?_,
    ⟨rfl, hsettings, hsame, hseconds, rfl⟩⟩
  refine bind_eq_ok.2 ⟨_, structFields_object fun name hname => hname, ?_⟩
  refine bind_eq_ok.2 ⟨member.module, congrArg (requiredField "module" decodeString)
    (hfield 0 "module" rfl), ?_⟩
  refine bind_eq_ok.2 ⟨settings,
    (congrArg (optionField decodeSettings) (hfield 1 "settings" rfl)).trans
      (optionField_settings hsettings), ?_⟩
  refine bind_eq_ok.2 ⟨resources, (congrArg (defaultField .empty (decodeContextAwareResources sh))
    (hfield 2 "contextAwareResources" rfl)).trans hresources, ?_⟩
  refine bind_eq_ok.2 ⟨timeout, (congrArg (optionField (decodeUnsigned 64))
    (hfield 3 "timeoutEvalSeconds" rfl)).trans htimeout, ?_⟩
  refine bind_eq_ok.2 ⟨hostCaps, (congrArg (defaultField [] (decodeSeq sh decodeString))
    (hfield 4 "hostCapabilities" rfl)).trans
    (defaultField_capabilities sh hostCaps), ?_⟩
  rfl

variable (server : PoliciesV1.PolicyServer) {p : PoliciesV1.Policy}

theorem decodePolicy_policyFields (h : ObjectOrAbsent p.getSettings) : ∃ d, decodePolicy sh
      (object (configEntry server p).policyFields) = .ok d
    ∧ PolicyAgrees server p d := by
  have hnames : ((configEntry server p).policyFields.map Prod.fst).Nodup :=
    (by decide : policyNames.Nodup)
  have hfield (i : ℕ) (name : String) (hi : policyFieldNames[i]? = some name) :
      mappingField sh policyFieldNames (entriesOf (configEntry server p).policyFields) i
        = .ok ((configEntry server p).policyFields.lookup name).join :=
    mappingField_entriesOf hnames (by decide) hi
  obtain ⟨settings, hsettings⟩ := h
  obtain ⟨resources, hresources, hsame⟩ := defaultField_resources sh p.getContextAwareResources
  obtain ⟨timeout, htimeout, hseconds⟩ := optionField_timeout p.getTimeoutEvalSeconds
  refine ⟨⟨p.getModule, serverMode p.getPolicyMode, some p.isMutating, settings, resources,
    if p.getMessage = "" then none else some p.getMessage, timeout,
    hostCapabilitiesForPolicy p server⟩, ?_,
    ⟨rfl, rfl, rfl, hsettings, hsame, rfl, hseconds, rfl⟩⟩
  refine bind_eq_ok.2 ⟨_, rfl, ?_⟩
  refine bind_eq_ok.2 ⟨p.getModule, congrArg (requiredField "module" decodeString)
    (hfield 0 "module" rfl), ?_⟩
  refine bind_eq_ok.2 ⟨serverMode p.getPolicyMode,
    (congrArg (defaultField .protect decodePolicyMode) (hfield 1 "policyMode" rfl)).trans
      (decodePolicyMode_text p.getPolicyMode), ?_⟩
  refine bind_eq_ok.2 ⟨some p.isMutating,
    congrArg (optionField decodeBool) (hfield 2 "allowedToMutate" rfl), ?_⟩
  refine bind_eq_ok.2 ⟨settings,
    (congrArg (optionField decodeSettings) (hfield 3 "settings" rfl)).trans
      (optionField_settings hsettings), ?_⟩
  refine bind_eq_ok.2 ⟨resources, (congrArg (defaultField .empty (decodeContextAwareResources sh))
    (hfield 4 "contextAwareResources" rfl)).trans hresources, ?_⟩
  refine bind_eq_ok.2 ⟨_, (congrArg (optionField decodeString) (hfield 5 "message" rfl)).trans
    (optionField_message p.getMessage), ?_⟩
  refine bind_eq_ok.2 ⟨timeout, (congrArg (optionField (decodeUnsigned 64))
    (hfield 6 "timeoutEvalSeconds" rfl)).trans htimeout, ?_⟩
  refine bind_eq_ok.2 ⟨hostCapabilitiesForPolicy p server,
    (congrArg (defaultField [] (decodeSeq sh decodeString)) (hfield 7 "hostCapabilities" rfl)).trans
      (defaultField_capabilities sh _), ?_⟩
  rfl

theorem groupFields_names (e : PolicyServerConfigEntry) : (e.groupFields.map Prod.fst).Nodup :=
  (by decide : groupNames.Nodup)

theorem decodePolicy_groupFields (e : PolicyServerConfigEntry) :
    ∃ msg, decodePolicy sh (object e.groupFields) = .error msg := by
  have hmodule : mappingField sh policyFieldNames (entriesOf e.groupFields) 0 = .ok none :=
    mappingField_entriesOf (groupFields_names e) (by decide)
      (show policyFieldNames[0]? = some "module" from rfl)
  have hmissing : requiredField "module" decodeString
      (mappingField sh policyFieldNames (entriesOf e.groupFields) 0)
        = .error "missing field `module`" :=
    congrArg (requiredField "module" decodeString) hmodule
  exact ⟨_, bind_eq_error.2 (.inr ⟨_, rfl, bind_eq_error.2 (.inl hmissing)⟩)⟩

theorem decodeMap_members (hostCaps : List String) {members : PoliciesV1.Members}
    (h : ∀ e ∈ members.entries, ObjectOrAbsent e.2.settings) :
    ∃ policies, decodeMap sh (decodePolicyGroupMember sh)
      (ofMap (fun e : GroupMemberEntry => object e.fields)
        (members.mapValues fun _ member => memberEntry hostCaps member)) = .ok policies
      ∧ ∀ name, Option.Rel (MemberAgrees hostCaps) (members.lookup name)
        (policies.lookup name) := by
  have hfields {name : String} {member : PoliciesV1.PolicyGroupMemberWithContext}
      (hmem : members.lookup name = some member) :=
    decodePolicyGroupMember_fields sh hostCaps (h ⟨name, member⟩ (mem_lookup_iff.1 hmem))
  have hmember : ∀ e ∈ (members.mapValues fun _ member => memberEntry hostCaps member).entries,
      ∃ d, decodePolicyGroupMember sh (object e.2.fields) = .ok d := by
    intro e he
    rw [← mem_lookup_iff, lookup_mapValues] at he
    obtain ⟨member, hmem, heq⟩ := Option.map_eq_some_iff.1 he
    obtain ⟨d, hd, -⟩ := hfields hmem
    exact ⟨d, heq ▸ hd⟩
  have : Nonempty PolicyGroupMember := ⟨⟨"", none, .empty, none, []⟩⟩
  obtain ⟨policies, hdecoded, hlookup⟩ := decodeMap_ofMap sh (decodePolicyGroupMember sh)
    (fun e : GroupMemberEntry => object e.fields) hmember
  refine ⟨policies, hdecoded, fun name => ?_⟩
  -- a member under this name was decoded from its own entry
  have hrel := hlookup name
  rw [lookup_mapValues] at hrel
  generalize policies.lookup name = o at hrel ⊢
  cases hmem : members.lookup name with
  | none =>
    rw [hmem] at hrel
    cases hrel
    exact .none
  | some member =>
    rw [hmem] at hrel
    cases hrel with
    | some hd =>
      obtain ⟨d, hd', hagrees⟩ := hfields hmem
      rw [hd] at hd'
      cases hd'
      exact .some hagrees

theorem decodePolicyGroup_groupFields {members : PoliciesV1.Members} {expression : String}
    (hgroup : p.policyGroup = some (members, expression))
    (h : ∀ e ∈ members.entries, ObjectOrAbsent e.2.settings) :
    ∃ g, decodePolicyGroup sh (object (configEntry server p).groupFields) = .ok g
      ∧ GroupAgrees server p members expression g := by
  have hfield (i : ℕ) (name : String) (hi : groupFieldNames[i]? = some name) :
      mappingField sh groupFieldNames (entriesOf (configEntry server p).groupFields) i
        = .ok ((configEntry server p).groupFields.lookup name).join :=
    mappingField_entriesOf (groupFields_names _) (by decide) hi
  have hpolicies : (configEntry server p).policies = members.mapValues fun _ member =>
          memberEntry (hostCapabilitiesForPolicy p server) member := by
    unfold configEntry
    rw [hgroup]
    rfl
  have hexpression : (configEntry server p).expression = expression := by
    unfold configEntry
    rw [hgroup]
  obtain ⟨policies, hdecoded, hagree⟩ := decodeMap_members sh (hostCapabilitiesForPolicy p server) h
  rw [← hpolicies] at hdecoded
  refine ⟨⟨serverMode p.getPolicyMode, policies, expression, p.getMessage⟩,
    ?_, ⟨rfl, hagree, rfl, rfl⟩⟩
  refine bind_eq_ok.2 ⟨_, rfl, ?_⟩
  refine bind_eq_ok.2 ⟨serverMode p.getPolicyMode,
    (congrArg (defaultField .protect decodePolicyMode) (hfield 0 "policyMode" rfl)).trans
      (decodePolicyMode_text p.getPolicyMode), ?_⟩
  refine bind_eq_ok.2 ⟨policies, (congrArg (requiredField "policies"
        (decodeMap sh (decodePolicyGroupMember sh)))
      (hfield 1 "policies" rfl)).trans hdecoded, ?_⟩
  refine bind_eq_ok.2 ⟨expression, hexpression ▸ congrArg (requiredField "expression" decodeString)
      (hfield 2 "expression" rfl), ?_⟩
  refine bind_eq_ok.2 ⟨p.getMessage, congrArg (requiredField "message" decodeString)
    (hfield 3 "message" rfl), ?_⟩
  rfl

/-! ## The policies file -/

def SettingsAreObjects (p : PoliciesV1.Policy) : Prop :=
  match p.policyGroup with
  | none => ObjectOrAbsent p.getSettings
  | some (members, _) => ∀ e ∈ members.entries, ObjectOrAbsent e.2.settings

/-- **The same policy or group**, of the same kind. -/
def SameEntry (server : PoliciesV1.PolicyServer) (p : PoliciesV1.Policy) :
    PolicyOrPolicyGroup → Prop
  | .policy d => p.policyGroup = none ∧ PolicyAgrees server p d
  | .policyGroup g => ∃ members expression, p.policyGroup = some (members, expression)
        ∧ GroupAgrees server p members expression g

/-- **Entries are decoded as what they were made of**, if they were accepted by
the webhook and their settings are objects. -/
theorem policy_entry_decoded (sh : Shapes) (lib : PoliciesV1.ValidationLib)
    (server : PoliciesV1.PolicyServer) (p : PoliciesV1.Policy)
    (haccepted : PoliciesV1.validateCreate lib p = [])
    (hsettings : SettingsAreObjects p) :
    ∃ d, decodePolicyOrPolicyGroup sh (configEntry server p).marshalJSON
      = .ok d ∧ SameEntry server p d := by
  unfold SettingsAreObjects at hsettings
  cases hgroup : p.policyGroup with
  | none =>
    rw [hgroup] at hsettings
    obtain ⟨d, hd, hagrees⟩ := decodePolicy_policyFields sh server hsettings
    have hwritten : (configEntry server p).marshalJSON
        = object (configEntry server p).policyFields := by
      exact if_neg (by simp [configEntry, hgroup])
    refine ⟨.policy d, ?_, hgroup, hagrees⟩
    rw [hwritten]
    exact decodeUntagged_cons_ok (map_eq_ok.2 ⟨d, hd, rfl⟩)
  | some group =>
    obtain ⟨members, expression⟩ := group
    rw [hgroup] at hsettings
    obtain ⟨g, hg, hagrees⟩ := decodePolicyGroup_groupFields sh server hgroup hsettings
    obtain ⟨msg, hmsg⟩ := decodePolicy_groupFields sh (configEntry server p)
    have hmembers := PoliciesV1.members_ne_nil_of_create hgroup haccepted
    have hwritten : (configEntry server p).marshalJSON
        = object (configEntry server p).groupFields := by
      refine if_pos (length_pos_of_ne_nil ?_)
      simpa [configEntry, hgroup, buildPolicyGroupMembersWithContext, mapValues] using hmembers
    refine ⟨.policyGroup g, ?_, members, expression, hgroup, hagrees⟩
    rw [hwritten]
    exact (decodeUntagged_cons_error (map_eq_error.2 hmsg)).trans
      (decodeUntagged_cons_ok (map_eq_ok.2 ⟨g, hg, rfl⟩))

end

theorem group_entry_decoded : ∃ d, decodePolicyOrPolicyGroup ⟨true, true, false⟩
        (configEntry (.created "default" none) (.createdGroup "a" "g"
          (singleton "m" ⟨"module", some (.mapping
            [(.str "k", .bool true)]), none⟩) "m()")).marshalJSON = .ok d
      ∧ SameEntry (.created "default" none) (.createdGroup "a" "g"
        (singleton "m" ⟨"module", some (.mapping [(.str "k", .bool true)]), none⟩) "m()") d := by
  refine policy_entry_decoded _ .lenient _ _ (by decide +kernel) ?_
  intro e he
  rw [mem_singleton.1 he]
  exact ⟨some [("k", .bool true)], rfl, by simp⟩
