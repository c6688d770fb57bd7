import AdmController.PolicyIdentities
import AdmController.PolicyValidation

/-!
# Reading the configuration back

The controller reads the document it has written (`isPolicyInConfigMap`). An
entry with neither members nor a module fails the whole document.
-/

open GoJson AList PolicyServerConfigEntry

open Serde PoliciesV1

/-! ## One entry -/

theorem readNamespacedName_toJson (n : NamespacedName) :
    readNamespacedName (some n.toJson) = .ok n := by
  have hnamespace : readField "Namespace" readString n.toJson = .ok n.inNamespace :=
    readField_object ["Namespace", "Name"] rfl (by decide)
  have hname : readField "Name" readString n.toJson = .ok n.name :=
    readField_object ["Namespace", "Name"] rfl (by decide)
  simp only [readNamespacedName, hnamespace, hname]
  rfl

theorem readContextAwareResource_toJson (r : PoliciesV1.ContextAwareResource) :
    readContextAwareResource (some r.toJson) = .ok r := by
  have hversion : readField "apiVersion" readString r.toJson = .ok r.apiVersion :=
    readField_object ["apiVersion", "kind"] rfl (by decide)
  have hkind : readField "kind" readString r.toJson = .ok r.kind :=
    readField_object ["apiVersion", "kind"] rfl (by decide)
  simp only [readContextAwareResource, hversion, hkind]
  rfl

theorem readContextAwareResources_omitEmptySlice (l : List PoliciesV1.ContextAwareResource) :
    readContextAwareResources (omitEmptySlice PoliciesV1.ContextAwareResource.toJson l) = .ok l :=
  readSlice_omitEmptySlice readContextAwareResource_toJson l

theorem readHostCapabilities_slice (o : Option (List String)) :
    readHostCapabilities (some (slice .string o)) = .ok o :=
  readSlice_slice (fun _ => rfl) o

def dropNull : RawExtension → RawExtension
  | some .null => none
  | settings => settings

theorem readRaw_settingsToJson (settings : RawExtension) :
    readRaw (settingsToJson settings) = .ok (dropNull settings) := by
  cases settings with
  | none => rfl
  | some v => cases v <;> rfl

def memberNames : List String :=
  ["module", "settings", "contextAwareResources", "timeoutEvalSeconds", "hostCapabilities"]

theorem readMember_fields (m : GroupMemberEntry) : readMember (object m.fields)
    = .ok { m with settings := dropNull m.settings } := by
  have hread {α : Type} (read : Option Value → Except String α) (name : String)
      (hname : Distinct name memberNames) :
      readField name read (object m.fields) = read (m.fields.lookup name).join :=
    readField_object memberNames rfl hname
  have hmodule := hread readString "module" (by decide)
  have hsettings := (hread readRaw "settings" (by decide)).trans (readRaw_settingsToJson m.settings)
  have hresources := (hread readContextAwareResources "contextAwareResources" (by decide)).trans
    (readContextAwareResources_omitEmptySlice m.contextAwareResources)
  have htimeout := (hread readInt32 "timeoutEvalSeconds"
    (by decide)).trans (readInt32_omitNil m.timeoutEvalSeconds)
  have hcapabilities := (hread readHostCapabilities "hostCapabilities"
    (by decide)).trans (readHostCapabilities_slice m.hostCapabilities)
  unfold readMember
  rw [hmodule, hsettings, hresources, htimeout, hcapabilities]
  rfl

def groupNames : List String :=
  ["namespacedName", "policyMode", "policies", "expression", "message"]

def policyNames : List String :=
  ["namespacedName", "module", "policyMode", "allowedToMutate",
    "contextAwareResources", "settings", "message", "timeoutEvalSeconds",
    "hostCapabilities"]

variable (p : PolicyServerConfigEntry)

theorem readConfigEntry_policyFields : readConfigEntry (object p.policyFields)
    = .ok { p with
      settings := dropNull p.settings
      policies := ∅
      expression := "" } := by
  have hread {α : Type} (read : Option Value → Except String α) (name : String)
      (hname : Distinct name policyNames) :
      readField name read (object p.policyFields) = read (p.policyFields.lookup name).join :=
    readField_object policyNames rfl hname
  have hname := (hread readNamespacedName "namespacedName" (by decide)).trans
    (readNamespacedName_toJson p.namespacedName)
  have hmodule := hread readString "module" (by decide)
  have hmode := hread readString "policyMode" (by decide)
  have hmutate := hread readBool "allowedToMutate" (by decide)
  have hresources := (hread readContextAwareResources "contextAwareResources" (by decide)).trans
    (readContextAwareResources_omitEmptySlice p.contextAwareResources)
  have hsettings := (hread readRaw "settings" (by decide)).trans (readRaw_settingsToJson p.settings)
  have hmessage := (hread readString "message" (by decide)).trans
    (readString_omitEmptyString p.message)
  have htimeout := (hread readInt32 "timeoutEvalSeconds"
    (by decide)).trans (readInt32_omitNil p.timeoutEvalSeconds)
  have hcapabilities := (hread readHostCapabilities "hostCapabilities"
    (by decide)).trans (readHostCapabilities_slice p.hostCapabilities)
  have hpolicies := hread (readMap readMember) "policies" (by decide)
  have hexpression := hread readString "expression" (by decide)
  unfold readConfigEntry
  rw [hname, hmodule, hmode, hmutate, hresources, hsettings, hmessage,
    htimeout, hcapabilities, hpolicies, hexpression]
  rfl

theorem readMap_members (policies : HashMap String GroupMemberEntry) :
    ∃ policies', readMap readMember (some (ofMap
      (fun m => object m.fields) policies)) = .ok policies'
      ∧ ∀ name, policies'.lookup name = (policies.lookup name).map
        fun m => { m with settings := dropNull m.settings } :=
  readMap_ofMap fun e _ => readMember_fields e.2

theorem readConfigEntry_groupFields : ∃ policies, readConfigEntry (object p.groupFields)
    = .ok { p with
      module := ""
      allowedToMutate := false
      contextAwareResources := []
      settings := none
      timeoutEvalSeconds := none
      hostCapabilities := none
      policies := policies }
    ∧ ∀ name, policies.lookup name = (p.policies.lookup name).map
      fun m => { m with settings := dropNull m.settings } := by
  have hread {α : Type} (read : Option Value → Except String α) (name : String)
      (hname : Distinct name groupNames) :
      readField name read (object p.groupFields) = read (p.groupFields.lookup name).join :=
    readField_object groupNames rfl hname
  have hname := (hread readNamespacedName "namespacedName" (by decide)).trans
    (readNamespacedName_toJson p.namespacedName)
  have hmodule := hread readString "module" (by decide)
  have hmode := hread readString "policyMode" (by decide)
  have hmutate := hread readBool "allowedToMutate" (by decide)
  have hresources := hread readContextAwareResources "contextAwareResources" (by decide)
  have hsettings := hread readRaw "settings" (by decide)
  have hmessage := hread readString "message" (by decide)
  have htimeout := hread readInt32 "timeoutEvalSeconds" (by decide)
  have hcapabilities := hread readHostCapabilities "hostCapabilities" (by decide)
  obtain ⟨policies, hmap, hlookup⟩ := readMap_members p.policies
  have hpolicies := (hread (readMap readMember) "policies" (by decide)).trans hmap
  have hexpression := hread readString "expression" (by decide)
  refine ⟨policies, ?_, hlookup⟩
  unfold readConfigEntry
  rw [hname, hmodule, hmode, hmutate, hresources, hsettings, hmessage,
    htimeout, hcapabilities, hpolicies, hexpression]
  rfl

/-! ## When an entry can be read back -/

theorem exists_unmarshalJSON_iff {v : Value} {p : PolicyServerConfigEntry}
    (h : readConfigEntry v = .ok p) :
    (∃ p', unmarshalJSON v = .ok p') ↔ (p.policies.entries.length = 0 ↔ p.module ≠ "") := by
  unfold unmarshalJSON
  rw [h]
  show (∃ p', (if p.policies.entries.length = 0 ∧ p.module = "" then
    Except.error _ else if p.policies.entries.length ≠ 0 ∧ p.module ≠ "" then
    Except.error _ else Except.ok p) = Except.ok p') ↔ _
  by_cases hlength : p.policies.entries.length = 0 <;>
    by_cases hmodule : p.module = "" <;>
    simp only [hlength, hmodule, ne_eq, not_true, not_false_iff, and_true,
      and_false, if_true, if_false, reduceCtorEq,
      exists_false, Except.ok.injEq, exists_eq', iff_true, iff_false]

theorem unmarshalJSON_marshalJSON_iff :
    (∃ p', unmarshalJSON p.marshalJSON = .ok p') ↔ p.policies.entries ≠ [] ∨ p.module ≠ "" := by
  unfold marshalJSON
  by_cases hempty : p.policies.entries = []
  · rw [if_neg (by simp [hempty]), exists_unmarshalJSON_iff (readConfigEntry_policyFields p)]
    simp [hempty]
  · obtain ⟨policies, hread, hlookup⟩ := readConfigEntry_groupFields p
    -- a member that was written is there when the entry is read
    have hpolicies : policies.entries ≠ [] := entries_ne_nil_of_lookup hlookup hempty
    rw [if_pos (List.length_pos_iff.2 hempty), exists_unmarshalJSON_iff hread]
    simp [hempty, hpolicies]

variable {lib : ValidationLib} {order : MapOrder} {server : PolicyServer}
  {policies : List PoliciesV1.Policy}

/-! ## The whole document -/

theorem lookup_updateConfigMapData : (updateConfigMapData order server policies).lookup
      policyServerConfigPoliciesEntry
    = some (ofMap marshalJSON (policiesMap order server policies)) := by
  show (((∅ : ConfigMapData).insert policyServerConfigPoliciesEntry _).insert
    policyServerConfigSourcesEntry _).lookup policyServerConfigPoliciesEntry = _
  rw [lookup_insert_ne (by decide), lookup_insert]

def Readable : Prop := p.policies.entries ≠ [] ∨ p.module ≠ ""

theorem getPolicyMap_of_forall_readable
    (h : ∀ e ∈ (policiesMap order server policies).entries, Readable e.2) :
    ∃ m, getPolicyMapFromConfigMap (updateConfigMapData order server policies) = .ok m
      ∧ ∀ name, (m.lookup name).isSome
        = ((policiesMap order server policies).lookup name).isSome := by
  choose! g hg using fun (p : PolicyServerConfigEntry) (hp : Readable p) =>
    (unmarshalJSON_marshalJSON_iff p).2 hp
  obtain ⟨m, hm, hlookup⟩ := readMap_ofMap fun e he => hg e.2 (h e he)
  refine ⟨m, ?_, fun name => by rw [hlookup, Option.isSome_map]⟩
  unfold getPolicyMapFromConfigMap
  rw [lookup_updateConfigMapData]
  exact Fallible.mapError_eq_ok.2 hm

theorem getPolicyMap_of_not_readable
    (h : ∃ e ∈ (policiesMap order server policies).entries, ¬ Readable e.2) :
    ∃ msg, getPolicyMapFromConfigMap (updateConfigMapData order server policies) = .error msg := by
  obtain ⟨e, he, hreadable⟩ := h
  have herror : ∃ msg, unmarshalJSON e.2.marshalJSON = .error msg := by
    cases hentry : unmarshalJSON e.2.marshalJSON with
    | ok p => exact absurd ((unmarshalJSON_marshalJSON_iff e.2).1 ⟨p, hentry⟩) hreadable
    | error msg => exact ⟨msg, rfl⟩
  obtain ⟨msg, hmsg⟩ := readMap_ofMap_error ⟨e, he, herror⟩
  unfold getPolicyMapFromConfigMap
  rw [lookup_updateConfigMapData]
  exact ⟨_, Fallible.mapError_eq_error.2 ⟨msg, hmsg, rfl⟩⟩

theorem readable_configEntry_iff {p} (h : validateCreate lib p = []) :
    Readable (configEntry server p) ↔ (p.policyGroup = none → p.getModule ≠ "") := by
  cases hgroup : p.policyGroup with
  | none => simp [Readable, configEntry, hgroup]
  | some group =>
    obtain ⟨members, expression⟩ := group
    have hmembers := members_ne_nil_of_create hgroup h
    refine iff_of_true (.inl ?_) (by simp)
    simpa [configEntry, hgroup, buildPolicyGroupMembersWithContext, mapValues] using hmembers

/-- **When the configuration can be read back**: for what was accepted by the
webhook, exactly when no policy has an empty module. -/
theorem config_map_round_trip_iff (order : MapOrder)
    (server : PoliciesV1.PolicyServer) (hid : Identifiable policies)
    (haccepted : ∀ p ∈ policies, validateCreate lib p = []) :
    ((∃ m, getPolicyMapFromConfigMap (updateConfigMapData order server policies) = .ok m)
      ∧ ∀ p ∈ policies, isPolicyInConfigMap
        (updateConfigMapData order server policies) p.getUniqueName = true)
      ↔ ∀ p ∈ policies, p.policyGroup = none → p.getModule ≠ "" := by
  constructor
  · rintro ⟨⟨m, hm⟩, -⟩ p hp
    rw [← readable_configEntry_iff (haccepted p hp)]
    by_contra hreadable
    have hentry : ⟨p.getUniqueName, configEntry server p⟩
        ∈ (policiesMap order server policies).entries :=
      mem_lookup_iff.1 (lookup_policiesMap_uniqueName hid hp)
    obtain ⟨msg, hmsg⟩ := getPolicyMap_of_not_readable ⟨_, hentry, hreadable⟩
    exact absurd (hm.symm.trans hmsg) (by simp)
  · intro hmodules
    obtain ⟨m, hm, hnames⟩ := getPolicyMap_of_forall_readable
      (show ∀ e ∈ (policiesMap order server policies).entries, Readable e.2 by
        intro e he
        obtain ⟨p, hp, hentry, -⟩ := exists_of_lookup_policiesMap hid (mem_lookup_iff.2 he)
        rw [← hentry, readable_configEntry_iff (haccepted p hp)]
        exact hmodules p hp)
    refine ⟨⟨m, hm⟩, fun p hp => ?_⟩
    unfold isPolicyInConfigMap
    rw [hm]
    show (m.lookup p.getUniqueName).isSome = true
    rw [hnames, lookup_policiesMap_uniqueName hid hp]
    rfl

theorem round_trip_of_modules :
    let policies := [Policy.created "a" "p" (.ofModule "m"), .created "a" "q" (.ofModule "n")]
    let data := updateConfigMapData .stored (.created "default" none) policies
    isPolicyInConfigMap data "kw.ap.a.p" = true ∧ isPolicyInConfigMap data "kw.ap.a.q" = true := by
  intro policies data
  have hid : Identifiable policies := ⟨by decide, by decide⟩
  have haccepted : ∀ p ∈ policies, validateCreate .lenient p = [] := by decide +kernel
  have hall := ((config_map_round_trip_iff .stored (.created "default" none) hid
    haccepted).2 (by decide)).2
  exact ⟨hall _ List.mem_cons_self, hall _ (List.mem_cons_of_mem _ List.mem_cons_self)⟩

theorem empty_module_hides_others : (∀ p ∈ [Policy.created "a" "p" (.ofModule "m"),
        .created "a" "q" (.ofModule "")], validateCreate .lenient p = [])
      ∧ (∃ msg, getPolicyMapFromConfigMap (updateConfigMapData .stored
        (.created "default" none) [.created "a" "p" (.ofModule "m"),
          .created "a" "q" (.ofModule "")]) = .error msg)
      ∧ isPolicyInConfigMap (updateConfigMapData .stored
        (.created "default" none) [.created "a" "p" (.ofModule "m"),
          .created "a" "q" (.ofModule "")]) "kw.ap.a.p" = false := by
  have hid : Identifiable [.created "a" "p" (.ofModule "m"),
    .created "a" "q" (.ofModule "")] := ⟨by decide, by decide⟩
  have hempty : (Policy.created "a" "q" (.ofModule "")) ∈ [Policy.created "a" "p" (.ofModule "m"),
        .created "a" "q" (.ofModule "")] := by simp
  have hlookup : (policiesMap .stored (.created "default" none) _).lookup
      "kw.ap.a.q" = some (configEntry (.created "default" none)
        (.created "a" "q" (.ofModule ""))) :=
    lookup_policiesMap_uniqueName hid hempty
  obtain ⟨msg, hmsg⟩ := getPolicyMap_of_not_readable
    ⟨_, mem_lookup_iff.1 hlookup, by rintro (h | h) <;> exact h rfl⟩
  refine ⟨by decide +kernel, ⟨msg, hmsg⟩, ?_⟩
  unfold isPolicyInConfigMap
  rw [hmsg]
