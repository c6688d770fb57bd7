import AdmController.Fallible
import AdmController.RustCollections
import AdmController.RustStr

/-!
# Merging the match fields of a policy and its binding

`kwctl scaffold vap` turns a `ValidatingAdmissionPolicy` and its binding into
one `ClusterAdmissionPolicy`. `merge_match_fields` merges their match sets, or
rejects what it cannot represent.
-/

open Fallible List BTreeMap

/-! ## The fields -/

structure LabelSelectorRequirement where
  (key operator : String)
  values : Option (List String)
deriving DecidableEq

structure LabelSelector where
  matchLabels : Option (BTreeMap String String)
  matchExpressions : Option (List LabelSelectorRequirement)

structure NamedRuleWithOperations where
  (apiGroups apiVersions resources operations resourceNames : Option (List String))
  scope : Option String

structure MatchResources where
  (excludeResourceRules resourceRules : Option (List NamedRuleWithOperations))
  matchPolicy : Option String
  (namespaceSelector objectSelector : Option LabelSelector)

inductive Operation where
  | create | update | delete | connect | all
deriving DecidableEq

def Operation.tryFrom (op : String) : Except String Operation :=
  if op = "CREATE" then .ok .create
  else if op = "UPDATE" then .ok .update
  else if op = "DELETE" then .ok .delete
  else if op = "CONNECT" then .ok .connect
  else if op = "*" then .ok .all
  else .error "unknown operation"

inductive Scope where
  | cluster | namespaced | all
deriving DecidableEq

def Scope.tryFrom (scope : String) : Except String Scope :=
  if scope = "Cluster" then .ok .cluster
  else if scope = "Namespaced" then .ok .namespaced
  else if scope = "*" then .ok .all
  else .error "unknown scope"

/-- A rule of a `ClusterAdmissionPolicy`. -/
structure Rule where
  (apiGroups apiVersions resources : List String)
  operations : List Operation
  scope : Option Scope

def scopeOf : Option String → Except String (Option Scope)
  | none => .ok none
  | some scope => (Scope.tryFrom scope).map some

def Rule.tryFrom (rule : NamedRuleWithOperations) : Except String Rule := do
  let operations ← (rule.operations.getD []).mapM Operation.tryFrom
  let scope ← scopeOf rule.scope
  pure
    { apiGroups := rule.apiGroups.getD []
      apiVersions := rule.apiVersions.getD []
      resources := rule.resources.getD []
      operations := operations
      scope := scope }

structure MatchFields where
  rules : List Rule
  matchPolicy : Option String
  (namespaceSelector objectSelector : Option LabelSelector)

/-! ## The merge -/

/-- Why two match sets cannot be merged. -/
inductive MergeError where
  | vapExcludeResourceRules | bindingExcludeResourceRules | bindingResourceRules | vapResourceNames
  | matchPolicy (binding vap : String)
  | labels (field key vap binding : String)
  | objectSelectors
  | rules (e : String)
deriving DecidableEq

def nonEmpty {α : Type} (l : Option (List α)) : Bool := !(l.getD []).isEmpty

variable (s : LabelSelector)

def LabelSelector.labels : List (String × String) := (s.matchLabels.map entries).getD []

def LabelSelector.labelMap : BTreeMap String String := s.matchLabels.getD ⟨[], List.Pairwise.nil⟩

def LabelSelector.expressions : List LabelSelectorRequirement := s.matchExpressions.getD []

def addLabel (field : String) (labels : BTreeMap String String)
    (entry : String × String) : Except MergeError (BTreeMap String String) :=
  match labels.get entry.1 with
  | some vap =>
    if vap = entry.2 then .ok labels
    else .error (.labels field entry.1 vap entry.2)
  | none => .ok (labels.insert entry.1 entry.2)

def andLabelSelectors (field : String) : Option LabelSelector → Option LabelSelector →
      Except MergeError (Option LabelSelector)
  | none, none => .ok none
  | some a, none => .ok (some a)
  | none, some b => .ok (some b)
  | some a, some b => do
    let labels ← b.labels.foldlM (addLabel field) a.labelMap
    let expressions := a.expressions ++ b.expressions
    pure (some
      { matchExpressions := if expressions.isEmpty then none
        else some expressions
        matchLabels := if labels.entries.isEmpty then none
          else some labels })

def LabelSelector.isEmpty : Bool := s.labels.isEmpty && s.expressions.isEmpty

def combineObjectSelectors (vap binding : Option LabelSelector) :
    Except MergeError (Option LabelSelector) :=
  match vap.filter (!·.isEmpty), binding.filter (!·.isEmpty) with
  | some _, some _ => .error .objectSelectors
  | some vap, none => .ok (some vap)
  | none, some binding => .ok (some binding)
  | none, none => .ok none

def checkFields (vap binding : MatchResources) : Except MergeError Unit :=
  if nonEmpty vap.excludeResourceRules then .error .vapExcludeResourceRules
  else if nonEmpty binding.excludeResourceRules then .error .bindingExcludeResourceRules
  else if nonEmpty binding.resourceRules then .error .bindingResourceRules
  else if (vap.resourceRules.getD []).any (nonEmpty ·.resourceNames) then .error .vapResourceNames
  else match binding.matchPolicy with
    | some policy =>
      if policy = vap.matchPolicy.getD "Equivalent" then .ok ()
      else .error (.matchPolicy policy (vap.matchPolicy.getD "Equivalent"))
    | none => .ok ()

/-- `merge_match_fields`. -/
def mergeMatchFields (vap binding : MatchResources) :
    Except MergeError MatchFields := do
  checkFields vap binding
  let namespaceSelector ← andLabelSelectors "namespaceSelector"
    vap.namespaceSelector binding.namespaceSelector
  let objectSelector ← combineObjectSelectors vap.objectSelector binding.objectSelector
  let rules ← ((vap.resourceRules.getD []).mapM Rule.tryFrom).mapError .rules
  pure ⟨rules, vap.matchPolicy, namespaceSelector, objectSelector⟩

/-! ## The semantics of match sets -/

abbrev Labels := String → Option String

def LabelSelectorRequirement.meets (r : LabelSelectorRequirement) (labels : Labels) : Bool :=
  if r.operator = "In" then (labels r.key).any (fun v => (r.values.getD []).contains v)
  else if r.operator = "NotIn" then (labels r.key).all (fun v => !(r.values.getD []).contains v)
  else if r.operator = "Exists" then (labels r.key).isSome
  else if r.operator = "DoesNotExist" then (labels r.key).isNone
  else false

def LabelSelector.matchesLabels (labels : Labels) : Bool :=
  s.labels.all (fun entry => labels entry.1 == some entry.2) && s.expressions.all (·.meets labels)

inductive RequestOperation where
  | create | update | delete | connect
deriving DecidableEq

structure ResourceKind where
  (group version resource subresource : String)

/-- **An admission request**, as far as it is matched. `equivalents` are the
other kinds under which the resource is served; labels and objects are absent
where there are none. -/
structure MatchRequest where
  operation : RequestOperation
  kind : ResourceKind
  equivalents : List ResourceKind
  name : String
  namespaced : Bool
  (namespaceLabels object oldObject : Option Labels)

def hasOrStar (names : List String) (name : String) : Bool :=
  names.contains "*" || names.contains name

def resourceMatches (kind : ResourceKind) (pattern : String) : Bool :=
  match RustStr.splitOnce pattern '/' with
  | some (resource, subresource) =>
    (resource == "*" || resource == kind.resource)
      && (subresource == "*" || subresource == kind.subresource)
  | none => (pattern == "*" || pattern == kind.resource) && kind.subresource == ""

def RequestOperation.name : RequestOperation → String
  | .create => "CREATE"
  | .update => "UPDATE"
  | .delete => "DELETE"
  | .connect => "CONNECT"

def scopeHolds (namespaced : Bool) : Option String → Bool
  | none => true
  | some scope => scope == "*" || (scope == "Namespaced" && namespaced)
      || (scope == "Cluster" && !namespaced)

variable (request : MatchRequest)

def NamedRuleWithOperations.matches (kind : ResourceKind) (rule : NamedRuleWithOperations) : Bool :=
  hasOrStar (rule.operations.getD []) request.operation.name
    && hasOrStar (rule.apiGroups.getD []) kind.group
    && hasOrStar (rule.apiVersions.getD []) kind.version
    && (rule.resources.getD []).any (resourceMatches kind)
    && scopeHolds request.namespaced rule.scope
    && (!nonEmpty rule.resourceNames
      || (rule.resourceNames.getD []).contains request.name)

def Operation.covers (operation : RequestOperation) : Operation → Bool
  | .create => operation == .create
  | .update => operation == .update
  | .delete => operation == .delete
  | .connect => operation == .connect
  | .all => true

def Scope.holds (namespaced : Bool) : Scope → Bool
  | .all => true
  | .namespaced => namespaced
  | .cluster => !namespaced

def Rule.matches (kind : ResourceKind) (rule : Rule) : Bool :=
  rule.operations.any (Operation.covers request.operation) && hasOrStar rule.apiGroups kind.group
    && hasOrStar rule.apiVersions kind.version
    && rule.resources.any (resourceMatches kind)
    && rule.scope.all (Scope.holds request.namespaced)

variable (matchPolicy : Option String)

def MatchRequest.kinds : List ResourceKind :=
  if matchPolicy.getD "Equivalent" = "Exact" then [request.kind]
  else request.kind :: request.equivalents

def selectedByRules (rules : List NamedRuleWithOperations) (request : MatchRequest) : Bool :=
  (request.kinds matchPolicy).any fun kind =>
    rules.any (NamedRuleWithOperations.matches request kind)

def selectsNamespace (s : Option LabelSelector) (request : MatchRequest) : Bool :=
  s.all fun s => request.namespaceLabels.all s.matchesLabels

def selectsObject (s : Option LabelSelector) (request : MatchRequest) : Bool :=
  s.all fun s => s.isEmpty || request.object.any s.matchesLabels
    || request.oldObject.any s.matchesLabels

def MatchResources.admits (m : MatchResources) (request : MatchRequest) : Bool :=
  !selectedByRules m.matchPolicy (m.excludeResourceRules.getD []) request
    && selectsNamespace m.namespaceSelector request
    && selectsObject m.objectSelector request

def MatchResources.constrains (m : MatchResources) (request : MatchRequest) : Bool :=
  selectedByRules m.matchPolicy (m.resourceRules.getD []) request && m.admits request

/-- **The resources of a binding select a request**, with rules if any. -/
def MatchResources.binds (m : MatchResources) (request : MatchRequest) : Bool :=
  (!nonEmpty m.resourceRules
      || selectedByRules m.matchPolicy (m.resourceRules.getD []) request)
    && m.admits request

def MatchFields.selects (m : MatchFields) (request : MatchRequest) : Bool :=
  ((request.kinds m.matchPolicy).any fun kind =>
      m.rules.any (Rule.matches request kind))
    && selectsNamespace m.namespaceSelector request
    && selectsObject m.objectSelector request

/-! ## Labels -/

def Conflict (a b : Option LabelSelector) : Prop :=
  ∃ sa sb key va vb, a = some sa ∧ b = some sb ∧ (key, va) ∈ sa.labels
    ∧ (key, vb) ∈ sb.labels ∧ va ≠ vb

theorem not_conflict_none_left (b : Option LabelSelector) : ¬ Conflict none b := by
  simp [Conflict]

theorem not_conflict_none_right (a : Option LabelSelector) : ¬ Conflict a none := by
  simp [Conflict]

theorem conflict_some_iff {sa sb : LabelSelector} : Conflict (some sa) (some sb)
    ↔ ∃ key va vb, (key, va) ∈ sa.labels ∧ (key, vb) ∈ sb.labels ∧ va ≠ vb := by
  simp [Conflict]

def Asks (m : BTreeMap String String) (labels : Labels) : Prop :=
  ∀ key value, m.get key = some value → labels key = some value

variable {m m' : BTreeMap String String} {field : String} {entry : String × String}

theorem asks_addLabel (h : addLabel field m entry = .ok m') (labels : Labels) :
    Asks m' labels ↔ Asks m labels ∧ labels entry.1 = some entry.2 := by
  unfold addLabel at h
  split at h
  case h_1 vap hvap =>
    split at h
    case isTrue heq =>
      cases h
      exact ⟨fun hm => ⟨hm, hm _ _ (heq ▸ hvap)⟩, And.left⟩
    case isFalse => cases h
  case h_2 hnone =>
    cases h
    unfold Asks
    simp only [get_insert]
    constructor
    · intro hm
      refine ⟨fun key value hkey => hm key value ?_, hm _ _ (if_pos rfl)⟩
      have hne : key ≠ entry.1 := by
        rintro rfl
        rw [hnone] at hkey
        cases hkey
      rw [if_neg hne]
      exact hkey
    · rintro ⟨hm, hentry⟩ key value hkey
      split at hkey
      case isTrue heq =>
        rw [heq, hentry]
        exact hkey
      case isFalse => exact hm key value hkey

variable {entries : List (String × String)}

theorem asks_foldlM_addLabel (h : entries.foldlM (addLabel field) m = .ok m') (labels : Labels) :
    Asks m' labels ↔ Asks m labels ∧ ∀ entry ∈ entries, labels entry.1 = some entry.2 := by
  induction entries generalizing m with
  | nil =>
    cases h
    simp
  | cons entry rest ih =>
    rw [foldlM_cons] at h
    obtain ⟨m₁, hadd, hrest⟩ := bind_eq_ok.mp h
    rw [ih hrest, asks_addLabel hadd, forall_mem_cons, and_assoc]

variable {e : MergeError}

theorem addLabel_eq_error : addLabel field m entry = .error e
    ↔ ∃ vap, m.get entry.1 = some vap ∧ vap ≠ entry.2 ∧ e = .labels field entry.1 vap entry.2 := by
  unfold addLabel
  cases hget : m.get entry.1 with
  | none => simp
  | some vap =>
    by_cases heq : vap = entry.2
    · simp [heq]
    · simp [heq, eq_comm]

theorem get_addLabel_of_ne (h : addLabel field m entry = .ok m') {key : String}
    (hne : key ≠ entry.1) : m'.get key = m.get key := by
  unfold addLabel at h
  split at h
  · split at h
    · cases h
      rfl
    · cases h
  · cases h
    rw [get_insert, if_neg hne]

theorem foldlM_addLabel_eq_error (hsorted : entries.Pairwise (fun a b => a.1 < b.1)) :
    (∃ e, entries.foldlM (addLabel field) m = .error e)
      ↔ ∃ entry ∈ entries, ∃ vap, m.get entry.1 = some vap ∧ vap ≠ entry.2 := by
  induction entries generalizing m with
  | nil => simp [pure, Except.pure]
  | cons entry rest ih =>
    obtain ⟨hhead, hrest⟩ := pairwise_cons.mp hsorted
    rw [foldlM_cons]
    cases hadd : addLabel field m entry with
    | error e =>
      obtain ⟨vap, hvap, hne, -⟩ := addLabel_eq_error.mp hadd
      exact iff_of_true ⟨e, rfl⟩ ⟨entry, mem_cons_self, vap, hvap, hne⟩
    | ok m₁ =>
      have hfine : ¬ ∃ vap, m.get entry.1 = some vap ∧ vap ≠ entry.2 := by
        rintro ⟨vap, hvap, hne⟩
        rw [addLabel_eq_error.mpr ⟨vap, hvap, hne, rfl⟩] at hadd
        cases hadd
      have hsame : ∀ entry' ∈ rest, m₁.get entry'.1 = m.get entry'.1 :=
        fun entry' hmem => get_addLabel_of_ne hadd (ne_of_gt (hhead _ hmem))
      show (∃ e, rest.foldlM (addLabel field) m₁ = .error e) ↔ _
      rw [ih hrest]
      constructor
      · rintro ⟨entry', hmem, vap, hvap, hne⟩
        rw [hsame entry' hmem] at hvap
        exact ⟨entry', mem_cons_of_mem _ hmem, vap, hvap, hne⟩
      · rintro ⟨entry', hmem, vap, hvap, hne⟩
        rcases mem_cons.mp hmem with rfl | hmem
        · exact absurd ⟨vap, hvap, hne⟩ hfine
        · refine ⟨entry', hmem, vap, ?_, hne⟩
          rw [hsame entry' hmem]
          exact hvap

theorem foldlM_addLabel_error (h : entries.foldlM (addLabel field) m = .error e) :
    ∃ key vap binding, e = .labels field key vap binding := by
  obtain ⟨entry, -, m₁, herror⟩ := exists_of_foldlM_eq_error h
  obtain ⟨vap, -, -, rfl⟩ := addLabel_eq_error.mp herror
  exact ⟨entry.1, vap, entry.2, rfl⟩

/-! ## Selectors -/

theorem LabelSelector.entries_labelMap : s.labelMap.entries = s.labels := by
  unfold labelMap labels
  cases s.matchLabels <;> rfl

theorem asks_iff (m : BTreeMap String String) (labels : Labels) :
    Asks m labels ↔ ∀ entry ∈ m.entries, labels entry.1 = some entry.2 := by
  constructor
  · intro h entry hmem
    exact h entry.1 entry.2 (mem_entries_iff.mp hmem)
  · intro h key value hget
    exact h (key, value) (mem_entries_iff.mpr hget)

theorem LabelSelector.matchesLabels_iff (labels : Labels) :
    s.matchesLabels labels = true ↔ (∀ entry ∈ s.labels, labels entry.1 = some entry.2)
      ∧ ∀ r ∈ s.expressions, r.meets labels = true := by
  simp [matchesLabels]

open LabelSelector MatchResources

theorem LabelSelector.matchesLabels_mk (m : BTreeMap String String)
    (expressions : List LabelSelectorRequirement) (labels : Labels) :
    LabelSelector.matchesLabels ⟨if m.entries.isEmpty then none else some m,
          if expressions.isEmpty then none else some expressions⟩ labels = true
      ↔ Asks m labels ∧ ∀ r ∈ expressions, r.meets labels = true := by
  have hlabels : LabelSelector.labels ⟨if m.entries.isEmpty then none else some m,
        if expressions.isEmpty then none else some expressions⟩
      = m.entries := by
    split
    case isTrue h => exact (isEmpty_iff.mp h).symm
    case isFalse => rfl
  have hexpressions : LabelSelector.expressions ⟨if m.entries.isEmpty then none else some m,
        if expressions.isEmpty then none else some expressions⟩
      = expressions := by
    show (if expressions.isEmpty then none else some expressions).getD [] = expressions
    split
    case isTrue h => exact (isEmpty_iff.mp h).symm
    case isFalse => rfl
  rw [matchesLabels_iff, hlabels, hexpressions, asks_iff]

variable {a b s : Option LabelSelector}

theorem andLabelSelectors_matches (h : andLabelSelectors field a b = .ok s) (labels : Labels) :
    s.all (·.matchesLabels labels) = true ↔ a.all (·.matchesLabels labels) = true
      ∧ b.all (·.matchesLabels labels) = true := by
  unfold andLabelSelectors at h
  split at h
  case h_4 sa sb =>
    obtain ⟨m, hm, hs⟩ := bind_eq_ok.mp h
    cases hs
    show matchesLabels _ labels = true
      ↔ sa.matchesLabels labels = true ∧ sb.matchesLabels labels = true
    rw [matchesLabels_mk, asks_foldlM_addLabel hm, asks_iff, entries_labelMap, matchesLabels_iff,
      matchesLabels_iff, forall_mem_append]
    exact and_and_and_comm
  all_goals
    cases h
    simp

theorem LabelSelector.sorted_labels (s : LabelSelector) :
    s.labels.Pairwise (fun a b => a.1 < b.1) := by
  rw [← s.entries_labelMap]
  exact s.labelMap.sorted

theorem LabelSelector.get_labelMap {s : LabelSelector} {key value : String} :
    s.labelMap.get key = some value ↔ (key, value) ∈ s.labels := by
  rw [← s.entries_labelMap]
  exact mem_entries_iff.symm

theorem andLabelSelectors_eq_error :
    (∃ e, andLabelSelectors field a b = .error e) ↔ Conflict a b := by
  cases a with
  | none =>
    refine iff_of_false ?_ (not_conflict_none_left b)
    cases b <;> simp [andLabelSelectors]
  | some sa =>
    cases b with
    | none =>
      refine iff_of_false ?_ (not_conflict_none_right (some sa))
      simp [andLabelSelectors]
    | some sb =>
      have hfold : ∀ e, andLabelSelectors field (some sa) (some sb) = .error e
          ↔ sb.labels.foldlM (addLabel field) sa.labelMap = .error e := by
        intro e
        show (_ >>= _) = _ ↔ _
        rw [bind_eq_error]
        exact or_iff_left (by simp [pure, Except.pure])
      simp only [hfold]
      rw [foldlM_addLabel_eq_error sb.sorted_labels, conflict_some_iff]
      simp only [get_labelMap]
      constructor
      · rintro ⟨entry, hvb, va, hva, hne⟩
        exact ⟨entry.1, va, entry.2, hva, hvb, hne⟩
      · rintro ⟨key, va, vb, hva, hvb, hne⟩
        exact ⟨(key, vb), hvb, va, hva, hne⟩

theorem andLabelSelectors_error (h : andLabelSelectors field a b = .error e) :
    ∃ key vap binding, e = .labels field key vap binding := by
  unfold andLabelSelectors at h
  split at h
  case h_4 sa sb =>
    rcases bind_eq_error.mp h with hfold | ⟨m, -, hpure⟩
    · exact foldlM_addLabel_error hfold
    · cases hpure
  all_goals cases h

theorem selectsObject_filter (s : Option LabelSelector) (request : MatchRequest) :
    selectsObject (s.filter (!·.isEmpty)) request = selectsObject s request := by
  cases s with
  | none => rfl
  | some s =>
    by_cases h : s.isEmpty
    · simp [selectsObject, Option.filter, h]
    · simp [selectsObject, Option.filter, h]

theorem combineObjectSelectors_selects {vap binding : Option LabelSelector}
    (h : combineObjectSelectors vap binding = .ok s) (request : MatchRequest) :
    selectsObject s request = (selectsObject vap request && selectsObject binding request) := by
  rw [← selectsObject_filter vap, ← selectsObject_filter binding]
  unfold combineObjectSelectors at h
  split at h
  case h_1 => cases h
  case h_2 sv hv hb =>
    cases h
    rw [hv, hb]
    simp [selectsObject]
  case h_3 sb hv hb =>
    cases h
    rw [hv, hb]
    simp [selectsObject]
  case h_4 hv hb =>
    cases h
    rw [hv, hb]
    simp [selectsObject]

theorem combineObjectSelectors_of_conflict {vap binding : Option LabelSelector}
    (h : Conflict vap binding) :
    combineObjectSelectors vap binding = .error .objectSelectors := by
  obtain ⟨sv, sb, key, va, vb, rfl, rfl, hva, hvb, -⟩ := h
  have hnonEmpty : ∀ {s : LabelSelector} {entry : String × String},
      entry ∈ s.labels → s.isEmpty = false := by
    intro s entry hmem
    cases hlabels : s.labels with
    | nil =>
      rw [hlabels] at hmem
      cases hmem
    | cons entry' rest => simp [LabelSelector.isEmpty, hlabels]
  simp [combineObjectSelectors, Option.filter, hnonEmpty hva, hnonEmpty hvb]

/-! ## Rules -/

theorem Operation.covers_of_tryFrom {op : String} {o : Operation}
    (h : Operation.tryFrom op = .ok o) (operation : RequestOperation) :
    o.covers operation = (op == "*" || op == operation.name) := by
  unfold Operation.tryFrom at h
  split_ifs at h with hop hop hop hop hop <;> (cases h; subst hop; cases operation <;> decide)

theorem hasOrStar_eq_any (names : List String) (name : String) :
    hasOrStar names name = names.any (fun n => n == "*" || n == name) := by
  rw [Bool.eq_iff_iff]
  simp only [hasOrStar, Bool.or_eq_true, contains_iff_mem, any_eq_true, beq_iff_eq]
  constructor
  · rintro (hstar | hname)
    · exact ⟨"*", hstar, .inl rfl⟩
    · exact ⟨name, hname, .inr rfl⟩
  · rintro ⟨n, hmem, rfl | rfl⟩
    · exact .inl hmem
    · exact .inr hmem

theorem all_holds_of_scopeOf {scope : Option String} {s : Option Scope}
    (h : scopeOf scope = .ok s) (namespaced : Bool) :
    s.all (Scope.holds namespaced) = scopeHolds namespaced scope := by
  cases scope with
  | none =>
    cases h
    rfl
  | some scope =>
    obtain ⟨s', hs', rfl⟩ := map_eq_ok.mp h
    unfold Scope.tryFrom at hs'
    split_ifs at hs' with hscope hscope hscope <;>
      (cases hs'; subst hscope; cases namespaced <;> decide)

theorem Rule.matches_of_tryFrom {rule : NamedRuleWithOperations} {r : Rule}
    (h : Rule.tryFrom rule = .ok r)
    (hnames : nonEmpty rule.resourceNames = false) (request : MatchRequest)
    (kind : ResourceKind) : r.matches request kind = rule.matches request kind := by
  obtain ⟨operations, hoperations, h⟩ := bind_eq_ok.mp h
  obtain ⟨scope, hscope, h⟩ := bind_eq_ok.mp h
  cases h
  have hcovers : operations.any (Operation.covers request.operation)
      = hasOrStar (rule.operations.getD []) request.operation.name := by
    rw [hasOrStar_eq_any]
    exact any_of_mapM_eq_ok (fun op _ o ho => Operation.covers_of_tryFrom ho request.operation)
      hoperations
  unfold Rule.matches NamedRuleWithOperations.matches
  rw [all_holds_of_scopeOf hscope, hcovers, hnames]
  simp

variable {binding vap : MatchResources}

/-! ## The merged fields -/

theorem checkFields_eq_ok (h : checkFields vap binding = .ok ()) :
    vap.excludeResourceRules.getD [] = [] ∧ binding.excludeResourceRules.getD [] = []
      ∧ nonEmpty binding.resourceRules = false
      ∧ ∀ rule ∈ vap.resourceRules.getD [], nonEmpty rule.resourceNames = false := by
  unfold checkFields at h
  split_ifs at h with hvap hbinding hrules hnames
  refine ⟨?_, ?_, Bool.eq_false_iff.mpr hrules, fun rule hmem => ?_⟩
  · simpa [nonEmpty] using hvap
  · simpa [nonEmpty] using hbinding
  · by_contra hne
    exact hnames (any_eq_true.mpr ⟨rule, hmem, Bool.not_eq_false _ ▸ hne⟩)

theorem of_mergeMatchFields_eq_ok {fields : MatchFields}
    (h : mergeMatchFields vap binding = .ok fields) :
    checkFields vap binding = .ok () ∧ andLabelSelectors "namespaceSelector" vap.namespaceSelector
          binding.namespaceSelector = .ok fields.namespaceSelector
      ∧ combineObjectSelectors vap.objectSelector binding.objectSelector = .ok fields.objectSelector
      ∧ (vap.resourceRules.getD []).mapM Rule.tryFrom = .ok fields.rules
      ∧ fields.matchPolicy = vap.matchPolicy := by
  obtain ⟨_, hcheck, h⟩ := bind_eq_ok.mp h
  obtain ⟨namespaceSelector, hnamespace, h⟩ := bind_eq_ok.mp h
  obtain ⟨objectSelector, hobject, h⟩ := bind_eq_ok.mp h
  obtain ⟨rules, hrules, h⟩ := bind_eq_ok.mp h
  cases h
  exact ⟨hcheck, hnamespace, hobject, mapError_eq_ok.mp hrules, rfl⟩

theorem any_matches_of_mapM {rules : List NamedRuleWithOperations}
    {merged : List Rule} (h : rules.mapM Rule.tryFrom = .ok merged)
    (hnames : ∀ rule ∈ rules, nonEmpty rule.resourceNames = false)
    (matchPolicy : Option String) (request : MatchRequest) :
    ((request.kinds matchPolicy).any fun kind =>
        merged.any (Rule.matches request kind))
      = selectedByRules matchPolicy rules request := by
  congr 1
  funext kind
  exact any_of_mapM_eq_ok (fun rule hmem r hr =>
      Rule.matches_of_tryFrom hr (hnames rule hmem) request kind) h

theorem selectsNamespace_of_andLabelSelectors
    (h : andLabelSelectors field a b = .ok s) (request : MatchRequest) :
    selectsNamespace s request = (selectsNamespace a request && selectsNamespace b request) := by
  unfold selectsNamespace
  cases request.namespaceLabels with
  | none => cases a <;> cases b <;> cases s <;> rfl
  | some labels =>
    rw [Bool.eq_iff_iff, Bool.and_eq_true]
    exact andLabelSelectors_matches h labels

theorem selectedByRules_nil (request : MatchRequest) :
    selectedByRules matchPolicy [] request = false := by
  simp [selectedByRules]

theorem selects_of_mergeMatchFields {fields : MatchFields}
    (h : mergeMatchFields vap binding = .ok fields) (request : MatchRequest) :
    fields.selects request = (vap.constrains request && binding.binds request) := by
  obtain ⟨hcheck, hnamespace, hobject, hrules, hpolicy⟩ := of_mergeMatchFields_eq_ok h
  obtain ⟨hvap, hbinding, hnone, hnames⟩ := checkFields_eq_ok hcheck
  unfold MatchFields.selects constrains binds admits
  rw [hpolicy, any_matches_of_mapM hrules hnames, selectsNamespace_of_andLabelSelectors hnamespace,
    combineObjectSelectors_selects hobject, hvap, hbinding, hnone,
    selectedByRules_nil, selectedByRules_nil]
  -- what is left only regroups the two halves of each selector
  simp only [Bool.not_false, Bool.true_and, Bool.true_or]
  ac_rfl

theorem checkFields_ne_labels (vap binding : MatchResources) (field key a b : String) :
    checkFields vap binding ≠ .error (.labels field key a b) := by
  unfold checkFields
  intro h
  split_ifs at h
  case neg =>
    split at h
    · split_ifs at h
      cases h
    · cases h
  all_goals cases h

theorem combineObjectSelectors_ne_labels (vap binding : Option LabelSelector)
    (field key a b : String) :
    combineObjectSelectors vap binding ≠ .error (.labels field key a b) := by
  unfold combineObjectSelectors
  split <;> simp

theorem mergeMatchFields_eq_labels : (∃ field key a b,
      mergeMatchFields vap binding = .error (.labels field key a b))
    ↔ checkFields vap binding = .ok ()
      ∧ Conflict vap.namespaceSelector binding.namespaceSelector := by
  constructor
  · rintro ⟨field, key, a, b, h⟩
    rcases bind_eq_error.mp h with h | ⟨_, hcheck, h⟩
    · exact absurd h (checkFields_ne_labels _ _ _ _ _ _)
    refine ⟨hcheck, ?_⟩
    rcases bind_eq_error.mp h with h | ⟨_, -, h⟩
    · exact andLabelSelectors_eq_error.mp ⟨_, h⟩
    rcases bind_eq_error.mp h with h | ⟨_, -, h⟩
    · exact absurd h (combineObjectSelectors_ne_labels _ _ _ _ _ _)
    rcases bind_eq_error.mp h with h | ⟨_, -, h⟩
    · obtain ⟨e, -, he⟩ := mapError_eq_error.mp h
      cases he
    · cases h
  · rintro ⟨hcheck, hconflict⟩
    obtain ⟨e, he⟩ := andLabelSelectors_eq_error.mpr hconflict
    obtain ⟨key, a, b, rfl⟩ := andLabelSelectors_error he
    refine ⟨"namespaceSelector", key, a, b, ?_⟩
    unfold mergeMatchFields
    rw [hcheck, he]
    rfl

theorem mergeMatchFields_of_conflict (h : Conflict vap.namespaceSelector
      binding.namespaceSelector ∨ Conflict vap.objectSelector
      binding.objectSelector) :
    ∃ e, mergeMatchFields vap binding = .error e := by
  cases hmerge : mergeMatchFields vap binding with
  | error e => exact ⟨e, rfl⟩
  | ok fields =>
    obtain ⟨-, hnamespace, hobject, -⟩ := of_mergeMatchFields_eq_ok hmerge
    rcases h with h | h
    · obtain ⟨e, he⟩ := andLabelSelectors_eq_error.mpr h
      rw [hnamespace] at he
      cases he
    · rw [combineObjectSelectors_of_conflict h] at hobject
      cases hobject

/-- **Merged fields select a request exactly if the policy and the binding both
do.** The two selectors for namespaces, the only ones that are merged, fail to
merge exactly if they ask for different values of one label; a pair whose labels
conflict is never merged. -/
theorem mergeMatchFields_selects_iff (vap binding : MatchResources) :
    (∀ fields, mergeMatchFields vap binding = .ok fields → ∀ request, (fields.selects request = true
          ↔ vap.constrains request = true ∧ binding.binds request = true))
      ∧ ((∃ e, andLabelSelectors "namespaceSelector" vap.namespaceSelector
            binding.namespaceSelector = .error e)
          ↔ Conflict vap.namespaceSelector binding.namespaceSelector)
      ∧ ((∃ field key a b, mergeMatchFields vap binding = .error (.labels field key a b))
          ↔ checkFields vap binding = .ok ()
            ∧ Conflict vap.namespaceSelector binding.namespaceSelector)
      ∧ (Conflict vap.namespaceSelector binding.namespaceSelector
            ∨ Conflict vap.objectSelector binding.objectSelector →
          ∃ e, mergeMatchFields vap binding = .error e) := by
  refine ⟨?_, andLabelSelectors_eq_error, mergeMatchFields_eq_labels, mergeMatchFields_of_conflict⟩
  intro fields h request
  rw [selects_of_mergeMatchFields h, Bool.and_eq_true]

def teamPods : MatchResources :=
  { excludeResourceRules := none
    resourceRules := some
      [{ apiGroups := some [""]
         apiVersions := some ["v1"]
         resources := some ["pods"]
         operations := some ["CREATE"]
         resourceNames := none
         scope := some "Namespaced" }]
    matchPolicy := none
    namespaceSelector := some ⟨some ⟨[("team", "a")], by simp⟩, none⟩
    objectSelector := none }

def production : MatchResources :=
  { excludeResourceRules := none
    resourceRules := none
    matchPolicy := some "Equivalent"
    namespaceSelector := some ⟨some ⟨[("env", "prod")], by simp⟩, none⟩
    objectSelector := some ⟨some ⟨[("tier", "db")], by simp⟩, none⟩ }

theorem mergeMatchFields_teamPods_production :
    ∃ fields, mergeMatchFields teamPods production = .ok fields
      ∧ ∀ request, (fields.selects request = true ↔ teamPods.constrains request = true
        ∧ production.binds request = true) :=
  ⟨_, rfl, (mergeMatchFields_selects_iff teamPods production).1 _ rfl⟩
