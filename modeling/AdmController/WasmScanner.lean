import AdmController.CapabilityGrants

/-!
# Host capabilities in the data of a module

kwctl guesses which host capabilities a module uses from the names in its data
segments, joined with a separator byte. A name inside a longer one does not
count; no operation begins two others, so one check for each longer name is
enough.
-/

namespace WasmScanner

open List RustStr HostCapabilities

/-- The first place of a text, as `memmem::find` finds it. -/
def find (needle : List UInt8) : List UInt8 → Option ℕ
  | [] => if needle = [] then some 0 else none
  | b :: data => if needle <+: b :: data then some 0 else (find needle data).map (· + 1)

variable {needle data : List UInt8}

/-! ## Searching -/

theorem find_eq_some {pos : ℕ} (h : find needle data = some pos) :
    pos ≤ data.length ∧ needle <+: data.drop pos ∧ ∀ i < pos, ¬needle <+: data.drop i := by
  induction data generalizing pos with
  | nil =>
    rw [find] at h
    split at h
    · next hn => cases h; simp [hn]
    · cases h
  | cons b data ih =>
    rw [find] at h
    split at h
    · next hn =>
      cases h
      exact ⟨Nat.zero_le _, hn, nofun⟩
    · next hn =>
      obtain ⟨pos, hpos, rfl⟩ := Option.map_eq_some_iff.1 h
      obtain ⟨hle, hfound, hbefore⟩ := ih hpos
      refine ⟨Nat.succ_le_succ hle, hfound, fun i hi => ?_⟩
      cases i with
      | zero => exact hn
      | succ i => exact hbefore i (Nat.lt_of_succ_lt_succ hi)

theorem find_eq_none (h : find needle data = none) : ∀ t, t <:+ data → ¬needle <+: t := by
  induction data with
  | nil =>
    rintro t ht hn
    obtain rfl := suffix_nil.1 ht
    simp [find, prefix_nil.1 hn] at h
  | cons b data ih =>
    rw [find] at h
    split at h
    · cases h
    · next hn =>
      intro t ht
      rcases suffix_cons_iff.1 ht with rfl | ht
      · exact hn
      · exact ih (Option.map_eq_none_iff.1 h) t ht

/-- **`has_standalone_match`**: each turn goes on after the last match. -/
def hasStandaloneMatch (needle longer data : List UInt8) : Bool :=
  match _h : find needle data with
  | none => false
  | some pos =>
    if ¬longer <+: data.drop pos then true
    else if hdata : pos < data.length then hasStandaloneMatch needle longer (data.drop (pos + 1))
    else false
termination_by data.length
decreasing_by simp only [length_drop]; omega

def isOperationPresent (data : List UInt8) (inNamespace operation : String)
    (longerSiblings : List String) : Bool :=
  if (find (intoBytes inNamespace) data).isNone then false
  else if longerSiblings.isEmpty then (find (intoBytes operation) data).isSome
  else longerSiblings.all fun longer =>
    hasStandaloneMatch (intoBytes operation) (intoBytes longer) data

/-! ## The scanner -/

/-- The operations that begin with another one. -/
def longerSiblings (operation : String) : List String :=
  (enumerateOperations.map Prod.snd).filter fun other =>
    other ≠ operation && startsWith other operation

/-- The data segments, each followed by the separator. -/
def allData (segments : List (List UInt8)) : List UInt8 :=
  segments.flatMap fun segment => segment ++ [0xFF]

/-- **`scan`**, for the data segments of a module. -/
def scan (segments : List (List UInt8)) : List (String × String) :=
  enumerateOperations.filter fun (inNamespace, operation) =>
    isOperationPresent (allData segments) inNamespace operation (longerSiblings operation)

theorem find_isSome_iff : (find needle data).isSome = true ↔ ∃ t, t <:+ data ∧ needle <+: t := by
  cases h : find needle data with
  | none => simpa using find_eq_none h
  | some pos => exact iff_of_true rfl ⟨_, drop_suffix _ _, (find_eq_some h).2.1⟩

/-! ## What is found -/

/-- **The loop finds a place where the longer text does not begin**, if any. -/
theorem hasStandaloneMatch_iff {needle longer : List UInt8} (hlonger : longer ≠ [])
    (data : List UInt8) : hasStandaloneMatch needle longer data = true
      ↔ ∃ t, t <:+ data ∧ needle <+: t ∧ ¬longer <+: t := by
  fun_induction hasStandaloneMatch needle longer data with
  | case1 data h => simpa using fun t ht hn => absurd hn (find_eq_none h t ht)
  | case2 data pos h hstandalone =>
    exact iff_of_true rfl ⟨_, drop_suffix _ _, (find_eq_some h).2.1, hstandalone⟩
  | case3 data pos h hlong hpos ih =>
    refine ih.trans ⟨fun ⟨t, ht, hn⟩ => ⟨t, ht.trans (drop_suffix _ _), hn⟩, ?_⟩
    rintro ⟨t, ht, hn, hl⟩
    obtain ⟨i, rfl⟩ : ∃ i, t = data.drop i := ⟨_, suffix_iff_eq_drop.1 ht⟩
    refine ⟨_, ?_, hn, hl⟩
    have hi : pos < i := by
      by_contra hle
      rcases Nat.lt_or_eq_of_le (Nat.le_of_not_lt hle) with hlt | rfl
      · exact (find_eq_some h).2.2 i hlt hn
      · exact hlong (by simpa using hl)
    exact drop_suffix_drop_left data hi
  | case4 data pos h hlong hpos =>
    -- at the end of the data nothing but the empty text begins
    have hend : data.drop pos = [] := drop_eq_nil_of_le (Nat.le_of_not_lt hpos)
    rw [hend] at hlong
    exact absurd (prefix_nil.1 (by simpa using hlong)) hlonger

/-- A text without a byte begins before the byte iff it begins at all. -/
theorem prefix_append_cons_iff {needle t rest : List UInt8} {b : UInt8} (hb : b ∉ needle) :
    needle <+: t ++ b :: rest ↔ needle <+: t := by
  refine ⟨fun h => ?_, fun h => h.trans (prefix_append t _)⟩
  rcases prefix_or_prefix_of_prefix h (prefix_append t (b :: rest)) with h' | ⟨u, rfl⟩
  · exact h'
  · rw [prefix_append_right_inj] at h
    cases u with
    | nil => simp
    | cons c u =>
      obtain ⟨rfl, -⟩ := cons_prefix_cons.1 h
      simp at hb

theorem suffix_append_iff {t l₁ l₂ : List UInt8} :
    t <:+ l₁ ++ l₂ ↔ (∃ u, u <:+ l₁ ∧ t = u ++ l₂) ∨ t <:+ l₂ := by
  constructor
  · rintro ⟨p, hp⟩
    rcases append_eq_append_iff.1 hp with ⟨a, rfl, rfl⟩ | ⟨a, rfl, rfl⟩
    · exact .inl ⟨a, suffix_append _ _, rfl⟩
    · exact .inr (suffix_append _ _)
  · rintro (⟨u, hu, rfl⟩ | h)
    · exact (suffix_append_inj_of_length_eq rfl).2 ⟨hu, rfl⟩
    · exact h.trans (suffix_append _ _)

/-- **What separators cannot be part of is in one segment.** -/
theorem exists_suffix_allData {P : List UInt8 → Prop} (hnil : ¬P [])
    (hsep : ∀ t rest, P (t ++ 0xFF :: rest) ↔ P t) (segments : List (List UInt8)) :
    (∃ t, t <:+ allData segments ∧ P t) ↔ ∃ segment ∈ segments, ∃ t, t <:+ segment ∧ P t := by
  induction segments with
  | nil => simpa [allData] using hnil
  | cons segment segments ih =>
    have hdata : allData (segment :: segments) = segment ++ 0xFF :: allData segments := by
      simp [allData]
    simp only [mem_cons, exists_eq_or_imp]
    rw [← ih, hdata]
    constructor
    · rintro ⟨t, ht, hp⟩
      rcases suffix_append_iff.1 ht with ⟨u, hu, rfl⟩ | ht
      · exact .inl ⟨u, hu, (hsep u _).1 hp⟩
      · rcases suffix_cons_iff.1 ht with rfl | ht
        · exact absurd ((hsep [] _).1 hp) hnil
        · exact .inr ⟨t, ht, hp⟩
    · rintro (⟨u, hu, hp⟩ | ⟨t, ht, hp⟩)
      · exact ⟨_, suffix_append_iff.2 (.inl ⟨u, hu, rfl⟩), (hsep u _).2 hp⟩
      · exact ⟨t, suffix_append_iff.2 (.inr (ht.trans (suffix_cons _ _))), hp⟩

variable {op : String × String}

theorem mem_enumerateOperations_iff_walk :
    op ∈ enumerateOperations ↔ op ∈ walkChildren [] capabilityTree := by
  rw [enumerateOperations, mem_mergeSort]

/-- Names are not empty and have no separator in them. -/
theorem plain_of_mem (h : op ∈ enumerateOperations) : (intoBytes op.1 ≠ [] ∧ 0xFF ∉ intoBytes op.1)
    ∧ intoBytes op.2 ≠ [] ∧ 0xFF ∉ intoBytes op.2 := by
  rw [mem_enumerateOperations_iff_walk] at h
  revert op
  decide +kernel

/-- No operation begins two others. -/
theorem longerSiblings_subsingleton (h : op ∈ enumerateOperations)
    {a b : String} (ha : a ∈ longerSiblings op.2) (hb : b ∈ longerSiblings op.2) : a = b := by
  have htable : ∀ op ∈ walkChildren [] capabilityTree, ∀ a ∈ walkChildren [] capabilityTree,
      ∀ b ∈ walkChildren [] capabilityTree, a.2 ≠ op.2 ∧ startsWith a.2 op.2 = true →
        b.2 ≠ op.2 ∧ startsWith b.2 op.2 = true → a.2 = b.2 := by
    decide +kernel
  simp only [longerSiblings, mem_filter, mem_map, Bool.and_eq_true, decide_eq_true_eq] at ha hb
  obtain ⟨⟨a, ha, rfl⟩, ha'⟩ := ha
  obtain ⟨⟨b, hb, rfl⟩, hb'⟩ := hb
  rw [mem_enumerateOperations_iff_walk] at h ha hb
  exact htable op h a ha b hb ha' hb'

theorem isOperationPresent_iff (h : op ∈ enumerateOperations)
    (data : List UInt8) : isOperationPresent data op.1 op.2 (longerSiblings op.2) = true
      ↔ (∃ t, t <:+ data ∧ intoBytes op.1 <+: t) ∧ ∃ t, t <:+ data ∧ intoBytes op.2 <+: t
        ∧ ∀ longer ∈ longerSiblings op.2, ¬intoBytes longer <+: t := by
  have hlonger : ∀ longer ∈ longerSiblings op.2, intoBytes longer ≠ [] := by
    intro longer hl
    obtain ⟨op', hop', rfl⟩ := mem_map.1 (mem_filter.1 hl).1
    exact (plain_of_mem hop').2.1
  have hone := @longerSiblings_subsingleton op h
  rw [← find_isSome_iff, isOperationPresent]
  cases hfind : find (intoBytes op.1) data with
  | none => simp
  | some pos =>
    rcases hs : longerSiblings op.2 with _ | ⟨a, as⟩
    · simp [find_isSome_iff]
    · rw [hs] at hone hlonger
      have has : ∀ b ∈ a :: as, b = a := fun b hb => hone hb mem_cons_self
      have hall : ∀ p : String → Prop, (∀ b ∈ a :: as, p b) ↔ p a :=
        fun p => ⟨fun h => h a mem_cons_self, fun h b hb => has b hb ▸ h⟩
      simp only [Option.isNone_some, Bool.false_eq_true, if_false, isEmpty_cons, all_eq_true, hall,
        hasStandaloneMatch_iff (hlonger a mem_cons_self), Option.isSome_some, true_and]

/-- **What the scanner reports.** An operation is reported, once, iff its
namespace is in one data segment and its name is in one, at a place where no
longer name begins. -/
theorem scan_reports_iff (segments : List (List UInt8)) :
    (∀ inNamespace operation, (inNamespace, operation) ∈ scan segments
      ↔ (inNamespace, operation) ∈ enumerateOperations
        ∧ (∃ segment ∈ segments, ∃ before after, segment = before ++ intoBytes inNamespace ++ after)
        ∧ ∃ segment ∈ segments, ∃ before after, segment = before ++ (intoBytes operation ++ after)
          ∧ ∀ op ∈ enumerateOperations, op.2 ≠ operation → startsWith op.2 operation = true →
            ¬intoBytes op.2 <+: intoBytes operation ++ after)
      ∧ (scan segments).Nodup := by
  have hplace : ∀ (needle segment : List UInt8) (Q : List UInt8 → Prop),
      (∃ t, t <:+ segment ∧ needle <+: t ∧ Q t)
        ↔ ∃ before after, segment = before ++ (needle ++ after) ∧ Q (needle ++ after) := by
    intro needle segment Q
    constructor
    · rintro ⟨_, ⟨before, rfl⟩, ⟨after, rfl⟩, hQ⟩
      exact ⟨before, after, rfl, hQ⟩
    · rintro ⟨before, after, rfl, hQ⟩
      exact ⟨_, suffix_append _ _, prefix_append _ _, hQ⟩
  refine ⟨fun inNamespace operation => ?_, ?_⟩
  · rw [scan, mem_filter]
    refine and_congr_right fun hop => ?_
    obtain ⟨⟨hns, hnsff⟩, hne, hff⟩ := plain_of_mem hop
    refine (isOperationPresent_iff hop _).trans (and_congr ?_ ?_)
    · rw [exists_suffix_allData (by simpa using hns) fun t rest => prefix_append_cons_iff hnsff]
      simpa using exists_congr fun segment => and_congr_right fun _ =>
        hplace (intoBytes inNamespace) segment fun _ => True
    · rw [exists_suffix_allData (by simp [hne])]
      · refine exists_congr fun segment => and_congr_right fun _ => (hplace _ segment _).trans ?_
        simp only [longerSiblings, mem_filter, mem_map, Bool.and_eq_true, decide_eq_true_eq,
          and_imp, forall_exists_index, forall_apply_eq_imp_iff₂]
      · intro t rest
        refine and_congr (prefix_append_cons_iff hff) (forall₂_congr fun longer hl => not_congr ?_)
        obtain ⟨op', hop', rfl⟩ := mem_map.1 (mem_filter.1 hl).1
        exact prefix_append_cons_iff (plain_of_mem hop').2.2
  · have hnodup : (walkChildren [] capabilityTree).Nodup := by decide +kernel
    exact ((mergeSort_perm _ _).nodup_iff.2 hnodup).filter _

end WasmScanner
