import AdmController.MatchResources

/-!
# The resources of a rule of a policy

`validate_resources` looks for entries with wildcards that make others
redundant, but compares an entry only with the earlier ones.
-/

namespace RuleResources

open RustStr Fallible List

/-! ## The check -/

/-- What the check has seen: the `x` of entries `x/*`, the `x` of entries `*/x`,
and which other entries there were. -/
structure Seen where
  (resourcesWithWildcardSubresources subresourcesWithWildcardResource : Finset String)
  (hasDoubleWildcard hasSingleWildcard hasResourceWithoutSubresource : Bool)

def Seen.nothing : Seen := ⟨∅, ∅, false, false, false⟩

def Seen.check (s : Seen) (resource : String) : Except String Seen :=
  if resource = "" then .error "empty resource is not allowed"
  else
    let s : Seen := if resource = "*/*" then { s with hasDoubleWildcard := true }
      else if resource = "*" then { s with hasSingleWildcard := true }
      else s
    match splitOnce resource '/' with
    | none =>
      -- the flag forgets the entries before this one
      .ok { s with hasResourceWithoutSubresource := decide (resource ≠ "*") }
    | some (res, sub) =>
      if res ∈ s.resourcesWithWildcardSubresources then
        .error ("if '" ++ resource ++ "/*' is present, must not specify " ++ res)
      else if sub ∈ s.subresourcesWithWildcardResource then
        .error ("if '*/" ++ sub ++ "' is present, must not specify " ++ resource)
      else .ok { s with
        resourcesWithWildcardSubresources :=
          if sub = "*" then insert res s.resourcesWithWildcardSubresources
          else s.resourcesWithWildcardSubresources
        subresourcesWithWildcardResource :=
          if res = "*" then insert sub s.subresourcesWithWildcardResource
          else s.subresourcesWithWildcardResource }

open Seen

def validateResources (data : List String) : Except String Unit := do
  let s ← data.foldlM check nothing
  if data.length > 1 ∧ s.hasDoubleWildcard = true then
    throw "if '*/*' is present, must not specify other resources"
  if s.hasSingleWildcard = true ∧ s.hasResourceWithoutSubresource = true then
    throw "if '*' is present, must not specify other resources without subresources"
  return ()

/-! ## Redundant entries -/

/-- An entry has no subresource. -/
def Plain (e : String) : Prop := splitOnce e '/' = none

/-- An entry `x/*` or `*/y` covers another entry `x/y`. -/
def Shadows (a b : String) : Prop :=
  ∃ res sub, splitOnce b '/' = some (res, sub) ∧ (splitOnce a '/' = some (res, "*")
    ∨ splitOnce a '/' = some ("*", sub))

/-- **An entry makes another one redundant**: `*/*`, `*`, or a cover. -/
def MakesRedundant (a b : String) : Prop := a = "*/*" ∨ (a = "*" ∧ Plain b) ∨ Shadows a b

def Irredundant (data : List String) : Prop :=
  data.Pairwise fun a b => ¬ MakesRedundant a b ∧ ¬ MakesRedundant b a

variable {a b : String} {data : List String}

theorem Irredundant.perm {data' : List String} (h : Irredundant data)
    (hperm : data.Perm data') : Irredundant data' :=
  (hperm.pairwise_iff fun hab => ⟨hab.2, hab.1⟩).1 h

/-! ## One entry -/

def Seen.Free (s : Seen) (e : String) : Prop :=
  e ≠ "" ∧ ∀ res sub, splitOnce e '/' = some (res, sub) →
    res ∉ s.resourcesWithWildcardSubresources ∧ sub ∉ s.subresourcesWithWildcardResource

structure Seen.Next (s : Seen) (e : String) (s' : Seen) : Prop where
  resources : ∀ res, res ∈ s'.resourcesWithWildcardSubresources
    ↔ res ∈ s.resourcesWithWildcardSubresources ∨ splitOnce e '/' = some (res, "*")
  subresources : ∀ sub, sub ∈ s'.subresourcesWithWildcardResource
    ↔ sub ∈ s.subresourcesWithWildcardResource ∨ splitOnce e '/' = some ("*", sub)
  double : s'.hasDoubleWildcard = true ↔ s.hasDoubleWildcard = true ∨ e = "*/*"
  single : s'.hasSingleWildcard = true ↔ s.hasSingleWildcard = true ∨ e = "*"
  plain : Plain e → (s'.hasResourceWithoutSubresource = true ↔ e ≠ "*")
  other : ¬ Plain e → s'.hasResourceWithoutSubresource = s.hasResourceWithoutSubresource

theorem flags_of_ite (s : Seen) (e : String) :
    let s' : Seen := if e = "*/*" then { s with hasDoubleWildcard := true }
      else if e = "*" then { s with hasSingleWildcard := true } else s
    s'.resourcesWithWildcardSubresources = s.resourcesWithWildcardSubresources
      ∧ s'.subresourcesWithWildcardResource = s.subresourcesWithWildcardResource
      ∧ (s'.hasDoubleWildcard = true ↔ s.hasDoubleWildcard = true ∨ e = "*/*")
      ∧ (s'.hasSingleWildcard = true ↔ s.hasSingleWildcard = true ∨ e = "*")
      ∧ s'.hasResourceWithoutSubresource = s.hasResourceWithoutSubresource := by
  intro s'
  by_cases hdouble : e = "*/*"
  · subst hdouble
    simp [s']
  · by_cases hsingle : e = "*"
    · subst hsingle
      simp [s']
    · simp [s', hdouble, hsingle]

variable {s s' : Seen} {e : String}

theorem Seen.check_eq_ok (h : s.check e = .ok s') : s.Free e ∧ s.Next e s' := by
  unfold check at h
  obtain ⟨hres, hsub, hdouble, hsingle, hflag⟩ := flags_of_ite s e
  generalize (if e = "*/*" then _ else _ : Seen) = t at *
  split at h
  · cases h
  next hne =>
  cases hsplit : splitOnce e '/' with
  | none =>
    rw [hsplit] at h
    cases h
    refine ⟨⟨hne, by simp [hsplit]⟩, ?_⟩
    exact {
      resources := by simp [hres, hsplit]
      subresources := by simp [hsub, hsplit]
      double := hdouble
      single := hsingle
      plain := by simp
      other := fun hplain => absurd hsplit hplain }
  | some parts =>
    obtain ⟨res, sub⟩ := parts
    rw [hsplit] at h
    dsimp only at h
    split at h
    · cases h
    next hfreeRes =>
    split at h
    · cases h
    next hfreeSub =>
    cases h
    rw [hres] at hfreeRes
    rw [hsub] at hfreeSub
    refine ⟨⟨hne, ?_⟩, ?_⟩
    · rintro res' sub' heq
      cases hsplit.symm.trans heq
      exact ⟨hfreeRes, hfreeSub⟩
    · exact {
        resources := by
          intro r
          by_cases hstar : sub = "*"
          · simp [hstar, hres, hsplit, or_comm, eq_comm]
          · simp [hstar, hres, hsplit]
        subresources := by
          intro r
          by_cases hstar : res = "*"
          · simp [hstar, hsub, hsplit, or_comm, eq_comm]
          · simp [hstar, hsub, hsplit]
        double := hdouble
        single := hsingle
        plain := fun hplain => by simp [Plain, hsplit] at hplain
        other := fun _ => hflag }

theorem Seen.Free.check (h : s.Free e) : ∃ s', s.check e = .ok s' := by
  obtain ⟨hres, hsub, -⟩ := flags_of_ite s e
  unfold Seen.check
  generalize (if e = "*/*" then _ else _ : Seen) = t at *
  rw [if_neg h.1]
  cases hsplit : splitOnce e '/' with
  | none => exact ⟨_, rfl⟩
  | some parts =>
    obtain ⟨hfreeRes, hfreeSub⟩ := h.2 parts.1 parts.2 hsplit
    dsimp only
    rw [hres, hsub, if_neg hfreeRes, if_neg hfreeSub]
    exact ⟨_, rfl⟩

theorem Seen.Next.free_iff (h : s.Next e s') (b : String) :
    s'.Free b ↔ s.Free b ∧ ¬ Shadows e b := by
  unfold Free Shadows
  simp only [h.resources, h.subresources]
  constructor
  · rintro ⟨hne, hfree⟩
    refine ⟨⟨hne, fun res sub hsplit => ?_⟩, ?_⟩
    · obtain ⟨hres, hsub⟩ := hfree res sub hsplit
      exact ⟨fun h => hres (.inl h), fun h => hsub (.inl h)⟩
    · rintro ⟨res, sub, hsplit, hres | hsub⟩
      · exact (hfree res sub hsplit).1 (.inr hres)
      · exact (hfree res sub hsplit).2 (.inr hsub)
  · rintro ⟨⟨hne, hfree⟩, hshadow⟩
    refine ⟨hne, fun res sub hsplit => ⟨?_, ?_⟩⟩
    · rintro (hmem | he)
      · exact (hfree res sub hsplit).1 hmem
      · exact hshadow ⟨res, sub, hsplit, .inl he⟩
    · rintro (hmem | he)
      · exact (hfree res sub hsplit).2 hmem
      · exact hshadow ⟨res, sub, hsplit, .inr he⟩

/-! ## The whole list -/

theorem foldlM_check_iff (data : List String) (s : Seen) : (∃ s', data.foldlM check s = .ok s')
    ↔ (∀ e ∈ data, s.Free e) ∧ data.Pairwise fun a b => ¬ Shadows a b := by
  induction data generalizing s with
  | nil => exact iff_of_true ⟨s, rfl⟩ ⟨by simp, .nil⟩
  | cons e data ih =>
    simp only [foldlM_cons, bind_eq_ok]
    rw [forall_mem_cons, pairwise_cons]
    constructor
    · rintro ⟨s', t, he, hrest⟩
      obtain ⟨hfree, hnext⟩ := check_eq_ok he
      obtain ⟨hall, hpair⟩ := (ih t).1 ⟨s', hrest⟩
      have hboth := fun b hb => (hnext.free_iff b).1 (hall b hb)
      exact ⟨⟨hfree, fun b hb => (hboth b hb).1⟩, fun b hb => (hboth b hb).2, hpair⟩
    · rintro ⟨⟨hfree, hall⟩, hshadow, hpair⟩
      obtain ⟨t, he⟩ := hfree.check
      obtain ⟨-, hnext⟩ := check_eq_ok he
      obtain ⟨s', hrest⟩ := (ih t).2
        ⟨fun b hb => (hnext.free_iff b).2 ⟨hall b hb, hshadow b hb⟩, hpair⟩
      exact ⟨s', t, he, hrest⟩

theorem flags_of_foldlM_check (h : data.foldlM check s = .ok s') : (s'.hasDoubleWildcard = true
      ↔ s.hasDoubleWildcard = true ∨ "*/*" ∈ data)
    ∧ (s'.hasSingleWildcard = true ↔ s.hasSingleWildcard = true ∨ "*" ∈ data) := by
  induction data generalizing s with
  | nil =>
    cases h
    simp
  | cons e data ih =>
    rw [foldlM_cons, bind_eq_ok] at h
    obtain ⟨t, he, hrest⟩ := h
    obtain ⟨-, hnext⟩ := check_eq_ok he
    obtain ⟨hdouble, hsingle⟩ := ih hrest
    rw [hdouble, hsingle, hnext.double, hnext.single, mem_cons,
      mem_cons, or_assoc, or_assoc, @eq_comm _ e, @eq_comm _ e]
    exact ⟨Iff.rfl, Iff.rfl⟩

theorem exists_plain_of_foldlM_check (h : data.foldlM check s = .ok s')
    (hflag : s'.hasResourceWithoutSubresource = true) :
    s.hasResourceWithoutSubresource = true ∨ ∃ e ∈ data, Plain e ∧ e ≠ "*" := by
  induction data generalizing s with
  | nil =>
    cases h
    exact .inl hflag
  | cons e data ih =>
    rw [foldlM_cons, bind_eq_ok] at h
    obtain ⟨t, he, hrest⟩ := h
    obtain ⟨-, hnext⟩ := check_eq_ok he
    rcases ih hrest with ht | ⟨b, hb, hplain⟩
    · by_cases hplain : Plain e
      · exact .inr ⟨e, mem_cons_self, hplain, (hnext.plain hplain).1 ht⟩
      · exact .inl (hnext.other hplain ▸ ht)
    · exact .inr ⟨b, mem_cons_of_mem e hb, hplain⟩

theorem flag_cleared_of_foldlM_check (h : data.foldlM check s = .ok s')
    (hstar : "*" ∈ data) (hplain : ∀ e ∈ data, Plain e → e = "*") :
    s'.hasResourceWithoutSubresource = false := by
  -- split the list at its first wildcard; after it, nothing sets the flag
  obtain ⟨l₁, l₂, rfl⟩ := append_of_mem hstar
  obtain ⟨m, -, hm⟩ := foldlM_append_eq_ok.1 h
  rw [foldlM_cons, bind_eq_ok] at hm
  obtain ⟨t, he, hrest⟩ := hm
  obtain ⟨-, hnext⟩ := check_eq_ok he
  refine Bool.eq_false_iff.2 fun hflag => ?_
  rcases exists_plain_of_foldlM_check hrest hflag with ht | ⟨e, he, hpe, hne⟩
  · exact (hnext.plain (by unfold Plain; decide)).1 ht rfl
  · exact hne (hplain e (by simp [he]) hpe)

theorem validateResources_eq_ok_iff (data : List String) : validateResources data = .ok ()
    ↔ ∃ s, data.foldlM check nothing = .ok s ∧ ¬ (1 < data.length ∧ "*/*" ∈ data)
      ∧ ¬ ("*" ∈ data ∧ s.hasResourceWithoutSubresource = true) := by
  unfold validateResources
  rw [bind_eq_ok]
  refine exists_congr fun s => and_congr_right fun hs => ?_
  obtain ⟨hdouble, hsingle⟩ := flags_of_foldlM_check hs
  simp only [nothing, Bool.false_eq_true, false_or] at hdouble hsingle
  rw [← hdouble, ← hsingle]
  by_cases h₁ : data.length > 1 ∧ s.hasDoubleWildcard = true
  · rw [if_pos h₁]
    exact iff_of_false (fun h => by cases h) (fun h => h.1 h₁)
  rw [if_neg h₁]
  by_cases h₂ : s.hasSingleWildcard = true ∧ s.hasResourceWithoutSubresource = true
  · rw [if_pos h₂]
    exact iff_of_false (fun h => by cases h) (fun h => h.2 h₂)
  rw [if_neg h₂]
  exact iff_of_true rfl ⟨h₁, h₂⟩

instance (e : String) : Decidable (Plain e) := inferInstanceAs (Decidable (splitOnce e '/' = none))

/-! ## Every order -/

/-- A wildcard stands beside another entry that it covers: `*` beside an entry
without subresource, `x/*` or `*/y` beside another `x/y`. -/
def Mixed (data : List String) : Prop :=
  ("*" ∈ data ∧ 1 < (data.filter (Plain ·)).length) ∨ ∃ a ∈ data, ∃ b ∈ data, a ≠ b ∧ Shadows a b

def RejectedInEveryOrder (data : List String) : Prop :=
  "" ∈ data ∨ (1 < data.length ∧ "*/*" ∈ data) ∨ ∃ e, Shadows e e ∧ 1 < data.count e

def hasWildcard (e : String) : Bool :=
  match splitOnce e '/' with
  | none => e == "*"
  | some (res, sub) => res == "*" || sub == "*"

def wildcardsLast (data : List String) : List String :=
  data.filter (fun e => !hasWildcard e) ++ data.filter hasWildcard

theorem wildcardsLast_perm (data : List String) : (wildcardsLast data).Perm data :=
  perm_append_comm.trans (filter_append_perm hasWildcard data)

theorem RejectedInEveryOrder.perm {data' : List String}
    (h : RejectedInEveryOrder data) (hperm : data.Perm data') :
    RejectedInEveryOrder data' := by
  unfold RejectedInEveryOrder at h ⊢
  simpa only [hperm.mem_iff, hperm.length_eq, hperm.count_eq] using h

theorem exists_sublist_pair {α : Type} {l : List α} {a : α} (ha : a ∈ l) (hlength : 1 < l.length) :
    ∃ b, Sublist [a, b] l ∨ Sublist [b, a] l := by
  obtain ⟨l₁, l₂, rfl⟩ := append_of_mem ha
  cases l₂ with
  | cons b l₂ =>
    exact ⟨b, .inl (((nil_sublist l₂).cons_cons b).cons_cons a
      |>.trans (sublist_append_right l₁ _))⟩
  | nil =>
    cases l₁ with
    | nil => exact absurd hlength (by simp)
    | cons b l₁ =>
      have hb : Sublist [b] (b :: l₁) := (nil_sublist l₁).cons_cons b
      exact ⟨b, .inr (hb.append (List.Sublist.refl [a]))⟩

theorem Irredundant.not_of_sublist (h : Irredundant data)
    (hpair : Sublist [a, b] data ∨ Sublist [b, a] data) :
    ¬ MakesRedundant a b := by
  rcases hpair with hpair | hpair
  · exact (pairwise_iff_forall_sublist.1 h hpair).1
  · exact (pairwise_iff_forall_sublist.1 h hpair).2

theorem Irredundant.forall_mem (h : Irredundant data) (ha : a ∈ data)
    (hb : b ∈ data) (hne : a ≠ b) :
    ¬ MakesRedundant a b := by
  have hsymm : Std.Symm fun a b => ¬ MakesRedundant a b ∧ ¬ MakesRedundant b a :=
    ⟨fun _ _ hab => ⟨hab.2, hab.1⟩⟩
  exact (List.Pairwise.forall h ha hb hne).1

theorem Shadows.eq_of_hasWildcard (h : Shadows a b) (hb : hasWildcard b = true) :
    a = b ∨ a = "*/*" := by
  obtain ⟨res, sub, hsplit, ha⟩ := h
  simp only [hasWildcard, hsplit, Bool.or_eq_true, beq_iff_eq] at hb
  have hjoin := join_of_splitOnce hsplit
  rcases ha with ha | ha <;> rcases hb with rfl | rfl <;>
    rw [← join_of_splitOnce ha, ← hjoin] <;> simp

theorem Shadows.hasWildcard (h : Shadows a b) : hasWildcard a = true := by
  obtain ⟨res, sub, -, ha | ha⟩ := h <;> simp [RuleResources.hasWildcard, ha]

theorem validateResources_of_irredundant (hempty : "" ∉ data) (h : Irredundant data) :
    validateResources data = .ok () := by
  have hloop := (foldlM_check_iff data nothing).2
    ⟨fun e he => ⟨fun h => hempty (h ▸ he), by simp [nothing]⟩,
      h.imp fun hab hshadow => hab.1 (.inr (.inr hshadow))⟩
  obtain ⟨s, hs⟩ := hloop
  refine (validateResources_eq_ok_iff data).2 ⟨s, hs, ?_, ?_⟩
  · rintro ⟨hlength, hmem⟩
    obtain ⟨b, hpair⟩ := exists_sublist_pair hmem hlength
    exact h.not_of_sublist hpair (.inl rfl)
  · rintro ⟨hstar, hflag⟩
    rcases exists_plain_of_foldlM_check hs hflag with hnone | ⟨e, he, hplain, hne⟩
    · exact absurd hnone (by simp [nothing])
    · exact (h.forall_mem hstar he hne.symm) (.inr (.inl ⟨rfl, hplain⟩))

theorem RejectedInEveryOrder.not_ok (h : RejectedInEveryOrder data) :
    validateResources data ≠ .ok () := by
  intro hok
  obtain ⟨s, hs, hdouble, -⟩ := (validateResources_eq_ok_iff data).1 hok
  obtain ⟨hfree, hpair⟩ := (foldlM_check_iff data nothing).1 ⟨s, hs⟩
  rcases h with hempty | hmem | ⟨e, hshadow, hcount⟩
  · exact (hfree "" hempty).1 rfl
  · exact hdouble hmem
  · have htwice : Sublist [e, e] data := replicate_sublist_iff.2 hcount
    exact pairwise_iff_forall_sublist.1 hpair htwice hshadow

theorem validateResources_wildcardsLast (h : ¬ RejectedInEveryOrder data) :
    validateResources (wildcardsLast data) = .ok () := by
  have hlast : ¬ RejectedInEveryOrder (wildcardsLast data) :=
    fun hlast => h (hlast.perm (wildcardsLast_perm data))
  unfold RejectedInEveryOrder at h hlast
  simp only [not_or] at h hlast
  have hpair : (wildcardsLast data).Pairwise fun a b => ¬ Shadows a b := by
    refine pairwise_append.2 ⟨?_, ?_, ?_⟩
    · refine pairwise_iff_forall_sublist.2 fun {a b} hab hshadow => ?_
      have ha := mem_filter.1 (hab.subset mem_cons_self)
      simp [hshadow.hasWildcard] at ha
    · refine pairwise_iff_forall_sublist.2 fun {a b} hab hshadow => ?_
      have hb := mem_filter.1 (hab.subset (mem_cons_of_mem a mem_cons_self))
      have hsub : Sublist [a, b] data := hab.trans filter_sublist
      rcases hshadow.eq_of_hasWildcard hb.2 with rfl | rfl
      · exact h.2.2 ⟨a, hshadow, replicate_sublist_iff.1 hsub⟩
      · exact h.2.1 ⟨hsub.length_le, hsub.subset mem_cons_self⟩
    · intro a ha b hb hshadow
      simp [hshadow.hasWildcard] at ha
  obtain ⟨s, hs⟩ := (foldlM_check_iff (wildcardsLast data) nothing).2
    ⟨fun e he => ⟨fun h => hlast.1 (h ▸ he), by simp [nothing]⟩, hpair⟩
  refine (validateResources_eq_ok_iff _).2 ⟨s, hs, hlast.2.1, ?_⟩
  rintro ⟨hstar, hflag⟩
  have hstar : "*" ∈ data.filter hasWildcard :=
    mem_filter.2 ⟨(wildcardsLast_perm data).mem_iff.1 hstar, by decide⟩
  -- the flag after the entries with wildcards is that of their last `*`
  obtain ⟨m, -, hm⟩ := foldlM_append_eq_ok.1 hs
  have hclear := flag_cleared_of_foldlM_check hm hstar fun e he hplain => by
    have hwild := (mem_filter.1 he).2
    rw [hasWildcard, show splitOnce e '/' = none from hplain] at hwild
    exact eq_of_beq hwild
  exact absurd hflag (by simp [hclear])

theorem Mixed.not_irredundant (h : Mixed data) : ¬ Irredundant data := by
  intro hirr
  rcases h with ⟨hstar, hlength⟩ | ⟨a, ha, b, hb, hne, hshadow⟩
  · have hmem : "*" ∈ data.filter (Plain ·) := mem_filter.2 ⟨hstar, by decide⟩
    obtain ⟨b, hpair⟩ := exists_sublist_pair hmem hlength
    have hb : b ∈ data.filter (Plain ·) := by
      rcases hpair with hpair | hpair <;> exact hpair.subset (by simp)
    refine hirr.not_of_sublist (a := "*") (b := b) ?_
      (.inr (.inl ⟨rfl, by simpa using (mem_filter.1 hb).2⟩))
    exact hpair.imp (·.trans filter_sublist) (·.trans filter_sublist)
  · exact hirr.forall_mem ha hb hne (.inr (.inr hshadow))

theorem not_makesRedundant (hmixed : ¬ Mixed data) (hrejected : ¬ RejectedInEveryOrder data)
    (hpair : Sublist [a, b] data ∨ Sublist [b, a] data) :
    ¬ MakesRedundant a b := by
  have ha : a ∈ data := by rcases hpair with hpair | hpair <;> exact hpair.subset (by simp)
  have hb : b ∈ data := by rcases hpair with hpair | hpair <;> exact hpair.subset (by simp)
  rintro (rfl | ⟨rfl, hplain⟩ | hshadow)
  · refine hrejected (.inr (.inl ⟨?_, ha⟩))
    rcases hpair with hpair | hpair <;> exact hpair.length_le
  · refine hmixed (.inl ⟨ha, ?_⟩)
    have hstar : Plain "*" := by decide
    show 2 ≤ (data.filter (Plain ·)).length
    rcases hpair with hpair | hpair <;>
      simpa [hstar, hplain] using (hpair.filter (Plain ·)).length_le
  · by_cases hab : a = b
    · subst hab
      refine hrejected (.inr (.inr ⟨a, hshadow, ?_⟩))
      rcases hpair with hpair | hpair <;> exact replicate_sublist_iff.1 hpair
    · exact hmixed (.inr ⟨a, ha, b, hb, hab, hshadow⟩)

/-- **When acceptance is what it should be**, whatever the order: for the
non-empty lists that do not mix a wildcard with what it covers, or are rejected
in every order. -/
theorem validateResources_correct_iff (data : List String) : ((∀ data', data'.Perm data →
          (validateResources data' = .ok () ↔ validateResources data = .ok ()))
        ∧ (validateResources data = .ok () ↔ data ≠ [] ∧ "" ∉ data ∧ Irredundant data))
      ↔ data ≠ [] ∧ (Mixed data → RejectedInEveryOrder data) := by
  constructor
  · rintro ⟨horder, hspec⟩
    have hne : data ≠ [] := by
      rintro rfl
      exact (hspec.1 rfl).1 rfl
    refine ⟨hne, fun hmixed => ?_⟩
    by_contra hrejected
    have hok := (horder _ (wildcardsLast_perm data)).1 (validateResources_wildcardsLast hrejected)
    exact hmixed.not_irredundant (hspec.1 hok).2.2
  · rintro ⟨hne, hmixed⟩
    by_cases hrejected : RejectedInEveryOrder data
    · refine ⟨fun data' hperm => ?_, ?_⟩
      · exact iff_of_false (hrejected.perm hperm.symm).not_ok hrejected.not_ok
      · exact iff_of_false hrejected.not_ok fun h =>
          hrejected.not_ok (validateResources_of_irredundant h.2.1 h.2.2)
    · have hempty : "" ∉ data := fun h => hrejected (.inl h)
      have hirr : Irredundant data :=
        pairwise_iff_forall_sublist.2 fun hpair =>
          ⟨not_makesRedundant (mt hmixed hrejected) hrejected (.inl hpair),
            not_makesRedundant (mt hmixed hrejected) hrejected (.inr hpair)⟩
      have hok := validateResources_of_irredundant hempty hirr
      refine ⟨fun data' hperm => iff_of_true ?_ hok, iff_of_true hok ⟨hne, hempty, hirr⟩⟩
      exact validateResources_of_irredundant
        (fun h => hempty (hperm.mem_iff.1 h)) (hirr.perm hperm.symm)

/-- **A wildcard after what it covers is accepted**, and not before it. -/
theorem wildcard_after_resource : validateResources ["pods", "*"] = .ok ()
      ∧ validateResources ["*", "pods"]
        = .error "if '*' is present, must not specify other resources without subresources"
      ∧ ["*", "pods"].Perm ["pods", "*"]
      ∧ ¬ Irredundant ["pods", "*"] := by
  refine ⟨rfl, rfl, List.Perm.swap _ _ _, fun h => ?_⟩
  exact h.forall_mem (a := "*") (b := "pods") (by simp) (by simp) (by decide)
    (.inr (.inl ⟨rfl, by decide⟩))

end RuleResources
