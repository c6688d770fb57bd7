import AdmController.RustStr
import AdmController.RustCollections

/-!
# Keys that a user and the controller share

The labels and annotations of a deployment hold entries of a user. An annotation
lists their keys, so that the next call can remove those that are gone.
-/

namespace Controller

open RustStr Function

inductive MetadataMap where
  | labels
  | annotations
deriving DecidableEq

/-! ## The maps of an object -/

abbrev ObjectMaps := MetadataMap → String → Option String

def ObjectMaps.set (m : ObjectMaps) (f : MetadataMap) (key : String) (value : Option String) :
    ObjectMaps :=
  update m f (update (m f) key value)

def ObjectMaps.tracked (m : ObjectMaps) (trackingKey : String) : List String :=
  match m .annotations trackingKey with
  | some prev => if prev ≠ "" then split prev ',' else []
  | none => []

/-- **Apply the desired entries** to a map; `keys` are the desired keys in the
order in which they are recorded. -/
def applyManagedKeys (f : MetadataMap) (trackingKey : String) (m : ObjectMaps)
    (desired : HashMap String String) (keys : List String) : ObjectMaps :=
  let m := (m.tracked trackingKey).foldl (fun m key =>
    if (desired.lookup key).isSome then m else m.set f key none) m
  let m := desired.entries.foldl (fun m e => m.set f e.1 (some e.2)) m
  if keys = [] then m.set .annotations trackingKey none
  else m.set .annotations trackingKey (some (String.intercalate "," keys))

def applyAll (f : MetadataMap) (trackingKey : String) (m : ObjectMaps)
    (us : List (HashMap String String × List String)) : ObjectMaps :=
  us.foldl (fun m u => applyManagedKeys f trackingKey m u.1 u.2) m

/-- The keys in some order, without commas and the tracking key, and not only
the empty one. -/
structure Ordinary (trackingKey : String) (u : HashMap String String × List String) : Prop where
  perm : u.2.Perm u.1.keys
  noComma : ∀ key ∈ u.2, contains key ',' = false
  ne_empty : u.2 ≠ [""]
  ne_tracking : trackingKey ∉ u.2

section

variable {f : MetadataMap} {t k : String} {m : ObjectMaps} {u : HashMap String String × List String}

theorem set_of_ne {f' : MetadataMap} {key : String} {value : Option String}
    (h : f' ≠ f ∨ key ≠ k) : (m.set f' key value) f k = m f k := by
  unfold ObjectMaps.set
  by_cases hf : f = f'
  · subst hf
    rw [update_self, update_of_ne ((h.resolve_left (by simp)).symm)]
  · rw [update_of_ne hf]

/-! ## What a call does -/

theorem set_self {value : Option String} : (m.set f k value) f k = value := by
  simp [ObjectMaps.set]

theorem removed_apply (desired : HashMap String String) (l : List String) :
    (l.foldl (fun m key => if (desired.lookup key).isSome then m else m.set f key none) m) f k
      = if k ∈ l ∧ (desired.lookup k).isSome = false then none else m f k := by
  induction l generalizing m with
  | nil => simp
  | cons key l ih =>
    rw [List.foldl_cons, ih]
    by_cases hkey : key = k
    · subst hkey
      cases h : (desired.lookup key).isSome <;> simp [set_self]
    · have hsame : (if (desired.lookup key).isSome then m else m.set f key none) f k = m f k := by
        split
        · rfl
        · exact set_of_ne (.inr hkey)
      simp [hsame, Ne.symm hkey]

theorem added_apply (l : List (Σ _ : String, String)) (hl : l.NodupKeys) :
    (l.foldl (fun m e => m.set f e.1 (some e.2)) m) f k = (l.dlookup k).or (m f k) := by
  induction l generalizing m with
  | nil => rfl
  | cons e l ih =>
    rw [List.nodupKeys_cons] at hl
    rw [List.foldl_cons, ih hl.2]
    by_cases hkey : e.1 = k
    · subst hkey
      rw [set_self, List.dlookup_cons_eq, List.dlookup_eq_none.2 hl.1]
      rfl
    · rw [set_of_ne (.inr hkey), List.dlookup_cons_ne _ _ (Ne.symm hkey)]

theorem applyManagedKeys_apply (hk : f = .labels ∨ k ≠ t) : applyManagedKeys f t m u.1 u.2 f k
    = (u.1.lookup k).or (if k ∈ m.tracked t then none else m f k) := by
  have hother : MetadataMap.annotations ≠ f ∨ t ≠ k := hk.imp (by rintro rfl; simp) Ne.symm
  have hrest : applyManagedKeys f t m u.1 u.2 f k = (u.1.entries.foldl
      (fun m e => m.set f e.1 (some e.2)) ((m.tracked t).foldl (fun m key =>
        if (u.1.lookup key).isSome then m else m.set f key none) m)) f k := by
    unfold applyManagedKeys
    split <;> exact set_of_ne hother
  rw [hrest, added_apply _ u.1.nodupKeys, removed_apply]
  change (u.1.lookup k).or _ = _
  cases u.1.lookup k <;> simp

theorem tracked_applyManagedKeys (hu : Ordinary t u) :
    (applyManagedKeys f t m u.1 u.2).tracked t = u.2 := by
  unfold ObjectMaps.tracked applyManagedKeys
  by_cases hkeys : u.2 = []
  · rw [if_pos hkeys, set_self, hkeys]
  · have hsplit : split (String.intercalate "," u.2) ',' = u.2 :=
      (eq_intercalate_iff hkeys hu.noComma).1 rfl
    rw [if_neg hkeys, set_self]
    dsimp only
    rw [if_pos, hsplit]
    intro hempty
    rw [hempty] at hsplit
    exact hu.ne_empty (hsplit.symm.trans (by decide))

theorem mem_keys_iff (hu : Ordinary t u) : k ∈ u.2 ↔ (u.1.lookup k).isSome = true := by
  rw [hu.perm.mem_iff, AList.lookup_isSome]
  rfl

/-! ## Whole sequences -/

/-- **After any number of calls** a map has the entries that are desired last,
and what was there before and was never desired or listed. -/
theorem managed_keys_follow (us : List (HashMap String String × List String))
    (hus : ∀ u' ∈ us ++ [u], Ordinary t u') (hk : f = .labels ∨ k ≠ t) :
    applyAll f t m (us ++ [u]) f k = (u.1.lookup k).or
      (if k ∈ m.tracked t ∨ ∃ u' ∈ us, (u'.1.lookup k).isSome = true then none else m f k) := by
  induction us generalizing m with
  | nil => simpa [applyAll] using applyManagedKeys_apply hk
  | cons u' us ih =>
    have hu' := hus u' List.mem_cons_self
    have hstep := ih (m := applyManagedKeys f t m u'.1 u'.2) fun v hv =>
      hus v (List.mem_cons_of_mem _ hv)
    rw [tracked_applyManagedKeys hu', applyManagedKeys_apply hk] at hstep
    simp only [mem_keys_iff hu'] at hstep
    refine hstep.trans (congrArg _ ?_)
    simp only [List.mem_cons, exists_eq_or_imp]
    by_cases hlater : ∃ u' ∈ us, (u'.1.lookup k).isSome = true
    · rw [if_pos (.inr hlater), if_pos (.inr (.inr hlater))]
    · cases hlookup : u'.1.lookup k with
      | none => simp only [Option.isSome_none, Bool.false_eq_true, hlater, or_false, if_false,
        Option.none_or]
      | some v => simp only [Option.isSome_some, true_or, or_true, if_true]

theorem applyManagedKeys_of_ne {f' : MetadataMap} (hf : f ≠ f')
    (hk : .annotations ≠ f' ∨ t ≠ k) : applyManagedKeys f t m u.1 u.2 f' k = m f' k := by
  let same (m' : ObjectMaps) : Prop := m' f' k = m f' k
  have hremoved := List.foldlRecOn (motive := same) (m.tracked t) (fun m key =>
    if (u.1.lookup key).isSome then m else m.set f key none) rfl fun m' h key _ => by
      split
      · exact h
      · exact (set_of_ne (.inl hf)).trans h
  have hadded := List.foldlRecOn (motive := same) u.1.entries (fun m e => m.set f e.1 (some e.2))
    hremoved fun m' h e _ => (set_of_ne (.inl hf)).trans h
  unfold applyManagedKeys
  split <;> exact (set_of_ne hk).trans hadded

/-- **A second call with the same entries changes no entry**, in either map; the
keys may be listed in another order, as a Go map has none. -/
theorem applyManagedKeys_twice (m : ObjectMaps) (hu : Ordinary t u) {keys : List String}
    (hkeys : keys.Perm u.2) :
    let m₁ := applyManagedKeys f t m u.1 u.2
    let m₂ := applyManagedKeys f t m₁ u.1 keys
    (∀ f' k, f' = .labels ∨ k ≠ t → m₂ f' k = m₁ f' k) ∧ (m₂.tracked t).Perm (m₁.tracked t) := by
  intro m₁ m₂
  have hu' : Ordinary t (u.1, keys) := by
    refine ⟨hkeys.trans hu.perm, fun key hkey => hu.noComma key (hkeys.mem_iff.1 hkey), ?_,
      fun ht => hu.ne_tracking (hkeys.mem_iff.1 ht)⟩
    rintro rfl
    exact hu.ne_empty (List.perm_singleton.1 hkeys.symm)
  refine ⟨fun f' k hk => ?_, ?_⟩
  · by_cases hf : f = f'
    · subst hf
      have hsecond : m₂ f k = _ := applyManagedKeys_apply (u := (u.1, keys)) hk
      have hfirst : m₁ f k = _ := applyManagedKeys_apply hk
      rw [hsecond, tracked_applyManagedKeys hu, hfirst]
      simp only [mem_keys_iff hu]
      cases u.1.lookup k <;> simp
    · have hother : .annotations ≠ f' ∨ t ≠ k := hk.imp (by rintro rfl; simp) Ne.symm
      exact applyManagedKeys_of_ne (u := (u.1, keys)) hf hother
  · rw [tracked_applyManagedKeys hu, show m₂.tracked t = keys from tracked_applyManagedKeys hu']
    exact hkeys

end

def twoLabels : HashMap String String := (AList.singleton "a" "1").insert "b" "2"

theorem applyManagedKeys_twice_reordered :
    let m₁ := applyManagedKeys .labels "managed" (fun _ _ => none) twoLabels ["a", "b"]
    let m₂ := applyManagedKeys .labels "managed" m₁ twoLabels ["b", "a"]
    (∀ f' k, f' = .labels ∨ k ≠ "managed" → m₂ f' k = m₁ f' k)
      ∧ (m₂.tracked "managed").Perm (m₁.tracked "managed") :=
  applyManagedKeys_twice (u := (twoLabels, ["a", "b"])) _
    ⟨.swap "b" "a" [], by decide +kernel, by decide, by decide⟩ (.swap "a" "b" [])

/-- An annotation that the list names goes although nobody set it, and a label
with the empty key stays: its list reads as an empty one. -/
theorem listed_annotation_removed :
    let m : ObjectMaps := fun f key => if f = .annotations then
      (if key = "a" then some "x" else if key = "managed" then some "a" else none) else none
    m .annotations "a" = some "x"
      ∧ applyAll .annotations "managed" m [(∅, [])] .annotations "a" = none
      ∧ applyAll .labels "managed" (fun _ _ => none)
        [(AList.singleton "" "x", [""]), (∅, [])] .labels "" = some "x" := by
  decide +kernel

theorem managed_keys_follow_twice :
    applyAll .labels "managed" (fun _ _ => none) ([(AList.singleton "a" "1", ["a"])] ++ [(∅, [])])
      .labels "a" = none := by
  rw [managed_keys_follow _ ?_ (.inl rfl)]
  · decide +kernel
  · intro u hu
    rcases List.mem_append.1 hu with hu | hu
    · obtain rfl := List.mem_singleton.1 hu
      exact ⟨.refl _, by decide +kernel, by decide, by decide⟩
    · obtain rfl := List.mem_singleton.1 hu
      exact ⟨.refl _, by simp, by simp, by simp⟩

end Controller
