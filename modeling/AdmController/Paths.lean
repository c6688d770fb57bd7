import AdmController.RustStr

/-!
# Paths

Unix paths, read as Rust reads them: empty segments and `.` are no components;
`..` is one, and is not resolved. `descend` walks along components and fails
when a `..` leaves where it began (`StrictlyBelow`).
-/

namespace Paths

open RustStr

variable (p : String)

/-! ## Segments and components -/

def segments : List String := split p '/'

def isComponent (s : String) : Bool := s != "" && s != "."

def components : List String := (segments p).filter isComponent

def isAbsolute : Bool := startsWith p "/"

def fileName : Option String := (components p).getLast?.filter (· ≠ "..")

def parent : Option String :=
  let counts (s : String × ℕ) : Bool := isComponent s.1 || (!isAbsolute p && s.2 == 0 && s.1 == ".")
  match (segments p).zipIdx.reverse.dropWhile (!counts ·) with
  | [] => none
  | _ :: rest =>
    let kept := (rest.dropWhile (!counts ·)).reverse.map Prod.fst
    some (if isAbsolute p && kept.isEmpty then "/" else String.intercalate "/" kept)

def parentOrDot : String :=
  match parent p with
  | some d => if d ≠ "" then d else "."
  | none => "."

/-- **The same path**, however it is written. -/
def SamePath (p q : String) : Prop := isAbsolute p = isAbsolute q ∧ components p = components q

instance (p q : String) : Decidable (SamePath p q) := inferInstanceAs (Decidable (_ ∧ _))

theorem SamePath.refl (p : String) : SamePath p p := ⟨rfl, rfl⟩

variable {s : String}

theorem segments_of_not_contains (h : contains s '/' = false) : segments s = [s] :=
  split_of_not_contains h

theorem components_of_not_contains (h : contains s '/' = false) :
    components s = [s].filter isComponent := by
  rw [components, segments_of_not_contains h]

theorem components_append (a b : String) :
    components (a ++ "/" ++ b) = components a ++ components b := by
  have hsplit : segments (a ++ "/" ++ b) = segments a ++ segments b := split_append a b '/'
  rw [components, hsplit, List.filter_append]
  rfl

theorem components_empty : components "" = [] := by decide

theorem isAbsolute_of_not_contains (h : contains s '/' = false) : isAbsolute s = false := by
  rw [Bool.eq_false_iff]
  intro habs
  obtain ⟨r, rfl⟩ := startsWith_iff.1 habs
  simp [contains] at h

theorem isAbsolute_append {a : String} (ha : a ≠ "") (b : String) :
    isAbsolute (a ++ b) = isAbsolute a := by
  have hne : a.toList ≠ [] := by simpa using ha
  unfold isAbsolute startsWith
  rw [String.toList_append]
  cases h : a.toList with
  | nil => exact absurd h hne
  | cons c l => rfl

section

variable {a b : String} (hb : isAbsolute b = false)

include hb

/-! ## Joining -/

theorem joinPath_cases : a = "" ∧ joinPath a b = b
    ∨ (∃ a', a = a' ++ "/" ∧ joinPath a b = a' ++ "/" ++ b)
    ∨ a ≠ "" ∧ joinPath a b = a ++ "/" ++ b := by
  have hrelative : startsWith b "/" ≠ true := Bool.eq_false_iff.1 hb
  unfold joinPath
  rw [if_neg hrelative]
  by_cases ha : a = ""
  · exact .inl ⟨ha, by simp [ha]⟩
  · by_cases hslash : endsWith a "/" = true
    · obtain ⟨a', ha'⟩ : ∃ a', a = a' ++ "/" := by
        obtain ⟨l, hl⟩ := List.isSuffixOf_iff_suffix.1 hslash
        exact ⟨String.ofList l, by rw [← String.toList_inj, ← hl]; simp⟩
      refine .inr (.inl ⟨a', ha', ?_⟩)
      rw [if_pos (by simp [hslash]), ha']
    · exact .inr (.inr ⟨ha, by simp [ha, hslash]⟩)

theorem components_joinPath : components (joinPath a b) = components a ++ components b := by
  rcases joinPath_cases (a := a) hb with ⟨rfl, h⟩ | ⟨a', rfl, h⟩ | ⟨-, h⟩
  · rw [h, components_empty, List.nil_append]
  · have ha : components (a' ++ "/") = components a' := by
      have happend := components_append a' ""
      rwa [String.append_empty, components_empty, List.append_nil] at happend
    rw [h, ha, components_append]
  · rw [h, components_append]

theorem isAbsolute_joinPath : isAbsolute (joinPath a b) = isAbsolute a := by
  rcases joinPath_cases (a := a) hb with ⟨rfl, h⟩ | ⟨a', rfl, h⟩ | ⟨ha, h⟩
  · rw [h, hb]
    rfl
  · rw [h, isAbsolute_append (by simp)]
  · rw [h, String.append_assoc, isAbsolute_append ha]

end

theorem joinPath_append {b t : String} (hb : isAbsolute b = false)
    (hbt : isAbsolute (b ++ t) = false) (a : String) :
    joinPath a (b ++ t) = joinPath a b ++ t := by
  unfold isAbsolute at hb hbt
  unfold joinPath
  rw [hbt, hb]
  simp only [Bool.false_eq_true, if_false]
  split
  · exact String.append_assoc.symm
  · exact String.append_assoc.symm

variable {l : List String}

theorem components_foldl_joinPath (hl : ∀ s ∈ l, contains s '/' = false) (p : String) :
    components (l.foldl joinPath p) = components p ++ l.filter isComponent := by
  induction l generalizing p with
  | nil => simp
  | cons s l ih =>
    have hs := hl s List.mem_cons_self
    rw [List.foldl_cons, ih (fun t ht => hl t (List.mem_cons_of_mem s ht)),
      components_joinPath (isAbsolute_of_not_contains hs),
      components_of_not_contains hs, List.append_assoc, ← List.filter_append,
      List.singleton_append]

theorem isAbsolute_foldl_joinPath (hl : ∀ s ∈ l, contains s '/' = false) (p : String) :
    isAbsolute (l.foldl joinPath p) = isAbsolute p := by
  induction l generalizing p with
  | nil => rfl
  | cons s l ih =>
    rw [List.foldl_cons, ih (fun t ht => hl t (List.mem_cons_of_mem s ht)), isAbsolute_joinPath
        (isAbsolute_of_not_contains (hl s List.mem_cons_self))]

theorem samePath_joinPath_iff {a b c : String} (hb : isAbsolute b = false)
    (hc : isAbsolute c = false) :
    SamePath (joinPath a b) (joinPath a c) ↔ components b = components c := by
  unfold SamePath
  rw [isAbsolute_joinPath hb, isAbsolute_joinPath hc, components_joinPath hb,
    components_joinPath hc, List.append_cancel_left_eq]
  exact and_iff_right rfl

/-! ## Walking downwards -/

def enter (location : List String) (component : String) : Option (List String) :=
  if component = ".." then if location = [] then none else some location.dropLast
  else some (location ++ [component])

/-- **A walk that stays inside**: where it leads to, if it never leaves. -/
def descend (l : List String) : Option (List String) := l.foldlM enter []

/-- **Strictly below a directory**: never out of it, nor back to it. -/
def StrictlyBelow (root path : String) : Prop :=
  isAbsolute path = isAbsolute root ∧ ∃ rel location, components path = components root ++ rel
    ∧ descend rel = some location ∧ location ≠ []

theorem strictlyBelow_joinPath_iff {root path : String} (h : isAbsolute path = false) :
    StrictlyBelow root (joinPath root path) ↔ ∃ location, descend (components path) = some location
      ∧ location ≠ [] := by
  unfold StrictlyBelow
  rw [isAbsolute_joinPath h, components_joinPath h]
  constructor
  · rintro ⟨-, rel, location, hrel, hdescend, hne⟩
    rw [List.append_cancel_left_eq] at hrel
    exact ⟨location, hrel ▸ hdescend, hne⟩
  · rintro ⟨location, hdescend, hne⟩
    exact ⟨rfl, _, location, rfl, hdescend, hne⟩

theorem foldlM_enter_of_not_mem (h : ".." ∉ l) (location : List String) :
    l.foldlM enter location = some (location ++ l) := by
  induction l generalizing location with
  | nil => simp
  | cons s l ih =>
    have hs : s ≠ ".." := fun hs => h (hs ▸ List.mem_cons_self)
    have hl : ".." ∉ l := fun hl => h (List.mem_cons_of_mem s hl)
    rw [List.foldlM_cons, enter, if_neg hs]
    show l.foldlM enter (location ++ [s]) = _
    rw [ih hl, List.append_assoc, List.singleton_append]

theorem descend_of_not_mem (h : ".." ∉ l) : descend l = some l := foldlM_enter_of_not_mem h []

end Paths
