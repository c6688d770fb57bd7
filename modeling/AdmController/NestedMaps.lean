import AdmController.RustCollections

/-!
# Values under paths

A map of maps keeps a value under a path. A `PathStore` is such a container
with its laws: values put under different paths are found and nothing else is
(`find_putAll`), and their order is forgotten (`putAll_perm`).
-/

open List BTreeMap

/-- **A container of values under paths.** -/
structure PathStore (β π ν : Type) [DecidableEq π] where
  /-- The container without values. -/
  empty : β
  /-- The value under a path. -/
  find : β → π → Option ν
  /-- Put a value under a path. -/
  put : β → π → ν → β
  /-- Every part of the container leads to a value. -/
  Full : β → Prop
  find_empty : ∀ p, find empty p = none
  find_put : ∀ b p v p', find (put b p v) p' = if p' = p then some v else find b p'
  full_empty : Full empty
  full_put : ∀ b p v, Full b → Full (put b p v)
  ext : ∀ b b', Full b → Full b' → (∀ p, find b p = find b' p) → b = b'

namespace PathStore

variable {β γ κ π ρ ν σ : Type} [DecidableEq π] [DecidableEq ρ] [LinearOrder κ]

/-! ## The stores -/

def single : PathStore (BTreeMap κ ν) κ ν where
  empty := .empty
  find := get
  put := insert
  Full _ := True
  find_empty _ := rfl
  find_put m k v k' := get_insert m k k' v
  full_empty := trivial
  full_put _ _ _ _ := trivial
  ext _ _ _ _ := ext_get

variable (s : PathStore β π ν) (m : BTreeMap κ β)

def putBelow (p : κ × π) (v : ν) : BTreeMap κ β :=
  m.insert p.1 (s.put ((m.get p.1).getD s.empty) p.2 v)

def findBelow (p : κ × π) : Option ν := (m.get p.1).bind (s.find · p.2)

def FullBelow : Prop := ∀ k b, m.get k = some b → s.Full b ∧ ∃ p v, s.find b p = some v

theorem find_getD_empty (b : Option β) (p : π) :
    s.find (b.getD s.empty) p = b.bind (s.find · p) := by
  cases b with
  | none => exact s.find_empty p
  | some b => rfl

theorem findBelow_putBelow (p : κ × π) (v : ν) (p' : κ × π) :
    s.findBelow (s.putBelow m p v) p' = if p' = p then some v else s.findBelow m p' := by
  obtain ⟨k, q⟩ := p
  obtain ⟨k', q'⟩ := p'
  unfold findBelow putBelow
  rw [get_insert]
  by_cases hk : k' = k
  · subst hk
    rw [if_pos rfl, Option.bind_some, s.find_put, s.find_getD_empty]
    simp
  · rw [if_neg hk, if_neg fun h => hk (Prod.mk.inj h).1]

theorem FullBelow.putBelow {s : PathStore β π ν} {m : BTreeMap κ β}
    (h : s.FullBelow m) (p : κ × π) (v : ν) :
    s.FullBelow (s.putBelow m p v) := by
  intro k b hb
  rw [PathStore.putBelow, get_insert] at hb
  split at hb
  · cases hb
    refine ⟨s.full_put _ _ _ ?_, p.2, v, ?_⟩
    · cases hget : m.get p.1 with
      | none => exact s.full_empty
      | some b => exact (h _ b hget).1
    · rw [s.find_put, if_pos rfl]
  · exact h k b hb

theorem get_of_findBelow {s : PathStore β π ν} {m m' : BTreeMap κ β} (hm : s.FullBelow m)
    (hm' : s.FullBelow m') (h : ∀ p, s.findBelow m p = s.findBelow m' p) {k : κ} {b : β}
    (hb : m.get k = some b) : m'.get k = some b := by
  obtain ⟨hfull, q, v, hv⟩ := hm k b hb
  have hbelow : ∀ q, s.find b q = (m'.get k).bind (s.find · q) := fun q => by
    have hq := h (k, q)
    rwa [findBelow, hb, Option.bind_some] at hq
  cases hb' : m'.get k with
  | none =>
    rw [hbelow, hb'] at hv
    cases hv
  | some b' =>
    refine congrArg some (s.ext b' b (hm' k b' hb').1 hfull fun q => ?_)
    rw [hbelow, hb', Option.bind_some]

def nested : PathStore (BTreeMap κ β) (κ × π) ν where
  empty := .empty
  find := s.findBelow
  put := s.putBelow
  Full := s.FullBelow
  find_empty _ := rfl
  find_put := s.findBelow_putBelow
  full_empty _ _ h := by cases h
  full_put _ p v h := h.putBelow p v
  ext m m' hm hm' h := ext_get fun k => by
    refine Option.ext fun b => ⟨get_of_findBelow hm hm' h, ?_⟩
    exact get_of_findBelow hm' hm fun p => (h p).symm

def either (t : PathStore γ ρ ν) (e : σ ≃ β × γ) : PathStore σ (π ⊕ ρ) ν where
  empty := e.symm (s.empty, t.empty)
  find x := Sum.elim (s.find (e x).1) (t.find (e x).2)
  put x p v := match p with
    | .inl p => e.symm (s.put (e x).1 p v, (e x).2)
    | .inr p => e.symm ((e x).1, t.put (e x).2 p v)
  Full x := s.Full (e x).1 ∧ t.Full (e x).2
  find_empty p := by cases p <;> simp [s.find_empty, t.find_empty]
  find_put x p v p' := by cases p <;> cases p' <;> simp [s.find_put, t.find_put]
  full_empty := by simp [s.full_empty, t.full_empty]
  full_put x p v h := by
    cases p with
    | inl p => simpa using ⟨s.full_put _ p v h.1, h.2⟩
    | inr p => simpa using ⟨h.1, t.full_put _ p v h.2⟩
  ext x x' hx hx' h := e.injective (Prod.ext (s.ext _ _ hx.1 hx'.1 fun p => h (.inl p))
    (t.ext _ _ hx.2 hx'.2 fun p => h (.inr p)))

/-! ## Many values -/

def putAll (l : List (π × ν)) : β := l.foldl (fun b e => s.put b e.1 e.2) s.empty

theorem full_putAll (l : List (π × ν)) : s.Full (s.putAll l) := by
  unfold putAll
  induction l using reverseRecOn with
  | nil => exact s.full_empty
  | append_singleton l e ih =>
    rw [foldl_append]
    exact s.full_put _ _ _ ih

/-- **What is found is what was put**, if the paths are different. -/
theorem find_putAll {l : List (π × ν)} (h : (l.map Prod.fst).Nodup) (p : π) (v : ν) :
    s.find (s.putAll l) p = some v ↔ (p, v) ∈ l := by
  unfold putAll
  induction l using reverseRecOn with
  | nil => simp [s.find_empty]
  | append_singleton l e ih =>
    rw [map_append, nodup_append] at h
    rw [foldl_append, foldl_cons, foldl_nil, s.find_put, mem_append, mem_singleton, ← ih h.1]
    by_cases hp : p = e.1
    · have hnone : s.find (l.foldl (fun b e => s.put b e.1 e.2) s.empty) p ≠ some v := fun hfound =>
        h.2.2 p (mem_map.2 ⟨_, (ih h.1).1 hfound, rfl⟩) e.1 (by simp) hp
      rw [if_pos hp, or_iff_right hnone, Option.some_inj, Prod.ext_iff]
      exact ⟨fun h => ⟨hp, h.symm⟩, fun h => h.2.symm⟩
    · rw [if_neg hp]
      simp [Prod.ext_iff, hp]

theorem putAll_perm {l l' : List (π × ν)} (h : (l.map Prod.fst).Nodup) (hperm : l.Perm l') :
    s.putAll l = s.putAll l' := by
  have h' : (l'.map Prod.fst).Nodup := (hperm.map Prod.fst).nodup_iff.1 h
  refine s.ext _ _ (s.full_putAll l) (s.full_putAll l') fun p => ?_
  refine Option.ext fun v => ?_
  rw [s.find_putAll h, s.find_putAll h', hperm.mem_iff]

end PathStore
