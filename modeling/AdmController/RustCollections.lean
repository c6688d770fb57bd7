import Mathlib.Data.Finset.Sort
import Mathlib.Data.List.AList

/-!
# Ordered sets and maps, and hash maps

The collections of Rust's standard library: an ordered set is the increasing
list of its elements, an ordered map the list of its entries by increasing
keys, and a hash map an association list without repeated keys, in the order of
iteration.
-/

open List AList

/-! ## Sorted sets -/

/-- **An ordered set**: the elements in increasing order, each once. -/
structure BTreeSet (α : Type) [LT α] where
  elems : List α
  sorted : elems.Pairwise (· < ·)
deriving DecidableEq

def BTreeSet.empty {α : Type} [LT α] : BTreeSet α := ⟨[], List.Pairwise.nil⟩

def BTreeSet.singleton {α : Type} [LT α] (a : α) : BTreeSet α := ⟨[a], pairwise_singleton _ a⟩

def BTreeSet.ofList {α : Type} [LinearOrder α] (l : List α) : BTreeSet α :=
  ⟨l.toFinset.sort, (Finset.sortedLT_sort l.toFinset).pairwise⟩

variable {α : Type} {a : α}

theorem BTreeSet.mem_ofList [LinearOrder α] {l : List α} :
    a ∈ (BTreeSet.ofList l).elems ↔ a ∈ l := by
  unfold BTreeSet.ofList
  rw [Finset.mem_sort, mem_toFinset]

/-! ## Sorted maps -/

/-- **An ordered map**: the entries by increasing key, one for each key. -/
structure BTreeMap (α β : Type) [LT α] where
  entries : List (α × β)
  sorted : entries.Pairwise (fun a b => a.1 < b.1)
deriving DecidableEq

namespace BTreeMap

def empty {α β : Type} [LT α] : BTreeMap α β := ⟨[], List.Pairwise.nil⟩

def get {α β : Type} [LT α] [DecidableEq α] (m : BTreeMap α β) (k : α) :
    Option β := m.entries.lookup k

variable {α β : Type}

theorem lookup_cons_eq_ite [DecidableEq α] (k k' : α) (v : β) (rest : List (α × β)) :
    ((k, v) :: rest).lookup k' = if k' = k then some v else rest.lookup k' := by
  rw [lookup_cons]
  by_cases h : k' = k
  · rw [if_pos h, beq_iff_eq.mpr h]
  · rw [if_neg h, beq_false_of_ne h]

section

variable {α β : Type} [LinearOrder α]

def insertEntry (k : α) (v : β) : List (α × β) → List (α × β)
  | [] => [(k, v)]
  | (k', v') :: rest =>
    if k < k' then (k, v) :: (k', v') :: rest
    else if k = k' then (k, v) :: rest
    else (k', v') :: insertEntry k v rest

theorem mem_insertEntry {k : α} {v : β} {entries : List (α × β)}
    {e : α × β} (h : e ∈ insertEntry k v entries) :
    e = (k, v) ∨ e ∈ entries := by
  induction entries with
  | nil => exact .inl (mem_singleton.mp h)
  | cons e' rest ih =>
    obtain ⟨k', v'⟩ := e'
    rw [insertEntry] at h
    split at h
    · exact mem_cons.mp h
    · split at h
      · rcases mem_cons.mp h with h | h
        · exact .inl h
        · exact .inr (mem_cons_of_mem _ h)
      · rcases mem_cons.mp h with h | h
        · exact .inr (h ▸ mem_cons_self)
        · rcases ih h with h | h
          · exact .inl h
          · exact .inr (mem_cons_of_mem _ h)

/-- Insertions keep the order of the keys. -/
theorem sorted_insertEntry (k : α) (v : β) {entries : List (α × β)}
    (h : entries.Pairwise (fun a b => a.1 < b.1)) :
    (insertEntry k v entries).Pairwise (fun a b => a.1 < b.1) := by
  induction entries with
  | nil => exact pairwise_singleton _ _
  | cons e rest ih =>
    obtain ⟨k', v'⟩ := e
    obtain ⟨hhead, hrest⟩ := pairwise_cons.mp h
    rw [insertEntry]
    split
    case isTrue hlt =>
      refine pairwise_cons.mpr ⟨fun e he => ?_, h⟩
      rcases mem_cons.mp he with rfl | he
      · exact hlt
      · exact lt_trans hlt (hhead e he)
    case isFalse hnlt =>
      split
      case isTrue heq =>
        subst heq
        exact pairwise_cons.mpr ⟨hhead, hrest⟩
      case isFalse hne =>
        refine pairwise_cons.mpr ⟨fun e he => ?_, ih hrest⟩
        rcases mem_insertEntry he with rfl | he
        · exact lt_of_le_of_ne (not_lt.mp hnlt) (Ne.symm hne)
        · exact hhead e he

def insert (m : BTreeMap α β) (k : α) (v : β) : BTreeMap α β :=
  ⟨insertEntry k v m.entries, sorted_insertEntry k v m.sorted⟩

theorem get_insert (m : BTreeMap α β) (k k' : α) (v : β) :
    (m.insert k v).get k' = if k' = k then some v else m.get k' := by
  show (insertEntry k v m.entries).lookup k' = if k' = k then some v else m.entries.lookup k'
  induction m.entries with
  | nil => exact lookup_cons_eq_ite k k' v []
  | cons e rest ih =>
    obtain ⟨k'', v''⟩ := e
    rw [insertEntry]
    split
    · exact lookup_cons_eq_ite k k' v _
    · split
      case isTrue heq =>
        subst heq
        rw [lookup_cons_eq_ite, lookup_cons_eq_ite]
        by_cases h : k' = k <;> simp [h]
      case isFalse hne =>
        rw [lookup_cons_eq_ite, lookup_cons_eq_ite, ih]
        by_cases h : k' = k
        · simp [h, hne]
        · simp [h]

end

theorem mem_entries_iff [LinearOrder α] {m : BTreeMap α β}
    {k : α} {v : β} : (k, v) ∈ m.entries ↔ m.get k = some v := by
  obtain ⟨entries, hsorted⟩ := m
  show (k, v) ∈ entries ↔ entries.lookup k = some v
  induction entries with
  | nil => simp
  | cons e rest ih =>
    obtain ⟨k', v'⟩ := e
    obtain ⟨hhead, hrest⟩ := pairwise_cons.mp hsorted
    rw [mem_cons, lookup_cons_eq_ite, ih hrest]
    by_cases h : k = k'
    · subst h
      have hnot : rest.lookup k ≠ some v := fun hmem =>
        absurd (hhead _ ((ih hrest).mpr hmem)) (lt_irrefl k)
      simp [hnot, eq_comm]
    · simp [h]

/-- **A map is determined by its look-ups.** -/
theorem ext_get [LinearOrder α] {m m' : BTreeMap α β} (h : ∀ k, m.get k = m'.get k) : m = m' := by
  have hnodup (m : BTreeMap α β) : m.entries.Nodup :=
    m.sorted.imp fun {a b} hlt (heq : a = b) => lt_irrefl b.1 (heq ▸ hlt)
  have hperm : m.entries.Perm m'.entries :=
    (perm_ext_iff_of_nodup (hnodup m) (hnodup m')).2 fun e => by
      rw [mem_entries_iff, mem_entries_iff, h]
  -- both lists are sorted by the same order
  have heq := List.Perm.eq_of_pairwise
    (fun a b _ _ hab hba => absurd hba (lt_asymm hab)) m.sorted m'.sorted hperm
  cases m
  cases m'
  cases heq
  rfl

end BTreeMap

/-! ## Hash maps -/

/-- **A hash map**, with the order in which it is iterated. -/
abbrev HashMap (α β : Type) := AList (fun _ : α => β)

variable {β : Type}

theorem AList.lookup_insert_eq_update [DecidableEq α] (m : HashMap α β) (a : α) (v : β) :
    (fun a' => (m.insert a v).lookup a') = Function.update (fun a' => m.lookup a') a (some v) := by
  funext a'
  by_cases h : a' = a
  · subst h
    rw [Function.update_self, lookup_insert]
  · rw [Function.update_of_ne h, lookup_insert_ne h]

variable {m : HashMap α β}

theorem AList.lookup_insert_eq_some_iff [DecidableEq α] {k k' : α} {v v' : β} :
    (m.insert k v).lookup k' = some v' ↔ (k' = k ∧ v' = v) ∨ (k' ≠ k ∧ m.lookup k' = some v') := by
  by_cases h : k' = k
  · subst h
    rw [lookup_insert, Option.some.injEq, eq_comm]
    simp
  · rw [lookup_insert_ne h]
    simp [h]

theorem AList.lookup_of_lookup_erase [DecidableEq α]
    {k k' : α} {v : β} (h : (m.erase k).lookup k' = some v) :
    m.lookup k' = some v := by
  by_cases hk : k' = k
  · subst hk
    exact nomatch (lookup_erase k' m).symm.trans h
  · exact (lookup_erase_ne hk).symm.trans h

theorem AList.exists_split_of_mem [DecidableEq α] {v : β} (h : ⟨a, v⟩ ∈ m.entries) :
    ∃ l l', m.entries = l ++ ⟨a, v⟩ :: l' ∧ kerase a m.entries = l ++ l' := by
  obtain ⟨v', l, l', -, hentries, herase⟩ := exists_of_kerase (mem_keys_of_mem h)
  have hmem : ⟨a, v'⟩ ∈ m.entries := by
    rw [hentries]
    exact mem_append_right _ mem_cons_self
  -- there is only one entry with this key
  cases m.nodupKeys.eq_of_mk_mem h hmem
  exact ⟨l, l', hentries, herase⟩

theorem AList.perm_insert_of_mem [DecidableEq α] {v : β} (h : ⟨a, v⟩ ∈ m.entries) :
    m.entries.Perm (m.insert a v).entries := by
  obtain ⟨l, l', hentries, herase⟩ := exists_split_of_mem h
  rw [entries_insert, herase, hentries]
  exact perm_middle

theorem AList.entries_insert_insert [DecidableEq α] (m : HashMap α β) {a a' : α}
    (h : a ≠ a') (v v' : β) :
    ((m.insert a' v').insert a v).entries
      = ⟨a, v⟩ :: ⟨a', v'⟩ :: kerase a (kerase a' m.entries) := by
  rw [entries_insert, entries_insert]
  exact congrArg (cons _) (kerase_cons_ne h)

theorem AList.entries_erase_insert_insert [DecidableEq α] (m : HashMap α β)
    {a a' : α} (h : a ≠ a') (v v' : β) :
    (((m.insert a' v').insert a v).erase a).entries
      = ⟨a', v'⟩ :: kerase a (kerase a' m.entries) := by
  show kerase a ((m.insert a' v').insert a v).entries = _
  rw [entries_insert_insert m h]
  exact kerase_cons_eq rfl

def AList.insertAll {α β : Type} [DecidableEq α] (m : HashMap α β)
    (l : List (Σ _ : α, β)) : HashMap α β :=
  l.foldl (fun m e => m.insert e.1 e.2) m

variable {l : List (Σ _ : α, β)}

theorem AList.mem_entries_insertAll [DecidableEq α] (h : l.NodupKeys) {e : Σ _ : α, β} :
    e ∈ ((∅ : HashMap α β).insertAll l).entries ↔ e ∈ l := by
  induction l using reverseRecOn generalizing e with
  | nil => rfl
  | append_singleton l e' ih =>
    have hkeys : (l.keys ++ [e'.1]).Nodup := by simpa [List.NodupKeys, keys] using h
    rw [nodup_append] at hkeys
    have hnotMem : e'.1 ∉ (∅ : HashMap α β).insertAll l := by
      intro hmem
      obtain ⟨v, hv⟩ := exists_of_mem_keys hmem
      exact hkeys.2.2 _ (mem_keys_of_mem ((ih hkeys.1).1 hv)) _ (mem_singleton.2 rfl) rfl
    rw [insertAll, foldl_append]
    show e ∈ (((∅ : HashMap α β).insertAll l).insert e'.1 e'.2).entries ↔ _
    rw [entries_insert_of_notMem hnotMem, mem_cons, ih hkeys.1, mem_append, mem_singleton, or_comm]

theorem AList.mem_of_mem_insertAll [DecidableEq α]
    {e : Σ _ : α, β} (h : e ∈ (m.insertAll l).entries) :
    e ∈ m.entries ∨ e ∈ l := by
  induction l generalizing m with
  | nil => exact .inl h
  | cons e' l ih =>
    rw [mem_cons]
    rcases ih h with h | h
    · rw [entries_insert] at h
      rcases mem_cons.1 h with h | h
      · exact .inr (.inl h)
      · exact .inl ((kerase_sublist _ _).subset h)
    · exact .inr (.inr h)

def AList.mapValues {α β γ : Type} (f : α → β → γ) (m : HashMap α β) : HashMap α γ where
  entries := m.entries.map (fun e => ⟨e.1, f e.1 e.2⟩)
  nodupKeys := by
    have hkeys : (m.entries.map (fun e => (⟨e.1, f e.1 e.2⟩ : Σ _ : α, γ))).keys
        = m.entries.keys := by
      rw [List.keys, List.map_map]
      rfl
    rw [List.NodupKeys, hkeys]
    exact m.nodupKeys

variable {γ : Type}

theorem AList.lookup_mapValues [DecidableEq α] (f : α → β → γ) (m : HashMap α β) (a : α) :
    (m.mapValues f).lookup a = (m.lookup a).map (f a) := by
  show dlookup a (m.entries.map (fun e => (⟨e.1, f e.1 e.2⟩ : Σ _ : α, γ)))
    = (dlookup a m.entries).map (f a)
  induction m.entries with
  | nil => rfl
  | cons e l ih =>
    by_cases h : a = e.1
    · subst h
      rw [map_cons, dlookup_cons_eq, dlookup_cons_eq]
      rfl
    · rw [map_cons, dlookup_cons_ne _ e h, ← ih]
      exact dlookup_cons_ne _ _ h

theorem AList.mem_mapValues [DecidableEq α] {f : α → β → γ} : a ∈ m.mapValues f ↔ a ∈ m := by
  rw [← lookup_isSome, ← lookup_isSome, lookup_mapValues, Option.isSome_map]

theorem AList.lookup_insertAll_map [DecidableEq α] (hl : l.Perm m.entries) (f : β → γ) (a : α) :
    ((∅ : HashMap α γ).insertAll (l.map fun e => ⟨e.1, f e.2⟩)).lookup a = (m.lookup a).map f := by
  have hkeys : (l.map fun e => (⟨e.1, f e.2⟩ : Σ _ : α, γ)).NodupKeys := by
    have hmap : (l.map fun e => (⟨e.1, f e.2⟩ : Σ _ : α, γ)).keys = l.keys := by
      rw [List.keys, List.map_map]
      rfl
    rw [List.NodupKeys, hmap]
    exact (perm_nodupKeys hl).2 m.nodupKeys
  ext c
  rw [← Option.mem_def, mem_lookup_iff,
    mem_entries_insertAll hkeys, mem_map, Option.map_eq_some_iff]
  simp only [hl.mem_iff, ← Option.mem_def, mem_lookup_iff]
  constructor
  · rintro ⟨⟨a', b⟩, hb, heq⟩
    cases heq
    exact ⟨b, hb, rfl⟩
  · rintro ⟨b, hb, rfl⟩
    exact ⟨⟨a, b⟩, hb, rfl⟩

theorem AList.entries_ne_nil_of_lookup [DecidableEq α] {m' : HashMap α γ} {f : β → γ}
    (h : ∀ a, m'.lookup a = (m.lookup a).map f) (hne : m.entries ≠ []) :
    m'.entries ≠ [] := by
  obtain ⟨⟨a, b⟩, he⟩ := exists_mem_of_ne_nil _ hne
  have hsome := h a
  rw [Option.mem_def.1 (mem_lookup_iff.2 he)] at hsome
  exact ne_nil_of_mem (mem_lookup_iff.1 (Option.mem_def.2 hsome))
