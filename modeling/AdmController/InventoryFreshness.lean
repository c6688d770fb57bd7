import AdmController.InventoryCache

/-!
# Cached inventories are current

An undisturbed `get_inventory` call returns the content of the reflectors
(`getInventory_current`), unless a fill reads a store between publication and
application of an event (`stale_inventory_served`), or starts at its very
instant.
-/

namespace InventoryCache

open StepSystem List Prod State BTreeSet Or

variable {R O E D : Type} [LT R] [DecidableEq R] {P : Params R O E D}

/-! ## Freshness -/

/-- **What was read is fresh**: a change has been published after the reader's
instant, or the content is still the one that was read. -/
def Fresh (s : State R O E D) (r : R) (since : ℕ) (read : O) : Prop :=
  ∃ f, s.reflectors r = some f ∧ (since < f.lastChangeSeenAt ∨ (f.pending = none ∧ f.store = read))

/-- Someone whose instant is `since` has read the store: an entry, or a fill. -/
def Recorded (s : State R O E D) (r : R) (since : ℕ) : Prop :=
  (∃ resources entry, s.inventories resources = some entry
    ∧ r ∈ resources.elems ∧ entry.cacheTime = since)
    ∨ ∃ c resources todo content, s.calls c = some (.reading resources since todo content)
      ∧ r ∈ content.map fst

/-- **The condition on steps**: an event is published after everyone who has
read the store, and a fill reads no store with a half-done older event. -/
def Timely (s : State R O E D) : Label R O E → Prop
  | .publish r _ => ∀ since, Recorded s r since → since < s.clock
  | .call c (.read _) =>
    ∀ resources now r todo content f,
      s.calls c = some (.reading resources now (r :: todo) content) →
      s.reflectors r = some f →
      f.pending = none ∨ now < f.lastChangeSeenAt
  | _ => True

variable {l : Label R O E} {f : Reflector O E} {s s' : State R O E D} {r : R}

theorem Move.reflector (h : Move P s l s') (hf : s.reflectors r = some f) :
    s'.reflectors r = some f ∨ (∃ event, l = .publish r event
          ∧ s'.reflectors r = some ⟨s.clock, f.store, some event⟩)
      ∨ (∃ event, l = .applyEvent r ∧ f.pending = some event
        ∧ s'.reflectors r = some ⟨f.lastChangeSeenAt,
          P.applyWatcherEvent event f.store, none⟩) := by
  cases h with
  | tick => exact inl hf
  | @publish r' event _ _ hr =>
    by_cases hrr : r = r'
    · subst hrr
      rw [hf] at hr
      cases hr
      exact inr (inl ⟨event, rfl, setReflector_self ..⟩)
    · exact inl ((setReflector_of_ne _ _ hrr).trans hf)
  | @applyEvent r' event _ _ hr =>
    by_cases hrr : r = r'
    · subst hrr
      rw [hf] at hr
      cases hr
      exact inr (inr ⟨event, rfl, rfl, setReflector_self ..⟩)
    · exact inl ((setReflector_of_ne _ _ hrr).trans hf)
  | start => exact inl hf
  | call _ hmove =>
    refine inl ?_
    cases hmove with
    | @create _ _ r' _ _ _ hr =>
      -- only missing reflectors are created
      have hrr : r ≠ r' := by
        rintro rfl
        rw [hf] at hr
        cases hr
      exact (setReflector_of_ne _ _ hrr).trans hf
    | _ => exact hf

theorem Fresh.move (h : Move P s l s') {since : ℕ} {read : O} (hfresh : Fresh s r since read)
    (hpub : ∀ event, l = .publish r event → since < s.clock) :
    Fresh s' r since read := by
  obtain ⟨f, hf, hcur⟩ := hfresh
  rcases h.reflector hf with h' | ⟨event, hl, h'⟩ | ⟨event, -, hp, h'⟩
  · exact ⟨f, h', hcur⟩
  · exact ⟨_, h', inl (hpub event hl)⟩
  · -- the content changes, so the change has to be visible already
    rcases hcur with hlt | ⟨hnone, -⟩
    · exact ⟨_, h', inl hlt⟩
    · rw [hnone] at hp
      cases hp

/-! ## The invariant -/

/-- **The invariant of timely runs**: entries and fills are fresh. -/
structure Inv (P : Params R O E D) (s : State R O E D) : Prop where
  cached : ∀ resources entry, s.inventories resources = some entry →
    ∃ content, content.map fst = resources.elems ∧ P.buildInventory content = .ok entry.data
      ∧ ∀ p ∈ content, Fresh s p.1 entry.cacheTime p.2
  reading : ∀ c resources now todo content, s.calls c = some (.reading resources now todo content) →
    content.map fst ++ todo = resources.elems ∧ ∀ p ∈ content, Fresh s p.1 now p.2

omit [DecidableEq R] in
theorem State.Initial.inv (h : s.Initial) : Inv P s where
  cached := by
    intro resources entry hentry
    rw [h.inventories] at hentry
    cases hentry
  reading := by
    intro c resources now todo content hc
    rw [h.calls] at hc
    cases hc

variable {resources : BTreeSet R}

theorem Move.inventories (h : Move P s l s') {entry : CachedInventory D}
    (hentry : s'.inventories resources = some entry) :
    s.inventories resources = some entry ∨ ∃ c content,
          s.calls c = some (.reading resources entry.cacheTime [] content)
          ∧ P.buildInventory content = .ok entry.data := by
  cases h with
  | call hc hmove =>
    cases hmove with
    | @register resources' now content data hbuild =>
      by_cases hrr : resources = resources'
      · subst hrr
        have heq : some (⟨data, now⟩ : CachedInventory D) = some entry :=
          (insert_self s resources ⟨data, now⟩).symm.trans hentry
        cases heq
        exact inr ⟨_, content, hc, hbuild⟩
      · exact inl ((insert_of_ne s ⟨data, now⟩ hrr).symm.trans hentry)
    | _ => exact inl hentry
  | _ => exact inl hentry

theorem Move.reading (h : Move P s l s') {c : ℕ} {now : ℕ} {todo : List R} {content : List (R × O)}
    (hc' : s'.calls c = some (.reading resources now todo content)) :
    s.calls c = some (.reading resources now todo content) ∨ (todo = resources.elems ∧ content = [])
      ∨ ∃ r listed before f, l = .call c (.read listed)
        ∧ s.calls c = some (.reading resources now (r :: todo) before)
        ∧ content = before ++ [(r, f.store)]
        ∧ s'.reflectors r = some f
        ∧ (s.reflectors r = some f ∨ f.pending = none) := by
  cases h with
  | start hnone =>
    next c₀ resources₀ =>
    by_cases hcc : c = c₀
    · subst hcc
      rw [setCall_self] at hc'
      cases hc'
    · rw [setCall_of_ne _ _ hcc] at hc'
      exact inl hc'
  | @call c₀ action s₁ call call' hc hmove =>
    by_cases hcc : c = c₀
    · subst hcc
      rw [setCall_self] at hc'
      cases hc'
      cases hmove with
      | takeNow => exact inr (inl ⟨rfl, rfl⟩)
      | read hf => exact inr (inr ⟨_, _, _, _, rfl, hc, rfl, hf, inl hf⟩)
      | create hnone =>
        exact inr (inr ⟨_, _, _, ⟨s.clock, _, none⟩, rfl, hc, rfl, setReflector_self .., inr rfl⟩)
    · rw [setCall_of_ne _ _ hcc] at hc'
      refine inl ?_
      cases hmove <;> exact hc'
  | _ => exact inl hc'

theorem Inv.step (hinv : Inv P s) (htimely : Timely s l)
    (hstep : step P s l = some s') : Inv P s' := by
  have hmove := move_of_step P hstep
  -- what was fresh for someone recorded stays fresh
  have hkeep : ∀ {r since read}, Recorded s r since →
      Fresh s r since read → Fresh s' r since read := by
    intro r since read hrec hfresh
    refine hfresh.move hmove (fun event hl => ?_)
    subst hl
    exact htimely since hrec
  have hkeepReading : ∀ {c resources now todo content},
      s.calls c = some (.reading resources now todo content) →
      ∀ p ∈ content, Fresh s' p.1 now p.2 := by
    intro c resources now todo content hc p hp
    refine hkeep (inr ⟨c, resources, todo, content, hc, ?_⟩) ((hinv.reading _ _ _ _ _ hc).2 p hp)
    exact mem_map_of_mem hp
  constructor
  · intro resources entry hentry
    rcases hmove.inventories hentry with hold | ⟨c, content, hc, hbuild⟩
    · obtain ⟨content, hkeys, hbuild, hfresh⟩ := hinv.cached _ _ hold
      refine ⟨content, hkeys, hbuild, fun p hp => ?_⟩
      refine hkeep (inl ⟨resources, entry, hold, ?_, rfl⟩) (hfresh p hp)
      rw [← hkeys]
      exact mem_map_of_mem hp
    · refine ⟨content, ?_, hbuild, hkeepReading hc⟩
      rw [← (hinv.reading _ _ _ _ _ hc).1, append_nil]
  · intro c resources now todo content hc'
    rcases hmove.reading hc' with hc | ⟨rfl, rfl⟩ | ⟨r, listed, before, f, rfl, hc, rfl, hf', hf⟩
    · exact ⟨(hinv.reading _ _ _ _ _ hc).1, hkeepReading hc⟩
    · exact ⟨rfl, fun p hp => absurd hp not_mem_nil⟩
    · have hold := hinv.reading _ _ _ _ _ hc
      constructor
      · rw [← hold.1, map_append, append_assoc]
        rfl
      · intro p hp
        rcases mem_append.1 hp with hp | hp
        · exact hkeepReading hc p hp
        · rw [mem_singleton] at hp
          subst hp
          -- the store just read: nothing was half done, or it is visible
          refine ⟨f, hf', ?_⟩
          rcases hf with hf | hnone
          · rcases htimely _ _ _ _ _ f hc hf with hnone | hlt
            · exact inr ⟨hnone, rfl⟩
            · exact inl hlt
          · exact inr ⟨hnone, rfl⟩

/-! ## Undisturbed calls -/

def Holds (s : State R O E D) (p : R × O) : Prop := ∃ f, s.reflectors p.1 = some f ∧ f.store = p.2

def currentContent (s : State R O E D) (resources : BTreeSet R) : Option (List (R × O)) :=
  resources.elems.mapM (fun r => (s.reflectors r).map (fun f => (r, f.store)))

omit [DecidableEq R] in
theorem currentContent_of_holds {content : List (R × O)} (hkeys : content.map fst = resources.elems)
    (hholds : ∀ p ∈ content, Holds s p) :
    currentContent s resources = some content := by
  unfold currentContent
  rw [← hkeys]
  clear hkeys
  induction content with
  | nil => rfl
  | cons p content ih =>
    obtain ⟨f, hf, hstore⟩ := hholds p mem_cons_self
    rw [map_cons, mapM_cons, hf, ih (fun q hq => hholds q (mem_cons_of_mem p hq))]
    show some ((p.1, f.store) :: content) = some (p :: content)
    rw [hstore]

def Label.IsEventOn (resources : BTreeSet R) : Label R O E → Prop
  | .publish r _ => r ∈ resources.elems
  | .applyEvent r => r ∈ resources.elems
  | _ => False

/-- Where an undisturbed call stands: what it has checked has not changed, and
what it has read is current. -/
def PhaseOk (P : Params R O E D) (s : State R O E D)
    (resources : BTreeSet R) : Option (Call R O D) → Prop
  | some (.lookingUp resources') => resources' = resources
  | some (.checking resources' entry todo) => resources' = resources
    ∧ ∃ content done, content.map fst = resources.elems ∧ P.buildInventory content = .ok entry.data
      ∧ (∀ p ∈ content, Fresh s p.1 entry.cacheTime p.2)
      ∧ done ++ todo = resources.elems
      ∧ ∀ r ∈ done, s.haveChangedSince r entry.cacheTime = false
  | some (.creating resources') => resources' = resources
  | some (.reading resources' _ todo content) => resources' = resources
    ∧ content.map fst ++ todo = resources.elems
    ∧ ∀ p ∈ content, Holds s p
  | some (.returned resources' result) => resources' = resources
    ∧ ∃ content, content.map fst = resources.elems ∧ (∀ p ∈ content, Holds s p)
      ∧ result = P.buildInventory content
  | some .aborted => True
  | none => False

/-- **The invariant of an undisturbed call**: no event is half done. -/
structure Undisturbed (P : Params R O E D) (c : ℕ) (resources : BTreeSet R)
    (s : State R O E D) : Prop where
  quiet : ∀ r ∈ resources.elems, ∀ f, s.reflectors r = some f → f.pending = none
  phase : PhaseOk P s resources (s.calls c)

theorem Move.reflector_of_not_event (h : Move P s l s') (hl : ¬ l.IsEventOn resources)
    (hr : r ∈ resources.elems) (hf : s.reflectors r = some f) : s'.reflectors r = some f := by
  rcases h.reflector hf with h' | ⟨event, rfl, -⟩ | ⟨event, rfl, -⟩
  · exact h'
  · exact absurd hr hl
  · exact absurd hr hl

theorem Move.created (h : Move P s l s') (hnone : s.reflectors r = none)
    (hf : s'.reflectors r = some f) : f.pending = none := by
  have hset : ∀ {r' : R} {f' : Reflector O E}, (s.setReflector r' f').reflectors r = some f →
      r' = r ∧ f' = f := by
    intro r' f' h'
    by_cases hrr : r = r'
    · subst hrr
      rw [setReflector_self] at h'
      exact ⟨rfl, Option.some.inj h'⟩
    · rw [setReflector_of_ne _ _ hrr, hnone] at h'
      cases h'
  have hsame : s.reflectors r = some f → f.pending = none := by
    intro h'
    rw [hnone] at h'
    cases h'
  cases h with
  | publish hr =>
    obtain ⟨rfl, -⟩ := hset hf
    rw [hnone] at hr
    cases hr
  | applyEvent hr =>
    obtain ⟨rfl, rfl⟩ := hset hf
    rfl
  | call _ hmove =>
    cases hmove with
    | create _ =>
      obtain ⟨-, rfl⟩ := hset hf
      rfl
    | _ => exact hsame hf
  | _ => exact hsame hf

omit [DecidableEq R] in
theorem haveChangedSince_eq_false_iff {since : ℕ} : s.haveChangedSince r since = false
    ↔ ∃ f, s.reflectors r = some f ∧ f.lastChangeSeenAt ≤ since := by
  unfold haveChangedSince
  cases s.reflectors r with
  | none => simp
  | some f => simp

omit [DecidableEq R] in
theorem PhaseOk.frame
    (hkeep : ∀ r ∈ resources.elems, ∀ f, s.reflectors r = some f → s'.reflectors r = some f)
    {call : Option (Call R O D)} (h : PhaseOk P s resources call) :
    PhaseOk P s' resources call := by
  have hholds : ∀ {content : List (R × O)} {keys : List R},
      content.map fst ++ keys = resources.elems →
      (∀ p ∈ content, Holds s p) → ∀ p ∈ content, Holds s' p := by
    intro content keys hkeys hh p hp
    obtain ⟨f, hf, hstore⟩ := hh p hp
    refine ⟨f, hkeep p.1 ?_ f hf, hstore⟩
    rw [← hkeys]
    exact mem_append_left _ (mem_map_of_mem hp)
  rcases call with _ | call
  · exact h
  cases call with
  | lookingUp => exact h
  | creating => exact h
  | aborted => exact h
  | checking resources' entry todo =>
    obtain ⟨hres, content, done, hkeys, hbuild, hfresh, htodo, hsame⟩ := h
    refine ⟨hres, content, done, hkeys, hbuild, ?_, htodo, ?_⟩
    · intro p hp
      obtain ⟨f, hf, hcur⟩ := hfresh p hp
      refine ⟨f, hkeep p.1 ?_ f hf, hcur⟩
      rw [← hkeys]
      exact mem_map_of_mem hp
    · intro r hr
      obtain ⟨f, hf, hle⟩ := haveChangedSince_eq_false_iff.1 (hsame r hr)
      refine haveChangedSince_eq_false_iff.2 ⟨f, hkeep r ?_ f hf, hle⟩
      rw [← htodo]
      exact mem_append_left _ hr
  | reading resources' now todo content =>
    obtain ⟨hres, hkeys, hh⟩ := h
    exact ⟨hres, hkeys, hholds hkeys hh⟩
  | returned resources' result =>
    obtain ⟨hres, content, hkeys, hh, hresult⟩ := h
    have hkeys' : content.map fst ++ [] = resources.elems := by rw [append_nil, hkeys]
    exact ⟨hres, content, hkeys, hholds hkeys' hh, hresult⟩

theorem CallMove.phaseOk {call call' : Call R O D} {action : CallAction O}
    (h : CallMove P s call action s' call') (hinv : Inv P s)
    (hok : PhaseOk P s resources (some call)) :
    PhaseOk P s' resources (some call') := by
  cases h with
  | miss _ => exact hok
  | hit hentry =>
    obtain rfl := hok
    obtain ⟨content, hkeys, hbuild, hfresh⟩ := hinv.cached _ _ hentry
    exact ⟨rfl, content, [], hkeys, hbuild, hfresh, rfl, fun r hr => absurd hr not_mem_nil⟩
  | reuse =>
    obtain ⟨hres, content, done, hkeys, hbuild, hfresh, htodo, hsame⟩ := hok
    refine ⟨hres, content, hkeys, fun p hp => ?_, hbuild.symm⟩
    -- no change was seen on any resource, so what was read is current
    have hdone : p.1 ∈ done := by
      rw [append_nil] at htodo
      rw [htodo, ← hkeys]
      exact mem_map_of_mem hp
    obtain ⟨f, hf, hle⟩ := haveChangedSince_eq_false_iff.1 (hsame p.1 hdone)
    obtain ⟨f', hf', hcur⟩ := hfresh p hp
    rw [hf] at hf'
    cases hf'
    rcases hcur with hlt | ⟨-, hstore⟩
    · omega
    · exact ⟨f, hf, hstore⟩
  | changed => exact hok.1
  | @unchanged _ _ r _ hr =>
    obtain ⟨hres, content, done, hkeys, hbuild, hfresh, htodo, hsame⟩ := hok
    refine ⟨hres, content, done ++ [r], hkeys, hbuild, hfresh, ?_, ?_⟩
    · rw [append_assoc]
      exact htodo
    · exact forall_mem_append.2 ⟨hsame, forall_mem_singleton.2 hr⟩
  | takeNow =>
    obtain rfl := hok
    exact ⟨rfl, rfl, fun p hp => absurd hp not_mem_nil⟩
  | read hf =>
    obtain ⟨hres, hkeys, hh⟩ := hok
    refine ⟨hres, ?_, forall_mem_append.2 ⟨hh, forall_mem_singleton.2 ⟨_, hf, rfl⟩⟩⟩
    rw [← hkeys, map_append, append_assoc]
    rfl
  | @create _ _ r _ _ listed hnone =>
    obtain ⟨hres, hkeys, hh⟩ := hok
    refine ⟨hres, ?_, forall_mem_append.2 ⟨fun p hp => ?_,
      forall_mem_singleton.2 ⟨_, setReflector_self .., rfl⟩⟩⟩
    · rw [← hkeys, map_append, append_assoc]
      rfl
    · obtain ⟨f, hf, hstore⟩ := hh p hp
      have hne : p.1 ≠ r := by
        rintro rfl
        rw [hnone] at hf
        cases hf
      exact ⟨f, (setReflector_of_ne _ _ hne).trans hf, hstore⟩
  | register hbuild =>
    obtain ⟨hres, hkeys, hh⟩ := hok
    rw [append_nil] at hkeys
    exact ⟨hres, _, hkeys, hh, hbuild.symm⟩
  | buildFailure hbuild =>
    obtain ⟨hres, hkeys, hh⟩ := hok
    rw [append_nil] at hkeys
    exact ⟨hres, _, hkeys, hh, hbuild.symm⟩
  | abort => trivial

theorem Undisturbed.step {c : ℕ} (hinv : Inv P s)
    (hu : Undisturbed P c resources s) (hl : ¬ l.IsEventOn resources)
    (hstep : step P s l = some s') : Undisturbed P c resources s' := by
  have hmove := move_of_step P hstep
  have hkeep : ∀ r ∈ resources.elems, ∀ f, s.reflectors r = some f → s'.reflectors r = some f :=
    fun r hr f hf => hmove.reflector_of_not_event hl hr hf
  constructor
  · intro r hr f' hf'
    cases hf : s.reflectors r with
    | none => exact hmove.created hf hf'
    | some f =>
      rw [hkeep r hr f hf] at hf'
      cases hf'
      exact hu.quiet r hr _ hf
  · have hphase := hu.phase
    cases hmove with
    | start hnone =>
      next c₀ resources₀ =>
      have hcc : c ≠ c₀ := by
        rintro rfl
        rw [hnone] at hphase
        exact hphase
      rw [setCall_of_ne _ _ hcc]
      exact hphase
    | @call c₀ action s₁ call call' hc hcall =>
      by_cases hcc : c = c₀
      · subst hcc
        rw [setCall_self]
        rw [hc] at hphase
        exact hcall.phaseOk hinv hphase
      · rw [setCall_of_ne _ _ hcc]
        have hcalls : s₁.calls = s.calls := by cases hcall <;> rfl
        rw [hcalls]
        exact hphase.frame hkeep
    | tick => exact hphase
    | publish _ => exact hphase.frame hkeep
    | applyEvent _ => exact hphase.frame hkeep

/-! ## Concrete runs -/

def sampleParams : Params ℕ ℕ ℕ (List ℕ) where
  applyWatcherEvent := fun event _ => event
  buildInventory := fun content => .ok (content.map snd)

def sampleState : State ℕ ℕ ℕ (List ℕ) where
  clock := 0
  reflectors := fun r => if r = 0 then some ⟨0, 1, none⟩ else none
  inventories := fun _ => none
  calls := fun _ => none

def fillLabels (c : ℕ) : List (Label ℕ ℕ ℕ) :=
  [.call c .lookUp, .call c .takeNow, .call c (.read 0), .call c .register]

def reuseLabels (c : ℕ) : List (Label ℕ ℕ ℕ) := [.call c .lookUp, .call c .check, .call c .check]

theorem sampleState_quiet (r : ℕ) (f : Reflector ℕ ℕ)
    (hf : sampleState.reflectors r = some f) : f.pending = none := by
  simp only [sampleState] at hf
  split at hf
  · cases hf
    rfl
  · cases hf

theorem reuseLabels_not_event (c : ℕ) : ∀ l ∈ reuseLabels c, ¬ l.IsEventOn (singleton 0) := by
  simp [reuseLabels, Label.IsEventOn]

/-! ## What an undisturbed call returns -/

/-- **An undisturbed call returns the current inventory** in every timely run,
if it starts when no event is half done and none happens meanwhile. -/
theorem getInventory_current (P : Params R O E D) {s₀ s s' : State R O E D}
    (h₀ : s₀.Initial) {before during : List (Label R O E)} {c : ℕ}
    {resources : BTreeSet R} {result : Except String D}
    (hbefore : run (step P) s₀ before = some s)
    (hquiet : ∀ r f, s.reflectors r = some f → f.pending = none)
    (hcall : run (step P) s (.start c resources :: during) = some s')
    (hduring : ∀ l ∈ during, ¬ l.IsEventOn resources)
    (htimely : Along (step P) Timely s₀ (before ++ .start c resources :: during))
    (hreturned : s'.calls c = some (.returned resources result)) :
    ∃ content, currentContent s' resources = some content ∧ result = P.buildInventory content := by
  obtain ⟨htb, htd⟩ := htimely.append (step P) hbefore
  have hinv : Inv P s := run_induction (step P) (fun _ _ _ => Inv.step) h₀.inv htb hbefore
  -- the start of the call establishes the invariant of undisturbed calls
  rw [run, Option.bind_eq_some_iff] at hcall
  obtain ⟨s₁, hstart, hrun⟩ := hcall
  have hinv₁ : Inv P s₁ := hinv.step htd.1 hstart
  have hu₁ : Undisturbed P c resources s₁ := by
    cases move_of_step P hstart with
    | start hnone =>
      refine ⟨fun r _ f hf => hquiet r f hf, ?_⟩
      rw [setCall_self]
      rfl
  -- and the other steps of the run keep it
  have hend : Inv P s' ∧ Undisturbed P c resources s' :=
    run_induction (step P) (P := fun s l => ¬ l.IsEventOn resources ∧ Timely s l)
      (I := fun s => Inv P s ∧ Undisturbed P c resources s)
      (fun _ _ _ hI hl hstep =>
        ⟨hI.1.step hl.2 hstep, hI.2.step hI.1 hl.1 hstep⟩)
      ⟨hinv₁, hu₁⟩
      (along_of_forall (step P) (fun l hl _ => hduring l hl) (htd.2 s₁ hstart)) hrun
  have hphase := hend.2.phase
  rw [hreturned] at hphase
  obtain ⟨-, content, hkeys, hholds, hresult⟩ := hphase
  exact ⟨content, currentContent_of_holds hkeys hholds, hresult⟩

/-- An event, a fill of the cache, and a second call that reuses its entry. -/
theorem getInventory_current_reuse : ∃ s s', run (step sampleParams) sampleState
          ([.publish 0 2, .applyEvent 0, .tick 1, .start 0 (singleton 0)] ++ fillLabels 0) = some s
      ∧ run (step sampleParams) s (.start 1 (singleton 0) :: reuseLabels 1) = some s'
      ∧ s'.calls 1 = some (.returned (singleton 0) (.ok [2]))
      ∧ ∃ content, currentContent s' (singleton 0) = some content
        ∧ .ok [2] = sampleParams.buildInventory content := by
  have hinitial : sampleState.Initial := ⟨fun _ => rfl, fun _ => rfl⟩
  have hbefore : run (step sampleParams) sampleState
    ([.publish 0 2, .applyEvent 0, .tick 1, .start 0 (singleton 0)] ++ fillLabels 0) = some _ := rfl
  refine ⟨_, _, hbefore, rfl, rfl, getInventory_current sampleParams (c := 1) hinitial
    hbefore ?_ rfl (reuseLabels_not_event 1) ?_ rfl⟩
  · intro r f hf
    by_cases hr : r = 0
    · subst hr
      cases hf
      rfl
    · have hsame : sampleState.reflectors r = some f := by
        rw [← hf]
        simp [State.setReflector, State.setCall, State.insert, Function.update_of_ne hr]
      exact sampleState_quiet r f hsame
  · -- the event comes when nothing is recorded, and the read when it was applied
    refine ⟨?_, fun _ h₁ => ⟨trivial, fun _ h₂ => ⟨trivial, fun _ h₃ => ⟨trivial, fun _ h₄ =>
      ⟨trivial, fun _ h₅ => ⟨trivial, fun _ h₆ => ⟨?_, fun _ _ => ⟨trivial, fun _ _ =>
        ⟨trivial, fun _ _ => ⟨trivial, fun _ _ => ⟨trivial, fun _ _ => ⟨trivial,
          fun _ _ => trivial⟩⟩⟩⟩⟩⟩⟩⟩⟩⟩⟩⟩
    · rintro since (⟨resources, entry, h, -⟩ | ⟨c, resources, todo, content, h, -⟩) <;> cases h
    · cases h₁
      cases h₂
      cases h₃
      cases h₄
      cases h₅
      cases h₆
      intro resources now r todo content f hc hf
      cases hc
      cases hf
      exact .inl rfl

/-- **A stale inventory is served.** A call fills the cache before an event is
applied, later than its publication; a second call reuses the entry, and returns
`1` where the store holds `2`. -/
theorem stale_inventory_served : ∃ s s', run (step sampleParams) sampleState
          ([.publish 0 2, .tick 1, .start 0 (singleton 0)]
            ++ fillLabels 0 ++ [.applyEvent 0]) = some s
      ∧ (∀ r f, s.reflectors r = some f → f.pending = none)
      ∧ run (step sampleParams) s (.start 1 (singleton 0) :: reuseLabels 1) = some s'
      ∧ (∀ l ∈ reuseLabels 1, ¬ l.IsEventOn (singleton 0))
      ∧ s'.calls 1 = some (.returned (singleton 0) (.ok [1]))
      ∧ currentContent s' (singleton 0) = some [(0, 2)]
      ∧ sampleParams.buildInventory [(0, 2)] = .ok [2] := by
  refine ⟨_, _, rfl, ?_, rfl, reuseLabels_not_event 1, rfl, rfl, rfl⟩
  intro r f hf
  by_cases hr : r = 0
  · subst hr
    cases hf
    rfl
  · have hsame : sampleState.reflectors r = some f := by
      rw [← hf]
      simp [State.setReflector, State.setCall, State.insert, Function.update_of_ne hr]
    exact sampleState_quiet r f hsame

end InventoryCache
