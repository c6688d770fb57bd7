import AdmController.StackHelper

/-!
# The heap of a Rego guest

A guest allocates memory from a pointer on upwards, which `set_data` and
`evaluate` move back.
-/

namespace GuestHeap

open Serde Burrego List

/-! ## A guest -/

/-- A document in the memory, which ends at an address. -/
structure Doc where
  value : Value
  stop : ℕ

/-- The documents of an evaluation, and the heap pointer before it. -/
structure Evaluated where
  (input data : Option Doc)
  start : BitVec 32

structure Heap where
  ptr : BitVec 32
  docs : BitVec 32 → Option Doc
  lastWrite : ℕ × List UInt8
  (ctxInput ctxData start : BitVec 32)
  evals : List Evaluated

/-- **Allocate above the heap pointer**: a document that the new memory reaches is
lost, those below and above stay. -/
def Heap.alloc (h : Heap) (n : ℕ) : Option Heap :=
  if h.ptr.toNat + n < 2 ^ 32 then
    some { h with
      ptr := BitVec.ofNat 32 (h.ptr.toNat + n)
      docs := fun a => (h.docs a).filter fun doc =>
        doc.stop ≤ h.ptr.toNat ∨ h.ptr.toNat + n ≤ a.toNat }
  else none

def Heap.waste (h : Heap) (n : ℕ) : Heap := (h.alloc n).getD h

def Heap.take (h : Heap) (n : ℕ) : EngineReport (BitVec 32) × Heap :=
  match h.alloc n with
  | some h' => (.ok h.ptr, h')
  | none => (.error (.trap "out of memory"), h)

def Heap.place (h : Heap) (v : Value) (n : ℕ) : EngineReport (BitVec 32) × Heap :=
  match h.alloc n with
  | some h' => (.ok h.ptr, { h' with
      docs := Function.update h'.docs h.ptr (some ⟨v, h.ptr.toNat + n⟩) })
  | none => (.error (.trap "out of memory"), h)

/-- A guest: how it reads documents, which calls fail, what they allocate. -/
structure Allocator where
  parse : List UInt8 → Option Value
  size : Value → ℕ
  fails : RegoFn → Heap → Option GuestFailure
  garbage : RegoFn → Heap → ℕ
  memory : Heap → LinearMemory
  entrypoints : List (String × BitVec 32)

variable (g : Allocator)

def Heap.seen (h : Heap) (fn : RegoFn) : Heap :=
  if fn = .eval then { h with evals := h.evals ++ [⟨h.docs h.ctxInput, h.docs h.ctxData, h.start⟩] }
  else h

/-- A call that does not fail. -/
def Allocator.answer (fn : RegoFn) (args : List (BitVec 32)) (h : Heap) :
    EngineReport (BitVec 32) × Heap :=
  match fn, args with
  | .opaHeapPtrGet, _ => (.ok h.ptr, h)
  | .opaHeapPtrSet, [p] => (.ok 0, { h with ptr := p, start := p })
  | .opaMalloc, [n] => h.take n.toNat
  | .opaJsonParse, [a, _] =>
    match if h.lastWrite.1 = a.toNat then g.parse h.lastWrite.2 else none with
    | some v => h.place v (g.size v + 1)
    | none => (.ok 0, h.waste (g.garbage fn h))
  | .opaEvalCtxSetInput, [_, a] => (.ok 0, { h with ctxInput := a })
  | .opaEvalCtxSetData, [_, a] => (.ok 0, { h with ctxData := a })
  | _, _ => h.take (g.garbage fn h)

def Allocator.guest : RegoGuest Heap where
  instantiate := .error "not used"
  call fn args h :=
    match g.fails fn (h.seen fn) with
    | some failure => (.error failure, (h.seen fn).waste (g.garbage fn (h.seen fn)))
    | none => g.answer fn args (h.seen fn)
  memory := g.memory
  write addr data h := { h with lastWrite := (addr, data) }
  entrypoints := g.entrypoints

/-! ## What calls do to documents -/

/-- **A document is at an address**, below the heap pointer. -/
structure Alive (h : Heap) (a : BitVec 32) (doc : Doc) : Prop where
  docs : h.docs a = some doc
  lt : a.toNat < doc.stop
  le : doc.stop ≤ h.ptr.toNat

/-- **Only memory above the heap pointer has changed.** -/
structure Later (h h' : Heap) : Prop where
  alive : ∀ {a doc}, Alive h a doc → Alive h' a doc
  ctx : h'.ctxInput = h.ctxInput ∧ h'.ctxData = h.ctxData
  start : h'.start = h.start
  evals : h'.evals = h.evals

theorem Later.refl (h : Heap) : Later h h := ⟨id, ⟨rfl, rfl⟩, rfl, rfl⟩

theorem later_alloc {h h' : Heap} {n : ℕ} (heq : h.alloc n = some h') :
    Later h h' ∧ h'.ptr.toNat = h.ptr.toNat + n := by
  unfold Heap.alloc at heq
  split_ifs at heq with hroom
  cases heq
  have hptr : (BitVec.ofNat 32 (h.ptr.toNat + n)).toNat = h.ptr.toNat + n := Nat.mod_eq_of_lt hroom
  refine ⟨⟨fun {a doc} ha => ⟨?_, ha.lt, ?_⟩, ⟨rfl, rfl⟩, rfl, rfl⟩, hptr⟩
  · show (h.docs a).filter _ = some doc
    rw [ha.docs, Option.filter_some, if_pos (decide_eq_true (.inl ha.le))]
  · exact ha.le.trans ((Nat.le_add_right _ n).trans hptr.ge)

theorem later_waste (h : Heap) (n : ℕ) : Later h (h.waste n) := by
  unfold Heap.waste
  cases heq : h.alloc n with
  | none => exact Later.refl h
  | some h' => exact (later_alloc heq).1

theorem later_take (h : Heap) (n : ℕ) : Later h (h.take n).2 := by
  unfold Heap.take
  split
  · next heq => exact (later_alloc heq).1
  · exact Later.refl h

theorem place_cases (h : Heap) (v : Value) (n : ℕ) :
    Later h (h.place v (n + 1)).2 ∧ ∀ a, (h.place v (n + 1)).1 = .ok a →
      Alive (h.place v (n + 1)).2 a ⟨v, (h.place v (n + 1)).2.ptr.toNat⟩ := by
  unfold Heap.place
  split
  · next h' heq =>
    obtain ⟨hlater, hptr⟩ := later_alloc heq
    refine ⟨⟨fun {a doc} ha => ?_, hlater.ctx, hlater.start, hlater.evals⟩, fun a ha => ?_⟩
    · obtain ⟨hdocs, hlt, hle⟩ := hlater.alive ha
      refine ⟨?_, hlt, hle⟩
      show Function.update h'.docs h.ptr _ a = _
      rw [Function.update_of_ne, hdocs]
      rintro rfl
      exact absurd (hlt.trans_le ha.le) (Nat.lt_irrefl _)
    · cases ha
      rw [hptr]
      exact ⟨Function.update_self .., Nat.lt_add_of_pos_right n.succ_pos, hptr.ge⟩
  · exact ⟨Later.refl h, fun a ha => by cases ha⟩

/-- The calls that change memory above the heap pointer only. -/
def Ordinary (fn : RegoFn) : Prop :=
  fn ≠ .opaHeapPtrSet ∧ fn ≠ .opaEvalCtxSetInput ∧ fn ≠ .opaEvalCtxSetData ∧ fn ≠ .eval

theorem call_cases (fn : RegoFn) (args : List (BitVec 32)) (h : Heap) :
    (∃ failure h', g.guest.call fn args h = (.error failure, h') ∧ Later (h.seen fn) h')
      ∨ g.guest.call fn args h = g.answer fn args (h.seen fn) := by
  cases hfails : g.fails fn (h.seen fn) with
  | some failure =>
    refine .inl ⟨failure, _, ?_, later_waste _ (g.garbage fn (h.seen fn))⟩
    simp only [Allocator.guest, hfails]
  | none =>
    refine .inr ?_
    simp only [Allocator.guest, hfails]

theorem Ordinary.later {fn : RegoFn} (hfn : Ordinary fn) (args : List (BitVec 32)) (h : Heap) :
    Later h (g.guest.call fn args h).2 := by
  have hseen : h.seen fn = h := if_neg hfn.2.2.2
  rcases call_cases g fn args h with ⟨failure, h', heq, hlater⟩ | heq
  · rw [heq]
    exact hseen ▸ hlater
  · rw [heq, hseen]
    unfold Allocator.answer
    split
    · exact Later.refl h
    · exact absurd rfl hfn.1
    · exact later_take h _
    · split
      · exact (place_cases h _ _).1
      · exact later_waste h _
    · exact absurd rfl hfn.2.1
    · exact absurd rfl hfn.2.2.1
    · exact later_take h _

/-! ## What the host's functions do -/

/-- **Ordinary calls keep a property.** -/
def Stable (P : RegoWorld Heap → Prop) : Prop :=
  ∀ w w', P w → w'.addrs = w.addrs → Later w.state w'.state → P w'

section

open Prog

variable {P I : RegoWorld Heap → Prop} {ε : Type} {fn : RegoFn}

theorem triple_callFn {Q : BitVec 32 → RegoWorld Heap → Prop} {args : List (BitVec 32)}
    (hI : ∀ w w', P w → w'.addrs = w.addrs → w'.state = (g.guest.call fn args w.state).2 → I w')
    (hQ : ∀ w w' a, P w → w'.addrs = w.addrs →
      g.guest.call fn args w.state = (.ok a, w'.state) → Q a w') :
    Triple P (callFn g.guest fn args) Q I := by
  intro w hw
  rcases hcall : g.guest.call fn args w.state with ⟨a | e, h'⟩
  all_goals rw [callFn_eq hcall]
  · exact ⟨hI w _ hw rfl (by rw [hcall]), fun b w' heq => by cases heq⟩
  · refine ⟨hI w _ hw rfl (by rw [hcall]), fun b w' heq => ?_⟩
    cases heq
    exact hQ w _ _ hw rfl hcall

theorem triple_ordinary (hfn : Ordinary fn) (hP : Stable P)
    (hI : ∀ w, P w → I w) (args : List (BitVec 32)) :
    Triple P (callFn g.guest fn args) (fun _ => P) I := by
  have hkeep : ∀ w w', P w → w'.addrs = w.addrs →
      w'.state = (g.guest.call fn args w.state).2 → P w' :=
    fun w w' hw haddrs hstate =>
      hP w w' hw haddrs (hstate ▸ hfn.later g args w.state)
  exact triple_callFn g (fun w w' hw ha hs => hI w' (hkeep w w' hw ha hs))
    fun w w' a hw ha hcall => hkeep w w' hw ha (by rw [hcall])

theorem triple_record (hP : Stable P) (hI : ∀ w, P w → I w) (e : RegoEvent) :
    Triple P (record e : Prog (RegoWorld Heap) ε Unit) (fun _ => P) I :=
  have hkeep : ∀ w, P w → P ⟨w.state, w.addrs, w.log ++ [e]⟩ :=
    fun w hw => hP w _ hw rfl (Later.refl w.state)
  triple_ask (fun w hw => hI _ (hkeep w hw)) hkeep

variable (texts : RegoTexts)

theorem triple_writeMemory (hP : Stable P) (hI : ∀ w, P w → I w)
    (a : BitVec 32) (data : List UInt8) :
    Triple P (writeMemory g.guest texts a data)
      (fun _ w => P w ∧ w.state.lastWrite = (a.toNat, data)) I := by
  intro w hw
  unfold writeMemory
  split_ifs
  · exact ⟨hI w hw, fun b w' h => by cases h⟩
  · have hkeep : P { w with state := g.guest.write a.toNat data w.state } :=
      hP w _ hw rfl ⟨fun h => ⟨h.docs, h.lt, h.le⟩, ⟨rfl, rfl⟩, rfl, rfl⟩
    refine ⟨hI _ hkeep, fun b w' h => ?_⟩
    cases h
    exact ⟨hkeep, rfl⟩
  · exact ⟨hI w hw, fun b w' h => by cases h⟩

theorem triple_parse (hP : Stable P) (hI : ∀ w, P w → I w) (a n : BitVec 32) (data : List UInt8) :
    Triple (fun w => P w ∧ w.state.lastWrite = (a.toNat, data))
      (callFn g.guest .opaJsonParse [a, n])
      (fun b w => P w ∧ (b ≠ 0 → ∃ v, g.parse data = some v
        ∧ Alive w.state b ⟨v, w.state.ptr.toNat⟩)) I := by
  have hfn : Ordinary .opaJsonParse := by simp [Ordinary]
  have hkeep : ∀ w w', P w → w'.addrs = w.addrs →
      w'.state = (g.guest.call .opaJsonParse [a, n] w.state).2 → P w' :=
    fun w w' hw haddrs hstate =>
      hP w w' hw haddrs (hstate ▸ hfn.later g [a, n] w.state)
  refine triple_callFn g (fun w w' hw ha hs => hI w' (hkeep w w' hw.1 ha hs))
    fun w w' b hw ha hcall => ⟨hkeep w w' hw.1 ha (by rw [hcall]), fun hb => ?_⟩
  rcases call_cases g .opaJsonParse [a, n] w.state with ⟨_, _, heq, _⟩ | heq
  · cases heq.symm.trans hcall
  have hread : (if w.state.lastWrite.1 = a.toNat
      then g.parse w.state.lastWrite.2 else none) = g.parse data := by
    rw [hw.2, if_pos rfl]
  rw [hcall] at heq
  simp only [Allocator.answer, Heap.seen, reduceCtorEq, if_false, hread] at heq
  cases hparse : g.parse data with
  | none =>
    rw [hparse] at heq
    exact absurd (Except.ok.inj (Prod.ext_iff.1 heq).1) hb
  | some v =>
    rw [hparse] at heq
    refine ⟨v, rfl, ?_⟩
    have hplace := (place_cases w.state v (g.size v)).2 b
    dsimp only at heq
    rw [← heq] at hplace
    exact hplace rfl

theorem triple_pushJsonRaw (hP : Stable P) (hI : ∀ w, P w → I w) (data : List UInt8) :
    Triple P (pushJsonRaw g.guest texts data) (fun b w => P w ∧ ∃ v, g.parse data = some v
      ∧ Alive w.state b ⟨v, w.state.ptr.toNat⟩) I := by
  unfold pushJsonRaw
  split_ifs
  · exact triple_throw _ hI
  · refine ((triple_ordinary g (by simp [Ordinary]) hP hI _).mapError _).bind
      fun a => (triple_record hP hI _).bind fun _ =>
        (triple_writeMemory g texts hP hI a data).bind fun _ =>
          ((triple_parse g hP hI a _ data).mapError _).bind fun b => ?_
    split_ifs with hb
    · exact triple_throw _ fun w hw => hI w hw.1
    · exact triple_pure (fun w hw => hI w hw.1) fun w hw => ⟨hw.1, hw.2 hb⟩

theorem triple_pushJson (hP : Stable P) (hI : ∀ w, P w → I w)
    (hround : ∀ {v data}, texts.toVec v = .ok data → g.parse data = some v) (v : Value) :
    Triple P (pushJson g.guest texts v)
      (fun b w => P w ∧ Alive w.state b ⟨v, w.state.ptr.toNat⟩) I := by
  unfold pushJson
  cases hdata : texts.toVec v with
  | error e => exact triple_throw _ hI
  | ok data =>
    refine (triple_pushJsonRaw g texts hP hI data).imp fun b w hw => ?_
    obtain ⟨hw, v', hv', hdoc⟩ := hw
    cases (hround hdata).symm.trans hv'
    exact ⟨hw, hdoc⟩

theorem triple_heapPtrGet (R : Heap → Prop) (name : String) : Triple (fun w => R w.state)
    (callPolicyFn g.guest texts .opaHeapPtrGet name [])
    (fun p w => R w.state ∧ p = w.state.ptr) fun _ => True := by
  refine (triple_callFn g (fun _ _ _ _ _ => trivial) fun w w' p hw _ hcall => ?_).mapError _
  rcases call_cases g .opaHeapPtrGet [] w.state with ⟨_, _, heq, _⟩ | heq
  · cases heq.symm.trans hcall
  · obtain ⟨hp, hstate⟩ := Prod.ext_iff.1 (hcall.symm.trans heq)
    have hsame : w'.state = w.state := hstate
    exact ⟨hsame ▸ hw, (Except.ok.inj hp).trans (congrArg Heap.ptr hsame.symm)⟩

/-! ## The data of a policy -/

/-- **The data document is in the memory**, with the heap pointer behind. -/
def Holds (v : Value) (w : RegoWorld Heap) : Prop :=
  Alive w.state w.addrs.dataAddr ⟨v, w.addrs.dataHeapPtr.toNat⟩

def policyNew : Prog (RegoWorld Heap) BurregoError Unit := do
  let dataAddr ← pushJson g.guest texts (.mapping [])
  let baseHeapPtr ← callPolicyFn g.guest texts .opaHeapPtrGet "opa_heap_ptr_get" []
  setAddrs ⟨dataAddr, baseHeapPtr, baseHeapPtr⟩

theorem triple_keepData (C : Value → Prop) (a : BitVec 32)
    (base : BitVec 32 → BitVec 32) (name : String) :
    Triple (fun w => ∃ v, C v ∧ Alive w.state a ⟨v, w.state.ptr.toNat⟩)
      (callPolicyFn g.guest texts .opaHeapPtrGet name [] >>= fun p =>
        setAddrs ⟨a, base p, p⟩)
      (fun _ w => ∃ v, C v ∧ Holds v w) fun _ => True := by
  refine (triple_heapPtrGet g texts
    (fun h => ∃ v, C v ∧ Alive h a ⟨v, h.ptr.toNat⟩) name).bind fun p => ?_
  refine triple_ask (fun _ _ => trivial) fun w hw => ?_
  obtain ⟨hdoc, rfl⟩ := hw
  exact hdoc

theorem policyNew_holds (hround : ∀ {v data}, texts.toVec v = .ok data → g.parse data = some v)
    {w w' : RegoWorld Heap} (h : policyNew g texts w = (.ok (), w')) :
    Holds (.mapping []) w' := by
  have hnew : Triple (fun _ => True) (policyNew g texts)
      (fun _ w => ∃ v, v = .mapping [] ∧ Holds v w) fun _ => True :=
    ((triple_pushJson g texts (fun _ _ _ _ _ => trivial) (fun _ _ => trivial)
      hround _).imp fun _ _ hw => ⟨_, rfl, hw.2⟩).bind fun a =>
        triple_keepData g texts _ a id _
  obtain ⟨v, rfl, hholds⟩ := (hnew w trivial).2 () w' h
  exact hholds

theorem setData_holds {data : List UInt8} {w w' : RegoWorld Heap}
    (h : setData g.guest texts data w = (.ok (), w')) :
    ∃ v, g.parse data = some v ∧ Holds v w' := by
  have hset : Triple (fun _ => True) (setData g.guest texts data)
      (fun _ w => ∃ v, g.parse data = some v ∧ Holds v w) fun _ => True := by
    refine (triple_ask (Q := fun _ _ => True) (fun _ _ => trivial)
      fun _ _ => trivial).bind fun addrs =>
      ((triple_callFn (Q := fun _ _ => True) g (fun _ _ _ _ _ => trivial)
        fun _ _ _ _ _ _ => trivial).mapError _).bind fun _ =>
      ((triple_pushJsonRaw g texts (fun _ _ _ _ _ => trivial) (fun _ _ => trivial)
        data).imp fun _ _ hw => hw.2).bind fun a => ?_
    refine Triple.bind (triple_ask (Q := fun _ w => ∃ v, g.parse data = some v
      ∧ Alive w.state a ⟨v, w.state.ptr.toNat⟩) (fun _ _ => trivial)
      fun w hw => hw) fun _ => ?_
    exact triple_keepData g texts _ a (fun _ => addrs.baseHeapPtr) _
  exact (hset w trivial).2 () w' h

/-! ## Evaluations -/

theorem Stable.and {Q : RegoWorld Heap → Prop} (hP : Stable P)
    (hQ : Stable Q) : Stable fun w => P w ∧ Q w :=
  fun w w' h haddrs hlater =>
    ⟨hP w w' h.1 haddrs hlater, hQ w w' h.2 haddrs hlater⟩

theorem triple_getAddrs {α : Type} {Q : α → RegoWorld Heap → Prop}
    {addrs : PolicyAddrs} {f : PolicyAddrs → Prog (RegoWorld Heap) ε α}
    (haddrs : ∀ w, P w → w.addrs = addrs) (h : Triple P (f addrs) Q I) :
    Triple P (getAddrs >>= f) Q I := by
  intro w hw
  have hrun := h w hw
  rw [← haddrs w hw] at hrun
  exact hrun

theorem triple_putting {Q : RegoWorld Heap → Prop} {args : List (BitVec 32)} (hfn : fn ≠ .eval)
    (hP : Stable P) (hI : ∀ w, P w → I w) (hQI : ∀ w, Q w → I w)
    (hQ : ∀ w w', P w → w'.addrs = w.addrs → w'.state = (g.answer fn args w.state).2 → Q w')
    (name : String) :
    Triple P (callPolicyFn g.guest texts fn name args) (fun _ => Q) I := by
  have hseen (h : Heap) : h.seen fn = h := if_neg hfn
  refine (triple_callFn g (fun w w' hw haddrs hstate => ?_)
    fun w w' a hw haddrs hcall => ?_).mapError _
  all_goals rcases call_cases g fn args w.state with ⟨e, h', heq, hlater⟩ | heq
  all_goals rw [hseen] at *
  · exact hI w' (hP w w' hw haddrs (by rwa [hstate, heq]))
  · exact hQI w' (hQ w w' hw haddrs (by rw [hstate, heq]))
  · cases heq.symm.trans hcall
  · exact hQ w w' hw haddrs (by rw [← heq, hcall])

theorem triple_pullJson (hP : Stable P) (hI : ∀ w, P w → I w) (a : BitVec 32) :
    Triple P (pullJson g.guest texts a) (fun _ => P) I := by
  refine ((triple_ordinary g (by simp [Ordinary]) hP hI _).mapError _).bind
    fun raw => (triple_of_same (fun _ => rfl) hI).bind fun memory =>
      (triple_record hP hI _).bind fun _ =>
        (triple_of_same (fun _ => rfl) hI).bind fun bytes => ?_
  exact triple_of_same (fun w => by cases texts.fromSlice bytes <;> rfl) hI

/-- **An evaluation with an input and data**, right behind the data. -/
def RunsWith (input data : Value) (e : Evaluated) : Prop :=
  ∃ i d, e.input = some i ∧ i.value = input
    ∧ e.data = some d ∧ d.value = data ∧ e.start.toNat = d.stop

section

variable (input data : Value) (addrs : PolicyAddrs) (E : List Evaluated)

def Ready (w : RegoWorld Heap) : Prop :=
  w.addrs = addrs ∧ w.state.evals = E ∧ Alive w.state addrs.dataAddr ⟨data, addrs.dataHeapPtr.toNat⟩

def Begun (w : RegoWorld Heap) : Prop := Ready data addrs E w ∧ w.state.start = addrs.dataHeapPtr

def Loaded (a : BitVec 32) (w : RegoWorld Heap) : Prop :=
  Begun data addrs E w ∧ ∃ i, i.value = input ∧ Alive w.state a i

def Made (w : RegoWorld Heap) : Prop := ∃ e, RunsWith input data e ∧ Ready data addrs (E ++ [e]) w

theorem stable_ready : Stable (Ready data addrs E) :=
  fun _ _ h haddrs hlater => ⟨haddrs.trans h.1, hlater.evals.trans h.2.1, hlater.alive h.2.2⟩

theorem stable_begun : Stable (Begun data addrs E) :=
  (stable_ready data addrs E).and fun _ _ h _ hlater => hlater.start.trans h

theorem stable_loaded (a : BitVec 32) : Stable (Loaded input data addrs E a) :=
  (stable_begun data addrs E).and fun _ _ ⟨i, hi, h⟩ _ hlater =>
    ⟨i, hi, hlater.alive h⟩

theorem Loaded.congr {a x y : BitVec 32} {w w' : RegoWorld Heap}
    (h : Loaded input data addrs E a w) (haddrs : w'.addrs = w.addrs)
    (hstate : w'.state = { w.state with ctxInput := x, ctxData := y }) :
    Loaded input data addrs E a w' := by
  obtain ⟨⟨⟨hold, hevals, hdata⟩, hstart⟩, i, hi, hinput⟩ := h
  refine ⟨⟨⟨haddrs.trans hold, ?_, ?_⟩, ?_⟩, i, hi, ?_⟩
  all_goals rw [hstate]
  · exact hevals
  · exact ⟨hdata.docs, hdata.lt, hdata.le⟩
  · exact hstart
  · exact ⟨hinput.docs, hinput.lt, hinput.le⟩

theorem stable_made : Stable (Made input data addrs E) :=
  fun w w' ⟨e, he, h⟩ haddrs hlater =>
    ⟨e, he, stable_ready data addrs _ w w' h haddrs hlater⟩

def Linked (a : BitVec 32) (w : RegoWorld Heap) : Prop :=
  (Loaded input data addrs E a w ∧ w.state.ctxInput = a) ∧ w.state.ctxData = addrs.dataAddr

theorem stable_linked (a : BitVec 32) : Stable (Linked input data addrs E a) :=
  ((stable_loaded input data addrs E a).and fun _ _ h _ hlater => hlater.ctx.1.trans h).and
    fun _ _ h _ hlater => hlater.ctx.2.trans h

theorem Linked.seen {a : BitVec 32} {w w' : RegoWorld Heap} (h : Linked input data addrs E a w)
    (haddrs : w'.addrs = w.addrs) (hlater : Later (w.state.seen .eval) w'.state) :
    Made input data addrs E w' := by
  obtain ⟨⟨⟨⟨⟨hold, hevals, hdata⟩, hstart⟩, i, hi, hinput⟩, hctx⟩, hctxData⟩ := h
  refine ⟨⟨w.state.docs w.state.ctxInput, w.state.docs w.state.ctxData,
    w.state.start⟩, ⟨i, ⟨data, addrs.dataHeapPtr.toNat⟩, ?_, hi, ?_, rfl, ?_⟩,
    haddrs.trans hold, ?_, ?_⟩
  · exact (congrArg _ hctx).trans hinput.docs
  · exact (congrArg _ hctxData).trans hdata.docs
  · exact congrArg _ hstart
  · rw [hlater.evals, ← hevals]
    rfl
  · exact hlater.alive ⟨hdata.docs, hdata.lt, hdata.le⟩

theorem triple_eval (a : BitVec 32) (args : List (BitVec 32)) (name : String)
    (hI : ∀ w, Made input data addrs E w → I w) :
    Triple (Linked input data addrs E a) (callPolicyFn g.guest texts .eval name args)
      (fun _ => Made input data addrs E) I := by
  have hmade : ∀ w w', Linked input data addrs E a w → w'.addrs = w.addrs →
      w'.state = (g.guest.call .eval args w.state).2 →
      Made input data addrs E w' := by
    intro w w' hw haddrs hstate
    refine hw.seen input data addrs E haddrs ?_
    rcases call_cases g .eval args w.state with ⟨e, h', heq, hlater⟩ | heq
    · rwa [hstate, heq]
    · rw [hstate, heq]
      exact later_take _ _
  exact (triple_callFn g (fun w w' hw ha hs => hI w' (hmade w w' hw ha hs))
    fun w w' b hw ha hcall => hmade w w' hw ha (by rw [hcall])).mapError _

section

variable (hI : ∀ w, Ready data addrs E w → I w) (name : String)

include hI

theorem triple_begin : Triple (Ready data addrs E)
    (callPolicyFn g.guest texts .opaHeapPtrSet name [addrs.dataHeapPtr])
    (fun _ => Begun data addrs E) I := by
  refine triple_putting g texts (by simp) (stable_ready data addrs E) hI
    (fun w hw => hI w hw.1) (fun w w' hw haddrs hstate => ?_) name
  obtain ⟨hold, hevals, hdata⟩ := hw
  have hstate : w'.state = { w.state with ptr := addrs.dataHeapPtr, start := addrs.dataHeapPtr } :=
    hstate
  refine ⟨⟨haddrs.trans hold, ?_, ?_⟩, ?_⟩
  all_goals rw [hstate]
  · exact hevals
  · exact ⟨hdata.docs, hdata.lt, le_rfl⟩

theorem triple_setInput (ctx a : BitVec 32) : Triple (Loaded input data addrs E a)
    (callPolicyFn g.guest texts .opaEvalCtxSetInput name [ctx, a])
    (fun _ w => Loaded input data addrs E a w ∧ w.state.ctxInput = a) I := by
  refine triple_putting g texts (by simp) (stable_loaded input data addrs E a)
    (fun w hw => hI w hw.1.1) (fun w hw => hI w hw.1.1.1)
    (fun w w' hw haddrs hstate => ?_) name
  exact ⟨hw.congr input data addrs E haddrs hstate, by rw [hstate]; rfl⟩

theorem triple_setData (ctx a : BitVec 32) :
    Triple (fun w => Loaded input data addrs E a w ∧ w.state.ctxInput = a)
      (callPolicyFn g.guest texts .opaEvalCtxSetData name [ctx, addrs.dataAddr])
      (fun _ => Linked input data addrs E a) I := by
  refine triple_putting g texts (by simp) ((stable_loaded input data addrs E a).and
    fun _ _ h _ hlater => hlater.ctx.1.trans h)
    (fun w hw => hI w hw.1.1.1) (fun w hw => hI w hw.1.1.1.1)
    (fun w w' hw haddrs hstate => ?_) name
  refine ⟨⟨hw.1.congr input data addrs E haddrs hstate, ?_⟩, by rw [hstate]; rfl⟩
  rw [hstate]
  exact hw.2

end

theorem triple_policyEvaluate
    (hround : ∀ {v data}, texts.toVec v = .ok data → g.parse data = some v)
    (entrypointId : BitVec 32) :
    Triple (Ready data addrs E) (policyEvaluate g.guest texts entrypointId input)
      (fun _ => Made input data addrs E)
      fun w => Ready data addrs E w ∨ Made input data addrs E w := by
  have hready : ∀ w, Ready data addrs E w →
    Ready data addrs E w ∨ Made input data addrs E w := fun _ => .inl
  have hmade : ∀ w, Made input data addrs E w →
    Ready data addrs E w ∨ Made input data addrs E w := fun _ => .inr
  refine triple_getAddrs (fun w hw => hw.1) ?_
  refine (triple_begin g texts data addrs E hready _).bind fun _ => ?_
  refine Triple.bind (Q := Loaded input data addrs E)
    ((triple_pushJson g texts (stable_begun data addrs E)
      (fun w hw => hready w hw.1) hround input).imp
        fun a w hw => ⟨hw.1, _, rfl, hw.2⟩) fun inputAddr => ?_
  refine ((triple_ordinary g (by simp [Ordinary]) (stable_loaded input data addrs E inputAddr)
    (fun w hw => hready w hw.1.1) _).mapError _).bind fun ctxAddr => ?_
  refine (triple_setInput g texts input data addrs E hready _ ctxAddr inputAddr).bind fun _ => ?_
  refine (triple_setData g texts input data addrs E hready _ ctxAddr inputAddr).bind fun _ => ?_
  refine ((triple_ordinary g (by simp [Ordinary]) (stable_linked input data addrs E inputAddr)
    (fun w hw => hready w hw.1.1.1.1) _).mapError _).bind fun _ => ?_
  refine (triple_eval g texts input data addrs E inputAddr _ _ hmade).bind fun _ => ?_
  refine ((triple_ordinary g (by simp [Ordinary])
    (stable_made input data addrs E) hmade _).mapError _).bind fun resAddr => ?_
  exact triple_pullJson g texts (stable_made input data addrs E) hmade resAddr

end

end

/-! ## Sequences of calls -/

inductive PolicyCall where
  | setData (data : List UInt8)
  | evaluate (entrypointId : BitVec 32) (input : Value)

/-- **A policy in the course of calls**: the data of the last successful
`set_data`, and whether the last one was. -/
structure History where
  world : RegoWorld Heap
  data : Value
  usable : Bool

variable (texts : RegoTexts)

def step (h : History) : PolicyCall → History
  | .setData data =>
    match setData g.guest texts data h.world with
    | (.ok (), w) => ⟨w, (g.parse data).getD h.data, true⟩
    | (_, w) => ⟨w, h.data, false⟩
  | .evaluate entrypointId input => { h with
      world := (policyEvaluate g.guest texts entrypointId input h.world).2 }

/-- **What a call of `evaluate` adds** to the evaluations. -/
def EvaluatesWith (data : Value) (entrypointId : BitVec 32) (input : Value)
    (w : RegoWorld Heap) : Prop :=
  ∃ evals, (policyEvaluate g.guest texts entrypointId input w).2.state.evals
    = w.state.evals ++ evals
    ∧ evals.length ≤ 1 ∧ (∀ e ∈ evals, RunsWith input data e)
    ∧ ((policyEvaluate g.guest texts entrypointId input w).1.isOk = true → evals.length = 1)

theorem Holds.evaluate {data : Value} {w : RegoWorld Heap} (h : Holds data w)
    (hround : ∀ {v data}, texts.toVec v = .ok data → g.parse data = some v)
    (entrypointId : BitVec 32) (input : Value) :
    EvaluatesWith g texts data entrypointId input w
      ∧ Holds data (policyEvaluate g.guest texts entrypointId input w).2 := by
  obtain ⟨hI, hQ⟩ := triple_policyEvaluate g texts input data w.addrs
    w.state.evals hround entrypointId w ⟨rfl, rfl, h⟩
  have hholds : ∀ {evals w'}, Ready data w.addrs evals w' → Holds data w' :=
    fun hready => by
      unfold Holds
      rw [hready.1]
      exact hready.2.2
  unfold EvaluatesWith
  rcases hrun : policyEvaluate g.guest texts entrypointId input w with ⟨r, w'⟩
  rw [hrun] at hI hQ
  by_cases hmade : Made input data w.addrs w.state.evals w'
  · obtain ⟨e, he, hready⟩ := hmade
    refine ⟨⟨[e], hready.2.1, le_rfl, fun e' he' => ?_, fun _ => rfl⟩, hholds hready⟩
    exact mem_singleton.1 he' ▸ he
  · have hready := hI.resolve_right hmade
    refine ⟨⟨[], ?_, Nat.zero_le 1, fun e he => absurd he not_mem_nil,
      fun hok => ?_⟩, hholds hready⟩
    · rw [append_nil]
      exact hready.2.1
    · obtain ⟨a, _, ha⟩ := Outcome.exists_of_isOk (r := (r, w')) hok
      cases ha
      exact absurd (hQ a w' rfl) hmade

theorem step_holds {h : History} (hholds : h.usable = true → Holds h.data h.world)
    (hround : ∀ {v data}, texts.toVec v = .ok data → g.parse data = some v)
    (call : PolicyCall) (husable : (step g texts h call).usable = true) :
    Holds (step g texts h call).data (step g texts h call).world := by
  cases call with
  | evaluate entrypointId input =>
    exact ((hholds husable).evaluate g texts hround entrypointId input).2
  | setData data =>
    unfold step at husable ⊢
    rcases hset : setData g.guest texts data h.world with ⟨_ | _ | _, w⟩
    all_goals simp only [hset] at husable ⊢
    · obtain ⟨v, hv, hw⟩ := setData_holds g texts hset
      rw [hv]
      exact hw
    · cases husable
    · cases husable

/-- **Evaluations run with their input and with the data that was set last**,
unless the last `set_data` has failed. -/
theorem evaluations_run_with_data
    (hround : ∀ {v data}, texts.toVec v = .ok data → g.parse data = some v)
    {w₀ w : RegoWorld Heap} (hnew : policyNew g texts w₀ = (.ok (), w))
    (calls : List PolicyCall) (entrypointId : BitVec 32) (input : Value)
    (husable : (calls.foldl (step g texts) ⟨w, .mapping [], true⟩).usable = true) :
    EvaluatesWith g texts (calls.foldl (step g texts) ⟨w, .mapping [], true⟩).data
      entrypointId input
      (calls.foldl (step g texts) ⟨w, .mapping [], true⟩).world := by
  -- the data is in the memory after each call that leaves the policy usable
  have hinv : ∀ (calls : List PolicyCall) (h : History), (h.usable = true → Holds h.data h.world) →
      (calls.foldl (step g texts) h).usable = true →
      Holds (calls.foldl (step g texts) h).data (calls.foldl (step g texts) h).world := by
    intro calls
    induction calls with
    | nil => exact fun h hholds => hholds
    | cons call calls ih => exact fun h hholds => ih _ (step_holds g texts hholds hround call)
  have hholds := hinv calls ⟨w, .mapping [], true⟩
    (fun _ => policyNew_holds g texts hround hnew) husable
  exact (hholds.evaluate g texts hround entrypointId input).1

def boolAllocator : Allocator where
  parse data := (boolTexts.fromSlice data).toOption
  size _ := 3
  fails _ _ := none
  garbage _ _ := 2
  memory _ := ⟨replicate 64 0, by decide⟩
  entrypoints := []

def freshHeap : RegoWorld Heap where
  state := ⟨8, fun _ => none, (0, []), 0, 0, 0, []⟩
  addrs := ⟨0, 0, 0⟩
  log := []

theorem boolTexts_parse {v : Value} {data : List UInt8}
    (h : boolTexts.toVec v = .ok data) : boolAllocator.parse data = some v := by
  unfold boolTexts at h
  dsimp only at h
  split at h
  all_goals cases h
  all_goals rfl

def afterCalls (calls : List PolicyCall) : History :=
  calls.foldl (step boolAllocator boolTexts)
    ⟨(policyNew boolAllocator boolTexts freshHeap).2, .mapping [], true⟩

theorem evaluates_with_true : (afterCalls [.setData [116, 114, 117, 101]]).usable = true
      ∧ EvaluatesWith boolAllocator boolTexts
        (afterCalls [.setData [116, 114, 117, 101]]).data 0 (.bool false)
        (afterCalls [.setData [116, 114, 117, 101]]).world := by
  have husable : (afterCalls [.setData [116, 114, 117, 101]]).usable = true := by decide +kernel
  obtain ⟨⟨⟩, w, hnew⟩ := Outcome.exists_of_isOk
    (r := policyNew boolAllocator boolTexts freshHeap) (by decide +kernel)
  refine ⟨husable, ?_⟩
  unfold afterCalls at husable ⊢
  rw [hnew] at husable ⊢
  exact evaluations_run_with_data boolAllocator boolTexts boolTexts_parse hnew
    [.setData [116, 114, 117, 101]] 0 (.bool false) husable

/-- `true`, and then a text that is no JSON and is long enough to reach it. -/
def overwriting : List PolicyCall :=
  [.setData [116, 114, 117, 101], .setData [33, 33, 33, 33, 33]]

/-- **A failed `set_data` loses the data**: the text overwrites it. -/
theorem data_is_overwritten : (afterCalls [.setData [116, 114, 117, 101]]).usable = true
      ∧ (afterCalls overwriting).usable = false
      ∧ ¬ EvaluatesWith boolAllocator boolTexts (afterCalls overwriting).data 0
        (.bool false) (afterCalls overwriting).world := by
  refine ⟨by decide +kernel, by decide +kernel, fun hwith => ?_⟩
  have hnone : ((policyEvaluate boolAllocator.guest boolTexts 0 (.bool false)
      (afterCalls overwriting).world).2.state.evals.map fun e => e.data.isNone) = [true] := by
    decide +kernel
  obtain ⟨evals, hevals, -, hruns, -⟩ := hwith
  have hbefore : (afterCalls overwriting).world.state.evals = [] :=
    length_eq_zero_iff.1 (by decide +kernel)
  rw [hevals, hbefore, nil_append] at hnone
  obtain ⟨e, rfl, he⟩ := map_eq_singleton_iff.1 hnone
  obtain ⟨i, d, -, -, hdata, -⟩ := hruns e mem_cons_self
  rw [hdata] at he
  cases he

end GuestHeap
