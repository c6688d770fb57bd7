import AdmController.RustDebug
import AdmController.RustStr
import AdmController.StepSystem

/-!
# The reflectors of the Kubernetes client

A list request is answered from a reflector, kept under an identifier computed
from the request: a text with the separator `|`, which selectors may contain.
They are printed by `Debug` though, so that it can be read in one way only. Calls
that find no reflector at the same time create one each.
-/

namespace Reflectors

open RustStr

structure ApiResource where
  (group version apiVersion kind plural : String)
deriving DecidableEq

structure KubeResource where
  resource : ApiResource
  namespaced : Bool
deriving DecidableEq

/-- The arguments of `list_resources_from_reflector`. -/
structure ListRequest where
  resource : KubeResource
  (inNamespace labelSelector fieldSelector : Option String)
  fieldMasks : Option (BTreeSet String)
deriving DecidableEq

/-- **The same objects with the same masks.** -/
structure ListRequest.SameWatch (r r' : ListRequest) : Prop where
  apiVersion : r.resource.resource.apiVersion = r'.resource.resource.apiVersion
  kind : r.resource.resource.kind = r'.resource.resource.kind
  inNamespace : r.inNamespace = r'.inNamespace
  labelSelector : r.labelSelector = r'.labelSelector
  fieldSelector : r.fieldSelector = r'.fieldSelector
  fieldMasks : r.fieldMasks = r'.fieldMasks

open RustDebug

variable (printable : Char → Bool)

def selectorsText (q : Option String × Option String × Option String
    × Option (BTreeSet String)) : List Char :=
  debugOption (debugStr printable) q.1 ++ (['|'] ++ (debugOption (debugStr printable) q.2.1
    ++ (['|'] ++ (debugOption (debugStr printable) q.2.2.1
    ++ (['|'] ++ debugOption (debugSet (debugStr printable)) q.2.2.2)))))

def computeId (r : ListRequest) : String :=
  r.resource.resource.apiVersion ++ "|" ++ (r.resource.resource.kind ++ "|"
    ++ String.ofList (selectorsText printable
      (r.inNamespace, r.labelSelector, r.fieldSelector, r.fieldMasks)))

theorem selfDelimiting_selectorsText : SelfDelimiting (selectorsText printable) := by
  have hstr := selfDelimiting_debugStr printable
  have hset := selfDelimiting_debugSet hstr fun s rest rest' heq =>
    absurd (List.cons.inj heq).1 (by decide)
  have hoption := selfDelimiting_debugOption hstr
  exact hoption.pair ((hoption.pair ((hoption.pair
    ((selfDelimiting_debugOption hset).front ['|'])).front ['|'])).front ['|'])

theorem computeId_eq_iff {r r' : ListRequest}
    (hr : contains r.resource.resource.apiVersion '|' = false
      ∧ contains r.resource.resource.kind '|' = false)
    (hr' : contains r'.resource.resource.apiVersion '|' = false
      ∧ contains r'.resource.resource.kind '|' = false) :
    computeId printable r = computeId printable r' ↔ r.SameWatch r' := by
  constructor
  · intro heq
    obtain ⟨hversion, hrest⟩ := append_sep_inj hr.1 hr'.1 heq
    obtain ⟨hkind, htext⟩ := append_sep_inj hr.2 hr'.2 hrest
    have hselectors := (selfDelimiting_selectorsText printable).injective
      (String.ofList_injective htext)
    simp only [Prod.mk.injEq] at hselectors
    exact ⟨hversion, hkind, hselectors.1, hselectors.2.1, hselectors.2.2.1, hselectors.2.2.2⟩
  · intro h
    rw [computeId, h.apiVersion, h.kind, h.inNamespace, h.labelSelector,
      h.fieldSelector, h.fieldMasks]
    rfl

/-! ## The reflectors of a client -/

/-- A request without the separator in its API version and kind. -/
abbrev PlainRequest := { r : ListRequest // contains r.resource.resource.apiVersion '|' = false
  ∧ contains r.resource.resource.kind '|' = false }

/-! ## The reflectors that are shared -/

/-- **A client in the course of calls**: the cached reflectors by their numbers, the
calls that are creating one, the requests of all that were made so far, in their
order, and the reflector from which each call was answered. -/
structure Client where
  reflectors : HashMap String ℕ
  (creating made : List PlainRequest)
  answered : List (PlainRequest × ℕ)

def Client.new : Client := ⟨∅, [], [], []⟩

/-- A call of `get_reflector_reader` begins, or its reflector is ready, or fails. -/
inductive Event where
  | list (r : PlainRequest)
  | ready (r : PlainRequest)
  | failed (r : PlainRequest)

/-- **One event.** The lock is released between the look-up and the insertion,
which does not look again. -/
def step (c : Client) : Event → Option Client
  | .list r =>
    match c.reflectors.lookup (computeId printable r) with
    | some n => some { c with answered := (r, n) :: c.answered }
    | none => some { c with creating := r :: c.creating }
  | .ready r =>
    if r ∈ c.creating then
      some { reflectors := c.reflectors.insert (computeId printable r) c.made.length
             creating := c.creating.erase r
             made := c.made ++ [r]
             answered := (r, c.made.length) :: c.answered }
    else none
  | .failed r =>
    if r ∈ c.creating then some { c with creating := c.creating.erase r } else none

/-- The request whose reflector is ready at an event. -/
def Event.readied : Event → Option PlainRequest
  | .ready r => some r
  | _ => none

theorem computeId_eq_iff_sameWatch (r r' : PlainRequest) :
    computeId printable r = computeId printable r' ↔ r.1.SameWatch r'.1 :=
  computeId_eq_iff printable r.2 r'.2

/-- **Every answer comes from a reflector with the identifier of the request**, and
every reflector answered the call that made it. -/
structure Client.Numbered (c : Client) : Prop where
  cached : ∀ {id n}, c.reflectors.lookup id = some n →
    ∃ r, c.made[n]? = some r ∧ computeId printable r = id
  answered : ∀ {r n}, (r, n) ∈ c.answered →
    ∃ r', c.made[n]? = some r' ∧ computeId printable r' = computeId printable r
  own : ∀ {r n}, c.made[n]? = some r → (r, n) ∈ c.answered

theorem Client.numbered_new : Client.new.Numbered printable :=
  ⟨nofun, nofun, nofun⟩

variable {printable}

theorem Client.Numbered.ready {c : Client} (h : c.Numbered printable) (r : PlainRequest)
    (creating : List PlainRequest) :
    Client.Numbered printable ⟨c.reflectors.insert (computeId printable r) c.made.length, creating,
      c.made ++ [r], (r, c.made.length) :: c.answered⟩ := by
  have hlast : (c.made ++ [r])[c.made.length]? = some r := by simp
  have hkept {n : ℕ} {r' : PlainRequest} (hn : c.made[n]? = some r') :
      (c.made ++ [r])[n]? = some r' := by
    rw [List.getElem?_append_left (List.getElem?_eq_some_iff.1 hn).1, hn]
  constructor
  · intro id n hn
    rcases AList.lookup_insert_eq_some_iff.1 hn with ⟨rfl, rfl⟩ | ⟨-, hn⟩
    · exact ⟨r, hlast, rfl⟩
    · obtain ⟨r', hr', hid⟩ := h.cached hn
      exact ⟨r', hkept hr', hid⟩
  · intro r₁ n hn
    rcases List.mem_cons.1 hn with heq | hn
    · cases heq
      exact ⟨r, hlast, rfl⟩
    · obtain ⟨r', hr', hid⟩ := h.answered hn
      exact ⟨r', hkept hr', hid⟩
  · intro r' n hn
    rcases Nat.lt_or_ge n c.made.length with hlt | hge
    · rw [List.getElem?_append_left hlt] at hn
      exact List.mem_cons_of_mem _ (h.own hn)
    · have hlt := (List.getElem?_eq_some_iff.1 hn).1
      obtain rfl : n = c.made.length := by simp at hlt; omega
      cases hlast.symm.trans hn
      exact List.mem_cons_self

theorem Client.Numbered.step {c c' : Client} {e : Event} (h : c.Numbered printable)
    (hstep : step printable c e = some c') :
    c'.Numbered printable ∧ c'.made = c.made ++ e.readied.toList := by
  cases e with
  | list r =>
    simp only [Reflectors.step] at hstep
    split at hstep
    · next n hn =>
      cases hstep
      refine ⟨⟨h.cached, fun {r' n'} hmem => ?_, fun hn => List.mem_cons_of_mem _ (h.own hn)⟩,
        (List.append_nil _).symm⟩
      rcases List.mem_cons.1 hmem with heq | hmem
      · cases heq
        exact h.cached hn
      · exact h.answered hmem
    · cases hstep
      exact ⟨⟨h.cached, h.answered, h.own⟩, (List.append_nil _).symm⟩
  | ready r =>
    rw [Reflectors.step, Option.ite_none_right_eq_some] at hstep
    cases hstep.2
    exact ⟨h.ready r _, rfl⟩
  | failed r =>
    rw [Reflectors.step, Option.ite_none_right_eq_some] at hstep
    cases hstep.2
    exact ⟨⟨h.cached, h.answered, h.own⟩, (List.append_nil _).symm⟩

/-- **The reflectors of a run** are made for the requests that became ready. -/
theorem Client.Numbered.run {events : List Event} {c c' : Client} (h : c.Numbered printable)
    (hrun : StepSystem.run (Reflectors.step printable) c events = some c') :
    c'.Numbered printable ∧ c'.made = c.made ++ events.filterMap Event.readied := by
  induction events generalizing c with
  | nil =>
    cases hrun
    exact ⟨h, (List.append_nil _).symm⟩
  | cons e events ih =>
    obtain ⟨m, hm, hrest⟩ := Option.bind_eq_some_iff.1 hrun
    obtain ⟨hnumbered, hmade⟩ := h.step hm
    obtain ⟨hend, hall⟩ := ih hnumbered hrest
    refine ⟨hend, hall.trans ?_⟩
    rw [hmade, List.append_assoc]
    cases he : e.readied <;> simp [he]

/-- **Calls share a reflector exactly if they watch the same objects with the same
masks.** -/
def Client.Shares (c : Client) : Prop :=
  ∀ a ∈ c.answered, ∀ a' ∈ c.answered, (a.2 = a'.2 ↔ a.1.1.SameWatch a'.1.1)

theorem Client.Numbered.shares_iff {c : Client} (h : c.Numbered printable) :
    c.Shares ↔ c.made.Pairwise fun r r' => ¬ r.1.SameWatch r'.1 := by
  rw [List.pairwise_iff_getElem]
  constructor
  · intro hshares i j hi hj hlt hsame
    have heq := (hshares _ (h.own (List.getElem?_eq_getElem hi)) _
      (h.own (List.getElem?_eq_getElem hj))).2 hsame
    exact absurd heq hlt.ne
  · rintro hapart ⟨r, n⟩ hr ⟨r', n'⟩ hr'
    obtain ⟨m, hm, hid⟩ := h.answered hr
    obtain ⟨m', hm', hid'⟩ := h.answered hr'
    obtain ⟨hn, rfl⟩ := List.getElem?_eq_some_iff.1 hm
    obtain ⟨hn', rfl⟩ := List.getElem?_eq_some_iff.1 hm'
    rw [← computeId_eq_iff_sameWatch printable, ← hid, ← hid', computeId_eq_iff_sameWatch]
    constructor
    · rintro rfl
      exact ⟨rfl, rfl, rfl, rfl, rfl, rfl⟩
    · -- of two numbers, the larger one would be a second reflector for the request
      intro hsame
      by_contra hne
      rcases Nat.lt_or_gt_of_ne hne with hlt | hlt
      · exact hapart n n' hn hn' hlt hsame
      · exact hapart n' n hn' hn hlt ⟨hsame.1.symm, hsame.2.symm, hsame.3.symm, hsame.4.symm,
          hsame.5.symm, hsame.6.symm⟩

variable (printable)

/-- The pods of a namespace, with a selector that contains the separator. -/
def pods : PlainRequest where
  val :=
    { resource := ⟨⟨"", "v1", "v1", "Pod", "pods"⟩, true⟩
      inNamespace := some "default"
      labelSelector := some "a|None"
      fieldSelector := none
      fieldMasks := some (.singleton "metadata.name") }
  property := by decide +kernel

end Reflectors
