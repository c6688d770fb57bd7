import Mathlib.Data.Option.Basic
import AdmController.Effects

/-!
# Files that are staged and moved into place

A file is written atomically by writing a temporary file and moving it to its
place, over a tree of files, directories and links. A program that fails leaves
no trace (`withTempfileIn_eq_error`).
-/

namespace StagedFiles

open Prog Function

inductive Content where
  | file (bytes : List UInt8)
  | directory
  | link (target : String)
  | special

structure Node where
  mode : ℕ
  content : Content

def Node.isFile (node : Node) : Bool :=
  match node.content with
  | .file _ => true
  | _ => false

def Node.isDirectory (node : Node) : Bool :=
  match node.content with
  | .directory => true
  | _ => false

/-- **A file system**: what is stored at its places. -/
abbrev Tree (P : Type) := P → Option Node

def skeleton {P : Type} (t : Tree P) : Tree P := fun place => (t place).filter (!·.isFile)

inductive Call (P : Type) where
  | write (place : P) (bytes : List UInt8)
  | setPermissions (place : P) (mode : ℕ)
  | rename (place : P) (path : String)
  | canonicalize (path : String)
  | removeFile (path : String)

/-- **An operating system**: paths, temporary files, and which calls fail. -/
structure System (P : Type) where
  /-- Where a path leads to. A link at its end is not followed. -/
  locate : Tree P → String → Option P
  /-- Where a path leads to, with all links followed. -/
  follow : Tree P → String → Option P
  /-- The absolute path of a place. -/
  absolute : Tree P → P → String
  /-- A place for a temporary file in a directory. -/
  stage : Tree P → String → Except String P
  umask : ℕ
  fault : Call P → Tree P → Option String
  /-- Temporary files overwrite nothing. -/
  stage_free : ∀ t dir place, stage t dir = .ok place → t place = none
  /-- Where there is no link, there is nothing to follow. -/
  follow_of_locate : ∀ t path place, locate t path = some place →
    t place = none → follow t path = some place

structure Failure where
  alreadyExists : Bool
  msg : String

variable {P ε α : Type} [DecidableEq P] (t : Tree P) (place : P)

def store (mode : ℕ) (bytes : List UInt8) : Tree P := update t place (some ⟨mode, .file bytes⟩)

def clear : Tree P := update t place none

def move (place target : P) : Tree P := update (clear t place) target (t place)

namespace System

variable (sys : System P) (path : String)

def entry : Option Node := (sys.locate (skeleton t) path).bind t

def leads : Bool := ((sys.follow (skeleton t) path).bind t).isSome

/-! ## The calls -/

def call (c : Call P) (f : Tree P → Except Failure (α × Tree P)) :
    Prog (Tree P) Failure α := fun t =>
  match sys.fault c t with
  | some msg => (.error ⟨false, msg⟩, t)
  | none =>
    match f t with
    | .ok (a, t') => (.ok a, t')
    | .error e => (.error e, t)

def pathExists : Prog (Tree P) ε Bool := ask fun t => (sys.leads t path, t)

def permissions : Prog (Tree P) ε (Option ℕ) :=
  ask fun t =>
    (((sys.follow (skeleton t) path).bind t).map (·.mode), t)

def canonicalize : Prog (Tree P) Failure String :=
  sys.call (.canonicalize path) fun t =>
    match sys.follow (skeleton t) path with
    | none => .error ⟨false, "No such file or directory (os error 2)"⟩
    | some place =>
      if (t place).isSome then .ok (sys.absolute (skeleton t) place, t)
      else .error ⟨false, "No such file or directory (os error 2)"⟩

def removeFile : Prog (Tree P) Failure Unit :=
  sys.call (.removeFile path) fun t =>
    match sys.locate (skeleton t) path with
    | none => .error ⟨false, "No such file or directory (os error 2)"⟩
    | some place =>
      match t place with
      | none => .error ⟨false, "No such file or directory (os error 2)"⟩
      | some node =>
        if node.isDirectory then .error ⟨false, "Is a directory (os error 21)"⟩
        else .ok ((), clear t place)

def writeAll (bytes : List UInt8) : Prog (Tree P) Failure Unit :=
  sys.call (.write place bytes) fun t =>
    .ok ((), update t place ((t place).map fun node => { node with content := .file bytes }))

def setPermissions (mode : ℕ) : Prog (Tree P) Failure Unit :=
  sys.call (.setPermissions place mode) fun t =>
    .ok ((), update t place ((t place).map fun node => { node with mode := mode }))

def persist (path : String) : Prog (Tree P) Failure Unit :=
  sys.call (.rename place path) fun t =>
    match sys.locate (skeleton t) path with
    | none => .error ⟨false, "No such file or directory (os error 2)"⟩
    | some target =>
      if (t target).any (·.isDirectory) then .error ⟨false, "Is a directory (os error 21)"⟩
      else .ok ((), move t place target)

def persistNoclobber (path : String) : Prog (Tree P) Failure Unit :=
  sys.call (.rename place path) fun t =>
    match sys.locate (skeleton t) path with
    | none => .error ⟨false, "No such file or directory (os error 2)"⟩
    | some target =>
      if (t target).isSome then .error ⟨true, "File exists (os error 17)"⟩
      else .ok ((), move t place target)

def masked (mode : ℕ) : ℕ := mode ^^^ (mode &&& sys.umask)

def tempfileIn (dir : String) (mode : ℕ) : Prog (Tree P) Failure P := fun t =>
  match sys.stage t dir with
  | .error msg => (.error ⟨false, msg⟩, t)
  | .ok place => (.ok place, store t place (sys.masked mode) [])

def withTempfileIn (dir : String) (mode : ℕ) (onFailure : Failure → ε)
    (use : P → Prog (Tree P) ε α) : Prog (Tree P) ε α := do
  let place ← (sys.tempfileIn dir mode).mapError onFailure
  let result ← (use place).attempt
  match result with
  | .ok a => pure a
  | .error e =>
    let _ ← ask fun t => ((), clear t place)
    throw e

end System

section

variable {t t' : Tree P} {place : P} {mode : ℕ} {bytes : List UInt8}

/-! ## Regular files move nothing -/

theorem store_self : store t place mode bytes place = some ⟨mode, .file bytes⟩ := update_self _ _ _

theorem store_of_ne {other : P} (h : other ≠ place) : store t place mode bytes other = t other :=
  update_of_ne h _ _

theorem skeleton_store (h : t place = none) : skeleton (store t place mode bytes) = skeleton t := by
  funext other
  unfold skeleton
  by_cases hother : other = place
  · rw [hother, store_self, h]
    rfl
  · rw [store_of_ne hother]

theorem clear_of_forall (hfree : t place = none)
    (h : ∀ other, other ≠ place → t' other = t other) : clear t' place = t := by
  funext other
  unfold clear
  by_cases hother : other = place
  · rw [hother, update_self, hfree]
  · rw [update_of_ne hother, h other hother]

theorem clear_store (hfree : t place = none) : clear (store t place mode bytes) place = t :=
  clear_of_forall hfree fun _ => store_of_ne

theorem move_store {target : P} (hfree : t place = none) :
    move (store t place mode bytes) place target = store t target mode bytes := by
  unfold move
  rw [clear_store hfree, store_self]
  rfl

end

namespace System

variable {sys : System P} {t t' : Tree P} {f : Tree P → Except Failure (α × Tree P)}

/-! ## What calls do -/

omit [DecidableEq P] in
theorem call_eq_error {c : Call P} {e : Failure}
    (h : sys.call c f t = (.error e, t')) : t' = t := by
  unfold call at h
  split at h
  · cases h
    rfl
  · split at h
    · cases h
    · cases h
      rfl

omit [DecidableEq P] in
theorem call_eq_ok {c : Call P} {a : α} : sys.call c f t = (.ok a, t')
    ↔ sys.fault c t = none ∧ f t = .ok (a, t') := by
  unfold call
  cases sys.fault c t with
  | some msg => simp
  | none => cases hf : f t <;> simp [Prod.ext_iff]

omit [DecidableEq P] in
theorem noPanic_call (c : Call P) (f : Tree P → Except Failure (α × Tree P)) :
    (sys.call c f).NoPanic := by
  intro t
  unfold Prog.Returns call
  cases sys.fault c t with
  | some msg => exact ⟨.error _, t, rfl⟩
  | none =>
    cases f t with
    | ok r => exact ⟨.ok r.1, r.2, rfl⟩
    | error e => exact ⟨.error e, t, rfl⟩

variable {bytes : List UInt8} {place : P}

theorem writeAll_of_ne {other : P} {u : Unit}
    (h : sys.writeAll place bytes t = (.ok u, t')) (hother : other ≠ place) :
    t' other = t other := by
  cases (call_eq_ok.1 h).2
  exact update_of_ne hother _ _

variable {mode : ℕ}

theorem writeAll_store {bytes' : List UInt8} :
    sys.writeAll place bytes' (store t place mode bytes) = (.ok (), t')
      ↔ sys.fault (.write place bytes') (store t place mode bytes) = none
        ∧ t' = store t place mode bytes' := by
  unfold writeAll
  rw [call_eq_ok, store_self, store, update_idem]
  simp only [Option.map_some, Except.ok.injEq, Prod.mk.injEq, true_and]
  exact and_congr_right fun _ => eq_comm

variable {path : String}

theorem persistNoclobber_eq_ok : sys.persistNoclobber place path t = (.ok (), t')
    ↔ sys.fault (.rename place path) t = none ∧ ∃ target, sys.locate (skeleton t) path = some target
        ∧ t target = none ∧ t' = move t place target := by
  unfold persistNoclobber
  rw [call_eq_ok]
  refine and_congr_right fun _ => ?_
  cases sys.locate (skeleton t) path with
  | none => simp
  | some target =>
    cases htarget : t target with
    | none => simp [htarget, eq_comm]
    | some node => simp [htarget]

omit [DecidableEq P] in
theorem canonicalize_of_file (hlocate : sys.locate (skeleton t) path = some place)
    (hfile : t place = some ⟨mode, .file bytes⟩) :
    sys.canonicalize path t = match sys.fault (.canonicalize path) t with
        | some msg => (.error ⟨false, msg⟩, t)
        | none => (.ok (sys.absolute (skeleton t) place), t) := by
  have hskeleton : skeleton t place = none := by
    unfold skeleton
    rw [hfile]
    rfl
  unfold canonicalize call
  dsimp only
  rw [sys.follow_of_locate _ _ _ hlocate hskeleton]
  dsimp only
  rw [hfile]
  rfl

theorem removeFile_of_file (hlocate : sys.locate (skeleton t) path = some place)
    (hfile : t place = some ⟨mode, .file bytes⟩) :
    sys.removeFile path t = match sys.fault (.removeFile path) t with
        | some msg => (.error ⟨false, msg⟩, t)
        | none => (.ok (), clear t place) := by
  unfold removeFile call
  dsimp only
  rw [hlocate]
  dsimp only
  rw [hfile]
  rfl

/-! ## Temporary files -/

theorem withTempfileIn_apply (dir : String) (mode : ℕ)
    (onFailure : Failure → ε) (use : P → Prog (Tree P) ε α) (t : Tree P) :
    sys.withTempfileIn dir mode onFailure use t = match sys.stage t dir with
        | .error msg => (.error (onFailure ⟨false, msg⟩), t)
        | .ok place =>
          match use place (store t place (sys.masked mode) []) with
          | (.ok a, t') => (.ok a, t')
          | (.error e, t') => (.error e, clear t' place)
          | (.panic, t') => (.panic, t') := by
  unfold withTempfileIn
  rw [bind_apply]
  unfold mapError tempfileIn
  cases sys.stage t dir with
  | error msg => rfl
  | ok place =>
    dsimp only
    rw [bind_apply]
    unfold attempt
    rcases use place (store t place (sys.masked mode) []) with
      ⟨a | e | _, t'⟩ <;> rfl

variable {use : P → Prog (Tree P) ε α}

theorem withTempfileIn_eq_error {dir : String} {onFailure : Failure → ε} {e : ε}
    (huse : ∀ place t e t', use place t = (.error e, t') → ∀ other, other ≠
      place → t' other = t other)
    (h : sys.withTempfileIn dir mode onFailure use t = (.error e, t')) :
    t' = t := by
  rw [withTempfileIn_apply] at h
  cases hstage : sys.stage t dir with
  | error msg =>
    rw [hstage] at h
    cases h
    rfl
  | ok place =>
    rw [hstage] at h
    dsimp only at h
    rcases hrun : use place (store t place (sys.masked mode) []) with
      ⟨a | e' | _, t₁⟩
    all_goals
      rw [hrun] at h
      cases h
    refine clear_of_forall (sys.stage_free t dir place hstage) ?_
    intro other hother
    rw [huse place _ _ t₁ hrun other hother, store_of_ne hother]

theorem withTempfileIn_eq_ok {dir : String} {onFailure : Failure → ε} {a : α} :
    sys.withTempfileIn dir mode onFailure use t = (.ok a, t') ↔ ∃ place, sys.stage t dir = .ok place
      ∧ use place (store t place (sys.masked mode) []) = (.ok a, t') := by
  rw [withTempfileIn_apply]
  cases sys.stage t dir with
  | error msg => simp
  | ok place =>
    simp only [Except.ok.injEq, exists_eq_left']
    rcases use place (store t place (sys.masked mode) []) with
      ⟨_ | _ | _, t₁⟩ <;> simp

theorem noPanic_withTempfileIn (dir : String) (mode : ℕ)
    (onFailure : Failure → ε) (huse : ∀ place, (use place).NoPanic) :
    (sys.withTempfileIn dir mode onFailure use).NoPanic := by
  intro t
  unfold Prog.Returns
  rw [withTempfileIn_apply]
  cases sys.stage t dir with
  | error msg => exact ⟨.error _, t, rfl⟩
  | ok place =>
    obtain ⟨r, t', hr⟩ := huse place (store t place (sys.masked mode) [])
    dsimp only
    cases r with
    | ok a => exact ⟨.ok a, t', by rw [show use place _ = _ from hr]⟩
    | error e => exact ⟨.error e, clear t' place, by rw [show use place _ = _ from hr]⟩

/-- **A new file can be created at a place**, and no call fails. -/
structure Creates (sys : System P) (t : Tree P) (dir path : String) (mode : ℕ)
    (bytes : List UInt8) (place : P) : Prop where
  free : t place = none
  located : sys.locate (skeleton t) path = some place
  staged : ∃ temp, temp ≠ place ∧ sys.stage t dir = .ok temp
    ∧ sys.fault (.write temp bytes) (store t temp (sys.masked mode) []) = none
    ∧ sys.fault (.rename temp path) (store t temp (sys.masked mode) bytes) = none

section

variable {dir path : String} {mode : ℕ} {bytes : List UInt8} {place : P}

theorem Creates.entry_eq_none (h : sys.Creates t dir path mode bytes place) :
    sys.entry t path = none := by
  unfold System.entry
  rw [h.located]
  exact h.free

theorem Creates.leads_eq_false (h : sys.Creates t dir path mode bytes place) :
    sys.leads t path = false := by
  have hskeleton : skeleton t place = none := by
    unfold skeleton
    rw [h.free]
    rfl
  unfold leads
  rw [sys.follow_of_locate _ _ _ h.located hskeleton, Option.bind_some, h.free]
  rfl

theorem Creates.locate_store (h : sys.Creates t dir path mode bytes place)
    (mode' : ℕ) (bytes' : List UInt8) :
    sys.locate (skeleton (store t place mode' bytes')) path = some place := by
  rw [skeleton_store h.free, h.located]

end

end System

end StagedFiles
