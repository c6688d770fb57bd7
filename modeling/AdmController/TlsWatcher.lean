import Mathlib.Data.List.Dedup
import AdmController.Fallible
import AdmController.Paths
import AdmController.StepSystem

/-!
# Reloading certificates

The policy server reloads its certificate and its key when there was an event
for each of them. If they cannot be used at that moment, it waits for events
about both, which may never come.
-/

namespace Certs

open Fallible StepSystem Paths List Bool

/-! ## The files -/

structure TlsConfig where
  (certFile keyFile : String)
  clientCaFile : List String

def TlsConfig.files (tls : TlsConfig) : List String :=
  tls.certFile :: tls.keyFile :: tls.clientCaFile

def parentDir (path : String) : String := parentOrDot path

/-- **Third-party code**: the readers of PEM files, and the checks. -/
structure Rustls (C K V : Type) where
  certificates : List UInt8 → List C
  privateKeys : List UInt8 → List K
  clientVerifier : List C → Except String V
  withSingleCert : List C → K → Except String Unit

structure ServerConfig (C K V : Type) where
  cert : List C
  key : K
  clientVerifier : Option V
  deriving DecidableEq

def watchDirs {W : Type} (tls : TlsConfig)
    (addWatch : String → Except String W) : Except String (List (String × W)) :=
  (tls.files.map parentDir).dedup.mapM fun dir =>
    ((addWatch dir).mapError (fun e => "Cannot watch directory " ++ dir ++ ": " ++ e)).map (dir, ·)

/-- **What the watcher works with.** The watches were added. -/
structure Env (W C K V : Type) where
  tls : TlsConfig
  rustls : Rustls C K V
  addWatch : String → Except String W
  watchedDirs : List (String × W)
  watched : watchDirs tls addWatch = .ok watchedDirs

abbrev Files (W : Type) := W × String → Option (List UInt8)

variable {W C K V : Type} [DecidableEq W] (env : Env W C K V)

def Env.read (files : Files W) (path : String) : Except String (List UInt8) :=
  match env.addWatch (parentDir path), fileName path with
  | .ok dir, some name =>
    match files (dir, name) with
    | some contents => .ok contents
    | none => .error "No such file or directory (os error 2)"
  | _, _ => .error "No such file or directory (os error 2)"

def Env.loadServerCertAndKey (files : Files W) : Except String (List C × K) := do
  let certContents ← env.read files env.tls.certFile
  let keyContents ← env.read files env.tls.keyFile
  let certs := env.rustls.certificates certContents
  if certs.length ≠ 1 then
    throw ("Expected exactly one certificate in certificate file, found " ++ toString certs.length)
  else
    let keys := env.rustls.privateKeys keyContents
    match keys with
    | [key] => return (certs, key)
    | _ => throw ("Expected exactly one key in key file, found " ++ toString keys.length)

def Env.loadClientCaCerts (files : Files W) : Except String V := do
  let contents ← env.tls.clientCaFile.mapM (env.read files)
  let certs := contents.flatMap env.rustls.certificates
  (env.rustls.clientVerifier certs).mapError ("Cannot build client verifier: " ++ ·)

def Env.loadClientVerifier (files : Files W) : Except String (Option V) :=
  if env.tls.clientCaFile.isEmpty then .ok none
  else (env.loadClientCaCerts files).map some

def Env.buildTlsServerConfig (cert : List C) (key : K)
    (clientVerifier : Option V) : Except String (ServerConfig C K V) := do
  env.rustls.withSingleCert cert key
  return ⟨cert, key, clientVerifier⟩

/-! ## The watcher -/

inductive Event (W : Type) where
  | interrupted
  | failed (msg : String)
  | overflow
  | ignored (dir : W)
  | changed (dir : W) (name : Option String)

structure ChangedFiles where
  (cert key clientCa : Bool)

/-- **The watcher**: what was changed, what was loaded, and what is used. -/
structure Watcher (C K V : Type) where
  (certChanged keyChanged clientCaChanged : Bool)
  cert : List C
  key : K
  clientVerifier : Option V
  active : ServerConfig C K V
  deriving DecidableEq

def Env.dirsOf (dir : W) : List String := (env.watchedDirs.filter (·.2 = dir)).map Prod.fst

def isChanged (dirs : List String) (eventName : String) (path : String) : Bool :=
  dirs.any (parentDir path == ·) && (eventName == "..data" || fileName path == some eventName)

def changedFiles (tls : TlsConfig) (dirs : List String) (eventName : String) : ChangedFiles where
  cert := isChanged dirs eventName tls.certFile
  key := isChanged dirs eventName tls.keyFile
  clientCa := tls.clientCaFile.any (isChanged dirs eventName)

def Watcher.mark (w : Watcher C K V) (changed : ChangedFiles) : Watcher C K V :=
  { w with
    certChanged := w.certChanged || changed.cert
    keyChanged := w.keyChanged || changed.key
    clientCaChanged := w.clientCaChanged || changed.clientCa }

def Env.reloadClientCa (files : Files W) (w : Watcher C K V) :
    Except (Watcher C K V) (Watcher C K V) :=
  if w.clientCaChanged then
    match env.loadClientCaCerts files with
    | .ok cv => .ok { w with clientCaChanged := false, clientVerifier := some cv }
    | .error _ => .error { w with clientCaChanged := false }
  else .ok w

def Env.reloadServer (files : Files W) (w : Watcher C K V) :
    Except (Watcher C K V) (Watcher C K V) :=
  if w.keyChanged && w.certChanged then
    match env.loadServerCertAndKey files with
    | .ok (cert, key) => .ok { w with
        certChanged := false, keyChanged := false, cert := cert, key := key }
    | .error _ => .error { w with certChanged := false, keyChanged := false }
  else .ok w

def Env.apply (w : Watcher C K V) : Watcher C K V :=
  match env.buildTlsServerConfig w.cert w.key w.clientVerifier with
  | .ok serverConfig => { w with active := serverConfig }
  | .error _ => w

def Env.reload (files : Files W) (w : Watcher C K V) : Watcher C K V :=
  if !w.clientCaChanged && !(w.certChanged && w.keyChanged) then w
  else
    match env.reloadClientCa files w >>= env.reloadServer files with
    | .ok w => env.apply w
    | .error w => w

/-- **One iteration**, an error when changes cannot be detected any more. -/
def Env.handle (files : Files W) (w : Watcher C K V) : Event W → Except String (Watcher C K V)
  | .interrupted => .ok w
  | .failed msg => .error ("Cannot read inotify event: " ++ msg)
  | .overflow => .ok (env.reload files (w.mark ⟨true, true, !env.tls.clientCaFile.isEmpty⟩))
  | .ignored dir =>
    match env.dirsOf dir with
    | [] => .ok w
    | dirs => .error ("Directory [" ++ String.intercalate ", " (dirs.map RustStr.debug)
      ++ "] is no longer watched, changes of the TLS files in it cannot be detected")
  | .changed dir name =>
    match env.dirsOf dir, name with
    | [], _ => .ok w
    | _ :: _, none => .ok w
    | dirs, some name => .ok (env.reload files (w.mark (changedFiles env.tls dirs name)))

def Env.start (files : Files W) : Except String (Watcher C K V) := do
  let (cert, key) ← env.loadServerCertAndKey files
  let clientVerifier ← env.loadClientVerifier files
  let active ← env.buildTlsServerConfig cert key clientVerifier
  return ⟨false, false, false, cert, key, clientVerifier, active⟩

/-! ## Runs -/

/-- The files, the events that were not handled yet, and the watcher. -/
structure State (W C K V : Type) where
  files : Files W
  queue : List (W × String)
  watcher : Watcher C K V

/-- What happens: a write, a swap of `..data`, or the next event is handled. -/
inductive Action (W : Type) where
  | write (file : W × String) (contents : Option (List UInt8))
  | swap (dir : W) (contents : String → Option (List UInt8))
  | handle

def Env.step (s : State W C K V) : Action W → Option (State W C K V)
  | .write file contents => some { s with
      files := Function.update s.files file contents
      queue := s.queue ++ [file] }
  | .swap dir contents => some { s with
      files := fun file =>
        if file.1 = dir then contents file.2 else s.files file
      queue := s.queue ++ [(dir, "..data")] }
  | .handle =>
    match s.queue with
    | [] => none
    | event :: queue =>
      match env.handle s.files s.watcher (.changed event.1 (some event.2)) with
      | .ok watcher => some { s with queue := queue, watcher := watcher }
      | .error _ => none

section

variable {env} {files files' : Files W} {w : Watcher C K V}
  {s s' : State W C K V} {cfg : ServerConfig C K V}

/-! ## What events are about -/

omit [DecidableEq W] in
theorem mem_watchedDirs {dir : String} {watch : W} : (dir, watch) ∈ env.watchedDirs
    ↔ dir ∈ env.tls.files.map parentDir ∧ env.addWatch dir = .ok watch := by
  have hwatch (d : String) (entry : String × W) :
      ((env.addWatch d).mapError (fun e => "Cannot watch directory " ++ d
        ++ ": " ++ e)).map (d, ·) = .ok entry
        ↔ d = entry.1 ∧ env.addWatch d = .ok entry.2 := by
    rw [map_eq_ok]
    constructor
    · rintro ⟨watch, hwatch, rfl⟩
      exact ⟨rfl, mapError_eq_ok.1 hwatch⟩
    · rintro ⟨rfl, hwatch⟩
      exact ⟨entry.2, mapError_eq_ok.2 hwatch, rfl⟩
  rw [mem_of_mapM_eq_ok env.watched]
  simp only [hwatch, mem_dedup]
  constructor
  · rintro ⟨_, hdir, rfl, h⟩
    exact ⟨hdir, h⟩
  · rintro ⟨hdir, h⟩
    exact ⟨dir, hdir, rfl, h⟩

open Env ChangedFiles

theorem isChanged_iff {path name : String} {dir : W} (hpath : path ∈ env.tls.files) :
    isChanged (env.dirsOf dir) name path = true ↔ env.addWatch (parentDir path) = .ok dir
      ∧ (name = "..data" ∨ fileName path = some name) := by
  have hmem : parentDir path ∈ env.dirsOf dir ↔ env.addWatch (parentDir path) = .ok dir := by
    unfold dirsOf
    rw [mem_map]
    constructor
    · rintro ⟨⟨d, watch⟩, h, rfl⟩
      rw [mem_filter, decide_eq_true_eq] at h
      exact h.2 ▸ (mem_watchedDirs.1 h.1).2
    · intro h
      refine ⟨(parentDir path, dir), ?_, rfl⟩
      rw [mem_filter, decide_eq_true_eq]
      exact ⟨mem_watchedDirs.2 ⟨mem_map_of_mem hpath, h⟩, rfl⟩
  unfold isChanged
  rw [and_eq_true, any_beq, contains_iff_mem, hmem]
  simp

def Env.announces (env : Env W C K V) (event : W × String) : ChangedFiles :=
  changedFiles env.tls (env.dirsOf event.1) event.2

def Env.react (env : Env W C K V) (files : Files W) (w : Watcher C K V)
    (event : W × String) : Watcher C K V :=
  if env.dirsOf event.1 = [] then w
  else env.reload files (w.mark (env.announces event))

theorem handle_changed (event : W × String) : env.handle files w (.changed event.1 (some event.2))
    = .ok (env.react files w event) := by
  unfold react announces
  cases hdirs : env.dirsOf event.1 with
  | nil => simp [handle, hdirs]
  | cons dir dirs => simp [handle, hdirs]

omit [DecidableEq W] in
theorem read_congr {path : String} (h : ∀ dir name, env.addWatch (parentDir path) = .ok dir →
      fileName path = some name → files' (dir, name) = files (dir, name)) :
    env.read files' path = env.read files path := by
  unfold Env.read
  cases hdir : env.addWatch (parentDir path) with
  | error e => rfl
  | ok dir =>
    cases hname : fileName path with
    | none => rfl
    | some name => simp only [h dir name hdir hname]

variable {a : Action W}

theorem step_cases (h : env.step s a = some s') :
    (∃ event files', s' = ⟨files', s.queue ++ [event], s.watcher⟩ ∧ ∀ path ∈ env.tls.files,
          isChanged (env.dirsOf event.1) event.2 path = false →
            env.read files' path = env.read s.files path)
      ∨ ∃ event queue, s.queue = event :: queue
        ∧ s' = ⟨s.files, queue, env.react s.files s.watcher event⟩ := by
  cases a with
  | write file contents =>
    cases h
    refine .inl ⟨file, _, rfl, fun path hpath hchanged => ?_⟩
    refine read_congr fun dir name hdir hname => ?_
    refine Function.update_of_ne (fun hfile => ?_) _ _
    subst hfile
    exact eq_false_iff.1 hchanged ((isChanged_iff hpath).2 ⟨hdir, .inr hname⟩)
  | swap dir contents =>
    cases h
    refine .inl ⟨(dir, "..data"), _, rfl, fun path hpath hchanged => ?_⟩
    refine read_congr fun dir' name hdir hname => if_neg fun hdir' => ?_
    obtain rfl : dir' = dir := hdir'
    exact eq_false_iff.1 hchanged ((isChanged_iff hpath).2 ⟨hdir, .inl rfl⟩)
  | handle =>
    dsimp only [step] at h
    split at h
    · cases h
    · next event queue hqueue =>
      rw [handle_changed] at h
      cases h
      exact .inr ⟨event, queue, hqueue, rfl⟩

/-! ## What a reload can do -/

def Env.Verifies (env : Env W C K V) (files : Files W) (w : Watcher C K V)
    (clientVerifier : Option V) : Prop :=
  if w.clientCaChanged then (env.loadClientCaCerts files).map some = .ok clientVerifier
  else clientVerifier = w.clientVerifier

omit [DecidableEq W] in
theorem reload_cases : (w.clientCaChanged = false ∧ ¬ (w.certChanged = true ∧ w.keyChanged = true)
      ∧ env.reload files w = w)
    ∨ (w.clientCaChanged = true ∧ (∃ e, env.loadClientCaCerts files = .error e)
      ∧ env.reload files w = { w with clientCaChanged := false })
    ∨ ∃ v, env.Verifies files w v ∧ ((w.certChanged = true ∧ w.keyChanged = true
          ∧ (∃ e, env.loadServerCertAndKey files = .error e)
          ∧ env.reload files w = { w with
            certChanged := false, keyChanged := false
            clientCaChanged := false
            clientVerifier := v })
        ∨ (w.certChanged = true ∧ w.keyChanged = true
          ∧ ∃ cert key, env.loadServerCertAndKey files = .ok (cert, key)
          ∧ env.reload files w = env.apply { w with
            certChanged := false, keyChanged := false
            clientCaChanged := false
            cert := cert, key := key, clientVerifier := v })
        ∨ (w.clientCaChanged = true ∧ ¬ (w.certChanged = true ∧ w.keyChanged = true)
          ∧ env.reload files w = env.apply
            { w with clientCaChanged := false, clientVerifier := v })) := by
  obtain ⟨c, k, ca, cert, key, v, active⟩ := w
  unfold reload reloadClientCa Verifies
  have hserver : (c = true ∧ k = true ∧ ∃ e, env.loadServerCertAndKey files = .error e)
      ∨ (c = true ∧ k = true ∧ ∃ cert key, env.loadServerCertAndKey files = .ok (cert, key))
      ∨ (k && c) = false := by
    rcases env.loadServerCertAndKey files with e | ⟨cert, key⟩ <;> cases c <;> cases k <;> simp
  cases ca with
  | true =>
    cases env.loadClientCaCerts files with
    | error e => exact .inr (.inl ⟨rfl, ⟨e, rfl⟩, rfl⟩)
    | ok cv =>
      refine .inr (.inr ⟨some cv, rfl, ?_⟩)
      obtain ⟨rfl, rfl, e, he⟩ | ⟨rfl, rfl, cert', key', hload⟩ | h := hserver
      · refine .inl ⟨rfl, rfl, ⟨e, he⟩, ?_⟩
        simp [reloadServer, he, bind, Except.bind]
      · refine .inr (.inl ⟨rfl, rfl, cert', key', hload, ?_⟩)
        simp [reloadServer, hload, bind, Except.bind]
      · refine .inr (.inr ⟨rfl, ?_, ?_⟩)
        · rintro ⟨rfl, rfl⟩
          cases h
        · simp [reloadServer, h, bind, Except.bind]
  | false =>
    obtain ⟨rfl, rfl, e, he⟩ | ⟨rfl, rfl, cert', key', hload⟩ | h := hserver
    · refine .inr (.inr ⟨v, rfl, .inl ⟨rfl, rfl, ⟨e, he⟩, ?_⟩⟩)
      simp [reloadServer, he, bind, Except.bind]
    · refine .inr (.inr ⟨v, rfl, .inr (.inl ?_)⟩)
      refine ⟨rfl, rfl, cert', key', hload, ?_⟩
      simp [reloadServer, hload, bind, Except.bind]
    · refine .inl ⟨rfl, ?_, ?_⟩
      · rintro ⟨rfl, rfl⟩
        cases h
      · rw [Bool.and_comm] at h
        simp [h]

omit [DecidableEq W] in
theorem apply_cases : (env.rustls.withSingleCert w.cert w.key = .ok ()
      ∧ env.apply w = { w with active := ⟨w.cert, w.key, w.clientVerifier⟩ })
    ∨ ((∃ e, env.rustls.withSingleCert w.cert w.key = .error e) ∧ env.apply w = w) := by
  unfold apply buildTlsServerConfig
  cases env.rustls.withSingleCert w.cert w.key with
  | ok u => exact .inl ⟨rfl, rfl⟩
  | error e => exact .inr ⟨⟨e, rfl⟩, rfl⟩

omit [DecidableEq W] in
theorem apply_eq : env.apply w = { w with active := (env.apply w).active } := by
  obtain ⟨-, h⟩ | ⟨-, h⟩ := @apply_cases W C K V env w
  · rw [h]
  · rw [h]

def Env.Marked (env : Env W C K V) (w : Watcher C K V) : Prop :=
  w.clientCaChanged = true → env.tls.clientCaFile ≠ []

omit [DecidableEq W] in
theorem Marked.loadClientVerifier (h : env.Marked w) (hca : w.clientCaChanged = true) :
    env.loadClientVerifier files = (env.loadClientCaCerts files).map some := by
  refine if_neg ?_
  rw [List.isEmpty_iff]
  exact h hca

omit [DecidableEq W] in
theorem reload_clientCaChanged : (env.reload files w).clientCaChanged = false := by
  obtain ⟨hca, -, heq⟩ | ⟨-, -, heq⟩ | ⟨v, -, ⟨-, -, -, heq⟩
    | ⟨-, -, cert, key, -, heq⟩ | ⟨-, -, heq⟩⟩ :=
    @reload_cases W C K V env files w
  · rw [heq, hca]
  · rw [heq]
  · rw [heq]
  · rw [heq, apply_eq]
  · rw [heq, apply_eq]

omit [DecidableEq W] in
theorem reload_clientVerifier {v : Option V} (hmarked : env.Marked w)
    (hdisk : env.loadClientVerifier files = .ok v)
    (h : w.clientCaChanged = true ∨ w.clientVerifier = v) :
    (env.reload files w).clientVerifier = v := by
  have hverifies {v' : Option V} (hv' : env.Verifies files w v') : v' = v := by
    unfold Verifies at hv'
    split at hv'
    · next hca =>
      rw [← Marked.loadClientVerifier hmarked hca, hdisk] at hv'
      exact (Except.ok.inj hv').symm
    · next hca => rw [hv', h.resolve_left hca]
  obtain ⟨hca, -, heq⟩ | ⟨hca, ⟨e, he⟩, -⟩ | ⟨v', hv', ⟨-, -, -, heq⟩
    | ⟨-, -, cert, key, -, heq⟩ | ⟨-, -, heq⟩⟩ :=
    @reload_cases W C K V env files w
  · rw [heq]
    exact h.resolve_left (eq_false_iff.1 hca)
  · rw [Marked.loadClientVerifier hmarked hca, he] at hdisk
    cases hdisk
  · rw [heq]
    exact hverifies hv'
  · rw [heq, apply_eq]
    exact hverifies hv'
  · rw [heq, apply_eq]
    exact hverifies hv'

omit [DecidableEq W] in
theorem reload_waiting (hmarked : env.Marked w) (hc : (env.reload files w).certChanged = true)
    (hk : (env.reload files w).keyChanged = true) (v : Option V) :
    env.loadClientVerifier files ≠ .ok v := by
  obtain ⟨-, hnot, heq⟩ | ⟨hca, ⟨e, he⟩, -⟩ | ⟨v', hv', ⟨-, -, -, heq⟩
    | ⟨-, -, cert, key, -, heq⟩ | ⟨-, hnot, heq⟩⟩ :=
    @reload_cases W C K V env files w
  · rw [heq] at hc hk
    exact absurd ⟨hc, hk⟩ hnot
  · rw [Marked.loadClientVerifier hmarked hca, he]
    exact fun h => nomatch h
  · rw [heq] at hc
    cases hc
  · rw [heq, apply_eq] at hc
    cases hc
  · rw [heq, apply_eq] at hc hk
    exact absurd ⟨hc, hk⟩ hnot

/-! ## The invariant of runs -/

def Env.Announced (env : Env W C K V) (s : State W C K V)
    (flag : Watcher C K V → Bool) (about : ChangedFiles → Bool) : Prop :=
  flag s.watcher = true ∨ ∃ event ∈ s.queue, about (env.announces event) = true

/-- **The watcher is going to reload** the certificate and the key. -/
def Env.Pending (env : Env W C K V) (s : State W C K V) : Prop :=
  env.Announced s Watcher.certChanged cert ∧ env.Announced s Watcher.keyChanged key

def Env.CaPending (env : Env W C K V) (s : State W C K V) : Prop :=
  env.Announced s Watcher.clientCaChanged clientCa

def Env.Usable (env : Env W C K V) (files : Files W) (cert : List C) (key : K) : Prop :=
  env.loadServerCertAndKey files = .ok (cert, key) ∧ env.rustls.withSingleCert cert key = .ok ()

/-- **The invariant**: what is on disk was loaded, unless it is announced, and
is in use, unless the client CAs are. -/
structure Tracks (env : Env W C K V) (s : State W C K V) : Prop where
  marked : env.Marked s.watcher
  verifier : env.CaPending s ∨ ∀ v,
    env.loadClientVerifier s.files = .ok v → s.watcher.clientVerifier = v
  served : ∀ cert key, env.Usable s.files cert key →
    env.Pending s ∨ (s.watcher.cert = cert ∧ s.watcher.key = key
      ∧ (env.CaPending s ∨ ∀ v, env.loadClientVerifier s.files = .ok v →
        s.watcher.active = ⟨cert, key, v⟩))

/-- Between two events, neither the client CAs are marked, nor both the
certificate and the key, unless client CAs cannot be loaded. -/
structure AtRest (env : Env W C K V) (s : State W C K V) : Prop where
  unmarked : s.watcher.clientCaChanged = false
  waiting : s.watcher.certChanged = true → s.watcher.keyChanged = true →
    env.CaPending s ∨ ∀ v, env.loadClientVerifier s.files ≠ .ok v

/-! ## Writing -/

/-- **The condition on writes**: certificate and key are as before, cannot be
used yet, or both are announced. -/
def Env.Covered (env : Env W C K V) (s : State W C K V) (a : Action W) : Prop :=
  ∀ s', env.step s a = some s' →
    env.loadServerCertAndKey s'.files = env.loadServerCertAndKey s.files
      ∨ (∀ cert key, ¬ env.Usable s'.files cert key) ∨ env.Pending s'

variable {about : ChangedFiles → Bool} {event : W × String} {flag : Watcher C K V → Bool}

theorem Announced.write (h : env.Announced s flag about) :
    env.Announced ⟨files', s.queue ++ [event], s.watcher⟩ flag about := by
  refine h.imp_right ?_
  rintro ⟨e, he, hthis⟩
  exact ⟨e, mem_append_left _ he, hthis⟩

omit [DecidableEq W] in
theorem loadClientVerifier_congr
    (h : ∀ path ∈ env.tls.clientCaFile, env.read files' path = env.read files path) :
    env.loadClientVerifier files' = env.loadClientVerifier files := by
  unfold loadClientVerifier loadClientCaCerts
  rw [mapM_congr h]

theorem loadClientVerifier_write (hread : ∀ path ∈ env.tls.files, isChanged
      (env.dirsOf event.1) event.2 path = false → env.read files' path =
      env.read s.files path) :
    env.CaPending ⟨files', s.queue ++ [event], s.watcher⟩
      ∨ env.loadClientVerifier files' = env.loadClientVerifier s.files := by
  cases hca : (env.announces event).clientCa with
  | true => exact .inl (.inr ⟨event, mem_append_right _ mem_cons_self, hca⟩)
  | false =>
    refine .inr (loadClientVerifier_congr fun path hpath => ?_)
    refine hread path ?_ ?_
    · exact mem_cons_of_mem _ (mem_cons_of_mem _ hpath)
    · exact eq_false_iff.2 (any_eq_false.1 hca path hpath)

variable {queue : List (W × String)}

/-! ## Handling an event -/

theorem Announced.mark
    (hflag : flag (w.mark (env.announces event)) = (flag w || about (env.announces event)))
    (h : env.Announced ⟨files, event :: queue, w⟩ flag about) :
    env.Announced ⟨files, queue, w.mark (env.announces event)⟩ flag about := by
  obtain h | ⟨e, he, h⟩ := h
  · refine .inl ?_
    rw [hflag, h, Bool.true_or]
  · obtain rfl | he := mem_cons.1 he
    · refine .inl ?_
      rw [hflag, h, Bool.or_true]
    · exact .inr ⟨e, he, h⟩

theorem mark_of_dirsOf_eq_nil (h : env.dirsOf event.1 = []) : w.mark (env.announces event) = w := by
  have hca : env.tls.clientCaFile.any (isChanged [] event.2) = false := by
    rw [any_eq_false]
    exact fun _ _ => false_ne_true
  unfold announces changedFiles Watcher.mark
  rw [h, hca]
  simp [isChanged]

open Announced

theorem Tracks.mark (hs : Tracks env ⟨files, event :: queue, w⟩) :
    Tracks env ⟨files, queue, w.mark (env.announces event)⟩ where
  marked := by
    intro hca hnil
    obtain h | h := or_eq_true_iff.1 hca
    · exact hs.marked h hnil
    · unfold announces changedFiles at h
      rw [hnil] at h
      cases h
  verifier := hs.verifier.imp_left (Announced.mark rfl)
  served cert key husable :=
    (hs.served cert key husable).imp (And.imp (Announced.mark rfl) (Announced.mark rfl))
      (And.imp_right (And.imp_right (Or.imp_left (Announced.mark rfl))))

theorem Tracks.verifier_reload (hs : Tracks env ⟨files, queue, w⟩) :
    (∃ event ∈ queue, (env.announces event).clientCa = true)
      ∨ ∀ v, env.loadClientVerifier files = .ok v → (env.reload files w).clientVerifier = v := by
  obtain (hflag | hqueued) | hv := hs.verifier
  · exact .inr fun v hload => reload_clientVerifier hs.marked hload (.inl hflag)
  · exact .inl hqueued
  · refine .inr fun v hload => ?_
    exact reload_clientVerifier hs.marked hload (.inr (hv v hload))

omit [DecidableEq W] in
theorem active_apply (h : env.rustls.withSingleCert w.cert w.key = .ok ()) :
    (env.apply w).active = ⟨w.cert, w.key, (env.apply w).clientVerifier⟩ := by
  obtain ⟨-, heq⟩ | ⟨⟨e, he⟩, -⟩ := @apply_cases W C K V env w
  · rw [heq]
  · exact nomatch he.symm.trans h

/-- **A reload keeps the invariant.** -/
theorem Tracks.reload (hs : Tracks env ⟨files, queue, w⟩) :
    Tracks env ⟨files, queue, env.reload files w⟩ where
  marked hca := nomatch hca.symm.trans reload_clientCaChanged
  verifier := hs.verifier_reload.imp_left .inr
  served := by
    intro cert key husable
    -- what a reload applies is what the server uses
    have hactive (hcert : (env.reload files w).cert = cert) (hkey : (env.reload files w).key = key)
        {w' : Watcher C K V} (heq : env.reload files w = env.apply w') :
        env.CaPending ⟨files, queue, env.reload files w⟩
          ∨ ∀ v, env.loadClientVerifier files = .ok v →
            (env.reload files w).active = ⟨cert, key, v⟩ := by
      refine hs.verifier_reload.imp .inr fun hv v hload => ?_
      rw [← hv v hload]
      rw [heq, apply_eq] at hcert hkey
      rw [heq]
      subst hcert hkey
      exact active_apply husable.2
    obtain ⟨-, -, heq⟩ | ⟨hca, ⟨e, he⟩, heq⟩ | ⟨v, -, ⟨-, -, ⟨e, he⟩, -⟩
      | ⟨-, -, cert', key', hload, heq⟩ | ⟨-, hnot, heq⟩⟩ :=
      @reload_cases W C K V env files w
    · rw [heq]
      exact hs.served cert key husable
    · refine (hs.served cert key husable).imp (fun h => ?_) fun h => ?_
      · rw [heq]
        exact h
      · refine ⟨?_, ?_, .inr fun v hv => ?_⟩
        · rw [heq]
          exact h.1
        · rw [heq]
          exact h.2.1
        · rw [Marked.loadClientVerifier hs.marked hca, he] at hv
          cases hv
    · exact nomatch he.symm.trans husable.1
    · obtain ⟨rfl, rfl⟩ : cert' = cert ∧ key' = key :=
        Prod.mk.inj (Except.ok.inj (hload.symm.trans husable.1))
      have hcert : (env.reload files w).cert = cert' := by rw [heq, apply_eq]
      have hkey : (env.reload files w).key = key' := by rw [heq, apply_eq]
      exact .inr ⟨hcert, hkey, hactive hcert hkey heq⟩
    · refine (hs.served cert key husable).imp (fun h => ?_) fun h => ?_
      · rw [heq, apply_eq]
        exact h
      · have hcert : (env.reload files w).cert = cert := by
          rw [heq, apply_eq]
          exact h.1
        have hkey : (env.reload files w).key = key := by
          rw [heq, apply_eq]
          exact h.2.1
        exact ⟨hcert, hkey, hactive hcert hkey heq⟩

/-! ## Runs -/

/-- **Every step with a write that is covered keeps the invariant.** -/
theorem Tracks.step (hs : Tracks env s) (hcovered : env.Covered s a) (h : env.step s a = some s') :
    Tracks env s' := by
  have hserver := hcovered s' h
  obtain ⟨event, files', rfl, hread⟩ | ⟨event, queue, hqueue, rfl⟩ := step_cases h
  · have hclient := loadClientVerifier_write hread
    refine ⟨hs.marked, ?_, fun cert key husable => ?_⟩
    · obtain hca | hclient := hclient
      · exact .inl hca
      · rw [hclient]
        exact hs.verifier.imp_left write
    · obtain hsame | hunusable | hpending := hserver
      · have hbefore : env.Usable s.files cert key := ⟨hsame.symm.trans husable.1, husable.2⟩
        refine (hs.served cert key hbefore).imp (And.imp write write) fun ⟨hcert, hkey, hused⟩ =>
            ⟨hcert, hkey, ?_⟩
        obtain hca | hclient := hclient
        · exact .inl hca
        · rw [hclient]
          exact hused.imp_left write
      · exact absurd husable (hunusable cert key)
      · exact .inl hpending
  · obtain ⟨files, _, w⟩ := s
    obtain rfl : _ = event :: queue := hqueue
    have hmark := hs.mark
    unfold react
    split
    · next hdirs => rwa [mark_of_dirsOf_eq_nil hdirs] at hmark
    · exact hmark.reload

theorem AtRest.step (hs : AtRest env s) (htracks : Tracks env s)
    (h : env.step s a = some s') : AtRest env s' := by
  obtain ⟨event, files', rfl, hread⟩ | ⟨event, queue, hqueue, rfl⟩ := step_cases h
  · refine ⟨hs.unmarked, fun hc hk => ?_⟩
    obtain hca | hclient := loadClientVerifier_write hread
    · exact .inl hca
    · rw [hclient]
      exact (hs.waiting hc hk).imp_left write
  · obtain ⟨files, _, w⟩ := s
    obtain rfl : _ = event :: queue := hqueue
    unfold react
    split
    · next hdirs =>
      have hmark (h : env.CaPending ⟨files, event :: queue, w⟩) :
          env.CaPending ⟨files, queue, w⟩ := by
        rw [← @mark_of_dirsOf_eq_nil W C K V _ env w event hdirs]
        exact mark rfl h
      exact ⟨hs.unmarked, fun hc hk => (hs.waiting hc hk).imp_left hmark⟩
    · exact ⟨reload_clientCaChanged, fun hc hk =>
        .inr (reload_waiting htracks.mark.marked hc hk)⟩

def Env.Follows (env : Env W C K V) (s : State W C K V) : Prop := Tracks env s ∧ AtRest env s

theorem Follows.step (hs : env.Follows s) (hcovered : env.Covered s a)
    (h : env.step s a = some s') :
    env.Follows s' :=
  ⟨hs.1.step hcovered h, hs.2.step hs.1 h⟩

theorem follows_start (h : env.start files = .ok w) : env.Follows ⟨files, queue, w⟩ := by
  obtain ⟨⟨cert, key⟩, hserver, h⟩ := bind_eq_ok.1 h
  obtain ⟨clientVerifier, hclient, h⟩ := bind_eq_ok.1 h
  obtain ⟨active, hbuild, h⟩ := bind_eq_ok.1 h
  obtain ⟨u, -, hactive⟩ := bind_eq_ok.1 hbuild
  cases h
  cases hactive
  have hverifier (v : Option V) (hv : env.loadClientVerifier files = .ok v) :
    clientVerifier = v := Except.ok.inj (hclient.symm.trans hv)
  refine ⟨⟨fun hca => (nomatch hca), .inr hverifier, fun c k husable => ?_⟩,
    ⟨rfl, fun hc => (nomatch hc)⟩⟩
  obtain ⟨rfl, rfl⟩ : cert = c ∧ key = k :=
    Prod.mk.inj (Except.ok.inj (hserver.symm.trans husable.1))
  refine .inr ⟨rfl, rfl, .inr fun v hv => ?_⟩
  rw [hverifier v hv]

/-! ## Handling all events -/

/-- **What is on disk** is valid and can be used. -/
def Env.OnDisk (env : Env W C K V) (files : Files W) (cfg : ServerConfig C K V) : Prop :=
  env.Usable files cfg.cert cfg.key ∧ env.loadClientVerifier files = .ok cfg.clientVerifier

theorem Announced.marked (h : env.Announced s flag about)
    (hqueue : s.queue = []) : flag s.watcher = true := by
  refine h.resolve_right ?_
  rintro ⟨event, hevent, -⟩
  rw [hqueue] at hevent
  cases hevent

theorem Follows.active_eq (hs : env.Follows s) (hqueue : s.queue = [])
    (hdisk : env.OnDisk s.files cfg) : s.watcher.active = cfg := by
  obtain ⟨htracks, hrest⟩ := hs
  have hca (h : env.CaPending s) : False := nomatch hrest.unmarked.symm.trans (marked h hqueue)
  obtain ⟨hcert, hkey⟩ | ⟨-, -, hused⟩ := htracks.served cfg.cert cfg.key hdisk.1
  · obtain h | h := hrest.waiting (marked hcert hqueue) (marked hkey hqueue)
    · exact absurd h hca
    · exact absurd hdisk.2 (h _)
  · exact hused.resolve_left hca cfg.clientVerifier hdisk.2

theorem run_handle (s : State W C K V) : ∃ s',
    run env.step s (replicate s.queue.length .handle) = some s'
      ∧ s'.queue = [] ∧ s'.files = s.files := by
  obtain ⟨files, queue, w⟩ := s
  induction queue generalizing w with
  | nil => exact ⟨_, rfl, rfl, rfl⟩
  | cons event queue ih =>
    obtain ⟨s', hrun, hqueue, hfiles⟩ := ih (env.react files w event)
    refine ⟨s', ?_, hqueue, hfiles⟩
    have hstep : env.step ⟨files, event :: queue, w⟩ .handle
        = some ⟨files, queue, env.react files w event⟩ := by
      dsimp only [step]
      rw [handle_changed]
    show (env.step ⟨files, event :: queue, w⟩ .handle).bind _ = some s'
    rw [hstep]
    exact hrun

theorem covered_handle (s : State W C K V) : env.Covered s .handle := by
  intro s' h
  dsimp only [step] at h
  split at h
  · cases h
  · rw [handle_changed] at h
    cases h
    exact .inl rfl

theorem covered_swap
    (hdir : env.addWatch (parentDir env.tls.certFile) = env.addWatch (parentDir env.tls.keyFile))
    (s : State W C K V) (dir : W) (contents : String → Option (List UInt8)) :
    env.Covered s (.swap dir contents) := by
  intro s' h
  cases h
  have hcert : env.tls.certFile ∈ env.tls.files := mem_cons_self
  have hkey : env.tls.keyFile ∈ env.tls.files := mem_cons_of_mem _ mem_cons_self
  by_cases hthis : env.addWatch (parentDir env.tls.certFile) = .ok dir
  · refine .inr (.inr ⟨.inr ?_, .inr ?_⟩)
    · exact ⟨_, mem_append_right _ mem_cons_self, (isChanged_iff hcert).2 ⟨hthis, .inl rfl⟩⟩
    · exact ⟨_, mem_append_right _ mem_cons_self,
        (isChanged_iff hkey).2 ⟨hdir.symm.trans hthis, .inl rfl⟩⟩
  · refine .inl ?_
    have hread {path : String} (h : env.addWatch (parentDir path) ≠ .ok dir) :
        env.read (fun file => if file.1 = dir then contents file.2
          else s.files file) path = env.read s.files path := by
      refine read_congr fun dir' name hdir' _ => if_neg ?_
      rintro rfl
      exact h hdir'
    unfold loadServerCertAndKey
    rw [hread hthis, hread (hdir ▸ hthis)]

theorem Follows.settles (hs : env.Follows s) (hdisk : env.OnDisk s.files cfg) : ∃ s',
    run env.step s (replicate s.queue.length .handle) = some s'
      ∧ s'.queue = [] ∧ s'.files = s.files ∧ s'.watcher.active = cfg := by
  obtain ⟨s', hrun, hqueue, hfiles⟩ := @run_handle W C K V _ env s
  have hs' : env.Follows s' :=
    run_invariant_of_forall env.step (I := env.Follows)
      (fun s _ _ hs ha hstep => Follows.step hs (ha ▸ covered_handle s) hstep)
      hs (fun _ => eq_of_mem_replicate) hrun
  refine ⟨s', hrun, hqueue, hfiles, Follows.active_eq hs' hqueue ?_⟩
  rwa [hfiles]

/-- **The watcher converges if every write is covered**: handling the events
that are left makes the server use valid files. -/
theorem watcher_converges {queue : List (W × String)}
    {actions : List (Action W)} (h : env.start files = .ok w)
    (hcovered : StepSystem.Along env.step env.Covered ⟨files, queue, w⟩ actions)
    (hrun : run env.step ⟨files, queue, w⟩ actions = some s)
    (hdisk : env.OnDisk s.files cfg) : ∃ s',
    run env.step s (replicate s.queue.length .handle) = some s'
      ∧ s'.queue = [] ∧ s'.files = s.files ∧ s'.watcher.active = cfg := by
  have hs : env.Follows s :=
    run_induction env.step (I := env.Follows)
      (fun _ _ _ => Follows.step) (follows_start h) hcovered hrun
  exact Follows.settles hs hdisk

def sampleEnv : Env String UInt8 UInt8 (List UInt8) where
  tls := ⟨"/certs/tls.crt", "/certs/tls.key", ["/ca/ca.crt"]⟩
  rustls := {
    certificates := id
    privateKeys := id
    clientVerifier := fun certs =>
      if certs.isEmpty then .error "no root anchors" else .ok certs
    withSingleCert := fun cert key =>
      if cert = [key] then .ok () else .error "keys may not be consistent" }
  addWatch := .ok
  watchedDirs := [("/certs", "/certs"), ("/ca", "/ca")]
  watched := by decide +kernel

def sampleFiles : Files String
  | ("/certs", "tls.crt") => some [1]
  | ("/certs", "tls.key") => some [1]
  | ("/ca", "ca.crt") => some [9]
  | _ => none

def sampleWatcher : Watcher UInt8 UInt8 (List UInt8) :=
  ⟨false, false, false, [1], 1, some [9], ⟨[1], 1, some [9]⟩⟩

def sampleSwap (cert key : List UInt8) : Action String :=
  .swap "/certs" fun
    | "tls.crt" => some cert
    | "tls.key" => some key
    | _ => none

def sampleSwaps : List (Action String) := [sampleSwap [2] [1], .handle, sampleSwap [2] [2]]

theorem run_sampleSwaps : (run sampleEnv.step
    ⟨sampleFiles, [], sampleWatcher⟩ sampleSwaps).isSome = true := by
  decide +kernel

/-- The server uses what is on disk after them. -/
theorem watcher_converges_after_mismatch : ∃ s s',
    run sampleEnv.step ⟨sampleFiles, [], sampleWatcher⟩ sampleSwaps = some s
      ∧ run sampleEnv.step s (replicate s.queue.length .handle) = some s'
      ∧ s'.watcher.active = ⟨[2], 2, some [9]⟩ := by
  have hdir : sampleEnv.addWatch (parentDir sampleEnv.tls.certFile)
      = sampleEnv.addWatch (parentDir sampleEnv.tls.keyFile) := by
    decide +kernel
  have hcovered : StepSystem.Along sampleEnv.step sampleEnv.Covered
      ⟨sampleFiles, [], sampleWatcher⟩ sampleSwaps :=
    ⟨covered_swap hdir _ _ _, fun _ _ => ⟨covered_handle _, fun _ _ =>
      ⟨covered_swap hdir _ _ _, fun _ _ => trivial⟩⟩⟩
  have hdisk : sampleEnv.OnDisk (Option.get _ run_sampleSwaps).files ⟨[2], 2, some [9]⟩ :=
    ⟨⟨by decide +kernel, by decide +kernel⟩, by decide +kernel⟩
  have hrun := (Option.some_get run_sampleSwaps).symm
  obtain ⟨s', hrun', -, -, hactive⟩ := watcher_converges (by decide +kernel) hcovered hrun hdisk
  exact ⟨_, s', hrun, hrun', hactive⟩

def sampleWrites : List (Action String) :=
  [.write ("/certs", "tls.crt") (some [2]),
    .write ("/certs", "tls.key") (some []), .handle, .handle,
    .write ("/certs", "tls.key") (some [2]), .handle]

theorem run_sampleWrites : (run sampleEnv.step
    ⟨sampleFiles, [], sampleWatcher⟩ sampleWrites).isSome = true := by
  decide +kernel

/-- **A key that is written in two parts**: the event of the second part alone
does not make the server use what is on disk. -/
theorem completed_key_is_not_loaded : ∃ s, sampleEnv.start sampleFiles = .ok sampleWatcher
      ∧ run sampleEnv.step ⟨sampleFiles, [], sampleWatcher⟩ sampleWrites = some s
      ∧ s.queue = [] ∧ sampleEnv.OnDisk s.files ⟨[2], 2, some [9]⟩
      ∧ s.watcher.active = ⟨[1], 1, some [9]⟩ :=
  ⟨Option.get _ run_sampleWrites, by decide +kernel,
    (Option.some_get run_sampleWrites).symm, by decide +kernel,
    ⟨⟨by decide +kernel, by decide +kernel⟩, by decide +kernel⟩,
    by decide +kernel⟩

end

end Certs
