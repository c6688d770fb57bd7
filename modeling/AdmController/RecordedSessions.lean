import AdmController.BuiltinEncodings

/-!
# Recorded sessions

`CallbackHandlerProxy` records the requests of a policy and the answers of the
host, and replays them in a later process. A request that asks what has changed
since an instant is written with the time elapsed since then and read back
relative to the clock of the replay.
-/

deriving instance DecidableEq for CallbackRequestType

namespace CallbackRequestType

variable {S C : Type}

/-- The instant of a request that asks for changes. -/
def instant : CallbackRequestType S C → Option ℕ
  | .hasKubernetesListResourceAllResultChangedSinceInstant _ _ _ _ _ since => some since
  | _ => none

/-! ## Requests with a time -/

def mapInstant (f : ℕ → ℕ) : CallbackRequestType S C → CallbackRequestType S C
  | .hasKubernetesListResourceAllResultChangedSinceInstant apiVersion kind labels fields masks
    since =>
    .hasKubernetesListResourceAllResultChangedSinceInstant apiVersion kind labels fields masks
      (f since)
  | request => request

/-- **The same request**, but for its instant. -/
def SameButInstant (r r' : CallbackRequestType S C) : Prop := ∃ f, r' = r.mapInstant f

theorem instant_mapInstant (f : ℕ → ℕ) (r : CallbackRequestType S C) :
    (r.mapInstant f).instant = r.instant.map f := by
  cases r <;> rfl

theorem mapInstant_mapInstant (f g : ℕ → ℕ) (r : CallbackRequestType S C) :
    (r.mapInstant f).mapInstant g = r.mapInstant (g ∘ f) := by
  cases r <;> rfl

theorem mapInstant_congr {f g : ℕ → ℕ} {r : CallbackRequestType S C}
    (h : r.instant.map f = r.instant.map g) : r.mapInstant f = r.mapInstant g := by
  cases r with
  | hasKubernetesListResourceAllResultChangedSinceInstant =>
    rw [mapInstant, mapInstant, Option.some.inj h]
  | _ => rfl

end CallbackRequestType

namespace CallbackHandlerProxy

open CallbackRequestType UrlQuery Builtins

variable {S C T D : Type}

/-! ## Recording -/

/-- A response with a payload, a text in a file and bytes for a policy. -/
inductive Response (P : Type) where
  | success (payload : P)
  | error (message : String)

structure Exchange (T P : Type) where
  request : T
  response : Response P

abbrev ParsedExchange (S C : Type) := Exchange (CallbackRequestType S C) (List UInt8)

/-- **The YAML library**, which reads back what it has written (`T` are the texts
of requests, `D` those of files). A request is written with a duration in place
of its instant. -/
structure Yaml (S C T D : Type) where
  requestToString : CallbackRequestType S C → T
  requestFromStr : T → Except String (CallbackRequestType S C)
  toWriter : List (Exchange T String) → D
  fromReader : D → Except String (List (Exchange T String))
  requestFromStr_toString : ∀ r, requestFromStr (requestToString r) = .ok r
  fromReader_toWriter : ∀ l, fromReader (toWriter l) = .ok l

/-- A request that is recorded at some time, and the answer of the host. -/
structure Recorded (S C : Type) where
  now : ℕ
  request : CallbackRequestType S C
  answer : Except String (List UInt8)

def Recorded.Utf8 (r : Recorded S C) : Prop :=
  ∀ payload, r.answer = .ok payload → ∃ text : String, payload = utf8 text.toList

variable (yaml : Yaml S C T D)

/-- **`record_exchange`**; `Instant::elapsed` is never negative. -/
def recordExchange (r : Recorded S C) : Except String (Exchange T String) :=
  let request := yaml.requestToString (r.request.mapInstant (r.now - ·))
  match r.answer with
  | .error e => .ok ⟨request, .error e⟩
  | .ok payload =>
    match String.fromUTF8? ⟨payload.toArray⟩ with
    | some text => .ok ⟨request, .success text⟩
    | none => .error "cannot convert response payload to utf8"

/-- **`dump_records`**: the file, unless something could not be recorded. -/
def dumpRecords (session : List (Recorded S C)) : Except String D :=
  (session.mapM (recordExchange yaml)).map yaml.toWriter

def Response.parsed : Response String → Response (List UInt8)
  | .success payload => .success (utf8 payload.toList)
  | .error message => .error message

/-- A request is read at some time; an instant before the clock is an error. -/
def parseExchange (now : ℕ) (exchange : Exchange T String) :
    Except String (ParsedExchange S C) := do
  let request ← yaml.requestFromStr exchange.request
  if ∀ elapsed ∈ request.instant, elapsed ≤ now then
    return ⟨request.mapInstant (now - ·), exchange.response.parsed⟩
  else .error "Error checked_sub"

/-! ## Reading a session -/

/-- The beginning of a replay, at some time; an error here ends the process. -/
def loadSession (now : ℕ) (file : D) : Except String (List (ParsedExchange S C)) := do
  let exchanges ← yaml.fromReader file
  exchanges.mapM (parseExchange yaml now)

/-- What becomes of a recorded exchange that is read at some time. -/
def Recorded.reloaded (now : ℕ) (r : Recorded S C) : ParsedExchange S C where
  request := r.request.mapInstant (fun since => now - (r.now - since))
  response := match r.answer with
    | .ok payload => .success payload
    | .error e => .error e

variable {now : ℕ}

theorem parse_recordExchange {r : Recorded S C} (hnow : r.now ≤ now) (hutf8 : r.Utf8) :
    ∃ exchange, recordExchange yaml r = .ok exchange
      ∧ parseExchange yaml now exchange = .ok (r.reloaded now) := by
  have hparse : ∀ response, parseExchange yaml now
      ⟨yaml.requestToString (r.request.mapInstant (r.now - ·)), response⟩
        = .ok ⟨(r.reloaded now).request, response.parsed⟩ := by
    intro response
    have helapsed : ∀ elapsed ∈ (r.request.mapInstant (r.now - ·)).instant, elapsed ≤ now := by
      rw [instant_mapInstant]
      rintro elapsed helapsed
      obtain ⟨since, -, rfl⟩ := Option.map_eq_some_iff.1 helapsed
      omega
    rw [parseExchange, yaml.requestFromStr_toString]
    show (if _ then Except.ok _ else _) = _
    rw [if_pos helapsed, mapInstant_mapInstant]
    rfl
  unfold recordExchange
  cases ha : r.answer with
  | error e => exact ⟨_, rfl, by simp [hparse, Recorded.reloaded, ha, Response.parsed]⟩
  | ok payload =>
    obtain ⟨text, rfl⟩ := hutf8 payload ha
    refine ⟨⟨yaml.requestToString (r.request.mapInstant (r.now - ·)), .success text⟩, ?_, ?_⟩
    · simp only [fromUTF8?_eq_some.2 rfl]
    · simp [hparse, Recorded.reloaded, ha, Response.parsed]

/-- **A session is read back**, with its instants moved. -/
theorem load_dumpRecords {session : List (Recorded S C)}
    (hnow : ∀ r ∈ session, r.now ≤ now) (hutf8 : ∀ r ∈ session, r.Utf8) :
    ∃ file, dumpRecords yaml session = .ok file
      ∧ loadSession yaml now file = .ok (session.map (Recorded.reloaded now)) := by
  have hmap : ∃ exchanges, session.mapM (recordExchange yaml) = .ok exchanges
      ∧ exchanges.mapM (parseExchange yaml now) = .ok (session.map (Recorded.reloaded now)) := by
    induction session with
    | nil => exact ⟨[], rfl, rfl⟩
    | cons r session ih =>
      obtain ⟨hr, hrs⟩ := List.forall_mem_cons.1 hnow
      obtain ⟨hu, hus⟩ := List.forall_mem_cons.1 hutf8
      obtain ⟨exchange, hrec, hparse⟩ := parse_recordExchange yaml hr hu
      obtain ⟨exchanges, hrecs, hparses⟩ := ih hrs hus
      refine ⟨exchange :: exchanges, ?_, ?_⟩
      · rw [List.mapM_cons, hrec, hrecs]
        rfl
      · rw [List.mapM_cons, hparse, hparses]
        rfl
  obtain ⟨exchanges, hrec, hparse⟩ := hmap
  refine ⟨_, by rw [dumpRecords, hrec]; rfl, ?_⟩
  rw [loadSession, yaml.fromReader_toWriter]
  exact hparse

/-- **A request is the recorded one**: but for its instant, which has moved by the
time between recording and replay. -/
def Recorded.Matches (now : ℕ) (r : Recorded S C) (request : CallbackRequestType S C) : Prop :=
  r.request.SameButInstant request
    ∧ request.instant = r.request.instant.map (fun since => now - (r.now - since))

theorem request_reloaded_eq_iff {r : Recorded S C} {request : CallbackRequestType S C} :
    (r.reloaded now).request = request ↔ r.Matches now request := by
  constructor
  · rintro rfl
    exact ⟨⟨_, rfl⟩, instant_mapInstant _ _⟩
  · rintro ⟨⟨f, rfl⟩, h⟩
    exact mapInstant_congr (h.symm.trans (instant_mapInstant f _))

variable [DecidableEq S] [DecidableEq C]

/-! ## Replaying -/

/-- **`produce_recorded_response`**, for the exchange at the cursor. -/
def produceRecordedResponse (debug : CallbackRequestType S C → String)
    (exchanges : List (ParsedExchange S C)) (index : ℕ) (request : CallbackRequestType S C) :
    Except String (List UInt8) :=
  match exchanges[index]? with
  | none => .error "the list of recorded responses is empty or has been exhausted"
  | some exchange =>
    if exchange.request = request then
      match exchange.response with
      | .success payload => .ok payload
      | .error message => .error message
    else .error ("Replay error: unexpected request. Was expecting " ++ debug exchange.request
      ++ ", got " ++ debug request ++ " instead")

/-- What happens to a replay: a request, or a reset by a handle. -/
inductive Event (S C : Type) where
  | request (r : CallbackRequestType S C)
  | reset

def Event.moveCursor (cursor : ℕ) : Event S C → ℕ
  | .request _ => cursor + 1
  | .reset => 0

def cursorAfter (events : List (Event S C)) : ℕ := events.foldl Event.moveCursor 0

/-- **What a replay returns.** A session of UTF-8 payloads is written and read
back later. After any requests and resets, a request gets the recorded answer if
it is the recorded one at its position, with its instant moved, and an error
otherwise, also behind the last exchange. A reset starts the session again. -/
theorem replay_returns_recorded_iff (debug : CallbackRequestType S C → String)
    (session : List (Recorded S C)) (now : ℕ) (hnow : ∀ r ∈ session, r.now ≤ now)
    (hutf8 : ∀ r ∈ session, r.Utf8) :
    ∃ file exchanges, dumpRecords yaml session = .ok file
      ∧ loadSession yaml now file = .ok exchanges
      ∧ ∀ (events : List (Event S C)) (request : CallbackRequestType S C),
        let answer := produceRecordedResponse debug exchanges (cursorAfter events) request
        (∀ r, session[cursorAfter events]? = some r → (r.Matches now request → answer = r.answer)
          ∧ (¬r.Matches now request → ∃ e, answer = .error e))
          ∧ (session.length ≤ cursorAfter events → ∃ e, answer = .error e)
          ∧ cursorAfter (events ++ [.request request]) = cursorAfter events + 1
          ∧ cursorAfter (events ++ [.reset]) = 0 := by
  obtain ⟨file, hdump, hload⟩ := load_dumpRecords yaml hnow hutf8
  refine ⟨file, _, hdump, hload, fun events request => ?_⟩
  refine ⟨fun r hr => ?_, fun hlen => ?_, ?_, ?_⟩
  · simp only [produceRecordedResponse, List.getElem?_map, hr, Option.map_some,
      ← request_reloaded_eq_iff]
    refine ⟨fun h => ?_, fun h => ⟨_, by rw [if_neg h]⟩⟩
    rw [if_pos h]
    cases ha : r.answer <;> simp [Recorded.reloaded, ha]
  · exact ⟨"the list of recorded responses is empty or has been exhausted", by
      simp [produceRecordedResponse, hlen]⟩
  · simp [cursorAfter, Event.moveCursor]
  · simp [cursorAfter, Event.moveCursor]

/-- Documents as their own text. -/
def Yaml.plain : Yaml Unit Unit (CallbackRequestType Unit Unit)
    (List (Exchange (CallbackRequestType Unit Unit) String)) :=
  ⟨id, .ok, id, .ok, fun _ => rfl, fun _ => rfl⟩

def changedSince (since : ℕ) : CallbackRequestType Unit Unit :=
  .hasKubernetesListResourceAllResultChangedSinceInstant "v1" "Pod" none none none since

/-- A session with a failed lookup, and one that was answered. -/
def twoLookups : List (Recorded Unit Unit) :=
  [⟨0, .dnsLookupHost "localhost", .error "no such host"⟩,
    ⟨2, .dnsLookupHost "example.com", .ok [91, 93]⟩]

theorem replay_returns_lookups : ∃ file exchanges, dumpRecords Yaml.plain twoLookups = .ok file
      ∧ loadSession Yaml.plain 3 file = .ok exchanges
      ∧ produceRecordedResponse (fun _ => "") exchanges 0 (.dnsLookupHost "localhost")
        = .error "no such host"
      ∧ produceRecordedResponse (fun _ => "") exchanges 1 (.dnsLookupHost "example.com")
        = .ok [91, 93] := by
  have hutf8 : ∀ r ∈ twoLookups, r.Utf8 := by
    have htext : ∃ text : String, [91, 93] = utf8 text.toList := ⟨"[]", by decide⟩
    simpa [twoLookups, Recorded.Utf8] using htext
  obtain ⟨file, exchanges, hdump, hload, h⟩ := replay_returns_recorded_iff Yaml.plain (fun _ => "")
    twoLookups 3 (by decide) hutf8
  exact ⟨file, exchanges, hdump, hload,
    ((h [] (.dnsLookupHost "localhost")).1 _ rfl).1 ⟨⟨id, rfl⟩, rfl⟩,
    ((h [.request (.dnsLookupHost "localhost")] (.dnsLookupHost "example.com")).1 _ rfl).1
      ⟨⟨id, rfl⟩, rfl⟩⟩

/-- **A request for changes is not recognised**: it was recorded and is made again
for the same instant, a second later. -/
theorem changed_since_is_not_replayed :
    ((dumpRecords Yaml.plain [⟨5, changedSince 3, .ok []⟩]).bind (loadSession Yaml.plain 6)).bind
      (fun exchanges => produceRecordedResponse (fun _ => "") exchanges 0 (changedSince 3))
      = .error "Replay error: unexpected request. Was expecting , got  instead" := by
  decide +kernel

end CallbackHandlerProxy
