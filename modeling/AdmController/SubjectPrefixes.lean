import AdmController.VerificationConstraints

/-!
# Prefixes of certificate subjects

Which subjects the constraint of a URL prefix accepts. The prefix and the
subject are compared as texts. The prefix ends with a slash.
-/

open Serde RustStr List Bool GenericIssuerSubjectVerifier UrlLib

/-! ## Texts of URLs -/

/-- A text `scheme://authority/path`, with a query and a fragment behind. -/
structure UrlText where
  (scheme authority path tail : List Char)

namespace UrlText

def text (p : UrlText) : List Char :=
  p.scheme ++ ':' :: '/' :: '/' :: (p.authority ++ (p.path ++ p.tail))

def endsPath (c : Char) : Bool := c = '?' || c = '#'

def endsAuthority (c : Char) : Bool := c = '/' || endsPath c

def read (text : List Char) : Option UrlText :=
  match text.dropWhile (· ≠ ':') with
  | ':' :: '/' :: '/' :: rest =>
    let behind := rest.dropWhile (!endsAuthority ·)
    some ⟨text.takeWhile (· ≠ ':'), rest.takeWhile (!endsAuthority ·),
      behind.takeWhile (!endsPath ·), behind.dropWhile (!endsPath ·)⟩
  | _ => none

/-- **The parts of a text are what is between the separators.** -/
structure Valid (p : UrlText) : Prop where
  scheme : ∀ c ∈ p.scheme, c ≠ ':'
  authority : ∀ c ∈ p.authority, endsAuthority c = false
  behind : ∀ c, (p.path ++ p.tail).head? = some c → endsAuthority c = true
  path : ∀ c ∈ p.path, endsPath c = false
  tail : ∀ c, p.tail.head? = some c → endsPath c = true

theorem span_append {q : Char → Bool} {a b : List Char}
    (ha : ∀ c ∈ a, q c = true) (hb : ∀ c, b.head? = some c → q c = false) :
    (a ++ b).takeWhile q = a ∧ (a ++ b).dropWhile q = b := by
  rw [takeWhile_append_of_pos ha, dropWhile_append_of_pos ha]
  cases b with
  | nil => exact ⟨append_nil a, rfl⟩
  | cons c b =>
    have hc := eq_false_iff.1 (hb c rfl)
    rw [takeWhile_cons_of_neg hc, dropWhile_cons_of_neg hc]
    exact ⟨append_nil a, rfl⟩

theorem of_head?_dropWhile {q : Char → Bool} {l : List Char} {c : Char}
    (h : (l.dropWhile q).head? = some c) : q c = false := by
  have hnot := head?_dropWhile_not q l
  rw [h] at hnot
  exact hnot

variable {p : UrlText}

theorem valid_of_read {text : List Char} (h : read text = some p) : p.Valid ∧ text = p.text := by
  unfold read at h
  split at h
  · next rest hrest =>
    cases h
    have hbehind := takeWhile_append_dropWhile (p := (!endsPath ·))
      (l := rest.dropWhile (!endsAuthority ·))
    refine ⟨⟨fun c hc => ?_, fun c hc => ?_, fun c hc => ?_, fun c hc => ?_, fun c hc => ?_⟩, ?_⟩
    · exact of_decide_eq_true (mem_takeWhile_imp (p := fun c => decide (c ≠ ':')) hc)
    · exact not_eq_true' _ ▸ mem_takeWhile_imp (p := (!endsAuthority ·)) hc
    · rw [hbehind] at hc
      exact not_eq_false' _ ▸ of_head?_dropWhile hc
    · exact not_eq_true' _ ▸ mem_takeWhile_imp (p := (!endsPath ·)) hc
    · exact not_eq_false' _ ▸ of_head?_dropWhile hc
    · rw [UrlText.text, hbehind, takeWhile_append_dropWhile, ← hrest, takeWhile_append_dropWhile]
  · cases h

theorem Valid.read_text (h : p.Valid) : read p.text = some p := by
  obtain ⟨hscheme, hrest⟩ := span_append (q := fun c => decide (c ≠ ':')) (a := p.scheme)
    (b := ':' :: '/' :: '/' :: (p.authority ++ (p.path ++ p.tail)))
    (fun c hc => decide_eq_true (h.scheme c hc)) (by simp)
  obtain ⟨hauthority, hbehind⟩ := span_append
    (q := (!endsAuthority ·)) (a := p.authority) (b := p.path ++ p.tail)
    (fun c hc => by rw [h.authority c hc]; rfl)
    (fun c hc => by rw [h.behind c hc]; rfl)
  obtain ⟨hpath, htail⟩ := span_append (q := (!endsPath ·)) (a := p.path) (b := p.tail)
    (fun c hc => by rw [h.path c hc]; rfl)
    (fun c hc => by rw [h.tail c hc]; rfl)
  rw [read, text, hscheme, hrest]
  simp only [hauthority, hbehind, hpath, htail]

variable (t : List Char)

/-! ## Texts that end with a slash -/

def slashed : List Char := if t.getLast? = some '/' then t else t ++ ['/']

def trimmed : List Char := if t.getLast? = some '/' then t.dropLast else t

theorem slashed_eq : slashed t = trimmed t ++ ['/'] := by
  unfold slashed trimmed
  split_ifs with h
  · exact (dropLast_append_getLast? '/' h).symm
  · rfl

theorem slashed_append (a : List Char) {b : List Char} (h : b ≠ []) :
    slashed (a ++ b) = a ++ slashed b := by
  unfold slashed
  rw [getLast?_append_of_ne_nil a h, apply_ite (a ++ ·), append_assoc]

theorem slashed_slashed : slashed (slashed t) = slashed t := by
  rw [slashed_eq t, slashed, if_pos getLast?_concat]

/-- **The text of a prefix**, whose path is extended in a configuration. -/
def extended (configured : Bool) (p : UrlText) : List Char :=
  slashed (if configured then { p with path := slashed p.path } else p).text

def start (p : UrlText) : List Char := p.scheme ++ ':' :: '/' :: '/' :: p.authority

theorem text_eq (p : UrlText) : p.text = p.start ++ (p.path ++ p.tail) := by
  rw [text, start, append_assoc]
  rfl

theorem slashed_text (hne : p.authority ≠ []) (h : ∀ c ∈ p.authority, endsAuthority c = false) :
    slashed p.text = p.start ++ slashed (p.path ++ p.tail) := by
  rw [text_eq]
  by_cases hbehind : p.path ++ p.tail = []
  · have hlast : p.start.getLast? ≠ some '/' := by
      intro hlast
      have hstart : p.start = (p.scheme ++ [':', '/', '/']) ++ p.authority := by simp [start]
      rw [hstart, getLast?_append_of_ne_nil _ hne] at hlast
      exact Bool.noConfusion (h '/' (mem_of_getLast? hlast))
    rw [hbehind, append_nil, slashed, if_neg hlast]
    rfl
  · exact slashed_append p.start hbehind

def givenPath (configured : Bool) (p : UrlText) : List Char :=
  if configured then slashed p.path else p.path

theorem extended_eq_append (hne : p.authority ≠ [])
    (h : ∀ c ∈ p.authority, endsAuthority c = false) (configured : Bool) :
    p.extended configured = p.start ++ slashed (p.givenPath configured ++ p.tail) := by
  cases configured with
  | false => exact slashed_text hne h
  | true => exact slashed_text (p := { p with path := slashed p.path }) hne h

theorem eq_trimmed_or : t = trimmed t ∨ t = trimmed t ++ ['/'] := by
  rw [← slashed_eq]
  unfold slashed trimmed
  split_ifs with h
  · exact .inr rfl
  · exact .inl rfl

theorem head?_slashed (t rest : List Char) : (slashed t ++ rest).head? = some (t.headD '/') := by
  cases t with
  | nil => rfl
  | cons c t =>
    unfold slashed
    split_ifs <;> rfl

theorem endsPath_slashed {path : List Char} (h : ∀ c ∈ path, endsPath c = false) :
    ∀ c ∈ slashed path, endsPath c = false := by
  intro c hc
  unfold slashed at hc
  split_ifs at hc
  · exact h c hc
  · rcases mem_append.1 hc with hc | hc
    · exact h c hc
    · rw [mem_singleton.1 hc]
      rfl

/-- The path is ended by a query or a fragment, or goes on below. -/
theorem path_cases {path tail : List Char} (rest : List Char)
    (hpath : ∀ c ∈ path, endsPath c = false)
    (htail : ∀ c, tail.head? = some c → endsPath c = true) :
    (slashed (path ++ tail) ++ rest).takeWhile (!endsPath ·) = path ∨ slashed path <+:
      (slashed (path ++ tail) ++ rest).takeWhile (!endsPath ·) := by
  cases tail with
  | nil =>
    have hkept : ∀ c ∈ slashed path, (!endsPath c) = true :=
      fun c hc => by rw [endsPath_slashed hpath c hc]; rfl
    rw [append_nil, takeWhile_append_of_pos hkept]
    exact .inr (prefix_append _ _)
  | cons c tail =>
    have hhead : ∀ d, (slashed (c :: tail) ++ rest).head? = some d → (!endsPath d) = false := by
      intro d hd
      rw [head?_slashed] at hd
      rw [← Option.some.inj hd, headD_cons, htail c rfl]
      rfl
    rw [slashed_append path (cons_ne_nil c tail), append_assoc,
      (span_append (fun c hc => by rw [hpath c hc]; rfl) hhead).1]
    exact .inl rfl

theorem slashed_givenPath (configured : Bool) (p : UrlText) :
    slashed (p.givenPath configured) = slashed p.path := by
  cases configured with
  | false => rfl
  | true => exact slashed_slashed p.path

theorem Valid.endsAuthority_givenPath (h : p.Valid) (configured : Bool) :
    endsAuthority ((p.givenPath configured ++ p.tail).headD '/') = true := by
  have hbehind := h.behind
  cases configured with
  | false =>
    show endsAuthority ((p.path ++ p.tail).headD '/') = true
    cases hparts : p.path ++ p.tail with
    | nil => rfl
    | cons c parts => exact hbehind c (by rw [hparts]; rfl)
  | true =>
    show endsAuthority ((slashed p.path ++ p.tail).headD '/') = true
    rw [headD_eq_head?_getD, head?_slashed]
    cases hpath : p.path with
    | nil => rfl
    | cons c path => exact hbehind c (by rw [hpath]; rfl)

theorem Valid.read_append (h : p.Valid) (hne : p.authority ≠ [])
    (configured : Bool) (rest : List Char) :
    ∃ q, read (p.extended configured ++ rest) = some q
      ∧ q.scheme = p.scheme ∧ q.authority = p.authority
      ∧ (q.path = trimmed p.path ∨ trimmed p.path ++ ['/'] <+: q.path) := by
  obtain ⟨behind, hbehind⟩ :
      ∃ behind, behind = slashed (p.givenPath configured ++ p.tail) ++ rest :=
    ⟨_, rfl⟩
  refine ⟨⟨p.scheme, p.authority, behind.takeWhile (!endsPath ·),
    behind.dropWhile (!endsPath ·)⟩, ?_, rfl, rfl, ?_⟩
  · have hvalid : Valid ⟨p.scheme, p.authority, behind.takeWhile (!endsPath ·),
        behind.dropWhile (!endsPath ·)⟩ := by
      refine ⟨h.scheme, h.authority, fun c hc => ?_, fun c hc => ?_,
        fun c hc => not_eq_false' _ ▸ of_head?_dropWhile hc⟩
      · rw [takeWhile_append_dropWhile, hbehind, head?_slashed] at hc
        rw [← Option.some.inj hc]
        exact h.endsAuthority_givenPath configured
      · exact not_eq_true' _ ▸ mem_takeWhile_imp (p := (!endsPath ·)) hc
    rw [extended_eq_append hne h.authority, append_assoc, ← hbehind,
      ← hvalid.read_text, text_eq, takeWhile_append_dropWhile]
    rfl
  · have hpath : ∀ c ∈ p.givenPath configured, endsPath c = false := by
      cases configured with
      | false => exact h.path
      | true => exact endsPath_slashed h.path
    rw [hbehind, ← slashed_eq]
    rcases path_cases rest hpath h.tail with heq | hbelow
    · rw [heq]
      cases configured with
      | false =>
        refine (eq_trimmed_or p.path).imp id fun hslash => ?_
        rw [slashed_eq]
        exact hslash ▸ prefix_rfl
      | true => exact .inr prefix_rfl
    · exact .inr (slashed_givenPath configured p ▸ hbelow)

end UrlText

section

variable {U R K : Type} (urls : UrlLib U)

/-! ## Prefixes -/

/-- **The documented behaviour of the URL library**: host and path are parts of the
text of a URL with a host, and a slash is added to the path. -/
structure UrlLib.Slices (hostOf : List Char → Option String) : Prop where
  hostOf_nil : hostOf [] = none
  hostStr_eq : ∀ u, urls.hostStr u
    = (UrlText.read (urls.toString u).toList).bind (hostOf ·.authority)
  path_eq : ∀ u p, UrlText.read (urls.toString u).toList = some p → (urls.path u).toList = p.path
  toString_appendSlash : ∀ u, urls.toString (urls.appendSlash u) = urls.toString u ++ "/"
  toString_setPath : ∀ u p, UrlText.read (urls.toString u).toList = some p →
    (urls.toString (urls.setPath u (urls.path u ++ "/"))).toList
      = { p with path := p.path ++ ['/'] : UrlText }.text
  toString_setPath_of_plain : ∀ u, (∀ c ∈ (urls.toString u).toList, UrlText.endsPath c = false) →
    urls.toString (urls.setPath u (urls.path u ++ "/")) = urls.toString u ++ "/"

/-- **A prefix that is given in a configuration, or to the constructor.** -/
inductive GivenPrefix (u : U) : Bool → U → Prop
  | constructor : GivenPrefix u false u
  | config {v : Value} {s : String} {u' : U} (hs : decodeString v = .ok s)
    (hu : urls.parse s = .ok u)
    (hu' : deserializeSubjectUrlPrefix urls v = .ok u') :
    GivenPrefix u true u'

variable {urls}

theorem endsWith_slash {s : String} : endsWith s "/" = true ↔ s.toList.getLast? = some '/' := by
  rw [endsWith, isSuffixOf_iff_suffix, getLast?_eq_some_iff]
  exact ⟨fun ⟨t, ht⟩ => ⟨t, ht.symm⟩, fun ⟨t, ht⟩ => ⟨t, ht.symm⟩⟩

theorem toString_of_given {hostOf : List Char → Option String} (hurls : urls.Slices hostOf)
    {u u' : U} {configured : Bool} {p : UrlText} (hgiven : GivenPrefix urls u configured u')
    (hp : UrlText.read (urls.toString u).toList = some p) :
    UrlText.slashed (urls.toString u').toList = p.extended configured := by
  have htext := (UrlText.valid_of_read hp).2
  cases hgiven with
  | constructor => exact congrArg UrlText.slashed htext
  | config hs hu hu' =>
    obtain ⟨s, hs', hu'⟩ := Fallible.bind_eq_ok.1 hu'
    cases hs.symm.trans hs'
    obtain ⟨url, hurl, hu'⟩ := Fallible.bind_eq_ok.1 hu'
    cases hu.symm.trans hurl
    refine congrArg UrlText.slashed ?_
    unfold UrlText.slashed
    split_ifs at hu' with hslash
    · cases hu'
      rw [endsWith_slash, hurls.path_eq u p hp] at hslash
      rw [if_pos hslash]
      exact htext
    · cases hu'
      rw [endsWith_slash, hurls.path_eq u p hp] at hslash
      rw [if_neg hslash]
      exact hurls.toString_setPath u p hp

theorem outcome_of_verifyAnnotations {sigstore : Sigstore R K}
    {annotations : Option Annotations} {outcome : Bool} {sl : SignatureLayer R}
    (h : verifyAnnotations sigstore annotations outcome sl = .ok true) :
    outcome = true := by
  cases outcome with
  | true => rfl
  | false => cases annotations <;> cases h

theorem startsWith_of_accepted {hostOf : List Char → Option String} (hurls : urls.Slices hostOf)
    {sigstore : Sigstore R K} {u : U} {issuer : String} {annotations : Option Annotations}
    {sl : SignatureLayer R} {cs : CertificateSignature} (hcert : sl.certificateSignature = some cs)
    (haccepted : (new urls issuer (.urlPrefix u) annotations).verify urls sigstore sl = .ok true) :
    UrlText.slashed (urls.toString u).toList <+: cs.subject.text.toList := by
  have hslash : (new urls issuer (.urlPrefix u)
      annotations).subject = .urlPrefix (if endsWith (urls.toString u)
        "/" then u else urls.appendSlash u) :=
    (apply_ite Subject.urlPrefix _ _ _).symm
  have htext : (urls.toString (if endsWith (urls.toString u) "/" then u
      else urls.appendSlash u)).toList = UrlText.slashed (urls.toString u).toList := by
    rw [UrlText.slashed]
    by_cases h : endsWith (urls.toString u) "/" = true
    · rw [if_pos h, if_pos (endsWith_slash.1 h)]
    · rw [if_neg h, if_neg (mt endsWith_slash.2 h), hurls.toString_appendSlash,
        String.toList_append]
      rfl
  unfold verify at haccepted
  rw [hcert, hslash] at haccepted
  have hcheck := outcome_of_verifyAnnotations haccepted
  rw [← htext]
  exact isPrefixOf_iff_prefix.1 (and_eq_true_iff.1 hcheck).2

/-- **A prefix without a query and a fragment is extended by a slash**, whether it
comes from a configuration or not. -/
theorem slashed_prefix_of_given {hostOf : List Char → Option String} (hurls : urls.Slices hostOf)
    {u u' : U} {configured : Bool} (hgiven : GivenPrefix urls u configured u')
    (hplain : configured = false ∨ ∀ c ∈ (urls.toString u).toList, UrlText.endsPath c = false) :
    UrlText.slashed (urls.toString u).toList <+: UrlText.slashed (urls.toString u').toList := by
  cases hgiven with
  | constructor => exact prefix_rfl
  | config hs hu hu' =>
    obtain ⟨s, hs', hu'⟩ := Fallible.bind_eq_ok.1 hu'
    cases hs.symm.trans hs'
    obtain ⟨url, hurl, hu'⟩ := Fallible.bind_eq_ok.1 hu'
    cases hu.symm.trans hurl
    split_ifs at hu' with hslash
    · cases hu'
      exact prefix_rfl
    · cases hu'
      rw [hurls.toString_setPath_of_plain u (hplain.resolve_left Bool.noConfusion),
        String.toList_append]
      have hlast : UrlText.slashed ((urls.toString u).toList ++ "/".toList)
          = (urls.toString u).toList ++ ['/'] := if_pos getLast?_concat
      rw [hlast, UrlText.slashed]
      split_ifs
      · exact prefix_append _ _
      · exact prefix_rfl

/-- **Accepted subjects start with the extended prefix.** Those that are the text
of a URL have the scheme and the host of a prefix with a host, and are below its
path. -/
theorem accepted_subjects {hostOf : List Char → Option String}
    (hurls : urls.Slices hostOf) (sigstore : Sigstore R K) {u u' : U}
    {configured : Bool} (hgiven : GivenPrefix urls u configured u') {issuer : String}
    {annotations : Option Annotations} {sl : SignatureLayer R}
    {cs : CertificateSignature} (hcert : sl.certificateSignature = some cs)
    (haccepted : (new urls issuer (.urlPrefix u') annotations).verify urls sigstore sl = .ok true) :
    UrlText.slashed (urls.toString u').toList <+: cs.subject.text.toList
      ∧ (configured = false ∨ (∀ c ∈ (urls.toString u).toList, UrlText.endsPath c = false) →
        UrlText.slashed (urls.toString u).toList <+: cs.subject.text.toList)
      ∧ ∀ h, urls.hostStr u = some h → ∃ p, UrlText.read (urls.toString u).toList = some p
        ∧ p.extended configured <+: cs.subject.text.toList
        ∧ ∀ subject, urls.toString subject = cs.subject.text →
          ((UrlText.read (urls.toString subject).toList).map (·.scheme) = some p.scheme
            ∧ urls.hostStr subject = some h)
          ∧ (UrlText.trimmed (urls.path u).toList).splitOn '/'
            <+: (urls.path subject).toList.splitOn '/'
          ∧ ∀ c rest, (urls.path subject).toList
            = UrlText.trimmed (urls.path u).toList ++ c :: rest → c = '/' := by
  have hstarts := startsWith_of_accepted hurls hcert haccepted
  refine ⟨hstarts, fun hplain => (slashed_prefix_of_given hurls hgiven hplain).trans hstarts,
    fun h hhost => ?_⟩
  rw [hurls.hostStr_eq] at hhost
  obtain ⟨p, hp, hhost⟩ := Option.bind_eq_some_iff.1 hhost
  obtain ⟨hvalid, htext⟩ := UrlText.valid_of_read hp
  have hne : p.authority ≠ [] := by
    intro hnil
    rw [hnil, hurls.hostOf_nil] at hhost
    cases hhost
  rw [toString_of_given hurls hgiven hp] at hstarts
  refine ⟨p, hp, hstarts, fun subject hsubject => ?_⟩
  obtain ⟨rest, hrest⟩ := hstarts
  obtain ⟨q, hq, hscheme, hauthority, hpath⟩ := hvalid.read_append hne configured rest
  rw [hrest, ← hsubject] at hq
  rw [hq, hurls.hostStr_eq, hq, hurls.path_eq u p hp, hurls.path_eq subject q hq]
  refine ⟨⟨congrArg some hscheme, ?_⟩, ?_, ?_⟩
  · exact (congrArg hostOf hauthority).trans hhost
  · rcases hpath with hpath | ⟨below, hpath⟩
    · rw [hpath]
    · rw [← hpath, append_assoc, singleton_append, splitOn_append_cons_self]
      exact prefix_append _ _
  · intro c rest hc
    rcases hpath with hpath | ⟨below, hpath⟩
    · rw [hpath, self_eq_append_right] at hc
      cases hc
    · rw [← hpath, append_assoc, append_cancel_left_eq] at hc
      exact (cons.inj hc).1.symm

/-! ## A concrete library -/

def UrlLib.byText : UrlLib String where
  parse := .ok
  toString := id
  hostStr := fun t => (UrlText.read t.toList).bind fun p =>
    if p.authority = [] then none else some (.ofList p.authority)
  path := fun t => .ofList (((UrlText.read t.toList).map (·.path)).getD [])
  pathSegments := fun _ => none
  setPath := fun t path => (UrlText.read t.toList).elim (t ++ "/") fun p =>
    .ofList { p with path := path.toList : UrlText }.text
  appendSlash := fun t => t ++ "/"
  parse_slash := UrlLib.text.parse_slash

theorem UrlLib.byText_slices : byText.Slices fun authority =>
    if authority = [] then none else some (.ofList authority) where
  hostOf_nil := rfl
  hostStr_eq := fun _ => rfl
  path_eq := fun t p hp => by
    show (String.ofList (((UrlText.read t.toList).map (·.path)).getD [])).toList = p.path
    rw [String.toList_ofList, show UrlText.read t.toList = some p from hp]
    rfl
  toString_appendSlash := fun _ => rfl
  toString_setPath := fun t p hp => by
    have hread : UrlText.read t.toList = some p := hp
    simp [byText, hread]
  toString_setPath_of_plain := fun t hplain => by
    show (UrlText.read t.toList).elim (t ++ "/") _ = t ++ "/"
    cases hread : UrlText.read t.toList with
    | none => rfl
    | some p =>
      obtain ⟨hvalid, htext⟩ := UrlText.valid_of_read hread
      have htail : p.tail = [] := by
        cases hp : p.tail with
        | nil => rfl
        | cons c rest =>
          have hmem : c ∈ t.toList := by simp [htext, UrlText.text, hp]
          cases (hplain c hmem).symm.trans (hvalid.tail c (by rw [hp]; rfl))
      have hpath : byText.path t = .ofList p.path := by simp [byText, hread]
      show String.ofList { p with path := (byText.path t ++ "/").toList : UrlText }.text = t ++ "/"
      apply String.toList_inj.1
      rw [hpath]
      simp [htext, UrlText.text, htail]

end

def subjectLayer (subject : String) : SignatureLayer String :=
  ⟨some ⟨.uri subject, some "issuer", none⟩, ""⟩

abbrev AcceptsSubject (u subject : String) : Prop :=
  (new byText "issuer" (.urlPrefix u)
    none).verify byText Sigstore.byKeyName (subjectLayer subject) = .ok true

theorem accepted_subjects_kubewarden : AcceptsSubject "https://github.com/kubewarden/"
        "https://github.com/kubewarden/policies"
      ∧ UrlText.slashed "https://github.com/kubewarden".toList
        <+: "https://github.com/kubewarden/policies".toList
      ∧ byText.hostStr "https://github.com/kubewarden/policies" = some "github.com" := by
  have haccepted : AcceptsSubject "https://github.com/kubewarden/"
    "https://github.com/kubewarden/policies" := rfl
  obtain ⟨-, hplain, hhost⟩ := accepted_subjects byText_slices
    Sigstore.byKeyName (u := "https://github.com/kubewarden")
    (.config (v := .string "https://github.com/kubewarden") rfl rfl rfl) rfl haccepted
  have hpath : (byText.toString "https://github.com/kubewarden").toList.any UrlText.endsPath
      = false := by decide
  obtain ⟨p, hp, hstarts, hsubject⟩ := hhost "github.com" rfl
  exact ⟨haccepted, hplain (.inr fun c hc => Bool.eq_false_iff.2 (any_eq_false.1 hpath c hc)),
    (hsubject _ rfl).1.2⟩

/-- The segments of a path, as a URL parser leaves them. -/
def withoutDots (segments : List (List Char)) : List (List Char) :=
  segments.foldl (fun kept segment => if segment = ['.', '.'] then kept.dropLast
    else if segment = ['.'] then kept else kept ++ [segment]) []

/-- **The root of a scheme accepts all hosts**, queries come behind, and a text that
is no serialised URL may leave the path of the prefix. -/
theorem prefixes_without_host : (AcceptsSubject "foo:/" "foo://evil/x"
      ∧ byText.hostStr "foo:/" = none
      ∧ byText.hostStr "foo://evil/x" = some "evil")
    ∧ (deserializeSubjectUrlPrefix byText (.string "https://h/a?x") = .ok "https://h/a/?x"
      ∧ AcceptsSubject "https://h/a/?x" "https://h/a/?x/"
      ∧ startsWith "https://h/a/?x/" "https://h/a?x/" = false)
    ∧ AcceptsSubject "https://github.com/kubewarden"
        "https://github.com/kubewarden/../kubewarden-malicious/x"
      ∧ withoutDots ((byText.path
          "https://github.com/kubewarden/../kubewarden-malicious/x").toList.splitOn '/')
        = [[], "kubewarden-malicious".toList, ['x']] :=
  ⟨⟨rfl, rfl, rfl⟩, ⟨rfl, rfl, rfl⟩, rfl, by decide +kernel⟩
