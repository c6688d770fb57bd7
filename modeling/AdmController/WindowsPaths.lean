import AdmController.Base64
import AdmController.Store

/-!
# Paths of the store on Windows

Every component of a path is written in base64, but a root and the schemes of
remote policies. Decoding pushes the components again, and pushing `h:5000`,
which begins like a drive letter, drops what was before.
-/

namespace WindowsPaths

open UrlQuery List Base64

/-- The components of a path, each by its text. -/
abbrev Path := List (List Char)

/-- The text begins with a drive letter. -/
def hasDrive : List Char → Bool
  | letter :: colon :: _ => letter.isAlpha && colon == ':'
  | _ => false

/-- **`PathBuf::push`**, for a text without separators or a root: a drive letter
replaces the path, a root all but its drive letter, and `.` is a component only
at the beginning. -/
def push (path : Path) (text : List Char) : Path :=
  if hasDrive text then text.take 2 :: [text.drop 2].filter (· != [])
  else if text = ['\\'] then (path.take 1).filter hasDrive ++ [text]
  else if text = ['.'] && !(path.length ≤ 1 && path.all hasDrive) then path
  else path ++ [text]

/-- What is left as it is. -/
def unencoded : Path := ['\\'] :: knownRemoteSchemes.map String.toList

def encodeComponent (c : List Char) : List Char := if c ∈ unencoded then c else encode (utf8 c)

/-- **`encode_path`**. -/
def encodePath (path : Path) : Path :=
  path.foldl (fun encoded c => push encoded (encodeComponent c)) []

def decodeComponent (c : List Char) : Option (List Char) :=
  if c ∈ unencoded then some c else (decode c).map fromUtf8Lossy

/-- **`decode_path`**. -/
def decodePath (path : Path) : Option Path :=
  path.foldlM (fun decoded c => (decodeComponent c).map (push decoded)) []

/-- The components of a relative path: a drive letter stands by itself and at the
beginning, a root at the beginning, and a dot at the beginning or behind a drive
letter. -/
structure Relative (path : Path) : Prop where
  nonempty : [] ∉ path
  separators : ∀ c ∈ path, c = ['\\'] ∨ '\\' ∉ c ∧ '/' ∉ c
  drive : ∀ c ∈ path.head?, hasDrive c = true → c.length = 2
  root : ['\\'] ∉ path.tail
  dot : ['.'] ∈ path.tail →
    (∃ c ∈ path.head?, hasDrive c = true) ∧ ['.'] ∉ path.tail.tail

/-! ## Components -/

theorem encode_not_mem_unencoded (text : List Char) : encode (utf8 text) ∉ unencoded := by
  intro h
  -- a root and `https` are not base64, and the bytes of the others begin inside a character
  have hbytes : ∀ c ∈ unencoded, ∀ bytes ∈ decode c,
      bytes ≠ [] ∧ bytes.toByteArray.utf8DecodeChar? 0 = none := by decide +kernel
  obtain ⟨hne, hchar⟩ := hbytes _ h (utf8 text) (decode_encode _)
  cases text with
  | nil => exact hne rfl
  | cons c text =>
    rw [utf8DecodeChar?_utf8_cons] at hchar
    cases hchar

theorem decodeComponent_encodeComponent (c : List Char) :
    decodeComponent (encodeComponent c) = some c := by
  unfold encodeComponent
  split_ifs with hc
  · exact if_pos hc
  · rw [decodeComponent, if_neg (encode_not_mem_unencoded c), decode_encode,
      Option.map_some, fromUtf8Lossy_utf8]

theorem encodeComponent_injective : Function.Injective encodeComponent := fun c d h =>
  Option.some.inj (by rw [← decodeComponent_encodeComponent, h, decodeComponent_encodeComponent])

theorem decodePath_map (path : Path) :
    decodePath (path.map encodeComponent) = some (path.foldl push []) := by
  unfold decodePath
  generalize ([] : Path) = decoded
  induction path generalizing decoded with
  | nil => rfl
  | cons c path ih =>
    rw [map_cons, foldlM_cons, decodeComponent_encodeComponent]
    exact ih _

theorem hasDrive_encodeComponent (c : List Char) : hasDrive (encodeComponent c) = false
    ∧ encodeComponent c ≠ ['.'] ∧ (encodeComponent c = ['\\'] ↔ c = ['\\']) := by
  let plain (c : List Char) := c.all fun d => d != ':' && d != '.'
  have hplain : plain (encodeComponent c) = true := by
    unfold encodeComponent
    split_ifs with hc
    · exact (by decide +kernel : ∀ c ∈ unencoded, plain c = true) c hc
    · have hall : plain alphabet = true := by decide +kernel
      exact all_eq_true.2 fun d hd => all_eq_true.1 hall d (forall_mem_encode _ d hd)
  have hroot : encodeComponent ['\\'] = ['\\'] := by decide
  refine ⟨?_, fun h => ?_, fun h => encodeComponent_injective (h.trans hroot.symm), ?_⟩
  · match hd : encodeComponent c with
    | [] => rfl
    | [_] => rfl
    | _ :: colon :: _ =>
      obtain ⟨-, ⟨hne, -⟩, -⟩ := by simpa [plain, hd] using hplain
      simp [hasDrive, hne]
  · exact absurd (h ▸ hplain) (by decide)
  · rintro rfl
    exact hroot

/-! ## Pushing the components of a path -/

theorem foldl_push_append {rest : Path}
    (hrest : ∀ c ∈ rest, hasDrive c = false ∧ c ≠ ['\\'] ∧ c ≠ ['.']) (path : Path) :
    rest.foldl push path = path ++ rest := by
  induction rest generalizing path with
  | nil => simp
  | cons c rest ih =>
    obtain ⟨⟨hc, hroot, hdot⟩, hrest⟩ := forall_mem_cons.1 hrest
    have hpush : push path c = path ++ [c] := by simp [push, hc, hroot, hdot]
    rw [foldl_cons, hpush, ih hrest, append_assoc, singleton_append]

theorem foldl_push {c : List Char} {l : Path} (hdrive : hasDrive c = true → c.length = 2)
    (hl : ∀ d ∈ l, hasDrive d = false) (hroot : ['\\'] ∉ l)
    (hdot : ['.'] ∈ l → hasDrive c = true ∧ ['.'] ∉ l.tail) :
    (c :: l).foldl push [] = c :: l := by
  have hfirst : push [] c = [c] := by
    cases hc : hasDrive c with
    | false => simp [push, hc]
    | true => simp [push, hc, take_of_length_le (hdrive hc).le, drop_of_length_le (hdrive hc).le]
  rw [foldl_cons, hfirst]
  cases l with
  | nil => rfl
  | cons d l =>
    obtain ⟨hd, hl⟩ := forall_mem_cons.1 hl
    obtain ⟨hroot_d, hroot_l⟩ := not_or.1 (mt mem_cons.2 hroot)
    -- the dot behind a drive letter is a component
    have hsecond : push [c] d = [c, d] := by
      by_cases heq : d = ['.']
      · subst heq
        simp [push, hd, (hdot mem_cons_self).1]
      · simp [push, hd, Ne.symm hroot_d, heq]
    rw [foldl_cons, hsecond, foldl_push_append]
    · rfl
    · refine fun e he => ⟨hl e he, ne_of_mem_of_not_mem he hroot_l, ?_⟩
      rintro rfl
      exact (hdot (mem_cons_of_mem d he)).2 he

/-- **Pushing adds no character**, and a drive letter drops all that was before. -/
theorem length_push (path : Path) (c : List Char) :
    (push path c).flatten.length ≤ path.flatten.length + c.length
      ∧ (hasDrive c = true → (push path c).flatten.length ≤ c.length) := by
  cases hc : hasDrive c with
  | true =>
    have hlength : (push path c).flatten.length ≤ c.length := by
      by_cases hrest : c.drop 2 = []
      · simp [push, hc, hrest]
      · simp [push, hc, hrest]
    exact ⟨hlength.trans (Nat.le_add_left _ _), fun _ => hlength⟩
  | false =>
    refine ⟨?_, nofun⟩
    simp only [push, hc, Bool.false_eq_true, if_false]
    split_ifs
    · have hsub : ((path.take 1).filter hasDrive).flatten.length ≤ path.flatten.length :=
        (filter_sublist.trans (take_sublist 1 path)).flatten.length_le
      simpa using hsub
    · exact Nat.le_add_right _ _
    · simp

theorem length_foldl_push (l path : Path) :
    (l.foldl push path).flatten.length ≤ path.flatten.length + l.flatten.length := by
  induction l generalizing path with
  | nil => exact le_rfl
  | cons c l ih =>
    have hpush := (length_push path c).1
    have hrest := ih (push path c)
    rw [foldl_cons, flatten_cons, length_append]
    omega

/-- **A drive letter behind the beginning loses what was before it.** -/
theorem foldl_push_ne {c d : List Char} {l : Path} (hc : c ≠ []) (hd : d ∈ l)
    (hdrive : hasDrive d = true) : (c :: l).foldl push [] ≠ c :: l := by
  obtain ⟨before, after, rfl⟩ := append_of_mem hd
  intro heq
  have hlength := congrArg (fun path => path.flatten.length) heq
  have hdrop := (length_push ((c :: before).foldl push []) d).2 hdrive
  have hafter := length_foldl_push after (push ((c :: before).foldl push []) d)
  have hpos := length_pos_iff.2 hc
  simp only [foldl_cons, foldl_append, flatten_cons, flatten_append, length_append]
    at hlength hdrop hafter
  omega

/-! ## Reading back -/

theorem encodePath_eq {path : Path} (h : Relative path) :
    encodePath path = path.map encodeComponent := by
  unfold encodePath
  rw [← foldl_map]
  cases path with
  | nil => rfl
  | cons c path =>
    refine foldl_push (fun hdrive => ?_) (forall_mem_map.2 fun d _ =>
      (hasDrive_encodeComponent d).1) ?_ ?_
    · rw [(hasDrive_encodeComponent c).1] at hdrive
      cases hdrive
    · rw [mem_map]
      rintro ⟨d, hd, heq⟩
      exact h.root ((hasDrive_encodeComponent d).2.2.1 heq ▸ hd)
    · rw [mem_map]
      rintro ⟨d, -, heq⟩
      exact absurd heq (hasDrive_encodeComponent d).2.1

/-- **Encoded paths are told apart**, and those are read back in which no
component but the first begins like a drive letter; no text is written as a
scheme. -/
theorem windows_paths_read_back {path : Path} (h : Relative path) :
    (decodePath (encodePath path) = some path ↔ ∀ c ∈ path.tail, hasDrive c = false)
      ∧ (∀ path', Relative path' → encodePath path = encodePath path' → path = path')
      ∧ ∀ text, encode (utf8 text) ∉ unencoded := by
  refine ⟨?_, fun path' h' heq => ?_, encode_not_mem_unencoded⟩
  · rw [encodePath_eq h, decodePath_map, Option.some_inj]
    cases path with
    | nil => simp
    | cons c path =>
      constructor
      · intro heq d hd
        by_contra hdrive
        refine foldl_push_ne ?_ hd (Bool.eq_true_of_not_eq_false hdrive) heq
        rintro rfl
        exact h.nonempty mem_cons_self
      · intro hdrive
        refine foldl_push (h.drive c rfl) hdrive h.root fun hdot => ?_
        obtain ⟨⟨c', hc', hletter⟩, hrest⟩ := h.dot hdot
        cases hc'
        exact ⟨hletter, hrest⟩
  · rw [encodePath_eq h, encodePath_eq h'] at heq
    exact map_injective_iff.2 encodeComponent_injective heq

theorem registry_path_is_read_back :
    let path := ["registry".toList, "ghcr.io".toList, "policy".toList]
    decodePath (encodePath path) = some path :=
  (windows_paths_read_back ⟨by decide, by decide, by decide, by decide, by decide⟩).1.2 (by decide)

/-- The policies of the host `h:5000` are decoded to a path on a drive `h:`. -/
theorem host_is_read_as_drive :
    let path := ["registry".toList, "h:5000".toList, "policy".toList]
    Relative path ∧ decodePath (encodePath path)
      = some ["h:".toList, "5000".toList, "policy".toList] := by
  have h : Relative ["registry".toList, "h:5000".toList, "policy".toList] :=
    ⟨by decide, by decide, by decide, by decide, by decide⟩
  refine ⟨h, ?_⟩
  rw [encodePath_eq h, decodePath_map]
  decide +kernel

end WindowsPaths
