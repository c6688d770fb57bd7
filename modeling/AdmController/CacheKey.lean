import AdmController.Callback
import AdmController.HexDigits

/-!
# The cache of certificate verifications

Verifying an image is cached by the hash of the fields of the request, one after
the other.
-/

open RustStr List

structure CertificateVerification where
  image : String
  certificate : List UInt8
  certificateChain : Option (List (List UInt8))
  requireRekorBundle : Bool
  annotations : SignerAnnotations
deriving DecidableEq

/-! ## Hexadecimal digits -/

def hexEncode (bytes : List UInt8) : String :=
  String.ofList (bytes.flatMap fun b =>
    [hexDigit (b.toNat / 16), hexDigit (b.toNat % 16)])

theorem hexEncode_injective : Function.Injective hexEncode := by
  intro bytes
  induction bytes with
  | nil =>
    intro bytes' h
    cases bytes' with
    | nil => rfl
    | cons b rest => simp [hexEncode] at h
  | cons b rest ih =>
    intro bytes' h
    cases bytes' with
    | nil => simp [hexEncode] at h
    | cons b' rest' =>
      simp only [hexEncode, flatMap_cons, cons_append,
        nil_append, String.ofList_inj, cons.injEq] at h
      obtain ⟨hhigh, hlow, hrest⟩ := h
      have hb := b.toNat_lt
      have hb' := b'.toNat_lt
      have hdiv := hexDigit_injective (by omega) (by omega) hhigh
      have hmod := hexDigit_injective (by omega) (by omega) hlow
      have hbyte : b = b' := UInt8.toNat_inj.1 (by omega)
      rw [hbyte, ih (congrArg String.ofList hrest)]

theorem intoBytes_injective : Function.Injective intoBytes := fun _ _ h =>
  String.toByteArray_inj.1 (ByteArray.ext (Array.ext' h))

namespace CertificateVerification

variable (sha256 : List UInt8 → List UInt8) (r : CertificateVerification)

/-! ## The key -/

def hashed : List UInt8 :=
  let hasher := intoBytes r.image
  let hasher := hasher ++ r.certificate
  let hasher := match r.certificateChain with
    | some certs => certs.foldl (· ++ ·) hasher
    | none => hasher
  let hasher := if r.requireRekorBundle then hasher ++ intoBytes "1"
    else hasher ++ intoBytes "0"
  match r.annotations with
  | some a => a.entries.foldl (fun hasher kv => hasher ++ intoBytes kv.1 ++ intoBytes "\n"
    ++ intoBytes kv.2) hasher
  | none => hasher

def cacheKey : String := hexEncode (sha256 r.hashed)

def annotationBytes (kv : String × String) : List UInt8 :=
  intoBytes kv.1 ++ intoBytes "\n" ++ intoBytes kv.2

def chain : List (List UInt8) := r.certificateChain.getD []

def annotationEntries : List (String × String) :=
  match r.annotations with
  | some a => a.entries
  | none => []

def rekorDigit : List UInt8 := intoBytes (if r.requireRekorBundle then "1" else "0")

/-- **Which fields a request has, and how many bytes each of them.** -/
structure Shape where
  (image certificate : ℕ)
  certificateChain : Option (List ℕ)
  annotations : Option (List (ℕ × ℕ))
deriving DecidableEq

def annotationLengths (kv : String × String) : ℕ × ℕ :=
  ((intoBytes kv.1).length, (intoBytes kv.2).length)

def shape : Shape where
  image := (intoBytes r.image).length
  certificate := r.certificate.length
  certificateChain := r.certificateChain.map (·.map length)
  annotations := r.annotations.map (·.entries.map annotationLengths)

/-! ## What the hasher is fed with -/

theorem foldl_append_eq {α : Type} (f : α → List UInt8) : ∀ (l : List α) (acc : List UInt8),
      l.foldl (fun acc a => acc ++ f a) acc = acc ++ l.flatMap f
  | [], acc => by simp
  | a :: l, acc => by rw [foldl_cons, foldl_append_eq f l, flatMap_cons, append_assoc]

theorem hashed_eq : r.hashed = intoBytes r.image ++ (r.certificate ++ (r.chain.flatten
    ++ (r.rekorDigit ++ r.annotationEntries.flatMap annotationBytes))) := by
  have hchain : ∀ hasher : List UInt8, (match r.certificateChain with
        | some certs => certs.foldl (· ++ ·) hasher
        | none => hasher) = hasher ++ r.chain.flatten := by
    intro hasher
    unfold chain
    cases r.certificateChain with
    | none => simp
    | some certs =>
      have h := foldl_append_eq id certs hasher
      simpa [flatMap_id] using h
  have hannotations : ∀ hasher : List UInt8, (match r.annotations with
        | some a => a.entries.foldl (fun hasher kv => hasher ++ intoBytes kv.1 ++ intoBytes "\n"
          ++ intoBytes kv.2) hasher
        | none => hasher)
        = hasher ++ r.annotationEntries.flatMap annotationBytes := by
    intro hasher
    unfold annotationEntries
    cases r.annotations with
    | none => simp
    | some a =>
      have h := foldl_append_eq annotationBytes a.entries hasher
      simpa [annotationBytes, append_assoc] using h
  unfold hashed
  simp only [hchain, hannotations]
  unfold rekorDigit
  cases r.requireRekorBundle <;> simp [append_assoc]

theorem cacheKey_eq_iff (hsha : Function.Injective sha256) {r r' : CertificateVerification} :
    r.cacheKey sha256 = r'.cacheKey sha256 ↔ r.hashed = r'.hashed :=
  ⟨fun h => hsha (hexEncode_injective h), fun h => by unfold cacheKey; rw [h]⟩

/-! ## Requests of one shape -/

theorem annotations_eq {l l' : List (String × String)}
    (hlengths : l.map annotationLengths = l'.map annotationLengths)
    (h : l.flatMap annotationBytes = l'.flatMap annotationBytes) : l = l' := by
  induction l generalizing l' with
  | nil => exact (map_eq_nil_iff.1 hlengths.symm).symm
  | cons kv l ih =>
    cases l' with
    | nil => cases hlengths
    | cons kv' l' =>
      obtain ⟨hfirst, hrest⟩ := cons.inj hlengths
      obtain ⟨hkey, hvalue⟩ := Prod.mk.inj hfirst
      rw [flatMap_cons, flatMap_cons] at h
      obtain ⟨hbytes, h⟩ := append_inj h (by simp [annotationBytes, hkey, hvalue])
      obtain ⟨hfront, hvalue⟩ := append_inj hbytes (by simp [hkey])
      have hkey := (append_inj hfront hkey).1
      rw [ih hrest h, Prod.ext (intoBytes_injective hkey) (intoBytes_injective hvalue)]

/-- **The bytes determine a request of a given shape.** -/
theorem eq_of_shape_eq {r r' : CertificateVerification} (hshape : r.shape = r'.shape)
    (h : r.hashed = r'.hashed) : r = r' := by
  obtain ⟨himage, hcertificate, hchain, hannotations⟩ := Shape.mk.inj hshape
  have hlengths : r.chain.map length = r'.chain.map length := by
    have heq := congrArg (·.getD []) hchain
    unfold chain
    cases hc : r.certificateChain <;> cases hc' : r'.certificateChain <;> simp_all
  have hpairs : r.annotationEntries.map annotationLengths
      = r'.annotationEntries.map annotationLengths := by
    have heq := congrArg (·.getD []) hannotations
    unfold annotationEntries
    cases ha : r.annotations <;> cases ha' : r'.annotations <;> simp_all
  rw [hashed_eq, hashed_eq] at h
  -- the fields are cut off one after the other
  obtain ⟨himage, h⟩ := append_inj h himage
  obtain ⟨hcertificate, h⟩ := append_inj h hcertificate
  obtain ⟨hcerts, h⟩ := append_inj h (by rw [length_flatten, length_flatten, hlengths])
  have hcerts : r.chain = r'.chain := eq_iff_flatten_eq.2 ⟨hcerts, hlengths⟩
  obtain ⟨hdigit, h⟩ := append_inj h (by
    unfold rekorDigit
    cases r.requireRekorBundle <;> cases r'.requireRekorBundle <;> rfl)
  have hentries := annotations_eq hpairs h
  obtain ⟨image, certificate, certs, rekor, annotations⟩ := r
  obtain ⟨image', certificate', certs', rekor', annotations'⟩ := r'
  obtain rfl : image = image' := intoBytes_injective himage
  obtain rfl : certificate = certificate' := hcertificate
  obtain rfl : certs = certs' := by
    cases certs <;> cases certs' <;> simp_all [shape, chain]
  obtain rfl : rekor = rekor' := by
    revert hdigit
    cases rekor <;> cases rekor' <;> simp [rekorDigit] <;> decide
  obtain rfl : annotations = annotations' := by
    rcases annotations with _ | ⟨entries, _⟩ <;> rcases annotations' with _ | ⟨entries', _⟩ <;>
      simp_all [shape, annotationEntries]
  rfl

/-- A request with the same bytes: an empty chain is there, or one more empty
certificate is in it. -/
def paddedChain : CertificateVerification :=
  { r with certificateChain := some (r.certificateChain.elim [] ([] :: ·)) }

theorem hashed_paddedChain : r.paddedChain.hashed = r.hashed := by
  rw [hashed_eq, hashed_eq]
  have hflatten : r.paddedChain.chain.flatten = r.chain.flatten := by
    unfold paddedChain chain
    cases r.certificateChain <;> simp
  rw [hflatten]
  rfl

theorem shape_paddedChain_ne : r.paddedChain.shape ≠ r.shape := by
  intro h
  have hchain : (some (r.certificateChain.elim [] ([] :: ·))).map (·.map length)
      = r.certificateChain.map (·.map length) := congrArg Shape.certificateChain h
  cases hcerts : r.certificateChain with
  | none => simp [hcerts] at hchain
  | some certs =>
    have hlength := congrArg (fun chain => (chain.getD []).length) hchain
    simp [hcerts] at hlength

/-- A request with an image, a certificate, a chain and an annotation. -/
def signedBy (certificate : List UInt8) : CertificateVerification :=
  ⟨"ghcr.io/kubewarden/p:v1", certificate, some [[5, 2], [3]], true,
    some ⟨[("signer", "release team")], List.pairwise_singleton _ _⟩⟩

def shortImage : CertificateVerification := ⟨"a", [98], none, true, none⟩

def longImage : CertificateVerification := ⟨"ab", [], none, true, none⟩

end CertificateVerification
