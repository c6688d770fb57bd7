import AdmController.Fetcher

/-!
# The certificates of the sources

A certificate of `sources.yaml` is kept in the encoding that it was given in
(`X509Lib.toCertificate`), and is converted to DER for the clients
(`X509Lib.toCertificateDer`).
-/

/-- A block of a PEM text. -/
structure Pem where
  label : String
  contents : List UInt8

/-- **The X.509 parsers**: the unread rest of a text with its first block, and
whether bytes are a DER certificate. -/
structure X509Lib where
  parseX509Pem : List UInt8 → Except String (List UInt8 × Pem)
  fromDer : List UInt8 → Except String Unit

namespace X509Lib

variable (lib : X509Lib)

/-- **`Certificate::try_from`** a raw certificate. -/
def toCertificate (raw : List UInt8) : Except String Certificate :=
  if (lib.parseX509Pem raw).isOk then .ok (.pem raw)
  else if (lib.fromDer raw).isOk then .ok (.der raw)
  else .error "Raw certificate is not in PEM nor in DER encoding"

/-- **`CertificateDer::try_from`** a certificate, which takes the first part of
what the parser returns. -/
def toCertificateDer : Certificate → Except String (List UInt8)
  | .der data => .ok data
  | .pem data => do
      let pem ← (lib.parseX509Pem data).mapError fun _ => "Failed to parse PEM data"
      return pem.1

/-- **Only DER certificates are converted**: one in PEM gives what follows its
first block. -/
theorem certificates_converted_iff {b p rest : List UInt8} {label : String}
    (hpem : lib.parseX509Pem p = .ok (rest, ⟨label, b⟩))
    (hder : (lib.parseX509Pem b).isOk = false) (hfrom : (lib.fromDer b).isOk = true) :
    (lib.toCertificate p >>= lib.toCertificateDer) = .ok b
        ∧ (lib.toCertificate b >>= lib.toCertificateDer) = .ok b ↔ rest = b := by
  have hraw : lib.toCertificate b = .ok (.der b) := by
    rw [toCertificate, if_neg (by simp [hder]), if_pos hfrom]
  have hp : (lib.toCertificate p >>= lib.toCertificateDer) = .ok rest := by
    rw [toCertificate, hpem]
    show (lib.parseX509Pem p).mapError _ >>= _ = _
    rw [hpem]
    rfl
  rw [hp, hraw, Except.ok.injEq]
  exact and_iff_left rfl

/-- A text is a byte 45, the block, and the rest. -/
def sample : X509Lib where
  parseX509Pem raw := if raw.head? = some 45
    then .ok (raw.drop 2, ⟨"CERTIFICATE", (raw.drop 1).take 1⟩)
    else .error "no block"
  fromDer raw := if raw = [48] then .ok () else .error "no certificate"

theorem certificates_converted_repeated :
    (sample.toCertificate [45, 48, 48] >>= sample.toCertificateDer) = .ok [48]
      ∧ (sample.toCertificate [48] >>= sample.toCertificateDer) = .ok [48] :=
  (certificates_converted_iff sample rfl rfl rfl).2 rfl

theorem pem_is_converted_to_nothing : (sample.parseX509Pem [45, 48]).map (·.2.contents) = .ok [48]
      ∧ (sample.toCertificate [45, 48] >>= sample.toCertificateDer) = .ok [] :=
  ⟨rfl, rfl⟩

end X509Lib
