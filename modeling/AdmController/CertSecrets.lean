import AdmController.Cluster

/-!
# The certificates of the stack

The CA of the controller has its certificate and its key in one secret, for
some time together with the certificate of the CA before; the API server trusts
the bundle of the two (`caBundleFromSecret`).
-/

namespace CertReconciler

open Controller Fallible

/-! ## X.509 -/

abbrev Pem := List UInt8

/-- **Third-party code**: certificates, keys, and who signed what. -/
structure X509 (C K : Type) where
  /-- The blocks of a file with their types, as `pem.Decode` finds them. -/
  blocks : Pem → List (String × List UInt8)
  parseCertificate : List UInt8 → Except String C
  parseECPrivateKey : List UInt8 → Except String K
  keyPair : Pem → Pem → Except String Unit
  verify : C → List C → String → ℕ → Except String Unit
  /-- A certificate for a new key, made with some randomness. -/
  createCertificate : ℕ → C → K → ℕ → ℕ → String → Except String (Pem × Pem)
  signer : Pem → Option C
  signer_createCertificate : ∀ {seed ca key notBefore notAfter dnsName cert k},
    createCertificate seed ca key notBefore notAfter dnsName = .ok (cert, k) → signer cert = some ca

variable {C K : Type} (x : X509 C K)

def X509.certificateOf (certPEM : Pem) : Except String C :=
  match (x.blocks certPEM).head? with
  | none => .error "failed to decode certificate PEM"
  | some block => (x.parseCertificate block.2).mapError ("error parsing certificate: " ++ ·)

def X509.newCertPool (certPEM : Pem) : Except String (List C) :=
  (x.blocks certPEM).mapM fun block =>
    (x.parseCertificate block.2).mapError ("error parsing certificate: " ++ ·)

def X509.verifyPrivateKey (certPEM privateKeyPEM : Pem) : Except String Unit :=
  match (x.blocks privateKeyPEM).head? with
  | none => .error "failed to decode private key PEM"
  | some block =>
    if block.1 ≠ "EC PRIVATE KEY" then
      .error "private key has invalid PEM header, expected 'EC PRIVATE KEY'"
    else (x.keyPair certPEM privateKeyPEM).mapError ("key pair is invalid: " ++ ·)

/-- **Whether a certificate is valid** at a time, for a pool and a name. -/
def X509.verifyCert (certPEM : Pem) (privateKeyPEM : Option Pem)
    (certPool : List C) (dnsName : String) (time : ℕ) : Except String Unit := do
  let cert ← x.certificateOf certPEM
  match privateKeyPEM with
  | some key => x.verifyPrivateKey certPEM key
  | none => pure ()
  (x.verify cert certPool dnsName time).mapError ("the certificate is invalid: " ++ ·)

def X509.verifyCA (caCertPEM : Pem) (caPrivateKeyPEM : Option Pem)
    (time : ℕ) : Except String Unit := do
  let pool ← (x.newCertPool caCertPEM).mapError ("failed to create cert pool: " ++ ·)
  (x.verifyCert caCertPEM caPrivateKeyPEM pool "" time).mapError
    ("failed to verify CA certificate: " ++ ·)

/-- **Sign a new certificate.** -/
def X509.generateCert (caCertPEM caPrivateKeyPEM : Pem)
    (notBefore notAfter : ℕ) (dnsName : String) (seed : ℕ) :
    Except String (Pem × Pem) :=
  match (x.blocks caCertPEM).head? with
  | none => .error "failed to decode ca root certificate PEM"
  | some caCertBlock => do
    let caCert ← (x.parseCertificate caCertBlock.2).mapError
      ("error parsing ca root certificate: " ++ ·)
    match (x.blocks caPrivateKeyPEM).head? with
    | none => .error "failed to decode ca root private key PEM"
    | some caPrivateKeyBlock =>
      let caPrivateKey ← (x.parseECPrivateKey caPrivateKeyBlock.2).mapError
        ("error parsing ca root private key: " ++ ·)
      x.createCertificate seed caCert caPrivateKey notBefore notAfter dnsName

theorem X509.signer_generateCert {caCert caKey cert key : Pem}
    {notBefore notAfter seed : ℕ} {dnsName : String}
    (h : x.generateCert caCert caKey notBefore notAfter dnsName seed = .ok (cert, key)) :
    ∃ ca, x.certificateOf caCert = .ok ca ∧ x.signer cert = some ca := by
  unfold X509.generateCert at h
  unfold X509.certificateOf
  cases hblock : (x.blocks caCert).head? with
  | none =>
    rw [hblock] at h
    cases h
  | some block =>
    rw [hblock] at h
    obtain ⟨ca, hca, h⟩ := bind_eq_ok.1 h
    refine ⟨ca, ?_, ?_⟩
    · exact mapError_eq_ok.2 (mapError_eq_ok.1 hca)
    · split at h
      · cases h
      · obtain ⟨caKey', -, h⟩ := bind_eq_ok.1 h
        exact x.signer_createCertificate h

/-! ## Secrets -/

def caRootSecretName : String := "kubewarden-ca"

def rootCert (secret : Secret) : Option Pem := secret.data.lookup "ca.crt"

def oldRootCert (secret : Secret) : Option Pem := secret.data.lookup "old-ca.crt"

def requiredField (secret : Secret) (field missing empty : String) : Except String Pem :=
  match secret.data.lookup field with
  | none => .error missing
  | some value => if value.length = 0 then .error empty else .ok value

variable (caRootSecret : Secret)

def extractCARootFromSecret : Except String (Pem × Pem) := do
  let caCert ← requiredField caRootSecret "ca.crt"
    ("CA could not be extracted from secret: " ++ caRootSecretName)
    ("CA certificate is empty in secret: " ++ caRootSecretName)
  let caPrivateKey ← requiredField caRootSecret "ca.key"
    ("CA private key bytes could not be extracted from secret: " ++ caRootSecretName)
    ("CA private key is empty in secret: " ++ caRootSecretName)
  return (caCert, caPrivateKey)

def extractServerCertFromSecret (name : String) (serverCertSecret : Secret) :
    Except String (Pem × Pem) := do
  let serverCert ← requiredField serverCertSecret "tls.crt"
    ("server certificate could not be extracted from secret: " ++ name)
    ("server certificate is empty in secret: " ++ name)
  let serverPrivateKey ← requiredField serverCertSecret "tls.key"
    ("server private key could not be extracted from secret: " ++ name)
    ("server private key is empty in secret: " ++ name)
  return (serverCert, serverPrivateKey)

/-- **What the API server trusts**: the CA, and the one before, if any. -/
def caBundleFromSecret : Pem :=
  (rootCert caRootSecret).getD [] ++ (oldRootCert caRootSecret).getD []

variable {secret : Secret}

theorem lookup_of_requiredField {value : Pem} {field missing empty : String}
    (h : requiredField secret field missing empty = .ok value) :
    secret.data.lookup field = some value := by
  unfold requiredField at h
  split at h
  · cases h
  · next v hv =>
    split at h
    · cases h
    · rw [hv, Except.ok.inj h]

theorem rootCert_of_extractCARootFromSecret {caCert caKey : Pem}
    (h : extractCARootFromSecret secret = .ok (caCert, caKey)) :
    rootCert secret = some caCert := by
  obtain ⟨c, hc, h⟩ := bind_eq_ok.1 h
  obtain ⟨k, -, h⟩ := bind_eq_ok.1 h
  cases h
  exact lookup_of_requiredField hc

/-! ## Rotating the CA -/

def certLookahead : ℕ := 60 * 24 * 60 * 60

def serverCertExpiration : ℕ := 365 * 24 * 60 * 60

/-- **A rotation**: the new CA, and the certificate saved as the old one. -/
structure Rotation where
  (caCert caPrivateKey oldCACert : Pem)

def reconcileCARoot (now : ℕ) (generated : Except String (Pem × Pem)) :
    Except String (Option Rotation) := do
  let (caCert, caPrivateKey) ← (extractCARootFromSecret caRootSecret).mapError
    ("failed to extract CA root from secret: " ++ ·)
  match x.verifyCA caCert (some caPrivateKey) (now + certLookahead) with
  | .ok _ => return none
  | .error _ =>
    let oldCACert := caCert
    let (caCert, caPrivateKey) ← generated.mapError ("failed to generate CA cert: " ++ ·)
    return some ⟨caCert, caPrivateKey, oldCACert⟩

def Rotation.mutate (r : Rotation) (secret : Secret) : Secret where
  data := ((secret.data.insert "ca.crt" r.caCert).insert
    "ca.key" r.caPrivateKey).insert "old-ca.crt" r.oldCACert

def reconcileOldCARoot (now : ℕ) : Bool :=
  match oldRootCert caRootSecret with
  | none => false
  | some oldCACert =>
    match x.verifyCA oldCACert none now with
    | .ok _ => false
    | .error _ => true

def deleteOldCARoot (secret : Secret) : Secret where
  data := secret.data.erase "old-ca.crt"

theorem oldCACert_of_reconcileCARoot {now : ℕ} {generated : Except String (Pem × Pem)}
    {r : Rotation} (h : reconcileCARoot x secret now generated = .ok (some r)) :
    rootCert secret = some r.oldCACert := by
  obtain ⟨⟨caCert, caKey⟩, hextract, h⟩ := bind_eq_ok.1 h
  dsimp only at h
  split at h
  · cases h
  · obtain ⟨⟨new, newKey⟩, -, h⟩ := bind_eq_ok.1 h
    cases h
    exact rootCert_of_extractCARootFromSecret (mapError_eq_ok.1 hextract)

@[simp] theorem oldRootCert_mutate (r : Rotation) (secret : Secret) :
    oldRootCert (r.mutate secret) = some r.oldCACert := by
  unfold oldRootCert Rotation.mutate
  rw [AList.lookup_insert]

@[simp] theorem rootCert_deleteOldCARoot (secret : Secret) :
    rootCert (deleteOldCARoot secret) = rootCert secret :=
  AList.lookup_erase_ne (by decide)

/-! ## A small PKI -/

def sampleX509 : X509 UInt8 UInt8 where
  blocks file := file.map fun b =>
    (if b < 100 then "CERTIFICATE" else "EC PRIVATE KEY", [b])
  parseCertificate
    | [b] => .ok b
    | _ => .error "malformed certificate"
  parseECPrivateKey
    | [b] => .ok b
    | _ => .error "malformed key"
  keyPair _ _ := .ok ()
  verify cert roots _ time :=
    if time ≤ cert.toNat * 10000000 ∧ (cert ∈ roots ∨ cert - 50 ∈ roots) then .ok ()
    else .error "certificate has expired or is signed by unknown authority"
  createCertificate _ ca _ _ _ _ := .ok ([ca + 50], [150])
  signer
    | [b] => some (b - 50)
    | _ => none
  signer_createCertificate h := by
    cases h
    exact congrArg some (UInt8.add_sub_cancel _ _)

def sampleCARoot (n : UInt8) : Secret where
  data := (AList.singleton "ca.crt" [n]).insert "ca.key" [n + 100]

end CertReconciler
