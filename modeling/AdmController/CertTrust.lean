import AdmController.CertSecrets
import AdmController.PolicyReconciler
import AdmController.StepSystem

/-!
# Trust in the certificates of policy servers

A pass of the certificate controller rotates the CA, writes the bundle into all
webhook configurations, and only then signs certificates. Other reconcilers also
sign and write bundles, with a CA they have read before
(`untrusted_certificate`).
-/

namespace CertReconciler

open Controller Fallible StepSystem AList Option

variable {C K : Type} (x : X509 C K)

/-! ## The objects -/

structure WebhookEntry where
  resourceVersion : ℕ
  service : String
  caBundle : Pem

structure ServerEntry where
  format : Option String
  secret : Secret

def ServerEntry.cert (server : ServerEntry) : Option Pem := server.secret.data.lookup "tls.crt"

def withServerCert (secret : Secret) (cert privateKey : Pem) : Secret where
  data := (secret.data.insert "tls.crt" cert).insert "tls.key" privateKey

def dnsName (serviceName deploymentsNamespace : String) : String :=
  serviceName ++ "." ++ deploymentsNamespace ++ ".svc"

variable (deploymentsNamespace : String)

def reconcileServerCert (caRootSecret : Secret)
    (serviceName : String) (serverCertSecret : Secret) (now seed : ℕ) :
    Except String (Option (Pem × Pem)) := do
  let dnsName := dnsName serviceName deploymentsNamespace
  let (cert, privateKey) ← (extractServerCertFromSecret serviceName serverCertSecret).mapError
    ("failed to extract server cert from secret: " ++ ·)
  let (caCert, caPrivateKey) ← (extractCARootFromSecret caRootSecret).mapError
    ("failed to extract CA root from secret: " ++ ·)
  let pool ← (x.newCertPool caCert).mapError ("failed to create cert pool: " ++ ·)
  match x.verifyCert cert (some privateKey) pool dnsName (now + certLookahead) with
  | .ok _ => return none
  | .error _ =>
    let generated ← (x.generateCert caCert caPrivateKey now
      (now + serverCertExpiration) dnsName seed).mapError ("failed to generate cert: " ++ ·)
    return some generated

def serverCertSecretFormatVersion : String := "1"

def ServerEntry.needsRegeneration (server : ServerEntry) : Bool :=
  server.cert.isNone || (server.secret.data.lookup "tls.key").isNone
    || server.format ≠ some serverCertSecretFormatVersion

/-- **The secret of a policy server after a reconcile** that has read the CA. -/
def reconcilePolicyServerCertSecret (caSecret : Secret) (name : String) (server : ServerEntry)
    (now seed : ℕ) : Except String ServerEntry :=
  if server.needsRegeneration then do
    let (caCert, caPrivateKey) ← (extractCARootFromSecret caSecret).mapError
      ("failed to extract the CA from secret '" ++ caRootSecretName ++ "': " ++ ·)
    let (cert, privateKey) ← (x.generateCert caCert caPrivateKey now
      (now + serverCertExpiration) (dnsName name deploymentsNamespace) seed).mapError
      ("cannot generate policy-server " ++ name ++ " certificate: " ++ ·)
    return ⟨some serverCertSecretFormatVersion, withServerCert server.secret cert privateKey⟩
  else return server

/-! ## The system -/

abbrev WebhookId := Bool × String

inductive Stage where
  | caRoot | oldCARoot | caBundles
  | patching (todo : List (WebhookId × WebhookEntry))
  | signing (todo : List (String × ServerEntry))

/-- A pass: its copy of the secret of the CA, and its stage. -/
structure CertPass where
  secret : Secret
  stage : Stage

/-- **The state**: what is stored, the pass, and the reconciles in between. -/
structure TrustState where
  caRoot : Secret
  webhooks : HashMap WebhookId WebhookEntry
  servers : HashMap String ServerEntry
  /-- The next resource version. -/
  version : ℕ
  pass : Option CertPass
  serverReads : List (String × Secret)
  webhookReads : List (WebhookId × String × Secret)

/-- What happens; a reconcile that writes is named by its position. -/
inductive TrustAction where
  | startPass
  | reconcileCARoot (now : ℕ) (generated : Except String (Pem × Pem))
  | reconcileOldCARoot (now : ℕ)
  | listWebhooks | injectCABundle | listServers
  | reconcileServerCert (now seed : ℕ)
  | endPass
  | readForServer (name : String)
  | writeServer (read now seed : ℕ)
  | readForWebhook (id : WebhookId) (service : String)
  | writeWebhook (read : ℕ)
  | deleteWebhook (id : WebhookId)
  | stripServer (name : String) (keepCert keepKey keepFormat : Bool)

def TrustState.init (caRoot : Secret) : TrustState := ⟨caRoot, ∅, ∅, 0, none, [], []⟩

variable (s : TrustState)

def TrustState.goOn (secret : Secret) (stage : Stage) : TrustState :=
  { s with pass := some ⟨secret, stage⟩ }

def TrustState.updateCARoot (secret : Secret) (stage : Stage) : TrustState :=
  { s with caRoot := secret, pass := some ⟨secret, stage⟩ }

def TrustState.putWebhook (id : WebhookId) (service : String) (caBundle : Pem) : TrustState :=
  { s with
    webhooks := s.webhooks.insert id ⟨s.version, service, caBundle⟩
    version := s.version + 1 }

def TrustState.putServer (name : String) (server : ServerEntry) : TrustState :=
  { s with servers := s.servers.insert name server }

def TrustState.server (name : String) : ServerEntry := (s.servers.lookup name).getD ⟨none, ⟨∅⟩⟩

def ServerEntry.strip (server : ServerEntry) (keepCert keepKey keepFormat : Bool) : ServerEntry :=
  let data := server.secret.data
  let data := if keepCert then data else data.erase "tls.crt"
  let data := if keepKey then data else data.erase "tls.key"
  ⟨if keepFormat then server.format else none, ⟨data⟩⟩

/-- **One step.** Each stage of a pass may fail and end it (`endPass`). -/
def trustStep (s : TrustState) : TrustAction → Option TrustState
  | .startPass =>
    match s.pass with
    | none => some (s.goOn s.caRoot .caRoot)
    | some _ => none
  | .reconcileCARoot now generated =>
    match s.pass with
    | some ⟨secret, .caRoot⟩ =>
      match reconcileCARoot x secret now generated with
      | .ok none => some (s.goOn secret .oldCARoot)
      | .ok (some rotation) => some (s.updateCARoot (rotation.mutate s.caRoot) .oldCARoot)
      | .error _ => some { s with pass := none }
    | _ => none
  | .reconcileOldCARoot now =>
    match s.pass with
    | some ⟨secret, .oldCARoot⟩ =>
      if reconcileOldCARoot x secret now then
        some (s.updateCARoot (deleteOldCARoot s.caRoot) .caBundles)
      else some (s.goOn secret .caBundles)
    | _ => none
  | .listWebhooks =>
    match s.pass with
    | some ⟨secret, .caBundles⟩ => some (s.goOn secret
      (.patching (s.webhooks.entries.map fun e => (e.1, e.2))))
    | _ => none
  | .injectCABundle =>
    match s.pass with
    | some ⟨secret, .patching ((id, copy) :: todo)⟩ =>
      let caBundle := caBundleFromSecret secret
      if copy.caBundle = caBundle then some (s.goOn secret (.patching todo))
      else
        match s.webhooks.lookup id with
        -- it was deleted, and is skipped
        | none => some (s.goOn secret (.patching todo))
        | some live =>
          -- the patch has an optimistic lock: `live` is the copy
          if live.resourceVersion = copy.resourceVersion then
            some ((s.putWebhook id live.service caBundle).goOn secret (.patching todo))
          else some { s with pass := none }
    | _ => none
  | .listServers =>
    match s.pass with
    | some ⟨secret, .patching []⟩ => some (s.goOn secret
      (.signing (s.servers.entries.map fun e => (e.1, e.2))))
    | _ => none
  | .reconcileServerCert now seed =>
    match s.pass with
    | some ⟨secret, .signing ((name, copy) :: todo)⟩ =>
      let s := s.goOn secret (.signing todo)
      match reconcileServerCert x deploymentsNamespace secret name
        copy.secret now seed, s.servers.lookup name with
      | .ok (some (cert, key)), some live => some (s.putServer name
        { live with secret := withServerCert live.secret cert key })
      -- a certificate that cannot rotate does not hold back the others
      | _, _ => some s
    | _ => none
  | .endPass =>
    match s.pass with
    | some _ => some { s with pass := none }
    | none => none
  | .readForServer name => some { s with serverReads := (name, s.caRoot) :: s.serverReads }
  | .writeServer read now seed =>
    match s.serverReads[read]? with
    | some (name, caSecret) =>
      let s := { s with serverReads := s.serverReads.eraseIdx read }
      match reconcilePolicyServerCertSecret x deploymentsNamespace caSecret
        name (s.server name) now seed with
      | .ok server => some (s.putServer name server)
      | .error _ => some s
    | none => none
  | .readForWebhook id service => some { s with
      webhookReads := (id, service, s.caRoot) :: s.webhookReads }
  | .writeWebhook read =>
    match s.webhookReads[read]? with
    | some (id, service, caSecret) =>
      let live := (s.webhooks.lookup id).elim [] WebhookEntry.caBundle
      let s := { s with webhookReads := s.webhookReads.eraseIdx read }
      some (s.putWebhook id service (caBundleForWebhook live caSecret))
    | none => none
  | .deleteWebhook id => some { s with webhooks := s.webhooks.erase id }
  | .stripServer name keepCert keepKey keepFormat =>
    match s.servers.lookup name with
    | some server => some (s.putServer name (server.strip keepCert keepKey keepFormat))
    | none => none

/-! ## Trust -/

def X509.SignedBy (cert caCert : Pem) : Prop :=
  ∃ ca, x.certificateOf caCert = .ok ca ∧ x.signer cert = some ca

/-- **The CA that signed a certificate is in a bundle.** -/
def X509.Trusts (caBundle cert : Pem) : Prop :=
  ∃ caCert, x.SignedBy cert caCert ∧ caCert <:+: caBundle

def X509.Knows (caRoot : Secret) (cert : Pem) : Prop :=
  ∃ caCert, x.SignedBy cert caCert
    ∧ (rootCert caRoot = some caCert ∨ oldRootCert caRoot = some caCert)

/-- **The property**: the certificates of called servers are trusted. -/
def Trusted : Prop :=
  ∀ id webhook server cert, s.webhooks.lookup id = some webhook →
    s.servers.lookup webhook.service = some server → server.cert = some cert →
      x.Trusts webhook.caBundle cert

theorem infix_caBundleFromSecret {caRoot : Secret} {caCert : Pem}
    (h : rootCert caRoot = some caCert) :
    caCert <:+: caBundleFromSecret caRoot := by
  refine ⟨[], (oldRootCert caRoot).getD [], ?_⟩
  unfold caBundleFromSecret
  rw [h]
  rfl

theorem X509.Knows.trusts {caRoot : Secret} {cert : Pem}
    (h : x.Knows caRoot cert) : x.Trusts (caBundleFromSecret caRoot) cert := by
  obtain ⟨caCert, hsigned, hroot | hold⟩ := h
  · exact ⟨caCert, hsigned, infix_caBundleFromSecret hroot⟩
  · refine ⟨caCert, hsigned, (rootCert caRoot).getD [], [], ?_⟩
    unfold caBundleFromSecret
    rw [hold, List.append_nil]
    rfl

/-! ## The conditions -/

def UpToDate : Prop :=
  ∀ name server cert, s.servers.lookup name = some server → server.cert = some cert →
    ∃ caCert, x.SignedBy cert caCert ∧ rootCert s.caRoot = some caCert

def MaySign (name : String) (caSecret : Secret) : Prop :=
  ∀ caCert, rootCert caSecret = some caCert →
    (rootCert s.caRoot = some caCert ∨ oldRootCert s.caRoot = some caCert)
      ∧ ∀ id webhook, s.webhooks.lookup id = some webhook →
        webhook.service = name → caCert <:+: webhook.caBundle

/-- A reconcile of a policy keeps the bundle or writes the current one, and does
not move the policy to another server. -/
def MayWrite (id : WebhookId) (service : String) (caSecret : Secret) : Prop :=
  match s.webhooks.lookup id with
  | some webhook => webhook.service = service ∧ (webhook.caBundle = [] →
        caBundleFromSecret caSecret = caBundleFromSecret s.caRoot)
  | none => caBundleFromSecret caSecret = caBundleFromSecret s.caRoot

/-- **The condition on steps.** -/
def Careful (s : TrustState) (a : TrustAction) : Prop :=
  match a with
  | .writeServer read _ _ => ∀ name caSecret, s.serverReads[read]? = some (name, caSecret) →
        (s.server name).needsRegeneration = true → MaySign s name caSecret
  | .writeWebhook read => ∀ id service caSecret,
    s.webhookReads[read]? = some (id, service, caSecret) → MayWrite s id service caSecret
  | _ => ∀ s', trustStep x deploymentsNamespace s a = some s' → s'.caRoot = s.caRoot ∨ UpToDate x s

/-! ## The invariant -/

/-- What a pass has dealt with has its bundle; the rest is left in its list. -/
def Stage.Patched (webhooks : HashMap WebhookId WebhookEntry) (caBundle : Pem) : Stage → Prop
  | .patching todo => ∀ id webhook, webhooks.lookup id = some webhook → webhook.caBundle = caBundle
        ∨ ∃ copy, (id, copy) ∈ todo ∧ copy.caBundle = webhook.caBundle
  | .signing _ => ∀ id webhook, webhooks.lookup id = some webhook → webhook.caBundle = caBundle
  | _ => True

theorem Stage.Patched.mono {webhooks webhooks' : HashMap WebhookId WebhookEntry} {caBundle : Pem}
    {stage : Stage} (hpatched : stage.Patched webhooks caBundle)
    (h : ∀ id webhook, webhooks'.lookup id = some webhook → webhooks.lookup id = some webhook) :
    stage.Patched webhooks' caBundle := by
  cases stage with
  | caRoot => trivial
  | oldCARoot => trivial
  | caBundles => trivial
  | patching todo => exact fun id webhook hwebhook => hpatched id webhook (h id webhook hwebhook)
  | signing todo => exact fun id webhook hwebhook => hpatched id webhook (h id webhook hwebhook)

theorem patched_tail {webhooks : HashMap WebhookId WebhookEntry}
    {caBundle : Pem} {id : WebhookId} {copy : WebhookEntry}
    {todo : List (WebhookId × WebhookEntry)}
    (hpatched : (Stage.patching ((id, copy) :: todo)).Patched webhooks caBundle)
    (h : ∀ webhook, webhooks.lookup id = some webhook →
      copy.caBundle = webhook.caBundle → webhook.caBundle = caBundle) :
    (Stage.patching todo).Patched webhooks caBundle := by
  intro id' webhook hwebhook
  obtain hdone | ⟨copy', hmem, hcopy⟩ := hpatched id' webhook hwebhook
  · exact .inl hdone
  · obtain heq | hmem := List.mem_cons.1 hmem
    · cases heq
      exact .inl (h webhook hwebhook hcopy)
    · exact .inr ⟨copy', hmem, hcopy⟩

/-- **The invariant.** -/
structure Good (s : TrustState) : Prop where
  knows : ∀ name server cert, s.servers.lookup name = some server →
    server.cert = some cert → x.Knows s.caRoot cert
  trusted : Trusted x s
  pass : ∀ p, s.pass = some p → p.secret = s.caRoot
    ∧ p.stage.Patched s.webhooks (caBundleFromSecret s.caRoot)

section

variable {x} {s s' : TrustState} {deploymentsNamespace : String}

theorem Good.endPass (hs : Good x s) : Good x { s with pass := none } :=
  ⟨hs.knows, hs.trusted, fun _ h => nomatch h⟩

theorem Good.withReads (hs : Good x s) (serverReads : List (String × Secret))
    (webhookReads : List (WebhookId × String × Secret)) :
    Good x { s with
      serverReads := serverReads, webhookReads := webhookReads } :=
  ⟨hs.knows, hs.trusted, hs.pass⟩

variable {stage : Stage}

theorem Good.goOn (hs : Good x s) (h : stage.Patched s.webhooks (caBundleFromSecret s.caRoot)) :
    Good x (s.goOn s.caRoot stage) := by
  refine ⟨hs.knows, hs.trusted, fun p hp => ?_⟩
  cases hp
  exact ⟨rfl, h⟩

variable {secret : Secret}

theorem Good.updateCARoot (hs : Good x s)
    (hca : secret = s.caRoot ∨ UpToDate x s) (hkeeps : ∀ caCert, rootCert
      s.caRoot = some caCert → rootCert secret = some caCert ∨ oldRootCert
      secret = some caCert)
    (h : ∀ webhooks caBundle, stage.Patched webhooks caBundle) :
    Good x (s.updateCARoot secret stage) where
  knows name server cert hserver hcert := by
    obtain rfl | huptodate := hca
    · exact hs.knows name server cert hserver hcert
    · obtain ⟨caCert, hsigned, hroot⟩ := huptodate name server cert hserver hcert
      exact ⟨caCert, hsigned, hkeeps caCert hroot⟩
  trusted := hs.trusted
  pass p hp := by
    cases hp
    exact ⟨rfl, h _ _⟩

variable {server : ServerEntry} {name : String}

theorem Good.putServer (hs : Good x s) (h : ∀ cert, server.cert = some cert →
      x.Knows s.caRoot cert ∧ ∀ id webhook, s.webhooks.lookup id = some webhook
      → webhook.service = name → x.Trusts webhook.caBundle cert) :
    Good x (s.putServer name server) where
  knows name' server' cert hserver hcert := by
    obtain ⟨-, rfl⟩ | ⟨-, hserver⟩ := lookup_insert_eq_some_iff.1 hserver
    · exact (h cert hcert).1
    · exact hs.knows name' server' cert hserver hcert
  trusted id webhook server' cert hwebhook hserver hcert := by
    obtain ⟨hname, rfl⟩ | ⟨-, hserver⟩ := lookup_insert_eq_some_iff.1 hserver
    · exact (h cert hcert).2 id webhook hwebhook hname
    · exact hs.trusted id webhook server' cert hwebhook hserver hcert
  pass := hs.pass

theorem Good.of_lookup {cert : Pem} (hs : Good x s) (hserver : s.servers.lookup name = some server)
    (hcert : server.cert = some cert) :
    x.Knows s.caRoot cert ∧ ∀ id webhook, s.webhooks.lookup id = some webhook →
      webhook.service = name → x.Trusts webhook.caBundle cert := by
  refine ⟨hs.knows name server cert hserver hcert, ?_⟩
  rintro id webhook hwebhook rfl
  exact hs.trusted id webhook server cert hwebhook hserver hcert

theorem Good.putWebhook {id : WebhookId} {service : String} {caBundle : Pem} (hs : Good x s)
    (h : caBundle = caBundleFromSecret s.caRoot ∨ ∃ webhook,
      s.webhooks.lookup id = some webhook ∧ webhook.service = service
        ∧ webhook.caBundle = caBundle) :
    Good x (s.putWebhook id service caBundle) where
  knows := hs.knows
  trusted id' webhook server cert hwebhook hserver hcert := by
    obtain ⟨-, rfl⟩ | ⟨-, hwebhook⟩ := lookup_insert_eq_some_iff.1 hwebhook
    · obtain rfl | ⟨live, hlive, rfl, rfl⟩ := h
      · exact (hs.knows service server cert hserver hcert).trusts
      · exact hs.trusted id live server cert hlive hserver hcert
    · exact hs.trusted id' webhook server cert hwebhook hserver hcert
  pass p hp := by
    obtain ⟨hsecret, hpatched⟩ := hs.pass p hp
    refine ⟨hsecret, ?_⟩
    -- the new configuration is as good as the one before, for the pass
    have hnew (P : Pem → Prop) (hcurrent : P (caBundleFromSecret s.caRoot))
        (hlive : ∀ webhook, s.webhooks.lookup id = some webhook →
          P webhook.caBundle) : P caBundle := by
      obtain rfl | ⟨webhook, hwebhook, -, rfl⟩ := h
      · exact hcurrent
      · exact hlive webhook hwebhook
    cases hstage : p.stage with
    | caRoot => trivial
    | oldCARoot => trivial
    | caBundles => trivial
    | patching todo =>
      rw [hstage] at hpatched
      intro id' webhook hwebhook
      obtain ⟨rfl, rfl⟩ | ⟨-, hwebhook⟩ := lookup_insert_eq_some_iff.1 hwebhook
      · exact hnew (fun b => b = caBundleFromSecret s.caRoot
          ∨ ∃ copy, (id', copy) ∈ todo ∧ copy.caBundle = b) (.inl rfl)
          (hpatched id')
      · exact hpatched id' webhook hwebhook
    | signing todo =>
      rw [hstage] at hpatched
      intro id' webhook hwebhook
      obtain ⟨-, rfl⟩ | ⟨-, hwebhook⟩ := lookup_insert_eq_some_iff.1 hwebhook
      · exact hnew (· = caBundleFromSecret s.caRoot) rfl (hpatched id)
      · exact hpatched id' webhook hwebhook

theorem Good.deleteWebhook (hs : Good x s) (id : WebhookId) :
    Good x { s with webhooks := s.webhooks.erase id } where
  knows := hs.knows
  trusted id' webhook server cert hwebhook :=
    hs.trusted id' webhook server cert (lookup_of_lookup_erase hwebhook)
  pass p hp := by
    obtain ⟨hsecret, hpatched⟩ := hs.pass p hp
    exact ⟨hsecret, hpatched.mono fun _ _ => lookup_of_lookup_erase⟩

/-! ## Steps -/

theorem cert_withServerCert (format : Option String) (secret : Secret) (cert key : Pem) :
    ServerEntry.cert ⟨format, withServerCert secret cert key⟩ = some cert := by
  unfold ServerEntry.cert withServerCert
  rw [lookup_insert_ne (by decide), lookup_insert]

variable {now seed : ℕ}

theorem signedBy_of_reconcileServerCert {caRoot : Secret} {cert key : Pem}
    (h : reconcileServerCert x deploymentsNamespace caRoot name secret now seed
      = .ok (some (cert, key))) :
    ∃ caCert, x.SignedBy cert caCert ∧ rootCert caRoot = some caCert := by
  obtain ⟨⟨cert', key'⟩, -, h⟩ := bind_eq_ok.1 h
  obtain ⟨⟨caCert, caKey⟩, hextract, h⟩ := bind_eq_ok.1 h
  obtain ⟨pool, -, h⟩ := bind_eq_ok.1 h
  split at h
  · cases h
  · obtain ⟨⟨new, newKey⟩, hgenerate, h⟩ := bind_eq_ok.1 h
    cases h
    exact ⟨caCert, x.signer_generateCert (mapError_eq_ok.1 hgenerate),
      rootCert_of_extractCARootFromSecret (mapError_eq_ok.1 hextract)⟩

variable {caSecret : Secret}

theorem reconcilePolicyServerCertSecret_cases {server' : ServerEntry}
    (h : reconcilePolicyServerCertSecret x deploymentsNamespace caSecret name
      server now seed = .ok server') :
    (server.needsRegeneration = false ∧ server' = server)
      ∨ (server.needsRegeneration = true ∧ ∃ caCert cert,
        rootCert caSecret = some caCert ∧ x.SignedBy cert caCert ∧ server'.cert = some cert) := by
  unfold reconcilePolicyServerCertSecret at h
  split at h
  · next hneeds =>
    obtain ⟨⟨caCert, caKey⟩, hextract, h⟩ := bind_eq_ok.1 h
    obtain ⟨⟨cert, key⟩, hgenerate, h⟩ := bind_eq_ok.1 h
    cases h
    refine .inr ⟨hneeds, caCert, cert, ?_, ?_, ?_⟩
    · exact rootCert_of_extractCARootFromSecret (mapError_eq_ok.1 hextract)
    · exact x.signer_generateCert (mapError_eq_ok.1 hgenerate)
    · exact cert_withServerCert _ _ cert key
  · next hneeds =>
    cases h
    exact .inl ⟨Bool.eq_false_iff.2 hneeds, rfl⟩

theorem cert_of_strip {cert : Pem} {keepCert keepKey keepFormat : Bool}
    (h : (server.strip keepCert keepKey keepFormat).cert = some cert) :
    server.cert = some cert := by
  have hkey : (server.strip keepCert keepKey keepFormat).cert = (if keepCert then server.secret.data
        else server.secret.data.erase "tls.crt").lookup "tls.crt" := by
    cases keepKey with
    | true => rfl
    | false => exact lookup_erase_ne (by decide)
  rw [hkey] at h
  cases keepCert with
  | true => exact h
  | false => exact nomatch (lookup_erase _ _).symm.trans h

theorem Good.writeServer (hs : Good x s)
    (hmay : (s.server name).needsRegeneration = true → MaySign s name caSecret)
    (h : reconcilePolicyServerCertSecret x deploymentsNamespace caSecret name
      (s.server name) now seed = .ok server) :
    Good x (s.putServer name server) := by
  refine hs.putServer fun cert hcert => ?_
  obtain ⟨hneeds, rfl⟩ | ⟨hneeds, caCert, new, hroot, hsigned, hnew⟩ :=
    reconcilePolicyServerCertSecret_cases h
  · cases hserver : s.servers.lookup name with
    | some live =>
      have hlive : s.server name = live := by
        unfold TrustState.server
        rw [hserver]
        rfl
      exact hs.of_lookup hserver (hlive ▸ hcert)
    | none =>
      have hempty : s.server name = ⟨none, ⟨∅⟩⟩ := by
        unfold TrustState.server
        rw [hserver]
        rfl
      rw [hempty] at hneeds
      cases hneeds
  · obtain rfl : new = cert := some.inj (hnew.symm.trans hcert)
    obtain ⟨hknown, htrusted⟩ := hmay hneeds caCert hroot
    refine ⟨⟨caCert, hsigned, hknown⟩, fun id webhook hwebhook hservice => ?_⟩
    exact ⟨caCert, hsigned, htrusted id webhook hwebhook hservice⟩

theorem Good.writeWebhook {id : WebhookId} {service : String} (hs : Good x s)
    (hmay : MayWrite s id service caSecret) :
    Good x (s.putWebhook id service (caBundleForWebhook
      ((s.webhooks.lookup id).elim [] WebhookEntry.caBundle) caSecret)) := by
  refine hs.putWebhook ?_
  unfold MayWrite at hmay
  split at hmay
  · next webhook hwebhook =>
    obtain ⟨hservice, hempty⟩ := hmay
    rw [hwebhook]
    by_cases hlive : webhook.caBundle = []
    · refine .inl ?_
      show caBundleForWebhook webhook.caBundle caSecret = _
      rw [hlive]
      exact hempty hlive
    · exact .inr ⟨webhook, rfl, hservice, (if_pos (List.length_pos_iff.2 hlive)).symm⟩
  · next hnone =>
    rw [hnone]
    exact .inl hmay

theorem Good.passStep (hs : Good x s) (h : s.pass = some ⟨secret, stage⟩) : secret = s.caRoot
    ∧ stage.Patched s.webhooks (caBundleFromSecret s.caRoot) :=
  hs.pass _ h

theorem good_init {caRoot : Secret} : Good x (.init caRoot) where
  knows _ _ _ h := nomatch h
  trusted _ _ _ _ h := nomatch h
  pass _ h := nomatch h

/-! ## The stages of a pass -/

theorem Good.reconcileCARoot {generated : Except String (Pem × Pem)} (hs : Good x s)
    (h : trustStep x deploymentsNamespace s (.reconcileCARoot now generated) = some s')
    (hca : s'.caRoot = s.caRoot ∨ UpToDate x s) :
    Good x s' := by
  dsimp only [trustStep] at h
  split at h
  · next secret hpass =>
    obtain ⟨rfl, -⟩ := hs.passStep hpass
    split at h
    · cases h
      exact hs.goOn trivial
    · next rotation hrotation =>
      cases h
      refine hs.updateCARoot hca (fun caCert hroot => .inr ?_) fun _ _ => trivial
      rw [oldRootCert_mutate, ← oldCACert_of_reconcileCARoot x hrotation]
      exact hroot
    · cases h
      exact hs.endPass
  · cases h

theorem Good.reconcileOldCARoot (hs : Good x s)
    (h : trustStep x deploymentsNamespace s (.reconcileOldCARoot now) = some s')
    (hca : s'.caRoot = s.caRoot ∨ UpToDate x s) : Good x s' := by
  dsimp only [trustStep] at h
  split at h
  · next secret hpass =>
    obtain ⟨rfl, -⟩ := hs.passStep hpass
    split at h
    · cases h
      refine hs.updateCARoot hca (fun caCert hroot => .inl ?_) fun _ _ => trivial
      rw [rootCert_deleteOldCARoot]
      exact hroot
    · cases h
      exact hs.goOn trivial
  · cases h

theorem Good.listWebhooks (hs : Good x s)
    (h : trustStep x deploymentsNamespace s .listWebhooks = some s') :
    Good x s' := by
  dsimp only [trustStep] at h
  split at h
  · next secret hpass =>
    obtain ⟨rfl, -⟩ := hs.passStep hpass
    cases h
    refine hs.goOn fun id webhook hwebhook => .inr ⟨webhook, ?_, rfl⟩
    have hmem := mem_lookup_iff.1 hwebhook
    exact List.mem_map.2 ⟨⟨id, webhook⟩, hmem, rfl⟩
  · cases h

theorem Good.injectCABundle (hs : Good x s)
    (h : trustStep x deploymentsNamespace s .injectCABundle = some s') :
    Good x s' := by
  dsimp only [trustStep] at h
  split at h
  · next secret id copy todo hpass =>
    obtain ⟨rfl, hpatched⟩ := hs.passStep hpass
    split at h
    · next hdone =>
      cases h
      refine hs.goOn (patched_tail hpatched fun webhook _ hcopy => ?_)
      exact hcopy.symm.trans hdone
    · split at h
      · next hnone =>
        cases h
        refine hs.goOn (patched_tail hpatched fun webhook hwebhook _ => ?_)
        exact nomatch hnone.symm.trans hwebhook
      · next live hlive =>
        split at h
        · cases h
          have hgood : Good x (s.putWebhook id live.service
            (caBundleFromSecret s.caRoot)) := hs.putWebhook (.inl rfl)
          refine hgood.goOn (patched_tail (hgood.passStep hpass).2 fun webhook hwebhook _ => ?_)
          obtain ⟨-, rfl⟩ | ⟨hne, -⟩ := lookup_insert_eq_some_iff.1 hwebhook
          · rfl
          · exact absurd rfl hne
        · cases h
          exact hs.endPass
  · cases h

theorem Good.listServers (hs : Good x s)
    (h : trustStep x deploymentsNamespace s .listServers = some s') :
    Good x s' := by
  dsimp only [trustStep] at h
  split at h
  · next secret hpass =>
    obtain ⟨rfl, hpatched⟩ := hs.passStep hpass
    cases h
    refine hs.goOn fun id webhook hwebhook => ?_
    refine (hpatched id webhook hwebhook).resolve_right ?_
    rintro ⟨copy, hcopy, -⟩
    cases hcopy
  · cases h

theorem Good.reconcileServerCert (hs : Good x s)
    (h : trustStep x deploymentsNamespace s (.reconcileServerCert now seed) = some s') :
    Good x s' := by
  dsimp only [trustStep] at h
  split at h
  · next secret name copy todo hpass =>
    obtain ⟨rfl, hpatched⟩ := hs.passStep hpass
    have hgood : Good x (s.goOn s.caRoot (.signing todo)) := hs.goOn hpatched
    split at h
    · next cert key live hsign hlive =>
      cases h
      refine hgood.putServer fun cert' hcert => ?_
      rw [cert_withServerCert] at hcert
      cases hcert
      obtain ⟨caCert, hsigned, hroot⟩ := signedBy_of_reconcileServerCert hsign
      have hknows : x.Knows s.caRoot cert := ⟨caCert, hsigned, .inl hroot⟩
      refine ⟨hknows, fun id webhook hwebhook _ => ?_⟩
      rw [hpatched id webhook hwebhook]
      exact hknows.trusts
    · cases h
      exact hgood
  · cases h

/-! ## All steps -/

theorem Good.step {a : TrustAction} (hs : Good x s) (hcareful : Careful x deploymentsNamespace s a)
    (h : trustStep x deploymentsNamespace s a = some s') : Good x s' := by
  cases a with
  | startPass =>
    dsimp only [trustStep] at h
    split at h
    · cases h
      exact hs.goOn trivial
    · cases h
  | reconcileCARoot now generated => exact hs.reconcileCARoot h (hcareful s' h)
  | reconcileOldCARoot now => exact hs.reconcileOldCARoot h (hcareful s' h)
  | listWebhooks => exact hs.listWebhooks h
  | injectCABundle => exact hs.injectCABundle h
  | listServers => exact hs.listServers h
  | reconcileServerCert now seed => exact hs.reconcileServerCert h
  | endPass =>
    dsimp only [trustStep] at h
    split at h
    · cases h
      exact hs.endPass
    · cases h
  | readForServer name =>
    cases h
    exact hs.withReads _ _
  | writeServer read now seed =>
    dsimp only [trustStep] at h
    split at h
    · next name caSecret hread =>
      have hgood := hs.withReads (s.serverReads.eraseIdx read) s.webhookReads
      split at h
      · next server hserver =>
        cases h
        exact hgood.writeServer (hcareful name caSecret hread) hserver
      · cases h
        exact hgood
    · cases h
  | readForWebhook id service =>
    cases h
    exact hs.withReads _ _
  | writeWebhook read =>
    dsimp only [trustStep] at h
    split at h
    · next id service caSecret hread =>
      cases h
      have hgood := hs.withReads s.serverReads (s.webhookReads.eraseIdx read)
      exact hgood.writeWebhook (hcareful id service caSecret hread)
    · cases h
  | deleteWebhook id =>
    cases h
    exact hs.deleteWebhook id
  | stripServer name keepCert keepKey keepFormat =>
    dsimp only [trustStep] at h
    split at h
    · next server hserver =>
      cases h
      exact hs.putServer fun cert hcert =>
        hs.of_lookup hserver (cert_of_strip hcert)
    · cases h

/-- **All certificates are trusted, in every run of careful steps.** -/
theorem certificates_trusted {caRoot : Secret} {actions : List TrustAction}
    (hcareful : StepSystem.Along (trustStep x deploymentsNamespace)
      (Careful x deploymentsNamespace) (.init caRoot) actions)
    (hrun : run (trustStep x deploymentsNamespace) (.init caRoot)
      actions = some s) : Trusted x s := by
  have hs : Good x s :=
    run_induction _ (I := Good x)
      (fun _ _ _ hs hcareful => hs.step hcareful) good_init hcareful hrun
  exact hs.trusted

end

/-! ## Runs -/

/-- A webhook and a server are set up, and a pass goes over both. -/
def sampleSetup : List TrustAction :=
  [.readForWebhook (false, "clusterwide-p") "policy-server-default",
    .writeWebhook 0, .readForServer "policy-server-default", .writeServer 0 0 0,
    .startPass, .reconcileCARoot 0 (.error "not needed"), .reconcileOldCARoot 0, .listWebhooks,
    .injectCABundle, .listServers, .reconcileServerCert 0 0, .endPass]

theorem careful_sampleSetup : StepSystem.Along (trustStep sampleX509 "kubewarden")
    (Careful sampleX509 "kubewarden") (.init (sampleCARoot 1))
    sampleSetup := by
  refine ⟨fun s' h => ?_, fun s h => ?_⟩
  · cases h
    exact .inl rfl
  cases h
  refine ⟨fun id service caSecret h => ?_, fun s h => ?_⟩
  · cases h
    exact rfl
  cases h
  refine ⟨fun s' h => ?_, fun s h => ?_⟩
  · cases h
    exact .inl rfl
  cases h
  refine ⟨fun name caSecret h _ caCert hroot => ?_, fun s h => ?_⟩
  · cases h
    refine ⟨.inl hroot, fun id webhook hwebhook _ => ?_⟩
    obtain ⟨-, rfl⟩ | ⟨-, hwebhook⟩ := lookup_insert_eq_some_iff.1 hwebhook
    · exact infix_caBundleFromSecret hroot
    · cases hwebhook
  cases h
  -- the pass finds nothing to do: no step of it changes the CA
  iterate 8
    refine ⟨fun s' h => ?_, fun s h => ?_⟩
    · cases h
      exact .inl rfl
    cases h
  trivial

theorem run_sampleSetup : (run (trustStep sampleX509 "kubewarden")
    (.init (sampleCARoot 1)) sampleSetup).isSome = true := by
  decide +kernel

theorem certificates_trusted_after_setup : ∃ s,
    run (trustStep sampleX509 "kubewarden") (.init (sampleCARoot 1)) sampleSetup = some s
      ∧ (s.server "policy-server-default").cert = some [51]
      ∧ Trusted sampleX509 s := by
  have hrun := (some_get run_sampleSetup).symm
  exact ⟨_, hrun, by decide +kernel, certificates_trusted careful_sampleSetup hrun⟩

def sampleRace : List TrustAction :=
  [.readForServer "policy-server-default", .writeServer 0 0 0,
    .readForWebhook (false, "clusterwide-p") "policy-server-default",
    .writeWebhook 0, .stripServer "policy-server-default" true true false,
    .startPass, .reconcileCARoot 5000000 (.ok ([2], [102])),
    .readForServer "policy-server-default", .writeServer 0 5000000 1]

theorem run_sampleRace : (run (trustStep sampleX509 "kubewarden")
    (.init (sampleCARoot 1)) sampleRace).isSome = true := by
  decide +kernel

/-- **A certificate that is not trusted**: by the new CA, for the old bundle. -/
theorem untrusted_certificate : ∃ s,
    run (trustStep sampleX509 "kubewarden") (.init (sampleCARoot 1))
      sampleRace = some s ∧ ¬ Trusted sampleX509 s := by
  refine ⟨_, (some_get run_sampleRace).symm, fun htrusted => ?_⟩
  have hwebhook : ((get _ run_sampleRace).webhooks.lookup
    (false, "clusterwide-p")).map (fun w => (w.service, w.caBundle))
      = some ("policy-server-default", [1]) := by decide +kernel
  have hserver : ((get _ run_sampleRace).servers.lookup
      "policy-server-default").map ServerEntry.cert = some (some [52]) := by
    decide +kernel
  obtain ⟨webhook, hwebhook, heq⟩ := map_eq_some_iff.1 hwebhook
  obtain ⟨server, hserver, hcert⟩ := map_eq_some_iff.1 hserver
  obtain ⟨hservice, hbundle⟩ := Prod.mk.inj heq
  obtain ⟨caCert, ⟨ca, hca, hsigner⟩, hin⟩ :=
    htrusted _ webhook server [52] hwebhook (hservice ▸ hserver) hcert
  rw [hbundle] at hin
  -- the only CA of the bundle is the first one
  cases caCert with
  | nil => cases hca
  | cons b rest =>
    obtain rfl : b = ca := Except.ok.inj hca
    have hb : b = 1 := List.mem_singleton.1 (hin.subset List.mem_cons_self)
    rw [hb] at hsigner
    revert hsigner
    decide

end CertReconciler
