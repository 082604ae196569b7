import HybridPqc.X509.ChainCorrect

/-!
# Adapter.Callback

`tlcp_hybrid_cert_adapter.c`: the three-state verdict on one signing certificate and the callback
that patched GmSSL runs on a whole Certificate message.

A `(pointer, length)` input is a `CArg`; the caller's 65-byte key buffer is an `Option Bytes`
(`none` is `NULL`) and every function returns its new contents. `now` is the current time.
-/

namespace HybridPqc

inductive TlcpHybridCertResult where
  | invalid
  | notApplicable
  | valid
  deriving DecidableEq, Repr

/-- The integer values of the enumeration. -/
def TlcpHybridCertResult.toInt : TlcpHybridCertResult → Int
  | .invalid => -1
  | .notApplicable => 0
  | .valid => 1

structure TlcpHybridCertVerifyReport where
  recognizedComposite : Bool := false
  oidOk : Bool := false
  pqcMarkerOk : Bool := false
  issuerSubjectOk : Bool := false
  validityOk : Bool := false
  constraintsOk : Bool := false
  keyUsageOk : Bool := false
  hostnameOk : Bool := false
  dilithiumOk : Bool := false
  sm2Ok : Bool := false
  compositeOk : Bool := false
  encryptionSubjectSpkiSm2Ok : Bool := false
  encryptionOidOk : Bool := false
  encryptionPqcMarkerOk : Bool := false
  encryptionDilithiumOk : Bool := false
  encryptionSm2Ok : Bool := false
  encryptionCompositeOk : Bool := false
  encryptionCertificateOk : Bool := false
  tlcpDualIdentityOk : Bool := false
  tlcpDualCertificateOk : Bool := false
  chain : HybridChainVerifyResult := {}
  encryption : HybridCertVerifyResult := {}
  deriving DecidableEq, Repr

/-- `lastReport` says whether the `last_report` pointer is set. -/
structure TlcpHybridCertAdapterConfig where
  trustAnchorDer : CArg
  expectedHostname : Option CString
  lastReport : Bool

/-- What `tlcp_hybrid_cert_verify_der` leaves behind. -/
structure VerifyDerOutcome where
  result : TlcpHybridCertResult
  sm2PublicKey : Option Bytes
  report : TlcpHybridCertVerifyReport

/-- What the callback leaves behind; `lastReport` is what it stored through the configuration. -/
structure CallbackOutcome where
  result : TlcpHybridCertResult
  sm2PublicKey : Option Bytes
  lastReport : Option TlcpHybridCertVerifyReport

/-- `composite_oid_der`: the OBJECT IDENTIFIER element of the Composite algorithm. -/
def compositeOidDer : Bytes :=
  [0x06, 0x0a, 0x2b, 0x06, 0x01, 0x04, 0x01, 0x81, 0xfd, 0x59, 0x01, 0x01]

example : compositeOidDer = 0x06 :: 0x0a :: compositeSm2DilithiumExperimentalOid := by decide

def containsCompositeOid : CArg → Bool
  | .null _ => false
  | .buf der =>
    if der.length < compositeOidDer.length then false
    else (List.range (der.length - compositeOidDer.length + 1)).any fun i =>
      Bytes.slice der i compositeOidDer.length == compositeOidDer

def certificateMentionsComposite (certificate : X509) : Bool :=
  certificate.signatureAlgorithm.algorithm == compositeSm2DilithiumExperimentalOid ||
    certificate.tbsCertificate.signature.algorithm == compositeSm2DilithiumExperimentalOid

section

variable {PKey : Type} (E : Openssl PKey) (now : Int)

def decodeDerStrict : CArg → Option X509
  | .null _ => none
  | .buf der =>
    if der.length = 0 ∨ longMax < der.length then none
    else match E.d2iX509 der with
      | none => none
      | some (certificate, n) => if n = der.length then some certificate else none

/-- `decode_next_certificate(&cursor, &remaining)`: the certificate, the bytes it was read from and
the bytes after them. On `none` cursor and remaining length are unchanged. -/
def decodeNextCertificate : CArg → Option (X509 × Bytes × Bytes)
  | .null _ => none
  | .buf der =>
    if der.length = 0 ∨ longMax < der.length then none
    else match E.d2iX509 der with
      | none => none
      | some (certificate, n) =>
        if n = 0 ∨ der.length < n then none
        else some (certificate, der.take n, der.drop n)

/-- `tlcp_hybrid_cert_get_sm2_sign_public_key(cert_der, output)` -/
def tlcpHybridCertGetSm2SignPublicKey (certDer : CArg) (output : Bytes) : Bool × Bytes :=
  match decodeDerStrict E certDer with
  | none => (false, output)
  | some certificate =>
    if hybridX509CompositeAlgorithmsValid certificate then
      match hybridX509GetCompositePublicKey E certificate with
      | none => (false, output)
      | some publicKey => compositeGetSm2PublicKeyOctets E.toCrypto publicKey output
    else (false, output)

/-- `expected_hostname == NULL || expected_hostname[0] == '\0' || X509_check_host(…) == 1` -/
def hostnameOk (certificate : X509) (expectedHostname : Option CString) : Bool :=
  match expectedHostname with
  | none => true
  | some h => h.val == [] || E.checkHost certificate h.val == 1

def tlcpHybridCertVerifyDer (signingCertDer trustAnchorDer : CArg)
    (expectedHostname : Option CString) (sm2PublicKey : Option Bytes) : VerifyDerOutcome :=
  let sm2PublicKey := sm2PublicKey.map fun _ => Bytes.zeros sm2UncompressedPublicKeyBytes
  match decodeDerStrict E signingCertDer with
  | none =>
    let recognized := containsCompositeOid signingCertDer
    { result := if recognized then .invalid else .notApplicable
      sm2PublicKey
      report := { recognizedComposite := recognized } }
  | some signing =>
    if certificateMentionsComposite signing then
      let chain :=
        match decodeDerStrict E trustAnchorDer with
        | none => {}
        | some root => hybridVerifyChain E now (some root) (some signing)
      let report : TlcpHybridCertVerifyReport := {
        recognizedComposite := true
        oidOk := hybridX509CompositeAlgorithmsValid signing
        pqcMarkerOk := hybridX509HasPqcExtension signing
        chain
        issuerSubjectOk := chain.server.issuerSubjectLinkValid
        validityOk := chain.root.validityValid && chain.server.validityValid
        constraintsOk :=
          chain.server.issuerCaConstraintsValid && chain.server.subjectConstraintsValid
        keyUsageOk := chain.server.subjectConstraintsValid
        dilithiumOk := chain.server.dilithiumValid
        sm2Ok := chain.server.sm2Valid
        compositeOk := chain.server.compositeValid
        hostnameOk := hostnameOk E signing expectedHostname }
      -- the key is taken out only when every earlier operand of the `||` chain was false
      if !report.oidOk || !report.pqcMarkerOk || !chain.chainValid || !report.hostnameOk then
        { result := .invalid, sm2PublicKey, report }
      else match sm2PublicKey with
        | none => { result := .invalid, sm2PublicKey := none, report }
        | some output =>
          match tlcpHybridCertGetSm2SignPublicKey E signingCertDer output with
          | (true, output) => { result := .valid, sm2PublicKey := some output, report }
          | (false, output) => { result := .invalid, sm2PublicKey := some output, report }
    else
      { result := .notApplicable, sm2PublicKey, report := {} }

/-- `local.tlcp_dual_identity_ok` -/
def dualIdentityOk (signing encryption : Option X509) : Bool :=
  match signing, encryption with
  | some signing, some encryption =>
    E.x509NameCmp signing.tbsCertificate.subject encryption.tbsCertificate.subject == 0 &&
      E.x509NameCmp signing.tbsCertificate.issuer encryption.tbsCertificate.issuer == 0
  | _, _ => false

/-- The callback once the signing certificate has its verdict `out`. -/
def finishCallback (config : TlcpHybridCertAdapterConfig) (signing encryption : Option X509)
    (out : VerifyDerOutcome) : CallbackOutcome :=
  let stored (r : TlcpHybridCertVerifyReport) := if config.lastReport then some r else none
  if out.result = .valid then
    let root := decodeDerStrict E config.trustAnchorDer
    let enc := hybridVerifyEncryptionCertificate E now encryption root
    let identityOk := dualIdentityOk E signing encryption
    let dualOk := out.report.compositeOk && enc.certificateValid && identityOk
    let report := { out.report with
      encryption := enc
      encryptionCertificateOk := enc.certificateValid
      encryptionSubjectSpkiSm2Ok := enc.subjectPublicKeySm2
      encryptionOidOk := enc.compositeOidsValid
      encryptionPqcMarkerOk := enc.pqcExtensionPresent
      encryptionDilithiumOk := enc.dilithiumValid
      encryptionSm2Ok := enc.sm2Valid
      encryptionCompositeOk := enc.compositeValid
      tlcpDualIdentityOk := identityOk
      tlcpDualCertificateOk := dualOk }
    { result := if dualOk then .valid else .invalid
      sm2PublicKey := out.sm2PublicKey
      lastReport := stored report }
  else
    { result := out.result, sm2PublicKey := out.sm2PublicKey, lastReport := stored out.report }

def tlcpHybridCertGmsslVerifyCallback (certChainDer : CArg) (sm2PublicKey : Option Bytes)
    (arg : Option TlcpHybridCertAdapterConfig) : CallbackOutcome :=
  match arg with
  | none => { result := .invalid, sm2PublicKey, lastReport := none }
  | some config =>
    match decodeNextCertificate E certChainDer with
    | some (signing, signingDer, rest) =>
      let encryption := decodeNextCertificate E (.buf rest)
      finishCallback E now config (some signing) (encryption.map (·.1))
        (tlcpHybridCertVerifyDer E now (.buf signingDer) config.trustAnchorDer
          config.expectedHostname sm2PublicKey)
    | none =>
      -- the cursor stays where it was, `signing_der_len` is 0
      let encryption := decodeNextCertificate E certChainDer
      let signingDer : CArg :=
        match certChainDer with
        | .null _ => .null 0
        | .buf _ => .buf []
      finishCallback E now config none (encryption.map (·.1))
        (tlcpHybridCertVerifyDer E now signingDer config.trustAnchorDer config.expectedHostname
          sm2PublicKey)

end

/-! ## Decoding -/

section

variable {PKey : Type} {E : Openssl PKey}

theorem decodeNextCertificate_some {der a r : Bytes} {c : X509}
    (h : decodeNextCertificate E (.buf der) = some (c, a, r)) :
    der = a ++ r ∧ 0 < der.length ∧ der.length ≤ longMax ∧
      E.d2iX509 der = some (c, a.length) := by
  simp only [decodeNextCertificate] at h
  split at h
  · cases h
  rename_i hl
  split at h
  · cases h
  rename_i c' n hd
  split at h
  · cases h
  rename_i hn
  cases h
  refine ⟨by simp, by omega, by omega, ?_⟩
  rw [List.length_take, Nat.min_eq_left (by omega)]
  exact hd

theorem decodeDerStrict_some {der : Bytes} {c : X509} :
    decodeDerStrict E (.buf der) = some c ↔
      0 < der.length ∧ der.length ≤ longMax ∧ E.d2iX509 der = some (c, der.length) := by
  simp only [decodeDerStrict]
  split
  · rename_i hl
    simp only [reduceCtorEq, false_iff]
    rintro ⟨h1, h2, _⟩
    omega
  · rename_i hl
    cases hd : E.d2iX509 der with
    | none => simp
    | some p =>
      obtain ⟨c', n⟩ := p
      by_cases hn : n = der.length
      · subst hn
        simp only [if_true, Option.some.injEq, Prod.mk.injEq, and_true]
        constructor
        · intro h; exact ⟨by omega, by omega, h⟩
        · exact fun h => h.2.2
      · simp [hn]

/-- The bytes of a certificate at the front of a chain decode to the same certificate on their
own. -/
theorem decodeDerStrict_of_next {der : CArg} {a r : Bytes} {c : X509}
    (h : decodeNextCertificate E der = some (c, a, r)) :
    decodeDerStrict E (.buf a) = some c := by
  cases der with
  | null n => cases h
  | buf der =>
  obtain ⟨rfl, _, hmax, hd⟩ := decodeNextCertificate_some h
  obtain ⟨hpos, _⟩ := E.d2iX509_pos hd
  have hloc := E.d2iX509_local hd []
  rw [List.take_left, List.append_nil] at hloc
  rw [List.length_append] at hmax
  exact decodeDerStrict_some.mpr ⟨hpos, by omega, hloc⟩

/-- On a chain that starts with a complete element, the first certificate decodes exactly when the
element does and the chain is not too long for a `long`; then the certificate is that element. -/
theorem decodeNextCertificate_tlv {e r : Bytes} (he : Ber.IsTlv 0x30 e) :
    decodeNextCertificate E (.buf (e ++ r)) =
      if (e ++ r).length ≤ longMax then
        (decodeDerStrict E (.buf e)).map fun c => (c, e, r)
      else none := by
  split
  · rename_i hl
    rw [List.length_append] at hl
    cases hd : decodeDerStrict E (.buf e) with
    | some c =>
      obtain ⟨hpos, _, hd⟩ := decodeDerStrict_some.mp hd
      have hloc := E.d2iX509_local hd r
      rw [List.take_length] at hloc
      simp only [decodeNextCertificate, hloc, Option.map_some]
      rw [if_neg (by rw [List.length_append]; omega), if_neg (by rw [List.length_append]; omega)]
      simp
    | none =>
      rw [Option.map_none]
      cases hn : decodeNextCertificate E (.buf (e ++ r)) with
      | none => rfl
      | some p =>
        obtain ⟨c, a, s⟩ := p
        obtain ⟨heq, hpos, _, hd2⟩ := decodeNextCertificate_some hn
        have hlen := E.d2iX509_tlv he hd2
        obtain ⟨rfl, rfl⟩ := List.append_inj heq hlen.symm
        have := decodeDerStrict_of_next hn
        rw [hd] at this; cases this
  · rename_i hl
    simp only [decodeNextCertificate]
    rw [if_pos (Or.inr (by omega))]

end

end HybridPqc
