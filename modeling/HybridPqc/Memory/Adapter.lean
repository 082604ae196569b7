import HybridPqc.Adapter.Release
import HybridPqc.Memory.IssueCorrect
import HybridPqc.Memory.VerifyCorrect

/-!
# Memory.Adapter

`tlcp_hybrid_cert_adapter.c` with the memory it asks for.

The 65-byte key buffer, the report and the configuration are the caller's. A request that fails can
turn any verdict into `INVALID` or `NOT_APPLICABLE`, but nothing into `VALID`
(`callback_fails_closed`).
-/

namespace HybridPqc

namespace Memory

open Refs
open Refs.Act

section

variable {plan : Nat → Bool} {PKey : Type}

def serializeSm2PublicKey (C : Crypto PKey) (key : Option PKey) (output : Bytes) :
    Act plan (Bool × Bytes) :=
  match key with
  | none => return (false, output)
  | some k =>
    if C.isSm2 k then do
      match ← call (C.getPubKey k) with
      | none => return (false, output)
      | some o =>
        let output := output.write 0 o
        return (o.length == sm2UncompressedPublicKeyBytes && output.head? == some 0x04, output)
    else return (false, output)

variable (E : Openssl PKey) (now : Int)

def decodeDerStrict : CArg → Act plan (Option (Obj X509))
  | .null _ => return none
  | .buf der =>
    if der.length = 0 ∨ longMax < der.length then return none
    else d2iWhole E der

/-- `decode_next_certificate(&cursor, &remaining)`: the certificate, with the bytes it was read from
and the bytes after them. -/
def decodeNextCertificate : CArg → Act plan (Option (Obj (X509 × Bytes × Bytes)))
  | .null _ => return none
  | .buf der =>
    if der.length = 0 ∨ longMax < der.length then return none
    else do
      match ← make (E.d2iX509 der) with
      | none => return none
      | some certificate =>
        let n := certificate.val.2
        if n = 0 ∨ der.length < n then
          freeObj certificate
          return none
        else return some ⟨certificate.handles, certificate.val.1, der.take n, der.drop n⟩

def certificateMentionsComposite (certificate : Obj X509) : Act plan Bool := do
  touch certificate
  match ← objTxt2obj compositeSm2DilithiumExperimentalOid with
  | none => return false
  | some composite =>
    let recognized := certificate.val.signatureAlgorithm.algorithm == composite.val ||
      certificate.val.tbsCertificate.signature.algorithm == composite.val
    freeObj composite
    return recognized

/-- The key of a certificate that was decoded, copied to `output`. -/
def exportSm2SignPublicKey (certificate : Obj X509) (output : Bytes) : Act plan (Bool × Bytes) := do
  touch certificate
  if hybridX509CompositeAlgorithmsValid certificate.val then
    match ← hybridX509GetCompositePublicKey E certificate with
    | none => return (false, output)
    | some publicKey =>
      touch publicKey
      let exported ← serializeSm2PublicKey E.toCrypto publicKey.val.sm2PublicKey output
      freeObj publicKey
      return exported
  else return (false, output)

def tlcpHybridCertGetSm2SignPublicKey (certDer : CArg) (output : Bytes) :
    Act plan (Bool × Bytes) := do
  match ← decodeDerStrict E certDer with
  | none => return (false, output)
  | some certificate =>
    let exported ← exportSm2SignPublicKey E certificate output
    freeObj certificate
    return exported

def hostnameOk (certificate : Obj X509) (expectedHostname : Option CString) : Act plan Bool :=
  match expectedHostname with
  | none => return true
  | some h =>
    if h.val = [] then return true
    else do
      touch certificate
      test (E.checkHost certificate.val h.val == 1)

/-- The chain under the trust anchor, all zero when the anchor does not decode. -/
def verifyUnderAnchor (signing : Obj X509) (root : Option (Obj X509)) :
    Act plan HybridChainVerifyResult :=
  match root with
  | none => return {}
  | some root => hybridVerifyChain E now (some root) (some signing)

/-- What `tlcp_hybrid_cert_verify_der` finds out about a certificate it recognised, before it takes
out the key; the trust anchor is still held. -/
def verifyReport (signing : Obj X509) (trustAnchorDer : CArg)
    (expectedHostname : Option CString) :
    Act plan (Option (Obj X509) × TlcpHybridCertVerifyReport) := do
  touch signing
  let pqcMarkerOk ← hybridX509HasPqcExtension signing
  let root ← decodeDerStrict E trustAnchorDer
  let chain ← verifyUnderAnchor E now signing root
  let hostnameOk ← hostnameOk E signing expectedHostname
  return (root, {
    recognizedComposite := true
    oidOk := hybridX509CompositeAlgorithmsValid signing.val
    pqcMarkerOk
    chain
    issuerSubjectOk := chain.server.issuerSubjectLinkValid
    validityOk := chain.root.validityValid && chain.server.validityValid
    constraintsOk := chain.server.issuerCaConstraintsValid && chain.server.subjectConstraintsValid
    keyUsageOk := chain.server.subjectConstraintsValid
    dilithiumOk := chain.server.dilithiumValid
    sm2Ok := chain.server.sm2Valid
    compositeOk := chain.server.compositeValid
    hostnameOk })

/-- The key, when every check has passed and there is a buffer for it. -/
def releaseKey (signingCertDer : CArg) (sm2PublicKey : Option Bytes)
    (report : TlcpHybridCertVerifyReport) : Act plan (Bool × Option Bytes) :=
  if !report.oidOk || !report.pqcMarkerOk || !report.chain.chainValid || !report.hostnameOk then
    return (false, sm2PublicKey)
  else
    match sm2PublicKey with
    | none => return (false, none)
    | some output => do
      let (ok, output) ← tlcpHybridCertGetSm2SignPublicKey E signingCertDer output
      return (ok, some output)

def tlcpHybridCertVerifyDer (signingCertDer trustAnchorDer : CArg)
    (expectedHostname : Option CString) (sm2PublicKey : Option Bytes) :
    Act plan VerifyDerOutcome := do
  let sm2PublicKey := sm2PublicKey.map fun _ => Bytes.zeros sm2UncompressedPublicKeyBytes
  match ← decodeDerStrict E signingCertDer with
  | none =>
    let recognized := containsCompositeOid signingCertDer
    return {
      result := if recognized then .invalid else .notApplicable
      sm2PublicKey
      report := { recognizedComposite := recognized } }
  | some signing =>
    if ← certificateMentionsComposite signing then
      let (root, report) ← verifyReport E now signing trustAnchorDer expectedHostname
      let (ok, sm2PublicKey) ← releaseKey E signingCertDer sm2PublicKey report
      free root
      freeObj signing
      return { result := if ok then .valid else .invalid, sm2PublicKey, report }
    else
      freeObj signing
      return { result := .notApplicable, sm2PublicKey, report := {} }

/-! ## The callback -/

/-- The certificate of one that was read from a chain. -/
def certificateAt (p : Obj (X509 × Bytes × Bytes)) : Obj X509 := ⟨p.handles, p.val.1⟩

/-- Where the cursor stands after the first certificate. -/
def afterSigning (certChainDer : CArg) : Option (Obj (X509 × Bytes × Bytes)) → CArg
  | none => certChainDer
  | some signing => .buf signing.val.2.2

/-- `(signing_der, signing_der_len)` -/
def signingDer (certChainDer : CArg) : Option (Obj (X509 × Bytes × Bytes)) → CArg
  | none =>
    match certChainDer with
    | .null _ => .null 0
    | .buf _ => .buf []
  | some signing => .buf signing.val.2.1

def dualIdentityOk (signing encryption : Option (Obj X509)) : Act plan Bool :=
  match signing, encryption with
  | some signing, some encryption => do
    touch signing
    touch encryption
    return HybridPqc.dualIdentityOk E (some signing.val) (some encryption.val)
  | _, _ => return false

/-- The callback once the signing certificate has its verdict `out`; it may have decoded the trust
anchor again. -/
def finishCallback (config : TlcpHybridCertAdapterConfig) (signing encryption : Option (Obj X509))
    (out : VerifyDerOutcome) : Act plan (Option (Obj X509) × CallbackOutcome) :=
  let stored (r : TlcpHybridCertVerifyReport) := if config.lastReport then some r else none
  if out.result = .valid then do
    let root ← decodeDerStrict E config.trustAnchorDer
    let enc ← hybridVerifyEncryptionCertificate E now encryption root
    let identityOk ← dualIdentityOk E signing encryption
    let dualOk := out.report.compositeOk && enc.certificateValid && identityOk
    let report := { out.report with
      encryption := enc
      encryptionCertificateOk := enc.certificateValid
      encryptionSubjectSpkiSm2Ok := enc.subjectPublicKeySm2
      encryptionOidOk := enc.compositeOidsValid
      encryptionPqcMarkerOk := enc.pqcExtensionPresent
      encryptionDilithiumOk := enc.dilithiumValid
      encryptionSm2Ok := enc.sm2Valid
      encryptionCompositeOk := enc.compositeValid
      tlcpDualIdentityOk := identityOk
      tlcpDualCertificateOk := dualOk }
    return (root, {
      result := if dualOk then .valid else .invalid
      sm2PublicKey := out.sm2PublicKey
      lastReport := stored report })
  else
    return (none, {
      result := out.result
      sm2PublicKey := out.sm2PublicKey
      lastReport := stored out.report })

def tlcpHybridCertGmsslVerifyCallback (certChainDer : CArg) (sm2PublicKey : Option Bytes)
    (arg : Option TlcpHybridCertAdapterConfig) : Act plan CallbackOutcome :=
  match arg with
  | none => return { result := .invalid, sm2PublicKey, lastReport := none }
  | some config => do
    let signing ← decodeNextCertificate E certChainDer
    let encryption ← decodeNextCertificate E (afterSigning certChainDer signing)
    let out ← tlcpHybridCertVerifyDer E now (signingDer certChainDer signing)
      config.trustAnchorDer config.expectedHostname sm2PublicKey
    let (root, outcome) ← finishCallback E now config (signing.map certificateAt)
      (encryption.map certificateAt) out
    free encryption
    free signing
    free root
    return outcome

end

/-! ## Decoding -/

section

variable {plan : Nat → Bool} {B : Multiset Nat} {PKey : Type} (E : Openssl PKey) (now : Int)

theorem decodeDerStrict_spec (der : CArg) :
    Spec plan 0 (decodeDerStrict E der) (Yields plan (HybridPqc.decodeDerStrict E der)) := by
  cases der with
  | null n => exact .ret (.null (Or.inl rfl))
  | buf der =>
    have hval : HybridPqc.decodeDerStrict E (.buf der) =
        if der.length = 0 ∨ longMax < der.length then none else wholeCertificate E der := by
      simp only [HybridPqc.decodeDerStrict, wholeCertificate]
      congr 1
      cases E.d2iX509 der with
      | none => rfl
      | some r => rfl
    rw [hval]
    simp only [decodeDerStrict]
    split
    · exact .ret (.null (Or.inl rfl))
    · exact d2iWhole_spec E der

theorem decodeNextCertificate_spec (der : CArg) :
    Spec plan 0 (decodeNextCertificate E der)
      (Yields plan (HybridPqc.decodeNextCertificate E der)) := by
  cases der with
  | null n => exact .ret (.null (Or.inl rfl))
  | buf der =>
    simp only [decodeNextCertificate, HybridPqc.decodeNextCertificate]
    by_cases hl : der.length = 0 ∨ longMax < der.length
    · rw [if_pos hl, if_pos hl]
      exact .ret (.null (Or.inl rfl))
    rw [if_neg hl, if_neg hl]
    refine (make_spec (E.d2iX509 der)).bind ?_
    rintro _ _ (⟨certificate, h⟩ | ⟨h⟩)
    · rw [h]
      dsimp only
      split
      · refine (freeObj_spec certificate).bind ?_
        rintro _ _ rfl
        exact .ret (.null (Or.inl rfl))
      · exact object_spec rfl rfl
    · refine .ret (.null (h.imp_left ?_))
      intro h0
      rw [h0]

theorem certificateMentionsComposite_spec {certificate : Obj X509} (hc : certificate.owned ≤ B) :
    Spec plan B (certificateMentionsComposite certificate)
      (Beside B (Decides plan (HybridPqc.certificateMentionsComposite certificate.val))) := by
  refine (touch_spec_of_le hc).bind ?_
  rintro _ B rfl
  refine (alloc_spec compositeSm2DilithiumExperimentalOid).step B (zero_add _).symm ?_
  rintro _ _ (⟨composite, h⟩ | ⟨h⟩)
  · have hoid := (Option.some.inj h).symm
    refine (freeObj_spec composite).release B rfl ?_
    rw [hoid]
    exact pure_spec _
  · exact .ret ⟨0, .no (Or.inr (fails_of_some h)), rfl⟩

/-! ## The key -/

variable (plan) in
/-- An export into a buffer: the result `v`, or failure with the buffer as it was. -/
def Exports (v : Bool × Bytes) (output : Bytes) (r : Bool × Bytes) (R : Multiset Nat) : Prop :=
  R = 0 ∧ (r = v ∨ r = (false, output) ∧ Fails plan)

theorem serializeSm2PublicKey_spec (C : Crypto PKey) (key : Option PKey) (output : Bytes) :
    Spec plan 0 (serializeSm2PublicKey C key output)
      (Exports plan (HybridPqc.serializeSm2PublicKey C key output) output) := by
  cases key with
  | none => exact .ret ⟨rfl, Or.inl rfl⟩
  | some k =>
    simp only [serializeSm2PublicKey, HybridPqc.serializeSm2PublicKey]
    split
    · refine (call_spec _).bind ?_
      rintro _ _ (⟨o, h⟩ | ⟨h⟩)
      · rw [h]
        exact .ret ⟨rfl, Or.inl rfl⟩
      · refine .ret ⟨rfl, ?_⟩
        rcases h with h0 | hfail
        · rw [h0]
          exact Or.inl rfl
        · exact Or.inr ⟨rfl, hfail⟩
    · exact .ret ⟨rfl, Or.inl rfl⟩

/-- `tlcp_hybrid_cert_get_sm2_sign_public_key` after the certificate is decoded. -/
def exportedKey (certificate : X509) (output : Bytes) : Bool × Bytes :=
  if hybridX509CompositeAlgorithmsValid certificate then
    match HybridPqc.hybridX509GetCompositePublicKey E certificate with
    | none => (false, output)
    | some publicKey => compositeGetSm2PublicKeyOctets E.toCrypto publicKey output
  else (false, output)

theorem exportSm2SignPublicKey_spec {certificate : Obj X509} (hc : certificate.owned ≤ B)
    (output : Bytes) :
    Spec plan B (exportSm2SignPublicKey E certificate output)
      (Beside B (Exports plan (exportedKey E certificate.val output) output)) := by
  refine (touch_spec_of_le hc).bind ?_
  rintro _ B rfl
  simp only [exportedKey]
  split
  · refine (hybridX509GetCompositePublicKey_spec E hc).look ?_
    rintro _ _ (⟨publicKey, h⟩ | ⟨h⟩)
    · rw [h]
      refine (touch_spec publicKey).step B rfl ?_
      rintro _ _ rfl
      refine (serializeSm2PublicKey_spec E.toCrypto publicKey.val.sm2PublicKey output).step
        (publicKey.owned + B) (zero_add _).symm ?_
      rintro exported _ ⟨rfl, h⟩
      refine (freeObj_spec publicKey).release B (zero_add _) ?_
      exact .ret ⟨0, ⟨rfl, h⟩, (zero_add _).symm⟩
    · refine .ret ⟨0, ⟨rfl, ?_⟩, rfl⟩
      rcases h with h0 | hfail
      · rw [h0]
        exact Or.inl rfl
      · exact Or.inr ⟨rfl, hfail⟩
  · exact .ret ⟨0, ⟨rfl, Or.inl rfl⟩, (zero_add _).symm⟩

theorem tlcpHybridCertGetSm2SignPublicKey_spec (der : CArg) (output : Bytes) :
    Spec plan 0 (tlcpHybridCertGetSm2SignPublicKey E der output)
      (Exports plan (HybridPqc.tlcpHybridCertGetSm2SignPublicKey E der output) output) := by
  refine (decodeDerStrict_spec E der).bind ?_
  simp only [HybridPqc.tlcpHybridCertGetSm2SignPublicKey]
  rintro _ _ (⟨certificate, h⟩ | ⟨h⟩)
  · rw [h]
    refine (exportSm2SignPublicKey_spec E (le_refl certificate.owned) output).bind ?_
    rintro exported _ ⟨_, ⟨rfl, h⟩, rfl⟩
    rw [zero_add]
    refine (freeObj_spec certificate).bind ?_
    rintro _ _ rfl
    exact .ret ⟨rfl, h⟩
  · refine .ret ⟨rfl, ?_⟩
    rcases h with h0 | hfail
    · rw [h0]
      exact Or.inl rfl
    · exact Or.inr ⟨rfl, hfail⟩

/-! ## One certificate -/

theorem hostnameOk_spec {certificate : Obj X509} (hc : certificate.owned ≤ B)
    (expectedHostname : Option CString) :
    Spec plan B (hostnameOk E certificate expectedHostname)
      (Beside B (Decides plan (HybridPqc.hostnameOk E certificate.val expectedHostname))) := by
  cases expectedHostname with
  | none => exact pure_spec true
  | some h =>
    simp only [hostnameOk, HybridPqc.hostnameOk]
    by_cases hnil : h.val = []
    · rw [if_pos hnil, hnil]
      exact pure_spec true
    · have hbeq : (h.val == []) = false := beq_false_of_ne hnil
      rw [if_neg hnil, hbeq, Bool.false_or]
      refine (touch_spec_of_le hc).bind ?_
      rintro _ B rfl
      exact ((test_spec _).frame B).pre (zero_add _).symm

/-- The chain part of a report. -/
def chainUnder (signing : X509) (root : Option X509) : HybridChainVerifyResult :=
  match root with
  | none => {}
  | some root => HybridPqc.hybridVerifyChain E now (some root) (some signing)

/-- `tlcp_hybrid_cert_verify_der`'s report on a certificate that it recognised. -/
def reportOn (signing : X509) (marker host : Bool) (chain : HybridChainVerifyResult) :
    TlcpHybridCertVerifyReport where
  recognizedComposite := true
  oidOk := hybridX509CompositeAlgorithmsValid signing
  pqcMarkerOk := marker
  chain := chain
  issuerSubjectOk := chain.server.issuerSubjectLinkValid
  validityOk := chain.root.validityValid && chain.server.validityValid
  constraintsOk := chain.server.issuerCaConstraintsValid && chain.server.subjectConstraintsValid
  keyUsageOk := chain.server.subjectConstraintsValid
  dilithiumOk := chain.server.dilithiumValid
  sm2Ok := chain.server.sm2Valid
  compositeOk := chain.server.compositeValid
  hostnameOk := host

def reportFlags : List (TlcpHybridCertVerifyReport → Bool) :=
  [(·.oidOk), (·.pqcMarkerOk), (·.issuerSubjectOk), (·.validityOk), (·.constraintsOk),
    (·.keyUsageOk), (·.hostnameOk), (·.dilithiumOk), (·.sm2Ok), (·.compositeOk),
    (·.encryptionSubjectSpkiSm2Ok), (·.encryptionOidOk), (·.encryptionPqcMarkerOk),
    (·.encryptionDilithiumOk), (·.encryptionSm2Ok), (·.encryptionCompositeOk),
    (·.encryptionCertificateOk), (·.tlcpDualIdentityOk), (·.tlcpDualCertificateOk)]

/-- Every check that passes in `r` passes in `v`. `recognizedComposite` is not a check: when the
certificate cannot be decoded for want of memory, its bytes are searched instead. -/
structure ReportBelow (r v : TlcpHybridCertVerifyReport) : Prop where
  flags : ∀ flag ∈ reportFlags, flag r = true → flag v = true
  chain : ChainResultBelow r.chain v.chain
  encryption : CertResultBelow r.encryption v.encryption

theorem ReportBelow.refl (v : TlcpHybridCertVerifyReport) : ReportBelow v v :=
  ⟨fun _ _ => id, .refl _, .refl _⟩

theorem ReportBelow.trans {a b c : TlcpHybridCertVerifyReport} (h : ReportBelow a b)
    (h' : ReportBelow b c) : ReportBelow a c :=
  ⟨fun flag hf ha => h'.1 flag hf (h.1 flag hf ha), h.2.trans h'.2, h.3.trans h'.3⟩

/-- A report without a check is below every report. -/
theorem ReportBelow.empty (recognized : Bool) (v : TlcpHybridCertVerifyReport) :
    ReportBelow { recognizedComposite := recognized } v :=
  ⟨by simp [reportFlags], .empty _, .empty _⟩

theorem reportOn_below (signing : X509) {a b a' b' : Bool} {r v : HybridChainVerifyResult}
    (ha : a = true → a' = true) (hb : b = true → b' = true) (h : ChainResultBelow r v) :
    ReportBelow (reportOn signing a b r) (reportOn signing a' b' v) := by
  refine ⟨?_, h, .refl _⟩
  obtain ⟨_, hroot, hserver, _⟩ := h
  simp only [CertResultBelow, certFlags, List.forall_mem_cons] at hroot hserver
  simp only [reportFlags, List.forall_mem_cons, reportOn, Bool.and_eq_true]
  simp_all

theorem verifyUnderAnchor_spec {signing : Obj X509} {root : Option (Obj X509)}
    {o : Option X509} {R : Multiset Nat} (hs : signing.owned ≤ B) (hr : Yields plan o root R) :
    Spec plan (R + B) (verifyUnderAnchor E now signing root)
      (Beside (R + B) (Reports plan ChainResultBelow (chainUnder E now signing.val o))) := by
  cases hr with
  | object root h =>
    rw [h]
    exact hybridVerifyChain_spec E now (Multiset.le_add_right _ _)
      (hs.trans (Multiset.le_add_left _ _))
  | null h =>
    refine .ret ⟨0, ⟨rfl, .empty _, h.imp_left ?_⟩, (zero_add _).symm⟩
    rintro rfl
    rfl

/-- The report of `verifyReport`, with the trust anchor still held. -/
theorem verifyReport_spec {signing : Obj X509} (hs : signing.owned ≤ B) (anchor : CArg)
    (host : Option CString) :
    Spec plan B (verifyReport E now signing anchor host)
      (Beside B fun r R => R = Obj.ownedOpt r.1 ∧
        Reports plan ReportBelow (reportOn signing.val
          (HybridPqc.hybridX509HasPqcExtension signing.val)
          (HybridPqc.hostnameOk E signing.val host)
          (chainUnder E now signing.val (HybridPqc.decodeDerStrict E anchor))) r.2 0) := by
  refine (touch_spec_of_le hs).bind ?_
  rintro _ B rfl
  refine (hybridX509HasPqcExtension_spec hs).ask fun marker hmarker hmarker' => ?_
  refine (decodeDerStrict_spec E anchor).step B (zero_add _).symm ?_
  intro root R hroot
  refine (verifyUnderAnchor_spec E now hs hroot).look ?_
  rintro chain _ ⟨rfl, hchain, hchain'⟩
  rw [zero_add]
  refine (hostnameOk_spec E (hs.trans (Multiset.le_add_left _ _)) host).ask
    fun hostOk hhost hhost' => ?_
  refine .ret ⟨R, ⟨hroot.owned, rfl, reportOn_below _ hmarker hhost hchain, ?_⟩, rfl⟩
  by_contra hno
  simp_all [reportOn]

/-- `VALID` and the key in the buffer are those of `v`; with any other result the buffer is
`cleared`. -/
structure VerdictBelow (cleared : Option Bytes) (r v : VerifyDerOutcome) : Prop where
  valid : r.result = .valid → v.result = .valid ∧ r.sm2PublicKey = v.sm2PublicKey
  withheld : r.result ≠ .valid → r.sm2PublicKey = cleared
  report : ReportBelow r.report v.report

/-- The key buffer, cleared. -/
def clearedBuffer (sm2PublicKey : Option Bytes) : Option Bytes :=
  sm2PublicKey.map fun _ => Bytes.zeros sm2UncompressedPublicKeyBytes

/-- The verdict that a report leads to. -/
def verdictOn (der : CArg) (buffer : Option Bytes) (report : TlcpHybridCertVerifyReport) :
    VerifyDerOutcome :=
  if !report.oidOk || !report.pqcMarkerOk || !report.chain.chainValid || !report.hostnameOk then
    ⟨.invalid, buffer, report⟩
  else
    match buffer with
    | none => ⟨.invalid, none, report⟩
    | some output =>
      let r := HybridPqc.tlcpHybridCertGetSm2SignPublicKey E der output
      ⟨if r.1 then .valid else .invalid, some r.2, report⟩

theorem verdictOn_report (der : CArg) (buffer : Option Bytes)
    (report : TlcpHybridCertVerifyReport) : (verdictOn E der buffer report).report = report := by
  simp only [verdictOn]
  split
  · rfl
  · cases buffer with
    | none => rfl
    | some output => rfl

theorem tlcpHybridCertVerifyDer_eq (der anchor : CArg) (host : Option CString)
    (sm2PublicKey : Option Bytes) :
    HybridPqc.tlcpHybridCertVerifyDer E now der anchor host sm2PublicKey =
      match HybridPqc.decodeDerStrict E der with
      | none => {
          result := if containsCompositeOid der then .invalid else .notApplicable
          sm2PublicKey := clearedBuffer sm2PublicKey
          report := { recognizedComposite := containsCompositeOid der } }
      | some signing =>
        if HybridPqc.certificateMentionsComposite signing then
          verdictOn E der (clearedBuffer sm2PublicKey) (reportOn signing
            (HybridPqc.hybridX509HasPqcExtension signing) (HybridPqc.hostnameOk E signing host)
            (chainUnder E now signing (HybridPqc.decodeDerStrict E anchor)))
        else ⟨.notApplicable, clearedBuffer sm2PublicKey, {}⟩ := by
  simp only [HybridPqc.tlcpHybridCertVerifyDer, clearedBuffer]
  cases HybridPqc.decodeDerStrict E der with
  | none => rfl
  | some signing =>
    dsimp only
    split
    · simp only [verdictOn, reportOn, chainUnder]
      congr 1
      cases sm2PublicKey with
      | none => rfl
      | some output =>
        simp only [Option.map_some]
        cases HybridPqc.tlcpHybridCertGetSm2SignPublicKey E der
            (Bytes.zeros sm2UncompressedPublicKeyBytes) with
        | mk ok output =>
          cases ok with
          | true => rfl
          | false => rfl
    · rfl

theorem releaseKey_spec (der : CArg) (sm2PublicKey : Option Bytes)
    {r v : TlcpHybridCertVerifyReport} (h : ReportBelow r v) (hfull : r = v ∨ Fails plan) :
    Spec plan 0 (releaseKey E der (clearedBuffer sm2PublicKey) r) fun k R =>
      Reports plan (VerdictBelow (clearedBuffer sm2PublicKey))
        (verdictOn E der (clearedBuffer sm2PublicKey) v)
        ⟨if k.1 then .valid else .invalid, k.2, r⟩ R := by
  have hflag (flag : TlcpHybridCertVerifyReport → Bool) (hf : flag ∈ reportFlags) :
      flag r = true → flag v = true := h.flags flag hf
  have hoid := hflag (·.oidOk) (by simp [reportFlags])
  have hmarker := hflag (·.pqcMarkerOk) (by simp [reportFlags])
  have hhost := hflag (·.hostnameOk) (by simp [reportFlags])
  simp only [releaseKey]
  by_cases hr : (!r.oidOk || !r.pqcMarkerOk || !r.chain.chainValid || !r.hostnameOk) = true
  · rw [if_pos hr]
    refine .ret ⟨rfl, ⟨by simp, fun _ => rfl, ?_⟩, hfull.imp_left ?_⟩
    · rw [verdictOn_report]
      exact h
    · rintro rfl
      simp only [verdictOn, hr, if_true]
      rfl
  · have hv : (!v.oidOk || !v.pqcMarkerOk || !v.chain.chainValid || !v.hostnameOk) = false := by
      simp only [Bool.or_eq_true, Bool.not_eq_true', not_or, Bool.not_eq_false] at hr
      obtain ⟨⟨⟨h1, h2⟩, h3⟩, h4⟩ := hr
      simp [hoid h1, hmarker h2, h.chain.chainValid h3, hhost h4]
    simp only [verdictOn, hr, hv, Bool.false_eq_true, if_false]
    cases sm2PublicKey with
    | none =>
      refine .ret ⟨rfl, ⟨by simp, fun _ => rfl, h⟩, hfull.imp_left ?_⟩
      rintro rfl
      rfl
    | some output =>
      simp only [clearedBuffer, Option.map_some]
      refine (tlcpHybridCertGetSm2SignPublicKey_spec E der _).bind ?_
      rintro k _ ⟨rfl, hk⟩
      refine .ret ⟨rfl, ?_, ?_⟩
      · rcases hk with rfl | ⟨rfl, _⟩
        · refine ⟨fun hvalid => ⟨hvalid, rfl⟩, fun hne => congrArg some ?_, h⟩
          have hfalse : (HybridPqc.tlcpHybridCertGetSm2SignPublicKey E der
              (Bytes.zeros sm2UncompressedPublicKeyBytes)).1 = false := by
            by_contra htrue
            exact hne (if_pos (eq_true_of_ne_false htrue))
          exact tlcpHybridCertGetSm2SignPublicKey_false (Bytes.zeros_length _)
            (Prod.ext hfalse rfl)
        · exact ⟨by simp, fun _ => rfl, h⟩
      · rcases hk with rfl | ⟨_, hfail⟩
        · refine hfull.imp_left ?_
          rintro rfl
          rfl
        · exact Or.inr hfail

theorem tlcpHybridCertVerifyDer_spec (der anchor : CArg) (host : Option CString)
    (sm2PublicKey : Option Bytes) :
    Spec plan 0 (tlcpHybridCertVerifyDer E now der anchor host sm2PublicKey)
      (Reports plan (VerdictBelow (clearedBuffer sm2PublicKey))
        (HybridPqc.tlcpHybridCertVerifyDer E now der anchor host sm2PublicKey)) := by
  rw [tlcpHybridCertVerifyDer_eq]
  refine (decodeDerStrict_spec E der).bind ?_
  rintro _ _ (⟨signing, h⟩ | ⟨h⟩)
  · rw [h]
    dsimp only
    refine (certificateMentionsComposite_spec (le_refl signing.owned)).ask
      fun mentions hmentions hmentions' => ?_
    cases mentions with
    | true =>
      rw [hmentions rfl]
      refine (verifyReport_spec E now (le_refl signing.owned) anchor host).look ?_
      rintro ⟨root, report⟩ _ ⟨rfl, _, hle, hfull⟩
      refine (releaseKey_spec E der sm2PublicKey hle hfull).step
        (Obj.ownedOpt root + signing.owned) (zero_add _).symm ?_
      rintro ⟨ok, buffer⟩ _ ⟨rfl, hverdict, hverdict'⟩
      refine (free_spec root).release signing.owned (zero_add _) ?_
      refine (freeObj_spec signing).release 0 (add_zero _).symm ?_
      exact .ret ⟨rfl, hverdict, hverdict'⟩
    | false =>
      refine (freeObj_spec signing).bind ?_
      rintro _ _ rfl
      refine .ret ⟨rfl, ⟨by simp, fun _ => rfl, .empty false _⟩, ?_⟩
      rcases hmentions' with h0 | hfail
      · rw [← h0]
        exact Or.inl rfl
      · exact Or.inr hfail
  · refine .ret ⟨rfl, ⟨?_, fun _ => rfl, .empty _ _⟩, h.imp_left ?_⟩
    · dsimp only
      split <;> simp
    · intro h0
      rw [h0]
      rfl

/-! ## The callback -/

/-- A certificate and an anchor that are missing for want of memory make no check pass. -/
theorem encryptionCertificate_spec {encryption root : Option (Obj X509)} {oe oroot : Option X509}
    {Re Rr : Multiset Nat} (he : Yields plan oe encryption Re) (hr : Yields plan oroot root Rr)
    (hB : Re + Rr ≤ B) :
    Spec plan B (hybridVerifyEncryptionCertificate E now encryption root)
      (Beside B (Reports plan CertResultBelow
        (HybridPqc.hybridVerifyEncryptionCertificate E now oe oroot))) := by
  rw [he.owned, hr.owned] at hB
  refine (hybridVerifyEncryptionCertificate_spec E now
    ((Multiset.le_add_right _ _).trans hB) ((Multiset.le_add_left _ _).trans hB)).mono ?_
  rintro r _ ⟨_, ⟨rfl, hle, hfull⟩, rfl⟩
  rcases he.val_map with h | ⟨rfl, hfail⟩
  · rcases hr.val_map with h' | ⟨rfl, hfail⟩
    · rw [h, h'] at hle hfull
      exact ⟨0, ⟨rfl, hle, hfull⟩, rfl⟩
    · refine ⟨0, ⟨rfl, hle.trans ?_, Or.inr hfail⟩, rfl⟩
      cases encryption with
      | none => exact .empty _
      | some encryption => exact .empty _
  · exact ⟨0, ⟨rfl, hle.trans (.empty _), Or.inr hfail⟩, rfl⟩

theorem dualIdentityOk_spec {signing encryption : Option (Obj X509)} {os oe : Option X509}
    {Rs Re : Multiset Nat} (hs : Yields plan os signing Rs) (he : Yields plan oe encryption Re)
    (hB : Re + Rs ≤ B) :
    Spec plan B (dualIdentityOk E signing encryption)
      (Beside B (Decides plan (HybridPqc.dualIdentityOk E os oe))) := by
  cases hs with
  | null h =>
    refine .ret ⟨0, .no (h.imp_left ?_), (zero_add _).symm⟩
    rintro rfl
    rfl
  | object signing hs =>
    cases he with
    | null h =>
      refine .ret ⟨0, .no (h.imp_left ?_), (zero_add _).symm⟩
      rintro rfl
      simp only [HybridPqc.dualIdentityOk]
    | object encryption he =>
      rw [hs, he]
      refine (touch_spec_of_le ((Multiset.le_add_left _ _).trans hB)).bind ?_
      rintro _ B rfl
      refine (touch_spec_of_le ((Multiset.le_add_right _ _).trans hB)).bind ?_
      rintro _ B rfl
      exact pure_spec _

/-- `VALID` and the key in the buffer are those of `v`; with any other result the buffer is
`cleared`, or what `v` leaves in it. -/
structure OutcomeBelow (cleared : Option Bytes) (r v : CallbackOutcome) : Prop where
  valid : r.result = .valid → v.result = .valid ∧ r.sm2PublicKey = v.sm2PublicKey
  buffer : r.sm2PublicKey = cleared ∨ r.sm2PublicKey = v.sm2PublicKey
  report : ∀ a, r.lastReport = some a → ∃ b, v.lastReport = some b ∧ ReportBelow a b

/-- A report with what the callback finds out about the encryption certificate. -/
def dualReport (report : TlcpHybridCertVerifyReport) (enc : HybridCertVerifyResult)
    (identityOk : Bool) : TlcpHybridCertVerifyReport :=
  { report with
    encryption := enc
    encryptionCertificateOk := enc.certificateValid
    encryptionSubjectSpkiSm2Ok := enc.subjectPublicKeySm2
    encryptionOidOk := enc.compositeOidsValid
    encryptionPqcMarkerOk := enc.pqcExtensionPresent
    encryptionDilithiumOk := enc.dilithiumValid
    encryptionSm2Ok := enc.sm2Valid
    encryptionCompositeOk := enc.compositeValid
    tlcpDualIdentityOk := identityOk
    tlcpDualCertificateOk := report.compositeOk && enc.certificateValid && identityOk }

theorem dualReport_below {r v : TlcpHybridCertVerifyReport} {e e' : HybridCertVerifyResult}
    {b b' : Bool} (h : ReportBelow r v) (he : CertResultBelow e e') (hb : b = true → b' = true) :
    ReportBelow (dualReport r e b) (dualReport v e' b') := by
  refine ⟨?_, h.chain, he⟩
  have hflags := h.flags
  simp only [CertResultBelow, certFlags, List.forall_mem_cons] at he
  simp only [reportFlags, List.forall_mem_cons, dualReport, Bool.and_eq_true] at hflags ⊢
  simp_all

/-- The outcome for a signing certificate that was `VALID`. -/
def dualOutcome (stored : Bool) (buffer : Option Bytes) (report : TlcpHybridCertVerifyReport) :
    CallbackOutcome where
  result := if report.tlcpDualCertificateOk then .valid else .invalid
  sm2PublicKey := buffer
  lastReport := if stored then some report else none

theorem dualOutcome_below (stored : Bool) {cleared buffer : Option Bytes}
    {r v : TlcpHybridCertVerifyReport} (h : ReportBelow r v) :
    OutcomeBelow cleared (dualOutcome stored buffer r) (dualOutcome stored buffer v) := by
  refine ⟨?_, Or.inr rfl, ?_⟩
  · have hdual := h.flags (·.tlcpDualCertificateOk) (by simp [reportFlags])
    simp only [dualOutcome]
    intro hr
    have hset : r.tlcpDualCertificateOk = true := by
      by_contra hne
      rw [if_neg hne] at hr
      cases hr
    exact ⟨if_pos (hdual hset), trivial⟩
  · intro a ha
    cases stored with
    | false => cases ha
    | true =>
      cases ha
      exact ⟨v, rfl, h⟩

/-- Nothing is said about an encryption certificate yet. -/
def EncryptionUnseen (report : TlcpHybridCertVerifyReport) : Prop :=
  dualReport report {} false = report

theorem EncryptionUnseen.below {v : TlcpHybridCertVerifyReport} (h : EncryptionUnseen v)
    (enc : HybridCertVerifyResult) (b : Bool) : ReportBelow v (dualReport v enc b) := by
  have hbelow : ReportBelow (dualReport v {} false) (dualReport v enc b) :=
    dualReport_below (.refl v) (.empty enc) (by simp)
  rwa [h] at hbelow

theorem tlcpHybridCertVerifyDer_unseen (der anchor : CArg) (host : Option CString)
    (sm2PublicKey : Option Bytes) :
    EncryptionUnseen
      (HybridPqc.tlcpHybridCertVerifyDer E now der anchor host sm2PublicKey).report := by
  rw [tlcpHybridCertVerifyDer_eq]
  cases HybridPqc.decodeDerStrict E der with
  | none => rfl
  | some signing =>
    dsimp only
    split
    · rw [verdictOn_report]
      simp [EncryptionUnseen, dualReport, reportOn]
    · rfl

/-- Whatever the callback goes on to say, it stores at least the checks of `v`. -/
theorem stored_below (config : TlcpHybridCertAdapterConfig) (os oe : Option X509)
    {v : VerifyDerOutcome} (hu : EncryptionUnseen v.report) {a : TlcpHybridCertVerifyReport}
    (h : (if config.lastReport then some v.report else none) = some a) :
    ∃ b, (HybridPqc.finishCallback E now config os oe v).lastReport = some b ∧ ReportBelow a b := by
  cases hstored : config.lastReport with
  | false =>
    rw [hstored] at h
    cases h
  | true =>
    rw [hstored] at h
    cases h
    simp only [HybridPqc.finishCallback, hstored, if_true]
    split
    · exact ⟨_, rfl, hu.below _ _⟩
    · exact ⟨_, rfl, .refl _⟩

theorem finishCallback_spec (config : TlcpHybridCertAdapterConfig)
    {signing encryption : Option (Obj X509)} {os oe : Option X509} {Rs Re : Multiset Nat}
    (hs : Yields plan os signing Rs) (he : Yields plan oe encryption Re)
    {cleared : Option Bytes} {out v : VerifyDerOutcome} (hout : VerdictBelow cleared out v)
    (hfull : out = v ∨ Fails plan) (hu : EncryptionUnseen v.report) :
    Spec plan (Re + Rs) (finishCallback E now config signing encryption out)
      (Beside (Re + Rs) fun r R => R = Obj.ownedOpt r.1 ∧
        Reports plan (OutcomeBelow cleared) (HybridPqc.finishCallback E now config os oe v)
          r.2 0) := by
  by_cases hvalid : out.result = .valid
  · have hv := hout.valid hvalid
    have hval : HybridPqc.finishCallback E now config os oe v =
        dualOutcome config.lastReport v.sm2PublicKey (dualReport v.report
          (HybridPqc.hybridVerifyEncryptionCertificate E now oe
            (HybridPqc.decodeDerStrict E config.trustAnchorDer))
          (HybridPqc.dualIdentityOk E os oe)) := by
      simp only [HybridPqc.finishCallback, hv.1, if_true]
      rfl
    simp only [finishCallback, hvalid, if_true]
    refine (decodeDerStrict_spec E config.trustAnchorDer).step (Re + Rs) (zero_add _).symm ?_
    intro root Rr hroot
    refine (encryptionCertificate_spec E now he hroot (by
      rw [add_comm Rr, add_right_comm]
      exact Multiset.le_add_right _ _)).look ?_
    rintro enc _ ⟨rfl, henc, henc'⟩
    rw [zero_add]
    refine (dualIdentityOk_spec E hs he (Multiset.le_add_left _ _)).ask
      fun identityOk hid hid' => ?_
    refine .ret ⟨Rr, ⟨hroot.owned, rfl, ?_, ?_⟩, rfl⟩
    · rw [hval, ← hv.2]
      exact dualOutcome_below config.lastReport (dualReport_below hout.report henc hid)
    · rw [hval]
      by_contra hno
      rw [not_or] at hno
      refine hno.1 ?_
      rw [← hfull.resolve_right hno.2, ← henc'.resolve_right hno.2, ← hid'.resolve_right hno.2]
      rfl
  · simp only [finishCallback, hvalid, if_false]
    refine .ret ⟨0, ⟨rfl, rfl, ⟨fun h => (hvalid h).elim, Or.inl (hout.withheld hvalid), ?_⟩,
      hfull.imp_left ?_⟩, (zero_add _).symm⟩
    · intro a ha
      cases hstored : config.lastReport with
      | false =>
        simp only [hstored] at ha
        cases ha
      | true =>
        simp only [hstored, if_true] at ha
        cases ha
        obtain ⟨b, hb, hle⟩ := stored_below E now config os oe hu (if_pos hstored)
        exact ⟨b, hb, hout.report.trans hle⟩
    · rintro rfl
      simp only [HybridPqc.finishCallback, hvalid, if_false]

/-- What the first certificate of a message leaves of it. -/
theorem tlcpHybridCertGmsslVerifyCallback_eq (chain : CArg) (sm2PublicKey : Option Bytes)
    (config : TlcpHybridCertAdapterConfig) :
    HybridPqc.tlcpHybridCertGmsslVerifyCallback E now chain sm2PublicKey (some config) =
      match HybridPqc.decodeNextCertificate E chain with
      | some (signing, signingDer, rest) =>
        HybridPqc.finishCallback E now config (some signing)
          ((HybridPqc.decodeNextCertificate E (.buf rest)).map (·.1))
          (HybridPqc.tlcpHybridCertVerifyDer E now (.buf signingDer) config.trustAnchorDer
            config.expectedHostname sm2PublicKey)
      | none =>
        HybridPqc.finishCallback E now config none
          ((HybridPqc.decodeNextCertificate E chain).map (·.1))
          (HybridPqc.tlcpHybridCertVerifyDer E now (signingDer chain none) config.trustAnchorDer
            config.expectedHostname sm2PublicKey) := by
  simp only [HybridPqc.tlcpHybridCertGmsslVerifyCallback]
  cases HybridPqc.decodeNextCertificate E chain with
  | none => cases chain <;> rfl
  | some p => rfl

/-- Without a first certificate there is no verdict on one. -/
theorem verifyDer_signingDer_none (chain anchor : CArg) (host : Option CString)
    (sm2PublicKey : Option Bytes) :
    ∃ recognized,
      HybridPqc.tlcpHybridCertVerifyDer E now (signingDer chain none) anchor host sm2PublicKey =
        ⟨if recognized then .invalid else .notApplicable, clearedBuffer sm2PublicKey,
          { recognizedComposite := recognized }⟩ := by
  refine ⟨containsCompositeOid (signingDer chain none), ?_⟩
  rw [tlcpHybridCertVerifyDer_eq]
  cases chain <;> rfl

/-- The callback from the second certificate on. -/
theorem callbackRest_spec (config : TlcpHybridCertAdapterConfig) (der rest : CArg)
    (sm2PublicKey : Option Bytes) {signing : Option (Obj (X509 × Bytes × Bytes))}
    {os : Option (X509 × Bytes × Bytes)} {Rs : Multiset Nat} (hs : Yields plan os signing Rs) :
    Spec plan Rs
      (do
        let encryption ← decodeNextCertificate E rest
        let out ← tlcpHybridCertVerifyDer E now der config.trustAnchorDer config.expectedHostname
          sm2PublicKey
        let (root, outcome) ← finishCallback E now config (signing.map certificateAt)
          (encryption.map certificateAt) out
        free encryption
        free signing
        free root
        return outcome : Act plan CallbackOutcome)
      (Reports plan (OutcomeBelow (clearedBuffer sm2PublicKey))
        (HybridPqc.finishCallback E now config (os.map (·.1))
          ((HybridPqc.decodeNextCertificate E rest).map (·.1))
          (HybridPqc.tlcpHybridCertVerifyDer E now der config.trustAnchorDer
            config.expectedHostname sm2PublicKey))) := by
  refine (decodeNextCertificate_spec E rest).step Rs (zero_add _).symm ?_
  intro encryption Re he
  refine (tlcpHybridCertVerifyDer_spec E now der _ _ sm2PublicKey).step (Re + Rs)
    (zero_add _).symm ?_
  rintro out _ ⟨rfl, hout, hfull⟩
  rw [zero_add]
  refine (finishCallback_spec E now config (hs.map (·.1)) (he.map (·.1)) hout hfull
    (tlcpHybridCertVerifyDer_unseen E now _ _ _ _)).look ?_
  rintro ⟨root, outcome⟩ _ ⟨rfl, hres⟩
  rw [he.owned, hs.owned]
  refine (free_spec encryption).release (Obj.ownedOpt root + Obj.ownedOpt signing) (by ac_rfl) ?_
  refine (free_spec signing).release (Obj.ownedOpt root) (add_comm _ _) ?_
  refine (free_spec root).release 0 (add_zero _).symm ?_
  exact .ret hres

/-- A callback that could not decode the first certificate accepts nothing. -/
theorem OutcomeBelow.of_unread {config : TlcpHybridCertAdapterConfig} {chain : CArg}
    {sm2PublicKey : Option Bytes} {oe os oe' : Option X509} {r : CallbackOutcome}
    {v : VerifyDerOutcome}
    (h : OutcomeBelow (clearedBuffer sm2PublicKey) r (HybridPqc.finishCallback E now config none oe
      (HybridPqc.tlcpHybridCertVerifyDer E now (signingDer chain none) config.trustAnchorDer
        config.expectedHostname sm2PublicKey)))
    (hu : EncryptionUnseen v.report) :
    OutcomeBelow (clearedBuffer sm2PublicKey) r
      (HybridPqc.finishCallback E now config os oe' v) := by
  obtain ⟨recognized, hver⟩ := verifyDer_signingDer_none E now chain config.trustAnchorDer
    config.expectedHostname sm2PublicKey
  have hne : (if recognized then .invalid else .notApplicable : TlcpHybridCertResult) ≠ .valid := by
    cases recognized <;> decide
  rw [hver] at h
  simp only [HybridPqc.finishCallback, hne, if_false] at h
  refine ⟨fun hr => (hne (h.valid hr).1).elim, Or.inl (h.buffer.elim id id), ?_⟩
  intro a ha
  obtain ⟨b, hb, hle⟩ := h.report a ha
  cases hstored : config.lastReport with
  | false =>
    rw [hstored] at hb
    cases hb
  | true =>
    rw [hstored] at hb
    cases hb
    obtain ⟨c, hc, _⟩ := stored_below E now config os oe' hu (if_pos hstored)
    exact ⟨c, hc, hle.trans (.empty _ _)⟩

theorem tlcpHybridCertGmsslVerifyCallback_spec (chain : CArg) (sm2PublicKey : Option Bytes)
    (arg : Option TlcpHybridCertAdapterConfig) :
    Spec plan 0 (tlcpHybridCertGmsslVerifyCallback E now chain sm2PublicKey arg)
      (Reports plan (OutcomeBelow (clearedBuffer sm2PublicKey))
        (HybridPqc.tlcpHybridCertGmsslVerifyCallback E now chain sm2PublicKey arg)) := by
  cases arg with
  | none =>
    refine .ret ⟨rfl, ⟨by simp, Or.inr rfl, ?_⟩, Or.inl rfl⟩
    intro a ha
    cases ha
  | some config =>
    rw [tlcpHybridCertGmsslVerifyCallback_eq]
    refine (decodeNextCertificate_spec E chain).bind ?_
    rintro _ _ (⟨signing, h⟩ | ⟨h⟩)
    · rw [h]
      exact callbackRest_spec E now config _ _ sm2PublicKey (.object signing rfl)
    · refine (callbackRest_spec E now config _ _ sm2PublicKey (.null (Or.inl rfl))).mono ?_
      rcases h with h0 | hfail
      · simp only [afterSigning, h0]
        exact fun _ _ h => h
      · rintro r _ ⟨rfl, hle, -⟩
        refine ⟨rfl, ?_, Or.inr hfail⟩
        split
        · exact hle.of_unread E now (tlcpHybridCertVerifyDer_unseen E now _ _ _ _)
        · exact hle

variable {E now} in
/-- A `VALID` message is acceptable, and the buffer has its signing key. -/
theorem callback_accepted {chain : CArg} {output : Bytes} {config : TlcpHybridCertAdapterConfig}
    (h : (HybridPqc.tlcpHybridCertGmsslVerifyCallback E now chain (some output)
      (some config)).result = .valid) :
    ∃ root s e, DualAccepted E now config chain root s e ∧
      (HybridPqc.tlcpHybridCertGmsslVerifyCallback E now chain (some output)
        (some config)).sm2PublicKey = sm2Component E s := by
  by_contra hno
  refine (callback_of_not_accepted output fun root s e hacc => hno ⟨root, s, e, hacc, ?_⟩).1 h
  rw [hacc.signing.sm2Component_eq]
  exact (callback_of_accepted output hacc).2.1

end

end Memory

/-- **Requests that fail.** Whatever request for memory fails in the callback, it releases what it
has allocated and nothing else, it is `VALID` only for a message that satisfies the profile, with
that message's signing key in the buffer, and a check that its report shows as passed is passed.
With any result the buffer is cleared or as the callback with memory enough leaves it. -/
theorem callback_fails_closed {PKey : Type} (E : Openssl PKey) (now : Int) (plan : Nat → Bool)
    (chain : CArg) (output : Bytes) (config : TlcpHybridCertAdapterConfig) {m : Refs.Mem}
    {R : Multiset Nat} (hm : m.Holds R) :
    let v := tlcpHybridCertGmsslVerifyCallback E now chain (some output) (some config)
    let r := (Memory.tlcpHybridCertGmsslVerifyCallback E now chain (some output) (some config) :
      Refs.Act plan CallbackOutcome) m
    r.2.Holds R ∧
    (r.1.result = .valid → ∃ root s e, DualAccepted E now config chain root s e ∧
      r.1.sm2PublicKey = sm2Component E s) ∧
    (r.1.sm2PublicKey = some (Bytes.zeros sm2UncompressedPublicKeyBytes) ∨
      r.1.sm2PublicKey = v.sm2PublicKey) ∧
    (∀ a, r.1.lastReport = some a →
      ∃ b, v.lastReport = some b ∧ Memory.ReportBelow a b) ∧
    ((∀ n, plan n = true) → r.1 = v) := by
  obtain ⟨R', ⟨rfl, hle, hfull⟩, hm'⟩ := Memory.tlcpHybridCertGmsslVerifyCallback_spec E now chain
    (some output) (some config) R m (by rwa [zero_add])
  rw [zero_add] at hm'
  refine ⟨hm', ?_, hle.buffer, hle.report, ?_⟩
  · intro hvalid
    obtain ⟨hv, hkey⟩ := hle.valid hvalid
    obtain ⟨root, s, e, hacc, hcomponent⟩ := Memory.callback_accepted hv
    exact ⟨root, s, e, hacc, hkey.trans hcomponent⟩
  · intro hno
    refine hfull.resolve_right ?_
    rintro ⟨n, hn⟩
    rw [hno n] at hn
    cases hn

namespace Toy

/-- The caller holds one object, and has made no request of the plan yet. -/
def callerMem : Refs.Mem := ⟨⟨1, []⟩, 0, false⟩

theorem callerMem_holds : callerMem.Holds {0} where
  owns := by
    have h := Refs.Arena.owns_empty.malloc true
    rwa [add_zero] at h
  sound := rfl

/-- The caller's key buffer, with old bytes in it. -/
def callerBuffer : Bytes := List.replicate 65 0xff

/-- The first request fails, the others are granted. -/
def firstFails (n : Nat) : Bool := decide (n ≠ 0)

/-- Without the first certificate the callback sees no Composite one. -/
theorem callback_firstFails {chain : Bytes} (hpos : chain.length ≠ 0)
    (hmax : chain.length ≤ longMax) {p : X509 × Nat} (hread : issueLib.d2iX509 chain = some p)
    (output : Bytes) (config : TlcpHybridCertAdapterConfig) :
    ((Memory.tlcpHybridCertGmsslVerifyCallback issueLib.toOpenssl issueTime (.buf chain)
      (some output) (some config) : Refs.Act firstFails CallbackOutcome) callerMem).1.result =
        .notApplicable := by
  have hnone : ((Memory.decodeNextCertificate issueLib.toOpenssl (.buf chain) :
      Refs.Act firstFails _) callerMem).1 = none := by
    have hlen : ¬ (chain.length = 0 ∨ longMax < chain.length) := by omega
    simp only [Memory.decodeNextCertificate, hlen, if_false, hread]
    rfl
  rw [Memory.tlcpHybridCertGmsslVerifyCallback, Refs.Act.bind_run, hnone]
  rfl

end Toy

/-- A message that is `VALID` when no request fails. Here the first certificate finds no memory: the
message is not accepted, what was allocated for the second one is released, and the caller's object
is not. -/
theorem callback_fails_closed_nomemory : ∃ chain config,
    let v := tlcpHybridCertGmsslVerifyCallback Toy.issueLib.toOpenssl Toy.issueTime chain
      (some Toy.callerBuffer) (some config)
    let r := (Memory.tlcpHybridCertGmsslVerifyCallback Toy.issueLib.toOpenssl Toy.issueTime chain
      (some Toy.callerBuffer) (some config) : Refs.Act Toy.firstFails CallbackOutcome) Toy.callerMem
    v.result = .valid ∧ r.1.result = .notApplicable ∧ r.2.Holds {0} ∧
    (r.1.sm2PublicKey = some (Bytes.zeros sm2UncompressedPublicKeyBytes) ∨
      r.1.sm2PublicKey = v.sm2PublicKey) := by
  obtain ⟨root, s, e, hrs, hre, hdual⟩ := Toy.dual_exists
  have hvalid := (callback_of_accepted Toy.callerBuffer hdual).1
  obtain ⟨_, _, _, _, hs, _⟩ := startsWith_iff.mp hdual.certificates
  obtain ⟨_, hpos, hmax, hread⟩ := decodeNextCertificate_some hs
  obtain ⟨hholds, _, hbuffer, _⟩ := callback_fails_closed Toy.issueLib.toOpenssl Toy.issueTime
    Toy.firstFails _ Toy.callerBuffer _ Toy.callerMem_holds
  exact ⟨_, _, hvalid, Toy.callback_firstFails (by omega) hmax hread Toy.callerBuffer _, hholds,
    hbuffer⟩

end HybridPqc
