import HybridPqc.Adapter.Callback
import HybridPqc.X509.ToyCerts

/-!
# Adapter.CallbackCorrect

What the adapter's verdicts mean.

* `tlcpHybridCertVerifyDer_valid_iff`: when one signing certificate is `VALID`, and what is then in
  the report and the key buffer.
* `tlcpHybridCertVerifyDer_notApplicable_iff`: when it is `NOT_APPLICABLE`.
* `callback_valid_iff`: the callback is `VALID` exactly for a dual-certificate message that
  satisfies `DualAccepted`.
* `callback_keeps_recognition_iff`: how far the callback recognises what the single-certificate
  verifier recognises. It hands an empty range to the verifier when the first certificate does not
  decode, so there the scan for the Composite OID finds nothing.
-/

namespace HybridPqc

section

variable {PKey : Type} {E : Openssl PKey} {now : Int}

/-! ## One signing certificate -/

variable (E) in
/-- The hostname is not configured, empty, or one `X509_check_host` accepts. -/
def HostnameMatches (certificate : X509) (expectedHostname : Option CString) : Prop :=
  ∀ h, expectedHostname = some h → h.val ≠ [] → E.checkHost certificate h.val = 1

theorem hostnameOk_iff {c : X509} {h : Option CString} :
    hostnameOk E c h = true ↔ HostnameMatches E c h := by
  cases h with
  | none => simp [hostnameOk, HostnameMatches]
  | some s => simp only [hostnameOk, HostnameMatches, Bool.or_eq_true, beq_iff_eq]; grind

theorem compositeAlgorithmsValid_iff {c : X509} :
    hybridX509CompositeAlgorithmsValid c = true ↔
      (IsComposite c.tbsCertificate.signature ∧ IsComposite c.signatureAlgorithm) ∧
        IsComposite c.tbsCertificate.subjectPublicKeyInfo.algor := by
  simp only [hybridX509CompositeAlgorithmsValid, Bool.and_eq_true, signatureAlgorithmsValid_iff,
    subjectPublicKeyIsComposite_iff]

theorem certificateMentionsComposite_of_inner {c : X509}
    (h : IsComposite c.tbsCertificate.signature) : certificateMentionsComposite c = true := by
  simp [certificateMentionsComposite, h.1]

/-- A parsed Composite key exports the last 65 bytes of the SPKI bit string. -/
theorem compositeGetSm2PublicKeyOctets_of_get {c : X509} {key : HybridPublicKey PKey}
    {output : Bytes} (hb : output.length = 65)
    (h : hybridX509GetCompositePublicKey E c = some key) :
    compositeGetSm2PublicKeyOctets E.toCrypto key output =
      (true, c.tbsCertificate.subjectPublicKeyInfo.publicKey.data.drop 1312) := by
  obtain ⟨_, _, hp⟩ := hybridX509GetCompositePublicKey_some h
  obtain ⟨k, hk, _, _, hk'⟩ := compositeParsePublicKey_some hp
  rw [compositeGetSm2PublicKeyOctets, hk]
  exact (serializeSm2PublicKey_some hb).2 _ (sm2Octets_of_parse hk')

variable (E now) in
/-- What `tlcp_hybrid_cert_verify_der` asks of the signing certificate `s` under `root`. -/
structure SigningAccepted (root s : X509) (expectedHostname : Option CString) : Prop where
  chain : ChainAccepted E now root s
  inner : IsComposite s.tbsCertificate.signature
  outer : IsComposite s.signatureAlgorithm
  spki : IsComposite s.tbsCertificate.subjectPublicKeyInfo.algor
  marker : SingleMarker s
  hostname : HostnameMatches E s expectedHostname
  leaf_key : ∃ key, hybridX509GetCompositePublicKey E s = some key

/-- The outcome for an accepted signing certificate. -/
theorem tlcpHybridCertVerifyDer_of_accepted {der anchor : CArg} {host : Option CString}
    (output : Bytes) {root s : X509} (hs : decodeDerStrict E der = some s)
    (hr : decodeDerStrict E anchor = some root) (h : SigningAccepted E now root s host) :
    let out := tlcpHybridCertVerifyDer E now der anchor host (some output)
    out.result = .valid ∧ out.report.compositeOk = true ∧
      out.sm2PublicKey = some (s.tbsCertificate.subjectPublicKeyInfo.publicKey.data.drop 1312) := by
  obtain ⟨key, hkey⟩ := h.leaf_key
  have hchain : (hybridVerifyChain E now (some root) (some s)).chainValid = true :=
    hybridVerifyChain_valid.mpr ⟨root, s, rfl, rfl, h.chain⟩
  have halg := compositeAlgorithmsValid_iff.mpr ⟨⟨h.inner, h.outer⟩, h.spki⟩
  have hget : tlcpHybridCertGetSm2SignPublicKey E der (Bytes.zeros sm2UncompressedPublicKeyBytes) =
      (true, s.tbsCertificate.subjectPublicKeyInfo.publicKey.data.drop 1312) := by
    simp [tlcpHybridCertGetSm2SignPublicKey, hs, halg, hkey,
      compositeGetSm2PublicKeyOctets_of_get (Bytes.zeros_length 65) hkey,
      sm2UncompressedPublicKeyBytes]
  simp [tlcpHybridCertVerifyDer, hs, hr, certificateMentionsComposite_of_inner h.inner,
    hybridVerifyChain_flags hchain, halg, hybridX509HasPqcExtension_iff.mpr h.marker,
    hostnameOk_iff.mpr h.hostname, hget, allFlags]

/-- A signing certificate is `VALID` exactly when it and the trust anchor decode, nothing following
either, and it is accepted under the anchor. -/
theorem tlcpHybridCertVerifyDer_valid_iff {der anchor : CArg} {host : Option CString}
    {output : Bytes} :
    (tlcpHybridCertVerifyDer E now der anchor host (some output)).result = .valid ↔
      ∃ root s, decodeDerStrict E der = some s ∧ decodeDerStrict E anchor = some root ∧
        SigningAccepted E now root s host := by
  constructor
  · intro h
    cases hs : decodeDerStrict E der with
    | none =>
      simp only [tlcpHybridCertVerifyDer, hs] at h
      split at h <;> cases h
    | some s =>
      cases hm : certificateMentionsComposite s with
      | false => simp [tlcpHybridCertVerifyDer, hs, hm] at h
      | true =>
        cases hr : decodeDerStrict E anchor with
        | none => simp [tlcpHybridCertVerifyDer, hs, hm, hr] at h
        | some root =>
          simp only [tlcpHybridCertVerifyDer, hs, hm, hr, if_true] at h
          split at h
          · cases h
          rename_i hc
          simp only [Bool.or_eq_true, Bool.not_eq_true', not_or, Bool.not_eq_false] at hc
          obtain ⟨⟨⟨halg, hmark⟩, hchain⟩, hhost⟩ := hc
          obtain ⟨r, s', hr', hs', hacc⟩ := hybridVerifyChain_valid.mp hchain
          cases hr'; cases hs'
          obtain ⟨⟨hin, hout⟩, hspki⟩ := compositeAlgorithmsValid_iff.mp halg
          refine ⟨root, s, rfl, rfl, hacc, hin, hout, hspki, hybridX509HasPqcExtension_iff.mp hmark,
            hostnameOk_iff.mp hhost, ?_⟩
          cases hk : hybridX509GetCompositePublicKey E s with
          | some key => exact ⟨key, rfl⟩
          | none => simp [tlcpHybridCertGetSm2SignPublicKey, hs, halg, hk] at h
  · rintro ⟨root, s, hs, hr, hacc⟩
    exact (tlcpHybridCertVerifyDer_of_accepted _ hs hr hacc).1

variable (E now) in
/-- What every verdict on one certificate has in common: the certificate decides between
`NOT_APPLICABLE` and the other two, and the dual flag is never set. -/
theorem tlcpHybridCertVerifyDer_cases (der anchor : CArg) (host : Option CString)
    (output : Option Bytes) :
    let out := tlcpHybridCertVerifyDer E now der anchor host output
    out.report.tlcpDualCertificateOk = false ∧
      match decodeDerStrict E der with
      | none => out.result = if containsCompositeOid der then .invalid else .notApplicable
      | some s =>
        if certificateMentionsComposite s then out.result = .valid ∨ out.result = .invalid
        else out.result = .notApplicable := by
  simp only [tlcpHybridCertVerifyDer]
  cases decodeDerStrict E der with
  | none => exact ⟨rfl, rfl⟩
  | some s =>
    cases hm : certificateMentionsComposite s with
    | false => simp [hm]
    | true =>
      simp only [hm, if_true]
      generalize hybridX509CompositeAlgorithmsValid s = alg
      cases decodeDerStrict E anchor
      all_goals
        dsimp only
        split
        · exact ⟨rfl, Or.inr rfl⟩
        · cases output with
          | none => exact ⟨rfl, Or.inr rfl⟩
          | some b =>
            rw [Option.map_some]
            dsimp only
            split
            · exact ⟨rfl, Or.inl rfl⟩
            · exact ⟨rfl, Or.inr rfl⟩

/-- `NOT_APPLICABLE` says that nothing Composite was seen: by the fields of a certificate that
decodes, by the byte scan of one that does not. -/
theorem tlcpHybridCertVerifyDer_notApplicable_iff {der anchor : CArg} {host : Option CString}
    {output : Option Bytes} :
    (tlcpHybridCertVerifyDer E now der anchor host output).result = .notApplicable ↔
      match decodeDerStrict E der with
      | none => containsCompositeOid der = false
      | some s => certificateMentionsComposite s = false := by
  have h := (tlcpHybridCertVerifyDer_cases E now der anchor host output).2
  cases hs : decodeDerStrict E der with
  | none => rw [hs] at h; rw [h]; cases containsCompositeOid der <;> simp
  | some s =>
    rw [hs] at h
    cases hm : certificateMentionsComposite s with
    | false => simpa [hm] using h
    | true =>
      simp only [hm, if_true] at h
      rcases h with h | h <;> simp [h, hm]

/-! ## The callback -/

/-- Where a report is asked for, the callback stores one with the given dual flag. -/
def ReportsDual (config : TlcpHybridCertAdapterConfig) (out : CallbackOutcome) (dualOk : Bool) :
    Prop :=
  ∃ report, out.lastReport = (if config.lastReport then some report else none) ∧
    report.tlcpDualCertificateOk = dualOk

theorem finishCallback_of_not_valid {config : TlcpHybridCertAdapterConfig}
    {signing encryption : Option X509} {out : VerifyDerOutcome} (h : out.result ≠ .valid) :
    finishCallback E now config signing encryption out =
      ⟨out.result, out.sm2PublicKey, if config.lastReport then some out.report else none⟩ := by
  simp [finishCallback, h]

variable (E now) in
/-- After a `VALID` signing certificate the verdict is the dual flag, also in the report. -/
theorem finishCallback_of_valid (config : TlcpHybridCertAdapterConfig)
    (signing encryption : Option X509) {out : VerifyDerOutcome} (h : out.result = .valid) :
    let dualOk := out.report.compositeOk &&
      (hybridVerifyEncryptionCertificate E now encryption
        (decodeDerStrict E config.trustAnchorDer)).certificateValid &&
      dualIdentityOk E signing encryption
    let fin := finishCallback E now config signing encryption out
    fin.result = (if dualOk then .valid else .invalid) ∧ fin.sm2PublicKey = out.sm2PublicKey ∧
      ReportsDual config fin dualOk := by
  simp only [finishCallback, h, if_true]
  exact ⟨trivial, trivial, _, rfl, rfl⟩

theorem finishCallback_notApplicable {config : TlcpHybridCertAdapterConfig}
    {signing encryption : Option X509} {out : VerifyDerOutcome} :
    (finishCallback E now config signing encryption out).result = .notApplicable ↔
      out.result = .notApplicable := by
  by_cases h : out.result = .valid
  · rw [(finishCallback_of_valid E now config signing encryption h).1, h]
    split <;> simp
  · rw [finishCallback_of_not_valid h]

/-- The verifier's answer on an empty range. -/
theorem tlcpHybridCertVerifyDer_empty {der anchor : CArg} {host : Option CString}
    {output : Option Bytes} (h : der = .null 0 ∨ der = .buf []) :
    (tlcpHybridCertVerifyDer E now der anchor host output).result = .notApplicable := by
  rw [tlcpHybridCertVerifyDer_notApplicable_iff]
  rcases h with rfl | rfl <;> simp [decodeDerStrict, containsCompositeOid, compositeOidDer]

/-- Without a first certificate the callback is `NOT_APPLICABLE`, whatever the bytes are. -/
theorem callback_of_no_certificate {chain : CArg} {output : Option Bytes}
    {config : TlcpHybridCertAdapterConfig} (h : decodeNextCertificate E chain = none) :
    (tlcpHybridCertGmsslVerifyCallback E now chain output (some config)).result =
      .notApplicable := by
  simp only [tlcpHybridCertGmsslVerifyCallback, h]
  rw [finishCallback_notApplicable]
  refine tlcpHybridCertVerifyDer_empty ?_
  cases chain with
  | null n => exact Or.inl rfl
  | buf b => exact Or.inr rfl

/-- A `VALID` callback has read two certificates, one behind the other. -/
theorem callback_valid_decodes {chain : CArg} {output : Option Bytes}
    {arg : Option TlcpHybridCertAdapterConfig}
    (h : (tlcpHybridCertGmsslVerifyCallback E now chain output arg).result = .valid) :
    ∃ s a r e b r', decodeNextCertificate E chain = some (s, a, r) ∧
      decodeNextCertificate E (.buf r) = some (e, b, r') := by
  cases arg with
  | none => cases h
  | some config =>
    cases hn : decodeNextCertificate E chain with
    | none =>
      rw [callback_of_no_certificate hn] at h
      cases h
    | some p =>
      obtain ⟨s, a, r⟩ := p
      refine ⟨s, a, r, ?_⟩
      simp only [tlcpHybridCertGmsslVerifyCallback, hn] at h
      cases hne : decodeNextCertificate E (.buf r) with
      | some q => exact ⟨q.1, q.2.1, q.2.2, rfl, rfl⟩
      | none =>
        rw [hne] at h
        by_cases hv : (tlcpHybridCertVerifyDer E now (.buf a) config.trustAnchorDer
            config.expectedHostname output).result = .valid
        · rw [(finishCallback_of_valid E now config (some s) _ hv).1] at h
          simp [dualIdentityOk] at h
        · rw [finishCallback_of_not_valid hv] at h
          exact (hv h).elim

/-- With one, the callback is `NOT_APPLICABLE` when the verifier is. -/
theorem callback_notApplicable_iff {chain : CArg} {output : Option Bytes}
    {config : TlcpHybridCertAdapterConfig} {s : X509} {a r : Bytes}
    (h : decodeNextCertificate E chain = some (s, a, r)) :
    (tlcpHybridCertGmsslVerifyCallback E now chain output (some config)).result = .notApplicable ↔
      certificateMentionsComposite s = false := by
  have ha := decodeDerStrict_of_next h
  simp only [tlcpHybridCertGmsslVerifyCallback, h, finishCallback_notApplicable,
    tlcpHybridCertVerifyDer_notApplicable_iff, ha]

section

variable (E)

/-- `der` is the encoding of `c` with nothing after it. -/
def DecodesTo (der : CArg) (c : X509) : Prop :=
  ∃ b, der = .buf b ∧ b.length ≤ longMax ∧ E.d2iX509 b = some (c, b.length)

/-- `chain` starts with an encoding of `s` and goes on with one of `e`. -/
def StartsWith (chain : CArg) (s e : X509) : Prop :=
  ∃ a b rest, chain = .buf (a ++ (b ++ rest)) ∧ (a ++ (b ++ rest)).length ≤ longMax ∧
    E.d2iX509 (a ++ (b ++ rest)) = some (s, a.length) ∧ E.d2iX509 (b ++ rest) = some (e, b.length)

/-- The SM2 component of a certificate's Composite key. -/
def sm2Component (c : X509) : Option Bytes :=
  ((hybridX509GetCompositePublicKey E c).bind (·.sm2PublicKey)).bind (sm2Octets E.toCrypto)

/-- A TLCP dual-certificate message that satisfies the profile: signing certificate `s`, encryption
certificate `e`, both issued by the configured trust anchor `root`. -/
structure DualAccepted (now : Int) (config : TlcpHybridCertAdapterConfig) (chain : CArg)
    (root s e : X509) : Prop where
  certificates : StartsWith E chain s e
  anchor : DecodesTo E config.trustAnchorDer root
  signing : SigningAccepted E now root s config.expectedHostname
  encryption : ∃ key, EncryptionAccepted E now root e key
  subject : E.nameCanon s.tbsCertificate.subject = E.nameCanon e.tbsCertificate.subject
  issuer : E.nameCanon s.tbsCertificate.issuer = E.nameCanon e.tbsCertificate.issuer

end

theorem decodesTo_iff {der : CArg} {c : X509} :
    DecodesTo E der c ↔ decodeDerStrict E der = some c := by
  cases der with
  | null n => simp [DecodesTo, decodeDerStrict]
  | buf b =>
    rw [decodeDerStrict_some]
    constructor
    · rintro ⟨b', hb, hl, hd⟩
      cases hb
      exact ⟨(E.d2iX509_pos hd).1, hl, hd⟩
    · rintro ⟨_, hl, hd⟩
      exact ⟨b, rfl, hl, hd⟩

theorem startsWith_iff {chain : CArg} {s e : X509} :
    StartsWith E chain s e ↔
      ∃ a r b r', decodeNextCertificate E chain = some (s, a, r) ∧
        decodeNextCertificate E (.buf r) = some (e, b, r') := by
  constructor
  · rintro ⟨a, b, rest, rfl, hl, hs, he⟩
    have ha := E.d2iX509_pos hs
    have hb := E.d2iX509_pos he
    simp only [List.length_append] at hl ha hb
    refine ⟨a, b ++ rest, b, rest, ?_, ?_⟩
    · simp only [decodeNextCertificate, hs]
      rw [if_neg (by simp only [List.length_append]; omega),
        if_neg (by simp only [List.length_append]; omega)]
      simp
    · simp only [decodeNextCertificate, he]
      rw [if_neg (by simp only [List.length_append]; omega),
        if_neg (by simp only [List.length_append]; omega)]
      simp
  · rintro ⟨a, r, b, r', hs, he⟩
    cases chain with
    | null n => cases hs
    | buf c =>
      obtain ⟨rfl, _, hl, hs⟩ := decodeNextCertificate_some hs
      obtain ⟨rfl, _, _, he⟩ := decodeNextCertificate_some he
      exact ⟨a, b, r', rfl, hl, hs, he⟩

/-- The outcome for an accepted message. -/
theorem callback_of_accepted {chain : CArg} (output : Bytes)
    {config : TlcpHybridCertAdapterConfig} {root s e : X509}
    (h : DualAccepted E now config chain root s e) :
    let out := tlcpHybridCertGmsslVerifyCallback E now chain (some output) (some config)
    out.result = .valid ∧
      out.sm2PublicKey = some (s.tbsCertificate.subjectPublicKeyInfo.publicKey.data.drop 1312) ∧
      ReportsDual config out true := by
  obtain ⟨a, r, b, r', hs, he⟩ := startsWith_iff.mp h.certificates
  have hanchor := decodesTo_iff.mp h.anchor
  obtain ⟨hv, hcomp, hkey⟩ := tlcpHybridCertVerifyDer_of_accepted output
    (decodeDerStrict_of_next hs) hanchor h.signing
  have henc := hybridVerifyEncryptionCertificate_valid.mpr h.encryption
  have hid : dualIdentityOk E (some s) (some e) = true := by
    simp [dualIdentityOk, h.subject, h.issuer]
  obtain ⟨h1, h2, h3⟩ := finishCallback_of_valid E now config (some s) (some e) hv
  simp only [hcomp, hanchor, henc, hid, Bool.and_self, if_true] at h1 h3
  simp only [tlcpHybridCertGmsslVerifyCallback, hs, he, Option.map_some]
  exact ⟨h1, h2.trans hkey, h3⟩

/-- A message that is not accepted is not `VALID` and leaves the dual flag off. -/
theorem callback_of_not_accepted {chain : CArg} (output : Bytes)
    {config : TlcpHybridCertAdapterConfig}
    (h : ∀ root s e, ¬ DualAccepted E now config chain root s e) :
    let out := tlcpHybridCertGmsslVerifyCallback E now chain (some output) (some config)
    out.result ≠ .valid ∧ ReportsDual config out false := by
  suffices hfin : ∀ signing encryption out,
      out.report.tlcpDualCertificateOk = false →
      (out.result = .valid →
        (out.report.compositeOk && (hybridVerifyEncryptionCertificate E now encryption
          (decodeDerStrict E config.trustAnchorDer)).certificateValid &&
          dualIdentityOk E signing encryption) = false) →
      let fin := finishCallback E now config signing encryption out
      fin.result ≠ .valid ∧ ReportsDual config fin false by
    simp only [tlcpHybridCertGmsslVerifyCallback]
    split
    · rename_i s a r hds
      refine hfin _ _ _ (tlcpHybridCertVerifyDer_cases _ _ _ _ _ _).1 fun hv => ?_
      obtain ⟨root, s', hs, hr, hacc⟩ := tlcpHybridCertVerifyDer_valid_iff.mp hv
      rw [decodeDerStrict_of_next hds] at hs; cases hs
      -- were the dual check to pass, the message would be accepted
      rw [Bool.eq_false_iff]
      intro hdual
      simp only [Bool.and_eq_true] at hdual
      obtain ⟨⟨_, henc⟩, hid⟩ := hdual
      cases hde : decodeNextCertificate E (.buf r) with
      | none => rw [hde] at hid; cases hid
      | some q =>
        obtain ⟨e, b, r'⟩ := q
        rw [hde] at henc hid
        rw [hr] at henc
        simp only [Option.map_some, dualIdentityOk, Bool.and_eq_true, beq_iff_eq,
          Openssl.x509NameCmp_eq_zero] at hid
        exact h root s e ⟨startsWith_iff.mpr ⟨a, r, b, r', hds, hde⟩, decodesTo_iff.mpr hr, hacc,
          hybridVerifyEncryptionCertificate_valid.mp henc, hid.1, hid.2⟩
    · refine hfin _ _ _ (tlcpHybridCertVerifyDer_cases _ _ _ _ _ _).1 fun hv => ?_
      rw [tlcpHybridCertVerifyDer_empty (by cases chain <;> simp)] at hv
      cases hv
  intro signing encryption out hrep hdual
  by_cases hv : out.result = .valid
  · obtain ⟨h1, _, h3⟩ := finishCallback_of_valid E now config signing encryption hv
    rw [hdual hv] at h1 h3
    exact ⟨by rw [h1]; simp, h3⟩
  · rw [finishCallback_of_not_valid hv]
    exact ⟨hv, out.report, rfl, hrep⟩

theorem startsWith_unique {chain : CArg} {s e s' e' : X509} (h : StartsWith E chain s e)
    (h' : StartsWith E chain s' e') : s = s' ∧ e = e' := by
  obtain ⟨a, r, b, t, h1, h2⟩ := startsWith_iff.mp h
  obtain ⟨a', r', b', t', h1', h2'⟩ := startsWith_iff.mp h'
  rw [h1] at h1'; cases h1'
  rw [h2] at h2'; cases h2'
  exact ⟨rfl, rfl⟩

/-- Both issuer signatures of an accepted message verify, component by component, under the
anchor's key. -/
theorem DualAccepted.verifies {config : TlcpHybridCertAdapterConfig} {chain : CArg}
    {root s e : X509} {key : HybridPublicKey PKey} (h : DualAccepted E now config chain root s e)
    (hkey : hybridX509GetCompositePublicKey E root = some key) :
    (DilithiumVerifies E key s ∧ Sm2Verifies E key s) ∧
      DilithiumVerifies E key e ∧ Sm2Verifies E key e := by
  obtain ⟨k, _, hs⟩ := h.signing.chain
  obtain ⟨k', he⟩ := h.encryption
  have h1 := hs.key_parsed
  have h2 := he.key_parsed
  rw [hkey] at h1 h2; cases h1; cases h2
  exact ⟨⟨hs.dilithium, hs.sm2⟩, he.dilithium, he.sm2⟩

theorem sm2Component_of_get {c : X509} {key : HybridPublicKey PKey}
    (h : hybridX509GetCompositePublicKey E c = some key) :
    let octets := c.tbsCertificate.subjectPublicKeyInfo.publicKey.data.drop 1312
    octets.length = 65 ∧ sm2Component E c = some octets := by
  obtain ⟨_, _, hp⟩ := hybridX509GetCompositePublicKey_some h
  obtain ⟨k, hk, _, _, hk'⟩ := compositeParsePublicKey_some hp
  have ho := sm2Octets_of_parse hk'
  exact ⟨sm2Octets_length ho, by simp [sm2Component, h, hk, ho]⟩

/-- **The dual-certificate verdict.** With a configuration and a key buffer the callback is `VALID`
exactly for messages that satisfy `DualAccepted`, and a report that is asked for has its dual flag
on in the same cases; the 65 bytes returned are then the SM2 component of the signing certificate.
A component of either issuer signature that does not verify under the anchor's key rules `VALID`
out. -/
theorem callback_valid_iff {PKey : Type} (E : Openssl PKey) (now : Int) (chain : CArg)
    (output : Bytes) (config : TlcpHybridCertAdapterConfig) :
    let out := tlcpHybridCertGmsslVerifyCallback E now chain (some output) (some config)
    (out.result = .valid ↔ ∃ root s e, DualAccepted E now config chain root s e) ∧
    (config.lastReport = true → ∃ report, out.lastReport = some report ∧
      (report.tlcpDualCertificateOk = true ↔
        ∃ root s e, DualAccepted E now config chain root s e)) ∧
    (∀ root s e, DualAccepted E now config chain root s e →
      ∃ octets, octets.length = 65 ∧ sm2Component E s = some octets ∧
        out.sm2PublicKey = some octets) ∧
    (∀ root s e key, DecodesTo E config.trustAnchorDer root → StartsWith E chain s e →
      hybridX509GetCompositePublicKey E root = some key →
      (¬ DilithiumVerifies E key s ∨ ¬ Sm2Verifies E key s ∨
        ¬ DilithiumVerifies E key e ∨ ¬ Sm2Verifies E key e) → out.result ≠ .valid) := by
  have hvalid : (tlcpHybridCertGmsslVerifyCallback E now chain (some output)
      (some config)).result = .valid ↔ ∃ root s e, DualAccepted E now config chain root s e := by
    refine ⟨fun hv => ?_, fun ⟨root, s, e, h⟩ => (callback_of_accepted output h).1⟩
    by_contra hn
    exact (callback_of_not_accepted output fun root s e h => hn ⟨root, s, e, h⟩).1 hv
  refine ⟨hvalid, fun hl => ?_, fun root s e h => ?_, fun root s e key hr hc hkey hbad hv => ?_⟩
  · by_cases hacc : ∃ root s e, DualAccepted E now config chain root s e
    · obtain ⟨root, s, e, h⟩ := hacc
      obtain ⟨report, hrep, hd⟩ := (callback_of_accepted output h).2.2
      rw [if_pos hl] at hrep
      exact ⟨report, hrep, fun _ => ⟨root, s, e, h⟩, fun _ => hd⟩
    · obtain ⟨report, hrep, hd⟩ := (callback_of_not_accepted output
        fun root s e h => hacc ⟨root, s, e, h⟩).2
      rw [if_pos hl] at hrep
      exact ⟨report, hrep, by simp only [hd, Bool.false_eq_true, hacc]⟩
  · obtain ⟨key, hkey⟩ := h.signing.leaf_key
    obtain ⟨hl, hc⟩ := sm2Component_of_get hkey
    exact ⟨_, hl, hc, (callback_of_accepted output h).2.1⟩
  · obtain ⟨root', s', e', h⟩ := hvalid.mp hv
    have hr' := decodesTo_iff.mp h.anchor
    rw [decodesTo_iff.mp hr] at hr'; cases hr'
    obtain ⟨rfl, rfl⟩ := startsWith_unique hc h.certificates
    obtain ⟨⟨h1, h2⟩, h3, h4⟩ := h.verifies hkey
    rcases hbad with hb | hb | hb | hb
    · exact hb h1
    · exact hb h2
    · exact hb h3
    · exact hb h4

variable (E) in
/-- What the first element must be for the callback to see what is Composite in it: it does not
hold the OID without decoding, and a recognised certificate is not in a chain longer than
`LONG_MAX`. -/
def RecognitionSurvives (e rest : Bytes) : Prop :=
  match decodeDerStrict E (.buf e) with
  | none => containsCompositeOid (.buf e) = false
  | some c => certificateMentionsComposite c = true → (e ++ rest).length ≤ longMax

/-- **Fail-closed recognition.** On a chain that starts with the complete element `e`, the callback
carries over what the single-certificate verifier recognises in `e` exactly under
`RecognitionSurvives`. -/
theorem callback_keeps_recognition_iff {PKey : Type} (E : Openssl PKey) (now : Int)
    {e rest : Bytes} (he : Ber.IsTlv 0x30 e) (config : TlcpHybridCertAdapterConfig)
    (output output' : Option Bytes) :
    ((tlcpHybridCertVerifyDer E now (.buf e) config.trustAnchorDer config.expectedHostname
        output).result ≠ .notApplicable →
      (tlcpHybridCertGmsslVerifyCallback E now (.buf (e ++ rest)) output' (some config)).result ≠
        .notApplicable) ↔
      RecognitionSurvives E e rest := by
  simp only [Ne, tlcpHybridCertVerifyDer_notApplicable_iff, RecognitionSurvives]
  cases hn : decodeNextCertificate E (.buf (e ++ rest)) with
  | none =>
    rw [callback_of_no_certificate hn]
    rw [decodeNextCertificate_tlv he] at hn
    cases hd : decodeDerStrict E (.buf e) with
    | none => simp
    | some c =>
      have hl : ¬ (e ++ rest).length ≤ longMax := fun hl => by
        rw [if_pos hl, hd] at hn; cases hn
      simp [hl, -List.length_append]
  | some p =>
    obtain ⟨s, a, r⟩ := p
    rw [callback_notApplicable_iff hn]
    rw [decodeNextCertificate_tlv he] at hn
    split at hn
    · rename_i hl
      obtain ⟨c, hd, hc⟩ := Option.map_eq_some_iff.mp hn
      cases hc
      simp [hd, hl, -List.length_append]
    · cases hn

end

namespace Toy

open Ber

theorem decodeDerStrict_eq {c : X509} (h : Reread c) :
    decodeDerStrict issueLib.toOpenssl (.buf (encode c.toBer)) = some c := by
  have hl := h.length_le
  have hpos := encode_length_pos c.toBer
  exact decodeDerStrict_some.mpr ⟨by omega, by simp only [longMax]; omega, h.d2iX509_eq⟩

theorem isTlv_encode {c : X509} (h : Reread c) : IsTlv 0x30 (encode c.toBer) := by
  have hl := h.length_le
  have hlen : (encode c.toBer).length ≤ maxLen := by simp only [maxLen]; omega
  obtain ⟨es, hes⟩ : ∃ es, c.toBer = .cons 0x30 es := ⟨_, rfl⟩
  rw [hes] at hlen ⊢
  simp only [encode, List.length_cons, List.length_append] at hlen ⊢
  exact ⟨_, _, readHeader_encode false (by decide) (by omega) _, rfl⟩

/-- The sample server certificate is accepted as a signing certificate. -/
theorem signingAccepted_of_issued {root server : X509}
    (hroot : hybridX509CreateRoot issueLib issueTime (privateKey 1) (publicKey 1) rootName [] =
      some root)
    (hserver : hybridX509CreateServer issueLib issueTime (privateKey 1) (publicKey 1) (publicKey 2)
      root serverName (some serverName) [] = some server) :
    SigningAccepted issueLib.toOpenssl issueTime root server none := by
  obtain ⟨key, hi⟩ := hybridX509CreateRoot_issued asn1Correct confCorrect sm2Imports sm2Correct
    (keyPair 1) hroot
  obtain ⟨hmatches, hacc⟩ := hybridX509CreateServer_accepted asn1Correct confCorrect sm2Imports
    sm2Correct (keyPair 1) hi hserver
  have hs := hacc issueTime (by decide) (by decide)
  have hleaf : ∃ k, hybridX509GetCompositePublicKey issueLib.toOpenssl server = some k := by
    unfold hybridX509PublicKeyMatches at hmatches
    split at hmatches
    · cases hmatches
    · exact ⟨_, ‹_›⟩
  exact {
    chain := ⟨key, hi.accepted issueTime (by decide) (by decide), hs⟩
    inner := hs.inner
    outer := hs.outer
    spki := hs.spki
    marker := hs.marker
    hostname := fun _ h => nomatch h
    leaf_key := hleaf }

theorem signing_exists : ∃ root server, Reread root ∧ Reread server ∧
    SigningAccepted issueLib.toOpenssl issueTime root server none := by
  obtain ⟨root, server, hroot, hserver, hrr, hrs⟩ := server_exists serverName_writable
  exact ⟨root, server, hrr, hrs, signingAccepted_of_issued hroot hserver⟩

/-- Two sample certificates under one root make an accepted message. -/
theorem dual_exists : ∃ root s e, Reread s ∧ Reread e ∧
    DualAccepted issueLib.toOpenssl issueTime ⟨.buf (encode root.toBer), none, false⟩
      (.buf (encode s.toBer ++ encode e.toBer)) root s e := by
  obtain ⟨root, s, hroot, hs, hrr, hrs⟩ := server_exists serverName_writable
  obtain ⟨e, he, hre⟩ := encryption_exists hroot
  obtain ⟨key, hi⟩ := hybridX509CreateRoot_issued asn1Correct confCorrect sm2Imports sm2Correct
    (keyPair 1) hroot
  obtain ⟨_, hacc⟩ := hybridX509CreateSm2Encryption_accepted asn1Correct confCorrect sm2SpkiCorrect
    sm2Correct (keyPair 1) hi he
  obtain ⟨hsubject, hissuer⟩ := hybridX509Create_names asn1Correct hs he
  have hls := hrs.length_le
  have hle := hre.length_le
  have hnext : decodeNextCertificate issueLib.toOpenssl (.buf (encode s.toBer ++ encode e.toBer)) =
      some (s, encode s.toBer, encode e.toBer) := by
    rw [decodeNextCertificate_tlv (isTlv_encode hrs), if_pos, decodeDerStrict_eq hrs]
    · rfl
    · rw [List.length_append]; simp only [longMax]; omega
  have hlast : decodeNextCertificate issueLib.toOpenssl (.buf (encode e.toBer)) =
      some (e, encode e.toBer, []) := by
    have h := decodeNextCertificate_tlv (E := issueLib.toOpenssl) (r := []) (isTlv_encode hre)
    rw [List.append_nil, if_pos (by simp only [longMax]; omega), decodeDerStrict_eq hre] at h
    exact h
  exact ⟨root, s, e, hrs, hre, {
    certificates := startsWith_iff.mpr ⟨_, _, _, _, hnext, hlast⟩
    anchor := decodesTo_iff.mpr (decodeDerStrict_eq hrr)
    signing := signingAccepted_of_issued hroot hs
    encryption := ⟨key, hacc issueTime (by decide) (by decide)⟩
    subject := by rw [hsubject]
    issuer := by rw [hissuer] }⟩

/-- A SEQUENCE of the Composite OID alone. -/
def oidOnly : Bytes := 0x30 :: 0x0c :: compositeOidDer

def noAnchor : TlcpHybridCertAdapterConfig := ⟨.null 0, none, false⟩

end Toy

theorem callback_keeps_recognition_issued : ∃ e root,
    let config : TlcpHybridCertAdapterConfig := ⟨.buf root, none, false⟩
    (tlcpHybridCertVerifyDer Toy.issueLib.toOpenssl Toy.issueTime (.buf e) config.trustAnchorDer
      config.expectedHostname (some [])).result = .valid ∧
    (tlcpHybridCertGmsslVerifyCallback Toy.issueLib.toOpenssl Toy.issueTime (.buf (e ++ [0]))
      (some []) (some config)).result ≠ .notApplicable := by
  obtain ⟨root, server, hrr, hrs, hacc⟩ := Toy.signing_exists
  have hd := Toy.decodeDerStrict_eq hrs
  have hl := hrs.length_le
  have hvalid : (tlcpHybridCertVerifyDer Toy.issueLib.toOpenssl Toy.issueTime
      (.buf (Ber.encode server.toBer)) (.buf (Ber.encode root.toBer)) none (some [])).result =
      .valid :=
    tlcpHybridCertVerifyDer_valid_iff.mpr
      ⟨root, server, hd, Toy.decodeDerStrict_eq hrr, hacc⟩
  refine ⟨Ber.encode server.toBer, Ber.encode root.toBer, hvalid, ?_⟩
  refine (callback_keeps_recognition_iff Toy.issueLib.toOpenssl Toy.issueTime
    (Toy.isTlv_encode hrs) ⟨.buf (Ber.encode root.toBer), none, false⟩ (some []) (some [])).mpr
      ?_ ?_
  · unfold RecognitionSurvives
    rw [hd]
    intro _
    simp only [List.length_append, List.length_singleton, longMax]
    omega
  · rw [hvalid]
    decide

/-- The element holds the Composite OID and is no certificate: `INVALID` on its own, and
`NOT_APPLICABLE` as the first element of a chain. -/
theorem callback_drops_recognition :
    Ber.IsTlv 0x30 Toy.oidOnly ∧
    (tlcpHybridCertVerifyDer Toy.issueLib.toOpenssl Toy.issueTime (.buf Toy.oidOnly) (.null 0) none
      none).result = .invalid ∧
    (tlcpHybridCertGmsslVerifyCallback Toy.issueLib.toOpenssl Toy.issueTime (.buf Toy.oidOnly) none
      (some Toy.noAnchor)).result = .notApplicable := by
  refine ⟨⟨12, compositeOidDer, by decide, rfl⟩, ?_, ?_⟩
  · decide +kernel
  · decide +kernel

end HybridPqc
