import HybridPqc.X509.Chain

/-!
# X509.ChainCorrect

What `hybrid_verify_chain` accepts.

`ChainAccepted` lists the conditions on a pair of certificates in terms of their decoded fields.
Each check of `X509.Chain` has one lemma that says when it holds; `verifyCertificateSignature_valid`
reads the signature check, and `hybrid_verify_chain_accepts_iff` puts them together: the chain is
accepted exactly under `ChainAccepted`, and then every flag but the SM2 one is set.
-/

namespace HybridPqc

section

variable {PKey : Type} (E : Openssl PKey)

/-! ## Signatures -/

/-- `d` and `s` are the two parts of the certificate's signature value, `m` is the message `M'` of
its TBS bytes with empty context. -/
def SignedParts (certificate : X509) (d s m : Bytes) : Prop :=
  ∃ tbsDer, E.i2dReX509Tbs certificate.tbsCertificate = some tbsDer ∧ tbsDer ≠ [] ∧
    certificate.signatureValue.unusedBits = 0 ∧
    compositeParseSignature E.toCrypto certificate.signatureValue.data = some (d, s) ∧
    compositeBuildMessage E.toCrypto (.buf tbsDer) (.null 0) = some m

/-- The Dilithium2 component of the certificate's signature verifies under `key`. -/
def DilithiumVerifies (key : HybridPublicKey PKey) (certificate : X509) : Prop :=
  ∃ d s m, SignedParts E certificate d s m ∧
    dilithiumVerify E.toCrypto key.dilithiumPublicKey m d = true

/-- The SM2 component of the certificate's signature verifies under `key`. -/
def Sm2Verifies (key : HybridPublicKey PKey) (certificate : X509) : Prop :=
  ∃ d s m sm2, SignedParts E certificate d s m ∧ key.sm2PublicKey = some sm2 ∧
    hybridSm2Verify E.toCrypto sm2 m s = true

variable {E}

theorem SignedParts.unique {c : X509} {d s m d' s' m' : Bytes} (h : SignedParts E c d s m)
    (h' : SignedParts E c d' s' m') : d = d' ∧ s = s' ∧ m = m' := by
  obtain ⟨t, ht, _, _, hp, hm⟩ := h
  obtain ⟨t', ht', _, _, hp', hm'⟩ := h'
  rw [ht] at ht'; cases ht'
  rw [hp] at hp'; cases hp'
  rw [hm] at hm'; cases hm'
  exact ⟨rfl, rfl, rfl⟩

theorem hybridX509GetSignature_eq {c : X509} {sig : Bytes} :
    hybridX509GetSignature c = some sig ↔
      c.signatureValue.unusedBits = 0 ∧ c.signatureValue.data.length ≠ 0 ∧
        c.signatureValue.data = sig := by
  simp only [hybridX509GetSignature]
  split
  · rename_i h
    simp only [reduceCtorEq, false_iff]
    rintro ⟨h1, h2, _⟩
    rcases h with h | h
    · exact h h1
    · exact h2 h
  · rename_i h
    simp only [not_or, not_not] at h
    simp [h.1, h.2]

theorem hybridX509GetTbsDer_eq {c : X509} {m : Bytes} :
    hybridX509GetTbsDer E c = some m ↔ E.i2dReX509Tbs c.tbsCertificate = some m ∧ m ≠ [] := by
  simp only [hybridX509GetTbsDer]
  cases E.i2dReX509Tbs c.tbsCertificate with
  | none => simp
  | some o =>
    by_cases ho : o = []
    · simp only [ho, List.length_nil, if_true, reduceCtorEq, Option.some.injEq, false_iff]
      rintro ⟨rfl, h⟩; exact h rfl
    · have hl : o.length ≠ 0 := fun h => ho (List.eq_nil_of_length_eq_zero h)
      simp only [hl, if_false, Option.some.injEq]
      constructor
      · rintro rfl; exact ⟨rfl, ho⟩
      · rintro ⟨rfl, _⟩; rfl

/-- The signature check sets the four signature flags and no other, and `composite_valid` exactly
when both components verify under the issuer's key. -/
theorem verifyCertificateSignature_valid {c : X509} {key : HybridPublicKey PKey}
    {r : HybridCertVerifyResult} (hr : r.compositeValid = false) :
    (verifyCertificateSignature E c key r).compositeValid = true ↔
      DilithiumVerifies E key c ∧ Sm2Verifies E key c := by
  constructor
  · intro h
    simp only [verifyCertificateSignature] at h
    split at h
    · rename_i tbs sig ht hs
      obtain ⟨sm2, d, s, m, hk, hp, hm, hd, hv⟩ := compositeVerifyDetailed_valid_iff.mp h
      obtain ⟨ht1, ht2⟩ := hybridX509GetTbsDer_eq.mp ht
      obtain ⟨hu, _, rfl⟩ := hybridX509GetSignature_eq.mp hs
      have hsp : SignedParts E c d s m := ⟨tbs, ht1, ht2, hu, hp, hm⟩
      exact ⟨⟨d, s, m, hsp, hd⟩, ⟨d, s, m, sm2, hsp, hk, hv⟩⟩
    · rw [hr] at h; cases h
  · rintro ⟨⟨d, s, m, hsp, hd⟩, ⟨d', s', m', sm2, hsp', hk, hv⟩⟩
    obtain ⟨rfl, rfl, rfl⟩ := hsp.unique hsp'
    obtain ⟨tbs, ht1, ht2, hu, hp, hm⟩ := hsp
    have hlen : c.signatureValue.data.length ≠ 0 := by
      intro h0
      simp [compositeParseSignature, h0] at hp
    have ht := hybridX509GetTbsDer_eq.mpr ⟨ht1, ht2⟩
    have hs := hybridX509GetSignature_eq.mpr ⟨hu, hlen, rfl⟩
    simp only [verifyCertificateSignature, ht, hs]
    exact compositeVerifyDetailed_valid_iff.mpr ⟨sm2, d, s, m, hk, hp, hm, hd, hv⟩

theorem verifyCertificateSignature_eq_of_valid {c : X509} {key : HybridPublicKey PKey}
    {r : HybridCertVerifyResult} (hr : r.compositeValid = false)
    (h : (verifyCertificateSignature E c key r).compositeValid = true) :
    verifyCertificateSignature E c key r =
      { r with signatureFormatValid := true, dilithiumValid := true, sm2Valid := true,
               compositeValid := true } := by
  simp only [verifyCertificateSignature] at h ⊢
  split at h
  · simp [compositeVerifyDetailed_eq_of_valid h]
  · rw [hr] at h; cases h

/-! ## Profile conditions -/

variable (E)

/-- `notBefore <= now < notAfter`, as `X509_cmp_time` orders times. -/
def InValidityPeriod (now : Int) (c : X509) : Prop :=
  E.cmpTime c.tbsCertificate.validity.notBefore now < 0 ∧
    0 < E.cmpTime c.tbsCertificate.validity.notAfter now

/-- Critical BasicConstraints with the given CA flag, critical KeyUsage with the bits `set` on and
the bits `clear` off. -/
def ConstraintsAre (c : X509) (ca : Bool) (set clear : List Nat) : Prop :=
  c.getExtD2i nidBasicConstraints E.d2iBasicConstraints = some (⟨ca⟩, true) ∧
  ∃ usage, c.getExtD2i nidKeyUsage E.d2iKeyUsage = some (usage, true) ∧
    (∀ n ∈ set, usage.getBit n = true) ∧ ∀ n ∈ clear, usage.getBit n = false

/-- `keyCertSign` and `cRLSign` on, the signing and encryption bits off. -/
def CaConstraints (c : X509) : Prop := ConstraintsAre E c true [5, 6] [0, 2, 3, 4]

/-- `digitalSignature` on, the encryption and CA bits off. -/
def LeafConstraints (c : X509) : Prop := ConstraintsAre E c false [0] [2, 3, 4, 5, 6]

/-- `keyEncipherment` and `keyAgreement` on, the signing and CA bits off. -/
def EncryptionConstraints (c : X509) : Prop := ConstraintsAre E c false [2, 4] [0, 5, 6]

def ServerEku (c : X509) : Prop :=
  ∃ usage critical, c.getExtD2i nidExtKeyUsage E.d2iExtKeyUsage = some (usage, critical) ∧
    nidServerAuth ∈ usage

def ServerSan (c : X509) : Prop :=
  ∃ names critical, c.getExtD2i nidSubjectAltName E.d2iSubjectAltName = some (names, critical) ∧
    ∃ name ∈ names, name.type = .dns ∧ name.value ≠ []

def SkiPresent (c : X509) : Prop :=
  ∃ ski critical,
    c.getExtD2i nidSubjectKeyIdentifier E.d2iSubjectKeyIdentifier = some (ski, critical) ∧ ski ≠ []

/-- Both certificates have an SKI, and the certificate's AKI key identifier is the issuer's SKI. -/
def KeyIdLink (c issuer : X509) : Prop :=
  SkiPresent E c ∧ ∃ ski critical authority critical',
    issuer.getExtD2i nidSubjectKeyIdentifier E.d2iSubjectKeyIdentifier = some (ski, critical) ∧
    ski ≠ [] ∧
    c.getExtD2i nidAuthorityKeyIdentifier E.d2iAuthorityKeyid = some (authority, critical') ∧
    authority.keyid = some ski

/-- Exactly one marker extension, not critical, with value `NULL`. -/
def SingleMarker (c : X509) : Prop :=
  ∃ e, c.extensionList.filter (·.object == hybridPqcExtensionOid) = [e] ∧
    e.critical = false ∧ e.value = derNull

/-- The Composite algorithm with absent parameters. -/
def IsComposite (a : X509Algor) : Prop :=
  a.algorithm = compositeSm2DilithiumExperimentalOid ∧ a.parameter = none

variable {E}

theorem certificateTimeValid_iff {now : Int} {c : X509} :
    certificateTimeValid E now c = true ↔ InValidityPeriod E now c := by
  simp [certificateTimeValid, InValidityPeriod]

theorem basicConstraints_iff {c : X509} {ca : Bool} :
    (match c.getExtD2i nidBasicConstraints E.d2iBasicConstraints with
      | some (constraints, critical) => critical && constraints.ca == ca
      | none => false) = true ↔
      c.getExtD2i nidBasicConstraints E.d2iBasicConstraints = some (⟨ca⟩, true) := by
  cases c.getExtD2i nidBasicConstraints E.d2iBasicConstraints with
  | none => simp
  | some p =>
    obtain ⟨⟨x⟩, critical⟩ := p
    simp [and_comm]

theorem certificateConstraintsValid_ca {c : X509} :
    certificateConstraintsValid E c true = true ↔ CaConstraints E c := by
  simp only [certificateConstraintsValid, Bool.and_eq_true, CaConstraints, ConstraintsAre, if_true]
  refine and_congr basicConstraints_iff ?_
  cases c.getExtD2i nidKeyUsage E.d2iKeyUsage with
  | none => simp
  | some p => obtain ⟨usage, critical⟩ := p; cases critical <;> simp [and_assoc]

theorem certificateConstraintsValid_leaf {c : X509} :
    certificateConstraintsValid E c false = true ↔ LeafConstraints E c := by
  simp only [certificateConstraintsValid, Bool.and_eq_true, LeafConstraints, ConstraintsAre,
    Bool.false_eq_true, if_false]
  refine and_congr basicConstraints_iff ?_
  cases c.getExtD2i nidKeyUsage E.d2iKeyUsage with
  | none => simp
  | some p => obtain ⟨usage, critical⟩ := p; cases critical <;> simp [and_assoc]

theorem encryptionCertificateConstraintsValid_iff {c : X509} :
    encryptionCertificateConstraintsValid E c = true ↔ EncryptionConstraints E c := by
  simp only [encryptionCertificateConstraintsValid, Bool.and_eq_true, EncryptionConstraints,
    ConstraintsAre]
  refine and_congr ?_ ?_
  · cases c.getExtD2i nidBasicConstraints E.d2iBasicConstraints with
    | none => simp
    | some p => obtain ⟨⟨ca⟩, critical⟩ := p; simp [and_comm]
  · cases c.getExtD2i nidKeyUsage E.d2iKeyUsage with
    | none => simp
    | some p => obtain ⟨usage, critical⟩ := p; cases critical <;> simp; tauto

theorem serverEkuValid_iff {c : X509} : serverEkuValid E c = true ↔ ServerEku E c := by
  simp only [serverEkuValid, ServerEku]
  cases c.getExtD2i nidExtKeyUsage E.d2iExtKeyUsage with
  | none => simp
  | some p => obtain ⟨usage, critical⟩ := p; simp

theorem serverSanValid_iff {c : X509} : serverSanValid E c = true ↔ ServerSan E c := by
  simp only [serverSanValid, ServerSan]
  cases c.getExtD2i nidSubjectAltName E.d2iSubjectAltName with
  | none => simp
  | some p => obtain ⟨names, critical⟩ := p; simp [List.length_pos_iff]

theorem subjectKeyIdentifierPresent_iff {c : X509} :
    subjectKeyIdentifierPresent E c = true ↔ SkiPresent E c := by
  simp only [subjectKeyIdentifierPresent, SkiPresent]
  cases c.getExtD2i nidSubjectKeyIdentifier E.d2iSubjectKeyIdentifier with
  | none => simp
  | some p => obtain ⟨ski, critical⟩ := p; simp [List.length_pos_iff]

theorem serverKeyIdentifiersValid_iff {c issuer : X509} :
    serverKeyIdentifiersValid E c issuer = true ↔ KeyIdLink E c issuer := by
  simp only [serverKeyIdentifiersValid, KeyIdLink, SkiPresent]
  cases c.getExtD2i nidSubjectKeyIdentifier E.d2iSubjectKeyIdentifier with
  | none => simp
  | some p =>
    cases issuer.getExtD2i nidSubjectKeyIdentifier E.d2iSubjectKeyIdentifier with
    | none => simp
    | some q =>
      cases c.getExtD2i nidAuthorityKeyIdentifier E.d2iAuthorityKeyid with
      | none => simp
      | some a =>
        obtain ⟨⟨keyid⟩, critical⟩ := a
        cases keyid with
        | none => simp
        | some k =>
          simp only [List.length_pos_iff, Bool.and_eq_true, decide_eq_true_eq, beq_iff_eq]
          constructor
          · rintro ⟨⟨h1, h2⟩, rfl⟩
            exact ⟨⟨p.1, p.2, rfl, h1⟩, q.1, q.2, _, _, rfl, h2, rfl, rfl⟩
          · rintro ⟨⟨_, _, hp, h1⟩, _, _, _, _, hq, h2, ha, hk⟩
            cases hp; cases hq; cases ha; cases hk
            exact ⟨⟨h1, h2⟩, rfl⟩

theorem subjectPublicKeyIsComposite_iff {c : X509} :
    hybridX509SubjectPublicKeyIsComposite c = true ↔
      IsComposite c.tbsCertificate.subjectPublicKeyInfo.algor :=
  algorithmIsCompositeAndAbsent_iff

theorem signatureAlgorithmsValid_iff {c : X509} :
    hybridX509CompositeSignatureAlgorithmsValid c = true ↔
      IsComposite c.tbsCertificate.signature ∧ IsComposite c.signatureAlgorithm :=
  hybridX509CompositeSignatureAlgorithmsValid_iff

/-! ## The verifiers -/

/-- Every flag a certificate with a Composite subject key can have. -/
def allFlags : HybridCertVerifyResult where
  issuerSubjectLinkValid := true
  validityValid := true
  issuerCaConstraintsValid := true
  subjectConstraintsValid := true
  ekuValid := true
  sanValid := true
  keyIdentifiersValid := true
  pqcExtensionPresent := true
  compositeOidsValid := true
  subjectPublicKeyComposite := true
  subjectPublicKeySm2 := false
  compositePublicKeyValid := true
  signatureFormatValid := true
  dilithiumValid := true
  sm2Valid := true
  compositeValid := true
  certificateValid := true

variable (E)

/-- What a root certificate must satisfy; `key` is the key parsed from its own SPKI. -/
structure RootAccepted (now : Int) (root : X509) (key : HybridPublicKey PKey) : Prop where
  key_parsed : hybridX509GetCompositePublicKey E root = some key
  names : E.nameCanon root.tbsCertificate.issuer = E.nameCanon root.tbsCertificate.subject
  validity : InValidityPeriod E now root
  constraints : CaConstraints E root
  ski : SkiPresent E root
  marker : SingleMarker root
  inner : IsComposite root.tbsCertificate.signature
  outer : IsComposite root.signatureAlgorithm
  spki : IsComposite root.tbsCertificate.subjectPublicKeyInfo.algor
  dilithium : DilithiumVerifies E key root
  sm2 : Sm2Verifies E key root

/-- What a server certificate must satisfy under an issuer; `key` is the issuer's key. -/
structure ServerAccepted (now : Int) (issuer server : X509) (key : HybridPublicKey PKey) :
    Prop where
  key_parsed : hybridX509GetCompositePublicKey E issuer = some key
  names : E.nameCanon server.tbsCertificate.issuer = E.nameCanon issuer.tbsCertificate.subject
  validity : InValidityPeriod E now server
  issuer_constraints : CaConstraints E issuer
  constraints : LeafConstraints E server
  eku : ServerEku E server
  san : ServerSan E server
  key_ids : KeyIdLink E server issuer
  marker : SingleMarker server
  inner : IsComposite server.tbsCertificate.signature
  outer : IsComposite server.signatureAlgorithm
  spki : IsComposite server.tbsCertificate.subjectPublicKeyInfo.algor
  dilithium : DilithiumVerifies E key server
  sm2 : Sm2Verifies E key server

/-- What a TLCP encryption certificate must satisfy under an issuer. -/
structure EncryptionAccepted (now : Int) (issuer certificate : X509) (key : HybridPublicKey PKey) :
    Prop where
  key_parsed : hybridX509GetCompositePublicKey E issuer = some key
  names :
    E.nameCanon certificate.tbsCertificate.issuer = E.nameCanon issuer.tbsCertificate.subject
  validity : InValidityPeriod E now certificate
  issuer_constraints : CaConstraints E issuer
  constraints : EncryptionConstraints E certificate
  key_ids : KeyIdLink E certificate issuer
  marker : SingleMarker certificate
  inner : IsComposite certificate.tbsCertificate.signature
  outer : IsComposite certificate.signatureAlgorithm
  spki : hybridX509SubjectPublicKeyIsSm2 E certificate = true
  dilithium : DilithiumVerifies E key certificate
  sm2 : Sm2Verifies E key certificate

/-- A root and a server certificate that are accepted as a chain, both under the key in the
root's SPKI. -/
def ChainAccepted (now : Int) (root server : X509) : Prop :=
  ∃ key, RootAccepted E now root key ∧ ServerAccepted E now root server key

variable {E}

theorem hybridVerifyRootSelfSignature_valid {now : Int} {root : X509} :
    (hybridVerifyRootSelfSignature E now (some root)).certificateValid = true ↔
      ∃ key, RootAccepted E now root key := by
  simp only [hybridVerifyRootSelfSignature]
  cases hk : hybridX509GetCompositePublicKey E root with
  | none =>
    simp only [Bool.and_false, Bool.false_eq_true, false_iff, not_exists]
    intro key h
    have := h.key_parsed
    rw [hk] at this; cases this
  | some key =>
    simp only [Bool.and_eq_true, and_assoc]
    constructor
    · rintro ⟨h1, h2, h3, h4, h5, h6, h7, _, h9⟩
      have hv := (verifyCertificateSignature_valid (by rfl)).mp h9
      rw [verifyCertificateSignature_eq_of_valid (by rfl) h9] at h1 h2 h3 h4 h5 h6 h7
      simp only [beq_iff_eq, Openssl.x509NameCmp_eq_zero] at h1
      obtain ⟨hin, hout⟩ := signatureAlgorithmsValid_iff.mp h6
      exact ⟨key, hk, h1, certificateTimeValid_iff.mp h2, certificateConstraintsValid_ca.mp h3,
        subjectKeyIdentifierPresent_iff.mp h5, hybridX509HasPqcExtension_iff.mp h4, hin, hout,
        subjectPublicKeyIsComposite_iff.mp h7, hv.1, hv.2⟩
    · rintro ⟨key', h⟩
      have hkey := h.key_parsed
      rw [hk] at hkey; cases hkey
      have h9 := fun r hr => (verifyCertificateSignature_valid (E := E) (c := root)
        (r := r) hr).mpr ⟨h.dilithium, h.sm2⟩
      rw [verifyCertificateSignature_eq_of_valid (by rfl) (h9 _ (by rfl))]
      exact ⟨by simpa using h.names, certificateTimeValid_iff.mpr h.validity,
        certificateConstraintsValid_ca.mpr h.constraints,
        hybridX509HasPqcExtension_iff.mpr h.marker,
        subjectKeyIdentifierPresent_iff.mpr h.ski,
        signatureAlgorithmsValid_iff.mpr ⟨h.inner, h.outer⟩,
        subjectPublicKeyIsComposite_iff.mpr h.spki, rfl, rfl⟩

theorem hybridVerifyRootSelfSignature_flags {now : Int} {root : X509} {key : HybridPublicKey PKey}
    (h : RootAccepted E now root key) :
    hybridVerifyRootSelfSignature E now (some root) = allFlags := by
  have h9 := fun r hr => (verifyCertificateSignature_valid (E := E) (c := root)
    (r := r) hr).mpr ⟨h.dilithium, h.sm2⟩
  simp only [hybridVerifyRootSelfSignature, h.key_parsed]
  rw [verifyCertificateSignature_eq_of_valid (by rfl) (h9 _ (by rfl))]
  simp [h.names, certificateTimeValid_iff.mpr h.validity, allFlags,
    certificateConstraintsValid_ca.mpr h.constraints, hybridX509HasPqcExtension_iff.mpr h.marker,
    subjectKeyIdentifierPresent_iff.mpr h.ski, signatureAlgorithmsValid_iff.mpr ⟨h.inner, h.outer⟩,
    subjectPublicKeyIsComposite_iff.mpr h.spki]

theorem hybridVerifyCertificate_valid {now : Int} {issuer server : X509} :
    (hybridVerifyCertificate E now (some server) (some issuer)).certificateValid = true ↔
      ∃ key, ServerAccepted E now issuer server key := by
  simp only [hybridVerifyCertificate]
  cases hk : hybridX509GetCompositePublicKey E issuer with
  | none =>
    simp only [Bool.and_false, Bool.false_eq_true, false_iff, not_exists]
    intro key h
    have := h.key_parsed
    rw [hk] at this; cases this
  | some key =>
    simp only [Bool.and_eq_true, and_assoc]
    constructor
    · rintro ⟨h1, h2, h3, h4, h5, h6, h7, h8, h9, h10, _, h12⟩
      have hv := (verifyCertificateSignature_valid (by rfl)).mp h12
      rw [verifyCertificateSignature_eq_of_valid (by rfl) h12] at h1 h2 h3 h4 h5 h6 h7 h8 h9 h10
      simp only [beq_iff_eq, Openssl.x509NameCmp_eq_zero] at h1
      obtain ⟨hin, hout⟩ := signatureAlgorithmsValid_iff.mp h9
      exact ⟨key, hk, h1, certificateTimeValid_iff.mp h2, certificateConstraintsValid_ca.mp h3,
        certificateConstraintsValid_leaf.mp h4, serverEkuValid_iff.mp h5, serverSanValid_iff.mp h6,
        serverKeyIdentifiersValid_iff.mp h7, hybridX509HasPqcExtension_iff.mp h8, hin, hout,
        subjectPublicKeyIsComposite_iff.mp h10, hv.1, hv.2⟩
    · rintro ⟨key', h⟩
      have hkey := h.key_parsed
      rw [hk] at hkey; cases hkey
      have h12 := fun r hr => (verifyCertificateSignature_valid (E := E) (c := server)
        (r := r) hr).mpr ⟨h.dilithium, h.sm2⟩
      rw [verifyCertificateSignature_eq_of_valid (by rfl) (h12 _ (by rfl))]
      exact ⟨by simpa using h.names, certificateTimeValid_iff.mpr h.validity,
        certificateConstraintsValid_ca.mpr h.issuer_constraints,
        certificateConstraintsValid_leaf.mpr h.constraints, serverEkuValid_iff.mpr h.eku,
        serverSanValid_iff.mpr h.san, serverKeyIdentifiersValid_iff.mpr h.key_ids,
        hybridX509HasPqcExtension_iff.mpr h.marker,
        signatureAlgorithmsValid_iff.mpr ⟨h.inner, h.outer⟩,
        subjectPublicKeyIsComposite_iff.mpr h.spki, rfl, rfl⟩

theorem hybridVerifyCertificate_flags {now : Int} {issuer server : X509}
    {key : HybridPublicKey PKey} (h : ServerAccepted E now issuer server key) :
    hybridVerifyCertificate E now (some server) (some issuer) = allFlags := by
  have h12 := fun r hr => (verifyCertificateSignature_valid (E := E) (c := server)
    (r := r) hr).mpr ⟨h.dilithium, h.sm2⟩
  simp only [hybridVerifyCertificate, h.key_parsed]
  rw [verifyCertificateSignature_eq_of_valid (by rfl) (h12 _ (by rfl))]
  simp [h.names, certificateTimeValid_iff.mpr h.validity, allFlags,
    certificateConstraintsValid_ca.mpr h.issuer_constraints,
    certificateConstraintsValid_leaf.mpr h.constraints, serverEkuValid_iff.mpr h.eku,
    serverSanValid_iff.mpr h.san, serverKeyIdentifiersValid_iff.mpr h.key_ids,
    hybridX509HasPqcExtension_iff.mpr h.marker,
    signatureAlgorithmsValid_iff.mpr ⟨h.inner, h.outer⟩,
    subjectPublicKeyIsComposite_iff.mpr h.spki]

theorem hybridVerifyEncryptionCertificate_valid {now : Int} {issuer certificate : X509} :
    (hybridVerifyEncryptionCertificate E now (some certificate) (some issuer)).certificateValid =
      true ↔ ∃ key, EncryptionAccepted E now issuer certificate key := by
  simp only [hybridVerifyEncryptionCertificate]
  cases hk : hybridX509GetCompositePublicKey E issuer with
  | none =>
    simp only [Bool.and_false, Bool.false_eq_true, false_iff, not_exists]
    intro key h
    have := h.key_parsed
    rw [hk] at this; cases this
  | some key =>
    simp only [Bool.and_eq_true, and_assoc]
    constructor
    · rintro ⟨h1, h2, h3, h4, h5, h6, h7, h8, _, h10⟩
      have hv := (verifyCertificateSignature_valid (by rfl)).mp h10
      rw [verifyCertificateSignature_eq_of_valid (by rfl) h10] at h1 h2 h3 h4 h5 h6 h7 h8
      simp only [beq_iff_eq, Openssl.x509NameCmp_eq_zero] at h1
      obtain ⟨hin, hout⟩ := signatureAlgorithmsValid_iff.mp h7
      exact ⟨key, hk, h1, certificateTimeValid_iff.mp h2, certificateConstraintsValid_ca.mp h3,
        encryptionCertificateConstraintsValid_iff.mp h4, serverKeyIdentifiersValid_iff.mp h5,
        hybridX509HasPqcExtension_iff.mp h6, hin, hout, h8, hv.1, hv.2⟩
    · rintro ⟨key', h⟩
      have hkey := h.key_parsed
      rw [hk] at hkey; cases hkey
      have h10 := fun r hr => (verifyCertificateSignature_valid (E := E) (c := certificate)
        (r := r) hr).mpr ⟨h.dilithium, h.sm2⟩
      rw [verifyCertificateSignature_eq_of_valid (by rfl) (h10 _ (by rfl))]
      exact ⟨by simpa using h.names, certificateTimeValid_iff.mpr h.validity,
        certificateConstraintsValid_ca.mpr h.issuer_constraints,
        encryptionCertificateConstraintsValid_iff.mpr h.constraints,
        serverKeyIdentifiersValid_iff.mpr h.key_ids, hybridX509HasPqcExtension_iff.mpr h.marker,
        signatureAlgorithmsValid_iff.mpr ⟨h.inner, h.outer⟩, h.spki, rfl, rfl⟩

theorem hybridVerifyChain_valid {now : Int} {root server : Option X509} :
    (hybridVerifyChain E now root server).chainValid = true ↔
      ∃ r s, root = some r ∧ server = some s ∧ ChainAccepted E now r s := by
  constructor
  · intro h
    simp only [hybridVerifyChain, Bool.and_eq_true] at h
    obtain ⟨⟨hr, hroot⟩, hserver⟩ := h
    obtain ⟨r, rfl⟩ := Option.isSome_iff_exists.mp hr
    cases server with
    | none => cases hserver
    | some s =>
      obtain ⟨key, hroot⟩ := hybridVerifyRootSelfSignature_valid.mp hroot
      obtain ⟨key', hserver⟩ := hybridVerifyCertificate_valid.mp hserver
      have hk := hserver.key_parsed
      rw [hroot.key_parsed] at hk; cases hk
      exact ⟨r, s, rfl, rfl, key, hroot, hserver⟩
  · rintro ⟨r, s, rfl, rfl, key, hroot, hserver⟩
    simp [hybridVerifyChain, hybridVerifyRootSelfSignature_valid.mpr ⟨key, hroot⟩,
      hybridVerifyCertificate_valid.mpr ⟨key, hserver⟩]

theorem hybridVerifyChain_flags {now : Int} {root server : Option X509}
    (h : (hybridVerifyChain E now root server).chainValid = true) :
    hybridVerifyChain E now root server = ⟨true, allFlags, allFlags, true⟩ := by
  obtain ⟨r, s, rfl, rfl, key, hroot, hserver⟩ := hybridVerifyChain_valid.mp h
  simp [hybridVerifyChain, hybridVerifyRootSelfSignature_flags hroot,
    hybridVerifyCertificate_flags hserver, allFlags]

/-- **Chain acceptance.** `hybrid_verify_chain` accepts exactly the pairs of certificates that
satisfy `ChainAccepted`, whose signature conditions all refer to the key parsed from the root. An
accepted result has every flag set but `subject_public_key_sm2`, so no result with a component
flag off in either certificate is accepted. -/
theorem hybrid_verify_chain_accepts_iff {PKey : Type} (E : Openssl PKey) (now : Int)
    (root server : Option X509) :
    let result := hybridVerifyChain E now root server
    (result.chainValid = true ↔
      ∃ r s, root = some r ∧ server = some s ∧ ChainAccepted E now r s) ∧
    (result.chainValid = true → result = ⟨true, allFlags, allFlags, true⟩) ∧
    (result.root.dilithiumValid = false ∨ result.root.sm2Valid = false ∨
      result.server.dilithiumValid = false ∨ result.server.sm2Valid = false →
        result.chainValid = false) := by
  refine ⟨hybridVerifyChain_valid, hybridVerifyChain_flags, fun h => ?_⟩
  cases hv : (hybridVerifyChain E now root server).chainValid with
  | false => rfl
  | true => rw [hybridVerifyChain_flags hv] at h; simp [allFlags] at h

end

end HybridPqc
