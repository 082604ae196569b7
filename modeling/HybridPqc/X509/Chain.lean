import HybridPqc.X509.Fields

/-!
# X509.Chain

`hybrid_chain.c`: the certificate checks and the two-level chain. `now` is the time the
`X509_cmp_current_time` calls read. A result structure starts all zero, so every flag of a
certificate that was never looked at is false.
-/

namespace HybridPqc

structure HybridCertVerifyResult where
  issuerSubjectLinkValid : Bool := false
  validityValid : Bool := false
  issuerCaConstraintsValid : Bool := false
  subjectConstraintsValid : Bool := false
  ekuValid : Bool := false
  sanValid : Bool := false
  keyIdentifiersValid : Bool := false
  pqcExtensionPresent : Bool := false
  compositeOidsValid : Bool := false
  subjectPublicKeyComposite : Bool := false
  subjectPublicKeySm2 : Bool := false
  compositePublicKeyValid : Bool := false
  signatureFormatValid : Bool := false
  dilithiumValid : Bool := false
  sm2Valid : Bool := false
  compositeValid : Bool := false
  certificateValid : Bool := false
  deriving DecidableEq, Repr

structure HybridChainVerifyResult where
  trustAnchorConfigured : Bool := false
  root : HybridCertVerifyResult := {}
  server : HybridCertVerifyResult := {}
  chainValid : Bool := false
  deriving DecidableEq, Repr

section

variable {PKey : Type} (E : Openssl PKey) (now : Int)

/-! ## Single checks -/

def certificateTimeValid (certificate : X509) : Bool :=
  let before := E.cmpTime certificate.tbsCertificate.validity.notBefore now
  let after := E.cmpTime certificate.tbsCertificate.validity.notAfter now
  decide (before < 0) && decide (after > 0)

def certificateConstraintsValid (certificate : X509) (isCa : Bool) : Bool :=
  let basicValid :=
    match certificate.getExtD2i nidBasicConstraints E.d2iBasicConstraints with
    | some (constraints, critical) => critical && constraints.ca == isCa
    | none => false
  let usageValid :=
    match certificate.getExtD2i nidKeyUsage E.d2iKeyUsage with
    | some (usage, critical) =>
      if critical then
        if isCa then
          usage.getBit 5 && usage.getBit 6 && !usage.getBit 0 && !usage.getBit 2 &&
            !usage.getBit 3 && !usage.getBit 4
        else
          usage.getBit 0 && !usage.getBit 2 && !usage.getBit 3 && !usage.getBit 4 &&
            !usage.getBit 5 && !usage.getBit 6
      else false
    | none => false
  basicValid && usageValid

def encryptionCertificateConstraintsValid (certificate : X509) : Bool :=
  let basicValid :=
    match certificate.getExtD2i nidBasicConstraints E.d2iBasicConstraints with
    | some (constraints, critical) => critical && !constraints.ca
    | none => false
  let usageValid :=
    match certificate.getExtD2i nidKeyUsage E.d2iKeyUsage with
    | some (usage, critical) =>
      critical && (!usage.getBit 0 && usage.getBit 2 && usage.getBit 4 && !usage.getBit 5 &&
        !usage.getBit 6)
    | none => false
  basicValid && usageValid

def serverEkuValid (certificate : X509) : Bool :=
  match certificate.getExtD2i nidExtKeyUsage E.d2iExtKeyUsage with
  | none => false
  | some (usage, _) => usage.any (· == nidServerAuth)

def serverSanValid (certificate : X509) : Bool :=
  match certificate.getExtD2i nidSubjectAltName E.d2iSubjectAltName with
  | none => false
  | some (names, _) => names.any fun name => name.type == .dns && decide (0 < name.value.length)

def subjectKeyIdentifierPresent (certificate : X509) : Bool :=
  match certificate.getExtD2i nidSubjectKeyIdentifier E.d2iSubjectKeyIdentifier with
  | none => false
  | some (identifier, _) => decide (0 < identifier.length)

def serverKeyIdentifiersValid (certificate issuer : X509) : Bool :=
  match certificate.getExtD2i nidSubjectKeyIdentifier E.d2iSubjectKeyIdentifier,
      issuer.getExtD2i nidSubjectKeyIdentifier E.d2iSubjectKeyIdentifier,
      certificate.getExtD2i nidAuthorityKeyIdentifier E.d2iAuthorityKeyid with
  | some (subjectIdentifier, _), some (issuerIdentifier, _), some (authority, _) =>
    match authority.keyid with
    | none => false
    | some keyid =>
      decide (0 < subjectIdentifier.length) && decide (0 < issuerIdentifier.length) &&
        issuerIdentifier == keyid
  | _, _, _ => false

/-- `verify_certificate_signature(certificate, issuer_key, result)`: the updated result. -/
def verifyCertificateSignature (certificate : X509) (issuerKey : HybridPublicKey PKey)
    (result : HybridCertVerifyResult) : HybridCertVerifyResult :=
  match hybridX509GetTbsDer E certificate, hybridX509GetSignature certificate with
  | some tbsDer, some signature =>
    let compositeResult :=
      compositeVerifyDetailed E.toCrypto issuerKey (.buf tbsDer) (.null 0) signature
    { result with
      signatureFormatValid := compositeResult.formatValid
      dilithiumValid := compositeResult.dilithiumValid
      sm2Valid := compositeResult.sm2Valid
      compositeValid := compositeResult.compositeValid }
  | _, _ => result

/-! ## The three certificate verifiers -/

def hybridVerifyRootSelfSignature (root : Option X509) : HybridCertVerifyResult :=
  match root with
  | none => {}
  | some root =>
    let issuerCaConstraintsValid := certificateConstraintsValid E root true
    let local_ : HybridCertVerifyResult := {
      issuerSubjectLinkValid :=
        E.x509NameCmp root.tbsCertificate.issuer root.tbsCertificate.subject == 0
      validityValid := certificateTimeValid E now root
      issuerCaConstraintsValid
      subjectConstraintsValid := issuerCaConstraintsValid
      ekuValid := true
      sanValid := true
      keyIdentifiersValid := subjectKeyIdentifierPresent E root
      pqcExtensionPresent := hybridX509HasPqcExtension root
      compositeOidsValid := hybridX509CompositeSignatureAlgorithmsValid root
      subjectPublicKeyComposite := hybridX509SubjectPublicKeyIsComposite root }
    let local_ :=
      match hybridX509GetCompositePublicKey E root with
      | none => local_
      | some rootKey =>
        verifyCertificateSignature E root rootKey { local_ with compositePublicKeyValid := true }
    { local_ with
      certificateValid :=
        local_.issuerSubjectLinkValid && local_.validityValid &&
        local_.issuerCaConstraintsValid && local_.pqcExtensionPresent &&
        local_.keyIdentifiersValid && local_.compositeOidsValid &&
        local_.subjectPublicKeyComposite && local_.compositePublicKeyValid &&
        local_.compositeValid }

def hybridVerifyCertificate (certificate issuerCertificate : Option X509) :
    HybridCertVerifyResult :=
  match certificate, issuerCertificate with
  | some certificate, some issuerCertificate =>
    let local_ : HybridCertVerifyResult := {
      issuerSubjectLinkValid :=
        E.x509NameCmp certificate.tbsCertificate.issuer
          issuerCertificate.tbsCertificate.subject == 0
      validityValid := certificateTimeValid E now certificate
      issuerCaConstraintsValid := certificateConstraintsValid E issuerCertificate true
      subjectConstraintsValid := certificateConstraintsValid E certificate false
      ekuValid := serverEkuValid E certificate
      sanValid := serverSanValid E certificate
      keyIdentifiersValid := serverKeyIdentifiersValid E certificate issuerCertificate
      pqcExtensionPresent := hybridX509HasPqcExtension certificate
      compositeOidsValid := hybridX509CompositeSignatureAlgorithmsValid certificate
      subjectPublicKeyComposite := hybridX509SubjectPublicKeyIsComposite certificate }
    let local_ :=
      match hybridX509GetCompositePublicKey E issuerCertificate with
      | none => local_
      | some issuerKey =>
        verifyCertificateSignature E certificate issuerKey
          { local_ with compositePublicKeyValid := true }
    { local_ with
      certificateValid :=
        local_.issuerSubjectLinkValid && local_.validityValid &&
        local_.issuerCaConstraintsValid && local_.subjectConstraintsValid &&
        local_.ekuValid && local_.sanValid && local_.keyIdentifiersValid &&
        local_.pqcExtensionPresent && local_.compositeOidsValid &&
        local_.subjectPublicKeyComposite && local_.compositePublicKeyValid &&
        local_.compositeValid }
  | _, _ => {}

def hybridVerifyEncryptionCertificate (certificate issuerCertificate : Option X509) :
    HybridCertVerifyResult :=
  match certificate, issuerCertificate with
  | some certificate, some issuerCertificate =>
    let local_ : HybridCertVerifyResult := {
      issuerSubjectLinkValid :=
        E.x509NameCmp certificate.tbsCertificate.issuer
          issuerCertificate.tbsCertificate.subject == 0
      validityValid := certificateTimeValid E now certificate
      issuerCaConstraintsValid := certificateConstraintsValid E issuerCertificate true
      subjectConstraintsValid := encryptionCertificateConstraintsValid E certificate
      ekuValid := true
      sanValid := true
      keyIdentifiersValid := serverKeyIdentifiersValid E certificate issuerCertificate
      pqcExtensionPresent := hybridX509HasPqcExtension certificate
      compositeOidsValid := hybridX509CompositeSignatureAlgorithmsValid certificate
      subjectPublicKeySm2 := hybridX509SubjectPublicKeyIsSm2 E certificate }
    let local_ :=
      match hybridX509GetCompositePublicKey E issuerCertificate with
      | none => local_
      | some issuerKey =>
        verifyCertificateSignature E certificate issuerKey
          { local_ with compositePublicKeyValid := true }
    { local_ with
      certificateValid :=
        local_.issuerSubjectLinkValid && local_.validityValid &&
        local_.issuerCaConstraintsValid && local_.subjectConstraintsValid &&
        local_.keyIdentifiersValid && local_.pqcExtensionPresent &&
        local_.compositeOidsValid && local_.subjectPublicKeySm2 &&
        local_.compositePublicKeyValid && local_.compositeValid }
  | _, _ => {}

def hybridVerifyChain (root server : Option X509) : HybridChainVerifyResult :=
  let rootResult := hybridVerifyRootSelfSignature E now root
  let serverResult := hybridVerifyCertificate E now server root
  { trustAnchorConfigured := root.isSome
    root := rootResult
    server := serverResult
    chainValid := root.isSome && rootResult.certificateValid && serverResult.certificateValid }

end

end HybridPqc
