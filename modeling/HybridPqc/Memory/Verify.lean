import HybridPqc.Memory.Composite
import HybridPqc.X509.Chain

/-!
# Memory.Verify

The readers of `hybrid_x509.c` and the verifiers of `hybrid_chain.c` with the memory they ask for.

A certificate is an object of the caller, which every function here leaves as it is. When a request
fails, a check fails: no flag of a result is set that the verifier without memory does not set
(`CertResultBelow`, `ChainResultBelow`).
-/

namespace HybridPqc

namespace Memory

open Refs
open Refs.Act

section

variable {plan : Nat → Bool}

/-- A look at what a pointer leads to; `NULL` fails. -/
def looking {α : Type} (p : Option (Obj α)) (f : α → Bool) : Act plan Bool :=
  match p with
  | none => return false
  | some p => do
    touch p
    return f p.val

/-- `X509_get_ext_d2i`: a decoded extension of the caller's own, with its criticality. -/
def x509GetExtD2i {α : Type} (certificate : Obj X509) (nid : Oid) (d2i : Bytes → Option α) :
    Act plan (Option (Obj (α × Bool))) := do
  touch certificate
  make (certificate.val.getExtD2i nid d2i)

/-- An extension that is decoded, looked at and released. -/
def extensionCheck {α : Type} (certificate : Obj X509) (nid : Oid) (d2i : Bytes → Option α)
    (check : α × Bool → Bool) : Act plan Bool := do
  let value ← x509GetExtD2i certificate nid d2i
  let valid ← looking value check
  free value
  return valid

def hybridX509HasPqcExtension (certificate : Obj X509) : Act plan Bool := do
  match ← alloc hybridPqcExtensionOid with
  | none => return false
  | some object =>
    touch certificate
    let first := certificate.val.getExtByObj object.val 0
    let second := first.bind fun first => certificate.val.getExtByObj object.val (first + 1)
    freeObj object
    match first, second with
    | some first, none =>
      match certificate.val.extensionList[first]? with
      | none => return false
      | some extension => return !extension.critical && extension.value == derNull
    | _, _ => return false

end

section

variable {plan : Nat → Bool} {PKey : Type} (E : Openssl PKey) (now : Int)

/-! ## Readers -/

def hybridX509GetTbsDer (certificate : Obj X509) : Act plan (Option (Obj Bytes)) := do
  touch certificate
  match ← make (E.i2dReX509Tbs certificate.val.tbsCertificate) with
  | none => return none
  | some output =>
    if output.val.length = 0 then
      freeObj output
      return none
    else return some output

def hybridX509SubjectPublicKeyIsSm2 (certificate : Obj X509) : Act plan Bool := do
  touch certificate
  let key ← make (E.getPubkey certificate.val.tbsCertificate.subjectPublicKeyInfo)
  let valid ← looking key E.isSm2
  free key
  return valid

/-- The key structure is the caller's, empty before the call. -/
def hybridX509GetCompositePublicKey (certificate : Obj X509) :
    Act plan (Option (Obj (HybridPublicKey PKey))) := do
  touch certificate
  let spki := certificate.val.tbsCertificate.subjectPublicKeyInfo
  if spki.publicKey.unusedBits ≠ 0 ∨ ¬ algorithmIsCompositeAndAbsent spki.algor ∨
      spki.publicKey.data.length = 0 then return none
  else compositeParsePublicKey E.toCrypto spki.publicKey.data

/-! ## Single checks -/

def certificateConstraintsValid (certificate : Obj X509) (isCa : Bool) : Act plan Bool := do
  let basicValid ← extensionCheck certificate nidBasicConstraints E.d2iBasicConstraints
    fun (constraints, critical) => critical && constraints.ca == isCa
  let usageValid ← extensionCheck certificate nidKeyUsage E.d2iKeyUsage fun (usage, critical) =>
    if critical then
      if isCa then
        usage.getBit 5 && usage.getBit 6 && !usage.getBit 0 && !usage.getBit 2 &&
          !usage.getBit 3 && !usage.getBit 4
      else
        usage.getBit 0 && !usage.getBit 2 && !usage.getBit 3 && !usage.getBit 4 &&
          !usage.getBit 5 && !usage.getBit 6
    else false
  return basicValid && usageValid

def encryptionCertificateConstraintsValid (certificate : Obj X509) : Act plan Bool := do
  let basicValid ← extensionCheck certificate nidBasicConstraints E.d2iBasicConstraints
    fun (constraints, critical) => critical && !constraints.ca
  let usageValid ← extensionCheck certificate nidKeyUsage E.d2iKeyUsage fun (usage, critical) =>
    critical && (!usage.getBit 0 && usage.getBit 2 && usage.getBit 4 && !usage.getBit 5 &&
      !usage.getBit 6)
  return basicValid && usageValid

def serverEkuValid (certificate : Obj X509) : Act plan Bool :=
  extensionCheck certificate nidExtKeyUsage E.d2iExtKeyUsage fun (usage, _) =>
    usage.any (· == nidServerAuth)

def serverSanValid (certificate : Obj X509) : Act plan Bool :=
  extensionCheck certificate nidSubjectAltName E.d2iSubjectAltName fun (names, _) =>
    names.any fun name => name.type == .dns && decide (0 < name.value.length)

def subjectKeyIdentifierPresent (certificate : Obj X509) : Act plan Bool :=
  extensionCheck certificate nidSubjectKeyIdentifier E.d2iSubjectKeyIdentifier
    fun (identifier, _) => decide (0 < identifier.length)

/-- The comparison of the three identifiers. -/
def keyIdentifiersMatch (subjectIdentifier issuerIdentifier : Bytes) (authority : AuthorityKeyid) :
    Bool :=
  match authority.keyid with
  | none => false
  | some keyid =>
    decide (0 < subjectIdentifier.length) && decide (0 < issuerIdentifier.length) &&
      issuerIdentifier == keyid

def serverKeyIdentifiersValid (certificate issuer : Obj X509) : Act plan Bool := do
  let subjectIdentifier ← x509GetExtD2i certificate nidSubjectKeyIdentifier
    E.d2iSubjectKeyIdentifier
  let issuerIdentifier ← x509GetExtD2i issuer nidSubjectKeyIdentifier E.d2iSubjectKeyIdentifier
  let authority ← x509GetExtD2i certificate nidAuthorityKeyIdentifier E.d2iAuthorityKeyid
  match subjectIdentifier, issuerIdentifier, authority with
  | some subjectIdentifier, some issuerIdentifier, some authority =>
    let valid := keyIdentifiersMatch subjectIdentifier.val.1 issuerIdentifier.val.1
      authority.val.1
    freeObj authority
    freeObj issuerIdentifier
    freeObj subjectIdentifier
    return valid
  | subjectIdentifier, issuerIdentifier, authority =>
    free authority
    free issuerIdentifier
    free subjectIdentifier
    return false

def verifyCertificateSignature (certificate : Obj X509) (issuerKey : HybridPublicKey PKey)
    (result : HybridCertVerifyResult) : Act plan HybridCertVerifyResult := do
  match ← hybridX509GetTbsDer E certificate with
  | none => return result
  | some tbsDer =>
    touch certificate
    match hybridX509GetSignature certificate.val with
    | none =>
      freeObj tbsDer
      return result
    | some signature =>
      touch tbsDer
      let compositeResult ← compositeVerifyDetailed E.toCrypto issuerKey (.buf tbsDer.val) (.null 0)
        signature
      freeObj tbsDer
      return { result with
        signatureFormatValid := compositeResult.formatValid
        dilithiumValid := compositeResult.dilithiumValid
        sm2Valid := compositeResult.sm2Valid
        compositeValid := compositeResult.compositeValid }

/-! ## The three certificate verifiers -/

/-- The signature, under the key of the issuer when there is one; the key is released. -/
def checkSignature (certificate issuer : Obj X509) (local_ : HybridCertVerifyResult) :
    Act plan HybridCertVerifyResult := do
  match ← hybridX509GetCompositePublicKey E issuer with
  | none => return local_
  | some issuerKey =>
    touch issuerKey
    let local_ ← verifyCertificateSignature E certificate issuerKey.val
      { local_ with compositePublicKeyValid := true }
    freeObj issuerKey
    return local_

def hybridVerifyRootSelfSignature (root : Option (Obj X509)) : Act plan HybridCertVerifyResult :=
  match root with
  | none => return {}
  | some root => do
    touch root
    let issuerCaConstraintsValid ← certificateConstraintsValid E root true
    let keyIdentifiersValid ← subjectKeyIdentifierPresent E root
    let pqcExtensionPresent ← hybridX509HasPqcExtension root
    let local_ ← checkSignature E root root {
      issuerSubjectLinkValid :=
        E.x509NameCmp root.val.tbsCertificate.issuer root.val.tbsCertificate.subject == 0
      validityValid := certificateTimeValid E now root.val
      issuerCaConstraintsValid
      subjectConstraintsValid := issuerCaConstraintsValid
      ekuValid := true
      sanValid := true
      keyIdentifiersValid
      pqcExtensionPresent
      compositeOidsValid := hybridX509CompositeSignatureAlgorithmsValid root.val
      subjectPublicKeyComposite := hybridX509SubjectPublicKeyIsComposite root.val }
    return { local_ with
      certificateValid :=
        local_.issuerSubjectLinkValid && local_.validityValid &&
        local_.issuerCaConstraintsValid && local_.pqcExtensionPresent &&
        local_.keyIdentifiersValid && local_.compositeOidsValid &&
        local_.subjectPublicKeyComposite && local_.compositePublicKeyValid &&
        local_.compositeValid }

def hybridVerifyCertificate (certificate issuerCertificate : Option (Obj X509)) :
    Act plan HybridCertVerifyResult :=
  match certificate, issuerCertificate with
  | some certificate, some issuerCertificate => do
    touch certificate
    touch issuerCertificate
    let issuerCaConstraintsValid ← certificateConstraintsValid E issuerCertificate true
    let subjectConstraintsValid ← certificateConstraintsValid E certificate false
    let ekuValid ← serverEkuValid E certificate
    let sanValid ← serverSanValid E certificate
    let keyIdentifiersValid ← serverKeyIdentifiersValid E certificate issuerCertificate
    let pqcExtensionPresent ← hybridX509HasPqcExtension certificate
    let local_ ← checkSignature E certificate issuerCertificate {
      issuerSubjectLinkValid :=
        E.x509NameCmp certificate.val.tbsCertificate.issuer
          issuerCertificate.val.tbsCertificate.subject == 0
      validityValid := certificateTimeValid E now certificate.val
      issuerCaConstraintsValid
      subjectConstraintsValid
      ekuValid
      sanValid
      keyIdentifiersValid
      pqcExtensionPresent
      compositeOidsValid := hybridX509CompositeSignatureAlgorithmsValid certificate.val
      subjectPublicKeyComposite := hybridX509SubjectPublicKeyIsComposite certificate.val }
    return { local_ with
      certificateValid :=
        local_.issuerSubjectLinkValid && local_.validityValid &&
        local_.issuerCaConstraintsValid && local_.subjectConstraintsValid &&
        local_.ekuValid && local_.sanValid && local_.keyIdentifiersValid &&
        local_.pqcExtensionPresent && local_.compositeOidsValid &&
        local_.subjectPublicKeyComposite && local_.compositePublicKeyValid &&
        local_.compositeValid }
  | _, _ => return {}

def hybridVerifyEncryptionCertificate (certificate issuerCertificate : Option (Obj X509)) :
    Act plan HybridCertVerifyResult :=
  match certificate, issuerCertificate with
  | some certificate, some issuerCertificate => do
    touch certificate
    touch issuerCertificate
    let issuerCaConstraintsValid ← certificateConstraintsValid E issuerCertificate true
    let subjectConstraintsValid ← encryptionCertificateConstraintsValid E certificate
    let keyIdentifiersValid ← serverKeyIdentifiersValid E certificate issuerCertificate
    let pqcExtensionPresent ← hybridX509HasPqcExtension certificate
    let subjectPublicKeySm2 ← hybridX509SubjectPublicKeyIsSm2 E certificate
    let local_ ← checkSignature E certificate issuerCertificate {
      issuerSubjectLinkValid :=
        E.x509NameCmp certificate.val.tbsCertificate.issuer
          issuerCertificate.val.tbsCertificate.subject == 0
      validityValid := certificateTimeValid E now certificate.val
      issuerCaConstraintsValid
      subjectConstraintsValid
      ekuValid := true
      sanValid := true
      keyIdentifiersValid
      pqcExtensionPresent
      compositeOidsValid := hybridX509CompositeSignatureAlgorithmsValid certificate.val
      subjectPublicKeySm2 }
    return { local_ with
      certificateValid :=
        local_.issuerSubjectLinkValid && local_.validityValid &&
        local_.issuerCaConstraintsValid && local_.subjectConstraintsValid &&
        local_.keyIdentifiersValid && local_.pqcExtensionPresent &&
        local_.compositeOidsValid && local_.subjectPublicKeySm2 &&
        local_.compositePublicKeyValid && local_.compositeValid }
  | _, _ => return {}

def hybridVerifyChain (root server : Option (Obj X509)) : Act plan HybridChainVerifyResult := do
  let rootResult ← hybridVerifyRootSelfSignature E now root
  let serverResult ← hybridVerifyCertificate E now server root
  return {
    trustAnchorConfigured := root.isSome
    root := rootResult
    server := serverResult
    chainValid := root.isSome && rootResult.certificateValid && serverResult.certificateValid }

end

end Memory

end HybridPqc
