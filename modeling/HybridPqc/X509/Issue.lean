import HybridPqc.X509.Fields
import HybridPqc.X509.Template

/-!
# X509.Issue

The writers of `hybrid_x509.c`: the three kinds of certificates.

`IssueLib` adds to `Openssl` what only issuing calls. An X.509 builder appends to a list of
extensions; `none` is any failure on the way. Pointer arguments are non-`NULL` except the DNS name;
copies of names are the names; the clock reads `now` for the whole call; `rnd` is the randomness of
the SM2 signer.
-/

namespace HybridPqc

inductive NameField where
  | c
  | o
  | cn
  deriving DecidableEq, Repr

inductive MbstringType where
  | asc
  | utf8
  deriving DecidableEq, Repr

structure IssueLib (PKey : Type) extends Openssl PKey where
  /-- `X509_NAME_add_entry_by_txt(name, field, type, bytes, -1, -1, 0)` -/
  x509NameAddEntryByTxt : X509Name → NameField → MbstringType → Bytes → Option X509Name
  /-- `X509V3_EXT_conf_nid(NULL, NULL, nid, value)` -/
  x509v3ExtConfNid : Oid → Bytes → Option X509Extension
  /-- `X509V3_EXT_i2d(NID_subject_key_identifier, 0, identifier)` -/
  x509v3ExtI2dSki : Bytes → Option X509Extension
  /-- `X509V3_EXT_i2d(NID_authority_key_identifier, 0, authority)` -/
  x509v3ExtI2dAki : AuthorityKeyid → Option X509Extension
  /-- `X509_gmtime_adj(t, adj)` at a time. -/
  x509GmtimeAdj : Int → Int → Option Asn1Time

/-- `ASN1_INTEGER_set` of a small non-negative number: the content octets. -/
def asn1IntegerSet (v : UInt8) : Bytes := [v]

/-- `set_composite_algorithm` -/
def compositeAlgorithm : X509Algor := ⟨compositeSm2DilithiumExperimentalOid, none⟩

section

variable {PKey : Type} (L : IssueLib PKey)

def makeName (commonName : CString) : Option X509Name :=
  if commonName.val = [] then none
  else do
    let name ← L.x509NameAddEntryByTxt [] .c .asc (Bytes.ofAscii "CN")
    let name ← L.x509NameAddEntryByTxt name .o .asc (Bytes.ofAscii "Experimental Hybrid PKI")
    L.x509NameAddEntryByTxt name .cn .utf8 commonName.val

def addConfExtension (extensions : List X509Extension) (nid : Oid) (value : Bytes) :
    Option (List X509Extension) := do
  let extension ← L.x509v3ExtConfNid nid value
  return extensions ++ [extension]

def addPqcMarker (extensions : List X509Extension) : List X509Extension :=
  extensions ++ [⟨hybridPqcExtensionOid, false, derNull⟩]

/-- `compute_key_identifier` and `compute_sm2_key_identifier` on the bytes to digest. -/
def digestIdentifier (bytes : Bytes) : Option Bytes :=
  match L.sha256 bytes with
  | none => none
  | some digest => if digest.length = 32 then some digest else none

def computeKeyIdentifier (key : HybridPublicKey PKey) : Option Bytes := do
  let serialized ← compositeSerializePublicKey L.toCrypto key
  digestIdentifier L serialized

def computeSm2KeyIdentifier (key : PKey) : Option Bytes := do
  let publicKey ← sm2Octets L.toCrypto key
  digestIdentifier L publicKey

def addSubjectKeyIdentifier (extensions : List X509Extension) (key : HybridPublicKey PKey) :
    Option (List X509Extension) := do
  let digest ← computeKeyIdentifier L key
  let extension ← L.x509v3ExtI2dSki digest
  return extensions ++ [extension]

def addSm2SubjectKeyIdentifier (extensions : List X509Extension) (key : PKey) :
    Option (List X509Extension) := do
  let digest ← computeSm2KeyIdentifier L key
  let extension ← L.x509v3ExtI2dSki digest
  return extensions ++ [extension]

def addAuthorityKeyIdentifier (extensions : List X509Extension)
    (issuerKey : HybridPublicKey PKey) : Option (List X509Extension) := do
  let digest ← computeKeyIdentifier L issuerKey
  let extension ← L.x509v3ExtI2dAki ⟨some digest⟩
  return extensions ++ [extension]

/-- `X509_PUBKEY_set0_param` leaves no unused bits. -/
def makeCompositeSpki (key : HybridPublicKey PKey) : Option X509Pubkey := do
  let serialized ← compositeSerializePublicKey L.toCrypto key
  return ⟨compositeAlgorithm, .ofOctets serialized⟩

/-- The SM2 SubjectPublicKeyInfo on 65 octets. -/
def sm2Spki (octets : Bytes) : X509Pubkey :=
  ⟨⟨oidEcPublicKey, some (.prim 0x06 oidSm2Curve)⟩, .ofOctets octets⟩

def makeSm2Spki (key : PKey) : Option X509Pubkey := do
  let publicKey ← sm2Octets L.toCrypto key
  return sm2Spki publicKey

def buildRootExtensions (caPublicKey : HybridPublicKey PKey) : Option (List X509Extension) := do
  let xs ← addConfExtension L [] nidBasicConstraints (Bytes.ofAscii "critical,CA:TRUE")
  let xs ← addConfExtension L xs nidKeyUsage (Bytes.ofAscii "critical,keyCertSign,cRLSign")
  let xs ← addSubjectKeyIdentifier L xs caPublicKey
  return addPqcMarker xs

/-- The value given to `NID_subject_alt_name`, unless it does not fit the 300-byte buffer. -/
def sanValue (dnsName : CString) : Option Bytes :=
  let value := Bytes.ofAscii "DNS:" ++ dnsName.val
  if 300 ≤ value.length then none else some value

def buildServerExtensions (caPublicKey serverPublicKey : HybridPublicKey PKey)
    (dnsName : Option CString) : Option (List X509Extension) :=
  match dnsName with
  | none => none
  | some dnsName =>
    if dnsName.val = [] then none
    else do
      let value ← sanValue dnsName
      let xs ← addConfExtension L [] nidBasicConstraints (Bytes.ofAscii "critical,CA:FALSE")
      let xs ← addConfExtension L xs nidKeyUsage (Bytes.ofAscii "critical,digitalSignature")
      let xs ← addConfExtension L xs nidExtKeyUsage (Bytes.ofAscii "serverAuth")
      let xs ← addConfExtension L xs nidSubjectAltName value
      let xs ← addSubjectKeyIdentifier L xs serverPublicKey
      let xs ← addAuthorityKeyIdentifier L xs caPublicKey
      return addPqcMarker xs

def buildEncryptionServerExtensions (caPublicKey : HybridPublicKey PKey)
    (serverSm2PublicKey : PKey) : Option (List X509Extension) := do
  let xs ← addConfExtension L [] nidBasicConstraints (Bytes.ofAscii "critical,CA:FALSE")
  let xs ← addConfExtension L xs nidKeyUsage
    (Bytes.ofAscii "critical,keyEncipherment,keyAgreement")
  let xs ← addSm2SubjectKeyIdentifier L xs serverSm2PublicKey
  let xs ← addAuthorityKeyIdentifier L xs caPublicKey
  return addPqcMarker xs

/-- What `make_tbs` and `make_sm2_encryption_tbs` share. -/
def fillTbs (now : Int) (subjectPublicKeyInfo : Option X509Pubkey) (issuer : X509Name)
    (subjectCommonName : CString) (serialNumber : UInt8)
    (extensions : Option (List X509Extension)) : Option CompositeTbsCertificate := do
  let subject ← makeName L subjectCommonName
  let subjectPublicKeyInfo ← subjectPublicKeyInfo
  let notBefore ← L.x509GmtimeAdj now (-60)
  let notAfter ← L.x509GmtimeAdj now 31536000
  let extensions ← extensions
  return {
    version := some (asn1IntegerSet 2)
    serialNumber := asn1IntegerSet serialNumber
    signature := compositeAlgorithm
    issuer
    validity := ⟨notBefore, notAfter⟩
    subject
    subjectPublicKeyInfo
    issuerUid := none
    subjectUid := none
    extensions := some extensions }

def makeTbs (now : Int) (subjectKey : HybridPublicKey PKey) (issuer : X509Name)
    (subjectCommonName : CString) (serialNumber : UInt8) (isCa : Bool)
    (caPublicKey : HybridPublicKey PKey) (dnsName : Option CString) :
    Option CompositeTbsCertificate :=
  fillTbs L now (makeCompositeSpki L subjectKey) issuer subjectCommonName serialNumber
    (if isCa then buildRootExtensions L subjectKey
     else buildServerExtensions L caPublicKey subjectKey dnsName)

def makeSm2EncryptionTbs (now : Int) (subjectKey : PKey) (issuer : X509Name)
    (subjectCommonName : CString) (caPublicKey : HybridPublicKey PKey) :
    Option CompositeTbsCertificate :=
  fillTbs L now (makeSm2Spki L subjectKey) issuer subjectCommonName 3
    (buildEncryptionServerExtensions L caPublicKey subjectKey)

/-- `sign_tbs`: the signed certificate as `d2i_X509` reads it back. The signature value gets
`ASN1_STRING_FLAG_BITS_LEFT` with no unused bits. -/
def signTbs (tbs : Option CompositeTbsCertificate) (signingKey : HybridPrivateKey PKey)
    (rnd : Bytes) : Option X509 :=
  match tbs with
  | none => none
  | some tbs =>
    match i2dCompositeTbsCertificate tbs with
    | none => none
    | some tbsDer =>
      match compositeSign L.toCrypto signingKey (.buf tbsDer) (.null 0) rnd with
      | none => none
      | some signature =>
        if intMax < signature.length then none
        else
          let certificate : X509 := ⟨tbs, compositeAlgorithm, .ofOctets signature⟩
          match i2dCompositeCertificate certificate with
          | none => none
          | some certificateDer =>
            match L.d2iX509 certificateDer with
            | none => none
            | some (parsed, n) => if n = certificateDer.length then some parsed else none

def hybridX509CreateRoot (now : Int) (caPrivateKey : HybridPrivateKey PKey)
    (caPublicKey : HybridPublicKey PKey) (commonName : CString) (rnd : Bytes) : Option X509 :=
  match makeName L commonName with
  | none => none
  | some name =>
    signTbs L (makeTbs L now caPublicKey name commonName 1 true caPublicKey none) caPrivateKey rnd

def hybridX509CreateServer (now : Int) (caPrivateKey : HybridPrivateKey PKey)
    (caPublicKey serverPublicKey : HybridPublicKey PKey) (issuerCertificate : X509)
    (commonName : CString) (dnsName : Option CString) (rnd : Bytes) : Option X509 :=
  let issuer := issuerCertificate.tbsCertificate.subject
  signTbs L (makeTbs L now serverPublicKey issuer commonName 2 false caPublicKey dnsName)
    caPrivateKey rnd

def hybridX509CreateSm2Encryption (now : Int) (caPrivateKey : HybridPrivateKey PKey)
    (caPublicKey : HybridPublicKey PKey) (serverSm2PublicKey : PKey) (issuerCertificate : X509)
    (commonName : CString) (rnd : Bytes) : Option X509 :=
  if commonName.val = [] then none
  else
    let issuer := issuerCertificate.tbsCertificate.subject
    signTbs L (makeSm2EncryptionTbs L now serverSm2PublicKey issuer commonName caPublicKey)
      caPrivateKey rnd

end

end HybridPqc
