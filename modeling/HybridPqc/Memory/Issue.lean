import HybridPqc.Memory.Composite
import HybridPqc.X509.Issue

/-!
# Memory.Issue

The writers of `hybrid_x509.c` with the memory they ask for.

An `X509_EXTENSION` that is pushed belongs to its stack, the stack to the TBS structure, and the TBS
structure to the certificate that is signed; what `X509_ALGOR_set0` and `X509_PUBKEY_set0_param` are
given belongs to the structure when they succeed. `COMPOSITE_TBS_CERTIFICATE_new` makes a name for
issuer and subject and an empty key, which `make_tbs` releases before it puts its own there. A
pointer into an object is an `Obj` with the handles of that object.
-/

namespace HybridPqc

namespace Memory

open Refs
open Refs.Act

abbrev Extensions := Obj (List X509Extension)

section

variable {plan : Nat → Bool}

/-- `OBJ_txt2obj` -/
def objTxt2obj (oid : Oid) : Act plan (Option (Obj Oid)) := alloc oid

/-- `set_composite_algorithm` of the `X509_ALGOR` that `set` stores to. `X509_ALGOR_set0` with
`V_ASN1_UNDEF` does not fail; the object it replaces is a static one. -/
def setCompositeAlgorithm {α : Type} (owner : Obj α) (set : X509Algor → α → α) :
    Act plan (Bool × Obj α) := do
  match ← objTxt2obj compositeSm2DilithiumExperimentalOid with
  | none => return (false, owner)
  | some object =>
    touch owner
    return (true, owner.adopt object (set ⟨object.val, none⟩ owner.val))

/-! ## Extensions -/

/-- `sk_X509_EXTENSION_push` -/
def skX509ExtensionPush (extensions : Extensions) (extension : Obj X509Extension) :
    Act plan (Bool × Extensions) := do
  touch extensions
  touch extension
  if ← test true then
    return (true, extensions.adopt extension (extensions.val ++ [extension.val]))
  else return (false, extensions)

def pushExtension (extensions : Extensions) (extension : Option (Obj X509Extension)) :
    Act plan (Bool × Extensions) :=
  match extension with
  | none => return (false, extensions)
  | some extension => do
    match ← skX509ExtensionPush extensions extension with
    | (true, extensions) => return (true, extensions)
    | (false, extensions) =>
      freeObj extension
      return (false, extensions)

/-- `ASN1_OCTET_STRING_new` and `ASN1_OCTET_STRING_set`, with the pointer in any case. -/
def newOctetString (data : Bytes) : Act plan (Bool × Option (Obj Bytes)) := do
  match ← alloc ([] : Bytes) with
  | none => return (false, none)
  | some value =>
    let (set, value) ← change value (some data)
    return (set, some value)

/-- What the functions that add an extension of their own share, from its value on: `done` releases
the extension unless it was pushed, and the value. -/
def addEncoded {β : Type} (extensions : Extensions) (value : Bool × Option (Obj β))
    (encode : β → Option X509Extension) : Act plan (Bool × Extensions) :=
  match value with
  | (true, some v) => do
    touch v
    let extension ← make (encode v.val)
    let r ← pushExtension extensions extension
    freeObj v
    return r
  | (_, v) => do
    free v
    return (false, extensions)

def addPqcMarker (extensions : Extensions) : Act plan (Bool × Extensions) := do
  let object ← objTxt2obj hybridPqcExtensionOid
  let value ← alloc ([] : Bytes)
  match object, value with
  | some object, some value =>
    let (set, value) ← change value (some derNull)
    let r ← addEncoded extensions (set, some value) fun value =>
      some ⟨object.val, false, value⟩
    freeObj object
    return r
  | object, value =>
    free value
    free object
    return (false, extensions)

end

section

variable {plan : Nat → Bool} {PKey : Type} (L : IssueLib PKey)

def addConfExtension (extensions : Extensions) (nid : Oid) (value : Bytes) :
    Act plan (Bool × Extensions) := do
  let extension ← make (L.x509v3ExtConfNid nid value)
  pushExtension extensions extension

/-- `EVP_Digest` and the check of its length. -/
def digestIdentifier (bytes : Bytes) : Act plan (Option Bytes) := do
  match ← call (L.sha256 bytes) with
  | none => return none
  | some digest => if digest.length = 32 then return some digest else return none

def computeKeyIdentifier (key : HybridPublicKey PKey) : Act plan (Option Bytes) := do
  let serialized ← compositeSerializePublicKey L.toCrypto key
  let digest ← reading serialized fun serialized => digestIdentifier L serialized
  free serialized
  return digest

/-- The octets are exported to a buffer of the function. -/
def computeSm2KeyIdentifier (key : PKey) : Act plan (Option Bytes) := do
  match ← call (sm2Octets L.toCrypto key) with
  | none => return none
  | some publicKey => digestIdentifier L publicKey

/-- From the digest on, `add_subject_key_identifier` and `add_sm2_subject_key_identifier`. -/
def addIdentifier (extensions : Extensions) (digest : Option Bytes) :
    Act plan (Bool × Extensions) :=
  match digest with
  | none => return (false, extensions)
  | some digest => do
    let identifier ← newOctetString digest
    addEncoded extensions identifier L.x509v3ExtI2dSki

def addSubjectKeyIdentifier (extensions : Extensions) (key : HybridPublicKey PKey) :
    Act plan (Bool × Extensions) := do
  let digest ← computeKeyIdentifier L key
  addIdentifier L extensions digest

def addSm2SubjectKeyIdentifier (extensions : Extensions) (key : PKey) :
    Act plan (Bool × Extensions) := do
  let digest ← computeSm2KeyIdentifier L key
  addIdentifier L extensions digest

/-- `AUTHORITY_KEYID_new`, and a key identifier that belongs to it. -/
def newAuthority (digest : Bytes) : Act plan (Bool × Option (Obj AuthorityKeyid)) := do
  match ← alloc (⟨none⟩ : AuthorityKeyid) with
  | none => return (false, none)
  | some authority =>
    match ← newOctetString digest with
    | (set, some keyid) => return (set, some (authority.adopt keyid ⟨some keyid.val⟩))
    | (_, none) => return (false, some authority)

def addAuthorityKeyIdentifier (extensions : Extensions) (issuerKey : HybridPublicKey PKey) :
    Act plan (Bool × Extensions) := do
  match ← computeKeyIdentifier L issuerKey with
  | none => return (false, extensions)
  | some digest =>
    let authority ← newAuthority digest
    addEncoded extensions authority L.x509v3ExtI2dAki

/-- The stack, and what `add` does with it. -/
def newExtensions (add : Extensions → Act plan (Bool × Extensions)) :
    Act plan (Bool × Option Extensions) := do
  match ← alloc ([] : List X509Extension) with
  | none => return (false, none)
  | some extensions =>
    let (ok, extensions) ← add extensions
    return (ok, some extensions)

def buildRootExtensions (caPublicKey : HybridPublicKey PKey) :
    Act plan (Bool × Option Extensions) :=
  newExtensions fun xs =>
    both (addConfExtension L xs nidBasicConstraints (Bytes.ofAscii "critical,CA:TRUE")) fun xs =>
    both (addConfExtension L xs nidKeyUsage (Bytes.ofAscii "critical,keyCertSign,cRLSign"))
      fun xs =>
    both (addSubjectKeyIdentifier L xs caPublicKey) addPqcMarker

def buildServerExtensions (caPublicKey serverPublicKey : HybridPublicKey PKey)
    (dnsName : Option CString) : Act plan (Bool × Option Extensions) :=
  match dnsName with
  | none => return (false, none)
  | some dnsName =>
    if dnsName.val = [] then return (false, none)
    else match sanValue dnsName with
      | none => return (false, none)
      | some value =>
        newExtensions fun xs =>
          both (addConfExtension L xs nidBasicConstraints (Bytes.ofAscii "critical,CA:FALSE"))
            fun xs =>
          both (addConfExtension L xs nidKeyUsage (Bytes.ofAscii "critical,digitalSignature"))
            fun xs =>
          both (addConfExtension L xs nidExtKeyUsage (Bytes.ofAscii "serverAuth")) fun xs =>
          both (addConfExtension L xs nidSubjectAltName value) fun xs =>
          both (addSubjectKeyIdentifier L xs serverPublicKey) fun xs =>
          both (addAuthorityKeyIdentifier L xs caPublicKey) addPqcMarker

def buildEncryptionServerExtensions (caPublicKey : HybridPublicKey PKey)
    (serverSm2PublicKey : PKey) : Act plan (Bool × Option Extensions) :=
  newExtensions fun xs =>
    both (addConfExtension L xs nidBasicConstraints (Bytes.ofAscii "critical,CA:FALSE")) fun xs =>
    both (addConfExtension L xs nidKeyUsage
      (Bytes.ofAscii "critical,keyEncipherment,keyAgreement")) fun xs =>
    both (addSm2SubjectKeyIdentifier L xs serverSm2PublicKey) fun xs =>
    both (addAuthorityKeyIdentifier L xs caPublicKey) addPqcMarker

/-! ## Names and keys -/

def emptyName : X509Name := []

def makeName (commonName : CString) : Act plan (Option (Obj X509Name)) :=
  if commonName.val = [] then return none
  else do
    match ← alloc emptyName with
    | none => return none
    | some name =>
      let r ← both (change name (L.x509NameAddEntryByTxt name.val .c .asc (Bytes.ofAscii "CN")))
        fun name =>
        both (change name (L.x509NameAddEntryByTxt name.val .o .asc
          (Bytes.ofAscii "Experimental Hybrid PKI"))) fun name =>
        change name (L.x509NameAddEntryByTxt name.val .cn .utf8 commonName.val)
      keepIf r

/-- `X509_NAME_dup` -/
def x509NameDup (name : Obj X509Name) : Act plan (Option (Obj X509Name)) := do
  touch name
  alloc name.val

/-- An `X509_PUBKEY` before it is given an algorithm and a key. -/
def emptySpki : X509Pubkey := ⟨⟨[], none⟩, ⟨[], none⟩⟩

/-- `X509_PUBKEY_set0_param` with `V_ASN1_UNDEF` does not fail. -/
def makeCompositeSpki (key : HybridPublicKey PKey) : Act plan (Option (Obj X509Pubkey)) := do
  match ← compositeSerializePublicKey L.toCrypto key with
  | none => return none
  | some serialized =>
    let spki ← alloc emptySpki
    let algorithm ← objTxt2obj compositeSm2DilithiumExperimentalOid
    match spki, algorithm with
    | some spki, some algorithm =>
      touch spki
      return some ((spki.adopt algorithm spki.val).adopt serialized
        ⟨⟨algorithm.val, none⟩, .ofOctets serialized.val⟩)
    | spki, algorithm =>
      free algorithm
      freeObj serialized
      free spki
      return none

/-- `X509_PUBKEY_set0_param` with `V_ASN1_OBJECT` asks for memory before it takes anything over. -/
def makeSm2Spki (key : PKey) : Act plan (Option (Obj X509Pubkey)) :=
  if L.isSm2 key then do
    let spki ← alloc emptySpki
    let algorithm ← objTxt2obj oidEcPublicKey
    let curve ← objTxt2obj oidSm2Curve
    let publicKey ← alloc (Bytes.zeros sm2UncompressedPublicKeyBytes)
    match spki, algorithm, curve, publicKey with
    | some spki, some algorithm, some curve, some publicKey =>
      let (exported, publicKey) ← change publicKey (sm2Octets L.toCrypto key)
      let set ← also exported (test true)
      if set then
        touch spki
        return some (((spki.adopt algorithm spki.val).adopt curve spki.val).adopt publicKey
          ⟨⟨algorithm.val, some (.prim 0x06 curve.val)⟩, .ofOctets publicKey.val⟩)
      else
        freeObj publicKey
        freeObj curve
        freeObj algorithm
        freeObj spki
        return none
    | spki, algorithm, curve, publicKey =>
      free publicKey
      free curve
      free algorithm
      free spki
      return none
  else return none

/-! ## The TBS structure -/

/-- A `COMPOSITE_TBS_CERTIFICATE` as its constructor leaves it. -/
structure FreshTbs where
  self : Obj CompositeTbsCertificate
  issuer : Obj X509Name
  subject : Obj X509Name
  subjectPublicKeyInfo : Obj X509Pubkey

def emptyTbs : CompositeTbsCertificate where
  version := none
  serialNumber := []
  signature := ⟨[], none⟩
  issuer := []
  validity := ⟨⟨0, []⟩, ⟨0, []⟩⟩
  subject := []
  subjectPublicKeyInfo := emptySpki
  issuerUid := none
  subjectUid := none
  extensions := none

namespace FreshTbs

def owned (tbs : FreshTbs) : Multiset Nat :=
  tbs.self.owned + (tbs.issuer.owned + (tbs.subject.owned + tbs.subjectPublicKeyInfo.owned))

def free (tbs : FreshTbs) : Act plan Unit := do
  freeObj tbs.issuer
  freeObj tbs.subject
  freeObj tbs.subjectPublicKeyInfo
  freeObj tbs.self

def freeOpt : Option FreshTbs → Act plan Unit
  | none => return ()
  | some tbs => tbs.free

/-- `COMPOSITE_TBS_CERTIFICATE_new` -/
def new : Act plan (Option FreshTbs) := do
  let self ← alloc emptyTbs
  let issuer ← alloc emptyName
  let subject ← alloc emptyName
  let subjectPublicKeyInfo ← alloc emptySpki
  match self, issuer, subject, subjectPublicKeyInfo with
  | some self, some issuer, some subject, some subjectPublicKeyInfo =>
    return some ⟨self, issuer, subject, subjectPublicKeyInfo⟩
  | self, issuer, subject, subjectPublicKeyInfo =>
    Act.free issuer
    Act.free subject
    Act.free subjectPublicKeyInfo
    Act.free self
    return none

end FreshTbs

/-- `ASN1_INTEGER_new` into `tbs->version`, and `ASN1_INTEGER_set` of it. -/
def setVersion (tbs : Obj CompositeTbsCertificate) (v : UInt8) :
    Act plan (Bool × Obj CompositeTbsCertificate) := do
  match ← alloc ([] : Bytes) with
  | none => return (false, tbs)
  | some version =>
    let (set, version) ← change version (some (asn1IntegerSet v))
    return (set, tbs.adopt version { tbs.val with version := some version.val })

/-- What a `build_…_extensions` function has left in `tbs->extensions`. -/
def setExtensions (tbs : Obj CompositeTbsCertificate)
    (build : Act plan (Bool × Option Extensions)) :
    Act plan (Bool × Obj CompositeTbsCertificate) := do
  match ← build with
  | (ok, some extensions) =>
    return (ok, tbs.adopt extensions { tbs.val with extensions := some extensions.val })
  | (_, none) => return (false, tbs)

/-- The members that `make_tbs` and `make_sm2_encryption_tbs` set. -/
def setMembers (now : Int) (tbs : Obj CompositeTbsCertificate) (serialNumber : UInt8)
    (build : Act plan (Bool × Option Extensions)) :
    Act plan (Bool × Obj CompositeTbsCertificate) :=
  both (setVersion tbs 2) fun tbs =>
  both (change tbs (some { tbs.val with serialNumber := asn1IntegerSet serialNumber })) fun tbs =>
  both (setCompositeAlgorithm tbs fun algorithm tbs => { tbs with signature := algorithm })
    fun tbs =>
  both (change tbs ((L.x509GmtimeAdj now (-60)).map fun t =>
    { tbs.val with validity := { tbs.val.validity with notBefore := t } })) fun tbs =>
  both (change tbs ((L.x509GmtimeAdj now 31536000).map fun t =>
    { tbs.val with validity := { tbs.val.validity with notAfter := t } })) fun tbs =>
  setExtensions tbs build

/-- What `make_tbs` and `make_sm2_encryption_tbs` share. -/
def fillTbs (now : Int) (makeSpki : Act plan (Option (Obj X509Pubkey))) (issuer : Obj X509Name)
    (subjectCommonName : CString) (serialNumber : UInt8)
    (build : Act plan (Bool × Option Extensions)) :
    Act plan (Option (Obj CompositeTbsCertificate)) := do
  let tbs ← FreshTbs.new
  let issuerCopy ← x509NameDup issuer
  let subject ← makeName L subjectCommonName
  let subjectPublicKeyInfo ← makeSpki
  match tbs, issuerCopy, subject, subjectPublicKeyInfo with
  | some tbs, some issuerCopy, some subject, some subjectPublicKeyInfo =>
    freeObj tbs.issuer
    freeObj tbs.subject
    freeObj tbs.subjectPublicKeyInfo
    let filled := ((tbs.self.adopt issuerCopy tbs.self.val).adopt subject tbs.self.val).adopt
      subjectPublicKeyInfo { tbs.self.val with
        issuer := issuerCopy.val
        subject := subject.val
        subjectPublicKeyInfo := subjectPublicKeyInfo.val }
    let r ← setMembers L now filled serialNumber build
    keepIf r
  | tbs, issuerCopy, subject, subjectPublicKeyInfo =>
    free subjectPublicKeyInfo
    free subject
    free issuerCopy
    FreshTbs.freeOpt tbs
    return none

def makeTbs (now : Int) (subjectKey : HybridPublicKey PKey) (issuer : Obj X509Name)
    (subjectCommonName : CString) (serialNumber : UInt8) (isCa : Bool)
    (caPublicKey : HybridPublicKey PKey) (dnsName : Option CString) :
    Act plan (Option (Obj CompositeTbsCertificate)) :=
  fillTbs L now (makeCompositeSpki L subjectKey) issuer subjectCommonName serialNumber
    (if isCa then buildRootExtensions L subjectKey
     else buildServerExtensions L caPublicKey subjectKey dnsName)

def makeSm2EncryptionTbs (now : Int) (subjectKey : PKey) (issuer : Obj X509Name)
    (subjectCommonName : CString) (caPublicKey : HybridPublicKey PKey) :
    Act plan (Option (Obj CompositeTbsCertificate)) :=
  fillTbs L now (makeSm2Spki L subjectKey) issuer subjectCommonName 3
    (buildEncryptionServerExtensions L caPublicKey subjectKey)

/-! ## Signing -/

/-- `d2i_X509` of a whole buffer; a certificate that leaves bytes over is released. -/
def d2iWhole (E : Openssl PKey) (der : Bytes) : Act plan (Option (Obj X509)) := do
  match ← make (E.d2iX509 der) with
  | none => return none
  | some parsed =>
    if parsed.val.2 = der.length then return some ⟨parsed.handles, parsed.val.1⟩
    else
      freeObj parsed
      return none

/-- A certificate around a TBS structure, before its algorithm and its signature are set. -/
def unsigned (tbs : CompositeTbsCertificate) : X509 := ⟨tbs, ⟨[], none⟩, ⟨[], none⟩⟩

/-- The certificate takes `tbs` over, its own TBS structure is released. The object that comes out
is what `done` releases as `certificate` or `tbs`: one of them is `NULL`. -/
def assemble (tbs : Obj CompositeTbsCertificate) (signature : Bytes) :
    Act plan (Bool × Obj X509) := do
  let certificate ← alloc ()
  let own ← FreshTbs.new
  match certificate, own with
  | some certificate, some own =>
    own.free
    let certificate := certificate.adopt tbs (unsigned tbs.val)
    both (setCompositeAlgorithm certificate fun algorithm c =>
      { c with signatureAlgorithm := algorithm }) fun certificate =>
    change certificate (some { certificate.val with signatureValue := .ofOctets signature })
  | certificate, own =>
    free certificate
    FreshTbs.freeOpt own
    return (false, ⟨tbs.handles, unsigned tbs.val⟩)

/-- The certificate once there may be a signature. -/
def certificateOf (tbs : Obj CompositeTbsCertificate) (signature : Option (Obj Bytes)) :
    Act plan (Bool × Obj X509) :=
  match signature with
  | none => return (false, ⟨tbs.handles, unsigned tbs.val⟩)
  | some signature =>
    if intMax < signature.val.length then return (false, ⟨tbs.handles, unsigned tbs.val⟩)
    else do
      touch signature
      assemble tbs signature.val

def signTbs (tbs : Option (Obj CompositeTbsCertificate)) (signingKey : HybridPrivateKey PKey)
    (rnd : Bytes) : Act plan (Option (Obj X509)) :=
  match tbs with
  | none => return none
  | some tbs => do
    touch tbs
    let tbsDer ← make (i2dCompositeTbsCertificate tbs.val)
    let signature ← reading tbsDer fun tbsDer =>
      compositeSign L.toCrypto signingKey (.buf tbsDer) (.null 0) rnd
    let (signed, certificate) ← certificateOf tbs signature
    let certificateDer ← guarded signed (make (i2dCompositeCertificate certificate.val))
    let parsed ← reading certificateDer fun der => d2iWhole L.toOpenssl der
    free certificateDer
    free signature
    free tbsDer
    freeObj certificate
    return parsed

/-! ## Certificates -/

def hybridX509CreateRoot (now : Int) (caPrivateKey : HybridPrivateKey PKey)
    (caPublicKey : HybridPublicKey PKey) (commonName : CString) (rnd : Bytes) :
    Act plan (Option (Obj X509)) := do
  match ← makeName L commonName with
  | none => return none
  | some name =>
    let tbs ← makeTbs L now caPublicKey name commonName 1 true caPublicKey none
    freeObj name
    signTbs L tbs caPrivateKey rnd

/-- `X509_get_subject_name`: a pointer into the certificate. -/
def x509GetSubjectName (certificate : Obj X509) : Obj X509Name :=
  ⟨certificate.handles, certificate.val.tbsCertificate.subject⟩

def hybridX509CreateServer (now : Int) (caPrivateKey : HybridPrivateKey PKey)
    (caPublicKey serverPublicKey : HybridPublicKey PKey) (issuerCertificate : Obj X509)
    (commonName : CString) (dnsName : Option CString) (rnd : Bytes) :
    Act plan (Option (Obj X509)) := do
  let issuer := x509GetSubjectName issuerCertificate
  let tbs ← makeTbs L now serverPublicKey issuer commonName 2 false caPublicKey dnsName
  signTbs L tbs caPrivateKey rnd

def hybridX509CreateSm2Encryption (now : Int) (caPrivateKey : HybridPrivateKey PKey)
    (caPublicKey : HybridPublicKey PKey) (serverSm2PublicKey : PKey) (issuerCertificate : Obj X509)
    (commonName : CString) (rnd : Bytes) : Act plan (Option (Obj X509)) :=
  if commonName.val = [] then return none
  else do
    let issuer := x509GetSubjectName issuerCertificate
    let tbs ← makeSm2EncryptionTbs L now serverSm2PublicKey issuer commonName caPublicKey
    signTbs L tbs caPrivateKey rnd

end

end Memory

end HybridPqc
