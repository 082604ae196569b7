import HybridPqc.Ber.Element

/-!
# Openssl.Types

The certificate data that the code reads through OpenSSL's accessors. `CompositeTbsCertificate` and
`X509` follow the two ASN.1 templates of `hybrid_x509.c`, which are those of OpenSSL's own
`X509_CINF` and `X509`; an `X509 *` is one of these values. Object identifiers are kept as DER
content octets, what `OBJ_cmp` compares.
-/

namespace HybridPqc

abbrev Oid := Bytes

/-- Base-128 octets of one arc; the last has its top bit clear. -/
def arcOctets (n : Nat) : Bytes :=
  match Nat.digits 128 n with
  | [] => [0]
  | d :: ds => (UInt8.ofNat d :: ds.map fun x => UInt8.ofNat (128 + x)).reverse

/-- `OBJ_txt2obj(s, 1)` on the arcs of a dotted identifier. -/
def objTxt2obj : List Nat → Oid
  | a :: b :: rest => arcOctets (40 * a + b) ++ rest.flatMap arcOctets
  | _ => []

def compositeSm2DilithiumExperimentalOid : Oid := objTxt2obj [1, 3, 6, 1, 4, 1, 32473, 1, 1]

def hybridPqcExtensionOid : Oid := objTxt2obj [1, 3, 6, 1, 4, 1, 2, 267, 7]

def oidEcPublicKey : Oid := objTxt2obj [1, 2, 840, 10045, 2, 1]
def oidSm2Curve : Oid := objTxt2obj [1, 2, 156, 10197, 1, 301]
def nidServerAuth : Oid := objTxt2obj [1, 3, 6, 1, 5, 5, 7, 3, 1]
def nidSubjectKeyIdentifier : Oid := objTxt2obj [2, 5, 29, 14]
def nidKeyUsage : Oid := objTxt2obj [2, 5, 29, 15]
def nidSubjectAltName : Oid := objTxt2obj [2, 5, 29, 17]
def nidBasicConstraints : Oid := objTxt2obj [2, 5, 29, 19]
def nidAuthorityKeyIdentifier : Oid := objTxt2obj [2, 5, 29, 35]
def nidExtKeyUsage : Oid := objTxt2obj [2, 5, 29, 37]

/-- A BIT STRING. `bitsLeft = some n` is `ASN1_STRING_FLAG_BITS_LEFT` with `n` unused bits; with
`none` the encoder strips trailing zero bits. -/
structure Asn1BitString where
  data : Bytes
  bitsLeft : Option (Fin 8)
  deriving DecidableEq, Repr

namespace Asn1BitString

/-- `flags & 0x07` -/
def unusedBits (s : Asn1BitString) : Nat :=
  match s.bitsLeft with
  | some n => n.val
  | none => 0

/-- `ASN1_BIT_STRING_get_bit`: bit 0 is the top bit of the first octet. -/
def getBit (s : Asn1BitString) (n : Nat) : Bool :=
  match s.data[n / 8]? with
  | some x => x.toNat.testBit (7 - n % 8)
  | none => false

end Asn1BitString

/-- `parameter = none` is `V_ASN1_UNDEF`: the parameters are absent. -/
structure X509Algor where
  algorithm : Oid
  parameter : Option Ber.Element

structure X509NameEntry where
  object : Oid
  type : UInt8
  value : Bytes
  deriving DecidableEq, Repr

/-- An `X509_NAME`: its relative distinguished names in order. -/
abbrev X509Name := List (List X509NameEntry)

structure Asn1Time where
  type : UInt8
  data : Bytes
  deriving DecidableEq, Repr

structure X509Val where
  notBefore : Asn1Time
  notAfter : Asn1Time
  deriving DecidableEq, Repr

structure X509Pubkey where
  algor : X509Algor
  publicKey : Asn1BitString

structure X509Extension where
  object : Oid
  critical : Bool
  value : Bytes
  deriving DecidableEq, Repr

structure CompositeTbsCertificate where
  version : Option Bytes
  serialNumber : Bytes
  signature : X509Algor
  issuer : X509Name
  validity : X509Val
  subject : X509Name
  subjectPublicKeyInfo : X509Pubkey
  issuerUid : Option Asn1BitString
  subjectUid : Option Asn1BitString
  extensions : Option (List X509Extension)

structure X509 where
  tbsCertificate : CompositeTbsCertificate
  signatureAlgorithm : X509Algor
  signatureValue : Asn1BitString

/-! ## Extension values -/

structure BasicConstraints where
  ca : Bool
  deriving DecidableEq, Repr

structure AuthorityKeyid where
  keyid : Option Bytes
  deriving DecidableEq, Repr

inductive GeneralNameType where
  | otherName | email | dns | x400 | dirName | ediParty | uri | ipAdd | rid
  deriving DecidableEq, Repr

structure GeneralName where
  type : GeneralNameType
  value : Bytes
  deriving DecidableEq, Repr

namespace X509

/-- The extensions of a certificate; an absent list has none. -/
def extensionList (c : X509) : List X509Extension := c.tbsCertificate.extensions.getD []

/-- `X509_get_ext_by_OBJ(c, obj, lastpos)`: the first index from `start = lastpos + 1` on. -/
def getExtByObj (c : X509) (obj : Oid) (start : Nat) : Option Nat :=
  ((c.extensionList.drop start).findIdx? (·.object == obj)).map (· + start)

/-- `X509_get_ext_d2i(c, nid, &critical, NULL)` with the decoder of that extension: the value and
the criticality of the only extension of that type. Two of them give `NULL`. -/
def getExtD2i {α : Type} (c : X509) (nid : Oid) (d2i : Bytes → Option α) : Option (α × Bool) :=
  match c.extensionList.filter (·.object == nid) with
  | [e] => (d2i e.value).map (·, e.critical)
  | _ => none

end X509

end HybridPqc
