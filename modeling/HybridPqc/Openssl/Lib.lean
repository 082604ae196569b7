import HybridPqc.Openssl.Types

/-!
# Openssl.Lib

What the code calls outside the repository: the SM2, digest and Dilithium2 primitives (`Crypto`)
and OpenSSL's X.509 functions (`Openssl`). Both are parameters of the model. `PKey` stands for
`EVP_PKEY`.

The only facts built in are that an SM2 key imported from 65 octets exports these octets, and
where `d2i_X509` stops: it consumes a non-empty prefix of its input, what it returns depends on
that prefix alone, and on a definite-length element the prefix is that element.
-/

namespace HybridPqc

def longMax : Nat := 2 ^ 63 - 1

def sizeMax : Nat := 2 ^ 64 - 1

def intMax : Nat := 2 ^ 31 - 1

def sm2UncompressedPublicKeyBytes : Nat := 65

structure Crypto (PKey : Type) where
  /-- `EVP_PKEY_is_a(key, "SM2")` -/
  isSm2 : PKey → Bool
  /-- `EVP_PKEY_get_octet_string_param(key, OSSL_PKEY_PARAM_PUB_KEY, …)` into 65 bytes. -/
  getPubKey : PKey → Option Bytes
  getPubKey_le : ∀ {k o}, getPubKey k = some o → o.length ≤ 65
  /-- `EVP_PKEY_fromdata` of an SM2 public key. -/
  fromdata : Bytes → Option PKey
  fromdata_export : ∀ {b k}, b.length = 65 → b.head? = some 0x04 → fromdata b = some k →
    isSm2 k = true ∧ getPubKey k = some b
  publicCheck : PKey → Bool
  privateCheck : PKey → Bool
  /-- `EVP_Digest` with `EVP_sm3()` / `EVP_sha256()`. -/
  sm3 : Bytes → Option Bytes
  sha256 : Bytes → Option Bytes
  /-- `d2i_ECDSA_SIG`: `(r, s)` and the number of bytes consumed. -/
  d2iEcdsaSig : Bytes → Option ((Int × Int) × Nat)
  i2dEcdsaSig : Int × Int → Option Bytes
  /-- `EVP_DigestSign` with SM3 and the given user id; the last argument is the randomness drawn. -/
  digestSign : PKey → Bytes → Bytes → Bytes → Option Bytes
  /-- `EVP_DigestVerify(key, id, signature, message) == 1` -/
  digestVerify : PKey → Bytes → Bytes → Bytes → Bool
  /-- `pqcrystals_dilithium2_ref_signature(message, secret_key)` -/
  dilithium2Signature : Bytes → Bytes → Option Bytes
  /-- `pqcrystals_dilithium2_ref_verify(signature, message, public_key) == 0` -/
  dilithium2Verify : Bytes → Bytes → Bytes → Bool

structure Openssl (PKey : Type) extends Crypto PKey where
  /-- `d2i_X509(NULL, &cursor, len)`: the certificate and the number of bytes consumed. -/
  d2iX509 : Bytes → Option (X509 × Nat)
  d2iX509_pos : ∀ {b c n}, d2iX509 b = some (c, n) → 0 < n ∧ n ≤ b.length
  d2iX509_local : ∀ {b c n}, d2iX509 b = some (c, n) → ∀ r, d2iX509 (b.take n ++ r) = some (c, n)
  d2iX509_tlv : ∀ {e r c n}, Ber.IsTlv 0x30 e → d2iX509 (e ++ r) = some (c, n) → n = e.length
  /-- `i2d_re_X509_tbs` -/
  i2dReX509Tbs : CompositeTbsCertificate → Option Bytes
  /-- The canonical encoding that `X509_NAME_cmp` compares. -/
  nameCanon : X509Name → Bytes
  /-- `X509_cmp_time(time, now)` -/
  cmpTime : Asn1Time → Int → Int
  /-- `X509_check_host(certificate, hostname, 0, 0, NULL)` -/
  checkHost : X509 → Bytes → Int
  /-- `X509_get_pubkey` on the SubjectPublicKeyInfo. -/
  getPubkey : X509Pubkey → Option PKey
  d2iBasicConstraints : Bytes → Option BasicConstraints
  d2iKeyUsage : Bytes → Option Asn1BitString
  d2iExtKeyUsage : Bytes → Option (List Oid)
  d2iSubjectAltName : Bytes → Option (List GeneralName)
  d2iSubjectKeyIdentifier : Bytes → Option Bytes
  d2iAuthorityKeyid : Bytes → Option AuthorityKeyid

namespace Openssl

variable {PKey : Type} (E : Openssl PKey)

/-- `X509_NAME_cmp`: `0` exactly on equal canonical encodings. -/
def x509NameCmp (a b : X509Name) : Int := if E.nameCanon a = E.nameCanon b then 0 else 1

@[simp] theorem x509NameCmp_eq_zero {a b : X509Name} :
    E.x509NameCmp a b = 0 ↔ E.nameCanon a = E.nameCanon b := by
  simp [x509NameCmp]

end Openssl

end HybridPqc
