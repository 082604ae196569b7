import HybridPqc.Composite.Sig

/-!
# X509.Fields

The readers of `hybrid_x509.c`: what the verifier and the adapter take out of a decoded
certificate. A certificate argument is non-`NULL` here; the callers test for `NULL`.
-/

namespace HybridPqc

/-- `05 00`, the value of the marker extension. -/
def derNull : Bytes := [0x05, 0x00]

def algorithmIsCompositeAndAbsent (algorithm : X509Algor) : Bool :=
  algorithm.parameter.isNone && algorithm.algorithm == compositeSm2DilithiumExperimentalOid

def hybridX509CompositeSignatureAlgorithmsValid (certificate : X509) : Bool :=
  algorithmIsCompositeAndAbsent certificate.tbsCertificate.signature &&
    algorithmIsCompositeAndAbsent certificate.signatureAlgorithm &&
    certificate.tbsCertificate.signature.algorithm == certificate.signatureAlgorithm.algorithm

def hybridX509SubjectPublicKeyIsComposite (certificate : X509) : Bool :=
  algorithmIsCompositeAndAbsent certificate.tbsCertificate.subjectPublicKeyInfo.algor

def hybridX509CompositeAlgorithmsValid (certificate : X509) : Bool :=
  hybridX509CompositeSignatureAlgorithmsValid certificate &&
    hybridX509SubjectPublicKeyIsComposite certificate

def hybridX509GetSignature (certificate : X509) : Option Bytes :=
  if certificate.signatureValue.unusedBits ≠ 0 ∨ certificate.signatureValue.data.length = 0 then
    none
  else some certificate.signatureValue.data

def hybridX509HasPqcExtension (certificate : X509) : Bool :=
  match certificate.getExtByObj hybridPqcExtensionOid 0 with
  | none => false
  | some first =>
    match certificate.getExtByObj hybridPqcExtensionOid (first + 1) with
    | some _ => false
    | none =>
      match certificate.extensionList[first]? with
      | none => false
      | some extension => !extension.critical && extension.value == derNull

section

variable {PKey : Type} (E : Openssl PKey)

/-- `hybrid_x509_get_tbs_der`: the TBSCertificate encoded afresh from the decoded fields. -/
def hybridX509GetTbsDer (certificate : X509) : Option Bytes :=
  match E.i2dReX509Tbs certificate.tbsCertificate with
  | none => none
  | some output => if output.length = 0 then none else some output

def hybridX509SubjectPublicKeyIsSm2 (certificate : X509) : Bool :=
  match E.getPubkey certificate.tbsCertificate.subjectPublicKeyInfo with
  | none => false
  | some key => E.isSm2 key

/-- `hybrid_x509_get_composite_public_key`; on `none` the caller's key is left alone. -/
def hybridX509GetCompositePublicKey (certificate : X509) : Option (HybridPublicKey PKey) :=
  let spki := certificate.tbsCertificate.subjectPublicKeyInfo
  if spki.publicKey.unusedBits ≠ 0 ∨ ¬ algorithmIsCompositeAndAbsent spki.algor ∨
      spki.publicKey.data.length = 0 then none
  else compositeParsePublicKey E.toCrypto spki.publicKey.data

def hybridX509PublicKeyMatches (certificate : X509) (publicKey : HybridPublicKey PKey) : Bool :=
  match hybridX509GetCompositePublicKey E certificate with
  | none => false
  | some certificateKey => compositePublicKeysEqual E.toCrypto certificateKey publicKey

/-- `hybrid_x509_get_sm2_public_key_octets`, the octets on success. -/
def hybridX509GetSm2PublicKeyOctets (certificate : X509) : Option Bytes :=
  match E.getPubkey certificate.tbsCertificate.subjectPublicKeyInfo with
  | none => none
  | some key => sm2Octets E.toCrypto key

def hybridX509Sm2PublicKeyMatches (certificate : X509) (publicKey : PKey) : Bool :=
  if E.isSm2 publicKey then
    match hybridX509GetSm2PublicKeyOctets E certificate, E.getPubKey publicKey with
    | some certificateBytes, some suppliedBytes =>
      suppliedBytes.length == sm2UncompressedPublicKeyBytes && certificateBytes == suppliedBytes
    | _, _ => false
  else false

end

/-! ## What the readers say -/

theorem algorithmIsCompositeAndAbsent_iff {a : X509Algor} :
    algorithmIsCompositeAndAbsent a = true ↔
      a.algorithm = compositeSm2DilithiumExperimentalOid ∧ a.parameter = none := by
  simp [algorithmIsCompositeAndAbsent, and_comm]

theorem hybridX509CompositeSignatureAlgorithmsValid_iff {c : X509} :
    hybridX509CompositeSignatureAlgorithmsValid c = true ↔
      (c.tbsCertificate.signature.algorithm = compositeSm2DilithiumExperimentalOid ∧
        c.tbsCertificate.signature.parameter = none) ∧
      (c.signatureAlgorithm.algorithm = compositeSm2DilithiumExperimentalOid ∧
        c.signatureAlgorithm.parameter = none) := by
  simp only [hybridX509CompositeSignatureAlgorithmsValid, Bool.and_eq_true,
    algorithmIsCompositeAndAbsent_iff, beq_iff_eq]
  constructor
  · rintro ⟨h, _⟩; exact h
  · rintro ⟨hi, ho⟩; exact ⟨⟨hi, ho⟩, hi.1.trans ho.1.symm⟩

/-- A first match with no later one is the only match. -/
theorem findIdx?_only_iff {α : Type} {p : α → Bool} {e : α} (l : List α) :
    (∃ i, l.findIdx? p = some i ∧ (l.drop (i + 1)).findIdx? p = none ∧ l[i]? = some e) ↔
      l.filter p = [e] := by
  induction l with
  | nil => simp
  | cons x xs ih =>
    cases hx : p x with
    | true =>
      simp only [List.findIdx?_cons, hx, if_true, List.filter_cons, Option.some.injEq,
        exists_eq_left', List.drop_succ_cons, List.drop_zero,
        List.findIdx?_eq_none_iff, List.getElem?_cons_zero, List.cons.injEq, List.filter_eq_nil_iff,
        Bool.not_eq_true]
      tauto
    | false =>
      simp only [List.findIdx?_cons, hx, Bool.false_eq_true, if_false, List.filter_cons, ← ih,
        Option.map_eq_some_iff]
      constructor
      · rintro ⟨i, ⟨j, hj, rfl⟩, hd, he⟩; exact ⟨j, hj, hd, he⟩
      · rintro ⟨j, hj, hd, he⟩; exact ⟨j + 1, ⟨j, hj, rfl⟩, hd, he⟩

/-- The marker check finds exactly one marker, not critical and with value `NULL`. -/
theorem hybridX509HasPqcExtension_iff {c : X509} :
    hybridX509HasPqcExtension c = true ↔
      ∃ e, c.extensionList.filter (·.object == hybridPqcExtensionOid) = [e] ∧
        e.critical = false ∧ e.value = derNull := by
  simp only [← findIdx?_only_iff, hybridX509HasPqcExtension, X509.getExtByObj, List.drop_zero,
    Nat.add_zero, Option.map_id']
  cases h1 : c.extensionList.findIdx? (·.object == hybridPqcExtensionOid) with
  | none => simp
  | some i =>
    cases h2 : (c.extensionList.drop (i + 1)).findIdx? (·.object == hybridPqcExtensionOid) with
    | some j => simp [h2, -List.findIdx?_eq_none_iff]
    | none =>
      cases he : c.extensionList[i]? with
      | none => simp [h2, he, -List.findIdx?_eq_none_iff]
      | some e => simp [h2, he, -List.findIdx?_eq_none_iff]

section

variable {PKey : Type} {E : Openssl PKey}

theorem hybridX509GetCompositePublicKey_some {c : X509} {k : HybridPublicKey PKey}
    (h : hybridX509GetCompositePublicKey E c = some k) :
    c.tbsCertificate.subjectPublicKeyInfo.publicKey.unusedBits = 0 ∧
      algorithmIsCompositeAndAbsent c.tbsCertificate.subjectPublicKeyInfo.algor = true ∧
      compositeParsePublicKey E.toCrypto c.tbsCertificate.subjectPublicKeyInfo.publicKey.data =
        some k := by
  simp only [hybridX509GetCompositePublicKey] at h
  split at h
  · cases h
  · rename_i hn
    simp only [not_or, not_not] at hn
    exact ⟨hn.1, hn.2.1, h⟩

theorem hybridX509GetTbsDer_some {c : X509} {m : Bytes} (h : hybridX509GetTbsDer E c = some m) :
    E.i2dReX509Tbs c.tbsCertificate = some m := by
  simp only [hybridX509GetTbsDer] at h
  split at h
  · cases h
  · split at h
    · cases h
    · rename_i ho _; cases h; exact ho

end

end HybridPqc
