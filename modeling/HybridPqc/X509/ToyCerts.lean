import HybridPqc.X509.Toy

/-!
# X509.ToyCerts

Issuing succeeds on `X509.Toy`. `signTbs_exists` takes any TBS of moderate size; `makeName_eq`, the
extension lemmas and `Times` provide its parts.
-/

namespace HybridPqc

namespace Toy

open Ber

/-! ## Signing -/

theorem i2d_of_weight {e : Element} (ht : tagsOk e = true) (hw : weight e ≤ 2 ^ 31 - 1) :
    i2d e = some (encode e) := by
  have := encode_length_le e (by simp only [maxLen]; omega)
  exact if_pos ⟨ht, by omega⟩

theorem compositeSign_length {key : HybridPrivateKey Bytes} {message ctx : CArg}
    {rnd sig : Bytes} (h : compositeSign crypto key message ctx rnd = some sig) :
    sig.length = 2493 := by
  obtain ⟨k, m, d, s, _, _, hd, hs, hser⟩ := compositeSign_some_iff.mp h
  obtain ⟨hk, rfl⟩ := hybridSm2Sign_some hs
  have hd := dilithiumSign_length hd
  rw [compositeSerializeSignature_eq hd (sigDer_valid hk rnd)] at hser
  cases hser
  simp only [isPoint, Bool.and_eq_true, beq_iff_eq] at hk
  simp [hd, sigDer, hk.1, dilithiumSignatureBytes]

/-- The DER of the certificate decodes to the certificate. -/
def Reread (c : X509) : Prop :=
  i2dCompositeCertificate c = some (encode c.toBer) ∧ c.reencode = c

theorem Reread.d2iX509_eq {c : X509} (h : Reread c) :
    issueLib.d2iX509 (encode c.toBer) = some (c, (encode c.toBer).length) := by
  rw [d2iX509_i2d h.1, h.2]

theorem Reread.length_le {c : X509} (h : Reread c) : (encode c.toBer).length ≤ 2 ^ 31 - 1 := by
  have h1 := h.1
  unfold i2dCompositeCertificate i2d at h1
  split at h1
  · rename_i hw
    exact hw.2
  · cases h1

/-- A valid key signs every TBS of moderate size, and the result is read back from its DER. -/
theorem signTbs_exists {t : CompositeTbsCertificate} {key : HybridPrivateKey Bytes} {k : Bytes}
    (hk : key.sm2PrivateKey = some k) (hp : isPoint k = true) (ht : tagsOk t.toBer = true)
    (hw : weight t.toBer ≤ 2 ^ 20) (rnd : Bytes) :
    ∃ c, signTbs issueLib (some t) key rnd = some c ∧ Reread c := by
  have htbs : i2dCompositeTbsCertificate t = some (encode t.toBer) := i2d_of_weight ht (by omega)
  obtain ⟨sig, hsig⟩ := compositeSign_some hk hp (encode t.toBer) rnd
  have hlen := compositeSign_length hsig
  let certificate : X509 := ⟨t, compositeAlgorithm, .ofOctets sig⟩
  have hcert : i2dCompositeCertificate certificate = some (encode certificate.toBer) := by
    refine i2d_of_weight ?_ ?_
    · simp only [X509.toBer, tagsOk, tagsOkAll, ht, certificate, X509Algor.toBer,
        compositeAlgorithm, Option.toList_none]
      decide
    · simp only [X509.toBer, weight, weightAll, certificate, X509Algor.toBer, compositeAlgorithm,
        Asn1BitString.content, Asn1BitString.i2c_ofOctets, Option.toList_none, List.length_cons,
        hlen]
      have : compositeSm2DilithiumExperimentalOid.length = 10 := by decide
      omega
  refine ⟨certificate.reencode, ?_, ?_, X509.reencode_reencode _⟩
  · unfold signTbs
    simp only [htbs]
    rw [show compositeSign issueLib.toCrypto key (.buf (encode t.toBer)) (.null 0) rnd = some sig
      from hsig]
    dsimp only
    rw [if_neg (by rw [hlen]; simp [intMax])]
    simp only [show i2dCompositeCertificate ⟨t, compositeAlgorithm, .ofOctets sig⟩ = _ from hcert]
    rw [d2iX509_i2d hcert]
    simp
  · rw [i2dCompositeCertificate, X509.toBer_reencode]
    exact hcert

/-! ## Parts of a TBS -/

theorem makeName_eq {commonName : CString} (h0 : commonName.val ≠ [])
    (h64 : commonName.val.length ≤ 64) :
    makeName issueLib commonName = some
      [[⟨objTxt2obj [2, 5, 4, 6], 0x13, Bytes.ofAscii "CN"⟩],
       [⟨objTxt2obj [2, 5, 4, 10], 0x0c, Bytes.ofAscii "Experimental Hybrid PKI"⟩],
       [⟨objTxt2obj [2, 5, 4, 3], 0x0c, commonName.val⟩]] := by
  have hc : nameAddEntry [] .c .asc (Bytes.ofAscii "CN") =
      some [[⟨objTxt2obj [2, 5, 4, 6], 0x13, Bytes.ofAscii "CN"⟩]] := by decide
  have ho : nameAddEntry [[⟨objTxt2obj [2, 5, 4, 6], 0x13, Bytes.ofAscii "CN"⟩]] .o .asc
      (Bytes.ofAscii "Experimental Hybrid PKI") = some
        [[⟨objTxt2obj [2, 5, 4, 6], 0x13, Bytes.ofAscii "CN"⟩],
         [⟨objTxt2obj [2, 5, 4, 10], 0x0c, Bytes.ofAscii "Experimental Hybrid PKI"⟩]] := by decide
  unfold makeName
  rw [if_neg h0]
  simp only [issueLib, hc, ho, Option.bind_eq_bind, Option.bind_some]
  simp [nameAddEntry, h0, h64]

/-- A name whose encoding is small. -/
def ShortName (name : X509Name) : Prop :=
  tagsOk (X509Name.toBer name) = true ∧ weight (X509Name.toBer name) ≤ 1000

theorem makeName_short {commonName : CString} {name : X509Name}
    (h : makeName issueLib commonName = some name) (h64 : commonName.val.length ≤ 64) :
    ShortName name := by
  have h0 : commonName.val ≠ [] := by
    intro h0
    rw [makeName, if_pos h0] at h
    cases h
  rw [makeName_eq h0 h64] at h
  cases h
  constructor
  · simp only [X509Name.toBer, X509NameEntry.toBer, List.map_cons, List.map_nil, tagsOk, tagsOkAll]
    decide
  · simp only [X509Name.toBer, X509NameEntry.toBer, List.map_cons, List.map_nil, weight, weightAll]
    have h1 : (objTxt2obj [2, 5, 4, 6]).length = 3 := by decide
    have h2 : (objTxt2obj [2, 5, 4, 10]).length = 3 := by decide
    have h3 : (objTxt2obj [2, 5, 4, 3]).length = 3 := by decide
    have h4 : (Bytes.ofAscii "CN").length = 2 := by decide
    have h5 : (Bytes.ofAscii "Experimental Hybrid PKI").length = 23 := by decide
    omega

def ShortExtension (x : X509Extension) : Prop := x.object.length ≤ 20 ∧ x.value.length ≤ 400

instance (x : X509Extension) : Decidable (ShortExtension x) := inferInstanceAs (Decidable (_ ∧ _))

theorem extension_toBer (x : X509Extension) (h : ShortExtension x) :
    tagsOk x.toBer = true ∧ weight x.toBer ≤ 500 := by
  obtain ⟨h1, h2⟩ := h
  unfold X509Extension.toBer
  cases x.critical with
  | false =>
    refine ⟨by simp only [List.nil_append, Bool.false_eq_true, if_false, tagsOk, tagsOkAll]; decide,
      ?_⟩
    simp only [List.nil_append, Bool.false_eq_true, if_false, weight, weightAll]
    omega
  | true =>
    refine ⟨by simp only [List.singleton_append, if_true, tagsOk, tagsOkAll]; decide, ?_⟩
    simp only [List.singleton_append, if_true, weight, weightAll, List.length_singleton]
    omega

theorem extensions_toBer {xs : List X509Extension} (h : ∀ x ∈ xs, ShortExtension x) :
    tagsOkAll (xs.map X509Extension.toBer) = true ∧
      weightAll (xs.map X509Extension.toBer) ≤ 500 * xs.length := by
  induction xs with
  | nil => exact ⟨rfl, by simp [weightAll]⟩
  | cons x xs ih =>
    obtain ⟨h1, h2⟩ := extension_toBer x (h x List.mem_cons_self)
    obtain ⟨h3, h4⟩ := ih fun y hy => h y (List.mem_cons_of_mem _ hy)
    constructor
    · simp [tagsOkAll, h1, h3]
    · simp only [List.map_cons, weightAll, List.length_cons]
      omega

/-- The two times of a certificate issued at `now` can be written. -/
def Times (now : Int) : Prop :=
  (gmtimeAdj now (-60)).isSome = true ∧ (gmtimeAdj now 31536000).isSome = true

instance (now : Int) : Decidable (Times now) := inferInstanceAs (Decidable (_ ∧ _))

theorem gmtimeAdj_short {now adj : Int} {t : Asn1Time} (h : gmtimeAdj now adj = some t) :
    t.type = 0x17 ∧ t.data.length = 13 := by
  unfold gmtimeAdj at h
  dsimp only at h
  split at h
  · cases h
    exact ⟨rfl, rfl⟩
  · cases h

/-- Small parts make a certificate. -/
theorem fillTbs_exists {now : Int} (hnow : Times now) {key : HybridPrivateKey Bytes} {k : Bytes}
    (hk : key.sm2PrivateKey = some k) (hp : isPoint k = true) {spki : X509Pubkey}
    (hspki : tagsOk spki.toBer = true ∧ weight spki.toBer ≤ 2000) {issuer subject : X509Name}
    (hissuer : ShortName issuer) {commonName : CString}
    (hsubject : makeName issueLib commonName = some subject) (h64 : commonName.val.length ≤ 64)
    (serial : UInt8) {xs : List X509Extension} (hxs : ∀ x ∈ xs, ShortExtension x)
    (hlen : xs.length ≤ 100) (rnd : Bytes) :
    ∃ c, signTbs issueLib
        (fillTbs issueLib now (some spki) issuer commonName serial (some xs)) key rnd = some c ∧
      Reread c := by
  obtain ⟨nb, hnb⟩ := Option.isSome_iff_exists.mp hnow.1
  obtain ⟨na, hna⟩ := Option.isSome_iff_exists.mp hnow.2
  obtain ⟨hs1, hs2⟩ := makeName_short hsubject h64
  obtain ⟨hx1, hx2⟩ := extensions_toBer hxs
  obtain ⟨hb1, hb2⟩ := gmtimeAdj_short hnb
  obtain ⟨ha1, ha2⟩ := gmtimeAdj_short hna
  have hfill : fillTbs issueLib now (some spki) issuer commonName serial (some xs) = some
      { version := some (asn1IntegerSet 2), serialNumber := asn1IntegerSet serial,
        signature := compositeAlgorithm, issuer, validity := ⟨nb, na⟩, subject,
        subjectPublicKeyInfo := spki, issuerUid := none, subjectUid := none,
        extensions := some xs } := by
    unfold fillTbs
    rw [hsubject]
    simp only [Option.bind_eq_bind, Option.bind_some,
      show issueLib.x509GmtimeAdj now (-60) = _ from hnb,
      show issueLib.x509GmtimeAdj now 31536000 = _ from hna, Option.pure_def]
  rw [hfill]
  refine signTbs_exists hk hp ?_ ?_ rnd
  · simp only [CompositeTbsCertificate.toBer, tagsOk, tagsOkAll, Option.map_some, Option.map_none,
      Option.toList_some, Option.toList_none, List.singleton_append, List.nil_append,
      X509Algor.toBer, compositeAlgorithm, X509Val.toBer, Asn1Time.toBer, hissuer.1, hs1, hspki.1,
      hx1, hb1, ha1]
    decide
  · have h1 := hissuer.2
    have h2 := hspki.2
    have h3 : compositeSm2DilithiumExperimentalOid.length = 10 := by decide
    simp only [CompositeTbsCertificate.toBer, weight, weightAll, Option.map_some, Option.map_none,
      Option.toList_some, Option.toList_none, List.singleton_append, List.nil_append,
      X509Algor.toBer, compositeAlgorithm, X509Val.toBer, Asn1Time.toBer, asn1IntegerSet,
      List.length_singleton]
    omega

/-! ## Extensions -/

theorem exists_short {o : Option X509Extension} (h : o.any (fun x => ShortExtension x) = true) :
    ∃ x, o = some x ∧ ShortExtension x := by
  cases o with
  | none => cases h
  | some x => exact ⟨x, rfl, by simpa using h⟩

/-- A small element that its decoder understands is an extension value. -/
theorem valueOf_short {α : Type} [DecidableEq α] {d : Bytes → Option α} {a : α} {e : Element}
    (ht : tagsOk e = true) (hw : weight e ≤ 400)
    (hd : readElement false (encode e) = some (e, []) → d (encode e) = some a) :
    valueOf d a e = some (encode e) ∧ (encode e).length ≤ 400 := by
  have hlen := encode_length_le e (by simp only [maxLen]; omega)
  exact ⟨if_pos (hd (i2d_read (i2d_of_weight ht (by omega)))), by omega⟩

theorem extI2dSki_exists {identifier : Bytes} (h : identifier.length = 32) :
    ∃ x, extI2dSki identifier = some x ∧ ShortExtension x := by
  obtain ⟨hv, hlen⟩ := valueOf_short (d := d2iSubjectKeyIdentifier) (a := identifier)
    (e := .prim 0x04 identifier) rfl (by simp only [weight]; omega)
    (fun hr => by simp only [d2iSubjectKeyIdentifier, hr])
  have hobj : nidSubjectKeyIdentifier.length ≤ 20 := by decide
  refine ⟨⟨nidSubjectKeyIdentifier, false, encode (.prim 0x04 identifier)⟩, ?_, hobj, hlen⟩
  rw [extI2dSki, hv, Option.map_some]

theorem extI2dAki_exists {identifier : Bytes} (h : identifier.length = 32) :
    ∃ x, extI2dAki ⟨some identifier⟩ = some x ∧ ShortExtension x := by
  obtain ⟨hv, hlen⟩ := valueOf_short (d := d2iAuthorityKeyid) (a := ⟨some identifier⟩)
    (e := .cons 0x30 [.prim 0x80 identifier]) rfl (by simp only [weight, weightAll]; omega)
    (fun hr => by simp only [d2iAuthorityKeyid, hr])
  have hobj : nidAuthorityKeyIdentifier.length ≤ 20 := by decide
  refine ⟨⟨nidAuthorityKeyIdentifier, false, encode (.cons 0x30 [.prim 0x80 identifier])⟩, ?_,
    hobj, hlen⟩
  rw [extI2dAki, Option.map_some, Option.toList_some, hv, Option.map_some]

section

variable {key : HybridPublicKey Bytes} {k : Bytes}

theorem serialize_eq (hk : key.sm2PublicKey = some k) (hp : isPoint k = true) :
    compositeSerializePublicKey crypto key = some (key.dilithiumPublicKey.val ++ k) := by
  rw [compositeSerializePublicKey_eq, hk]
  simp [sm2Octets_eq, hp]

theorem computeKeyIdentifier_exists (hk : key.sm2PublicKey = some k) (hp : isPoint k = true) :
    ∃ digest, computeKeyIdentifier issueLib key = some digest := by
  refine ⟨digest (key.dilithiumPublicKey.val ++ k), ?_⟩
  unfold computeKeyIdentifier
  rw [show compositeSerializePublicKey issueLib.toCrypto key = _ from serialize_eq hk hp]
  exact if_pos (digest_length _)

theorem computeSm2KeyIdentifier_exists (hp : isPoint k = true) :
    ∃ digest, computeSm2KeyIdentifier issueLib k = some digest := by
  refine ⟨digest k, ?_⟩
  unfold computeSm2KeyIdentifier
  rw [show sm2Octets issueLib.toCrypto k = some k by
    rw [show sm2Octets issueLib.toCrypto k = _ from sm2Octets_eq, if_pos hp]]
  exact if_pos (digest_length _)

theorem compositeSpki_exists (hk : key.sm2PublicKey = some k) (hp : isPoint k = true) :
    ∃ spki, makeCompositeSpki issueLib key = some spki ∧ tagsOk spki.toBer = true ∧
      weight spki.toBer ≤ 2000 := by
  refine ⟨⟨compositeAlgorithm, .ofOctets (key.dilithiumPublicKey.val ++ k)⟩, ?_, ?_, ?_⟩
  · unfold makeCompositeSpki
    rw [show compositeSerializePublicKey issueLib.toCrypto key = _ from serialize_eq hk hp]
    rfl
  · simp only [X509Pubkey.toBer, X509Algor.toBer, compositeAlgorithm, tagsOk, tagsOkAll,
      Option.toList_none]
    decide
  · have h1 : compositeSm2DilithiumExperimentalOid.length = 10 := by decide
    have h2 : key.dilithiumPublicKey.val.length = 1312 := key.dilithiumPublicKey.length_val
    simp only [isPoint, Bool.and_eq_true, beq_iff_eq] at hp
    simp only [X509Pubkey.toBer, X509Algor.toBer, compositeAlgorithm, weight, weightAll,
      Option.toList_none, Asn1BitString.content, Asn1BitString.i2c_ofOctets, List.length_cons,
      List.length_append]
    omega

theorem sm2Spki_exists (hp : isPoint k = true) :
    ∃ spki, makeSm2Spki issueLib k = some spki ∧ tagsOk spki.toBer = true ∧
      weight spki.toBer ≤ 2000 := by
  refine ⟨sm2Spki k, ?_, ?_, ?_⟩
  · unfold makeSm2Spki
    rw [show sm2Octets issueLib.toCrypto k = some k by
      rw [show sm2Octets issueLib.toCrypto k = _ from sm2Octets_eq, if_pos hp]]
    rfl
  · simp only [X509Pubkey.toBer, X509Algor.toBer, sm2Spki, tagsOk, tagsOkAll, Option.toList_some]
    decide
  · have h1 : oidEcPublicKey.length = 7 := by decide
    have h2 : oidSm2Curve.length = 8 := by decide
    simp only [isPoint, Bool.and_eq_true, beq_iff_eq] at hp
    simp only [X509Pubkey.toBer, X509Algor.toBer, sm2Spki, weight, weightAll, Option.toList_some,
      Asn1BitString.content, Asn1BitString.i2c_ofOctets, List.length_cons]
    omega

/-! ## The create functions -/

theorem pqcMarker_short : ShortExtension pqcMarker := by decide

theorem endEntityConstraints_exists : ∃ x,
    issueLib.x509v3ExtConfNid nidBasicConstraints (Bytes.ofAscii "critical,CA:FALSE") = some x ∧
      ShortExtension x :=
  exists_short (by decide)

theorem ski_exists (hk : key.sm2PublicKey = some k) (hp : isPoint k = true) :
    ∃ digest x, computeKeyIdentifier issueLib key = some digest ∧
      issueLib.x509v3ExtI2dSki digest = some x ∧ ShortExtension x := by
  obtain ⟨digest, hd⟩ := computeKeyIdentifier_exists hk hp
  obtain ⟨x, hx, hs⟩ := extI2dSki_exists (computeKeyIdentifier_length hd)
  exact ⟨digest, x, hd, hx, hs⟩

theorem aki_exists (hk : key.sm2PublicKey = some k) (hp : isPoint k = true) :
    ∃ digest x, computeKeyIdentifier issueLib key = some digest ∧
      issueLib.x509v3ExtI2dAki ⟨some digest⟩ = some x ∧ ShortExtension x := by
  obtain ⟨digest, hd⟩ := computeKeyIdentifier_exists hk hp
  obtain ⟨x, hx, hs⟩ := extI2dAki_exists (computeKeyIdentifier_length hd)
  exact ⟨digest, x, hd, hx, hs⟩

theorem rootExtensions_exists (hk : key.sm2PublicKey = some k) (hp : isPoint k = true) :
    ∃ xs, buildRootExtensions issueLib key = some xs ∧ (∀ x ∈ xs, ShortExtension x) ∧
      xs.length ≤ 100 := by
  obtain ⟨bc, hbc, sbc⟩ := exists_short
    (o := issueLib.x509v3ExtConfNid nidBasicConstraints (Bytes.ofAscii "critical,CA:TRUE"))
    (by decide)
  obtain ⟨ku, hku, sku⟩ := exists_short
    (o := issueLib.x509v3ExtConfNid nidKeyUsage (Bytes.ofAscii "critical,keyCertSign,cRLSign"))
    (by decide)
  obtain ⟨digest, ski, hd, hski, sski⟩ := ski_exists hk hp
  refine ⟨[bc, ku, ski, pqcMarker], ?_, ?_, by simp⟩
  · simp only [buildRootExtensions, addConfExtension, addSubjectKeyIdentifier, addPqcMarker, hd,
      hbc, hku, hski, Option.bind_eq_bind, Option.bind_some, Option.pure_def]
    rfl
  · simp only [List.forall_mem_cons]
    exact ⟨sbc, sku, sski, pqcMarker_short, fun _ h => by cases h⟩

/-- The subjectAltName extension for a DNS name can be written. -/
def SanWritable (dnsName : CString) : Prop :=
  dnsName.val ≠ [] ∧ (Bytes.ofAscii "DNS:" ++ dnsName.val).length < 300 ∧
    (issueLib.x509v3ExtConfNid nidSubjectAltName (Bytes.ofAscii "DNS:" ++ dnsName.val)).any
      (fun x => ShortExtension x) = true

instance (dnsName : CString) : Decidable (SanWritable dnsName) :=
  inferInstanceAs (Decidable (_ ∧ _ ∧ _))

theorem serverExtensions_exists {caKey : HybridPublicKey Bytes} {c : Bytes}
    (hk : key.sm2PublicKey = some k) (hp : isPoint k = true) (hc : caKey.sm2PublicKey = some c)
    (hcp : isPoint c = true) {dnsName : CString} (hdns : SanWritable dnsName) :
    ∃ xs, buildServerExtensions issueLib caKey key (some dnsName) = some xs ∧
      (∀ x ∈ xs, ShortExtension x) ∧ xs.length ≤ 100 := by
  obtain ⟨bc, hbc, sbc⟩ := endEntityConstraints_exists
  obtain ⟨ku, hku, sku⟩ := exists_short
    (o := issueLib.x509v3ExtConfNid nidKeyUsage (Bytes.ofAscii "critical,digitalSignature"))
    (by decide)
  obtain ⟨eku, heku, seku⟩ := exists_short
    (o := issueLib.x509v3ExtConfNid nidExtKeyUsage (Bytes.ofAscii "serverAuth")) (by decide)
  obtain ⟨hne, hlen, hsan⟩ := hdns
  obtain ⟨san, hsan, ssan⟩ := exists_short hsan
  obtain ⟨digest, ski, hd, hski, sski⟩ := ski_exists hk hp
  obtain ⟨caDigest, aki, hcd, haki, saki⟩ := aki_exists hc hcp
  refine ⟨[bc, ku, eku, san, ski, aki, pqcMarker], ?_, ?_, by simp⟩
  · simp only [buildServerExtensions, hne, if_false, sanValue, if_neg (Nat.not_le.mpr hlen),
      addConfExtension, addSubjectKeyIdentifier, addAuthorityKeyIdentifier, addPqcMarker, hd, hcd,
      hbc, hku, heku, hsan, hski, haki, Option.bind_eq_bind, Option.bind_some, Option.pure_def]
    rfl
  · simp only [List.forall_mem_cons]
    exact ⟨sbc, sku, seku, ssan, sski, saki, pqcMarker_short, fun _ h => by cases h⟩

theorem encryptionExtensions_exists {caKey : HybridPublicKey Bytes} {c : Bytes}
    (hp : isPoint k = true) (hc : caKey.sm2PublicKey = some c) (hcp : isPoint c = true) :
    ∃ xs, buildEncryptionServerExtensions issueLib caKey k = some xs ∧
      (∀ x ∈ xs, ShortExtension x) ∧ xs.length ≤ 100 := by
  obtain ⟨bc, hbc, sbc⟩ := endEntityConstraints_exists
  obtain ⟨ku, hku, sku⟩ := exists_short
    (o := issueLib.x509v3ExtConfNid nidKeyUsage
      (Bytes.ofAscii "critical,keyEncipherment,keyAgreement")) (by decide)
  obtain ⟨digest, hd⟩ := computeSm2KeyIdentifier_exists hp
  obtain ⟨ski, hski, sski⟩ := extI2dSki_exists (computeSm2KeyIdentifier_length hd)
  have hski : issueLib.x509v3ExtI2dSki digest = some ski := hski
  obtain ⟨caDigest, aki, hcd, haki, saki⟩ := aki_exists hc hcp
  refine ⟨[bc, ku, ski, aki, pqcMarker], ?_, ?_, by simp⟩
  · simp only [buildEncryptionServerExtensions, addConfExtension, addSm2SubjectKeyIdentifier,
      addAuthorityKeyIdentifier, addPqcMarker, hd, hcd, hbc, hku, hski, haki, Option.bind_eq_bind,
      Option.bind_some, Option.pure_def]
    rfl
  · simp only [List.forall_mem_cons]
    exact ⟨sbc, sku, sski, saki, pqcMarker_short, fun _ h => by cases h⟩

end

section

variable {now : Int} {caPrivateKey : HybridPrivateKey Bytes}
  {caPublicKey serverPublicKey : HybridPublicKey Bytes} {c k : Bytes} {commonName : CString}

/-- A common name that fits the field. -/
def NameFits (commonName : CString) : Prop := commonName.val ≠ [] ∧ commonName.val.length ≤ 64

instance (commonName : CString) : Decidable (NameFits commonName) :=
  inferInstanceAs (Decidable (_ ∧ _))

theorem hybridX509CreateRoot_exists (hnow : Times now) (hs : caPrivateKey.sm2PrivateKey = some c)
    (hp : caPublicKey.sm2PublicKey = some c) (hc : isPoint c = true) (hn : NameFits commonName)
    (rnd : Bytes) :
    ∃ root, hybridX509CreateRoot issueLib now caPrivateKey caPublicKey commonName rnd =
        some root ∧ Reread root ∧ ShortName root.tbsCertificate.subject := by
  have hname := makeName_eq hn.1 hn.2
  have hshort := makeName_short hname hn.2
  obtain ⟨spki, hspki, hsize⟩ := compositeSpki_exists hp hc
  obtain ⟨xs, hxs, hxshort, hlen⟩ := rootExtensions_exists hp hc
  obtain ⟨root, hroot, hder⟩ :=
    fillTbs_exists hnow hs hc hsize hshort hname hn.2 1 hxshort hlen rnd
  refine ⟨root, ?_, hder, ?_⟩
  · unfold hybridX509CreateRoot makeTbs
    rw [hname, hspki, if_pos rfl, hxs]
    exact hroot
  · obtain ⟨k, es, _, _, hi⟩ := signTbs_issued asn1Correct hroot
    exact makeName_short hi.subject hn.2

theorem hybridX509CreateServer_exists (hnow : Times now)
    (hs : caPrivateKey.sm2PrivateKey = some c) (hp : caPublicKey.sm2PublicKey = some c)
    (hc : isPoint c = true) (hk : serverPublicKey.sm2PublicKey = some k) (hkp : isPoint k = true)
    {root : X509} (hroot : ShortName root.tbsCertificate.subject) (hn : NameFits commonName)
    {dnsName : CString} (hdns : SanWritable dnsName) (rnd : Bytes) :
    ∃ server, hybridX509CreateServer issueLib now caPrivateKey caPublicKey serverPublicKey root
        commonName (some dnsName) rnd = some server ∧ Reread server := by
  obtain ⟨spki, hspki, hsize⟩ := compositeSpki_exists hk hkp
  obtain ⟨xs, hxs, hxshort, hlen⟩ := serverExtensions_exists hk hkp hp hc hdns
  obtain ⟨server, hserver, hder⟩ :=
    fillTbs_exists hnow hs hc hsize hroot (makeName_eq hn.1 hn.2) hn.2 2 hxshort hlen rnd
  refine ⟨server, ?_, hder⟩
  unfold hybridX509CreateServer makeTbs
  rw [hspki, if_neg (by decide), hxs]
  exact hserver

theorem hybridX509CreateSm2Encryption_exists (hnow : Times now)
    (hs : caPrivateKey.sm2PrivateKey = some c) (hp : caPublicKey.sm2PublicKey = some c)
    (hc : isPoint c = true) (hkp : isPoint k = true) {root : X509}
    (hroot : ShortName root.tbsCertificate.subject) (hn : NameFits commonName) (rnd : Bytes) :
    ∃ certificate, hybridX509CreateSm2Encryption issueLib now caPrivateKey caPublicKey k root
        commonName rnd = some certificate ∧ Reread certificate := by
  obtain ⟨spki, hspki, hsize⟩ := sm2Spki_exists hkp
  obtain ⟨xs, hxs, hxshort, hlen⟩ := encryptionExtensions_exists hkp hp hc
  obtain ⟨certificate, hcert, hder⟩ :=
    fillTbs_exists hnow hs hc hsize hroot (makeName_eq hn.1 hn.2) hn.2 3 hxshort hlen rnd
  refine ⟨certificate, ?_, hder⟩
  unfold hybridX509CreateSm2Encryption makeSm2EncryptionTbs
  rw [if_neg hn.1, hspki, hxs]
  exact hcert

end

/-! ## Sample certificates -/

/-- 2025-06-15 15:06:40 UTC -/
def issueTime : Int := 1750000000

def rootName : CString := ⟨Bytes.ofAscii "Test Root", by decide⟩
def serverName : CString := ⟨Bytes.ofAscii "server.example", by decide⟩
def twoNames : CString := ⟨Bytes.ofAscii "a.example,DNS:evil.example", by decide⟩

theorem issueTime_times : Times issueTime := by decide +kernel
theorem serverName_fits : NameFits serverName := by decide
theorem serverName_writable : SanWritable serverName := by decide +kernel
theorem twoNames_writable : SanWritable twoNames := by decide +kernel

theorem root_short {root : X509} (h : hybridX509CreateRoot issueLib issueTime (privateKey 1)
    (publicKey 1) rootName [] = some root) : ShortName root.tbsCertificate.subject := by
  unfold hybridX509CreateRoot at h
  split at h
  · cases h
  · obtain ⟨_, _, _, _, hi⟩ := signTbs_issued asn1Correct h
    exact makeName_short hi.subject (by decide)

/-- A root and a server certificate under it. -/
theorem server_exists {dnsName : CString} (hdns : SanWritable dnsName) : ∃ root server,
    hybridX509CreateRoot issueLib issueTime (privateKey 1) (publicKey 1) rootName [] = some root ∧
    hybridX509CreateServer issueLib issueTime (privateKey 1) (publicKey 1) (publicKey 2) root
      serverName (some dnsName) [] = some server ∧ Reread root ∧ Reread server := by
  have h1 : (privateKey 1).sm2PrivateKey = some (sm2Key 1) := rfl
  have h2 : (publicKey 1).sm2PublicKey = some (sm2Key 1) := rfl
  have h3 : (publicKey 2).sm2PublicKey = some (sm2Key 2) := rfl
  have hroots : NameFits rootName := by decide
  obtain ⟨root, hroot, hrr, hshort⟩ :=
    hybridX509CreateRoot_exists issueTime_times h1 h2 (sm2Key_isPoint 1) hroots []
  obtain ⟨server, hserver, hrs⟩ := hybridX509CreateServer_exists issueTime_times h1 h2
    (sm2Key_isPoint 1) h3 (sm2Key_isPoint 2) hshort serverName_fits hdns []
  exact ⟨root, server, hroot, hserver, hrr, hrs⟩

theorem encryption_exists {root : X509}
    (hroot : hybridX509CreateRoot issueLib issueTime (privateKey 1) (publicKey 1) rootName [] =
      some root) :
    ∃ certificate, hybridX509CreateSm2Encryption issueLib issueTime (privateKey 1) (publicKey 1)
      (sm2Key 3) root serverName [] = some certificate ∧ Reread certificate := by
  have h1 : (privateKey 1).sm2PrivateKey = some (sm2Key 1) := rfl
  have h2 : (publicKey 1).sm2PublicKey = some (sm2Key 1) := rfl
  exact hybridX509CreateSm2Encryption_exists issueTime_times h1 h2 (sm2Key_isPoint 1)
    (sm2Key_isPoint 3) (root_short hroot) serverName_fits []

end Toy

end HybridPqc
