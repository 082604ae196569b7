import HybridPqc.X509.IssueCorrect
import HybridPqc.X509.PublicKey

/-!
# X509.Reissue

Issuing with a key pair that was stored and loaded.

`hybrid_x509.c` uses a CA public key only through its serialisation, and an issuer certificate only
through its subject. So a pair whose public half is an equal key issues the same certificates, and a
certificate that was issued under one root is one that was issued under every root with that
subject. What the issuing functions return is what `d2i_X509` reads of its encoding
(`ReadsBack`), so a certificate file holds it.
-/

namespace HybridPqc

variable {PKey : Type} {L : IssueLib PKey} {ca ca' key key' : HybridPublicKey PKey}

/-! ## Equal public keys -/

theorem SameComponents.serialize (h : SameComponents L.toCrypto key key') :
    compositeSerializePublicKey L.toCrypto key = compositeSerializePublicKey L.toCrypto key' := by
  obtain ⟨hd, s, p, o, hs, hp, hso, hpo⟩ := h
  simp [compositeSerializePublicKey_eq, hd, hs, hp, hso, hpo]

theorem SameComponents.keyIdentifier (h : SameComponents L.toCrypto key key') :
    computeKeyIdentifier L key = computeKeyIdentifier L key' := by
  simp [computeKeyIdentifier, h.serialize]

theorem SameComponents.spki (h : SameComponents L.toCrypto key key') :
    makeCompositeSpki L key = makeCompositeSpki L key' := by
  simp [makeCompositeSpki, h.serialize]

theorem SameComponents.publicKeyMatches (h : SameComponents L.toCrypto key key') (c : X509) :
    hybridX509PublicKeyMatches L.toOpenssl c key =
      hybridX509PublicKeyMatches L.toOpenssl c key' := by
  simp only [hybridX509PublicKeyMatches, compositePublicKeysEqual, h.serialize]

theorem SameComponents.createRoot (h : SameComponents L.toCrypto ca ca') (now : Int)
    (caPrivateKey : HybridPrivateKey PKey) (commonName : CString) (rnd : Bytes) :
    hybridX509CreateRoot L now caPrivateKey ca commonName rnd =
      hybridX509CreateRoot L now caPrivateKey ca' commonName rnd := by
  have hxs : buildRootExtensions L ca = buildRootExtensions L ca' := by
    simp [buildRootExtensions, addSubjectKeyIdentifier, h.keyIdentifier]
  simp [hybridX509CreateRoot, makeTbs, h.spki, hxs]

theorem SameComponents.createServer (h : SameComponents L.toCrypto ca ca')
    (hkey : SameComponents L.toCrypto key key') (now : Int) (caPrivateKey : HybridPrivateKey PKey)
    (issuerCertificate : X509) (commonName : CString) (dnsName : Option CString) (rnd : Bytes) :
    hybridX509CreateServer L now caPrivateKey ca key issuerCertificate commonName dnsName rnd =
      hybridX509CreateServer L now caPrivateKey ca' key' issuerCertificate commonName dnsName
        rnd := by
  have hxs : buildServerExtensions L ca key dnsName = buildServerExtensions L ca' key' dnsName := by
    simp [buildServerExtensions, addSubjectKeyIdentifier, addAuthorityKeyIdentifier,
      h.keyIdentifier, hkey.keyIdentifier]
  simp [hybridX509CreateServer, makeTbs, hkey.spki, hxs]

theorem SameComponents.createSm2Encryption (h : SameComponents L.toCrypto ca ca') (now : Int)
    (caPrivateKey : HybridPrivateKey PKey) (k : PKey) (issuerCertificate : X509)
    (commonName : CString) (rnd : Bytes) :
    hybridX509CreateSm2Encryption L now caPrivateKey ca k issuerCertificate commonName rnd =
      hybridX509CreateSm2Encryption L now caPrivateKey ca' k issuerCertificate commonName rnd := by
  have hxs : buildEncryptionServerExtensions L ca k = buildEncryptionServerExtensions L ca' k := by
    simp [buildEncryptionServerExtensions, addAuthorityKeyIdentifier, h.keyIdentifier]
  simp [hybridX509CreateSm2Encryption, makeSm2EncryptionTbs, hxs]

/-! ## Roots with one subject -/

theorem createSm2Encryption_subject {root root' : X509}
    (h : root.tbsCertificate.subject = root'.tbsCertificate.subject) (now : Int)
    (caPrivateKey : HybridPrivateKey PKey) (k : PKey) (commonName : CString) (rnd : Bytes) :
    hybridX509CreateSm2Encryption L now caPrivateKey ca k root commonName rnd =
      hybridX509CreateSm2Encryption L now caPrivateKey ca k root' commonName rnd := by
  simp [hybridX509CreateSm2Encryption, h]

/-- The subject and the validity period of a root. -/
theorem createRoot_fields (ha : Asn1Correct L) {now : Int} {caPrivateKey : HybridPrivateKey PKey}
    {commonName : CString} {rnd : Bytes} {root : X509}
    (h : hybridX509CreateRoot L now caPrivateKey ca commonName rnd = some root) :
    makeName L commonName = some root.tbsCertificate.subject ∧
      ∀ n, InValidityPeriod L.toOpenssl n root ↔ now - 60 ≤ n ∧ n < now + 31536000 := by
  unfold hybridX509CreateRoot at h
  split at h
  · cases h
  obtain ⟨_, _, _, _, hi⟩ := signTbs_issued ha h
  exact ⟨hi.subject, hi.inValidityPeriod_iff ha⟩

theorem createSm2Encryption_validity (ha : Asn1Correct L) {now : Int}
    {caPrivateKey : HybridPrivateKey PKey} {k : PKey} {issuerCertificate : X509}
    {commonName : CString} {rnd : Bytes} {c : X509}
    (h : hybridX509CreateSm2Encryption L now caPrivateKey ca k issuerCertificate commonName rnd =
      some c) (n : Int) :
    InValidityPeriod L.toOpenssl n c ↔ now - 60 ≤ n ∧ n < now + 31536000 := by
  unfold hybridX509CreateSm2Encryption at h
  split at h
  · cases h
  obtain ⟨_, _, _, _, hi⟩ := signTbs_issued ha h
  exact hi.inValidityPeriod_iff ha n

/-- There is no composite key in an encryption certificate. -/
theorem createSm2Encryption_no_composite (ha : Asn1Correct L) {now : Int}
    {caPrivateKey : HybridPrivateKey PKey} {k : PKey} {issuerCertificate : X509}
    {commonName : CString} {rnd : Bytes} {c : X509}
    (h : hybridX509CreateSm2Encryption L now caPrivateKey ca k issuerCertificate commonName rnd =
      some c) : hybridX509GetCompositePublicKey L.toOpenssl c = none := by
  unfold hybridX509CreateSm2Encryption at h
  split at h
  · cases h
  obtain ⟨spki, _, hspki, _, hi⟩ := signTbs_issued ha h
  simp only [makeSm2Spki, Option.bind_eq_bind, Option.bind_eq_some_iff, Option.pure_def,
    Option.some.injEq] at hspki
  obtain ⟨octets, _, rfl⟩ := hspki
  have halg : ¬ algorithmIsCompositeAndAbsent
      c.tbsCertificate.subjectPublicKeyInfo.algor = true := by
    rw [hi.spki]
    simp [sm2Spki, X509Pubkey.reencode, algorithmIsCompositeAndAbsent]
  rw [hybridX509GetCompositePublicKey]
  exact if_pos (Or.inr (Or.inl halg))

/-! ## Reading back -/

/-- `d2i_X509` reads the whole encoding of the certificate as the certificate. -/
def ReadsBack (L : IssueLib PKey) (c : X509) : Prop :=
  ∃ der, i2dCompositeCertificate c = some der ∧ L.d2iX509 der = some (c, der.length)

theorem signTbs_readsBack (ha : Asn1Correct L) {tbs : Option CompositeTbsCertificate}
    {signingKey : HybridPrivateKey PKey} {rnd : Bytes} {c : X509}
    (h : signTbs L tbs signingKey rnd = some c) : ReadsBack L c := by
  unfold signTbs at h
  split at h
  · cases h
  split at h
  · cases h
  split at h
  · cases h
  split at h
  · cases h
  dsimp only at h
  split at h
  · cases h
  rename_i der hder
  split at h
  · cases h
  rename_i parsed n hparsed
  split at h
  · rename_i hn
    cases h
    subst hn
    have hc := ha.d2iX509 hder hparsed
    refine ⟨der, ?_, hparsed⟩
    rw [hc, i2dCompositeCertificate, X509.toBer_reencode]
    exact hder
  · cases h

section

variable {now : Int} {caPrivateKey : HybridPrivateKey PKey} {commonName : CString} {rnd : Bytes}
  {c : X509}

theorem createRoot_readsBack (ha : Asn1Correct L)
    (h : hybridX509CreateRoot L now caPrivateKey ca commonName rnd = some c) : ReadsBack L c := by
  unfold hybridX509CreateRoot at h
  split at h
  · cases h
  · exact signTbs_readsBack ha h

theorem createServer_readsBack (ha : Asn1Correct L) {issuerCertificate : X509}
    {dnsName : Option CString}
    (h : hybridX509CreateServer L now caPrivateKey ca key issuerCertificate commonName dnsName rnd =
      some c) : ReadsBack L c :=
  signTbs_readsBack ha h

theorem createSm2Encryption_readsBack (ha : Asn1Correct L) {k : PKey} {issuerCertificate : X509}
    (h : hybridX509CreateSm2Encryption L now caPrivateKey ca k issuerCertificate commonName rnd =
      some c) : ReadsBack L c := by
  unfold hybridX509CreateSm2Encryption at h
  split at h
  · cases h
  · exact signTbs_readsBack ha h

end

end HybridPqc
