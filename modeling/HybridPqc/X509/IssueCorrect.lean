import HybridPqc.X509.ChainCorrect
import HybridPqc.X509.Conf
import HybridPqc.X509.Issue

/-!
# X509.IssueCorrect

Issued certificates are accepted.

`Asn1Correct` and `ConfCorrect` say what issuing relies on in OpenSSL; `SanReads` adds which list a
subjectAltName value is read as. `Issued` describes a certificate that `sign_tbs` returned, with the
extensions still abstract; `buildRootExtensions_some`, `buildServerExtensions_some` and
`buildEncryptionServerExtensions_some` are those of the three kinds. From both come the acceptance
conditions of `X509.ChainCorrect`.
-/

namespace HybridPqc

section

variable {PKey : Type} (L : IssueLib PKey)

/-! ## What OpenSSL does -/

/-- Encoders and decoders fit together. -/
structure Asn1Correct : Prop where
  /-- `d2i_X509` reads back what `COMPOSITE_CERTIFICATE` wrote. -/
  d2iX509 : ∀ {c der c' n}, i2dCompositeCertificate c = some der →
    L.d2iX509 der = some (c', n) → c' = c.reencode
  /-- `i2d_re_X509_tbs` encodes the fields afresh. -/
  i2dReX509Tbs : ∀ t, L.i2dReX509Tbs t = i2dCompositeTbsCertificate t
  ski : ∀ {identifier e}, L.x509v3ExtI2dSki identifier = some e →
    e.object = nidSubjectKeyIdentifier ∧ e.critical = false ∧
      L.d2iSubjectKeyIdentifier e.value = some identifier
  aki : ∀ {authority e}, L.x509v3ExtI2dAki authority = some e →
    e.object = nidAuthorityKeyIdentifier ∧ e.critical = false ∧
      L.d2iAuthorityKeyid e.value = some authority
  /-- A written time is the moment `now + adj`; `X509_cmp_time` counts an equal time as past. -/
  gmtime : ∀ {now adj t}, L.x509GmtimeAdj now adj = some t → ∀ n,
    (L.cmpTime t n < 0 ↔ now + adj ≤ n) ∧ (0 < L.cmpTime t n ↔ n < now + adj)

/-- `X509V3_EXT_conf_nid` writes what its value asks for. Where the list syntax does not settle what
a value says, nothing is assumed: of a subjectAltName `DNS:…` only that it starts with a DNS
name. -/
structure ConfCorrect : Prop where
  object : ∀ {nid value e}, L.x509v3ExtConfNid nid value = some e → e.object = nid
  critical : ∀ {nid value e}, L.x509v3ExtConfNid nid value = some e →
    e.critical = (Conf.checkCritical value).1
  basicConstraints : ∀ {value e ca}, L.x509v3ExtConfNid nidBasicConstraints value = some e →
    Conf.basicConstraints (Conf.checkCritical value).2 = some ca →
    L.d2iBasicConstraints e.value = some ⟨ca⟩
  keyUsage : ∀ {value e bits}, L.x509v3ExtConfNid nidKeyUsage value = some e →
    Conf.keyUsage (Conf.checkCritical value).2 = some bits →
    ∃ usage, L.d2iKeyUsage e.value = some usage ∧ ∀ n, usage.getBit n = decide (n ∈ bits)
  extKeyUsage : ∀ {e},
    L.x509v3ExtConfNid nidExtKeyUsage (Bytes.ofAscii "serverAuth") = some e →
    ∃ usage, L.d2iExtKeyUsage e.value = some usage ∧ nidServerAuth ∈ usage
  subjectAltName : ∀ {b e},
    L.x509v3ExtConfNid nidSubjectAltName (Conf.dns ++ Conf.colon :: b) = some e →
    ∃ v names, L.d2iSubjectAltName e.value = some (⟨.dns, v⟩ :: names) ∧ v ≠ []

/-- A subjectAltName value `DNS:…` says what the items ask for that `parse` reads, name by name. -/
def SanReads (parse : Bytes → Option (List Conf.Item)) : Prop :=
  ∀ {b e}, L.x509v3ExtConfNid nidSubjectAltName (Conf.dns ++ Conf.colon :: b) = some e →
    ∃ items names, parse (Conf.dns ++ Conf.colon :: b) = some items ∧
      L.d2iSubjectAltName e.value = some names ∧
      items.Forall₂ (fun item name => ∀ v, item = (Conf.dns, some v) → name = ⟨.dns, v⟩) names

/-- The SubjectPublicKeyInfo of an SM2 point gives a key with that point. -/
def Sm2SpkiCorrect : Prop :=
  ∀ k o, sm2Octets L.toCrypto k = some o →
    ∃ k', L.getPubkey (sm2Spki o) = some k' ∧ sm2Octets L.toCrypto k' = some o

variable {L}

/-! ## Extensions by type -/

theorem filter_object_eq {xs : List X509Extension} {e : X509Extension}
    (hnd : (xs.map (·.object)).Nodup) (he : e ∈ xs) :
    xs.filter (·.object == e.object) = [e] := by
  induction xs with
  | nil => cases he
  | cons x xs ih =>
    rw [List.map_cons, List.nodup_cons] at hnd
    rcases List.mem_cons.mp he with rfl | he
    · have hnone : xs.filter (·.object == e.object) = [] := by
        rw [List.filter_eq_nil_iff]
        intro y hy heq
        exact hnd.1 (by rw [← beq_iff_eq.mp heq]; exact List.mem_map_of_mem hy)
      rw [List.filter_cons_of_pos (by simp), hnone]
    · have hne : ¬ (x.object == e.object) = true := by
        intro heq
        exact hnd.1 (by rw [beq_iff_eq.mp heq]; exact List.mem_map_of_mem he)
      rw [List.filter_cons_of_neg (by simpa using hne), ih hnd.2 he]

/-- The only extension of its type is the one that is read. -/
theorem X509.getExtD2i_eq {α : Type} {c : X509} {e : X509Extension} {nid : Oid}
    {d2i : Bytes → Option α} {a : α} (hnd : (c.extensionList.map (·.object)).Nodup)
    (he : e ∈ c.extensionList) (hobj : e.object = nid) (ha : d2i e.value = some a) :
    c.getExtD2i nid d2i = some (a, e.critical) := by
  subst hobj
  rw [X509.getExtD2i, filter_object_eq hnd he]
  simp [ha]

/-! ## The three extension lists -/

theorem addConfExtension_some {xs ys : List X509Extension} {nid : Oid} {value : Bytes} :
    addConfExtension L xs nid value = some ys ↔
      ∃ e, L.x509v3ExtConfNid nid value = some e ∧ ys = xs ++ [e] := by
  simp only [addConfExtension, Option.bind_eq_bind, Option.bind_eq_some_iff, Option.pure_def,
    Option.some.injEq]
  exact exists_congr fun e => and_congr_right fun _ => eq_comm

theorem digestIdentifier_length {bytes digest : Bytes}
    (h : digestIdentifier L bytes = some digest) :
    digest.length = 32 := by
  unfold digestIdentifier at h
  split at h
  · cases h
  · split at h
    · cases h; assumption
    · cases h

theorem computeKeyIdentifier_length {key : HybridPublicKey PKey} {digest : Bytes}
    (h : computeKeyIdentifier L key = some digest) : digest.length = 32 := by
  simp only [computeKeyIdentifier, Option.bind_eq_bind, Option.bind_eq_some_iff] at h
  obtain ⟨_, _, h⟩ := h
  exact digestIdentifier_length h

theorem computeSm2KeyIdentifier_length {key : PKey} {digest : Bytes}
    (h : computeSm2KeyIdentifier L key = some digest) : digest.length = 32 := by
  simp only [computeSm2KeyIdentifier, Option.bind_eq_bind, Option.bind_eq_some_iff] at h
  obtain ⟨_, _, h⟩ := h
  exact digestIdentifier_length h

def pqcMarker : X509Extension := ⟨hybridPqcExtensionOid, false, derNull⟩

theorem buildRootExtensions_some {key : HybridPublicKey PKey} {xs : List X509Extension}
    (h : buildRootExtensions L key = some xs) :
    ∃ bc ku ski digest,
      L.x509v3ExtConfNid nidBasicConstraints (Bytes.ofAscii "critical,CA:TRUE") = some bc ∧
      L.x509v3ExtConfNid nidKeyUsage (Bytes.ofAscii "critical,keyCertSign,cRLSign") = some ku ∧
      computeKeyIdentifier L key = some digest ∧ L.x509v3ExtI2dSki digest = some ski ∧
      xs = [bc, ku, ski, pqcMarker] := by
  simp only [buildRootExtensions, addSubjectKeyIdentifier, addPqcMarker, Option.bind_eq_bind,
    Option.bind_eq_some_iff, addConfExtension_some, Option.pure_def, Option.some.injEq] at h
  obtain ⟨_, ⟨bc, hbc, rfl⟩, _, ⟨ku, hku, rfl⟩, _, ⟨digest, hd, ski, hski, rfl⟩, rfl⟩ := h
  exact ⟨bc, ku, ski, digest, hbc, hku, hd, hski, rfl⟩

theorem buildServerExtensions_some {caKey key : HybridPublicKey PKey} {dnsName : Option CString}
    {xs : List X509Extension} (h : buildServerExtensions L caKey key dnsName = some xs) :
    ∃ name bc ku eku san ski aki digest caDigest, dnsName = some name ∧
      L.x509v3ExtConfNid nidBasicConstraints (Bytes.ofAscii "critical,CA:FALSE") = some bc ∧
      L.x509v3ExtConfNid nidKeyUsage (Bytes.ofAscii "critical,digitalSignature") = some ku ∧
      L.x509v3ExtConfNid nidExtKeyUsage (Bytes.ofAscii "serverAuth") = some eku ∧
      L.x509v3ExtConfNid nidSubjectAltName (Conf.dns ++ Conf.colon :: name.val) = some san ∧
      computeKeyIdentifier L key = some digest ∧ L.x509v3ExtI2dSki digest = some ski ∧
      computeKeyIdentifier L caKey = some caDigest ∧
      L.x509v3ExtI2dAki ⟨some caDigest⟩ = some aki ∧
      xs = [bc, ku, eku, san, ski, aki, pqcMarker] := by
  unfold buildServerExtensions at h
  split at h
  · cases h
  rename_i name
  split at h
  · cases h
  simp only [sanValue, addSubjectKeyIdentifier, addAuthorityKeyIdentifier, addPqcMarker,
    Option.bind_eq_bind, Option.bind_eq_some_iff, addConfExtension_some, Option.pure_def,
    Option.some.injEq] at h
  obtain ⟨value, hvalue, _, ⟨bc, hbc, rfl⟩, _, ⟨ku, hku, rfl⟩, _, ⟨eku, heku, rfl⟩, _,
    ⟨san, hsan, rfl⟩, _, ⟨digest, hd, ski, hski, rfl⟩, _, ⟨caDigest, hcd, aki, haki, rfl⟩, rfl⟩ := h
  split at hvalue
  · cases hvalue
  cases hvalue
  exact ⟨name, bc, ku, eku, san, ski, aki, digest, caDigest, rfl, hbc, hku, heku, hsan, hd, hski,
    hcd, haki, rfl⟩

theorem buildServerExtensions_nodup (ha : Asn1Correct L) (hc : ConfCorrect L)
    {caKey key : HybridPublicKey PKey} {dnsName : Option CString} {xs : List X509Extension}
    (h : buildServerExtensions L caKey key dnsName = some xs) : (xs.map (·.object)).Nodup := by
  obtain ⟨_, bc, ku, eku, san, ski, aki, _, _, _, hbc, hku, heku, hsan, _, hski, _, haki, rfl⟩ :=
    buildServerExtensions_some h
  simp only [List.map_cons, List.map_nil, hc.object hbc, hc.object hku, hc.object heku,
    hc.object hsan, (ha.ski hski).1, (ha.aki haki).1, pqcMarker]
  decide

theorem buildEncryptionServerExtensions_some {caKey : HybridPublicKey PKey} {key : PKey}
    {xs : List X509Extension} (h : buildEncryptionServerExtensions L caKey key = some xs) :
    ∃ bc ku ski aki digest caDigest,
      L.x509v3ExtConfNid nidBasicConstraints (Bytes.ofAscii "critical,CA:FALSE") = some bc ∧
      L.x509v3ExtConfNid nidKeyUsage (Bytes.ofAscii "critical,keyEncipherment,keyAgreement") =
        some ku ∧
      computeSm2KeyIdentifier L key = some digest ∧ L.x509v3ExtI2dSki digest = some ski ∧
      computeKeyIdentifier L caKey = some caDigest ∧
      L.x509v3ExtI2dAki ⟨some caDigest⟩ = some aki ∧ xs = [bc, ku, ski, aki, pqcMarker] := by
  simp only [buildEncryptionServerExtensions, addSm2SubjectKeyIdentifier,
    addAuthorityKeyIdentifier, addPqcMarker, Option.bind_eq_bind, Option.bind_eq_some_iff,
    addConfExtension_some, Option.pure_def, Option.some.injEq] at h
  obtain ⟨_, ⟨bc, hbc, rfl⟩, _, ⟨ku, hku, rfl⟩, _, ⟨digest, hd, ski, hski, rfl⟩, _,
    ⟨caDigest, hcd, aki, haki, rfl⟩, rfl⟩ := h
  exact ⟨bc, ku, ski, aki, digest, caDigest, hbc, hku, hd, hski, hcd, haki, rfl⟩

/-! ## Issued certificates -/

variable (L)

/-- What `sign_tbs` returns for a TBS with these parts, at the time `now`. -/
structure Issued (now : Int) (issuer : X509Name) (commonName : CString) (spki : X509Pubkey)
    (xs : List X509Extension) (signingKey : HybridPrivateKey PKey) (c : X509) : Prop where
  issuer : c.tbsCertificate.issuer = issuer
  subject : makeName L commonName = some c.tbsCertificate.subject
  spki : c.tbsCertificate.subjectPublicKeyInfo = spki.reencode
  extensions : c.extensionList = xs
  inner : IsComposite c.tbsCertificate.signature
  outer : IsComposite c.signatureAlgorithm
  notBefore : L.x509GmtimeAdj now (-60) = some c.tbsCertificate.validity.notBefore
  notAfter : L.x509GmtimeAdj now 31536000 = some c.tbsCertificate.validity.notAfter
  signed : ∃ der rnd sig, L.i2dReX509Tbs c.tbsCertificate = some der ∧ der ≠ [] ∧
    compositeSign L.toCrypto signingKey (.buf der) (.null 0) rnd = some sig ∧
    c.signatureValue = .ofOctets sig

variable {L}

theorem i2d_ne_nil {e : Ber.Element} {der : Bytes} (h : i2d e = some der) : der ≠ [] := by
  unfold i2d at h
  split at h
  · cases h
    have := Ber.encode_length_pos e
    intro h0
    rw [h0] at this
    cases this
  · cases h

/-- The TBS that was signed is the one that is encoded again when the certificate is verified. -/
theorem signTbs_some (ha : Asn1Correct L) {tbs : Option CompositeTbsCertificate}
    {key : HybridPrivateKey PKey} {rnd : Bytes} {c : X509} (h : signTbs L tbs key rnd = some c) :
    ∃ t der sig, tbs = some t ∧ L.i2dReX509Tbs t.reencode = some der ∧ der ≠ [] ∧
      compositeSign L.toCrypto key (.buf der) (.null 0) rnd = some sig ∧
      c = ⟨t.reencode, compositeAlgorithm, .ofOctets sig⟩ := by
  unfold signTbs at h
  split at h
  · cases h
  rename_i t
  split at h
  · cases h
  rename_i der hder
  split at h
  · cases h
  rename_i sig hsig
  split at h
  · cases h
  dsimp only at h
  split at h
  · cases h
  rename_i certDer hcert
  split at h
  · cases h
  rename_i parsed n hparsed
  split at h
  · cases h
    have hre : L.i2dReX509Tbs t.reencode = some der := by
      rw [ha.i2dReX509Tbs, i2dCompositeTbsCertificate, CompositeTbsCertificate.toBer_reencode]
      exact hder
    refine ⟨t, der, sig, rfl, hre, i2d_ne_nil hder, hsig, ?_⟩
    -- the flag keeps every octet of the signature value
    rw [ha.d2iX509 hcert hparsed, X509.reencode, Asn1BitString.reencode_ofOctets]
  · cases h

theorem signTbs_issued (ha : Asn1Correct L) {now : Int} {spki : Option X509Pubkey}
    {issuer : X509Name} {commonName : CString} {serial : UInt8}
    {xs : Option (List X509Extension)} {key : HybridPrivateKey PKey} {rnd : Bytes} {c : X509}
    (h : signTbs L (fillTbs L now spki issuer commonName serial xs) key rnd = some c) :
    ∃ k es, spki = some k ∧ xs = some es ∧ Issued L now issuer commonName k es key c := by
  obtain ⟨t, der, sig, ht, hre, hne, hsig, rfl⟩ := signTbs_some ha h
  simp only [fillTbs, Option.bind_eq_bind, Option.bind_eq_some_iff, Option.pure_def,
    Option.some.injEq] at ht
  obtain ⟨subject, hsubject, k, hk, nb, hnb, na, hna, es, hes, rfl⟩ := ht
  refine ⟨k, es, hk, hes, ?_⟩
  exact {
    issuer := rfl
    subject := hsubject
    spki := rfl
    extensions := rfl
    inner := ⟨rfl, rfl⟩
    outer := ⟨rfl, rfl⟩
    notBefore := hnb
    notAfter := hna
    signed := ⟨der, rnd, sig, hre, hne, hsig, rfl⟩ }

namespace Issued

variable {now : Int} {issuer : X509Name} {commonName : CString} {spki : X509Pubkey}
  {xs : List X509Extension} {signingKey : HybridPrivateKey PKey} {c : X509}

/-- From a minute before issuing to a year after. -/
theorem inValidityPeriod_iff (h : Issued L now issuer commonName spki xs signingKey c)
    (ha : Asn1Correct L) (n : Int) :
    InValidityPeriod L.toOpenssl n c ↔ now - 60 ≤ n ∧ n < now + 31536000 := by
  have hb := (ha.gmtime h.notBefore n).1
  have hf := (ha.gmtime h.notAfter n).2
  unfold InValidityPeriod
  rw [hb, hf]
  exact Iff.rfl

/-- Both components of the signature verify under any key equal to the signer's public key. -/
theorem verifies (h : Issued L now issuer commonName spki xs signingKey c)
    (hsm2 : Sm2Correct L.toCrypto) {key : HybridPublicKey PKey}
    (hpair : HybridKeyPair L.toCrypto signingKey key) :
    DilithiumVerifies L.toOpenssl key c ∧ Sm2Verifies L.toOpenssl key c := by
  obtain ⟨der, rnd, sig, hder, hne, hsig, hvalue⟩ := h.signed
  obtain ⟨sm2, d, s, m, hk, hp, hm, hd, hv⟩ :=
    compositeVerifyDetailed_valid_iff.mp (compositeVerify_sign hsm2 hpair.corresponding hsig)
  have hparts : SignedParts L.toOpenssl c d s m :=
    ⟨der, hder, hne, by rw [hvalue]; rfl, by rw [hvalue]; exact hp, hm⟩
  exact ⟨⟨d, s, m, hparts, hd⟩, ⟨d, s, m, sm2, hparts, hk, hv⟩⟩

variable {nid : Oid} {e bc ku ski aki : X509Extension}

theorem getExtD2i_eq {α : Type} {d2i : Bytes → Option α} {a : α}
    (h : Issued L now issuer commonName spki xs signingKey c) (hnd : (xs.map (·.object)).Nodup)
    (he : e ∈ xs) (hobj : e.object = nid) (ha : d2i e.value = some a) :
    c.getExtD2i nid d2i = some (a, e.critical) := by
  rw [← h.extensions] at hnd he
  exact X509.getExtD2i_eq hnd he hobj ha

theorem singleMarker (h : Issued L now issuer commonName spki xs signingKey c)
    (hnd : (xs.map (·.object)).Nodup) (hm : pqcMarker ∈ xs) : SingleMarker c := by
  rw [← h.extensions] at hnd hm
  exact ⟨pqcMarker, filter_object_eq hnd hm, rfl, rfl⟩

/-- The two values written as BasicConstraints and KeyUsage decide the constraints. -/
theorem constraintsAre (h : Issued L now issuer commonName spki xs signingKey c)
    (hc : ConfCorrect L) (hnd : (xs.map (·.object)).Nodup) (hbm : bc ∈ xs) (hkm : ku ∈ xs)
    {bv kv : Bytes} (hbc : L.x509v3ExtConfNid nidBasicConstraints bv = some bc)
    (hku : L.x509v3ExtConfNid nidKeyUsage kv = some ku) {ca : Bool} {set clear : List Nat}
    (bits : List Nat)
    (hb : (Conf.checkCritical bv).1 = true ∧
      Conf.basicConstraints (Conf.checkCritical bv).2 = some ca)
    (hk : (Conf.checkCritical kv).1 = true ∧ Conf.keyUsage (Conf.checkCritical kv).2 = some bits)
    (hbits : (∀ n ∈ set, n ∈ bits) ∧ ∀ n ∈ clear, n ∉ bits) :
    ConstraintsAre L.toOpenssl c ca set clear := by
  have h1 := h.getExtD2i_eq hnd hbm (hc.object hbc) (hc.basicConstraints hbc hb.2)
  obtain ⟨usage, hu, hget⟩ := hc.keyUsage hku hk.2
  have h2 := h.getExtD2i_eq hnd hkm (hc.object hku) hu
  rw [hc.critical hbc, hb.1] at h1
  rw [hc.critical hku, hk.1] at h2
  refine ⟨h1, usage, h2, ?_, ?_⟩
  · intro n hn
    rw [hget, decide_eq_true (hbits.1 n hn)]
  · intro n hn
    rw [hget, decide_eq_false (hbits.2 n hn)]

theorem ski_eq (h : Issued L now issuer commonName spki xs signingKey c) (ha : Asn1Correct L)
    (hnd : (xs.map (·.object)).Nodup) (hm : ski ∈ xs) {digest : Bytes}
    (hski : L.x509v3ExtI2dSki digest = some ski) :
    c.getExtD2i nidSubjectKeyIdentifier L.d2iSubjectKeyIdentifier =
      some (digest, ski.critical) := by
  obtain ⟨hobj, _, hd⟩ := ha.ski hski
  exact h.getExtD2i_eq hnd hm hobj hd

theorem aki_eq (h : Issued L now issuer commonName spki xs signingKey c) (ha : Asn1Correct L)
    (hnd : (xs.map (·.object)).Nodup) (hm : aki ∈ xs) {authority : AuthorityKeyid}
    (haki : L.x509v3ExtI2dAki authority = some aki) :
    c.getExtD2i nidAuthorityKeyIdentifier L.d2iAuthorityKeyid = some (authority, aki.critical) := by
  obtain ⟨hobj, _, hd⟩ := ha.aki haki
  exact h.getExtD2i_eq hnd hm hobj hd

end Issued

/-! ## Names and usages -/

section

variable {parse : Bytes → Option (List Conf.Item)} (hs : SanReads L parse)
  (hdns : Conf.ReadsDns parse) {d : Bytes} {e : X509Extension}
  (h : L.x509v3ExtConfNid nidSubjectAltName (Conf.dns ++ Conf.colon :: d) = some e)
include hs hdns h

/-- The names start with that of the first item. -/
theorem SanReads.names : ∃ v rest names,
    parse (Conf.dns ++ Conf.colon :: d) = some ((Conf.dns, some v) :: rest) ∧
      L.d2iSubjectAltName e.value = some (⟨.dns, v⟩ :: names) ∧ v ≠ [] ∧
      rest.length = names.length := by
  obtain ⟨items, names, hparse, hd, hall⟩ := hs h
  obtain ⟨v, rest, rfl, hv⟩ := hdns hparse
  cases hall with
  | cons hname hrest =>
    have hname := hname v rfl
    subst hname
    exact ⟨v, rest, _, hparse, hd, hv, hrest.length_eq⟩

/-- They are the one asked for alone when the items are. -/
theorem SanReads.dns_iff : ∃ items names, parse (Conf.dns ++ Conf.colon :: d) = some items ∧
    L.d2iSubjectAltName e.value = some names ∧
    (names = [⟨.dns, d⟩] ↔ items = [(Conf.dns, some d)]) := by
  obtain ⟨v, rest, names, hparse, hd, _, hlen⟩ := hs.names hdns h
  refine ⟨_, _, hparse, hd, ?_⟩
  constructor
  · intro heq
    simp only [List.cons.injEq, GeneralName.mk.injEq, true_and] at heq
    obtain ⟨rfl, rfl⟩ := heq
    rw [List.eq_nil_of_length_eq_zero hlen]
  · intro heq
    simp only [List.cons.injEq, Prod.mk.injEq, Option.some.injEq, true_and] at heq
    obtain ⟨rfl, rfl⟩ := heq
    rw [List.eq_nil_of_length_eq_zero hlen.symm]

end

/-! ## Keys -/

theorem compositeSpki_key (himports : Sm2Imports L.toCrypto) {key : HybridPublicKey PKey}
    {k : X509Pubkey} {c : X509} (hk : makeCompositeSpki L key = some k)
    (hspki : c.tbsCertificate.subjectPublicKeyInfo = k.reencode) :
    IsComposite c.tbsCertificate.subjectPublicKeyInfo.algor ∧
      ∃ parsed, hybridX509GetCompositePublicKey L.toOpenssl c = some parsed ∧
        compositePublicKeysEqual L.toCrypto parsed key = true := by
  simp only [makeCompositeSpki, Option.bind_eq_bind, Option.bind_eq_some_iff, Option.pure_def,
    Option.some.injEq] at hk
  obtain ⟨serialized, hser, rfl⟩ := hk
  rw [X509Pubkey.reencode, Asn1BitString.reencode_ofOctets] at hspki
  obtain ⟨parsed, hparse, heq⟩ := compositeParsePublicKey_serialize himports hser
  have hlen : serialized.length ≠ 0 := by
    obtain ⟨_, _, hl, _⟩ := compositeParsePublicKey_some hparse
    omega
  have halg : algorithmIsCompositeAndAbsent compositeAlgorithm = true := by decide
  refine ⟨by rw [hspki]; exact ⟨rfl, rfl⟩, parsed, ?_, heq⟩
  simp only [hybridX509GetCompositePublicKey, hspki, halg]
  rw [if_neg (by simpa using hlen)]
  exact hparse

theorem publicKeyMatches_of_parsed {c : X509} {key parsed : HybridPublicKey PKey}
    (hparsed : hybridX509GetCompositePublicKey L.toOpenssl c = some parsed)
    (heq : compositePublicKeysEqual L.toCrypto parsed key = true) :
    hybridX509PublicKeyMatches L.toOpenssl c key = true := by
  simp only [hybridX509PublicKeyMatches, hparsed, heq]

theorem sm2Spki_key (hspkis : Sm2SpkiCorrect L) {key : PKey} {k : X509Pubkey} {c : X509}
    (hk : makeSm2Spki L key = some k)
    (hspki : c.tbsCertificate.subjectPublicKeyInfo = k.reencode) :
    hybridX509SubjectPublicKeyIsSm2 L.toOpenssl c = true ∧
      hybridX509Sm2PublicKeyMatches L.toOpenssl c key = true := by
  simp only [makeSm2Spki, Option.bind_eq_bind, Option.bind_eq_some_iff, Option.pure_def,
    Option.some.injEq] at hk
  obtain ⟨octets, ho, rfl⟩ := hk
  rw [X509Pubkey.reencode, sm2Spki, Asn1BitString.reencode_ofOctets] at hspki
  obtain ⟨k', hk', ho'⟩ := hspkis key octets ho
  have hget : L.getPubkey c.tbsCertificate.subjectPublicKeyInfo = some k' := by
    rw [hspki]
    exact hk'
  obtain ⟨hs, hg⟩ := sm2Octets_some ho
  constructor
  · simp only [hybridX509SubjectPublicKeyIsSm2, hget, (sm2Octets_some ho').1]
  · simp [hybridX509Sm2PublicKeyMatches, hybridX509GetSm2PublicKeyOctets, hget, hs, hg, ho',
      (sm2Octets_form ho).1, sm2UncompressedPublicKeyBytes]

/-! ## The three certificates -/

variable (L)

/-- A root issued at `now` for a CA public key, from which `key` is parsed. -/
structure RootIssued (now : Int) (caPublicKey : HybridPublicKey PKey) (root : X509)
    (key : HybridPublicKey PKey) : Prop where
  parsed : hybridX509GetCompositePublicKey L.toOpenssl root = some key
  equal : compositePublicKeysEqual L.toCrypto key caPublicKey = true
  constraints : CaConstraints L.toOpenssl root
  ski : ∃ digest critical, computeKeyIdentifier L caPublicKey = some digest ∧
    root.getExtD2i nidSubjectKeyIdentifier L.d2iSubjectKeyIdentifier = some (digest, critical)
  accepted : ∀ n, now - 60 ≤ n → n < now + 31536000 → RootAccepted L.toOpenssl n root key

variable {L} {now : Int} {caPrivateKey : HybridPrivateKey PKey} {caPublicKey : HybridPublicKey PKey}
  {commonName : CString} {rnd : Bytes} {root : X509} {key : HybridPublicKey PKey}

theorem digest_ne_nil {digest : Bytes} (h : digest.length = 32) : digest ≠ [] := by
  intro h0
  rw [h0] at h
  cases h

theorem hybridX509CreateRoot_issued (ha : Asn1Correct L) (hc : ConfCorrect L)
    (himports : Sm2Imports L.toCrypto) (hsm2 : Sm2Correct L.toCrypto)
    (hpair : HybridKeyPair L.toCrypto caPrivateKey caPublicKey)
    (h : hybridX509CreateRoot L now caPrivateKey caPublicKey commonName rnd = some root) :
    ∃ key, RootIssued L now caPublicKey root key := by
  unfold hybridX509CreateRoot at h
  split at h
  · cases h
  rename_i name hname
  obtain ⟨k, xs, hk, hxs, hi⟩ := signTbs_issued ha h
  rw [if_pos rfl] at hxs
  obtain ⟨bc, ku, ski, digest, hbc, hku, hdigest, hski, rfl⟩ := buildRootExtensions_some hxs
  have hnd : ([bc, ku, ski, pqcMarker].map (·.object)).Nodup := by
    simp only [List.map_cons, List.map_nil, hc.object hbc, hc.object hku, (ha.ski hski).1,
      pqcMarker]
    decide
  obtain ⟨hspki, key, hparsed, hequal⟩ := compositeSpki_key himports hk hi.spki
  have hca : CaConstraints L.toOpenssl root :=
    hi.constraintsAre hc hnd (by simp) (by simp) hbc hku [5, 6] (by decide)
      (by decide) (by decide)
  have hskieq := hi.ski_eq ha hnd (by simp) hski
  have hsub := hi.subject
  rw [hname] at hsub
  cases hsub
  refine ⟨key, hparsed, hequal, hca, ⟨digest, _, hdigest, hskieq⟩, ?_⟩
  intro n h1 h2
  obtain ⟨hd, hs⟩ := hi.verifies hsm2 (hpair.of_equal hequal)
  exact {
    key_parsed := hparsed
    names := by rw [hi.issuer]
    validity := (hi.inValidityPeriod_iff ha n).mpr ⟨h1, h2⟩
    constraints := hca
    ski := ⟨digest, _, hskieq, digest_ne_nil (computeKeyIdentifier_length hdigest)⟩
    marker := hi.singleMarker hnd (by simp)
    inner := hi.inner
    outer := hi.outer
    spki := hspki
    dilithium := hd
    sm2 := hs }

theorem keyIdLink_of_issued {c : X509} {digest caDigest : Bytes} {critical critical' : Bool}
    (hroot : RootIssued L now caPublicKey root key) (hd : digest.length = 32)
    (hcd : computeKeyIdentifier L caPublicKey = some caDigest)
    (hski : c.getExtD2i nidSubjectKeyIdentifier L.d2iSubjectKeyIdentifier = some (digest, critical))
    (haki : c.getExtD2i nidAuthorityKeyIdentifier L.d2iAuthorityKeyid =
      some (⟨some caDigest⟩, critical')) : KeyIdLink L.toOpenssl c root := by
  obtain ⟨ski, critical'', hcd', hrootski⟩ := hroot.ski
  rw [hcd] at hcd'
  cases hcd'
  exact ⟨⟨digest, critical, hski, digest_ne_nil hd⟩, caDigest, critical'', _, critical', hrootski,
    digest_ne_nil (computeKeyIdentifier_length hcd), haki, rfl⟩

variable {issuedAt : Int} {dnsName : Option CString} {serverPublicKey : HybridPublicKey PKey}
  {serverSm2PublicKey : PKey} {c : X509}

/-- A certificate with the server extensions is accepted whatever octets its subject key has. -/
theorem Issued.serverAccepted (ha : Asn1Correct L) (hc : ConfCorrect L)
    (hsm2 : Sm2Correct L.toCrypto) (hpair : HybridKeyPair L.toCrypto caPrivateKey caPublicKey)
    (hroot : RootIssued L now caPublicKey root key) {spki : X509Pubkey} {xs : List X509Extension}
    (hi : Issued L issuedAt root.tbsCertificate.subject commonName spki xs caPrivateKey c)
    (hxs : buildServerExtensions L caPublicKey serverPublicKey dnsName = some xs)
    (hspki : IsComposite c.tbsCertificate.subjectPublicKeyInfo.algor) {n : Int}
    (h1 : issuedAt - 60 ≤ n) (h2 : n < issuedAt + 31536000) :
    ServerAccepted L.toOpenssl n root c key := by
  have hnd := buildServerExtensions_nodup ha hc hxs
  obtain ⟨name, bc, ku, eku, san, ski, aki, digest, caDigest, _, hbc, hku, heku, hsan, hdigest,
    hski, hcd, haki, rfl⟩ := buildServerExtensions_some hxs
  obtain ⟨hd, hs⟩ := hi.verifies hsm2 (hpair.of_equal hroot.equal)
  obtain ⟨usage, husage, hmem⟩ := hc.extKeyUsage heku
  obtain ⟨v, names, hnames, hv⟩ := hc.subjectAltName hsan
  exact {
    key_parsed := hroot.parsed
    names := by rw [hi.issuer]
    validity := (hi.inValidityPeriod_iff ha n).mpr ⟨h1, h2⟩
    issuer_constraints := hroot.constraints
    constraints := hi.constraintsAre hc hnd (by simp) (by simp) hbc hku [0] (by decide)
      (by decide) (by decide)
    eku := ⟨usage, _, hi.getExtD2i_eq hnd (by simp) (hc.object heku) husage, hmem⟩
    san := ⟨_, _, hi.getExtD2i_eq hnd (by simp) (hc.object hsan) hnames, ⟨.dns, v⟩,
      List.mem_cons_self, rfl, hv⟩
    key_ids := keyIdLink_of_issued hroot (computeKeyIdentifier_length hdigest) hcd
      (hi.ski_eq ha hnd (by simp) hski) (hi.aki_eq ha hnd (by simp) haki)
    marker := hi.singleMarker hnd (by simp)
    inner := hi.inner
    outer := hi.outer
    spki := hspki
    dilithium := hd
    sm2 := hs }

theorem hybridX509CreateServer_accepted (ha : Asn1Correct L) (hc : ConfCorrect L)
    (himports : Sm2Imports L.toCrypto) (hsm2 : Sm2Correct L.toCrypto)
    (hpair : HybridKeyPair L.toCrypto caPrivateKey caPublicKey)
    (hroot : RootIssued L now caPublicKey root key)
    (h : hybridX509CreateServer L issuedAt caPrivateKey caPublicKey serverPublicKey root commonName
      dnsName rnd = some c) :
    hybridX509PublicKeyMatches L.toOpenssl c serverPublicKey = true ∧
      ∀ n, issuedAt - 60 ≤ n → n < issuedAt + 31536000 →
        ServerAccepted L.toOpenssl n root c key := by
  obtain ⟨k, xs, hk, hxs, hi⟩ := signTbs_issued ha h
  rw [if_neg (by decide)] at hxs
  obtain ⟨hspki, parsed, hparsed, hequal⟩ := compositeSpki_key himports hk hi.spki
  refine ⟨publicKeyMatches_of_parsed hparsed hequal, ?_⟩
  intro n h1 h2
  exact hi.serverAccepted ha hc hsm2 hpair hroot hxs hspki h1 h2

/-- What the subjectAltName of a server certificate decodes to. -/
theorem hybridX509CreateServer_san (ha : Asn1Correct L) (hc : ConfCorrect L) {dnsName : CString}
    {issuerCertificate : X509}
    (h : hybridX509CreateServer L now caPrivateKey caPublicKey serverPublicKey issuerCertificate
      commonName (some dnsName) rnd = some c) :
    ∃ san, L.x509v3ExtConfNid nidSubjectAltName (Conf.dns ++ Conf.colon :: dnsName.val) =
        some san ∧
      ∀ names, L.d2iSubjectAltName san.value = some names →
        c.getExtD2i nidSubjectAltName L.d2iSubjectAltName = some (names, san.critical) := by
  obtain ⟨_, xs, _, hxs, hi⟩ := signTbs_issued ha h
  rw [if_neg (by decide)] at hxs
  have hnd := buildServerExtensions_nodup ha hc hxs
  obtain ⟨name, bc, ku, eku, san, ski, aki, _, _, hname, _, _, _, hsan, _, _, _, _, rfl⟩ :=
    buildServerExtensions_some hxs
  cases hname
  exact ⟨san, hsan, fun names hnames => hi.getExtD2i_eq hnd (by simp) (hc.object hsan) hnames⟩

theorem hybridX509CreateSm2Encryption_accepted (ha : Asn1Correct L) (hc : ConfCorrect L)
    (hspkis : Sm2SpkiCorrect L) (hsm2 : Sm2Correct L.toCrypto)
    (hpair : HybridKeyPair L.toCrypto caPrivateKey caPublicKey)
    (hroot : RootIssued L now caPublicKey root key)
    (h : hybridX509CreateSm2Encryption L issuedAt caPrivateKey caPublicKey serverSm2PublicKey root
      commonName rnd = some c) :
    hybridX509Sm2PublicKeyMatches L.toOpenssl c serverSm2PublicKey = true ∧
      ∀ n, issuedAt - 60 ≤ n → n < issuedAt + 31536000 →
        EncryptionAccepted L.toOpenssl n root c key := by
  unfold hybridX509CreateSm2Encryption at h
  split at h
  · cases h
  obtain ⟨k, xs, hk, hxs, hi⟩ := signTbs_issued ha h
  obtain ⟨bc, ku, ski, aki, digest, caDigest, hbc, hku, hdigest, hski, hcd, haki, rfl⟩ :=
    buildEncryptionServerExtensions_some hxs
  have hnd : ([bc, ku, ski, aki, pqcMarker].map (·.object)).Nodup := by
    simp only [List.map_cons, List.map_nil, hc.object hbc, hc.object hku, (ha.ski hski).1,
      (ha.aki haki).1, pqcMarker]
    decide
  obtain ⟨hissm2, hmatches⟩ := sm2Spki_key hspkis hk hi.spki
  refine ⟨hmatches, ?_⟩
  intro n h1 h2
  obtain ⟨hd, hs⟩ := hi.verifies hsm2 (hpair.of_equal hroot.equal)
  exact {
    key_parsed := hroot.parsed
    names := by rw [hi.issuer]
    validity := (hi.inValidityPeriod_iff ha n).mpr ⟨h1, h2⟩
    issuer_constraints := hroot.constraints
    constraints := hi.constraintsAre hc hnd (by simp) (by simp) hbc hku [2, 4]
      (by decide) (by decide) (by decide)
    key_ids := keyIdLink_of_issued hroot (computeSm2KeyIdentifier_length hdigest) hcd
      (hi.ski_eq ha hnd (by simp) hski) (hi.aki_eq ha hnd (by simp) haki)
    marker := hi.singleMarker hnd (by simp)
    inner := hi.inner
    outer := hi.outer
    spki := hissm2
    dilithium := hd
    sm2 := hs }

/-- The two certificates of one server carry the same names. -/
theorem hybridX509Create_names (ha : Asn1Correct L) {issuerCertificate e : X509} {t1 t2 : Int}
    {rnd rnd' : Bytes}
    (hc : hybridX509CreateServer L t1 caPrivateKey caPublicKey serverPublicKey issuerCertificate
      commonName dnsName rnd = some c)
    (he : hybridX509CreateSm2Encryption L t2 caPrivateKey caPublicKey serverSm2PublicKey
      issuerCertificate commonName rnd' = some e) :
    c.tbsCertificate.subject = e.tbsCertificate.subject ∧
      c.tbsCertificate.issuer = e.tbsCertificate.issuer := by
  unfold hybridX509CreateSm2Encryption at he
  split at he
  · cases he
  obtain ⟨_, _, _, _, hc⟩ := signTbs_issued ha hc
  obtain ⟨_, _, _, _, he⟩ := signTbs_issued ha he
  refine ⟨?_, by rw [hc.issuer, he.issuer]⟩
  have hsubject := hc.subject
  rw [he.subject, Option.some.injEq] at hsubject
  exact hsubject.symm

end

end HybridPqc
