import HybridPqc.Tlcp.ServerContext
import HybridPqc.X509.Issuance
import HybridPqc.X509.PublicKey

/-!
# Tlcp.IssuedChain

From the certificates that `hybrid_x509.c` creates to a TLCP handshake: the server and the
encryption certificate under one root make a chain file that a server loads and a strict client
takes, and both sides use the keys the certificates were created for.

`IssuedChain` is three certificates of one CA pair, `IssuedChain.dualAccepted` the adapter's verdict
on them, and `issued_chain_interoperates` the handshake.
-/

namespace HybridPqc

section

variable {PKey : Type} (L : IssueLib PKey)

/-- A root for a CA pair and, under it, the two certificates of one server; each is issued at its
own time. -/
structure IssuedChain (ca : HybridPrivateKey PKey × HybridPublicKey PKey)
    (serverKey : HybridPublicKey PKey) (encryptionKey : PKey) (t0 t1 t2 : Int) (root s e : X509) :
    Prop where
  anchor : ∃ name rnd, hybridX509CreateRoot L t0 ca.1 ca.2 name rnd = some root
  certificates : ∃ name dnsName rnd rnd',
    hybridX509CreateServer L t1 ca.1 ca.2 serverKey root name dnsName rnd = some s ∧
    hybridX509CreateSm2Encryption L t2 ca.1 ca.2 encryptionKey root name rnd' = some e

/-- OpenSSL is correct, and the CA pair is one. -/
structure IssueCorrect (ca : HybridPrivateKey PKey × HybridPublicKey PKey) : Prop where
  asn1 : Asn1Correct L
  conf : ConfCorrect L
  imports : Sm2Imports L.toCrypto
  spki : Sm2SpkiCorrect L
  sm2 : Sm2Correct L.toCrypto
  pair : HybridKeyPair L.toCrypto ca.1 ca.2

/-- All three certificates are in their year. -/
def InYear (now : Int) (times : List Int) : Prop :=
  ∀ t ∈ times, t - 60 ≤ now ∧ now < t + 31536000

end

section

variable {PKey : Type} {L : IssueLib PKey} {ca : HybridPrivateKey PKey × HybridPublicKey PKey}
  {serverKey : HybridPublicKey PKey} {encryptionKey : PKey} {t0 t1 t2 now : Int} {root s e : X509}
  (hL : IssueCorrect L ca) (h : IssuedChain L ca serverKey encryptionKey t0 t1 t2 root s e)
include hL h

/-- The signing certificate is accepted under the root, for every hostname that it matches. -/
theorem IssuedChain.signingAccepted (hnow : InYear now [t0, t1, t2]) {host : Option CString}
    (hhost : HostnameMatches L.toOpenssl s host) :
    SigningAccepted L.toOpenssl now root s host := by
  obtain ⟨name, rnd, hroot⟩ := h.anchor
  obtain ⟨_, _, _, _, hs, _⟩ := h.certificates
  obtain ⟨key, hi⟩ := hybridX509CreateRoot_issued hL.asn1 hL.conf hL.imports hL.sm2 hL.pair hroot
  obtain ⟨hmatches, hacc⟩ :=
    hybridX509CreateServer_accepted hL.asn1 hL.conf hL.imports hL.sm2 hL.pair hi hs
  obtain ⟨h0, h0'⟩ := hnow t0 (by simp)
  obtain ⟨h1, h1'⟩ := hnow t1 (by simp)
  have hserver := hacc now h1 h1'
  obtain ⟨leaf, hleaf, _⟩ := hybridX509PublicKeyMatches_iff.mp hmatches
  exact {
    chain := ⟨key, hi.accepted now h0 h0', hserver⟩
    inner := hserver.inner
    outer := hserver.outer
    spki := hserver.spki
    marker := hserver.marker
    hostname := hhost
    leaf_key := ⟨leaf, hleaf⟩ }

/-- The SM2 component of the signing certificate is the one it was created for. -/
theorem IssuedChain.sm2Component_eq :
    ∃ k o, serverKey.sm2PublicKey = some k ∧ sm2Octets L.toCrypto k = some o ∧
      sm2Component L.toOpenssl s = some o := by
  obtain ⟨name, rnd, hroot⟩ := h.anchor
  obtain ⟨_, _, _, _, hs, _⟩ := h.certificates
  obtain ⟨key, hi⟩ := hybridX509CreateRoot_issued hL.asn1 hL.conf hL.imports hL.sm2 hL.pair hroot
  obtain ⟨hmatches, _⟩ :=
    hybridX509CreateServer_accepted hL.asn1 hL.conf hL.imports hL.sm2 hL.pair hi hs
  obtain ⟨leaf, hleaf, _, a, b, o, ha, hb, hoa, hob⟩ := hybridX509PublicKeyMatches_iff.mp hmatches
  exact ⟨b, o, hb, hob, by simp [sm2Component, hleaf, ha, hoa]⟩

/-- The adapter accepts the two certificates, one behind the other, under the root. -/
theorem IssuedChain.dualAccepted (hnow : InYear now [t0, t1, t2])
    {config : TlcpHybridCertAdapterConfig} {a b : Bytes}
    (hhost : HostnameMatches L.toOpenssl s config.expectedHostname)
    (hanchor : DecodesTo L.toOpenssl config.trustAnchorDer root)
    (hchain : StartsWith L.toOpenssl (.buf (a ++ b)) s e) :
    DualAccepted L.toOpenssl now config (.buf (a ++ b)) root s e := by
  obtain ⟨name, rnd, hroot⟩ := h.anchor
  obtain ⟨_, _, _, _, hs, he⟩ := h.certificates
  obtain ⟨key, hi⟩ := hybridX509CreateRoot_issued hL.asn1 hL.conf hL.imports hL.sm2 hL.pair hroot
  obtain ⟨_, hacc⟩ :=
    hybridX509CreateSm2Encryption_accepted hL.asn1 hL.conf hL.spki hL.sm2 hL.pair hi he
  obtain ⟨h2, h2'⟩ := hnow t2 (by simp)
  obtain ⟨hsubject, hissuer⟩ := hybridX509Create_names hL.asn1 hs he
  exact {
    certificates := hchain
    anchor := hanchor
    signing := h.signingAccepted hL hnow hhost
    encryption := ⟨key, hacc now h2 h2'⟩
    subject := by rw [hsubject]
    issuer := by rw [hissuer] }

end

/-- Two elements that decode stand at the front of their concatenation. -/
theorem startsWith_append {PKey : Type} {E : Openssl PKey} {a b : Bytes} {s e : X509}
    (ha : Ber.IsTlv 0x30 a) (hb : Ber.IsTlv 0x30 b) (hl : (a ++ b).length ≤ longMax)
    (hs : DecodesTo E (.buf a) s) (he : DecodesTo E (.buf b) e) :
    StartsWith E (.buf (a ++ b)) s e := by
  refine startsWith_iff.mpr ⟨a, b, b, [], ?_, ?_⟩
  · rw [decodeNextCertificate_tlv ha, if_pos hl, decodesTo_iff.mp hs]
    rfl
  · have hlast := decodeNextCertificate_tlv (E := E) (r := []) hb
    rw [List.append_nil, decodesTo_iff.mp he, if_pos] at hlast
    · exact hlast
    · rw [List.length_append] at hl
      omega

/-- **An issued chain makes a handshake.** Server and encryption certificates that are issued under
one root, at any times, with any names and keys, make a chain file that a fresh server loads in the
year of all three; its keys are the SM2 key the server certificate was created for and the key of
the encryption certificate. Every client with the adapter and this root, also a strict one, goes on
with the Certificate message at any time of that year, when the server certificate has its hostname,
and chooses the same two keys. -/
theorem issued_chain_interoperates {PKey Key Stream : Type} (L : IssueLib PKey) (G : Gmssl)
    (P : GmsslPem Stream) (K : GmsslKeys Key) (S : GmsslServer Key Stream) {limit : Nat}
    (hlimit : limit ≤ Ber.maxLen) (hread : Ber.StrictTlvReader limit 0x30 G.asn1AnyFromDer)
    {blocks : Stream → List (Option Bytes)} (hP : P.Reads pemNameCertificate blocks)
    {ca : HybridPrivateKey PKey × HybridPublicKey PKey} {serverKey : HybridPublicKey PKey}
    {encryptionKey : PKey} {t0 t1 t2 : Int} {root s e : X509} (hL : IssueCorrect L ca)
    (h : IssuedChain L ca serverKey encryptionKey t0 t1 t2 root s e) {a b : Bytes}
    (ha : Ber.IsDerTlv limit 0x30 a) (hb : Ber.IsDerTlv limit 0x30 b)
    (hs : DecodesTo L.toOpenssl (.buf a) s) (he : DecodesTo L.toOpenssl (.buf b) e)
    {signKey encKey : Key}
    (hsign : ∀ k o, serverKey.sm2PublicKey = some k → sm2Octets L.toCrypto k = some o →
      K.x509PublicKeyFromBytes o = some (signKey, []))
    (henc : K.x509CertGetSubjectPublicKey b = some encKey)
    (hgo : S.behindChain (a ++ b) = true ∧ S.behindSignKey (a ++ b) signKey = true ∧
      S.behindEncKey (a ++ b) signKey encKey = true)
    {server : TlcpServerCtx} (hfresh : server.Fresh) {now : Int}
    {config : TlcpHybridCertAdapterConfig}
    (hserver : server.tlcpHybridCertVerifyCb = some (adapterCallback L.toOpenssl now (some config)))
    (hfit : tlsUint24Size + (a ++ b).length ≤ server.certChains.length)
    (hmax : server.certChains.length ≤ sizeMax) (hlong : (a ++ b).length ≤ longMax)
    (hnow : InYear now [t0, t1, t2]) (hhost : HostnameMatches L.toOpenssl s config.expectedHostname)
    (hanchor : DecodesTo L.toOpenssl config.trustAnchorDer root) (stack : Bytes) {fp : Stream}
    (hfile : blocks fp = [some a, some b]) :
    (∀ fuel, 2 < fuel →
      tlsCtxSetTlcpHybridServerCertificateAndKeys G P K S fuel server stack fp =
        some (some ⟨a ++ b, signKey, encKey⟩)) ∧
    ∀ (client : TlsCtx) (conn : TlsConnect) (config' : TlcpHybridCertAdapterConfig) (now' : Int),
      client.tlcpHybridCertVerifyCb.isSome = true → InYear now' [t0, t1, t2] →
      DecodesTo L.toOpenssl config'.trustAnchorDer root →
      HostnameMatches L.toOpenssl s config'.expectedHostname →
      ∃ conn', tlcpRecvServerCertificate G
          (client.answering (adapterMessage L.toOpenssl config' now' (a ++ b))) conn
          (tlsRecordGetHandshakeCertificate G [a, b]) = .continues conn' ⟨.ok, .sm2sigSm3⟩ ∧
        conn'.tlcpHybridSignCert = true ∧
        serverKeyExchangeSignKey G K conn' = (conn', some signKey) ∧
        clientKeyExchangePublicKey G K conn' = some encKey := by
  have hchain := startsWith_append (ha.isTlv (by decide) hlimit) (hb.isTlv (by decide) hlimit)
    hlong hs he
  have hdual (config' : TlcpHybridCertAdapterConfig) (now' : Int)
      (hnow' : InYear now' [t0, t1, t2])
      (hhost' : HostnameMatches L.toOpenssl s config'.expectedHostname)
      (hanchor' : DecodesTo L.toOpenssl config'.trustAnchorDer root) :=
    h.dualAccepted hL hnow' hhost' hanchor' hchain
  obtain ⟨k, o, hk, ho, hcomp⟩ := h.sm2Component_eq hL
  have hid : MakesIdentity L.toOpenssl config K S limit now [a, b] ⟨a ++ b, signKey, encKey⟩ := {
    certs := by simp
    tlvs := by simp [ha, hb]
    signing := ⟨root, s, e, o, hdual config now hnow hhost hanchor, hcomp, hsign k o hk ho⟩
    encryption := ⟨b, rfl, henc⟩
    goesOn := hgo }
  constructor
  · intro fuel hfuel
    obtain ⟨result, hrun, hiff⟩ := hybrid_server_iff L.toOpenssl config G P K S hread hP hserver
      (Nat.le_trans (Nat.le_add_right _ _) hfit) hmax stack fp
    rw [hrun fuel (by rw [hfile]; exact hfuel), Option.some.injEq]
    exact (hiff _).mpr ⟨hfresh, [a, b], by rw [hfile]; rfl, by simpa using hfit, hid⟩
  · intro client conn config' now' hcb hnow' hanchor' hhost'
    obtain ⟨conn', hc, _, hflag, hsign', henc'⟩ :=
      hid.goes_on hlimit hread hcb (hdual config' now' hnow' hhost' hanchor') conn
    rw [(hid.roundTrip hread).2]
    exact ⟨conn', hc, hflag, hsign', henc'⟩

namespace Toy

theorem issueCorrect : IssueCorrect issueLib (privateKey 1, publicKey 1) :=
  ⟨asn1Correct, confCorrect, sm2Imports, sm2SpkiCorrect, sm2Correct, keyPair 1⟩

theorem issuedChain_exists : ∃ root s e, Reread root ∧ Reread s ∧ Reread e ∧
    IssuedChain issueLib (privateKey 1, publicKey 1) (publicKey 2) (sm2Key 3) issueTime issueTime
      issueTime root s e := by
  obtain ⟨root, s, hroot, hs, hrr, hrs⟩ := server_exists serverName_writable
  obtain ⟨e, he, hre⟩ := encryption_exists hroot
  exact ⟨root, s, e, hrr, hrs, hre, ⟨_, _, hroot⟩, _, _, _, _, hs, he⟩

end Toy

/-- The sample certificates: a server loads them and a strict client takes them. -/
theorem issued_chain_interoperates_strict : ∃ config server a b signKey encKey,
    tlsCtxSetTlcpHybridServerCertificateAndKeys Toy.gmssl Toy.pem Toy.pointKeys Toy.goesOn 3 server
      (Bytes.zeros 65) [some a, some b] = some (some ⟨a ++ b, signKey, encKey⟩) ∧
    ∃ conn', tlcpRecvServerCertificate Toy.gmssl
        (server.toTlsCtx.answering (adapterMessage Toy.issueLib.toOpenssl config Toy.issueTime
          (a ++ b))) .init (tlsRecordGetHandshakeCertificate Toy.gmssl [a, b]) =
        .continues conn' ⟨.ok, .sm2sigSm3⟩ ∧
      serverKeyExchangeSignKey Toy.gmssl Toy.pointKeys conn' = (conn', some signKey) ∧
      clientKeyExchangePublicKey Toy.gmssl Toy.pointKeys conn' = some encKey := by
  obtain ⟨root, s, e, hrr, hrs, hre, h⟩ := Toy.issuedChain_exists
  obtain ⟨k, o, hk, ho, _⟩ := h.sm2Component_eq Toy.issueCorrect
  obtain ⟨hlen, hhead⟩ := sm2Octets_form ho
  have hsign : ∀ k' o', (Toy.publicKey 2).sm2PublicKey = some k' →
      sm2Octets Toy.issueLib.toCrypto k' = some o' →
      Toy.pointKeys.x509PublicKeyFromBytes o' = some (o, []) := by
    intro k' o' hk' ho'
    rw [hk] at hk'
    cases hk'
    rw [ho] at ho'
    cases ho'
    exact Toy.pointKeys_point hlen hhead
  have henc : Toy.pointKeys.x509CertGetSubjectPublicKey (Ber.encode e.toBer) =
      some e.tbsCertificate.subjectPublicKeyInfo.publicKey.data := by
    simp [Toy.pointKeys, hre.d2iX509_eq]
  have ha := Toy.isDerTlv_encode hrs
  have hb := Toy.isDerTlv_encode hre
  have hda := decodesTo_iff.mpr (Toy.decodeDerStrict_eq hrs)
  have hdb := decodesTo_iff.mpr (Toy.decodeDerStrict_eq hre)
  have hanchor := decodesTo_iff.mpr (Toy.decodeDerStrict_eq hrr)
  have hla := hrs.length_le
  have hlb := hre.length_le
  generalize Ber.encode s.toBer = a at ha hda hla
  generalize Ber.encode e.toBer = b at hb hdb hlb henc
  have hab : (a ++ b).length ≤ 2 ^ 32 := by
    rw [List.length_append]
    omega
  let config : TlcpHybridCertAdapterConfig := ⟨.buf (Ber.encode root.toBer), none, false⟩
  obtain ⟨hfit, hmax⟩ := Toy.freshServer_fits config hab
  have hnow : InYear Toy.issueTime [Toy.issueTime, Toy.issueTime, Toy.issueTime] := by
    intro t ht
    simp only [List.mem_cons, List.not_mem_nil, or_false, or_self] at ht
    subst ht
    decide
  have hhost : HostnameMatches Toy.issueLib.toOpenssl s none := by
    intro name hname
    cases hname
  have hlong : (a ++ b).length ≤ longMax := by
    simp only [longMax]
    omega
  have hcb : (Toy.freshServer config (a ++ b).length).tlcpHybridCertVerifyCb =
      some (adapterCallback Toy.issueLib.toOpenssl Toy.issueTime (some config)) := rfl
  have hfile : (id [some a, some b] : List (Option Bytes)) = [some a, some b] := rfl
  obtain ⟨hserver, hclient⟩ := issued_chain_interoperates Toy.issueLib Toy.gmssl Toy.pem
    Toy.pointKeys Toy.goesOn (Nat.le_refl Ber.maxLen) Toy.gmssl_reader (Toy.pem_reads _)
    Toy.issueCorrect h ha hb hda hdb hsign henc ⟨rfl, rfl, rfl⟩ ⟨rfl, rfl, rfl⟩ hcb
    hfit hmax hlong hnow hhost hanchor (Bytes.zeros 65) hfile
  obtain ⟨conn', hc, _, hsign', henc'⟩ := hclient
    (Toy.freshServer config (a ++ b).length).toTlsCtx .init config Toy.issueTime rfl hnow hanchor
    hhost
  exact ⟨config, _, a, b, _, _, hserver 3 (by decide), conn', hc, hsign', henc'⟩

end HybridPqc
