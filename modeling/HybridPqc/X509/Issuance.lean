import HybridPqc.X509.ToyCerts

/-!
# X509.Issuance

The two main results about issuing: `issuance_agrees`, that the verifier accepts what the issuer
makes, and `server_san_iff`, when the subjectAltName is the name that was asked for
(`server_san_scan_iff` where a line break is read as OpenSSL does).
-/

namespace HybridPqc

/-- **Issuance agrees with verification.** A root issued for a CA key pair verifies under its own
key; server and encryption certificates issued under it verify under the root. Each holds from a
minute before issuing to a year after, whatever the keys, names and signatures are, and the keys
read out of the certificates are those that were put in. -/
theorem issuance_agrees {PKey : Type} (L : IssueLib PKey) (ha : Asn1Correct L)
    (hc : ConfCorrect L) (himports : Sm2Imports L.toCrypto) (hspkis : Sm2SpkiCorrect L)
    (hsm2 : Sm2Correct L.toCrypto) {caPrivateKey : HybridPrivateKey PKey}
    {caPublicKey : HybridPublicKey PKey} (hpair : HybridKeyPair L.toCrypto caPrivateKey caPublicKey)
    {t0 : Int} {commonName : CString} {rnd : Bytes} {root : X509}
    (hroot : hybridX509CreateRoot L t0 caPrivateKey caPublicKey commonName rnd = some root) :
    hybridX509PublicKeyMatches L.toOpenssl root caPublicKey = true ∧
    (∀ now, t0 - 60 ≤ now → now < t0 + 31536000 →
      (hybridVerifyRootSelfSignature L.toOpenssl now (some root)).certificateValid = true) ∧
    (∀ t1 serverPublicKey commonName dnsName rnd server,
      hybridX509CreateServer L t1 caPrivateKey caPublicKey serverPublicKey root commonName dnsName
        rnd = some server →
      hybridX509PublicKeyMatches L.toOpenssl server serverPublicKey = true ∧
      ∀ now, t0 - 60 ≤ now → now < t0 + 31536000 → t1 - 60 ≤ now → now < t1 + 31536000 →
        (hybridVerifyChain L.toOpenssl now (some root) (some server)).chainValid = true) ∧
    ∀ t2 serverSm2PublicKey commonName rnd certificate,
      hybridX509CreateSm2Encryption L t2 caPrivateKey caPublicKey serverSm2PublicKey root
        commonName rnd = some certificate →
      hybridX509Sm2PublicKeyMatches L.toOpenssl certificate serverSm2PublicKey = true ∧
      ∀ now, t2 - 60 ≤ now → now < t2 + 31536000 →
        (hybridVerifyEncryptionCertificate L.toOpenssl now (some certificate)
          (some root)).certificateValid = true := by
  obtain ⟨key, hi⟩ := hybridX509CreateRoot_issued ha hc himports hsm2 hpair hroot
  refine ⟨publicKeyMatches_of_parsed hi.parsed hi.equal, ?_, ?_, ?_⟩
  · intro now h1 h2
    exact hybridVerifyRootSelfSignature_valid.mpr ⟨key, hi.accepted now h1 h2⟩
  · intro t1 serverPublicKey commonName dnsName rnd server hserver
    obtain ⟨hkey, hacc⟩ :=
      hybridX509CreateServer_accepted ha hc himports hsm2 hpair hi hserver
    refine ⟨hkey, ?_⟩
    intro now h1 h2 h3 h4
    exact hybridVerifyChain_valid.mpr
      ⟨root, server, rfl, rfl, key, hi.accepted now h1 h2, hacc now h3 h4⟩
  · intro t2 serverSm2PublicKey commonName rnd certificate hcert
    obtain ⟨hkey, hacc⟩ := hybridX509CreateSm2Encryption_accepted ha hc hspkis hsm2 hpair hi hcert
    refine ⟨hkey, ?_⟩
    intro now h1 h2
    exact hybridVerifyEncryptionCertificate_valid.mpr ⟨key, hacc now h1 h2⟩

theorem issuance_agrees_toy : ∃ root server certificate,
    (hybridVerifyChain Toy.issueLib.toOpenssl Toy.issueTime (some root) (some server)).chainValid =
      true ∧
    (hybridVerifyEncryptionCertificate Toy.issueLib.toOpenssl Toy.issueTime (some certificate)
      (some root)).certificateValid = true ∧
    hybridX509PublicKeyMatches Toy.issueLib.toOpenssl server (Toy.publicKey 2) = true ∧
    hybridX509Sm2PublicKeyMatches Toy.issueLib.toOpenssl certificate (Toy.sm2Key 3) = true := by
  obtain ⟨root, server, hroot, hserver, _⟩ := Toy.server_exists Toy.serverName_writable
  obtain ⟨certificate, hcert, _⟩ := Toy.encryption_exists hroot
  obtain ⟨_, _, hservers, hencryptions⟩ := issuance_agrees Toy.issueLib Toy.asn1Correct
    Toy.confCorrect Toy.sm2Imports Toy.sm2SpkiCorrect Toy.sm2Correct (Toy.keyPair 1) hroot
  obtain ⟨hkey, hchain⟩ := hservers _ _ _ _ _ _ hserver
  obtain ⟨hsm2, henc⟩ := hencryptions _ _ _ _ _ hcert
  exact ⟨root, server, certificate, hchain _ (by decide) (by decide) (by decide) (by decide),
    henc _ (by decide) (by decide), hkey, hsm2⟩

section

variable {PKey : Type} {L : IssueLib PKey} {now : Int} {caPrivateKey : HybridPrivateKey PKey}
  {caPublicKey serverPublicKey : HybridPublicKey PKey} {issuerCertificate server : X509}
  {commonName dnsName : CString} {rnd : Bytes}

/-- The subjectAltName is what was asked for exactly when the list that is read says that. -/
theorem server_san_of_reads (ha : Asn1Correct L) (hc : ConfCorrect L)
    {parse : Bytes → Option (List Conf.Item)} (hs : SanReads L parse)
    (hdns : Conf.ReadsDns parse)
    (h : hybridX509CreateServer L now caPrivateKey caPublicKey serverPublicKey issuerCertificate
      commonName (some dnsName) rnd = some server) :
    ∃ items, parse (Conf.dns ++ Conf.colon :: dnsName.val) = some items ∧
      ((∃ critical, server.getExtD2i nidSubjectAltName L.d2iSubjectAltName =
        some ([⟨.dns, dnsName.val⟩], critical)) ↔ items = [(Conf.dns, some dnsName.val)]) := by
  obtain ⟨san, hsan, hread⟩ := hybridX509CreateServer_san ha hc h
  obtain ⟨items, names, hparse, hnames, hiff⟩ := hs.dns_iff hdns hsan
  refine ⟨items, hparse, ?_⟩
  rw [hread _ hnames, ← hiff]
  simp

/-- **The subjectAltName is what was asked for** exactly when the DNS name holds no comma and no
line break and has no blank at either end, if the list it stands in is read up to a line break. -/
theorem server_san_iff (ha : Asn1Correct L) (hc : ConfCorrect L)
    (hs : SanReads L Conf.x509v3ParseList)
    (h : hybridX509CreateServer L now caPrivateKey caPublicKey serverPublicKey issuerCertificate
      commonName (some dnsName) rnd = some server) :
    (∃ critical, server.getExtD2i nidSubjectAltName L.d2iSubjectAltName =
      some ([⟨.dns, dnsName.val⟩], critical)) ↔ Conf.Clean dnsName.val := by
  obtain ⟨items, hparse, hiff⟩ := server_san_of_reads ha hc hs Conf.parseList_readsDns h
  exact hiff.trans (Conf.parseList_dns_eq_iff hparse)

/-- The same where a line break only ends the search for separators: there one inside the name stays
in it. -/
theorem server_san_scan_iff (ha : Asn1Correct L) (hc : ConfCorrect L)
    (hs : SanReads L Conf.scanList)
    (h : hybridX509CreateServer L now caPrivateKey caPublicKey serverPublicKey issuerCertificate
      commonName (some dnsName) rnd = some server) :
    (∃ critical, server.getExtD2i nidSubjectAltName L.d2iSubjectAltName =
      some ([⟨.dns, dnsName.val⟩], critical)) ↔ Conf.ScanClean dnsName.val := by
  obtain ⟨items, hparse, hiff⟩ := server_san_of_reads ha hc hs Conf.scanList_readsDns h
  exact hiff.trans (Conf.scanList_dns_eq_iff hparse)

end

/-- A clean name comes out as it is. -/
theorem server_san_clean : ∃ root server critical,
    hybridX509CreateServer Toy.issueLib Toy.issueTime (Toy.privateKey 1) (Toy.publicKey 1)
      (Toy.publicKey 2) root Toy.serverName (some Toy.serverName) [] = some server ∧
    server.getExtD2i nidSubjectAltName Toy.issueLib.d2iSubjectAltName =
      some ([⟨.dns, Toy.serverName.val⟩], critical) := by
  obtain ⟨root, server, _, hserver, _⟩ := Toy.server_exists Toy.serverName_writable
  have hclean : Conf.Clean Toy.serverName.val :=
    ⟨by decide +kernel, by decide +kernel, by decide +kernel⟩
  obtain ⟨critical, h⟩ :=
    (server_san_iff Toy.asn1Correct Toy.confCorrect Toy.sanReads hserver).mpr hclean
  exact ⟨root, server, critical, hserver, h⟩

/-- A comma in the name makes a second DNS name. -/
theorem server_san_injected : ∃ root server critical,
    hybridX509CreateServer Toy.issueLib Toy.issueTime (Toy.privateKey 1) (Toy.publicKey 1)
      (Toy.publicKey 2) root Toy.serverName (some Toy.twoNames) [] = some server ∧
    server.getExtD2i nidSubjectAltName Toy.issueLib.d2iSubjectAltName =
      some ([⟨.dns, Bytes.ofAscii "a.example"⟩, ⟨.dns, Bytes.ofAscii "evil.example"⟩], critical) ∧
    Toy.twoNames.val = Bytes.ofAscii "a.example,DNS:evil.example" := by
  obtain ⟨root, server, _, hserver, _⟩ := Toy.server_exists Toy.twoNames_writable
  obtain ⟨san, hsan, hread⟩ := hybridX509CreateServer_san Toy.asn1Correct Toy.confCorrect hserver
  have hnames : (Toy.issueLib.x509v3ExtConfNid nidSubjectAltName
      (Conf.dns ++ Conf.colon :: Toy.twoNames.val)).bind
        (fun e => Toy.issueLib.d2iSubjectAltName e.value) =
      some [⟨.dns, Bytes.ofAscii "a.example"⟩, ⟨.dns, Bytes.ofAscii "evil.example"⟩] := by
    decide +kernel
  rw [hsan, Option.bind_some] at hnames
  exact ⟨root, server, san.critical, hserver, hread _ hnames, rfl⟩

end HybridPqc
