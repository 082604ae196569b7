import HybridPqc.X509.PublicKey
import HybridPqc.X509.ToyCerts

/-!
# X509.LeafKey

The subject key of an accepted server certificate.

`hybrid_verify_certificate` parses the issuer's key and, of the subject's, compares the algorithm
alone. `accepted_chain_leaf_key_iff`: the key of an accepted chain can be taken out exactly when the
SPKI holds what the issuer of this code writes for a public key; what it issues does
(`hybridX509CreateServer_written`). `chain_accepts_malformed_leaf` is a chain under a CA that signed
other octets.
-/

namespace HybridPqc

section

variable {PKey : Type} (E : Openssl PKey)

/-- The SPKI bit string holds 1312 octets of Dilithium2 key and an uncompressed SM2 point that
OpenSSL imports and that passes its key check, and no unused bits. -/
structure HoldsCompositeKey (c : X509) : Prop where
  unused_bits : c.tbsCertificate.subjectPublicKeyInfo.publicKey.unusedBits = 0
  length : c.tbsCertificate.subjectPublicKeyInfo.publicKey.data.length = 1377
  uncompressed : c.tbsCertificate.subjectPublicKeyInfo.publicKey.data[1312]? = some 0x04
  point : ∃ k, E.fromdata (c.tbsCertificate.subjectPublicKeyInfo.publicKey.data.drop 1312) =
    some k ∧ E.publicCheck k = true

variable {E}

theorem parseSm2PublicKey_some_iff {C : Crypto PKey} {encoded : Bytes} {k : PKey} :
    parseSm2PublicKey C encoded = some k ↔
      encoded.length = 65 ∧ encoded.head? = some 0x04 ∧ C.fromdata encoded = some k ∧
        C.publicCheck k = true := by
  simp only [parseSm2PublicKey]
  by_cases hform : encoded.length = sm2UncompressedPublicKeyBytes ∧ encoded.head? = some 0x04
  · rw [if_pos hform]
    cases hk : C.fromdata encoded with
    | none => simp
    | some k' =>
      by_cases hcheck : C.publicCheck k' = true
      · simp only [hcheck, if_true, Option.some.injEq]
        refine ⟨?_, fun h => h.2.2.1⟩
        rintro rfl
        exact ⟨hform.1, hform.2, rfl, hcheck⟩
      · simp only [hcheck]
        refine ⟨fun h => (by cases h), fun h => ?_⟩
        cases h.2.2.1
        exact (hcheck h.2.2.2).elim
  · rw [if_neg hform]
    refine ⟨fun h => (by cases h), fun h => (hform ⟨h.1, h.2.1⟩).elim⟩

/-- The key of a certificate can be taken out exactly when the algorithm is Composite and the bit
string holds a Composite key. -/
theorem hybridX509GetCompositePublicKey_isSome_iff {c : X509} :
    (hybridX509GetCompositePublicKey E c).isSome = true ↔
      IsComposite c.tbsCertificate.subjectPublicKeyInfo.algor ∧ HoldsCompositeKey E c := by
  constructor
  · intro h
    obtain ⟨key, hkey⟩ := Option.isSome_iff_exists.mp h
    obtain ⟨hu, halg, hp⟩ := hybridX509GetCompositePublicKey_some hkey
    obtain ⟨k, _, hl, _, hk⟩ := compositeParsePublicKey_some hp
    obtain ⟨_, hh, hf, hcheck⟩ := parseSm2PublicKey_some_iff.mp hk
    rw [List.head?_drop] at hh
    exact ⟨algorithmIsCompositeAndAbsent_iff.mp halg, hu, hl, hh, k, hf, hcheck⟩
  · rintro ⟨halg, hu, hl, hh, k, hf, hcheck⟩
    have hparse : (compositeParsePublicKey E.toCrypto
        c.tbsCertificate.subjectPublicKeyInfo.publicKey.data).isSome = true := by
      rw [compositeParsePublicKey_isSome]
      refine ⟨hl, Option.isSome_iff_exists.mpr
        ⟨k, parseSm2PublicKey_some_iff.mpr ⟨?_, ?_, hf, hcheck⟩⟩⟩
      · rw [List.length_drop, hl]
      · rw [List.head?_drop, hh]
    have hne : ¬ (c.tbsCertificate.subjectPublicKeyInfo.publicKey.unusedBits ≠ 0 ∨
        ¬ algorithmIsCompositeAndAbsent c.tbsCertificate.subjectPublicKeyInfo.algor = true ∨
        c.tbsCertificate.subjectPublicKeyInfo.publicKey.data.length = 0) := by
      rw [algorithmIsCompositeAndAbsent_iff.mpr halg, hu, hl]
      decide
    unfold hybridX509GetCompositePublicKey
    rw [if_neg hne]
    exact hparse

section

variable (L : IssueLib PKey)

/-- The bits of an SPKI are those that `make_composite_spki` writes for some public key. -/
def WrittenByIssuer (spki : X509Pubkey) : Prop :=
  ∃ key written, makeCompositeSpki L key = some written ∧
    spki.publicKey.data = written.publicKey.data ∧
    spki.publicKey.unusedBits = written.publicKey.unusedBits

variable {L}

theorem makeCompositeSpki_eq_some {key : HybridPublicKey PKey} {spki : X509Pubkey} :
    makeCompositeSpki L key = some spki ↔ ∃ octets,
      compositeSerializePublicKey L.toCrypto key = some octets ∧
        ⟨compositeAlgorithm, .ofOctets octets⟩ = spki := by
  simp [makeCompositeSpki, Option.bind_eq_some_iff]

/-- A key that can be taken out is written with the octets it was taken from; what is written for a
key can be parsed again. -/
theorem getCompositePublicKey_isSome_iff_written (himports : Sm2Imports L.toCrypto) {c : X509}
    (halg : IsComposite c.tbsCertificate.subjectPublicKeyInfo.algor) :
    (hybridX509GetCompositePublicKey L.toOpenssl c).isSome = true ↔
      WrittenByIssuer L c.tbsCertificate.subjectPublicKeyInfo := by
  constructor
  · intro h
    obtain ⟨key, hkey⟩ := Option.isSome_iff_exists.mp h
    obtain ⟨hu, _, hparse⟩ := hybridX509GetCompositePublicKey_some hkey
    have hser := compositeSerializePublicKey_parse hparse
    exact ⟨key, _, makeCompositeSpki_eq_some.mpr ⟨_, hser, rfl⟩, rfl, hu⟩
  · rintro ⟨key, written, hwritten, hdata, hunused⟩
    obtain ⟨octets, hser, rfl⟩ := makeCompositeSpki_eq_some.mp hwritten
    rw [Asn1BitString.ofOctets_data] at hdata
    obtain ⟨parsed, hparse, _⟩ := compositeParsePublicKey_serialize himports hser
    obtain ⟨k, _, hl, _, hk⟩ := compositeParsePublicKey_some hparse
    obtain ⟨_, hh, hf, hcheck⟩ := parseSm2PublicKey_some_iff.mp hk
    rw [List.head?_drop] at hh
    rw [hybridX509GetCompositePublicKey_isSome_iff]
    refine ⟨halg, hunused, ?_, ?_, k, ?_, hcheck⟩
    · rw [hdata]
      exact hl
    · rw [hdata]
      exact hh
    · rw [hdata]
      exact hf

/-- What `hybrid_x509_create_server` issues. -/
theorem hybridX509CreateServer_written (ha : Asn1Correct L) {now : Int}
    {caPrivateKey : HybridPrivateKey PKey} {caPublicKey serverPublicKey : HybridPublicKey PKey}
    {issuer c : X509} {commonName : CString} {dnsName : Option CString} {rnd : Bytes}
    (h : hybridX509CreateServer L now caPrivateKey caPublicKey serverPublicKey issuer commonName
      dnsName rnd = some c) : WrittenByIssuer L c.tbsCertificate.subjectPublicKeyInfo := by
  obtain ⟨spki, _, hspki, _, hissued⟩ := signTbs_issued ha h
  refine ⟨serverPublicKey, spki, hspki, ?_⟩
  obtain ⟨octets, _, rfl⟩ := makeCompositeSpki_eq_some.mp hspki
  rw [hissued.spki, X509Pubkey.reencode, Asn1BitString.reencode_ofOctets]
  exact ⟨rfl, rfl⟩

end

/-- **The leaf key of an accepted chain.** The key of a server certificate whose chain is accepted
can be taken out, and its bit string is a Composite key, exactly when `make_composite_spki` writes
these bits for some public key. -/
theorem accepted_chain_leaf_key_iff {PKey : Type} {L : IssueLib PKey}
    (himports : Sm2Imports L.toCrypto) {now : Int} {root server : X509}
    (haccepted : (hybridVerifyChain L.toOpenssl now (some root) (some server)).chainValid = true) :
    ((hybridX509GetCompositePublicKey L.toOpenssl server).isSome = true ∧
      HoldsCompositeKey L.toOpenssl server) ↔
    WrittenByIssuer L server.tbsCertificate.subjectPublicKeyInfo := by
  obtain ⟨_, _, hr, hs, _, _, hserver⟩ := hybridVerifyChain_valid.mp haccepted
  cases hr
  cases hs
  rw [← getCompositePublicKey_isSome_iff_written himports hserver.spki]
  constructor
  · exact And.left
  · intro h
    exact ⟨h, (hybridX509GetCompositePublicKey_isSome_iff.mp h).2⟩

/-- A server certificate from `hybrid_x509_create_server`. -/
theorem accepted_chain_leaf_key_issued : ∃ root server,
    (hybridVerifyChain Toy.issueLib.toOpenssl Toy.issueTime (some root) (some server)).chainValid =
      true ∧
    (hybridX509GetCompositePublicKey Toy.issueLib.toOpenssl server).isSome = true := by
  obtain ⟨root, server, hroot, hserver, _⟩ := Toy.server_exists Toy.serverName_writable
  obtain ⟨key, hi⟩ := hybridX509CreateRoot_issued Toy.asn1Correct Toy.confCorrect Toy.sm2Imports
    Toy.sm2Correct (Toy.keyPair 1) hroot
  obtain ⟨_, hacc⟩ := hybridX509CreateServer_accepted Toy.asn1Correct Toy.confCorrect
    Toy.sm2Imports Toy.sm2Correct (Toy.keyPair 1) hi hserver
  have hvalid := hybridVerifyChain_valid.mpr ⟨root, server, rfl, rfl, key,
    hi.accepted Toy.issueTime (by decide) (by decide),
    hacc Toy.issueTime (by decide) (by decide)⟩
  have hwritten := hybridX509CreateServer_written Toy.asn1Correct hserver
  exact ⟨root, server, hvalid,
    ((accepted_chain_leaf_key_iff Toy.sm2Imports hvalid).mpr hwritten).1⟩

end

/-! ## A leaf without an SM2 component -/

namespace Toy

/-- The SPKI of a bare Dilithium2 key under the Composite algorithm. -/
def bareSpki : X509Pubkey := ⟨compositeAlgorithm, .ofOctets (publicKey 2).dilithiumPublicKey.val⟩

theorem bareSpki_size : Ber.tagsOk bareSpki.toBer = true ∧ Ber.weight bareSpki.toBer ≤ 2000 := by
  decide +kernel

theorem malformed_leaf_exists : ∃ root server, Reread root ∧ Reread server ∧
    ChainAccepted issueLib.toOpenssl issueTime root server ∧
    server.tbsCertificate.subjectPublicKeyInfo = bareSpki := by
  have h1 : (privateKey 1).sm2PrivateKey = some (sm2Key 1) := rfl
  have h2 : (publicKey 1).sm2PublicKey = some (sm2Key 1) := rfl
  have h3 : (publicKey 2).sm2PublicKey = some (sm2Key 2) := rfl
  obtain ⟨root, hroot, hrr, hshort⟩ := hybridX509CreateRoot_exists issueTime_times h1 h2
    (sm2Key_isPoint 1) (show NameFits rootName by decide) []
  obtain ⟨xs, hxs, hxshort, hlen⟩ := serverExtensions_exists h3 (sm2Key_isPoint 2) h2
    (sm2Key_isPoint 1) serverName_writable
  obtain ⟨server, hserver, hrs⟩ := fillTbs_exists issueTime_times h1 (sm2Key_isPoint 1)
    bareSpki_size hshort (makeName_eq serverName_fits.1 serverName_fits.2) serverName_fits.2 2
    hxshort hlen []
  obtain ⟨key, hi⟩ := hybridX509CreateRoot_issued asn1Correct confCorrect sm2Imports sm2Correct
    (keyPair 1) hroot
  obtain ⟨k, es, hk, hes, his⟩ := signTbs_issued asn1Correct hserver
  cases hk
  cases hes
  have hspki : server.tbsCertificate.subjectPublicKeyInfo = bareSpki := by
    rw [his.spki, bareSpki, X509Pubkey.reencode, Asn1BitString.reencode_ofOctets]
  have hacc := his.serverAccepted asn1Correct confCorrect sm2Correct (keyPair 1) hi hxs
    (by rw [hspki]; exact ⟨rfl, rfl⟩) (n := issueTime) (by decide) (by decide)
  exact ⟨root, server, hrr, hrs, ⟨key, hi.accepted issueTime (by decide) (by decide), hacc⟩, hspki⟩

end Toy

/-- A CA signed a server certificate whose Composite SPKI holds a Dilithium2 key and nothing else:
the chain is accepted and no key can be taken out. -/
theorem chain_accepts_malformed_leaf : ∃ root server,
    (hybridVerifyChain Toy.issueLib.toOpenssl Toy.issueTime (some root) (some server)).chainValid =
      true ∧
    hybridX509GetCompositePublicKey Toy.issueLib.toOpenssl server = none := by
  obtain ⟨root, server, _, _, hacc, hspki⟩ := Toy.malformed_leaf_exists
  refine ⟨root, server, hybridVerifyChain_valid.mpr ⟨root, server, rfl, rfl, hacc⟩, ?_⟩
  rw [← Option.not_isSome_iff_eq_none, hybridX509GetCompositePublicKey_isSome_iff]
  rintro ⟨_, h⟩
  have hl := h.length
  rw [hspki, Toy.bareSpki, Asn1BitString.ofOctets_data, Block.length_val] at hl
  exact absurd hl (by decide)

end HybridPqc
