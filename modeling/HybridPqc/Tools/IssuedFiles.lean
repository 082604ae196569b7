import HybridPqc.Tools.Maintenance

/-!
# Tools.IssuedFiles

The certificates of one set of keys and the files that hold them.

`ChainOf` and `EncryptionOf` are certificates as `generate_demo_chain` issues them. Their acceptance
depends on the time alone (`ChainOf.accepted_iff`, `EncryptionOf.accepted_iff`), and an encryption
certificate goes on being one when the root is made again (`EncryptionOf.reissued`).
`writeChain_pki` is the last part of a run: its checks pass, and the files hold what was issued.
-/

namespace HybridPqc

open Conc Fs

section

variable {PKey : Type} (D : DemoLib PKey)

/-! ## The certificates of one set of keys -/

/-- A root and a server certificate that were issued at the time `t`. -/
structure ChainOf (ca server : KeyPair PKey) (t : Int) (root certificate : X509) : Prop where
  anchor : ∃ rnd, hybridX509CreateRoot D.toIssueLib t ca.1 ca.2 rootCommonName rnd = some root
  leaf : ∃ rnd, hybridX509CreateServer D.toIssueLib t ca.1 ca.2 server.2 root
    hybridDefaultServerName (some hybridDefaultServerName) rnd = some certificate

/-- An encryption certificate that was issued at the time `t`. -/
def EncryptionOf (ca : KeyPair PKey) (key : PKey) (t : Int) (root certificate : X509) : Prop :=
  ∃ rnd, hybridX509CreateSm2Encryption D.toIssueLib t ca.1 ca.2 key root hybridDefaultServerName
    rnd = some certificate

variable {D} {ca server : KeyPair PKey} {key : PKey} {t t' now : Int}
  {root root' certificate c : X509}

section

variable (hD : DemoCorrect D) (hca : HybridKeyPair D.toCrypto ca.1 ca.2)
include hD hca

theorem ChainOf.rootIssued (h : ChainOf D ca server t root certificate) :
    ∃ rootKey, RootIssued D.toIssueLib t ca.2 root rootKey := by
  obtain ⟨rnd, hroot⟩ := h.anchor
  exact hybridX509CreateRoot_issued hD.asn1 hD.conf hD.imports hD.store.sm2Correct hca hroot

/-- The two public keys are the ones the certificates were created for. -/
theorem ChainOf.matches (h : ChainOf D ca server t root certificate) :
    hybridX509PublicKeyMatches D.toOpenssl root ca.2 = true ∧
      hybridX509PublicKeyMatches D.toOpenssl certificate server.2 = true := by
  obtain ⟨rootKey, hi⟩ := h.rootIssued hD hca
  obtain ⟨rnd, hserver⟩ := h.leaf
  exact ⟨publicKeyMatches_of_parsed hi.parsed hi.equal,
    (hybridX509CreateServer_accepted hD.asn1 hD.conf hD.imports hD.store.sm2Correct hca hi
      hserver).1⟩

/-- The chain is accepted in its year, and at no other time. -/
theorem ChainOf.accepted_iff (h : ChainOf D ca server t root certificate) (n : Int) :
    ChainAccepted D.toOpenssl n root certificate ↔ t - 60 ≤ n ∧ n < t + 31536000 := by
  obtain ⟨rootKey, hi⟩ := h.rootIssued hD hca
  obtain ⟨rnd, hroot⟩ := h.anchor
  obtain ⟨rnd', hserver⟩ := h.leaf
  constructor
  · intro hacc
    obtain ⟨_, hroot', _⟩ := hacc
    exact ((createRoot_fields hD.asn1 hroot).2 n).mp hroot'.validity
  · intro hn
    obtain ⟨_, hacc⟩ := hybridX509CreateServer_accepted hD.asn1 hD.conf hD.imports
      hD.store.sm2Correct hca hi hserver
    exact ⟨rootKey, hi.accepted n hn.1 hn.2, hacc n hn.1 hn.2⟩

theorem EncryptionOf.accepted_iff (hroot : ChainOf D ca server t root certificate)
    (h : EncryptionOf D ca key t' root c) (n : Int) :
    (hybridVerifyEncryptionCertificate D.toOpenssl n (some c) (some root)).certificateValid = true ↔
      t' - 60 ≤ n ∧ n < t' + 31536000 := by
  obtain ⟨rootKey, hi⟩ := hroot.rootIssued hD hca
  obtain ⟨rnd, hc⟩ := h
  rw [hybridVerifyEncryptionCertificate_valid]
  constructor
  · intro hacc
    obtain ⟨_, hacc⟩ := hacc
    exact (createSm2Encryption_validity hD.asn1 hc n).mp hacc.validity
  · intro hn
    obtain ⟨_, hacc⟩ := hybridX509CreateSm2Encryption_accepted hD.asn1 hD.conf hD.spki
      hD.store.sm2Correct hca hi hc
    exact ⟨rootKey, hacc n hn.1 hn.2⟩

theorem EncryptionOf.matches (hroot : ChainOf D ca server t root certificate)
    (h : EncryptionOf D ca key t' root c) :
    hybridX509Sm2PublicKeyMatches D.toOpenssl c key = true := by
  obtain ⟨rootKey, hi⟩ := hroot.rootIssued hD hca
  obtain ⟨rnd, hc⟩ := h
  exact (hybridX509CreateSm2Encryption_accepted hD.asn1 hD.conf hD.spki hD.store.sm2Correct hca hi
    hc).1

end

/-- A root that is made again has the same subject. -/
theorem EncryptionOf.reissued (ha : Asn1Correct D.toIssueLib)
    (hroot : ChainOf D ca server t root certificate) {t'' : Int} {certificate' : X509}
    (hroot' : ChainOf D ca server t'' root' certificate') (h : EncryptionOf D ca key t' root c) :
    EncryptionOf D ca key t' root' c := by
  obtain ⟨rnd, hr⟩ := hroot.anchor
  obtain ⟨rnd', hr'⟩ := hroot'.anchor
  obtain ⟨rnd'', hc⟩ := h
  have hname := (createRoot_fields ha hr).1
  rw [(createRoot_fields ha hr').1, Option.some.injEq] at hname
  refine ⟨rnd'', ?_⟩
  rw [createSm2Encryption_subject hname]
  exact hc

/-- The certificates of a loaded pair are certificates of the pair. -/
theorem ChainOf.of_reloaded (hca : HybridKeyPair D.toCrypto ca.1 ca.2)
    (hserver : HybridKeyPair D.toCrypto server.1 server.2)
    (h : ChainOf D (reloaded ca) (reloaded server) t root certificate) :
    ChainOf D ca server t root certificate := by
  obtain ⟨rnd, hroot⟩ := h.anchor
  obtain ⟨rnd', hc⟩ := h.leaf
  have hsame : SameComponents D.toIssueLib.toCrypto (reloaded ca).2 ca.2 := reloaded_same hca
  constructor
  · rw [hsame.createRoot] at hroot
    exact ⟨rnd, hroot⟩
  · rw [hsame.createServer (reloaded_same hserver)] at hc
    exact ⟨rnd', hc⟩

theorem EncryptionOf.of_reloaded (hca : HybridKeyPair D.toCrypto ca.1 ca.2)
    (h : EncryptionOf D (reloaded ca) key t root c) : EncryptionOf D ca key t root c := by
  obtain ⟨rnd, hc⟩ := h
  have hsame : SameComponents D.toIssueLib.toCrypto (reloaded ca).2 ca.2 := reloaded_same hca
  rw [hsame.createSm2Encryption] at hc
  exact ⟨rnd, hc⟩

/-! ## Writing -/

variable {s s' : Disk} {P : DemoPaths} {p : CString}

/-- The two files of a certificate are written, and nothing else; the PEM file holds it. -/
structure WroteCertificate (D : DemoLib PKey) (c : X509) (pemPath derPath : CString) (s s' : Disk) :
    Prop where
  rest : s' = { s with file := s'.file }
  others : ∀ path, path ≠ pemPath → path ≠ derPath → s'.file path = s.file path
  read : pemPath ≠ derPath → hybridX509ReadPem D s'.file pemPath = some c

theorem hybridX509WriteFiles_pki {pemPath derPath : CString} {r : Bool} (hD : DemoCorrect D)
    (hc : ReadsBack D.toIssueLib c)
    (h : Run (pkiStep D now) (hybridX509WriteFiles c pemPath derPath) s r s') :
    r = true ∧ WroteCertificate D c pemPath derPath s s' := by
  obtain ⟨_, _, ⟨rfl, rfl⟩, h⟩ := run_pki.mp h
  obtain ⟨_, _, ⟨rfl, rfl⟩, h⟩ := run_pki.mp h
  obtain ⟨_, _, ⟨rfl, pem, hpem, rfl⟩, h⟩ := run_pki.mp h
  obtain ⟨_, _, ⟨rfl, der, _, rfl⟩, h⟩ := run_call.mp h
  cases h
  refine ⟨rfl, rfl, ?_, ?_⟩
  · intro path hp hd
    simp [Disk.writeFile, Function.update_of_ne hp, Function.update_of_ne hd]
  · intro hne
    obtain ⟨enc, henc, hread⟩ := hc
    simp [hybridX509ReadPem, Disk.writeFile, Function.update_of_ne hne, hD.pem henc hread hpem]

theorem WroteCertificate.keeps {pemPath derPath path : CString}
    (h : WroteCertificate D c pemPath derPath s s') (hp : path ≠ pemPath) (hd : path ≠ derPath) :
    hybridX509ReadPem D s'.file path = hybridX509ReadPem D s.file path := by
  rw [hybridX509ReadPem, hybridX509ReadPem, h.others path hp hd]

theorem WroteCertificate.rest_trans {pemPath derPath : CString} {s1 : Disk}
    (h : WroteCertificate D c pemPath derPath s s1) (h' : s' = { s1 with file := s'.file }) :
    s' = { s with file := s'.file } := by
  have hs := h.rest
  rw [hs] at h'
  exact h'

theorem createEncryption_pki {keys : DemoKeys PKey} {k : Option PKey} {r : Option (Option X509)}
    (hD : DemoCorrect D) (hca : HybridKeyPair D.toCrypto keys.ca.1 keys.ca.2)
    (hroot : ChainOf D keys.ca server now root certificate)
    (h : Run (pkiStep D now) (createEncryption D now keys root k) s r s') :
    s' = s ∧ ∃ encryption, r = some encryption ∧
      ∀ key, k = some key → ∃ e, encryption = some e ∧ EncryptionOf D keys.ca key now root e := by
  cases k with
  | none =>
    cases h
    exact ⟨rfl, none, rfl, nofun⟩
  | some key =>
    obtain ⟨e, _, ⟨⟨rnd, hsome, hcreate⟩, hs⟩, h⟩ := run_pki.mp h
    cases hs
    cases e with
    | none => cases hsome
    | some e =>
      have he : EncryptionOf D keys.ca key now root e := ⟨rnd, hcreate.symm⟩
      obtain ⟨_, _, ⟨rfl, hs⟩, h⟩ := run_pki.mp h
      cases hs
      rw [if_pos (he.matches hD hca hroot)] at h
      obtain ⟨_, _, ⟨rfl, hs⟩, h⟩ := run_pki.mp h
      cases hs
      rw [if_pos ((he.accepted_iff hD hca hroot now).mpr ⟨by omega, by omega⟩)] at h
      cases h
      refine ⟨rfl, some e, rfl, ?_⟩
      intro key' hkey
      cases hkey
      exact ⟨e, rfl, he⟩

theorem writeEncryption_pki {asked : Bool} {encryption : Option X509} {r : Bool}
    (hD : DemoCorrect D)
    (hasked : asked = true → ∃ e, encryption = some e ∧ ReadsBack D.toIssueLib e)
    (h : Run (pkiStep D now) (writeEncryption (P.args asked) encryption) s r s') :
    r = true ∧ ((asked = false ∧ s' = s) ∨ ∃ e, asked = true ∧ encryption = some e ∧
      WroteCertificate D e P.encryptionPem P.encryptionDer s s') := by
  cases asked with
  | false =>
    cases h
    exact ⟨rfl, Or.inl ⟨rfl, rfl⟩⟩
  | true =>
    obtain ⟨e, rfl, he⟩ := hasked rfl
    obtain ⟨rfl, hw⟩ := hybridX509WriteFiles_pki hD he h
    exact ⟨rfl, Or.inr ⟨e, rfl, rfl, hw⟩⟩

/-- What the last part of a run leaves: certificates of the pairs, issued now, in the files. -/
structure WroteChain (D : DemoLib PKey) (P : DemoPaths) (ca server : KeyPair PKey)
    (key : Option PKey) (now : Int) (s s' : Disk) : Prop where
  rest : s' = { s with file := s'.file }
  chain : ∃ root certificate, ChainOf D ca server now root certificate ∧
    hybridX509ReadPem D s'.file P.rootPem = some root ∧
    hybridX509ReadPem D s'.file P.serverPem = some certificate ∧
    ∀ k, key = some k → ∃ e, EncryptionOf D ca k now root e ∧
      hybridX509ReadPem D s'.file P.encryptionPem = some e
  kept : key = none → s'.file P.encryptionPem = s.file P.encryptionPem

theorem writeChain_pki {keys : DemoKeys PKey} {k : Option PKey} {asked : Bool} {exit : Exit}
    (hD : DemoCorrect D) (hP : P.Apart) (hca : HybridKeyPair D.toCrypto keys.ca.1 keys.ca.2)
    (hk : k.isSome = asked)
    (h : Run (pkiStep D now) (writeChain D now (P.args asked) keys k) s exit s') :
    exit = .success ∧ WroteChain D P keys.ca keys.server k now s s' := by
  obtain ⟨root, _, ⟨⟨rnd, hsome, hroot⟩, hs⟩, h⟩ := run_pki.mp h
  cases hs
  cases root with
  | none => cases hsome
  | some root =>
  obtain ⟨server, _, ⟨⟨rnd', hsome, hserver⟩, hs⟩, h⟩ := run_pki.mp h
  cases hs
  cases server with
  | none => cases hsome
  | some server =>
  have hchain : ChainOf D keys.ca keys.server now root server :=
    ⟨⟨rnd, hroot.symm⟩, ⟨rnd', hserver.symm⟩⟩
  obtain ⟨_, _, ⟨rfl, hs⟩, h⟩ := run_pki.mp h
  cases hs
  rw [if_pos (hchain.matches hD hca).2] at h
  obtain ⟨_, _, ⟨rfl, hs⟩, h⟩ := run_pki.mp h
  cases hs
  have haccepted := (hchain.accepted_iff hD hca now).mpr ⟨by omega, by omega⟩
  rw [if_pos (hybridVerifyChain_valid.mpr ⟨_, _, rfl, rfl, haccepted⟩)] at h
  obtain ⟨encryption, _, hcreate, h⟩ := run_bind.mp h
  obtain ⟨hs, encryption, rfl, hencryption⟩ := createEncryption_pki hD hca hchain hcreate
  cases hs
  have hasked : asked = true → ∃ e, encryption = some e ∧ ReadsBack D.toIssueLib e := by
    intro ha
    rw [← hk, Option.isSome_iff_exists] at ha
    obtain ⟨key, rfl⟩ := ha
    obtain ⟨e, rfl, rnd'', he⟩ := hencryption key rfl
    exact ⟨e, rfl, createSm2Encryption_readsBack hD.asn1 he⟩
  obtain ⟨_, s1, hwritten, h⟩ := run_bind.mp h
  obtain ⟨rfl, hw1⟩ :=
    hybridX509WriteFiles_pki hD (createRoot_readsBack hD.asn1 hroot.symm) hwritten
  rw [if_pos rfl] at h
  obtain ⟨_, s2, hwritten, h⟩ := run_bind.mp h
  obtain ⟨rfl, hw2⟩ :=
    hybridX509WriteFiles_pki hD (createServer_readsBack hD.asn1 hserver.symm) hwritten
  rw [if_pos rfl] at h
  obtain ⟨_, s3, hwritten, h⟩ := run_bind.mp h
  obtain ⟨rfl, hw3⟩ := writeEncryption_pki hD hasked hwritten
  rw [if_pos rfl] at h
  cases h
  replace hw1 : WroteCertificate D root P.rootPem P.rootDer s s1 := hw1
  replace hw2 : WroteCertificate D server P.serverPem P.serverDer s1 s2 := hw2
  have hrootRead := hw1.read hP.root.2.2.1
  have hserverRead := hw2.read hP.server.2.2.1
  rw [← hw2.keeps hP.root.1 hP.root.2.2.2.1] at hrootRead
  refine ⟨rfl, ?_⟩
  rcases hw3 with ⟨rfl, rfl⟩ | ⟨e, rfl, rfl, hw3⟩
  · refine ⟨hw1.rest_trans hw2.rest, ⟨root, server, hchain, hrootRead, hserverRead, ?_⟩, ?_⟩
    · intro key hkey
      subst hkey
      cases hk
    · intro _
      rw [hw2.others _ hP.server.1.symm hP.encryption.2.1,
        hw1.others _ hP.root.2.1.symm hP.encryption.1]
  · refine ⟨hw1.rest_trans (hw2.rest_trans hw3.rest), ⟨root, server, hchain, ?_, ?_, ?_⟩, ?_⟩
    · rw [hw3.keeps hP.root.2.1 hP.root.2.2.2.2]
      exact hrootRead
    · rw [hw3.keeps hP.server.1 hP.server.2.2.2]
      exact hserverRead
    · intro key hkey
      obtain ⟨e', he', hof⟩ := hencryption key hkey
      cases he'
      exact ⟨e, hof, hw3.read hP.encryption.2.2⟩
    · intro hnone
      subst hnone
      cases hk

end

end HybridPqc
