import HybridPqc.Tools.IssuedFiles
import HybridPqc.X509.ToyCerts

/-!
# Tools.MaintenanceCorrect

A run over a `Kept` disk ends as the abstract machine says.

`PkiInv` is what such a disk holds: the key stores of the first run, and certificates of these keys,
issued at the times of the machine. `provideKeys_provisioned`, `encryptionSide_provisioned` and
`finish_pki` are the three parts of a run over it, which `main_cases` takes apart, `main_pki` the
step of the invariant, and `demo_pki_maintained` what holds after any number of runs.
-/

namespace HybridPqc

open Conc Fs

section

variable {PKey : Type} {D : DemoLib PKey} {ca server : KeyPair PKey} {key : PKey} {t t' now : Int}
  {root certificate c : X509} {s s' : Disk} {P : DemoPaths} {p : CString}

/-! ## What a disk holds -/

/-- The stores of the two pairs, and the files of certificates that were issued at the time `t`. -/
structure Provisioned (D : DemoLib PKey) (P : DemoPaths) (p : CString) (ca server : KeyPair PKey)
    (t : Int) (root certificate : X509) (s : Disk) : Prop where
  keyRoot : s.keyRoot = .privateDirectory
  caStore : HoldsPair D p ca (s.store .ca)
  serverStore : HoldsPair D p server (s.store .server)
  chain : ChainOf D ca server t root certificate
  rootFile : hybridX509ReadPem D s.file P.rootPem = some root
  serverFile : hybridX509ReadPem D s.file P.serverPem = some certificate

/-- The store of the encryption key, and the file of its certificate. -/
structure EncryptionProvisioned (D : DemoLib PKey) (P : DemoPaths) (p : CString)
    (ca : KeyPair PKey) (key : PKey) (t : Int) (root c : X509) (s : Disk) : Prop where
  store : HoldsSm2 D p key (s.store .serverEncryption)
  issued : EncryptionOf D ca key t root c
  file : hybridX509ReadPem D s.file P.encryptionPem = some c

inductive PkiInv (D : DemoLib PKey) (P : DemoPaths) (p : CString) : Disk → Written → Prop where
  | fresh {s : Disk} : Fresh s → PkiInv D P p s ⟨none, none⟩
  | chain {s : Disk} {ca server : KeyPair PKey} {t : Int} {root certificate : X509} :
      Provisioned D P p ca server t root certificate s → FreshEncryption s →
      PkiInv D P p s ⟨some t, none⟩
  | full {s : Disk} {ca server : KeyPair PKey} {t t' : Int} {root certificate c : X509}
      {key : PKey} : Provisioned D P p ca server t root certificate s →
      EncryptionProvisioned D P p ca key t' root c s → PkiInv D P p s ⟨some t, some t'⟩

/-! ## The parts of a run -/

theorem loadKeys_pki {asked : Bool} {r : Except Refusal (DemoKeys PKey)} (hD : DemoCorrect D)
    (hl : p.strlen ≤ pemBufsize) (hs : Provisioned D P p ca server t root certificate s)
    (h : Run (pkiStep D now) (loadKeys D now (P.args asked) p) s r s') :
    s' = s ∧ r = if Current now (some t) then .ok ⟨reloaded ca, reloaded server, some root⟩
      else .error .chainMismatch := by
  have h := load_pki hD hl hs.caStore h
  have h := load_pki hD hl hs.serverStore h
  obtain ⟨_, _, ⟨rfl, hs1⟩, h⟩ := run_pki.mp h
  cases hs1
  obtain ⟨_, _, ⟨rfl, hs1⟩, h⟩ := run_pki.mp h
  cases hs1
  have hroot : (s.file (P.args asked).rootPem).bind D.pemReadX509 = some root := hs.rootFile
  have hserver : (s.file (P.args asked).serverPem).bind D.pemReadX509 = some certificate :=
    hs.serverFile
  rw [hroot, hserver] at h
  obtain ⟨hmroot, hmserver⟩ := hs.chain.matches hD hs.caStore.genuine
  rw [← (reloaded_same hs.caStore.genuine).publicKeyMatches] at hmroot
  rw [← (reloaded_same hs.serverStore.genuine).publicKeyMatches] at hmserver
  simp only [hmroot, hmserver, Bool.and_self, Bool.true_and] at h
  by_cases hcurrent : Current now (some t)
  · have haccepted := (hs.chain.accepted_iff hD hs.caStore.genuine now).mpr
      (current_some.mp hcurrent)
    rw [if_pos (hybridVerifyChain_valid.mpr ⟨_, _, rfl, rfl, haccepted⟩)] at h
    cases h
    exact ⟨rfl, (if_pos hcurrent).symm⟩
  · rw [if_neg] at h
    · cases h
      exact ⟨rfl, (if_neg hcurrent).symm⟩
    · intro hvalid
      obtain ⟨_, _, hr, hc, haccepted⟩ := hybridVerifyChain_valid.mp hvalid
      cases hr
      cases hc
      exact hcurrent (current_some.mpr
        ((hs.chain.accepted_iff hD hs.caStore.genuine now).mp haccepted))

/-- Complete stores are loaded, and the chain that is found has to be current. -/
theorem provideKeys_provisioned {asked : Bool} {r : Except Refusal (DemoKeys PKey)}
    (hD : DemoCorrect D) (hl : p.strlen ≤ pemBufsize)
    (hs : Provisioned D P p ca server t root certificate s)
    (h : Run (pkiStep D now) (provideKeys D now (P.args asked) p) s r s') :
    s' = s ∧ r = if Current now (some t) then .ok ⟨reloaded ca, reloaded server, some root⟩
      else .error .chainMismatch := by
  have h := status_pki h
  have h := status_pki h
  rw [hs.caStore.status, hs.serverStore.status] at h
  exact loadKeys_pki hD hl hs h

/-- Without stores, two pairs are generated. -/
theorem provideKeys_fresh {asked : Bool} {r : Except Refusal (DemoKeys PKey)}
    (hpass : passphraseValid p = true) (hca : Savable (s.store .ca))
    (hserver : Savable (s.store .server))
    (h : Run (pkiStep D now) (provideKeys D now (P.args asked) p) s r s') :
    ∃ ca server d d', r = .ok ⟨ca, server, none⟩ ∧ HoldsPair D p ca d ∧ HoldsPair D p server d' ∧
      s' = (storeLens .server).set ((storeLens .ca).set s d) d' := by
  have hmissing (d : Dir Unit KeyFile) (hd : Savable d) : statusOf d = .missing := by
    refine statusOf_missing.mpr ?_
    intro name
    rw [Dir.accessible, hd.2]
  have h := status_pki h
  have h := status_pki h
  rw [hmissing _ hca, hmissing _ hserver, if_pos ⟨rfl, rfl⟩] at h
  exact generateKeys_pki hpass hca hserver h

/-- No encryption certificate on the command line. -/
theorem provideEncryptionKey_none {keys : DemoKeys PKey} {r : Except Refusal (Option PKey)}
    (h : Run (pkiStep D now) (provideEncryptionKey D now (P.args false) keys p) s r s') :
    r = .ok none ∧ s' = s := by
  cases h
  exact ⟨rfl, rfl⟩

/-- Without a store, an encryption key is generated. -/
theorem provideEncryptionKey_fresh {keys : DemoKeys PKey} {r : Except Refusal (Option PKey)}
    (hpass : passphraseValid p = true) (hfresh : FreshEncryption s)
    (h : Run (pkiStep D now) (provideEncryptionKey D now (P.args true) keys p) s r s') :
    ∃ key d, r = .ok (some key) ∧ HoldsSm2 D p key d ∧
      s' = (storeLens .serverEncryption).set s d := by
  obtain ⟨_, _, ⟨rfl, hs⟩, h⟩ := run_pki.mp h
  cases hs
  rw [if_pos hfresh.status] at h
  obtain ⟨_, _, ⟨⟨key, rfl, hkey⟩, hs⟩, h⟩ := run_pki.mp h
  cases hs
  obtain ⟨_, s1, hsave, h⟩ := run_bind.mp h
  obtain ⟨rfl, d, hd, rfl⟩ := saveSm2_pki hkey hpass hfresh hsave
  cases h
  exact ⟨key, d, rfl, hd, rfl⟩

/-- A stored encryption key is loaded, and the certificate that is found has to be current. -/
theorem provideEncryptionKey_provisioned {keys : DemoKeys PKey}
    {r : Except Refusal (Option PKey)} (hD : DemoCorrect D) (hpass : passphraseValid p = true)
    (hl : p.strlen ≤ pemBufsize) (hs : Provisioned D P p ca server t root certificate s)
    (he : EncryptionProvisioned D P p ca key t' root c s) (hkeys : keys.existingRoot = some root)
    (h : Run (pkiStep D now) (provideEncryptionKey D now (P.args true) keys p) s r s') :
    s' = s ∧ r = if Current now (some t') then .ok (some key) else .error .encryptionMismatch := by
  obtain ⟨_, _, ⟨rfl, hs1⟩, h⟩ := run_pki.mp h
  cases hs1
  have hcomplete := he.store.status (s.noEntry .serverEncryption)
  rw [hcomplete, if_neg HybridKeyStoreStatus.noConfusion, hkeys] at h
  obtain ⟨_, _, ⟨rfl, hs1⟩, h⟩ := run_pki.mp h
  cases hs1
  obtain ⟨_, _, ⟨rfl, hs1⟩, h⟩ := run_pki.mp h
  cases hs1
  have hfile : (s.file P.encryptionPem).bind D.pemReadX509 = some c := he.file
  rw [he.store.load hD hpass hl, hfile] at h
  have hmatches := he.issued.matches hD hs.caStore.genuine hs.chain
  have hiff := he.issued.accepted_iff hD hs.caStore.genuine hs.chain now
  simp only [hmatches, Bool.true_and, hiff] at h
  by_cases hcurrent : Current now (some t')
  · rw [if_pos (current_some.mp hcurrent)] at h
    cases h
    exact ⟨rfl, (if_pos hcurrent).symm⟩
  · rw [if_neg fun hn => hcurrent (current_some.mpr hn)] at h
    cases h
    exact ⟨rfl, (if_neg hcurrent).symm⟩

/-! ## A whole run -/

/-- The pairs in use are the stored ones: what is issued with them is issued with those. -/
structure Stands (D : DemoLib PKey) (ca server : KeyPair PKey) (keys : DemoKeys PKey) : Prop where
  pair : HybridKeyPair D.toCrypto keys.ca.1 keys.ca.2
  chain : ∀ {t root certificate}, ChainOf D keys.ca keys.server t root certificate →
    ChainOf D ca server t root certificate
  encryption : ∀ {key t root c}, EncryptionOf D keys.ca key t root c →
    EncryptionOf D ca key t root c

theorem stands_generated (h : HybridKeyPair D.toCrypto ca.1 ca.2) :
    Stands D ca server ⟨ca, server, none⟩ := ⟨h, id, id⟩

theorem stands_loaded (hca : HybridKeyPair D.toCrypto ca.1 ca.2)
    (hserver : HybridKeyPair D.toCrypto server.1 server.2) :
    Stands D ca server ⟨reloaded ca, reloaded server, some root⟩ where
  pair := hca.of_equal (compositePublicKeysEqual_iff.mpr (reloaded_same hca))
  chain := ChainOf.of_reloaded hca hserver
  encryption := EncryptionOf.of_reloaded hca

/-- The encryption side of a disk before the certificates are written: nothing, a key that is to
get a certificate, or a key with a certificate of the same CA pair. -/
inductive EncryptionSide (D : DemoLib PKey) (P : DemoPaths) (p : CString) (ca server : KeyPair PKey)
    (now : Int) (s : Disk) : Option PKey → Option Int → Prop where
  | fresh : FreshEncryption s → EncryptionSide D P p ca server now s none none
  | key {key : PKey} : HoldsSm2 D p key (s.store .serverEncryption) →
      EncryptionSide D P p ca server now s (some key) (some now)
  | kept {key : PKey} {t t' : Int} {root certificate c : X509} :
      ChainOf D ca server t root certificate → EncryptionProvisioned D P p ca key t' root c s →
      EncryptionSide D P p ca server now s none (some t')

theorem finish_pki {keys : DemoKeys PKey} {k : Option PKey} {t' : Option Int} {asked : Bool}
    {exit : Exit} (hD : DemoCorrect D) (hP : P.Apart) (hroot : s.keyRoot = .privateDirectory)
    (hca : HoldsPair D p ca (s.store .ca)) (hserver : HoldsPair D p server (s.store .server))
    (hkeys : Stands D ca server keys) (hk : k.isSome = asked)
    (hside : EncryptionSide D P p ca server now s k t')
    (h : Run (pkiStep D now) (writeChain D now (P.args asked) keys k) s exit s') :
    exit = .success ∧ s'.store = s.store ∧ PkiInv D P p s' ⟨some now, t'⟩ := by
  obtain ⟨rfl, hw⟩ := writeChain_pki hD hP hkeys.pair hk h
  obtain ⟨root, certificate, hchain, hrootFile, hserverFile, hencryption⟩ := hw.chain
  have hstore : s'.store = s.store := by
    rw [hw.rest]
  have hprovisioned : Provisioned D P p ca server now root certificate s' := {
    keyRoot := by
      rw [hw.rest]
      exact hroot
    caStore := by
      rw [hstore]
      exact hca
    serverStore := by
      rw [hstore]
      exact hserver
    chain := hkeys.chain hchain
    rootFile := hrootFile
    serverFile := hserverFile }
  refine ⟨rfl, hstore, ?_⟩
  cases hside with
  | fresh hfresh =>
    refine .chain hprovisioned ⟨?_, ?_⟩
    · rw [hstore]
      exact hfresh.savable
    · rw [hw.rest]
      exact hfresh.noEntry
  | key hkey =>
    obtain ⟨e, he, hfile⟩ := hencryption _ rfl
    refine .full hprovisioned ⟨?_, hkeys.encryption he, hfile⟩
    rw [hstore]
    exact hkey
  | kept hold he =>
    have hholds := he.store
    have hfile := he.file
    rw [← hstore] at hholds
    rw [hybridX509ReadPem, ← hw.kept rfl] at hfile
    exact .full hprovisioned
      ⟨hholds, he.issued.reissued hD.asn1 hold (hkeys.chain hchain), hfile⟩

/-- From a fresh encryption store the run goes on, with a new key if it was asked for one. -/
theorem encryptionSide_fresh {keys : DemoKeys PKey} {asked : Bool}
    {r : Except Refusal (Option PKey)} (hpass : passphraseValid p = true)
    (hfresh : FreshEncryption s)
    (h : Run (pkiStep D now) (provideEncryptionKey D now (P.args asked) keys p) s r s') :
    ∃ k, r = .ok k ∧ k.isSome = asked ∧ s'.keyRoot = s.keyRoot ∧
      EncryptionSide D P p ca server now s' k (if asked then some now else none) ∧
      ∀ w, w ≠ .serverEncryption → s'.store w = s.store w := by
  cases asked with
  | false =>
    obtain ⟨rfl, rfl⟩ := provideEncryptionKey_none h
    exact ⟨none, rfl, rfl, rfl, .fresh hfresh, fun _ _ => rfl⟩
  | true =>
    obtain ⟨key, d, rfl, hd, rfl⟩ := provideEncryptionKey_fresh hpass hfresh h
    refine ⟨some key, rfl, rfl, rfl, .key ?_, fun w hw => storeLens_ne hw ..⟩
    rw [storeLens_self]
    exact hd

/-- A stored encryption key is used if it was asked for, unless its certificate is out of date. -/
theorem encryptionSide_provisioned {keys : DemoKeys PKey} {asked : Bool}
    {r : Except Refusal (Option PKey)} (hD : DemoCorrect D) (hpass : passphraseValid p = true)
    (hl : p.strlen ≤ pemBufsize) (hs : Provisioned D P p ca server t root certificate s)
    (he : EncryptionProvisioned D P p ca key t' root c s) (hkeys : keys.existingRoot = some root)
    (h : Run (pkiStep D now) (provideEncryptionKey D now (P.args asked) keys p) s r s') :
    s' = s ∧ ((asked = true ∧ ¬ Current now (some t') ∧ r = .error .encryptionMismatch) ∨
      ∃ k, ¬ (asked = true ∧ ¬ Current now (some t')) ∧ r = .ok k ∧ k.isSome = asked ∧
        EncryptionSide D P p ca server now s k (if asked then some now else some t')) := by
  cases asked with
  | false =>
    obtain ⟨rfl, rfl⟩ := provideEncryptionKey_none h
    exact ⟨rfl, Or.inr ⟨none, nofun, rfl, rfl, .kept hs.chain he⟩⟩
  | true =>
    obtain ⟨rfl, rfl⟩ := provideEncryptionKey_provisioned hD hpass hl hs he hkeys h
    refine ⟨rfl, ?_⟩
    by_cases hcurrent : Current now (some t')
    · rw [if_pos hcurrent]
      exact Or.inr ⟨some key, fun hn => hn.2 hcurrent, rfl, rfl, .key he.store⟩
    · rw [if_neg hcurrent]
      exact Or.inl ⟨rfl, hcurrent, rfl⟩

/-- The stores of the keys that certificates were written for. -/
structure StoresKept (w : Written) (s s' : Disk) : Prop where
  chain : w.chain ≠ none → s'.store .ca = s.store .ca ∧ s'.store .server = s.store .server
  encryption : w.encryption ≠ none → s'.store .serverEncryption = s.store .serverEncryption

theorem StoresKept.of_eq {w : Written} (h : s'.store = s.store) : StoresKept w s s' := by
  constructor
  · intro _
    rw [h]
    exact ⟨rfl, rfl⟩
  · intro _
    rw [h]

/-- How a run ends, and what it leaves. -/
structure RunsAs (D : DemoLib PKey) (P : DemoPaths) (p : CString) (now : Int) (asked : Bool)
    (w : Written) (s : Disk) (exit : Exit) (s' : Disk) : Prop where
  ends : exit = w.exit now asked
  inv : PkiInv D P p s' (w.after now asked)
  kept : StoresKept w s s'
  unchanged : exit ≠ .success → s' = s

theorem RunsAs.refused {w : Written} {asked : Bool} {refusal : Refusal} (hinv : PkiInv D P p s w)
    (hexit : w.exit now asked = .failure refusal) :
    RunsAs D P p now asked w s (.failure refusal) s where
  ends := hexit.symm
  inv := by
    rw [Written.after, hexit, if_neg Exit.noConfusion]
    exact hinv
  kept := .of_eq rfl
  unchanged _ := rfl

theorem RunsAs.succeeded {w : Written} {asked : Bool} (hexit : w.exit now asked = .success)
    (hinv : PkiInv D P p s' ⟨some now, if asked then some now else w.encryption⟩)
    (hkept : StoresKept w s s') : RunsAs D P p now asked w s .success s' where
  ends := hexit.symm
  inv := by
    rw [Written.after, if_pos hexit]
    exact hinv
  kept := hkept
  unchanged h := (h rfl).elim

theorem passphraseValid_of_le (hlen : 12 ≤ p.strlen) (hl : p.strlen ≤ pemBufsize) :
    passphraseValid p = true := by
  have hmax : pemBufsize ≤ intMax := by decide
  simp only [passphraseValid, Bool.and_eq_true, decide_eq_true_eq]
  omega

/-- A run that has its keys: the encryption key, and the certificates. -/
def WithKeys (D : DemoLib PKey) (now : Int) (args : DemoArgs) (p : CString) (keys : DemoKeys PKey)
    (s : Disk) (exit : Exit) (s' : Disk) : Prop :=
  ∃ r s1, Run (pkiStep D now) (provideEncryptionKey D now args keys p) s r s1 ∧
    ((∃ refusal, r = .error refusal ∧ exit = .failure refusal ∧ s' = s1) ∨
      ∃ k, r = .ok k ∧ Run (pkiStep D now) (writeChain D now args keys k) s1 exit s')

theorem main_cases {argv : List CString} {asked : Bool} {exit : Exit} (hP : P.Apart)
    (hlen : 12 ≤ p.strlen) (hroot : s.keyRoot ≠ .other)
    (hargv : readArgv argv = some (P.args asked))
    (h : Run (pkiStep D now) (main D now argv (some p)) s exit s') :
    ∃ r s1, Run (pkiStep D now) (provideKeys D now (P.args asked) p)
        { s with keyRoot := .privateDirectory } r s1 ∧
      ((∃ refusal, r = .error refusal ∧ exit = .failure refusal ∧ s' = s1) ∨
        ∃ keys, r = .ok keys ∧ WithKeys D now (P.args asked) p keys s1 exit s') := by
  rw [main, hargv] at h
  dsimp only at h
  rw [if_neg (by omega)] at h
  obtain ⟨_, _, hrun, h⟩ := run_bind.mp h
  obtain ⟨rfl, rfl⟩ := ensureKeyRoot_pki hP.keyRoot hroot hrun
  rw [if_pos rfl] at h
  obtain ⟨r, s1, hkeys, h⟩ := run_bind.mp h
  refine ⟨r, s1, hkeys, ?_⟩
  cases r with
  | error refusal =>
    cases h
    exact Or.inl ⟨refusal, rfl, rfl, rfl⟩
  | ok keys =>
    obtain ⟨r, s2, hkey, h⟩ := run_bind.mp h
    refine Or.inr ⟨keys, rfl, r, s2, hkey, ?_⟩
    cases r with
    | error refusal =>
      cases h
      exact Or.inl ⟨refusal, rfl, rfl, rfl⟩
    | ok k => exact Or.inr ⟨k, rfl, h⟩

theorem Disk.keyRoot_eq (h : s.keyRoot = .privateDirectory) :
    { s with keyRoot := .privateDirectory } = s := by
  rw [← h]

theorem main_fresh {argv : List CString} {asked : Bool} {exit : Exit} (hD : DemoCorrect D)
    (hP : P.Apart) (hlen : 12 ≤ p.strlen) (hpass : passphraseValid p = true) (hs : Fresh s)
    (hargv : readArgv argv = some (P.args asked))
    (h : Run (pkiStep D now) (main D now argv (some p)) s exit s') :
    RunsAs D P p now asked ⟨none, none⟩ s exit s' := by
  have hexit : (⟨none, none⟩ : Written).exit now asked = .success := by simp [Written.exit]
  obtain ⟨_, s1, hkeys, h⟩ := main_cases hP hlen hs.keyRoot hargv h
  have hsavable (w : KeyDirectory) :
      Savable ({ s with keyRoot := .privateDirectory }.store w) := hs.savable w
  obtain ⟨ca, server, d, d', rfl, hd, hd', rfl⟩ :=
    provideKeys_fresh hpass (hsavable .ca) (hsavable .server) hkeys
  obtain ⟨_, herror, _⟩ | ⟨_, hok, r, s2, hkey, h⟩ := h
  · cases herror
  cases hok
  have hfresh : FreshEncryption ((storeLens .server).set
      ((storeLens .ca).set { s with keyRoot := .privateDirectory } d) d') := by
    constructor
    · rw [storeLens_ne (by decide), storeLens_ne (by decide)]
      exact hsavable _
    · exact hs.noEntry
  obtain ⟨k, rfl, hk, hroot, hside, hstore⟩ := encryptionSide_fresh hpass hfresh hkey
  obtain ⟨_, herror, _⟩ | ⟨_, hok, h⟩ := h
  · cases herror
  cases hok
  have hcaStore := hstore .ca (by decide)
  have hserverStore := hstore .server (by decide)
  rw [storeLens_ne (by decide), storeLens_self] at hcaStore
  rw [storeLens_self] at hserverStore
  rw [← hcaStore] at hd
  rw [← hserverStore] at hd'
  obtain ⟨rfl, _, hinv⟩ := finish_pki hD hP hroot hd hd' (stands_generated hd.genuine) hk hside h
  exact .succeeded hexit hinv ⟨fun hn => (hn rfl).elim, fun hn => (hn rfl).elim⟩

/-- Where the chain is provisioned, it is refused out of date, or its keys are used. -/
theorem main_provisioned {w : Written} {argv : List CString} {asked : Bool} {exit : Exit}
    (hD : DemoCorrect D) (hP : P.Apart) (hlen : 12 ≤ p.strlen) (hl : p.strlen ≤ pemBufsize)
    (hinv : PkiInv D P p s w) (hw : w.chain = some t)
    (hs : Provisioned D P p ca server t root certificate s)
    (hargv : readArgv argv = some (P.args asked))
    (h : Run (pkiStep D now) (main D now argv (some p)) s exit s') :
    RunsAs D P p now asked w s exit s' ∨ Current now (some t) ∧
      WithKeys D now (P.args asked) p ⟨reloaded ca, reloaded server, some root⟩ s exit s' := by
  have hroot : s.keyRoot ≠ .other := by
    rw [hs.keyRoot]
    exact DirKind.noConfusion
  obtain ⟨_, s1, hkeys, h⟩ := main_cases hP hlen hroot hargv h
  rw [Disk.keyRoot_eq hs.keyRoot] at hkeys
  obtain ⟨rfl, rfl⟩ := provideKeys_provisioned hD hl hs hkeys
  by_cases hcurrent : Current now (some t)
  · rw [if_pos hcurrent] at h
    obtain ⟨_, herror, _⟩ | ⟨_, hok, h⟩ := h
    · cases herror
    · cases hok
      exact Or.inr ⟨hcurrent, h⟩
  · rw [if_neg hcurrent] at h
    obtain ⟨_, herror, rfl, rfl⟩ | ⟨_, hok, _⟩ := h
    · cases herror
      exact Or.inl (.refused hinv (if_pos (hw ▸ hcurrent)))
    · cases hok

theorem withKeys_chain {asked : Bool} {exit : Exit} (hD : DemoCorrect D) (hP : P.Apart)
    (hpass : passphraseValid p = true) (hcurrent : Current now (some t))
    (hs : Provisioned D P p ca server t root certificate s) (he : FreshEncryption s)
    (h : WithKeys D now (P.args asked) p ⟨reloaded ca, reloaded server, some root⟩ s exit s') :
    RunsAs D P p now asked ⟨some t, none⟩ s exit s' := by
  obtain ⟨r, s1, hkey, h⟩ := h
  obtain ⟨k, rfl, hk, hroot, hside, hstore⟩ := encryptionSide_fresh hpass he hkey
  obtain ⟨_, herror, _⟩ | ⟨_, hok, h⟩ := h
  · cases herror
  cases hok
  have hd := hs.caStore
  have hd' := hs.serverStore
  rw [← hstore .ca (by decide)] at hd
  rw [← hstore .server (by decide)] at hd'
  obtain ⟨rfl, hs', hinv⟩ := finish_pki hD hP (hroot.trans hs.keyRoot) hd hd'
    (stands_loaded hd.genuine hd'.genuine) hk hside h
  refine .succeeded ?_ hinv ⟨fun _ => ?_, fun hn => (hn rfl).elim⟩
  · rw [Written.exit, if_neg (not_not.mpr hcurrent), if_neg fun hn => hn.2 current_none]
  · rw [hs', hstore .ca (by decide), hstore .server (by decide)]
    exact ⟨rfl, rfl⟩

theorem withKeys_full {asked : Bool} {exit : Exit} (hD : DemoCorrect D) (hP : P.Apart)
    (hpass : passphraseValid p = true) (hl : p.strlen ≤ pemBufsize)
    (hcurrent : Current now (some t)) (hs : Provisioned D P p ca server t root certificate s)
    (he : EncryptionProvisioned D P p ca key t' root c s)
    (h : WithKeys D now (P.args asked) p ⟨reloaded ca, reloaded server, some root⟩ s exit s') :
    RunsAs D P p now asked ⟨some t, some t'⟩ s exit s' := by
  obtain ⟨r, s1, hkey, h⟩ := h
  obtain ⟨rfl, ⟨hasked, hexpired, rfl⟩ | ⟨k, hcan, rfl, hk, hside⟩⟩ :=
    encryptionSide_provisioned hD hpass hl hs he rfl hkey
  · obtain ⟨_, herror, rfl, rfl⟩ | ⟨_, hok, _⟩ := h
    · cases herror
      refine .refused (.full hs he) ?_
      rw [Written.exit, if_neg (not_not.mpr hcurrent), if_pos ⟨hasked, hexpired⟩]
    · cases hok
  · obtain ⟨_, herror, _⟩ | ⟨_, hok, h⟩ := h
    · cases herror
    cases hok
    obtain ⟨rfl, hs', hinv⟩ := finish_pki hD hP hs.keyRoot hs.caStore hs.serverStore
      (stands_loaded hs.caStore.genuine hs.serverStore.genuine) hk hside h
    refine .succeeded ?_ ?_ (.of_eq hs')
    · rw [Written.exit, if_neg (not_not.mpr hcurrent), if_neg hcan]
    · cases asked <;> exact hinv

theorem main_pki {w : Written} {argv : List CString} {asked : Bool} {exit : Exit}
    (hD : DemoCorrect D) (hP : P.Apart) (hlen : 12 ≤ p.strlen) (hl : p.strlen ≤ pemBufsize)
    (hinv : PkiInv D P p s w) (hargv : readArgv argv = some (P.args asked))
    (h : Run (pkiStep D now) (main D now argv (some p)) s exit s') :
    RunsAs D P p now asked w s exit s' := by
  have hpass := passphraseValid_of_le hlen hl
  cases hinv with
  | fresh hs => exact main_fresh hD hP hlen hpass hs hargv h
  | chain hs he =>
    obtain hends | ⟨hcurrent, h⟩ := main_provisioned hD hP hlen hl (.chain hs he) rfl hs hargv h
    · exact hends
    · exact withKeys_chain hD hP hpass hcurrent hs he h
  | full hs he =>
    obtain hends | ⟨hcurrent, h⟩ := main_provisioned hD hP hlen hl (.full hs he) rfl hs hargv h
    · exact hends
    · exact withKeys_full hD hP hpass hl hcurrent hs he h

/-! ## Any number of runs -/

theorem Kept.inv {w : Written} (hD : DemoCorrect D) (hP : P.Apart) (hlen : 12 ≤ p.strlen)
    (hl : p.strlen ≤ pemBufsize) (h : Kept D P p s w) : PkiInv D P p s w := by
  obtain ⟨s0, hfresh, hruns⟩ := h
  induction hruns with
  | refl => exact .fresh hfresh
  | run _ hargv hrun ih => exact (main_pki hD hP hlen hl ih hargv hrun).inv

/-- What was written stays written. -/
theorem Written.after_ne_none {w : Written} {asked : Bool} :
    (w.chain ≠ none → (w.after now asked).chain ≠ none) ∧
      (w.encryption ≠ none → (w.after now asked).encryption ≠ none) := by
  unfold Written.after
  split
  · refine ⟨fun _ => Option.some_ne_none _, ?_⟩
    intro h
    cases asked
    · exact h
    · exact Option.some_ne_none _
  · exact ⟨id, id⟩

/-- From the first run on, the keys stay. -/
theorem PkiRuns.storesKept {w w' : Written} (hD : DemoCorrect D) (hP : P.Apart)
    (hlen : 12 ≤ p.strlen) (hl : p.strlen ≤ pemBufsize) (hinv : PkiInv D P p s w)
    (h : PkiRuns D P p s w s' w') : StoresKept w s s' ∧ PkiInv D P p s' w' ∧
      (w.chain ≠ none → w'.chain ≠ none) ∧ (w.encryption ≠ none → w'.encryption ≠ none) := by
  induction h with
  | refl => exact ⟨.of_eq rfl, hinv, id, id⟩
  | run _ hargv hrun ih =>
    obtain ⟨hkept, hinv', hc, he⟩ := ih
    have hstep := main_pki hD hP hlen hl hinv' hargv hrun
    refine ⟨⟨?_, ?_⟩, hstep.inv, ?_, ?_⟩
    · intro hw
      obtain ⟨h1, h2⟩ := hkept.chain hw
      obtain ⟨h3, h4⟩ := hstep.kept.chain (hc hw)
      exact ⟨h3.trans h1, h4.trans h2⟩
    · intro hw
      exact (hstep.kept.encryption (he hw)).trans (hkept.encryption hw)
    · exact fun hw => Written.after_ne_none.1 (hc hw)
    · exact fun hw => Written.after_ne_none.2 (he hw)

/-! ## What the PKI is good for -/

/-- A store loads, whatever the self-test draws, and the certificate holds its public key. -/
def LoadsFor (D : DemoLib PKey) (p : CString) (d : Dir Unit KeyFile) (c : X509) : Prop :=
  ∀ rnd, ∃ keys, hybridKeyStoreLoad D.toStoreCrypto d p rnd = (d, some keys) ∧
    hybridX509PublicKeyMatches D.toOpenssl c keys.2 = true

/-- What `inspect_hybrid_cert` says about a certificate with everything in place. -/
def InspectsWhole (D : DemoLib PKey) (files : CString → Option Bytes) (path : CString) : Prop :=
  ∃ len, inspectMain D files [path] = .inspected
    ⟨true, true, dilithiumSignatureBytes, len, dilithiumSignatureBytes + len⟩

/-- What the stores and the files of a disk are good for, and for how long. -/
structure Usable (D : DemoLib PKey) (P : DemoPaths) (p : CString) (s : Disk) (w : Written) :
    Prop where
  chain : ∀ t, w.chain = some t → ∃ root certificate,
    hybridX509ReadPem D s.file P.rootPem = some root ∧
    hybridX509ReadPem D s.file P.serverPem = some certificate ∧
    LoadsFor D p (s.store .ca) root ∧ LoadsFor D p (s.store .server) certificate ∧
    (∀ n, (verifyChainMain D s.file n [P.rootPem, P.serverPem]).success = true ↔
      t - 60 ≤ n ∧ n < t + 31536000) ∧
    InspectsWhole D s.file P.rootPem ∧ InspectsWhole D s.file P.serverPem
  encryption : ∀ t, w.encryption = some t → ∃ root c key,
    hybridX509ReadPem D s.file P.rootPem = some root ∧
    hybridX509ReadPem D s.file P.encryptionPem = some c ∧
    hybridSm2KeyStoreLoad D (s.noEntry .serverEncryption) (s.store .serverEncryption) p =
      some key ∧
    hybridX509Sm2PublicKeyMatches D.toOpenssl c key = true ∧
    (∀ n, (hybridVerifyEncryptionCertificate D.toOpenssl n (some c) (some root)).certificateValid =
      true ↔ t - 60 ≤ n ∧ n < t + 31536000) ∧
    inspectMain D s.file [P.encryptionPem] = .invalid

theorem HoldsPair.loadsFor {keys : KeyPair PKey} {d : Dir Unit KeyFile} (hD : DemoCorrect D)
    (hl : p.strlen ≤ pemBufsize) (h : HoldsPair D p keys d)
    (hc : hybridX509PublicKeyMatches D.toOpenssl c keys.2 = true) : LoadsFor D p d c := by
  intro rnd
  have hload : hybridKeyStoreLoad D.toStoreCrypto d p rnd = (_, _) := rfl
  obtain ⟨hd, hr⟩ := h.load hD hl hload
  refine ⟨reloaded keys, Prod.ext hd hr, ?_⟩
  rw [(reloaded_same h.genuine).publicKeyMatches]
  exact hc

theorem Provisioned.usable (hD : DemoCorrect D) (hl : p.strlen ≤ pemBufsize)
    (h : Provisioned D P p ca server t root certificate s) :
    LoadsFor D p (s.store .ca) root ∧ LoadsFor D p (s.store .server) certificate ∧
    (∀ n, (verifyChainMain D s.file n [P.rootPem, P.serverPem]).success = true ↔
      t - 60 ≤ n ∧ n < t + 31536000) ∧
    InspectsWhole D s.file P.rootPem ∧ InspectsWhole D s.file P.serverPem := by
  obtain ⟨hroot, hserver⟩ := h.chain.matches hD h.caStore.genuine
  obtain ⟨_, haccroot, haccserver⟩ :=
    (h.chain.accepted_iff hD h.caStore.genuine t).mpr ⟨by omega, by omega⟩
  obtain ⟨leaf, hleaf, _⟩ := hybridX509PublicKeyMatches_iff.mp hserver
  obtain ⟨_, sig, _, hparts, _⟩ := haccroot.dilithium
  obtain ⟨_, sig', _, hparts', _⟩ := haccserver.dilithium
  refine ⟨h.caStore.loadsFor hD hl hroot, h.serverStore.loadsFor hD hl hserver, ?_, ?_, ?_⟩
  · intro n
    rw [verifyChainMain_success h.rootFile h.serverFile]
    exact h.chain.accepted_iff hD h.caStore.genuine n
  · exact ⟨sig.length, inspectMain_inspected h.rootFile haccroot.key_parsed hparts haccroot.inner
      haccroot.outer haccroot.marker⟩
  · exact ⟨sig'.length, inspectMain_inspected h.serverFile hleaf hparts' haccserver.inner
      haccserver.outer haccserver.marker⟩

theorem PkiInv.usable {w : Written} (hD : DemoCorrect D) (hlen : passphraseValid p = true)
    (hl : p.strlen ≤ pemBufsize) (h : PkiInv D P p s w) : Usable D P p s w := by
  cases h with
  | fresh hs => exact ⟨nofun, nofun⟩
  | chain hs he =>
    refine ⟨?_, nofun⟩
    rintro _ ⟨⟩
    exact ⟨_, _, hs.rootFile, hs.serverFile, hs.usable hD hl⟩
  | full hs he =>
    constructor
    · rintro _ ⟨⟩
      exact ⟨_, _, hs.rootFile, hs.serverFile, hs.usable hD hl⟩
    · rintro _ ⟨⟩
      obtain ⟨_, hcreate⟩ := he.issued
      exact ⟨_, _, _, hs.rootFile, he.file, he.store.load hD hlen hl _,
        he.issued.matches hD hs.caStore.genuine hs.chain,
        he.issued.accepted_iff hD hs.caStore.genuine hs.chain,
        inspectMain_invalid he.file (createSm2Encryption_no_composite hD.asn1 hcreate)⟩

end

/-- **The life of a demo PKI.** However often, at whatever times and with or without the encryption
certificate `generate_demo_chain` has run with one passphrase of 12 to 1024 bytes over one set of
paths that uses no PEM path twice: the stores and files are usable, and for a year from the last
writing; the next run ends as the abstract machine says, so it succeeds as long as what it finds is
current, and is refused once that is out of date; a refused run changes nothing; and no later run
replaces a key that a certificate was written for. -/
theorem demo_pki_maintained {PKey : Type} {D : DemoLib PKey} (hD : DemoCorrect D) {P : DemoPaths}
    (hP : P.Apart) {passphrase : CString} (hlen : 12 ≤ passphrase.strlen)
    (hl : passphrase.strlen ≤ pemBufsize) {s : Disk} {w : Written}
    (h : Kept D P passphrase s w) :
    Usable D P passphrase s w ∧
    (∀ now argv asked exit s', readArgv argv = some (P.args asked) →
      Run (pkiStep D now) (main D now argv (some passphrase)) s exit s' →
      exit = w.exit now asked ∧ (exit ≠ .success → s' = s)) ∧
    ∀ s' w', PkiRuns D P passphrase s w s' w' → StoresKept w s s' := by
  have hinv := h.inv hD hP hlen hl
  refine ⟨hinv.usable hD (passphraseValid_of_le hlen hl) hl, ?_, ?_⟩
  · intro now argv asked exit s' hargv hrun
    have hstep := main_pki hD hP hlen hl hinv hargv hrun
    exact ⟨hstep.ends, hstep.unchanged⟩
  · intro s' w' hruns
    exact (hruns.storesKept hD hP hlen hl hinv).1

namespace Toy

theorem demoCorrect : DemoCorrect demoLib where
  store := storeCorrect
  asn1 := asn1Correct
  conf := confCorrect
  imports := sm2Imports
  spki := sm2SpkiCorrect
  pem henc hread hpem := by
    have hpem' := henc.symm.trans hpem
    cases hpem'
    simp only [demoLib, show d2iX509 _ = _ from hread, Option.map_some]

def paths : DemoPaths where
  rootPem := ⟨Bytes.ofAscii "root.crt", by decide⟩
  rootDer := ⟨Bytes.ofAscii "root.der", by decide⟩
  serverPem := ⟨Bytes.ofAscii "server.crt", by decide⟩
  serverDer := ⟨Bytes.ofAscii "server.der", by decide⟩
  encryptionPem := ⟨Bytes.ofAscii "encryption.crt", by decide⟩
  encryptionDer := ⟨Bytes.ofAscii "encryption.der", by decide⟩
  keyRoot := defaultKeyRoot

theorem paths_apart : paths.Apart := by
  constructor <;> decide +kernel

theorem saveIn_stores (x : UInt8) {w : KeyDirectory} {s : Disk}
    (hw : s.store w = .empty .privateDirectory) :
    ∃ d', Run (pkiStep demoLib issueTime) (saveIn demoLib w (privateKey x, publicKey x) passphrase)
      s true ((storeLens w).set s d') := by
  obtain ⟨d', hrun⟩ := save_run (i := ()) (d := Dir.empty .privateDirectory) (saveArgs x)
    (keyPair x) passphrase_valid rfl rfl rfl fun _ => rfl
  rw [← hw] at hrun
  exact ⟨d', run_pki.mpr ⟨saveArgs x, s, ⟨⟨rfl, rfl, rfl, cryptoSucceeds x⟩, rfl⟩,
    inStore_pki.mpr ⟨d', hrun, rfl⟩⟩⟩

theorem hybridX509WriteFiles_writes {c : X509} (hc : Reread c) (pemPath derPath : CString)
    (s : Disk) :
    ∃ s', Run (pkiStep demoLib issueTime) (hybridX509WriteFiles c pemPath derPath) s true s' :=
  ⟨_, run_pki.mpr ⟨true, _, ⟨rfl, rfl⟩, run_pki.mpr ⟨true, _, ⟨rfl, rfl⟩,
    run_pki.mpr ⟨true, _, ⟨rfl, _, hc.1, rfl⟩, run_call.mpr ⟨true, _, ⟨rfl, _, hc.1, rfl⟩, .ret⟩⟩⟩⟩⟩

/-- The first run over these paths, without the encryption certificate. -/
theorem kept_exists : ∃ s, Kept demoLib paths passphrase s ⟨some issueTime, none⟩ := by
  have hk1 : (privateKey 1).sm2PrivateKey = some (sm2Key 1) := rfl
  have hk2 : (publicKey 1).sm2PublicKey = some (sm2Key 1) := rfl
  have hk3 : (publicKey 2).sm2PublicKey = some (sm2Key 2) := rfl
  have hrootFits : NameFits rootCommonName := by decide
  have hserverFits : NameFits hybridDefaultServerName := by decide
  have hwritable : SanWritable hybridDefaultServerName := by decide +kernel
  obtain ⟨root, hroot, hrr, hshort⟩ := hybridX509CreateRoot_exists issueTime_times hk1 hk2
    (sm2Key_isPoint 1) hrootFits []
  obtain ⟨server, hserver, hrs⟩ := hybridX509CreateServer_exists issueTime_times hk1 hk2
    (sm2Key_isPoint 1) hk3 (sm2Key_isPoint 2) hshort hserverFits hwritable []
  have hchain : ChainOf demoLib (privateKey 1, publicKey 1) (privateKey 2, publicKey 2) issueTime
      root server := ⟨⟨[], hroot⟩, ⟨[], hserver⟩⟩
  have hca : HybridKeyPair demoLib.toCrypto (privateKey 1, publicKey 1).1
      (privateKey 1, publicKey 1).2 := keyPair 1
  have hmatches := (hchain.matches demoCorrect hca).2
  have haccepted := (hchain.accepted_iff demoCorrect hca issueTime).mpr
    ⟨by decide, by decide⟩
  have hvalid := hybridVerifyChain_valid.mpr ⟨_, _, rfl, rfl, haccepted⟩
  let s0 := disk (.empty .privateDirectory) (.empty .privateDirectory)
  obtain ⟨ca, hcaSaved⟩ := saveIn_stores 1 (w := .ca) (s := s0) rfl
  obtain ⟨d, hd⟩ := saveIn_stores 2 (w := .server) (s := (storeLens .ca).set s0 ca) rfl
  obtain ⟨s1, hw1⟩ := hybridX509WriteFiles_writes hrr paths.rootPem paths.rootDer
    ((storeLens .server).set ((storeLens .ca).set s0 ca) d)
  obtain ⟨s2, hw2⟩ := hybridX509WriteFiles_writes hrs paths.serverPem paths.serverDer s1
  have hrun : Run (pkiStep demoLib issueTime) (main demoLib issueTime
      [paths.rootPem, paths.rootDer, paths.serverPem, paths.serverDer] (some passphrase)) s0
      .success s2 := by
    have hmissing (w : KeyDirectory) : Run (pkiStep demoLib issueTime)
        (inStore w hybridKeyStoreStatus) s0 .missing s0 := by
      refine inStore_pki.mpr ⟨s0.store w, hybridKeyStoreStatus_run ?_,
        ((storeLens w).set_get s0).symm⟩
      intro name
      cases w <;> rfl
    have hkeys : Run (pkiStep demoLib issueTime) (generateKeys demoLib passphrase) s0
        (.ok ⟨(privateKey 1, publicKey 1), (privateKey 2, publicKey 2), none⟩)
        ((storeLens .server).set ((storeLens .ca).set s0 ca) d) := by
      refine run_pki.mpr ⟨some (privateKey 1, publicKey 1), s0, ⟨⟨_, rfl, keyPair 1⟩, rfl⟩, ?_⟩
      refine run_pki.mpr ⟨some (privateKey 2, publicKey 2), s0, ⟨⟨_, rfl, keyPair 2⟩, rfl⟩, ?_⟩
      exact run_bind.mpr ⟨true, _, hcaSaved, run_bind.mpr ⟨true, _, hd, .ret⟩⟩
    refine run_bind.mpr ⟨true, s0, run_pki.mpr ⟨.privateDirectory, s0, ⟨rfl, rfl⟩, .ret⟩, ?_⟩
    refine run_bind.mpr ⟨_, _, run_bind.mpr ⟨_, _, hmissing .ca,
      run_bind.mpr ⟨_, _, hmissing .server, hkeys⟩⟩, ?_⟩
    refine run_bind.mpr ⟨.ok none, _, .ret, ?_⟩
    refine run_pki.mpr ⟨some root, _, ⟨⟨[], rfl, hroot.symm⟩, rfl⟩, ?_⟩
    refine run_pki.mpr ⟨some server, _, ⟨⟨[], rfl, hserver.symm⟩, rfl⟩, ?_⟩
    refine run_pki.mpr ⟨true, _, ⟨hmatches.symm, rfl⟩, ?_⟩
    refine run_pki.mpr ⟨true, _, ⟨hvalid.symm, rfl⟩, ?_⟩
    refine run_bind.mpr ⟨some none, _, .ret, ?_⟩
    refine run_bind.mpr ⟨true, _, hw1, run_bind.mpr ⟨true, _, hw2, ?_⟩⟩
    exact run_bind.mpr ⟨true, _, .ret, .ret⟩
  have hfresh : Fresh s0 := by
    refine ⟨nofun, ?_, rfl⟩
    intro w
    cases w <;> exact ⟨nofun, fun _ => rfl⟩
  have hargv : readArgv [paths.rootPem, paths.rootDer, paths.serverPem, paths.serverDer] =
      some (paths.args false) := rfl
  exact ⟨s2, s0, hfresh, .run .refl hargv hrun⟩

end Toy

/-- A PKI after its first run. -/
theorem demo_pki_maintained_toy : ∃ s,
    Kept Toy.demoLib Toy.paths Toy.passphrase s ⟨some Toy.issueTime, none⟩ ∧
    Usable Toy.demoLib Toy.paths Toy.passphrase s ⟨some Toy.issueTime, none⟩ ∧
    (∀ now argv asked exit s', readArgv argv = some (Toy.paths.args asked) →
      Run (pkiStep Toy.demoLib now) (main Toy.demoLib now argv (some Toy.passphrase)) s exit s' →
      exit = (⟨some Toy.issueTime, none⟩ : Written).exit now asked ∧ (exit ≠ .success → s' = s)) ∧
    ∀ s' w', PkiRuns Toy.demoLib Toy.paths Toy.passphrase s ⟨some Toy.issueTime, none⟩ s' w' →
      StoresKept ⟨some Toy.issueTime, none⟩ s s' := by
  obtain ⟨s, hs⟩ := Toy.kept_exists
  exact ⟨s, hs, demo_pki_maintained Toy.demoCorrect Toy.paths_apart (by decide) (by decide) hs⟩

end HybridPqc
