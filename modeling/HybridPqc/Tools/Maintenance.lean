import HybridPqc.Store.Crash
import HybridPqc.Tools.GenerateDemoChainCorrect
import HybridPqc.Tools.VerifyChain
import HybridPqc.X509.Reissue

/-!
# Tools.Maintenance

The demo PKI over its life: one key root and one set of certificate files, and any number of runs of
`generate_demo_chain` at any times, with or without the encryption certificate.

`Written` is the abstract machine: the two times at which the certificates were last written. Its
`exit` says how the next run ends and its `after` what the run leaves. `PkiRuns` are runs of the
tool beside the machine, and `Kept` is a disk after some of them.

`pkiStep` is the semantics of a run: no operation fails, the generators return pairs that belong
together, and a check answers what it computes.
-/

namespace HybridPqc

open Conc Fs

/-! ## The abstract machine -/

/-- When the chain and the encryption certificate were last written. -/
structure Written where
  chain : Option Int
  encryption : Option Int
  deriving DecidableEq

/-- Now is in the year of a certificate that was issued at the time `t`, if there is one. -/
def Current (now : Int) (t : Option Int) : Prop := ∀ t' ∈ t, t' - 60 ≤ now ∧ now < t' + 31536000

@[simp] theorem current_none {now : Int} : Current now none := by simp [Current]

@[simp] theorem current_some {now t : Int} :
    Current now (some t) ↔ t - 60 ≤ now ∧ now < t + 31536000 := by simp [Current]

instance (now : Int) : (t : Option Int) → Decidable (Current now t)
  | none => .isTrue current_none
  | some _ => decidable_of_iff _ current_some.symm

namespace Written

/-- How the next run ends; `asked` says that the encryption certificate is on its command line. -/
def exit (w : Written) (now : Int) (asked : Bool) : Exit :=
  if ¬ Current now w.chain then .failure .chainMismatch
  else if asked = true ∧ ¬ Current now w.encryption then .failure .encryptionMismatch
  else .success

/-- What the next run leaves. -/
def after (w : Written) (now : Int) (asked : Bool) : Written :=
  if w.exit now asked = .success then ⟨some now, if asked then some now else w.encryption⟩ else w

end Written

/-! ## Runs over one PKI -/

/-- The files of one PKI. -/
structure DemoPaths where
  rootPem : CString
  rootDer : CString
  serverPem : CString
  serverDer : CString
  encryptionPem : CString
  encryptionDer : CString
  keyRoot : CString

namespace DemoPaths

def args (P : DemoPaths) (asked : Bool) : DemoArgs where
  rootPem := P.rootPem
  rootDer := P.rootDer
  serverPem := P.serverPem
  serverDer := P.serverDer
  encryption := if asked then some (P.encryptionPem, P.encryptionDer) else none
  keyRoot := P.keyRoot

/-- There is a key root, and no path of a PEM file is used twice. -/
structure Apart (P : DemoPaths) : Prop where
  keyRoot : P.keyRoot.val ≠ []
  root : P.rootPem ≠ P.serverPem ∧ P.rootPem ≠ P.encryptionPem ∧ P.rootPem ≠ P.rootDer ∧
    P.rootPem ≠ P.serverDer ∧ P.rootPem ≠ P.encryptionDer
  server : P.serverPem ≠ P.encryptionPem ∧ P.serverPem ≠ P.rootDer ∧ P.serverPem ≠ P.serverDer ∧
    P.serverPem ≠ P.encryptionDer
  encryption : P.encryptionPem ≠ P.rootDer ∧ P.encryptionPem ≠ P.serverDer ∧
    P.encryptionPem ≠ P.encryptionDer

end DemoPaths

section

variable {PKey : Type} (D : DemoLib PKey)

def pkiStep (now : Int) : Sem (demoSig PKey) Disk
  | .compositeKeyGenerate, s, r, s' =>
    (∃ keys, r = some keys ∧ HybridKeyPair D.toCrypto keys.1 keys.2) ∧ s' = s
  | .sm2GenerateKeypair, s, r, s' =>
    (∃ key, r = some key ∧ D.privateCheck key = true ∧ ∃ o, sm2Octets D.toCrypto key = some o) ∧
      s' = s
  | .check ok, s, r, s' => r = ok ∧ s' = s
  | op, s, r, s' => demoStep D now op s r s'

/-- OpenSSL is correct, and PEM files hold what was written. -/
structure DemoCorrect : Prop where
  store : StoreCorrect D.toStoreCrypto
  asn1 : Asn1Correct D.toIssueLib
  conf : ConfCorrect D.toIssueLib
  imports : Sm2Imports D.toCrypto
  spki : Sm2SpkiCorrect D.toIssueLib
  /-- `PEM_read_X509` reads from the file what `d2i_X509` reads from the encoding. -/
  pem : ∀ {c der c' n pem}, i2dCompositeCertificate c = some der →
    D.d2iX509 der = some (c', n) → D.pemWriteX509 c = some pem → D.pemReadX509 pem = some c'

/-- Nothing of the PKI is there: its stores can be used, and no file is in them. -/
structure Fresh (s : Disk) : Prop where
  keyRoot : s.keyRoot ≠ .other
  savable : ∀ w, Savable (s.store w)
  noEntry : s.noEntry .serverEncryption = true

/-- Any number of runs of the tool, beside the abstract machine. -/
inductive PkiRuns (P : DemoPaths) (passphrase : CString) (s : Disk) (w : Written) :
    Disk → Written → Prop where
  | refl : PkiRuns P passphrase s w s w
  | run {s' s'' : Disk} {w' : Written} {now : Int} {argv : List CString} {asked : Bool}
      {exit : Exit} : PkiRuns P passphrase s w s' w' → readArgv argv = some (P.args asked) →
      Run (pkiStep D now) (main D now argv (some passphrase)) s' exit s'' →
      PkiRuns P passphrase s w s'' (w'.after now asked)

/-- A disk that was fresh, after some runs. -/
def Kept (P : DemoPaths) (passphrase : CString) (s : Disk) (w : Written) : Prop :=
  ∃ s0, Fresh s0 ∧ PkiRuns D P passphrase s0 ⟨none, none⟩ s w

end

section

variable {PKey : Type} {D : DemoLib PKey} {now : Int} {s s' : Disk} {p : CString}

theorem run_pki {α : Type} {op : DemoOp PKey} {f : op.Resp → Demo PKey α} {a : α} :
    Run (pkiStep D now) (demo op >>= f) s a s' ↔
      ∃ r s1, pkiStep D now op s r s1 ∧ Run (pkiStep D now) (f r) s1 a s' := run_call

theorem inStore_pki {α : Type} {w : KeyDirectory} {q : Prog (sig KeyFile) α} {a : α} :
    Run (pkiStep D now) (inStore w q) s a s' ↔
      ∃ d', Run (stepNoFailure ()) q (s.store w) a d' ∧ s' = (storeLens w).set s d' := by
  unfold inStore
  refine run_embed _ _ (storeLens w) ?_ ?_
  · exact fun _ _ _ _ => Iff.rfl
  · exact fun _ r => ⟨r, rfl⟩

theorem status_pki {α : Type} {w : KeyDirectory} {f : HybridKeyStoreStatus → Demo PKey α} {a : α}
    (h : Run (pkiStep D now) (inStore w hybridKeyStoreStatus >>= f) s a s') :
    Run (pkiStep D now) (f (statusOf (s.store w))) s a s' := by
  obtain ⟨r, s1, hstatus, h⟩ := run_bind.mp h
  obtain ⟨d', hrun, rfl⟩ := inStore_pki.mp hstatus
  rw [← Prog.bind_ret hybridKeyStoreStatus] at hrun
  cases hybridKeyStoreStatus_noFailure hrun
  rw [← storeLens_get, (storeLens w).set_get] at h
  exact h

/-! ## The key root -/

theorem ensureKeyRoot_pki {path : CString} {r : Bool} (hpath : path.val ≠ [])
    (hroot : s.keyRoot ≠ .other) (h : Run (pkiStep D now) (ensureKeyRoot path) s r s') :
    r = true ∧ s' = { s with keyRoot := .privateDirectory } := by
  unfold ensureKeyRoot at h
  rw [if_neg hpath] at h
  obtain ⟨_, _, ⟨rfl, hs⟩, h⟩ := run_pki.mp h
  cases hs
  cases hkind : s.keyRoot with
  | missing =>
    rw [hkind, if_pos rfl] at h
    obtain ⟨_, s2, ⟨rfl, _, rfl⟩, h⟩ := run_pki.mp h
    rw [if_pos rfl] at h
    obtain ⟨_, _, ⟨rfl, rfl⟩, h⟩ := run_pki.mp h
    cases h
    exact ⟨rfl, rfl⟩
  | privateDirectory =>
    rw [hkind, if_neg DirKind.noConfusion] at h
    cases h
    refine ⟨rfl, ?_⟩
    rw [← hkind]
  | other => exact (hroot hkind).elim

/-! ## A stored pair -/

/-- The store holds the pair under the passphrase. -/
structure HoldsPair (D : DemoLib PKey) (p : CString) (keys : KeyPair PKey)
    (d : Dir Unit KeyFile) : Prop where
  genuine : HybridKeyPair D.toCrypto keys.1 keys.2
  saved : ∃ args, Saved D.toStoreCrypto args d ∧ args.privateKey = keys.1 ∧
    args.publicKey = keys.2 ∧ args.passphrase = p

/-- The pair as it is loaded: the one SM2 key stands on both sides. -/
def reloaded (keys : KeyPair PKey) : KeyPair PKey :=
  (keys.1, ⟨keys.1.sm2PrivateKey, keys.2.dilithiumPublicKey⟩)

theorem reloaded_same {keys : KeyPair PKey} (h : HybridKeyPair D.toCrypto keys.1 keys.2) :
    SameComponents D.toCrypto (reloaded keys).2 keys.2 := by
  obtain ⟨s, q, o, hs, hq, _, hso, hqo⟩ := h.sm2
  exact ⟨rfl, s, q, o, hs, hq, hso, hqo⟩

theorem HoldsPair.status {keys : KeyPair PKey} {d : Dir Unit KeyFile} (h : HoldsPair D p keys d) :
    statusOf d = .complete := by
  obtain ⟨args, hsaved, _⟩ := h.saved
  obtain ⟨f, hf, _⟩ := hsaved.sm2
  obtain ⟨g, hg, _⟩ := hsaved.dilithium
  refine statusOf_complete.mpr ?_
  intro name
  cases name with
  | sm2PrivatePem => exact accessible_of_fileAt hf
  | dilithium2PrivateEnc => exact accessible_of_fileAt hg

theorem HoldsPair.load {keys : KeyPair PKey} {d d' : Dir Unit KeyFile} (hD : DemoCorrect D)
    (hl : p.strlen ≤ pemBufsize) (h : HoldsPair D p keys d) {rnd : Bytes}
    {r : Option (KeyPair PKey)} (hload : hybridKeyStoreLoad D.toStoreCrypto d p rnd = (d', r)) :
    d' = d ∧ r = some (reloaded keys) := by
  obtain ⟨args, hsaved, hpriv, hpub, hpass⟩ := h.saved
  obtain ⟨s, q, o, hs, _, hcheck, hso, _⟩ := h.genuine.sm2
  obtain ⟨f, hf, hsm2⟩ := hsaved.sm2
  obtain ⟨g, hg, hdil⟩ := hsaved.dilithium
  have hkind : d.kind ≠ .missing := by
    rw [hsaved.directory]
    nofun
  have hother : d.kind ≠ .other := by
    rw [hsaved.directory]
    nofun
  have hvalid := hsaved.passphrase
  rw [hpass] at hvalid
  have hs' : args.privateKey.sm2PrivateKey = some s := by
    rw [hpriv]
    exact hs
  have hsnd := load_saved hD.store hother hf hg hsm2 hdil hpass hpass hvalid hl hs' hcheck hso
    hsaved.selfTest rnd
  refine ⟨hybridKeyStoreLoad_fst hkind hload, ?_⟩
  rw [hload, hpriv, hpub, ← hs] at hsnd
  exact hsnd

theorem saveIn_pki {w : KeyDirectory} {keys : KeyPair PKey} {r : Bool}
    (hkeys : HybridKeyPair D.toCrypto keys.1 keys.2) (hpass : passphraseValid p = true)
    (hfree : Savable (s.store w)) (h : Run (pkiStep D now) (saveIn D w keys p) s r s') :
    r = true ∧ ∃ d', HoldsPair D p keys d' ∧ s' = (storeLens w).set s d' := by
  obtain ⟨args, _, ⟨⟨hpriv, hpub, hp, hcrypto⟩, hs⟩, hsave⟩ := run_pki.mp h
  cases hs
  obtain ⟨d', hrun, rfl⟩ := inStore_pki.mp hsave
  have hmissing : statusOf (s.store w) = .missing := by
    refine statusOf_missing.mpr ?_
    intro name
    rw [Dir.accessible, hfree.2]
  rw [← hp] at hpass
  rcases hybridKeyStoreSave_noFailure (fun _ => hfree.2) hcrypto hpass hmissing hrun with
    ⟨rfl, _⟩ | ⟨_, hno, _⟩
  · exact ⟨rfl, d', ⟨hkeys, args, saved_of_run (run_of_noFailure hrun), hpriv, hpub, hp⟩, rfl⟩
  · exact (hno hfree).elim

theorem load_pki {α : Type} {w : KeyDirectory} {keys : KeyPair PKey}
    {f : Option (KeyPair PKey) → Demo PKey α} {a : α} (hD : DemoCorrect D)
    (hl : p.strlen ≤ pemBufsize) (hstore : HoldsPair D p keys (s.store w))
    (h : Run (pkiStep D now) (demo (.load w p) >>= f) s a s') :
    Run (pkiStep D now) (f (some (reloaded keys))) s a s' := by
  obtain ⟨r, _, ⟨rnd, d', hload, rfl⟩, h⟩ := run_pki.mp h
  obtain ⟨rfl, rfl⟩ := hstore.load hD hl hload
  rw [← storeLens_get, (storeLens w).set_get] at h
  exact h

/-- Both pairs are generated and stored. -/
theorem generateKeys_pki {r : Except Refusal (DemoKeys PKey)} (hpass : passphraseValid p = true)
    (hca : Savable (s.store .ca)) (hserver : Savable (s.store .server))
    (h : Run (pkiStep D now) (generateKeys D p) s r s') :
    ∃ ca server d d', r = .ok ⟨ca, server, none⟩ ∧ HoldsPair D p ca d ∧ HoldsPair D p server d' ∧
      s' = (storeLens .server).set ((storeLens .ca).set s d) d' := by
  obtain ⟨_, _, ⟨⟨ca, rfl, hcapair⟩, hs⟩, h⟩ := run_pki.mp h
  cases hs
  obtain ⟨_, _, ⟨⟨server, rfl, hserverpair⟩, hs⟩, h⟩ := run_pki.mp h
  cases hs
  obtain ⟨_, s1, hsave, h⟩ := run_bind.mp h
  obtain ⟨rfl, d, hd, rfl⟩ := saveIn_pki hcapair hpass hca hsave
  rw [if_pos rfl] at h
  obtain ⟨_, s2, hsave, h⟩ := run_bind.mp h
  have hserver' : Savable (((storeLens .ca).set s d).store .server) := by
    rw [storeLens_ne (by decide)]
    exact hserver
  obtain ⟨rfl, d', hd', rfl⟩ := saveIn_pki hserverpair hpass hserver' hsave
  cases h
  exact ⟨ca, server, d, d', rfl, hd, hd', rfl⟩

/-! ## A stored encryption key -/

/-- The store holds the SM2 key under the passphrase. -/
structure HoldsSm2 (D : DemoLib PKey) (p : CString) (key : PKey) (d : Dir Unit KeyFile) :
    Prop where
  valid : D.privateCheck key = true ∧ ∃ o, sm2Octets D.toCrypto key = some o
  directory : d.kind = .privateDirectory
  file : ∃ f rnd, d.fileAt .sm2PrivatePem = some f ∧ f.isPrivate = true ∧
    D.pemWritePkcs8PrivateKey key p.val rnd = some f.data

/-- What a save of the SM2 key alone leaves. -/
theorem holdsSm2_of_run {key : PKey} {d d' : Dir Unit KeyFile} {rnd : Bytes}
    (hkey : D.privateCheck key = true ∧ ∃ o, sm2Octets D.toCrypto key = some o)
    (hkind : d.kind = .privateDirectory) (hfree : d.entry .dilithium2PrivateEnc = none)
    (h : Run (step ()) (saveSm2PrivateKey D.toStoreCrypto (some key) p rnd) d true d') :
    HoldsSm2 D p key d' := by
  -- the arguments of a save whose SM2 part is this one
  let args : SaveArgs PKey := ⟨⟨some key, .zero _⟩, ⟨some key, .zero _⟩, p, [], rnd, none, none⟩
  rcases saveSm2PrivateKey_run h with ⟨_, n, hc⟩ | ⟨hr, _⟩
  · have hfree' : d'.entry .dilithium2PrivateEnc = none := by
      rw [hc.others (by decide), hfree]
    have hhalf : HalfWay D.toStoreCrypto args d' := halfWay_of_run hkind h hfree'
    obtain ⟨m, f, hm, hf, s, hs, hpem, hpriv⟩ := hhalf.sm2
    cases hs
    exact ⟨hkey, hhalf.directory, f, rnd, (Dir.fileAt_of_entry hm).trans hf, hpriv, hpem⟩
  · cases hr

theorem HoldsSm2.status {key : PKey} {d : Dir Unit KeyFile} (h : HoldsSm2 D p key d)
    (noEntry : Bool) : hybridSm2KeyStoreStatus noEntry d = .complete := by
  obtain ⟨f, rnd, hf, hpriv, _⟩ := h.file
  have hsecure : secureRegularFile d .sm2PrivatePem none = true :=
    secureRegularFile_iff.mpr ⟨f, hf, hpriv, nofun⟩
  simp [hybridSm2KeyStoreStatus, accessible_of_fileAt hf, h.directory, hsecure]

theorem HoldsSm2.load {key : PKey} {d : Dir Unit KeyFile} (hD : DemoCorrect D)
    (hpass : passphraseValid p = true) (hl : p.strlen ≤ pemBufsize) (h : HoldsSm2 D p key d)
    (noEntry : Bool) : hybridSm2KeyStoreLoad D noEntry d p = some key := by
  obtain ⟨hcheck, o, ho⟩ := h.valid
  obtain ⟨f, rnd, hf, hpriv, hpem⟩ := h.file
  have hread := hD.store.pemRead _ _ _ _ hpem
  rw [← passwordCallback_of_le hl] at hread
  rw [hybridSm2KeyStoreLoad, if_pos ⟨h.status noEntry, hpass⟩]
  exact loadSm2PrivateKey_some_iff.mpr
    ⟨hpass, f, hf, hpriv, hread, (sm2Octets_some ho).1, hcheck⟩

/-- The encryption store of a fresh disk. -/
structure FreshEncryption (s : Disk) : Prop where
  savable : Savable (s.store .serverEncryption)
  noEntry : s.noEntry .serverEncryption = true

theorem FreshEncryption.status (h : FreshEncryption s) :
    hybridSm2KeyStoreStatus (s.noEntry .serverEncryption) (s.store .serverEncryption) =
      .missing := by
  simp [hybridSm2KeyStoreStatus, Dir.accessible, h.savable.2, h.noEntry]

theorem saveSm2_pki {key : PKey} {r : Bool}
    (hkey : D.privateCheck key = true ∧ ∃ o, sm2Octets D.toCrypto key = some o)
    (hpass : passphraseValid p = true) (hfresh : FreshEncryption s)
    (h : Run (pkiStep D now) (hybridSm2KeyStoreSave D .serverEncryption key p) s r s') :
    r = true ∧ ∃ d', HoldsSm2 D p key d' ∧ s' = (storeLens .serverEncryption).set s d' := by
  obtain ⟨o, ho⟩ := hkey.2
  unfold hybridSm2KeyStoreSave at h
  rw [hpass, (sm2Octets_some ho).1, Bool.and_self, if_pos rfl] at h
  obtain ⟨_, _, ⟨rfl, hs⟩, h⟩ := run_pki.mp h
  cases hs
  rw [if_pos hfresh.status] at h
  obtain ⟨directoryOk, s2, hdir, h⟩ := run_bind.mp h
  obtain ⟨d2, hdir', rfl⟩ := inStore_pki.mp hdir
  rw [← Prog.bind_ret ensurePrivateDirectory] at hdir'
  rcases ensurePrivateDirectory_noFailure hdir' with ⟨hkind, _⟩ | ⟨hkind, hret⟩
  · exact (hfresh.savable.1 hkind).elim
  cases hret
  rw [if_pos rfl] at h
  obtain ⟨rnd, s3, ⟨⟨pem, hpem⟩, hs⟩, h⟩ := run_pki.mp h
  cases hs
  obtain ⟨d3, hsave, rfl⟩ := inStore_pki.mp h
  rw [storeLens_self] at hsave
  rw [(storeLens _).set_set]
  have hfree : ∀ name, (if (s.store .serverEncryption).kind = .missing then
      (s.store .serverEncryption).setKind .privateDirectory
      else s.store .serverEncryption).entry name = none := by
    intro name
    split <;> exact hfresh.savable.2 name
  cases saveSm2PrivateKey_noFailure hpass hpem (hfree _) hsave
  have hstart : (if (s.store .serverEncryption).kind = .missing then
      (s.store .serverEncryption).setKind .privateDirectory
      else s.store .serverEncryption).kind = .privateDirectory := by
    cases hk : (s.store .serverEncryption).kind with
    | missing => rfl
    | privateDirectory => exact hk
    | other => exact (hkind hk).elim
  exact ⟨rfl, d3, holdsSm2_of_run hkey hstart (hfree _) (run_of_noFailure hsave), rfl⟩

end

end HybridPqc
