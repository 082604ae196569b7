import HybridPqc.Fs.NoFailure
import HybridPqc.Store.Container

/-!
# Store.KeyStore

`hybrid_key_store.c`: saving and loading a hybrid key pair.

Saving is a program of system calls (`Conc.Prog` over `Fs.sig`), so that it can be interleaved, cut
off and made to fail at any call. Loading runs alone and its reads succeed: it is a function of the
directory. The randomness a call draws is part of its arguments.

Arguments are non-`NULL`; the directory has a non-empty path whose file names fit in memory.
-/

namespace HybridPqc

open Conc Fs

/-- The file names of a key store: `HYBRID_SM2_PRIVATE_KEY_FILE` and
`HYBRID_DILITHIUM_PRIVATE_KEY_FILE`. -/
inductive KeyFile where
  | sm2PrivatePem
  | dilithium2PrivateEnc
  deriving DecidableEq, Repr

inductive HybridKeyStoreStatus where
  | missing
  | complete
  | incomplete
  deriving DecidableEq, Repr

/-- The arguments of one `hybrid_key_store_save` call and what it draws from the generators. -/
structure SaveArgs (PKey : Type) where
  privateKey : HybridPrivateKey PKey
  publicKey : HybridPublicKey PKey
  passphrase : CString
  selfTestRnd : Bytes
  pemRnd : Bytes
  salt : Option (Block dilithiumStoreSaltBytes)
  iv : Option (Block dilithiumStoreIvBytes)

def pemBufsize : Nat := 1024

/-- The password that `password_callback` leaves in a buffer of `size` bytes; it returns the
length. -/
def passwordCallback (size : Nat) (data : CString) : Bytes :=
  if size < data.strlen then [] else data.val

/-- The bytes of `challenge`, without the terminating NUL. -/
def selfTestChallenge : Bytes := Bytes.ofAscii "hybrid-key-store-self-test"

section

variable {PKey : Type} (K : StoreCrypto PKey)

def keypairSelfTest (privateKey : HybridPrivateKey PKey) (publicKey : HybridPublicKey PKey)
    (rnd : Bytes) : Bool :=
  match compositeSign K.toCrypto privateKey (.buf selfTestChallenge) (.null 0) rnd with
  | none => false
  | some signature =>
    compositeVerify K.toCrypto publicKey (.buf selfTestChallenge) (.null 0) signature

/-! ## Saving -/

def ensurePrivateDirectory : Prog (sig KeyFile) Bool := do
  let kind ← lstatDir
  if kind = .missing then
    let made ← mkdir
    if made = true then
      let kind ← lstatDir
      return decide (kind = .privateDirectory)
    else return false
  else return decide (kind = .privateDirectory)

def hybridKeyStoreStatus : Prog (sig KeyFile) HybridKeyStoreStatus := do
  let sm2Exists ← access .sm2PrivatePem
  let dilithiumExists ← access .dilithium2PrivateEnc
  return match sm2Exists, dilithiumExists with
    | false, false => .missing
    | true, true => .complete
    | _, _ => .incomplete

/-- `write_all`: `none` when everything was written, otherwise what was not. The same loop stands
for a stream that is filled and flushed. -/
def writeAll (ino : Nat) (data : Bytes) : Prog (sig KeyFile) (Option Bytes) :=
  if _hd : data = [] then return none
  else do
    let written ← write ino data
    match written with
    | none => return some data
    | some written =>
      if _hw : 0 < written then writeAll ino (data.drop written) else return some data
termination_by data.length
decreasing_by
  rw [List.length_drop]
  have := List.length_pos_iff.mpr _hd
  omega

@[simp] theorem writeAll_nil (ino : Nat) : writeAll ino [] = .ret none := by
  unfold writeAll
  rfl

/-- One `write`; the loop ends where it writes nothing. The induction that goes with it is
`writeAll.induct`. -/
theorem writeAll_step {ino : Nat} {data : Bytes} (hne : data ≠ []) :
    writeAll ino data = .call (.write ino data) fun written =>
      written.elim (.ret (some data)) fun k =>
        if 0 < k then writeAll ino (data.drop k) else .ret (some data) := by
  conv_lhs => unfold writeAll
  rw [dif_neg hne, write_bind]
  refine congrArg _ (funext fun written => ?_)
  cases written with
  | none => rfl
  | some k => rfl

/-- `unlink(path)` on the way to `return 0`. -/
def unlinkAndFail (name : KeyFile) : Prog (sig KeyFile) Bool := do
  let _ ← unlink name
  return false

/-- `fclose(output)` and `unlink(path)` on the way to `return 0`; `buffered` is still in the
stream. -/
def closeAndFail (ino : Nat) (buffered : Bytes) (name : KeyFile) : Prog (sig KeyFile) Bool := do
  let _ ← close ino buffered
  unlinkAndFail name

/-- `fsync` and `close` of a file that is complete, or its removal. -/
def syncAndClose (ino : Nat) (name : KeyFile) : Prog (sig KeyFile) Bool := do
  let synced ← fsync ino
  if synced = true then
    let closed ← close ino []
    if closed = true then return true else unlinkAndFail name
  else closeAndFail ino [] name

def saveSm2PrivateKey (privateKey : Option PKey) (passphrase : CString) (rnd : Bytes) :
    Prog (sig KeyFile) Bool :=
  match privateKey with
  | none => return false
  | some privateKey =>
    if passphraseValid passphrase then do
      let descriptor ← createExcl .sm2PrivatePem
      match descriptor with
      | none => return false
      | some ino =>
        let opened ← fdopen ino
        if opened = true then
          match K.pemWritePkcs8PrivateKey privateKey passphrase.val rnd with
          | none => closeAndFail ino [] .sm2PrivatePem
          | some pem =>
            let rest ← writeAll ino pem
            match rest with
            | some rest => closeAndFail ino rest .sm2PrivatePem
            | none => syncAndClose ino .sm2PrivatePem
        else closeAndFail ino [] .sm2PrivatePem
    else return false

def saveDilithiumPrivateKey (args : SaveArgs PKey) : Prog (sig KeyFile) Bool :=
  match encryptDilithiumPayload K args.privateKey args.publicKey args.passphrase args.salt
      args.iv with
  | none => unlinkAndFail .dilithium2PrivateEnc
  | some fileData => do
    let descriptor ← createExcl .dilithium2PrivateEnc
    match descriptor with
    | none => unlinkAndFail .dilithium2PrivateEnc
    | some ino =>
      let rest ← writeAll ino fileData
      match rest with
      | some _ => closeAndFail ino [] .dilithium2PrivateEnc
      | none => syncAndClose ino .dilithium2PrivateEnc

/-- `hybrid_key_store_save` after its checks: the two files, and the clean-up under `done`. -/
def saveKeyFiles (args : SaveArgs PKey) : Prog (sig KeyFile) Bool := do
  let sm2Saved ← saveSm2PrivateKey K args.privateKey.sm2PrivateKey args.passphrase args.pemRnd
  if sm2Saved then
    let dilithiumSaved ← saveDilithiumPrivateKey K args
    if dilithiumSaved then return true
    else
      let _ ← unlink .sm2PrivatePem
      unlinkAndFail .dilithium2PrivateEnc
  else unlinkAndFail .dilithium2PrivateEnc

def hybridKeyStoreSave (args : SaveArgs PKey) : Prog (sig KeyFile) Bool :=
  if passphraseValid args.passphrase &&
      keypairSelfTest K args.privateKey args.publicKey args.selfTestRnd then do
    let directoryOk ← ensurePrivateDirectory
    if directoryOk then
      let status ← hybridKeyStoreStatus
      if status = .missing then saveKeyFiles K args else return false
    else return false
  else return false

/-! ## Loading -/

section

variable {ι : Type}

/-- `secure_regular_file`; `none` for `expected_size < 0`. -/
def secureRegularFile (d : Dir ι KeyFile) (name : KeyFile) (expectedSize : Option Nat) : Bool :=
  match d.fileAt name with
  | none => false
  | some f => f.isPrivate && (match expectedSize with
    | none => true
    | some n => f.data.length == n)

def loadSm2PrivateKey (d : Dir ι KeyFile) (passphrase : CString) : Option PKey :=
  if secureRegularFile d .sm2PrivatePem none && passphraseValid passphrase then
    match d.fileAt .sm2PrivatePem with
    | none => none
    | some input =>
      match K.pemReadPrivateKey input.data (passwordCallback pemBufsize passphrase) with
      | none => none
      | some privateKey =>
        if K.isSm2 privateKey && K.privateCheck privateKey then some privateKey else none
  else none

def loadDilithiumPrivateKey (d : Dir ι KeyFile) (passphrase : CString) :
    Option (Block dilithiumPublicKeyBytes × Block dilithiumSecretKeyBytes) :=
  if secureRegularFile d .dilithium2PrivateEnc (some dilithiumStoreFileBytes) then
    match d.fileAt .dilithium2PrivateEnc with
    | none => none
    | some input => decryptDilithiumPayload K input.data passphrase
  else none

/-- `hybrid_key_store_load`: the directory afterwards and the loaded pair. A missing directory is
made before the status is read. -/
def hybridKeyStoreLoad (d : Dir ι KeyFile) (passphrase : CString) (rnd : Bytes) :
    Dir ι KeyFile × Option (HybridPrivateKey PKey × HybridPublicKey PKey) :=
  if passphraseValid passphrase then
    let d := if d.kind = .missing then d.setKind .privateDirectory else d
    if d.kind = .privateDirectory ∧ d.accessible .sm2PrivatePem ∧
        d.accessible .dilithium2PrivateEnc then
      match loadSm2PrivateKey K d passphrase with
      | none => (d, none)
      | some sm2PrivateKey =>
        match loadDilithiumPrivateKey K d passphrase with
        | none => (d, none)
        | some (dilithiumPublicKey, dilithiumSecretKey) =>
          let loadedPrivate : HybridPrivateKey PKey := ⟨some sm2PrivateKey, dilithiumSecretKey⟩
          let loadedPublic : HybridPublicKey PKey := ⟨some sm2PrivateKey, dilithiumPublicKey⟩
          if keypairSelfTest K loadedPrivate loadedPublic rnd then
            (d, some (loadedPrivate, loadedPublic))
          else (d, none)
    else (d, none)
  else (d, none)

end

end

/-! ## A save that nothing stops -/

section

variable {PKey ι : Type} {K : StoreCrypto PKey} {i : ι}

theorem writeAll_run (n : Nat) (data : Bytes) (d : Dir ι KeyFile) :
    ∃ d', Run (stepNoFailure i) (writeAll n data) d none d' ∧ d'.entry = d.entry ∧
      d'.kind = d.kind := by
  by_cases hne : data = []
  · rw [hne, writeAll_nil]
    exact ⟨d, .ret, rfl, rfl⟩
  · have hpos : 0 < data.length := List.length_pos_iff.mpr hne
    refine ⟨d.append n data, ?_, rfl, rfl⟩
    rw [writeAll_step hne]
    refine .call (r := some data.length) ⟨Or.inr ⟨data.length, hpos, Nat.le_refl _, rfl,
      by rw [List.take_length]⟩, nofun⟩ ?_
    simp only [Option.elim_some, if_pos hpos, List.drop_length, writeAll_nil]
    exact .ret

theorem syncAndClose_run (n : Nat) (name : KeyFile) (d : Dir ι KeyFile) :
    ∃ d', Run (stepNoFailure i) (syncAndClose n name) d true d' ∧ d'.entry = d.entry ∧
      d'.kind = d.kind := by
  refine ⟨d.append n [], ?_, rfl, rfl⟩
  simp only [syncAndClose, fsync_bind, close_bind, Prog.pure_eq]
  have hsync : stepNoFailure i (.fsync n) d true d := ⟨rfl, rfl⟩
  have hclose : stepNoFailure i (.close n []) d true (d.append n []) :=
    ⟨⟨0, Nat.zero_le _, fun _ => rfl, rfl⟩, rfl⟩
  exact .call hsync (.call hclose .ret)

/-- When no operation fails, the SM2 file is saved. -/
theorem saveSm2PrivateKey_saves {sm2 : PKey} {passphrase : CString} {rnd pem : Bytes}
    {d : Dir ι KeyFile} (hpass : passphraseValid passphrase = true)
    (hpem : K.pemWritePkcs8PrivateKey sm2 passphrase.val rnd = some pem)
    (hd : ∀ name, d.entry name = none) :
    ∃ d', Run (stepNoFailure i) (saveSm2PrivateKey K (some sm2) passphrase rnd) d true d' ∧
      d'.kind = d.kind ∧ (∃ n, d'.entry .sm2PrivatePem = some (.file n)) ∧
      d'.entry .dilithium2PrivateEnc = none := by
  obtain ⟨d1, hw1, he1, hk1⟩ := writeAll_run (i := i) d.next pem (d.create i .sm2PrivatePem)
  obtain ⟨d2, hc1, he2, hk2⟩ := syncAndClose_run (i := i) d.next .sm2PrivatePem d1
  have hentry : d2.entry = (d.create i .sm2PrivatePem).entry := he2.trans he1
  refine ⟨d2, ?_, hk2.trans hk1, ⟨d.next, ?_⟩, ?_⟩
  · simp only [saveSm2PrivateKey, hpass, if_true, createExcl_bind, fdopen_bind]
    have hopen : stepNoFailure i (.fdopen d.next) (d.create i .sm2PrivatePem) true
        (d.create i .sm2PrivatePem) := ⟨rfl, rfl⟩
    refine .call (r := some d.next) ⟨Or.inr ⟨rfl, hd _, rfl⟩, nofun⟩ (.call hopen ?_)
    simp only [hpem, if_true]
    exact run_bind.mpr ⟨none, d1, hw1, hc1⟩
  · rw [hentry, Dir.create_entry_self]
  · rw [hentry, Dir.create_entry_ne (by decide), hd]

/-- When no operation fails, the two files are saved. -/
theorem saveKeyFiles_run (args : SaveArgs PKey) {sm2 : PKey} {pem fileData : Bytes}
    {d : Dir ι KeyFile} (hsm2 : args.privateKey.sm2PrivateKey = some sm2)
    (hpass : passphraseValid args.passphrase = true)
    (hpem : K.pemWritePkcs8PrivateKey sm2 args.passphrase.val args.pemRnd = some pem)
    (hfile : encryptDilithiumPayload K args.privateKey args.publicKey args.passphrase args.salt
      args.iv = some fileData)
    (hd : ∀ name, d.entry name = none) :
    ∃ d', Run (stepNoFailure i) (saveKeyFiles K args) d true d' := by
  obtain ⟨d2, hsaves, _, _, hnone⟩ := saveSm2PrivateKey_saves (i := i) hpass hpem hd
  obtain ⟨d3, hw2, _⟩ := writeAll_run (i := i) d2.next fileData (d2.create i .dilithium2PrivateEnc)
  obtain ⟨d4, hc2, _⟩ := syncAndClose_run (i := i) d2.next .dilithium2PrivateEnc d3
  refine ⟨d4, ?_⟩
  simp only [saveKeyFiles, Prog.pure_eq, hsm2]
  refine run_bind.mpr ⟨true, d2, hsaves, ?_⟩
  simp only [if_true]
  refine run_bind.mpr ⟨true, d4, ?_, .ret⟩
  simp only [saveDilithiumPrivateKey, hfile, createExcl_bind]
  refine .call (r := some d2.next) ⟨Or.inr ⟨rfl, hnone, rfl⟩, nofun⟩ ?_
  exact run_bind.mpr ⟨none, d3, hw2, hc2⟩

/-- When `open` of the SM2 file fails, as on a taken name, the call fails and still unlinks the
other one. -/
theorem saveKeyFiles_taken (args : SaveArgs PKey) {sm2 : PKey} (d : Dir ι KeyFile)
    (hsm2 : args.privateKey.sm2PrivateKey = some sm2)
    (hpass : passphraseValid args.passphrase = true) :
    Run (step i) (saveKeyFiles K args) d false (d.unlink .dilithium2PrivateEnc) := by
  simp only [saveKeyFiles, Prog.pure_eq]
  refine run_bind.mpr ⟨false, d, ?_, ?_⟩
  · simp only [saveSm2PrivateKey, hsm2, hpass, if_true, createExcl_bind]
    exact .call (r := none) (Or.inl ⟨rfl, rfl⟩) .ret
  · exact .call (r := ()) rfl .ret

theorem ensurePrivateDirectory_run {d : Dir ι KeyFile} (hkind : d.kind = .privateDirectory) :
    Run (stepNoFailure i) ensurePrivateDirectory d true d := by
  simp only [ensurePrivateDirectory, lstatDir_bind]
  exact .call (r := DirKind.privateDirectory) ⟨⟨hkind.symm, rfl⟩, trivial⟩ .ret

theorem hybridKeyStoreStatus_run {d : Dir ι KeyFile} (hnone : ∀ name, d.accessible name = false) :
    Run (stepNoFailure i) hybridKeyStoreStatus d .missing d := by
  simp only [hybridKeyStoreStatus, access_bind]
  exact .call (r := false) ⟨⟨(hnone _).symm, rfl⟩, trivial⟩
    (.call (r := false) ⟨⟨(hnone _).symm, rfl⟩, trivial⟩ .ret)

/-- In a private directory without key files, a call gets to its two files. -/
theorem hybridKeyStoreSave_run {sem : Sem (sig KeyFile) (Dir ι KeyFile)}
    (hsem : ∀ op d r d', stepNoFailure i op d r d' → sem op d r d')
    {args : SaveArgs PKey} {d d' : Dir ι KeyFile} {r : Bool}
    (hpass : passphraseValid args.passphrase = true)
    (htest : keypairSelfTest K args.privateKey args.publicKey args.selfTestRnd = true)
    (hkind : d.kind = .privateDirectory) (hnone : ∀ name, d.accessible name = false)
    (h : Run sem (saveKeyFiles K args) d r d') : Run sem (hybridKeyStoreSave K args) d r d' := by
  simp only [hybridKeyStoreSave, hpass, htest, Bool.and_self, if_true]
  refine run_bind.mpr ⟨true, d, (ensurePrivateDirectory_run hkind).mono hsem, ?_⟩
  exact run_bind.mpr ⟨.missing, d, (hybridKeyStoreStatus_run hnone).mono hsem, h⟩

variable [DecidableEq ι]

/-- The same among other calls. -/
theorem reachable_saveKeyFiles {sem : ι → Sem (sig KeyFile) (Dir ι KeyFile)}
    {args : SaveArgs PKey} {c : Config (sig KeyFile) ι (Dir ι KeyFile) Bool}
    (hc : c.threads i = hybridKeyStoreSave K args) (hpass : passphraseValid args.passphrase = true)
    (htest : keypairSelfTest K args.privateKey args.publicKey args.selfTestRnd = true)
    (hdir : Run (sem i) ensurePrivateDirectory c.state true c.state)
    (hstatus : Run (sem i) hybridKeyStoreStatus c.state .missing c.state) :
    Reachable sem c ⟨c.state, Function.update c.threads i (saveKeyFiles K args)⟩ := by
  simp only [hybridKeyStoreSave, hpass, htest, Bool.and_self, if_true] at hc
  let next (status : HybridKeyStoreStatus) : Prog (sig KeyFile) Bool :=
    if status = .missing then saveKeyFiles K args else .ret false
  have h1 := reachable_of_run hc hdir
  have h2 : Reachable sem ⟨c.state, Function.update c.threads i (hybridKeyStoreStatus >>= next)⟩
      ⟨c.state, Function.update (Function.update c.threads i _) i (next .missing)⟩ :=
    reachable_of_run (f := next) (Function.update_self ..) hstatus
  rw [Function.update_idem] at h2
  exact h1.trans h2

end

end HybridPqc
