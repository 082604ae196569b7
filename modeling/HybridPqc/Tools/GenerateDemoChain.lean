import HybridPqc.Conc.Embed
import HybridPqc.Store.NoFailure
import HybridPqc.X509.Chain
import HybridPqc.X509.Issue

/-!
# Tools.GenerateDemoChain

`generate_demo_chain.c`: the tool that provides the three key stores under one key root and writes
the certificates.

`main` is a program over a `Disk`. Its operations are the system calls inside a key store
(`Fs.Op`), the reads and writes of whole files, and the cryptographic operations whose result
depends on randomness. `demoStep` gives them their meaning when none of them fails: a run of it ends
with a failure only because `main` refuses what it found. A check on a certificate made in the same
run counts as a cryptographic operation. The certificate paths are not inside the key stores, and
links in the stores point outside them.
-/

namespace HybridPqc

open Conc Fs

structure DemoLib (PKey : Type) extends IssueLib PKey, StoreCrypto PKey where
  /-- `PEM_read_X509` on the contents of a file. -/
  pemReadX509 : Bytes → Option X509
  /-- What `PEM_write_X509` and `i2d_X509_fp` write. -/
  pemWriteX509 : X509 → Option Bytes
  i2dX509 : X509 → Option Bytes

/-- The directories under the key root: `ca`, `server`, `server-encryption`. -/
inductive KeyDirectory where
  | ca
  | server
  | serverEncryption
  deriving DecidableEq, Repr

/-- `noEntry w` says that an `access` in `w` that fails sets `errno` to `ENOENT`. -/
structure Disk where
  keyRoot : DirKind
  store : KeyDirectory → Dir Unit KeyFile
  noEntry : KeyDirectory → Bool
  file : CString → Option Bytes

/-- The messages on `stderr` before `EXIT_FAILURE`. -/
inductive Refusal where
  /-- `Usage: … ROOT.crt ROOT.der SIGN.crt SIGN.der [ENC.crt ENC.der] [KEY_ROOT]` -/
  | usage
  /-- `HYBRID_KEY_PASSPHRASE must contain at least 12 bytes` -/
  | passphrase
  /-- `Unable to create secure key directory hierarchy` -/
  | keyRoot
  /-- `Unable to generate and persist Hybrid private keys` -/
  | persist
  /-- `Unable to load persisted Hybrid private keys` -/
  | load
  /-- `Loaded Hybrid private key does not match the existing certificate chain` -/
  | chainMismatch
  /-- `Incomplete CA/Server Hybrid key store; refusing partial fallback` -/
  | incomplete
  /-- `Unable to generate and persist TLCP encryption key` -/
  | persistEncryption
  /-- `Loaded TLCP encryption key does not match the existing Hybrid-signed encryption
  certificate` -/
  | encryptionMismatch
  /-- `Incomplete or inconsistent TLCP encryption key store` -/
  | inconsistentEncryption
  /-- `Failed to generate and verify demo chain` -/
  | chain
  deriving DecidableEq, Repr

inductive Exit where
  | success
  | failure (refusal : Refusal)
  deriving DecidableEq, Repr

/-! ## Operations -/

abbrev KeyPair (PKey : Type) := HybridPrivateKey PKey × HybridPublicKey PKey

inductive DemoOp (PKey : Type) where
  | lstatKeyRoot
  | mkdirKeyRoot
  | store (w : KeyDirectory) (op : Op KeyFile)
  /-- `hybrid_key_store_load` -/
  | load (w : KeyDirectory) (passphrase : CString)
  /-- `hybrid_sm2_key_store_status`, `hybrid_sm2_key_store_load` -/
  | sm2Status (w : KeyDirectory)
  | sm2Load (w : KeyDirectory) (passphrase : CString)
  /-- `hybrid_x509_read_pem` -/
  | readPem (path : CString)
  /-- `fopen(path, "wb")` -/
  | fopenWb (path : CString)
  | pemWriteX509 (path : CString) (certificate : X509)
  | i2dX509Fp (path : CString) (certificate : X509)
  /-- `composite_key_generate`, `hybrid_sm2_generate_keypair` -/
  | compositeKeyGenerate
  | sm2GenerateKeypair
  /-- What the generators hand to the next save. -/
  | drawSave (keys : KeyPair PKey) (passphrase : CString)
  | drawPem (key : PKey) (passphrase : CString)
  /-- `hybrid_x509_create_root`, `…_server`, `…_sm2_encryption` -/
  | createRoot (ca : KeyPair PKey)
  | createServer (ca : KeyPair PKey) (serverPublic : HybridPublicKey PKey) (root : X509)
  | createSm2Encryption (ca : KeyPair PKey) (key : PKey) (root : X509)
  /-- A check of a certificate made in this run, with its result. -/
  | check (ok : Bool)

abbrev DemoOp.Resp {PKey : Type} : DemoOp PKey → Type
  | .lstatKeyRoot => DirKind
  | .store _ op => op.Resp
  | .load _ _ | .compositeKeyGenerate => Option (KeyPair PKey)
  | .sm2Status _ => HybridKeyStoreStatus
  | .sm2Load _ _ | .sm2GenerateKeypair => Option PKey
  | .drawSave _ _ => SaveArgs PKey
  | .drawPem _ _ => Bytes
  | .readPem _ | .createRoot _ | .createServer _ _ _ | .createSm2Encryption _ _ _ => Option X509
  | .mkdirKeyRoot | .fopenWb _ | .pemWriteX509 _ _ | .i2dX509Fp _ _ | .check _ => Bool

abbrev demoSig (PKey : Type) : Sig := ⟨DemoOp PKey, DemoOp.Resp⟩

abbrev Demo (PKey α : Type) := Prog (demoSig PKey) α

section

variable {PKey α : Type}

def demo (op : DemoOp PKey) : Demo PKey op.Resp := .perform (S := demoSig PKey) op

/-- A program on one key store. -/
def inStore (w : KeyDirectory) (p : Prog (sig KeyFile) α) : Demo PKey α :=
  p.embed (DemoOp.store w) fun _ r => r

/-! ## The tool -/

/-- The command line; `encryption` holds `ENC.crt` and `ENC.der`. -/
structure DemoArgs where
  rootPem : CString
  rootDer : CString
  serverPem : CString
  serverDer : CString
  encryption : Option (CString × CString)
  keyRoot : CString

def defaultKeyRoot : CString := ⟨Bytes.ofAscii "keys", by decide⟩

/-- `argv` after the name of the program. -/
def readArgv : List CString → Option DemoArgs
  | [rootPem, rootDer, serverPem, serverDer] =>
    some ⟨rootPem, rootDer, serverPem, serverDer, none, defaultKeyRoot⟩
  | [rootPem, rootDer, serverPem, serverDer, keyRoot] =>
    some ⟨rootPem, rootDer, serverPem, serverDer, none, keyRoot⟩
  | [rootPem, rootDer, serverPem, serverDer, encPem, encDer] =>
    some ⟨rootPem, rootDer, serverPem, serverDer, some (encPem, encDer), defaultKeyRoot⟩
  | [rootPem, rootDer, serverPem, serverDer, encPem, encDer, keyRoot] =>
    some ⟨rootPem, rootDer, serverPem, serverDer, some (encPem, encDer), keyRoot⟩
  | _ => none

/-- `"Root Hybrid CA"`, `HYBRID_DEFAULT_SERVER_NAME` -/
def rootCommonName : CString := ⟨Bytes.ofAscii "Root Hybrid CA", by decide⟩
def hybridDefaultServerName : CString := ⟨Bytes.ofAscii "server.local", by decide⟩

/-- The pairs in use; `existingRoot` is there when they were loaded. -/
structure DemoKeys (PKey : Type) where
  ca : KeyPair PKey
  server : KeyPair PKey
  existingRoot : Option X509

def ensureKeyRoot (path : CString) : Demo PKey Bool :=
  if path.val = [] then return false
  else do
    let kind ← demo .lstatKeyRoot
    if kind = .missing then
      let made ← demo .mkdirKeyRoot
      if made = true then
        let kind ← demo .lstatKeyRoot
        return decide (kind = .privateDirectory)
      else return false
    else return decide (kind = .privateDirectory)

/-- `hybrid_sm2_key_store_status`; where `access` succeeds the directory exists. -/
def hybridSm2KeyStoreStatus (noEntry : Bool) (d : Dir Unit KeyFile) : HybridKeyStoreStatus :=
  if d.accessible .sm2PrivatePem then
    if d.kind = .privateDirectory ∧ secureRegularFile d .sm2PrivatePem none = true then .complete
    else .incomplete
  else if noEntry then .missing else .incomplete

variable (D : DemoLib PKey) (now : Int)

def hybridSm2KeyStoreSave (w : KeyDirectory) (key : PKey) (passphrase : CString) :
    Demo PKey Bool :=
  if D.isSm2 key && passphraseValid passphrase then do
    let status ← demo (.sm2Status w)
    if status = .missing then
      let directoryOk ← inStore w ensurePrivateDirectory
      if directoryOk = true then
        let rnd ← demo (.drawPem key passphrase)
        inStore w (saveSm2PrivateKey D.toStoreCrypto (some key) passphrase rnd)
      else return false
    else return false
  else return false

def hybridSm2KeyStoreLoad (noEntry : Bool) (d : Dir Unit KeyFile) (passphrase : CString) :
    Option PKey :=
  if hybridSm2KeyStoreStatus noEntry d = .complete ∧ passphraseValid passphrase = true then
    loadSm2PrivateKey D.toStoreCrypto d passphrase
  else none

/-- `hybrid_key_store_save` of a generated pair. -/
def saveIn (w : KeyDirectory) (keys : KeyPair PKey) (passphrase : CString) : Demo PKey Bool := do
  let args ← demo (.drawSave keys passphrase)
  inStore w (hybridKeyStoreSave D.toStoreCrypto args)

/-- Both stores are missing. -/
def generateKeys (passphrase : CString) : Demo PKey (Except Refusal (DemoKeys PKey)) := do
  let ca ← demo .compositeKeyGenerate
  match ca with
  | none => return .error .persist
  | some ca =>
    let server ← demo .compositeKeyGenerate
    match server with
    | none => return .error .persist
    | some server =>
      let caSaved ← saveIn D .ca ca passphrase
      if caSaved = true then
        let serverSaved ← saveIn D .server server passphrase
        if serverSaved = true then return .ok ⟨ca, server, none⟩ else return .error .persist
      else return .error .persist

/-- Both stores are complete. -/
def loadKeys (args : DemoArgs) (passphrase : CString) :
    Demo PKey (Except Refusal (DemoKeys PKey)) := do
  let ca ← demo (.load .ca passphrase)
  match ca with
  | none => return .error .load
  | some ca =>
    let server ← demo (.load .server passphrase)
    match server with
    | none => return .error .load
    | some server =>
      let existingRoot ← demo (.readPem args.rootPem)
      let existingServer ← demo (.readPem args.serverPem)
      match existingRoot, existingServer with
      | some root, some certificate =>
        if hybridX509PublicKeyMatches D.toOpenssl root ca.2 &&
            hybridX509PublicKeyMatches D.toOpenssl certificate server.2 &&
            (hybridVerifyChain D.toOpenssl now (some root) (some certificate)).chainValid then
          return .ok ⟨ca, server, some root⟩
        else return .error .chainMismatch
      | _, _ => return .error .chainMismatch

/-- The part of `main` under `if (generate_encryption)`. -/
def provideEncryptionKey (args : DemoArgs) (keys : DemoKeys PKey) (passphrase : CString) :
    Demo PKey (Except Refusal (Option PKey)) :=
  match args.encryption with
  | none => return .ok none
  | some (encryptionPem, _) => do
    let status ← demo (.sm2Status .serverEncryption)
    if status = .missing then
      let key ← demo .sm2GenerateKeypair
      match key with
      | none => return .error .persistEncryption
      | some key =>
        let saved ← hybridSm2KeyStoreSave D .serverEncryption key passphrase
        if saved = true then return .ok (some key) else return .error .persistEncryption
    else
      match status, keys.existingRoot with
      | .complete, some root =>
        let key ← demo (.sm2Load .serverEncryption passphrase)
        let existing ← demo (.readPem encryptionPem)
        match key, existing with
        | some key, some certificate =>
          if hybridX509Sm2PublicKeyMatches D.toOpenssl certificate key &&
              (hybridVerifyEncryptionCertificate D.toOpenssl now (some certificate)
                (some root)).certificateValid then
            return .ok (some key)
          else return .error .encryptionMismatch
        | _, _ => return .error .encryptionMismatch
      | _, _ => return .error .inconsistentEncryption

def hybridX509WriteFiles (certificate : X509) (pemPath derPath : CString) : Demo PKey Bool := do
  let pemFile ← demo (.fopenWb pemPath)
  let derFile ← demo (.fopenWb derPath)
  if pemFile && derFile then
    let pemWritten ← demo (.pemWriteX509 pemPath certificate)
    if pemWritten = true then demo (.i2dX509Fp derPath certificate) else return false
  else return false

/-- The encryption certificate, where one is asked for, with its two checks. -/
def createEncryption (keys : DemoKeys PKey) (root : X509) :
    Option PKey → Demo PKey (Option (Option X509))
  | none => return some none
  | some key => do
    let encryption ← demo (.createSm2Encryption keys.ca key root)
    match encryption with
    | none => return none
    | some certificate =>
      let keyOk ← demo (.check (hybridX509Sm2PublicKeyMatches D.toOpenssl certificate key))
      if keyOk = true then
        let verified ← demo (.check (hybridVerifyEncryptionCertificate D.toOpenssl now
          (some certificate) (some root)).certificateValid)
        if verified = true then return some (some certificate) else return none
      else return none

def writeEncryption (args : DemoArgs) (encryption : Option X509) : Demo PKey Bool :=
  match args.encryption, encryption with
  | some (encryptionPem, encryptionDer), some certificate =>
    hybridX509WriteFiles certificate encryptionPem encryptionDer
  | _, _ => return true

/-- The last part of `main`: make, check and write the certificates. -/
def writeChain (args : DemoArgs) (keys : DemoKeys PKey) (encryptionKey : Option PKey) :
    Demo PKey Exit := do
  let root ← demo (.createRoot keys.ca)
  match root with
  | none => return .failure .chain
  | some root =>
    let server ← demo (.createServer keys.ca keys.server.2 root)
    match server with
    | none => return .failure .chain
    | some server =>
      let keyOk ← demo (.check (hybridX509PublicKeyMatches D.toOpenssl server keys.server.2))
      if keyOk = true then
        let verified ← demo (.check
          (hybridVerifyChain D.toOpenssl now (some root) (some server)).chainValid)
        if verified = true then
          let encryption ← createEncryption D now keys root encryptionKey
          match encryption with
          | none => return .failure .chain
          | some encryption =>
            let rootWritten ← hybridX509WriteFiles root args.rootPem args.rootDer
            if rootWritten = true then
              let serverWritten ← hybridX509WriteFiles server args.serverPem args.serverDer
              if serverWritten = true then
                let encryptionWritten ← writeEncryption args encryption
                if encryptionWritten = true then return .success else return .failure .chain
              else return .failure .chain
            else return .failure .chain
        else return .failure .chain
      else return .failure .chain

def provideKeys (args : DemoArgs) (passphrase : CString) :
    Demo PKey (Except Refusal (DemoKeys PKey)) := do
  let caStatus ← inStore .ca hybridKeyStoreStatus
  let serverStatus ← inStore .server hybridKeyStoreStatus
  if caStatus = .missing ∧ serverStatus = .missing then generateKeys D passphrase
  else if caStatus = .complete ∧ serverStatus = .complete then loadKeys D now args passphrase
  else return .error .incomplete

/-- `passphrase` is the environment variable `HYBRID_KEY_PASSPHRASE`. -/
def main (argv : List CString) (passphrase : Option CString) : Demo PKey Exit :=
  match readArgv argv with
  | none => return .failure .usage
  | some args =>
    match passphrase with
    | none => return .failure .passphrase
    | some passphrase =>
      if passphrase.strlen < 12 then return .failure .passphrase
      else do
        let rootOk ← ensureKeyRoot args.keyRoot
        if rootOk = true then
          let keys ← provideKeys D now args passphrase
          match keys with
          | .error refusal => return .failure refusal
          | .ok keys =>
            let encryptionKey ← provideEncryptionKey D now args keys passphrase
            match encryptionKey with
            | .error refusal => return .failure refusal
            | .ok encryptionKey => writeChain D now args keys encryptionKey
        else return .failure .keyRoot

/-! ## Runs in which nothing fails -/

def storeLens (w : KeyDirectory) : Lens Disk (Dir Unit KeyFile) where
  get s := s.store w
  set s d := { s with store := Function.update s.store w d }
  get_set s d := Function.update_self ..
  set_get s := by rw [Function.update_eq_self]
  set_set s d d' := by rw [Function.update_idem]

def Disk.writeFile (s : Disk) (path : CString) (data : Bytes) : Disk :=
  { s with file := Function.update s.file path (some data) }

def demoStep : Sem (demoSig PKey) Disk
  | .lstatKeyRoot, s, r, s' => r = s.keyRoot ∧ s' = s
  | .mkdirKeyRoot, s, r, s' =>
    r = true ∧ s.keyRoot = .missing ∧ s' = { s with keyRoot := .privateDirectory }
  | .store w op, s, r, s' =>
    ∃ d', stepNoFailure () op ((storeLens w).get s) r d' ∧ s' = (storeLens w).set s d'
  | .load w passphrase, s, r, s' =>
    ∃ rnd d', hybridKeyStoreLoad D.toStoreCrypto (s.store w) passphrase rnd = (d', r) ∧
      s' = (storeLens w).set s d'
  | .sm2Status w, s, r, s' => r = hybridSm2KeyStoreStatus (s.noEntry w) (s.store w) ∧ s' = s
  | .sm2Load w passphrase, s, r, s' =>
    r = hybridSm2KeyStoreLoad D (s.noEntry w) (s.store w) passphrase ∧ s' = s
  | .readPem path, s, r, s' => r = (s.file path).bind D.pemReadX509 ∧ s' = s
  | .fopenWb path, s, r, s' => r = true ∧ s' = s.writeFile path []
  | .pemWriteX509 path certificate, s, r, s' =>
    r = true ∧ ∃ pem, D.pemWriteX509 certificate = some pem ∧ s' = s.writeFile path pem
  | .i2dX509Fp path certificate, s, r, s' =>
    r = true ∧ ∃ der, D.i2dX509 certificate = some der ∧ s' = s.writeFile path der
  | .compositeKeyGenerate, s, r, s' => r.isSome = true ∧ s' = s
  | .sm2GenerateKeypair, s, r, s' => (∃ key, r = some key ∧ D.isSm2 key = true) ∧ s' = s
  | .drawSave keys passphrase, s, r, s' =>
    (r.privateKey = keys.1 ∧ r.publicKey = keys.2 ∧ r.passphrase = passphrase ∧
      CryptoSucceeds D.toStoreCrypto r) ∧ s' = s
  | .drawPem key passphrase, s, r, s' =>
    (∃ pem, D.pemWritePkcs8PrivateKey key passphrase.val r = some pem) ∧ s' = s
  | .createRoot ca, s, r, s' =>
    (∃ rnd, r.isSome = true ∧
      r = hybridX509CreateRoot D.toIssueLib now ca.1 ca.2 rootCommonName rnd) ∧ s' = s
  | .createServer ca serverPublic root, s, r, s' =>
    (∃ rnd, r.isSome = true ∧ r = hybridX509CreateServer D.toIssueLib now ca.1 ca.2 serverPublic
      root hybridDefaultServerName (some hybridDefaultServerName) rnd) ∧ s' = s
  | .createSm2Encryption ca key root, s, r, s' =>
    (∃ rnd, r.isSome = true ∧ r = hybridX509CreateSm2Encryption D.toIssueLib now ca.1 ca.2 key root
      hybridDefaultServerName rnd) ∧ s' = s
  | .check ok, s, r, s' => (r = true ∧ ok = true) ∧ s' = s

end

end HybridPqc
