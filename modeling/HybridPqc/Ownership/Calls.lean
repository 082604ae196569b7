import HybridPqc.Composite.KeyFormat
import HybridPqc.Refs.Pool
import HybridPqc.Store.Authenticated
import HybridPqc.X509.Fields

/-!
# Ownership.Calls

The functions that fill a `HYBRID_PRIVATE_KEY` or a `HYBRID_PUBLIC_KEY`, as they take and drop
references to `EVP_PKEY` objects.

The caller's structures are two tables of slots; an argument is an index into one of them, or
`NULL`. What the libraries and the file system do in one call is a record with a field for each of
their calls, so a call of the model fails where its record says. `EVP_PKEY_generate` and
`EVP_PKEY_fromdata` may leave an object behind when they fail. A context made from a key holds a
reference to it until it is freed.
-/

namespace HybridPqc

namespace Ownership

open Refs

/-- A `HYBRID_PRIVATE_KEY` whose SM2 key is a pointer to a counted object. -/
structure PrivateKeySlot where
  sm2PrivateKey : Option Nat
  dilithiumSecretKey : Block dilithiumSecretKeyBytes
  deriving DecidableEq

def hybridPrivateKeyInit : PrivateKeySlot := ⟨none, .zero _⟩

def hybridPublicKeyInit : PublicKeySlot := ⟨none, .zero _⟩

@[simp] theorem hybridPrivateKeyInit_sm2PrivateKey :
    hybridPrivateKeyInit.sm2PrivateKey = none := rfl
@[simp] theorem hybridPublicKeyInit_sm2PublicKey :
    hybridPublicKeyInit.sm2PublicKey = none := rfl

section

variable {PKey : Type}

/-- `hybrid_private_key_cleanup` of one structure. -/
def hybridPrivateKeyCleanup (P : Pool PKey) (key : PrivateKeySlot) : PrivateKeySlot × Pool PKey :=
  (hybridPrivateKeyInit, P.freeOpt key.sm2PrivateKey)

def hybridPublicKeyCleanup (P : Pool PKey) (key : PublicKeySlot) : PublicKeySlot × Pool PKey :=
  (hybridPublicKeyInit, P.freeOpt key.sm2PublicKey)

end

/-! ## The caller's structures -/

structure KeyState (ι κ PKey : Type) where
  pool : Pool PKey
  privateKeys : ι → PrivateKeySlot
  publicKeys : κ → PublicKeySlot

namespace KeyState

variable {ι κ PKey : Type}

/-- Every structure initialised, no key object made. -/
def init : KeyState ι κ PKey where
  pool := .empty
  privateKeys _ := hybridPrivateKeyInit
  publicKeys _ := hybridPublicKeyInit

def withPool (S : KeyState ι κ PKey) (P : Pool PKey) : KeyState ι κ PKey := { S with pool := P }

section

variable [DecidableEq ι]

def setPrivateKey (S : KeyState ι κ PKey) (key : ι) (value : PrivateKeySlot) : KeyState ι κ PKey :=
  { S with privateKeys := Function.update S.privateKeys key value }

/-- `hybrid_private_key_cleanup` of a caller's structure. -/
def cleanupPrivateKey (S : KeyState ι κ PKey) (key : ι) : KeyState ι κ PKey :=
  let cleaned := hybridPrivateKeyCleanup S.pool (S.privateKeys key)
  (S.withPool cleaned.2).setPrivateKey key cleaned.1

@[simp] theorem setPrivateKey_publicKeys (S : KeyState ι κ PKey) (key : ι)
    (value : PrivateKeySlot) : (S.setPrivateKey key value).publicKeys = S.publicKeys := rfl

@[simp] theorem cleanupPrivateKey_privateKeys (S : KeyState ι κ PKey) (key : ι) :
    (S.cleanupPrivateKey key).privateKeys key = hybridPrivateKeyInit :=
  Function.update_self ..

end

section

variable [DecidableEq κ]

def setPublicKey (S : KeyState ι κ PKey) (key : κ) (value : PublicKeySlot) : KeyState ι κ PKey :=
  { S with publicKeys := Function.update S.publicKeys key value }

def cleanupPublicKey (S : KeyState ι κ PKey) (key : κ) : KeyState ι κ PKey :=
  let cleaned := hybridPublicKeyCleanup S.pool (S.publicKeys key)
  (S.withPool cleaned.2).setPublicKey key cleaned.1

@[simp] theorem cleanupPublicKey_publicKeys (S : KeyState ι κ PKey) (key : κ) :
    (S.cleanupPublicKey key).publicKeys key = hybridPublicKeyInit :=
  Function.update_self ..

@[simp] theorem cleanupPublicKey_privateKeys (S : KeyState ι κ PKey) (key : κ) :
    (S.cleanupPublicKey key).privateKeys = S.privateKeys := rfl

end

variable [DecidableEq ι] [DecidableEq κ]

/-- Cleanup of the caller's two structures and the two structure assignments. -/
def replaceKeyPair (S : KeyState ι κ PKey) (privateKey : ι) (publicKey : κ)
    (newPrivate : PrivateKeySlot) (newPublic : PublicKeySlot) : KeyState ι κ PKey :=
  (((S.cleanupPrivateKey privateKey).cleanupPublicKey publicKey).setPrivateKey privateKey
    newPrivate).setPublicKey publicKey newPublic

end KeyState

/-! ## What the libraries do in one call -/

/-- One call of `composite_key_generate`. -/
structure GenerateSteps (PKey : Type) where
  /-- `EVP_PKEY_CTX_new_from_name(NULL, "SM2", NULL) != NULL` -/
  context : Bool
  /-- `EVP_PKEY_keygen_init(context) > 0` -/
  keygenInit : Bool
  /-- `EVP_PKEY_generate(context, &key) > 0`, and the object in `key`. -/
  generate : Bool × Option PKey
  /-- `EVP_PKEY_up_ref` -/
  upRef : Bool
  /-- `dilithium_generate_keypair`, and what it leaves in the buffers. -/
  dilithium : DilithiumOut

/-- One call of `parse_sm2_public_key`. -/
structure ParseSteps (PKey : Type) where
  context : Bool
  /-- `EVP_PKEY_fromdata_init(context) > 0` -/
  fromdataInit : Bool
  /-- `EVP_PKEY_fromdata(context, &key, …) > 0`, and the object in `key`. -/
  fromdata : Bool × Option PKey
  /-- `EVP_PKEY_CTX_new_from_pkey(NULL, key, NULL) != NULL` -/
  checkContext : Bool
  /-- `EVP_PKEY_public_check(check_context) > 0` -/
  publicCheck : Bool

/-- The accessors of `hybrid_x509_get_composite_public_key`. -/
structure SpkiSteps where
  /-- `X509_get_X509_PUBKEY(certificate) != NULL` -/
  getX509Pubkey : Bool
  /-- `X509_get0_pubkey_bitstr(certificate) != NULL` -/
  get0PubkeyBitstr : Bool
  /-- `X509_PUBKEY_get0_param` -/
  get0Param : Bool

/-- One call of `keypair_self_test`. -/
structure SelfTestSteps where
  /-- `EVP_DigestSignInit_ex` makes its `EVP_PKEY_CTX`. -/
  signContext : Bool
  /-- `composite_sign` -/
  signed : Bool
  /-- `EVP_DigestVerifyInit_ex` makes its `EVP_PKEY_CTX`. -/
  verifyContext : Bool
  /-- `composite_verify` -/
  valid : Bool

/-- One call of `hybrid_key_store_load`. -/
structure LoadSteps (PKey : Type) where
  /-- `ensure_private_directory(directory)` -/
  ensurePrivateDirectory : Bool
  /-- `hybrid_key_store_status(directory)` -/
  status : HybridKeyStoreStatus
  /-- `join_path` of the two file names. -/
  sm2Path : Bool
  dilithiumPath : Bool
  /-- `secure_regular_file(sm2_path, -1)` -/
  secureRegularFile : Bool
  /-- `fopen(sm2_path, "rb") != NULL` -/
  fopen : Bool
  /-- `PEM_read_PrivateKey` -/
  pemReadPrivateKey : Option PKey
  /-- `EVP_PKEY_is_a(private_key, "SM2")` -/
  isSm2 : Bool
  checkContext : Bool
  /-- `EVP_PKEY_private_check(check_context) > 0` -/
  privateCheck : Bool
  /-- `load_dilithium_private_key`, and what it leaves in the buffers. -/
  dilithium : DilithiumOut
  upRef : Bool
  selfTest : SelfTestSteps

/-- Nothing fails. -/
def GenerateSteps.works {PKey : Type} (key : PKey) (publicKey : Block dilithiumPublicKeyBytes)
    (secretKey : Block dilithiumSecretKeyBytes) : GenerateSteps PKey where
  context := true
  keygenInit := true
  generate := (true, some key)
  upRef := true
  dilithium := ⟨true, publicKey, secretKey⟩

/-! ## Making a key -/

section

variable {PKey : Type}

/-- The check of a new key through a context of its own: `EVP_PKEY_CTX_new_from_pkey`, the check,
`EVP_PKEY_free` where it fails, `EVP_PKEY_CTX_free`. -/
def checkKey (P : Pool PKey) (key : Nat) (checkContext check : Bool) : Option Nat × Pool PKey :=
  let P := if checkContext then P.upRef key else P
  let P := if checkContext && check then P else P.free key
  let P := if checkContext then P.free key else P
  (if checkContext && check then some key else none, P)

def hybridSm2GenerateKeypair (E : GenerateSteps PKey) (P : Pool PKey) : Option Nat × Pool PKey :=
  if E.context && E.keygenInit then
    let made := P.makeOpt E.generate.2
    if E.generate.1 then made else (none, made.2.freeOpt made.1)
  else (none, P)

def parseSm2PublicKey (E : ParseSteps PKey) (P : Pool PKey) (encoded : Bytes) :
    Option Nat × Pool PKey :=
  if encoded.length = sm2UncompressedPublicKeyBytes ∧ encoded.head? = some 0x04 then
    if E.context && E.fromdataInit then
      match P.makeOpt E.fromdata.2 with
      | (none, P) => (none, P)
      | (some key, P) =>
        if E.fromdata.1 then checkKey P key E.checkContext E.publicCheck else (none, P.free key)
    else (none, P)
  else (none, P)

def loadSm2PrivateKey (E : LoadSteps PKey) (P : Pool PKey) (passphrase : CString) :
    Option Nat × Pool PKey :=
  if E.secureRegularFile && passphraseValid passphrase && E.fopen then
    match P.makeOpt E.pemReadPrivateKey with
    | (none, P) => (none, P)
    | (some privateKey, P) =>
      if E.isSm2 then checkKey P privateKey E.checkContext E.privateCheck
      else (none, P.free privateKey)
  else (none, P)

/-- A digest context over a key, from its initialisation to `EVP_MD_CTX_free`. -/
def digestContext (P : Pool PKey) (key : Nat) (made : Bool) : Pool PKey :=
  if made then (P.upRef key).free key else P

def keypairSelfTest (E : SelfTestSteps) (P : Pool PKey) (privateKey : PrivateKeySlot)
    (publicKey : PublicKeySlot) : Bool × Pool PKey :=
  match privateKey.sm2PrivateKey, publicKey.sm2PublicKey with
  | some sm2PrivateKey, some sm2PublicKey =>
    let P := digestContext P sm2PrivateKey E.signContext
    if E.signed then (E.valid, digestContext P sm2PublicKey E.verifyContext) else (false, P)
  | some sm2PrivateKey, none => (false, digestContext P sm2PrivateKey E.signContext)
  | none, _ => (false, P)

end

/-! ## Filling the caller's structures -/

section

variable {ι κ PKey : Type} [DecidableEq ι] [DecidableEq κ]

/-- `error:` of `composite_key_generate` -/
def generateError (S : KeyState ι κ PKey) (generatedPrivate : PrivateKeySlot)
    (generatedPublic : PublicKeySlot) : Bool × KeyState ι κ PKey :=
  let P := (hybridPrivateKeyCleanup S.pool generatedPrivate).2
  let P := (hybridPublicKeyCleanup P generatedPublic).2
  (false, S.withPool P)

def compositeKeyGenerate (E : GenerateSteps PKey) (S : KeyState ι κ PKey) (privateKey : Option ι)
    (publicKey : Option κ) : Bool × KeyState ι κ PKey :=
  match privateKey, publicKey with
  | some privateKey, some publicKey =>
    match hybridSm2GenerateKeypair E S.pool with
    | (none, P) => generateError (S.withPool P) hybridPrivateKeyInit hybridPublicKeyInit
    | (some key, P) =>
      if E.upRef then
        let S := S.withPool (P.upRef key)
        let generatedPrivate : PrivateKeySlot := ⟨some key, E.dilithium.secretKey⟩
        let generatedPublic : PublicKeySlot := ⟨some key, E.dilithium.publicKey⟩
        if E.dilithium.ok then
          (true, S.replaceKeyPair privateKey publicKey generatedPrivate generatedPublic)
        else generateError S generatedPrivate generatedPublic
      else
        generateError (S.withPool P) { hybridPrivateKeyInit with sm2PrivateKey := some key }
          hybridPublicKeyInit
  | _, _ => (false, S)

def compositeParsePublicKey (E : ParseSteps PKey) (S : KeyState ι κ PKey) (serialized : CArg)
    (key : Option κ) : Bool × KeyState ι κ PKey :=
  match serialized, key with
  | .buf serialized, some key =>
    if serialized.length = compositePublicKeyBytes then
      match parseSm2PublicKey E S.pool
          (serialized.slice dilithiumPublicKeyBytes sm2UncompressedPublicKeyBytes) with
      | (none, P) => (false, S.withPool P)
      | (some sm2PublicKey, P) =>
        let parsed : PublicKeySlot := ⟨some sm2PublicKey,
          hybridPublicKeyInit.dilithiumPublicKey.memcpy
            (serialized.slice 0 dilithiumPublicKeyBytes)⟩
        (true, ((S.withPool P).cleanupPublicKey key).setPublicKey key parsed)
    else (false, S)
  | _, _ => (false, S)

def hybridX509GetCompositePublicKey (A : SpkiSteps) (E : ParseSteps PKey) (S : KeyState ι κ PKey)
    (certificate : Option X509) (publicKey : Option κ) : Bool × KeyState ι κ PKey :=
  match certificate, publicKey with
  | some certificate, some publicKey =>
    let spki := certificate.tbsCertificate.subjectPublicKeyInfo
    if A.getX509Pubkey = false ∨ A.get0PubkeyBitstr = false ∨ spki.publicKey.unusedBits ≠ 0 ∨
        A.get0Param = false ∨ ¬ algorithmIsCompositeAndAbsent spki.algor ∨
        spki.publicKey.data.length = 0 then (false, S)
    else compositeParsePublicKey E S (.buf spki.publicKey.data) (some publicKey)
  | _, _ => (false, S)

/-- `done:` of `hybrid_key_store_load` -/
def loadDone (S : KeyState ι κ PKey) (loadedPrivate : PrivateKeySlot) (loadedPublic : PublicKeySlot)
    (ok : Bool) : Bool × KeyState ι κ PKey :=
  let P := (hybridPublicKeyCleanup S.pool loadedPublic).2
  let P := (hybridPrivateKeyCleanup P loadedPrivate).2
  (ok, S.withPool P)

/-- `hybrid_key_store_load` after its checks. -/
def loadKeyPair (E : LoadSteps PKey) (S : KeyState ι κ PKey) (passphrase : CString)
    (privateKey : ι) (publicKey : κ) : Bool × KeyState ι κ PKey :=
  if E.sm2Path && E.dilithiumPath then
    match loadSm2PrivateKey E S.pool passphrase with
    | (none, P) => loadDone (S.withPool P) hybridPrivateKeyInit hybridPublicKeyInit false
    | (some key, P) =>
      let S := S.withPool P
      -- the buffers are written whether the call succeeds or not
      let loadedPrivate : PrivateKeySlot := ⟨some key, E.dilithium.secretKey⟩
      let loadedPublic : PublicKeySlot := ⟨none, E.dilithium.publicKey⟩
      if E.dilithium.ok && E.upRef then
        let loadedPublic := { loadedPublic with sm2PublicKey := some key }
        match keypairSelfTest E.selfTest (P.upRef key) loadedPrivate loadedPublic with
        | (false, P) => loadDone (S.withPool P) loadedPrivate loadedPublic false
        | (true, P) =>
          loadDone ((S.withPool P).replaceKeyPair privateKey publicKey loadedPrivate loadedPublic)
            hybridPrivateKeyInit hybridPublicKeyInit true
      else loadDone S loadedPrivate loadedPublic false
  else loadDone S hybridPrivateKeyInit hybridPublicKeyInit false

def hybridKeyStoreLoad (E : LoadSteps PKey) (S : KeyState ι κ PKey) (passphrase : Option CString)
    (privateKey : Option ι) (publicKey : Option κ) : Bool × KeyState ι κ PKey :=
  match passphrase, privateKey, publicKey with
  | some passphrase, some privateKey, some publicKey =>
    if passphraseValid passphrase && E.ensurePrivateDirectory && (E.status == .complete) then
      loadKeyPair E S passphrase privateKey publicKey
    else (false, S)
  | _, _, _ => (false, S)

/-! ## Sequences of calls -/

inductive Call (ι κ PKey : Type)
  | compositeKeyGenerate (E : GenerateSteps PKey) (privateKey : Option ι) (publicKey : Option κ)
  | compositeParsePublicKey (E : ParseSteps PKey) (serialized : CArg) (key : Option κ)
  | hybridX509GetCompositePublicKey (A : SpkiSteps) (E : ParseSteps PKey)
      (certificate : Option X509) (publicKey : Option κ)
  | hybridKeyStoreLoad (E : LoadSteps PKey) (passphrase : Option CString) (privateKey : Option ι)
      (publicKey : Option κ)
  | hybridPrivateKeyCleanup (key : Option ι)
  | hybridPublicKeyCleanup (key : Option κ)

/-- One call: its result (a cleanup has none and does not fail) and the state after it. -/
def Call.run (S : KeyState ι κ PKey) : Call ι κ PKey → Bool × KeyState ι κ PKey
  | .compositeKeyGenerate E privateKey publicKey =>
    Ownership.compositeKeyGenerate E S privateKey publicKey
  | .compositeParsePublicKey E serialized key =>
    Ownership.compositeParsePublicKey E S serialized key
  | .hybridX509GetCompositePublicKey A E certificate publicKey =>
    Ownership.hybridX509GetCompositePublicKey A E S certificate publicKey
  | .hybridKeyStoreLoad E passphrase privateKey publicKey =>
    Ownership.hybridKeyStoreLoad E S passphrase privateKey publicKey
  | .hybridPrivateKeyCleanup key => (true, key.elim S S.cleanupPrivateKey)
  | .hybridPublicKeyCleanup key => (true, key.elim S S.cleanupPublicKey)

def runCalls (S : KeyState ι κ PKey) : List (Call ι κ PKey) → KeyState ι κ PKey
  | [] => S
  | c :: calls => runCalls (c.run S).2 calls

end

end Ownership

end HybridPqc
