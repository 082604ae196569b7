import HybridPqc.Bytes
import HybridPqc.Refs.Arena

/-!
# Mlkem.Wrapper

`mlkem.c`: the ML-KEM-768 wrapper over liboqs. A `KemProvider` is what liboqs does in one call of
the wrapper: whether the algorithm is there and with which parameters, which allocations succeed,
and what each operation returns and writes. An operation that fails has written something all the
same.

Buffers of fixed length are `Block`s. Key buffers and `OQS_KEM` objects come out of the `Arena`;
argument buffers do not overlap each other or a key buffer.
-/

namespace HybridPqc

open Refs

def mlkem768EncapsulationKeyBytes : Nat := 1184
def mlkem768DecapsulationKeyBytes : Nat := 2400
def mlkem768CiphertextBytes : Nat := 1088
def mlkem768SharedSecretBytes : Nat := 32

abbrev EncapsulationKey := Block mlkem768EncapsulationKeyBytes
abbrev DecapsulationKey := Block mlkem768DecapsulationKeyBytes
abbrev KemCiphertext := Block mlkem768CiphertextBytes
abbrev SharedSecret := Block mlkem768SharedSecretBytes

/-- `OQS_KEM_alg_ml_kem_768` -/
def oqsKemAlgMlKem768 : Bytes := Bytes.ofAscii "ML-KEM-768"

def oqsKemFips203 : Bytes := Bytes.ofAscii "FIPS203"

/-- The fields of `OQS_KEM` the wrapper reads. -/
structure OqsKem where
  methodName : Option CString
  algVersion : Option CString
  lengthPublicKey : Nat
  lengthSecretKey : Nat
  lengthCiphertext : Nat
  lengthSharedSecret : Nat

structure KemProvider where
  /-- `OQS_KEM_alg_is_enabled(OQS_KEM_alg_ml_kem_768)` -/
  algIsEnabled : Bool
  /-- `OQS_KEM_new(OQS_KEM_alg_ml_kem_768)` -/
  kemNew : Option OqsKem
  /-- `OQS_MEM_malloc` for the two keys. -/
  mallocEk : Bool
  mallocDk : Bool
  /-- `OQS_KEM_keypair`, `OQS_KEM_encaps`, `OQS_KEM_decaps`: `OQS_SUCCESS`, and what they write. -/
  keypair : Bool × EncapsulationKey × DecapsulationKey
  encaps : EncapsulationKey → Bool × KemCiphertext × SharedSecret
  decaps : DecapsulationKey → KemCiphertext → Bool × SharedSecret

/-- The tests of `mlkem768_new_checked` on a new object. -/
def OqsKem.isMlKem768 (kem : OqsKem) : Bool :=
  match kem.methodName, kem.algVersion with
  | some methodName, some algVersion =>
    methodName.val = oqsKemAlgMlKem768 ∧ algVersion.val = oqsKemFips203 ∧
    kem.lengthPublicKey = mlkem768EncapsulationKeyBytes ∧
    kem.lengthSecretKey = mlkem768DecapsulationKeyBytes ∧
    kem.lengthCiphertext = mlkem768CiphertextBytes ∧
    kem.lengthSharedSecret = mlkem768SharedSecretBytes
  | _, _ => false

/-- A buffer from `OQS_MEM_malloc(n)`. -/
structure KeyBuffer (n : Nat) where
  handle : Nat
  contents : Block n

/-- `MLKEM_KEYPAIR` -/
structure MlkemKeypair where
  encapsulationKey : Option (KeyBuffer mlkem768EncapsulationKeyBytes)
  encapsulationKeyLen : Nat
  decapsulationKey : Option (KeyBuffer mlkem768DecapsulationKeyBytes)
  decapsulationKeyLen : Nat

/-- A zeroed structure. -/
def MlkemKeypair.empty : MlkemKeypair := ⟨none, 0, none, 0⟩

section

variable (E : KemProvider)

def mlkem768NewChecked (A : Arena) : Option Nat × Arena :=
  if E.algIsEnabled = false then (none, A)
  else
    match E.kemNew with
    | none => (none, A)
    | some kem =>
      let (handle, A) := A.malloc true
      if kem.isMlKem768 then (handle, A) else (none, A.freeOpt handle)

/-- `done:` of `mlkem768_keygen` -/
def keygenDone (A : Arena) (ek dk kem : Option Nat) : Arena :=
  ((A.freeOpt ek).freeOpt dk).freeOpt kem

def mlkem768Keygen (keypair : Option MlkemKeypair) (A : Arena) :
    Bool × Option MlkemKeypair × Arena :=
  match keypair with
  | none => (false, none, A)
  | some keypair =>
    if keypair.encapsulationKey.isSome ∨ keypair.decapsulationKey.isSome ∨
        keypair.encapsulationKeyLen ≠ 0 ∨ keypair.decapsulationKeyLen ≠ 0 then
      (false, some keypair, A)
    else
      let (kem, A) := mlkem768NewChecked E A
      if kem.isNone then (false, some keypair, A)
      else
        let (ek, A) := A.malloc E.mallocEk
        let (dk, A) := A.malloc E.mallocDk
        match ek, dk with
        | some ek, some dk =>
          if E.keypair.1 = false then (false, some keypair, keygenDone A (some ek) (some dk) kem)
          else
            (true, some {
              encapsulationKey := some ⟨ek, E.keypair.2.1⟩
              encapsulationKeyLen := mlkem768EncapsulationKeyBytes
              decapsulationKey := some ⟨dk, E.keypair.2.2⟩
              decapsulationKeyLen := mlkem768DecapsulationKeyBytes }, keygenDone A none none kem)
        | ek, dk => (false, some keypair, keygenDone A ek dk kem)

/-- The arguments of `mlkem768_encaps`: two buffers with their lengths, and two outputs with what
they hold. -/
structure EncapsArgs where
  encapsulationKey : CArg
  ciphertext : CArg
  ciphertextLen : Option Nat
  sharedSecret : Option SharedSecret

structure EncapsResult where
  ret : Bool
  ciphertext : CArg
  ciphertextLen : Option Nat
  sharedSecret : Option SharedSecret
  arena : Arena

/-- `OQS_MEM_cleanse` of a shared secret, if there is one. -/
def cleanseSecret (sharedSecret : Option SharedSecret) : Option SharedSecret :=
  sharedSecret.map fun _ => Block.zero mlkem768SharedSecretBytes

def mlkem768Encaps (args : EncapsArgs) (A : Arena) : EncapsResult :=
  let ciphertextLen := args.ciphertextLen.map fun _ => 0
  let sharedSecret := cleanseSecret args.sharedSecret
  match args.encapsulationKey, args.ciphertext, ciphertextLen, sharedSecret with
  | .buf encapsulationKey, .buf ciphertext, some _, some _ =>
    match Block.ofBytes? mlkem768EncapsulationKeyBytes encapsulationKey with
    | none => ⟨false, args.ciphertext, ciphertextLen, sharedSecret, A⟩
    | some ek =>
      if ciphertext.length < mlkem768CiphertextBytes then
        ⟨false, args.ciphertext, ciphertextLen, sharedSecret, A⟩
      else
        let (kem, A) := mlkem768NewChecked E A
        if kem.isNone then ⟨false, args.ciphertext, ciphertextLen, cleanseSecret sharedSecret, A⟩
        else
          let (ok, ct, secret) := E.encaps ek
          let ciphertext := ciphertext.write 0 ct.val
          let A := A.freeOpt kem
          if ok = false then
            ⟨false, .buf (ciphertext.write 0 (Bytes.zeros mlkem768CiphertextBytes)), ciphertextLen,
              cleanseSecret (some secret), A⟩
          else ⟨true, .buf ciphertext, some mlkem768CiphertextBytes, some secret, A⟩
  | _, _, _, _ => ⟨false, args.ciphertext, ciphertextLen, sharedSecret, A⟩

structure DecapsArgs where
  decapsulationKey : CArg
  ciphertext : CArg
  sharedSecret : Option SharedSecret

structure DecapsResult where
  ret : Bool
  sharedSecret : Option SharedSecret
  arena : Arena

def mlkem768Decaps (args : DecapsArgs) (A : Arena) : DecapsResult :=
  match args.decapsulationKey, args.ciphertext, args.sharedSecret with
  | .buf decapsulationKey, .buf ciphertext, some sharedSecret =>
    match Block.ofBytes? mlkem768DecapsulationKeyBytes decapsulationKey,
        Block.ofBytes? mlkem768CiphertextBytes ciphertext with
    | some dk, some ct =>
      let sharedSecret := cleanseSecret (some sharedSecret)
      let (kem, A) := mlkem768NewChecked E A
      if kem.isNone then ⟨false, cleanseSecret sharedSecret, A⟩
      else
        let (ok, secret) := E.decaps dk ct
        let A := A.freeOpt kem
        if ok = false then ⟨false, cleanseSecret (some secret), A⟩ else ⟨true, some secret, A⟩
    | _, _ => ⟨false, cleanseSecret (some sharedSecret), A⟩
  | _, _, sharedSecret => ⟨false, cleanseSecret sharedSecret, A⟩

end

def mlkemKeypairCleanup (keypair : Option MlkemKeypair) (A : Arena) :
    Option MlkemKeypair × Arena :=
  match keypair with
  | none => (none, A)
  | some keypair =>
    (some .empty, (A.freeOpt (keypair.encapsulationKey.map KeyBuffer.handle)).freeOpt
      (keypair.decapsulationKey.map KeyBuffer.handle))

/-! ## Call sequences -/

/-- One keypair and the allocator. -/
structure MlkemState where
  keypair : MlkemKeypair
  arena : Arena

/-- A call, with `null` for a `NULL` keypair. -/
inductive MlkemCall where
  | keygen (null : Bool)
  | encaps (args : EncapsArgs)
  | decaps (args : DecapsArgs)
  | cleanup (null : Bool)

def MlkemState.argument (s : MlkemState) (null : Bool) : Option MlkemKeypair :=
  if null then none else some s.keypair

def mlkemStep (E : KemProvider) (call : MlkemCall) (s : MlkemState) : MlkemState :=
  match call with
  | .keygen null =>
    let (_, keypair, A) := mlkem768Keygen E (s.argument null) s.arena
    ⟨keypair.getD s.keypair, A⟩
  | .encaps args => ⟨s.keypair, (mlkem768Encaps E args s.arena).arena⟩
  | .decaps args => ⟨s.keypair, (mlkem768Decaps E args s.arena).arena⟩
  | .cleanup null =>
    let (keypair, A) := mlkemKeypairCleanup (s.argument null) s.arena
    ⟨keypair.getD s.keypair, A⟩

/-- The states after any calls from a zeroed keypair, each with a provider in `F`. -/
inductive MlkemReaches (F : KemProvider → Prop) : MlkemState → Prop where
  | start : MlkemReaches F ⟨.empty, .empty⟩
  | step {s : MlkemState} {E : KemProvider} (call : MlkemCall) :
      MlkemReaches F s → F E → MlkemReaches F (mlkemStep E call s)

end HybridPqc
