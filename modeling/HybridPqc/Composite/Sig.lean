import HybridPqc.Composite.Key

/-!
# Composite.Sig

`composite_sig.c` with the two wrappers under it (`dilithium_wrapper.c`, `sm2_wrapper.c`).

The message both components sign is
`M' = prefix || label || len(ctx) || ctx || SM3(message)` (`compositeBuildMessage_eq`); a signature
is the 2420 Dilithium2 bytes followed by the canonical DER of the SM2 signature. Verification is a
strict AND (`compositeVerifyDetailed_valid_iff`). Memory allocation is taken to succeed.
-/

namespace HybridPqc

def compositeSignaturePrefix : Bytes := Bytes.ofAscii "CompositeAlgorithmSignatures2025"
def compositeSignatureLabel : Bytes := Bytes.ofAscii "COMPSIG-DILITHIUM2-SM2-SM3"
def compositeMaxContextBytes : Nat := 255
def sm2DefaultUserId : Bytes := Bytes.ofAscii "1234567812345678"

structure CompositeVerifyResult where
  formatValid : Bool := false
  dilithiumValid : Bool := false
  sm2Valid : Bool := false
  compositeValid : Bool := false
  deriving DecidableEq, Repr

section

variable {PKey : Type} (C : Crypto PKey)

/-! ## Wrappers -/

def dilithiumSign (secretKey : Block dilithiumSecretKeyBytes) (message : Bytes) : Option Bytes :=
  match C.dilithium2Signature message secretKey.val with
  | none => none
  | some output => if output.length = dilithiumSignatureBytes then some output else none

def dilithiumVerify (publicKey : Block dilithiumPublicKeyBytes) (message signature : Bytes) :
    Bool :=
  signature.length == dilithiumSignatureBytes &&
    C.dilithium2Verify signature message publicKey.val

def hybridSm2Sign (privateKey : PKey) (message rnd : Bytes) : Option Bytes :=
  C.digestSign privateKey sm2DefaultUserId message rnd

def hybridSm2Verify (publicKey : PKey) (message signature : Bytes) : Bool :=
  C.digestVerify publicKey sm2DefaultUserId signature message

/-! ## `composite_sig.c` -/

def sm2SignatureDerIsValid (der : Bytes) : Bool :=
  if der.length = 0 ∨ longMax < der.length then false
  else match C.d2iEcdsaSig der with
    | none => false
    | some ((r, s), n) =>
      if n ≠ der.length then false
      else if r ≤ 0 ∨ s ≤ 0 then false
      else match C.i2dEcdsaSig (r, s) with
        | none => false
        | some canonical => canonical == der

/-- `composite_build_message`; the offsets are those of the four `memcpy` calls. -/
def compositeBuildMessage (message ctx : CArg) : Option Bytes :=
  if message.badNull ∨ ctx.badNull ∨ compositeMaxContextBytes < ctx.len then none
  else match C.sm3 message.bytes with
    | none => none
    | some digest =>
      if digest.length ≠ 32 then none
      else if sizeMax - compositeSignaturePrefix.length - compositeSignatureLabel.length - 1
          - digest.length < ctx.len then none
      else
        let outputLen := compositeSignaturePrefix.length + compositeSignatureLabel.length + 1 +
          ctx.len + digest.length
        let output := Bytes.zeros outputLen
        let output := output.write 0 compositeSignaturePrefix
        let offset := compositeSignaturePrefix.length
        let output := output.write offset compositeSignatureLabel
        let offset := offset + compositeSignatureLabel.length
        let output := output.write offset [UInt8.ofNat ctx.len]
        let offset := offset + 1
        let output := output.write offset ctx.bytes
        let offset := offset + ctx.bytes.length
        let output := output.write offset digest
        let offset := offset + digest.length
        if offset ≠ outputLen then none else some output

def compositeSerializeSignature (dilithiumSignature sm2SignatureDer : Bytes) : Option Bytes :=
  if dilithiumSignature.length ≠ dilithiumSignatureBytes ∨
      ¬ sm2SignatureDerIsValid C sm2SignatureDer ∨
      sizeMax - dilithiumSignatureBytes < sm2SignatureDer.length then none
  else some (dilithiumSignature ++ sm2SignatureDer)

/-- `composite_parse_signature`: the two parts. -/
def compositeParseSignature (signature : Bytes) : Option (Bytes × Bytes) :=
  if signature.length ≤ dilithiumSignatureBytes then none
  else if sm2SignatureDerIsValid C (signature.drop dilithiumSignatureBytes) then
    some (signature.take dilithiumSignatureBytes, signature.drop dilithiumSignatureBytes)
  else none

/-- `composite_sign`; `rnd` is the randomness of the SM2 signer. -/
def compositeSign (key : HybridPrivateKey PKey) (message ctx : CArg) (rnd : Bytes) :
    Option Bytes :=
  match key.sm2PrivateKey with
  | none => none
  | some sm2 =>
    match compositeBuildMessage C message ctx with
    | none => none
    | some mPrime =>
      match dilithiumSign C key.dilithiumSecretKey mPrime with
      | none => none
      | some dilithiumSignature =>
        match hybridSm2Sign C sm2 mPrime rnd with
        | none => none
        | some sm2Signature => compositeSerializeSignature C dilithiumSignature sm2Signature

def compositeVerifyDetailed (key : HybridPublicKey PKey) (message ctx : CArg) (signature : Bytes) :
    CompositeVerifyResult :=
  match key.sm2PublicKey with
  | none => {}
  | some sm2 =>
    match compositeParseSignature C signature with
    | none => {}
    | some (dilithiumSignature, sm2Signature) =>
      match compositeBuildMessage C message ctx with
      | none => { formatValid := true }
      | some mPrime =>
        let dilithiumValid := dilithiumVerify C key.dilithiumPublicKey mPrime dilithiumSignature
        let sm2Valid := hybridSm2Verify C sm2 mPrime sm2Signature
        { formatValid := true, dilithiumValid, sm2Valid,
          compositeValid := dilithiumValid && sm2Valid }

def compositeVerify (key : HybridPublicKey PKey) (message ctx : CArg) (signature : Bytes) : Bool :=
  (compositeVerifyDetailed C key message ctx signature).compositeValid

end

/-! ## What the functions compute -/

section

variable {PKey : Type} {C : Crypto PKey}

theorem compositeSignaturePrefix_length : compositeSignaturePrefix.length = 32 := by decide
theorem compositeSignatureLabel_length : compositeSignatureLabel.length = 26 := by decide

theorem compositeBuildMessage_eq {message ctx : CArg} {digest : Bytes}
    (hm : message.badNull = false) (hc : ctx.badNull = false) (hl : ctx.len ≤ 255)
    (hd : C.sm3 message.bytes = some digest) (hdl : digest.length = 32) :
    compositeBuildMessage C message ctx =
      some (compositeSignaturePrefix ++ compositeSignatureLabel ++ [UInt8.ofNat ctx.len] ++
        ctx.bytes ++ digest) := by
  have hcl := CArg.length_bytes hc
  have hp := compositeSignaturePrefix_length
  have hlb := compositeSignatureLabel_length
  simp only [compositeBuildMessage, hm, hc, hd]
  rw [if_neg (by simp [compositeMaxContextBytes, hl]), if_neg (by simp [hdl]),
    if_neg (by simp only [sizeMax]; omega), if_neg (by omega)]
  rw [Bytes.write_zeros, Bytes.write_append rfl, Bytes.write_append (by simp),
    Bytes.write_append (by simp; omega), Bytes.write_append (by simp; omega)]
  have : compositeSignaturePrefix.length + compositeSignatureLabel.length + 1 + ctx.len +
      digest.length - compositeSignaturePrefix.length - compositeSignatureLabel.length -
      [UInt8.ofNat ctx.len].length - ctx.bytes.length - digest.length = 0 := by
    simp only [List.length_singleton]; omega
  rw [this]; simp [Bytes.zeros]

/-- The message is built exactly for well-formed arguments with a context of at most 255 bytes
and a 32-byte digest. -/
theorem compositeBuildMessage_some_iff {message ctx : CArg} {m : Bytes} :
    compositeBuildMessage C message ctx = some m ↔
      message.badNull = false ∧ ctx.badNull = false ∧ ctx.len ≤ 255 ∧
      ∃ digest, C.sm3 message.bytes = some digest ∧ digest.length = 32 ∧
        m = compositeSignaturePrefix ++ compositeSignatureLabel ++ [UInt8.ofNat ctx.len] ++
          ctx.bytes ++ digest := by
  constructor
  · intro h
    have h0 := h
    simp only [compositeBuildMessage] at h
    split at h
    · cases h
    rename_i hn
    simp only [not_or, Bool.not_eq_true, compositeMaxContextBytes, Nat.not_lt] at hn
    obtain ⟨hm, hc, hl⟩ := hn
    split at h
    · cases h
    rename_i digest hd
    split at h
    · cases h
    rename_i hdl
    have hdl : digest.length = 32 := by omega
    rw [compositeBuildMessage_eq hm hc hl hd hdl] at h0
    exact ⟨hm, hc, hl, digest, hd, hdl, (Option.some.inj h0).symm⟩
  · rintro ⟨hm, hc, hl, digest, hd, hdl, rfl⟩
    exact compositeBuildMessage_eq hm hc hl hd hdl

theorem sm2SignatureDerIsValid_pos {der : Bytes} (h : sm2SignatureDerIsValid C der = true) :
    0 < der.length := by
  simp only [sm2SignatureDerIsValid] at h
  split at h
  · cases h
  · omega

/-- Parsing undoes serialising. -/
theorem compositeParseSignature_serialize {d s signature : Bytes}
    (h : compositeSerializeSignature C d s = some signature) :
    compositeParseSignature C signature = some (d, s) := by
  simp only [compositeSerializeSignature] at h
  split at h
  · cases h
  rename_i hn
  simp only [not_or, not_not] at hn
  obtain ⟨hd, hs, _⟩ := hn
  cases h
  have hpos := sm2SignatureDerIsValid_pos hs
  have hdrop : (d ++ s).drop dilithiumSignatureBytes = s := by rw [← hd]; simp
  have htake : (d ++ s).take dilithiumSignatureBytes = d := by rw [← hd]; simp
  simp only [compositeParseSignature, hdrop, htake, hs, if_true]
  rw [if_neg (by rw [List.length_append, hd]; omega)]

/-- Verification is a strict AND of both components over one `M'`, with the flags the detailed
result carries. -/
theorem compositeVerifyDetailed_valid_iff {key : HybridPublicKey PKey} {message ctx : CArg}
    {signature : Bytes} :
    (compositeVerifyDetailed C key message ctx signature).compositeValid = true ↔
      ∃ sm2 d s m, key.sm2PublicKey = some sm2 ∧
        compositeParseSignature C signature = some (d, s) ∧
        compositeBuildMessage C message ctx = some m ∧
        dilithiumVerify C key.dilithiumPublicKey m d = true ∧ hybridSm2Verify C sm2 m s = true := by
  simp only [compositeVerifyDetailed]
  cases key.sm2PublicKey with
  | none => simp
  | some sm2 =>
    cases hp : compositeParseSignature C signature with
    | none => simp
    | some p =>
      obtain ⟨d, s⟩ := p
      cases hm : compositeBuildMessage C message ctx with
      | none => simp
      | some m => simp

theorem compositeVerifyDetailed_eq_of_valid {key : HybridPublicKey PKey} {message ctx : CArg}
    {signature : Bytes}
    (h : (compositeVerifyDetailed C key message ctx signature).compositeValid = true) :
    compositeVerifyDetailed C key message ctx signature = ⟨true, true, true, true⟩ := by
  obtain ⟨sm2, d, s, m, hk, hp, hm, hd, hs⟩ := compositeVerifyDetailed_valid_iff.mp h
  simp [compositeVerifyDetailed, hk, hp, hm, hd, hs]

/-! ## Signing and verifying -/

variable (C)

/-- The public key accepts whatever the secret key signs. -/
def DilithiumPair (secretKey : Block dilithiumSecretKeyBytes)
    (publicKey : Block dilithiumPublicKeyBytes) : Prop :=
  ∀ m sig, dilithiumSign C secretKey m = some sig → dilithiumVerify C publicKey m sig = true

/-- SM2 signing and verifying fit together: every key that exports the signer's public octets
accepts its signatures. -/
def Sm2Correct : Prop :=
  ∀ s p o m rnd sig, sm2Octets C s = some o → sm2Octets C p = some o →
    hybridSm2Sign C s m rnd = some sig → hybridSm2Verify C p m sig = true

/-- A valid SM2 private key signs every message, in canonical DER. -/
def Sm2Signs : Prop :=
  ∀ s m rnd, C.privateCheck s = true →
    ∃ sig, hybridSm2Sign C s m rnd = some sig ∧ sm2SignatureDerIsValid C sig = true

/-- An SM2 signature verifies only under the signer's own public octets. -/
def Sm2Binding : Prop :=
  ∀ s p m rnd sig, hybridSm2Sign C s m rnd = some sig → hybridSm2Verify C p m sig = true →
    ∃ o, sm2Octets C s = some o ∧ sm2Octets C p = some o

/-- A private key and the public key that belongs to it: SM2 keys with the same public octets, and
a Dilithium2 pair. -/
structure CorrespondingKeys (privateKey : HybridPrivateKey PKey)
    (publicKey : HybridPublicKey PKey) : Prop where
  sm2 : ∃ s p o, privateKey.sm2PrivateKey = some s ∧ publicKey.sm2PublicKey = some p ∧
    sm2Octets C s = some o ∧ sm2Octets C p = some o
  dilithium : DilithiumPair C privateKey.dilithiumSecretKey publicKey.dilithiumPublicKey

/-- Corresponding keys whose SM2 key is valid. -/
structure HybridKeyPair (privateKey : HybridPrivateKey PKey) (publicKey : HybridPublicKey PKey) :
    Prop where
  sm2 : ∃ s p o, privateKey.sm2PrivateKey = some s ∧ publicKey.sm2PublicKey = some p ∧
    C.privateCheck s = true ∧ sm2Octets C s = some o ∧ sm2Octets C p = some o
  dilithium : DilithiumPair C privateKey.dilithiumSecretKey publicKey.dilithiumPublicKey

variable {C}

theorem HybridKeyPair.corresponding {privateKey : HybridPrivateKey PKey}
    {publicKey : HybridPublicKey PKey} (h : HybridKeyPair C privateKey publicKey) :
    CorrespondingKeys C privateKey publicKey := by
  obtain ⟨s, p, o, hs, hp, _, hso, hpo⟩ := h.sm2
  exact ⟨⟨s, p, o, hs, hp, hso, hpo⟩, h.dilithium⟩

/-- What a composite signature is made of. -/
theorem compositeSign_some_iff {key : HybridPrivateKey PKey} {message ctx : CArg}
    {rnd signature : Bytes} :
    compositeSign C key message ctx rnd = some signature ↔
      ∃ sm2 m d s, key.sm2PrivateKey = some sm2 ∧ compositeBuildMessage C message ctx = some m ∧
        dilithiumSign C key.dilithiumSecretKey m = some d ∧ hybridSm2Sign C sm2 m rnd = some s ∧
        compositeSerializeSignature C d s = some signature := by
  simp only [compositeSign]
  constructor
  · intro h
    split at h
    · cases h
    rename_i sm2 hsm2
    split at h
    · cases h
    rename_i m hm
    split at h
    · cases h
    rename_i d hd
    split at h
    · cases h
    rename_i s hs
    exact ⟨sm2, m, d, s, hsm2, hm, hd, hs, h⟩
  · rintro ⟨sm2, m, d, s, hsm2, hm, hd, hs, h⟩
    simp only [hsm2, hm, hd, hs, h]

theorem compositeSerializeSignature_eq {d s : Bytes} (hd : d.length = dilithiumSignatureBytes)
    (hs : sm2SignatureDerIsValid C s = true) :
    compositeSerializeSignature C d s = some (d ++ s) := by
  have hl : s.length ≤ longMax := by
    simp only [sm2SignatureDerIsValid] at hs
    split at hs
    · cases hs
    · omega
  have : ¬ sizeMax - dilithiumSignatureBytes < s.length := by
    simp only [longMax] at hl
    simp only [sizeMax, dilithiumSignatureBytes]
    omega
  simp [compositeSerializeSignature, hd, hs, this]

theorem dilithiumSign_length {sk : Block dilithiumSecretKeyBytes} {m sig : Bytes}
    (h : dilithiumSign C sk m = some sig) : sig.length = dilithiumSignatureBytes := by
  simp only [dilithiumSign] at h
  split at h
  · cases h
  · split at h
    · cases h; assumption
    · cases h

/-- A valid SM2 key and a Dilithium2 key that signs the message make a composite signature. -/
theorem compositeSign_of_parts (hsigns : Sm2Signs C) (key : HybridPrivateKey PKey)
    {message ctx : CArg} {sm2 : PKey} {m d : Bytes} (hsm2 : key.sm2PrivateKey = some sm2)
    (hcheck : C.privateCheck sm2 = true) (hm : compositeBuildMessage C message ctx = some m)
    (hd : dilithiumSign C key.dilithiumSecretKey m = some d) (rnd : Bytes) :
    ∃ s, hybridSm2Sign C sm2 m rnd = some s ∧ sm2SignatureDerIsValid C s = true ∧
      compositeSign C key message ctx rnd = some (d ++ s) := by
  obtain ⟨s, hs, hv⟩ := hsigns sm2 m rnd hcheck
  exact ⟨s, hs, hv, compositeSign_some_iff.mpr ⟨sm2, m, d, s, hsm2, hm, hd, hs,
    compositeSerializeSignature_eq (dilithiumSign_length hd) hv⟩⟩

/-- What a signer returns, its own public key accepts over the same message and context. -/
theorem compositeVerify_sign (hsm2 : Sm2Correct C) {privateKey : HybridPrivateKey PKey}
    {publicKey : HybridPublicKey PKey} (hkeys : CorrespondingKeys C privateKey publicKey)
    {message ctx : CArg} {rnd signature : Bytes}
    (h : compositeSign C privateKey message ctx rnd = some signature) :
    compositeVerify C publicKey message ctx signature = true := by
  obtain ⟨s, p, o, hs, hp, hso, hpo⟩ := hkeys.sm2
  obtain ⟨s', m, d, sig, hs', hm, hd, hsig, hser⟩ := compositeSign_some_iff.mp h
  rw [hs] at hs'; cases hs'
  exact compositeVerifyDetailed_valid_iff.mpr ⟨p, d, sig, m, hp,
    compositeParseSignature_serialize hser, hm, hkeys.dilithium _ _ hd,
    hsm2 _ _ _ _ _ _ hso hpo hsig⟩

/-- A public key with the same bytes belongs to the same private key. -/
theorem HybridKeyPair.of_equal {privateKey : HybridPrivateKey PKey}
    {publicKey key : HybridPublicKey PKey} (hpair : HybridKeyPair C privateKey publicKey)
    (heq : compositePublicKeysEqual C key publicKey = true) : HybridKeyPair C privateKey key := by
  obtain ⟨hdil, s, p, o, hs, hp, hso, hpo⟩ := compositePublicKeysEqual_iff.mp heq
  obtain ⟨s', p', o', hs', hp', hcheck, hso', hpo'⟩ := hpair.sm2
  rw [hp] at hp'
  cases hp'
  rw [hpo] at hpo'
  cases hpo'
  exact ⟨⟨s', s, o, hs', hs, hcheck, hso', hso⟩, by rw [hdil]; exact hpair.dilithium⟩

end

end HybridPqc
