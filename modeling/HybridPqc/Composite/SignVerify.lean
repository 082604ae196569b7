import HybridPqc.Composite.SigFormat

/-!
# Composite.SignVerify

`composite_sign` with its output pointers, and the contract of signing and verifying.

`compositeSign` gives the signature as a value; `compositeSignInto` is the same function writing
through `signature` and `signature_len`, which it empties first. `composite_sign_verify` puts
together what the signer promises and what the verifier demands: both signature schemes over the one
message `composite_build_message` makes.
-/

namespace HybridPqc

/-- The caller's `signature` and `signature_len`: the outer `none` is a `NULL` pointer, the inner
one the value `NULL` behind it. -/
structure SignatureOut where
  signature : Option (Option Bytes)
  signatureLen : Option Nat
  deriving DecidableEq, Repr

namespace SignatureOut

/-- `*signature = NULL; *signature_len = 0;` -/
def clear (out : SignatureOut) : SignatureOut :=
  ⟨out.signature.map fun _ => none, out.signatureLen.map fun _ => 0⟩

def store (out : SignatureOut) (output : Bytes) : SignatureOut :=
  ⟨out.signature.map fun _ => some output, out.signatureLen.map fun _ => output.length⟩

/-- `signature == NULL || signature_len == NULL` -/
def badNull (out : SignatureOut) : Bool := out.signature.isNone || out.signatureLen.isNone

end SignatureOut

section

variable {PKey : Type} (C : Crypto PKey)

/-- `composite_serialize_signature`: the result and the caller's outputs. -/
def compositeSerializeSignatureInto (dilithiumSignature sm2SignatureDer : Bytes)
    (out : SignatureOut) : Bool × SignatureOut :=
  if out.badNull then (false, out)
  else
    match compositeSerializeSignature C dilithiumSignature sm2SignatureDer with
    | none => (false, out.clear)
    | some output => (true, out.clear.store output)

/-- `composite_sign`: the result and the caller's outputs; `none` is a `NULL` key. -/
def compositeSignInto (key : Option (HybridPrivateKey PKey)) (message ctx : CArg) (rnd : Bytes)
    (out : SignatureOut) : Bool × SignatureOut :=
  if out.badNull then (false, out)
  else
    let out := out.clear
    match key with
    | none => (false, out)
    | some key =>
      match key.sm2PrivateKey with
      | none => (false, out)
      | some sm2 =>
        match compositeBuildMessage C message ctx with
        | none => (false, out)
        | some mPrime =>
          match dilithiumSign C key.dilithiumSecretKey mPrime with
          | none => (false, out)
          | some dilithiumSignature =>
            match hybridSm2Sign C sm2 mPrime rnd with
            | none => (false, out)
            | some sm2Signature =>
              compositeSerializeSignatureInto C dilithiumSignature sm2Signature out

end

section

variable {PKey : Type} {C : Crypto PKey} {message ctx : CArg}

@[simp] theorem SignatureOut.badNull_clear (out : SignatureOut) :
    out.clear.badNull = out.badNull := by
  simp [SignatureOut.badNull, SignatureOut.clear]

@[simp] theorem SignatureOut.clear_clear (out : SignatureOut) : out.clear.clear = out.clear := by
  simp only [SignatureOut.clear, Option.map_map]
  rfl

theorem SignatureOut.badNull_eq_false {out : SignatureOut} (h : out.badNull = false) :
    out.clear = ⟨some none, some 0⟩ ∧
      ∀ output, out.clear.store output = ⟨some (some output), some output.length⟩ := by
  obtain ⟨s, l⟩ := out
  cases s with
  | none => cases h
  | some s =>
    cases l with
    | none => cases h
    | some l => exact ⟨rfl, fun _ => rfl⟩

/-- Through non-`NULL` pointers, the call stores what `compositeSign` returns. -/
theorem compositeSignInto_eq {out : SignatureOut} (hout : out.badNull = false)
    (key : HybridPrivateKey PKey) (rnd : Bytes) :
    compositeSignInto C (some key) message ctx rnd out =
      match compositeSign C key message ctx rnd with
      | none => (false, ⟨some none, some 0⟩)
      | some sig => (true, ⟨some (some sig), some sig.length⟩) := by
  obtain ⟨hclear, hstore⟩ := SignatureOut.badNull_eq_false hout
  simp only [compositeSignInto, compositeSign, compositeSerializeSignatureInto,
    SignatureOut.badNull_clear, SignatureOut.clear_clear, hout]
  cases key.sm2PrivateKey with
  | none => exact congrArg (Prod.mk false) hclear
  | some sm2 =>
    cases compositeBuildMessage C message ctx with
    | none => exact congrArg (Prod.mk false) hclear
    | some m =>
      cases hd : dilithiumSign C key.dilithiumSecretKey m with
      | none => simp [hd, hclear]
      | some d =>
        cases hs : hybridSm2Sign C sm2 m rnd with
        | none => simp [hd, hs, hclear]
        | some s =>
          cases hser : compositeSerializeSignature C d s with
          | none => simp [hd, hs, hser, hclear]
          | some sig => simp [hd, hs, hser, hstore]

/-- A call that fails leaves `NULL` and 0, if it has somewhere to leave them. -/
theorem compositeSignInto_failed {out : SignatureOut} (hout : out.badNull = false)
    {key : Option (HybridPrivateKey PKey)} {rnd : Bytes}
    (h : (compositeSignInto C key message ctx rnd out).1 = false) :
    (compositeSignInto C key message ctx rnd out).2 = ⟨some none, some 0⟩ := by
  cases key with
  | none =>
    simp only [compositeSignInto, hout]
    exact (SignatureOut.badNull_eq_false hout).1
  | some key =>
    rw [compositeSignInto_eq hout] at h ⊢
    split at h
    · rfl
    · cases h

/-- Every early exit of the verifier leaves all flags clear but the one for the format. -/
theorem compositeVerifyDetailed_flags (key : HybridPublicKey PKey) (message ctx : CArg)
    (signature : Bytes) :
    let r := compositeVerifyDetailed C key message ctx signature
    r.compositeValid = (r.dilithiumValid && r.sm2Valid) ∧
      ((r.dilithiumValid || r.sm2Valid || r.compositeValid) = true → r.formatValid = true) := by
  simp only [compositeVerifyDetailed]
  cases key.sm2PublicKey with
  | none => exact ⟨rfl, fun h => h⟩
  | some sm2 =>
    cases compositeParseSignature C signature with
    | none => exact ⟨rfl, fun h => h⟩
    | some p =>
      cases compositeBuildMessage C message ctx with
      | none => exact ⟨rfl, fun _ => rfl⟩
      | some m => exact ⟨rfl, fun _ => rfl⟩

theorem compositeVerify_iff {key : HybridPublicKey PKey} {signature : Bytes} :
    compositeVerify C key message ctx signature = true ↔
      ∃ sm2 d s m, key.sm2PublicKey = some sm2 ∧
        compositeParseSignature C signature = some (d, s) ∧ ctx.len ≤ compositeMaxContextBytes ∧
        compositeBuildMessage C message ctx = some m ∧
        dilithiumVerify C key.dilithiumPublicKey m d = true ∧
        hybridSm2Verify C sm2 m s = true := by
  constructor
  · intro h
    obtain ⟨sm2, d, s, m, hk, hp, hm, hd, hs⟩ := compositeVerifyDetailed_valid_iff.mp h
    exact ⟨sm2, d, s, m, hk, hp, (compositeBuildMessage_some_iff.mp hm).2.2.1, hm, hd, hs⟩
  · rintro ⟨sm2, d, s, m, hk, hp, _, hm, hd, hs⟩
    exact compositeVerifyDetailed_valid_iff.mpr ⟨sm2, d, s, m, hk, hp, hm, hd, hs⟩

/-- A string that starts with 2420 bytes the Dilithium2 verifier rejects, or goes on with bytes the
SM2 verifier rejects, is rejected. -/
theorem compositeVerify_rejects {key : HybridPublicKey PKey} {sm2 : PKey} {m d s : Bytes}
    (hk : key.sm2PublicKey = some sm2) (hm : compositeBuildMessage C message ctx = some m)
    (hl : d.length = dilithiumSignatureBytes)
    (hr : dilithiumVerify C key.dilithiumPublicKey m d = false ∨
      hybridSm2Verify C sm2 m s = false) :
    compositeVerify C key message ctx (d ++ s) = false := by
  rw [← Bool.not_eq_true]
  intro h
  obtain ⟨sm2', d', s', m', hk', hp, _, hm', hd, hs⟩ := compositeVerify_iff.mp h
  rw [hk] at hk'
  cases hk'
  rw [hm] at hm'
  cases hm'
  obtain ⟨hl', _, heq⟩ := compositeParseSignature_some_iff.mp hp
  obtain ⟨rfl, rfl⟩ := List.append_inj heq (hl.trans hl'.symm)
  rcases hr with hr | hr
  · rw [hr] at hd
    cases hd
  · rw [hr] at hs
    cases hs

end

/-- **Signing and verifying.** Verification is the AND of both verifiers over one message; it stops
accepting when a component is replaced by one its verifier rejects; it accepts what the signer
makes; and a signer that fails leaves nothing behind. -/
theorem composite_sign_verify {PKey : Type} {C : Crypto PKey} (hsm2 : Sm2Correct C)
    (message ctx : CArg) :
    (∀ (key : HybridPublicKey PKey) signature,
      compositeVerify C key message ctx signature = true ↔
        ∃ sm2 d s m, key.sm2PublicKey = some sm2 ∧
          compositeParseSignature C signature = some (d, s) ∧ ctx.len ≤ compositeMaxContextBytes ∧
          compositeBuildMessage C message ctx = some m ∧
          dilithiumVerify C key.dilithiumPublicKey m d = true ∧
          hybridSm2Verify C sm2 m s = true) ∧
    (∀ (key : HybridPublicKey PKey) signature,
      let r := compositeVerifyDetailed C key message ctx signature
      r.compositeValid = (r.dilithiumValid && r.sm2Valid) ∧
        ((r.dilithiumValid || r.sm2Valid || r.compositeValid) = true → r.formatValid = true)) ∧
    (∀ (key : HybridPublicKey PKey) sm2 signature d s m,
      compositeVerify C key message ctx signature = true → key.sm2PublicKey = some sm2 →
      compositeParseSignature C signature = some (d, s) →
      compositeBuildMessage C message ctx = some m →
      (∀ d', d'.length = d.length → dilithiumVerify C key.dilithiumPublicKey m d' = false →
        compositeVerify C key message ctx (d' ++ s) = false) ∧
      (∀ s', hybridSm2Verify C sm2 m s' = false →
        compositeVerify C key message ctx (d ++ s') = false)) ∧
    (∀ privateKey publicKey rnd out, CorrespondingKeys C privateKey publicKey →
      (compositeSignInto C (some privateKey) message ctx rnd out).1 = true →
      ∃ signature, (compositeSignInto C (some privateKey) message ctx rnd out).2 =
          ⟨some (some signature), some signature.length⟩ ∧
        compositeVerify C publicKey message ctx signature = true) ∧
    (∀ key rnd out, out.badNull = false →
      (compositeSignInto C key message ctx rnd out).1 = false →
      (compositeSignInto C key message ctx rnd out).2 = ⟨some none, some 0⟩) := by
  refine ⟨fun _ _ => compositeVerify_iff, fun key => compositeVerifyDetailed_flags key message ctx,
    ?_, ?_, fun _ _ _ hout => compositeSignInto_failed hout⟩
  · intro key sm2 signature d s m _ hk hp hm
    obtain ⟨hl, _, rfl⟩ := compositeParseSignature_some_iff.mp hp
    exact ⟨fun d' hl' hr => compositeVerify_rejects hk hm (hl'.trans hl) (Or.inl hr),
      fun s' hr => compositeVerify_rejects hk hm hl (Or.inr hr)⟩
  · intro privateKey publicKey rnd out hkeys h
    by_cases hout : out.badNull = true
    · simp [compositeSignInto, hout] at h
    · rw [Bool.not_eq_true] at hout
      rw [compositeSignInto_eq hout] at h ⊢
      split at h
      · cases h
      · rename_i signature hsign
        exact ⟨signature, rfl, compositeVerify_sign hsm2 hkeys hsign⟩

/-- A pair of sample keys signs the empty message and accepts the signature. -/
theorem composite_sign_verify_toy :
    ∃ signature, (compositeSignInto Toy.crypto (some (Toy.privateKey 1)) (.buf []) (.null 0) []
        ⟨some none, some 7⟩).2 = ⟨some (some signature), some signature.length⟩ ∧
      compositeVerify Toy.crypto (Toy.publicKey 1) (.buf []) (.null 0) signature = true := by
  have hkey : (Toy.privateKey 1).sm2PrivateKey = some (Toy.sm2Key 1) := rfl
  obtain ⟨sig, hsig⟩ := Toy.compositeSign_some hkey (Toy.sm2Key_isPoint 1) [] []
  refine (composite_sign_verify Toy.sm2Correct _ _).2.2.2.1 _ _ _ _
    (Toy.keyPair 1).corresponding ?_
  rw [compositeSignInto_eq rfl, hsig]

end HybridPqc
