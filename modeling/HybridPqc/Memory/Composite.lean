import HybridPqc.Composite.Sig
import HybridPqc.Refs.Act

/-!
# Memory.Composite

`composite_key.c`, `composite_sig.c` and the two wrappers under them, with the memory they ask for.

Every function of the sources has its pointer version here under the same name: what it allocates,
what it releases on which path, and what it computes. A buffer that is an argument is read when the
call is made. The `_spec` theorems compare with the functions that compute the value alone.
-/

namespace HybridPqc

namespace Memory

open Refs
open Refs.Act

section

variable {plan : Nat → Bool} {PKey : Type} (C : Crypto PKey)

/-! ## Public keys -/

/-- What `composite_serialize_public_key` makes of the buffer that has the Dilithium2 key in it. -/
def exportSm2 (k : PKey) (output : Bytes) : Option Bytes :=
  match serializeSm2PublicKey C (some k)
      (output.slice dilithiumPublicKeyBytes sm2UncompressedPublicKeyBytes) with
  | (true, tail) => some (output.write dilithiumPublicKeyBytes tail)
  | (false, _) => none

def compositeSerializePublicKey (key : HybridPublicKey PKey) : Act plan (Option (Obj Bytes)) :=
  match key.sm2PublicKey with
  | none => return none
  | some k => do
    match ← alloc ((Bytes.zeros compositePublicKeyBytes).write 0 key.dilithiumPublicKey.val) with
    | none => return none
    | some output => keepIf (← change output (exportSm2 C k output.val))

/-- The context for the check, and the check. -/
def publicCheck (key : Obj PKey) : Act plan Bool := do
  match ← alloc () with
  | none => return false
  | some checkContext =>
    touch key
    let valid ← test (C.publicCheck key.val)
    freeObj checkContext
    return valid

/-- `EVP_PKEY_fromdata_init` and `EVP_PKEY_fromdata`, with the release of what a call that failed
has made. -/
def sm2Fromdata (encoded : Bytes) : Act plan (Option (Obj PKey)) := do
  if ← test true then
    let key ← make (C.fromdata encoded)
    if ← test key.isSome then return key
    else
      free key
      return none
  else return none

/-- The new key when it passes the check. -/
def checkedKey (key : Option (Obj PKey)) : Act plan (Option (Obj PKey)) :=
  match key with
  | none => return none
  | some key => do keepIf (← publicCheck C key, key)

def parseSm2PublicKey (encoded : Bytes) : Act plan (Option (Obj PKey)) :=
  if encoded.length = sm2UncompressedPublicKeyBytes ∧ encoded.head? = some 0x04 then do
    match ← alloc () with
    | none => return none
    | some context =>
      let made ← sm2Fromdata C encoded
      let key ← checkedKey C made
      freeObj context
      return key
  else return none

/-- The key structure belongs to the caller; what is released with it is its `EVP_PKEY`. -/
def compositeParsePublicKey (serialized : Bytes) : Act plan (Option (Obj (HybridPublicKey PKey))) :=
  if serialized.length = compositePublicKeyBytes then do
    match ← parseSm2PublicKey C
        (serialized.slice dilithiumPublicKeyBytes sm2UncompressedPublicKeyBytes) with
    | none => return none
    | some k =>
      match Block.ofBytes? dilithiumPublicKeyBytes (serialized.slice 0 dilithiumPublicKeyBytes) with
      | none => do
        freeObj k
        return none
      | some dil => return some ⟨k.handles, some k.val, dil⟩
  else return none

/-! ## Signatures -/

/-- The checks of the decoded signature. -/
def sm2SignatureCanonical (signature : (Int × Int) × Nat) (der : Bytes) : Act plan Bool :=
  if signature.2 ≠ der.length then return false
  else if signature.1.1 ≤ 0 ∨ signature.1.2 ≤ 0 then return false
  else do
    match ← make (C.i2dEcdsaSig signature.1) with
    | none => return false
    | some canonical =>
      let equal := canonical.val == der
      freeObj canonical
      return equal

def sm2SignatureDerIsValid (der : Bytes) : Act plan Bool :=
  if der.length = 0 ∨ longMax < der.length then return false
  else do
    match ← make (C.d2iEcdsaSig der) with
    | none => return false
    | some signature =>
      touch signature
      let valid ← sm2SignatureCanonical C signature.val der
      freeObj signature
      return valid

/-- The four `memcpy` calls and the check of the last offset are those of the value. -/
def compositeBuildMessage (message ctx : CArg) : Act plan (Option (Obj Bytes)) :=
  if message.badNull ∨ ctx.badNull ∨ compositeMaxContextBytes < ctx.len then return none
  else do
    match ← call (C.sm3 message.bytes) with
    | none => return none
    | some digest =>
      if digest.length ≠ 32 then return none
      else if sizeMax - compositeSignaturePrefix.length - compositeSignatureLabel.length - 1
          - digest.length < ctx.len then return none
      else
        let outputLen := compositeSignaturePrefix.length + compositeSignatureLabel.length + 1 +
          ctx.len + digest.length
        match ← alloc (Bytes.zeros outputLen) with
        | none => return none
        | some output => keepIf (store output (HybridPqc.compositeBuildMessage C message ctx))

def compositeSerializeSignature (dilithiumSignature sm2SignatureDer : Bytes) :
    Act plan (Option (Obj Bytes)) :=
  if dilithiumSignature.length ≠ dilithiumSignatureBytes then return none
  else do
    if ← sm2SignatureDerIsValid C sm2SignatureDer then
      if sizeMax - dilithiumSignatureBytes < sm2SignatureDer.length then return none
      else alloc (dilithiumSignature ++ sm2SignatureDer)
    else return none

/-- The two parts are pointers into the signature. -/
def compositeParseSignature (signature : Bytes) : Act plan (Option (Bytes × Bytes)) :=
  if signature.length ≤ dilithiumSignatureBytes then return none
  else do
    if ← sm2SignatureDerIsValid C (signature.drop dilithiumSignatureBytes) then
      return some (signature.take dilithiumSignatureBytes, signature.drop dilithiumSignatureBytes)
    else return none

def dilithiumSign (secretKey : Block dilithiumSecretKeyBytes) (message : Bytes) :
    Act plan (Option (Obj Bytes)) := do
  match ← alloc (Bytes.zeros dilithiumSignatureBytes) with
  | none => return none
  | some output => keepIf (store output (HybridPqc.dilithiumSign C secretKey message))

/-- `EVP_DigestSignInit_ex` or `EVP_DigestVerifyInit_ex`, and `EVP_PKEY_CTX_set1_id`. -/
def initContext : Act plan Bool := do
  let ready ← test true
  also ready (test true)

/-- `EVP_DigestSign` twice: for the length, and into a buffer of that length. -/
def digestSign (privateKey : PKey) (message rnd : Bytes) : Act plan (Option (Obj Bytes)) := do
  match ← call (HybridPqc.hybridSm2Sign C privateKey message rnd) with
  | none => return none
  | some signature =>
    match ← alloc (Bytes.zeros signature.length) with
    | none => return none
    | some output => keepIf (← change output (some signature))

def hybridSm2Sign (privateKey : PKey) (message rnd : Bytes) : Act plan (Option (Obj Bytes)) := do
  match ← alloc () with
  | none => return none
  | some context =>
    let ready ← initContext
    let signature ← guarded ready (digestSign C privateKey message rnd)
    freeObj context
    return signature

def hybridSm2Verify (publicKey : PKey) (message signature : Bytes) : Act plan Bool := do
  match ← alloc () with
  | none => return false
  | some context =>
    let ready ← initContext
    let result ← also ready (test (HybridPqc.hybridSm2Verify C publicKey message signature))
    freeObj context
    return result

def compositeSign (key : HybridPrivateKey PKey) (message ctx : CArg) (rnd : Bytes) :
    Act plan (Option (Obj Bytes)) :=
  match key.sm2PrivateKey with
  | none => return none
  | some sm2 => do
    let mPrime ← compositeBuildMessage C message ctx
    let dilithiumSignature ← reading mPrime fun m => dilithiumSign C key.dilithiumSecretKey m
    let sm2Signature ← guarded dilithiumSignature.isSome
      (reading mPrime fun m => hybridSm2Sign C sm2 m rnd)
    let signature ← reading sm2Signature fun s =>
      reading dilithiumSignature fun d => compositeSerializeSignature C d s
    free mPrime
    free dilithiumSignature
    free sm2Signature
    return signature

def compositeVerifyDetailed (key : HybridPublicKey PKey) (message ctx : CArg) (signature : Bytes) :
    Act plan CompositeVerifyResult :=
  match key.sm2PublicKey with
  | none => return {}
  | some sm2 => do
    match ← compositeParseSignature C signature with
    | none => return {}
    | some (dilithiumSignature, sm2Signature) =>
      match ← compositeBuildMessage C message ctx with
      | none => return { formatValid := true }
      | some mPrime =>
        touch mPrime
        let dilithiumValid := dilithiumVerify C key.dilithiumPublicKey mPrime.val dilithiumSignature
        let sm2Valid ← hybridSm2Verify C sm2 mPrime.val sm2Signature
        freeObj mPrime
        return { formatValid := true, dilithiumValid, sm2Valid,
                 compositeValid := dilithiumValid && sm2Valid }

end

/-! ## What they compute -/

section

variable {plan : Nat → Bool} {PKey : Type} (C : Crypto PKey)

theorem compositeSerializePublicKey_spec (key : HybridPublicKey PKey) :
    Spec plan 0 (compositeSerializePublicKey C key)
      (Yields plan (HybridPqc.compositeSerializePublicKey C key)) := by
  simp only [compositeSerializePublicKey, HybridPqc.compositeSerializePublicKey]
  cases key.sm2PublicKey with
  | none => exact .ret (.null (Or.inl rfl))
  | some k =>
    generalize Bytes.write _ _ _ = filled
    refine (alloc_spec filled).bind ?_
    rintro _ _ (⟨output, h⟩ | ⟨h⟩)
    · cases h
      refine (change_spec output _).bind ?_
      intro r R hr
      exact keepIf_spec hr
    · exact .ret (.null (h.imp_left (by intro h0; cases h0)))

theorem publicCheck_spec (key : Obj PKey) :
    Spec plan key.owned (publicCheck C key)
      (Beside key.owned (Decides plan (C.publicCheck key.val))) := by
  refine (alloc_spec ()).step key.owned (Multiset.zero_add _).symm ?_
  rintro _ _ (⟨checkContext, _⟩ | ⟨h⟩)
  · refine (touch_spec key).step checkContext.owned (add_comm _ _) ?_
    rintro _ _ rfl
    refine (test_spec _).step (key.owned + checkContext.owned) (Multiset.zero_add _).symm ?_
    intro valid R hvalid
    refine (freeObj_spec checkContext).release (R + key.owned) (by ac_rfl) ?_
    exact .ret ⟨R, hvalid, rfl⟩
  · exact .ret ⟨0, .no (h.imp_left (by intro h0; cases h0)), rfl⟩

theorem sm2Fromdata_spec (encoded : Bytes) :
    Spec plan 0 (sm2Fromdata C encoded) (Yields plan (C.fromdata encoded)) := by
  refine (test_spec true).bind ?_
  rintro _ _ (h | h)
  swap
  · exact .ret (.null (Or.inr (fails_of_true h)))
  refine (make_spec (C.fromdata encoded)).bind ?_
  intro key R hkey
  refine (test_spec key.isSome).step R (Multiset.zero_add _).symm ?_
  rintro _ _ (h | h)
  · exact (Spec.ret hkey).pre (Multiset.zero_add _)
  · refine (free_spec key).bind ?_ |>.pre ((Multiset.zero_add _).trans hkey.owned)
    rintro _ _ rfl
    refine .ret (.null ?_)
    cases hkey with
    | object p _ => exact Or.inr (fails_of_true h)
    | null hnull => exact hnull

theorem checkedKey_spec {o : Option PKey} {key : Option (Obj PKey)} {R : Multiset Nat}
    (hkey : Yields plan o key R) :
    Spec plan R (checkedKey C key)
      (Yields plan (o.bind fun k => if C.publicCheck k = true then some k else none)) := by
  cases hkey with
  | object key h =>
    rw [h]
    refine (publicCheck_spec C key).bind ?_
    rintro _ _ ⟨_, (hv | hv), rfl⟩
    · simp only [Option.bind_some, hv, if_true, Multiset.zero_add]
      exact keepIf_spec (.done key rfl)
    · rw [Multiset.zero_add]
      refine keepIf_spec (.failed key (hv.imp_left ?_))
      intro hv
      simp [hv]
  | null h =>
    refine .ret (.null (h.imp_left ?_))
    rintro rfl
    rfl

theorem parseSm2PublicKey_spec (encoded : Bytes) :
    Spec plan 0 (parseSm2PublicKey C encoded)
      (Yields plan (HybridPqc.parseSm2PublicKey C encoded)) := by
  simp only [parseSm2PublicKey, HybridPqc.parseSm2PublicKey]
  by_cases hform : encoded.length = sm2UncompressedPublicKeyBytes ∧ encoded.head? = some 0x04
  swap
  · rw [if_neg hform, if_neg hform]
    exact .ret (.null (Or.inl rfl))
  rw [if_pos hform, if_pos hform]
  refine (alloc_spec ()).bind ?_
  rintro _ _ (⟨context, _⟩ | ⟨h⟩)
  swap
  · exact .ret (.null (Or.inr (fails_of_some h)))
  refine (sm2Fromdata_spec C encoded).step context.owned (Multiset.zero_add _).symm ?_
  intro made R hmade
  refine (checkedKey_spec C hmade).step context.owned rfl ?_
  intro key R hkey
  refine (freeObj_spec context).release R (add_comm _ _) ?_
  refine .ret ?_
  revert hkey
  cases C.fromdata encoded with
  | none => exact id
  | some k => exact id

theorem compositeParsePublicKey_spec (serialized : Bytes) :
    Spec plan 0 (compositeParsePublicKey C serialized)
      (Yields plan (HybridPqc.compositeParsePublicKey C serialized)) := by
  simp only [compositeParsePublicKey, HybridPqc.compositeParsePublicKey]
  by_cases hl : serialized.length = compositePublicKeyBytes
  swap
  · rw [if_neg hl, if_neg hl]
    exact .ret (.null (Or.inl rfl))
  rw [if_pos hl, if_pos hl]
  refine (parseSm2PublicKey_spec C _).bind ?_
  rintro _ _ (⟨k, h⟩ | ⟨h⟩)
  · rw [h]
    cases Block.ofBytes? dilithiumPublicKeyBytes (serialized.slice 0 dilithiumPublicKeyBytes) with
    | none =>
      refine (freeObj_spec k).bind ?_
      rintro _ _ rfl
      exact .ret (.null (Or.inl rfl))
    | some dil =>
      exact object_spec rfl rfl
  · refine .ret (.null (h.imp_left ?_))
    intro h0
    rw [h0]

/-! ## Signatures -/

theorem sm2SignatureCanonical_spec (signature : (Int × Int) × Nat) (der : Bytes) :
    Spec plan 0 (sm2SignatureCanonical C signature der)
      (Decides plan (if signature.2 ≠ der.length then false
        else if signature.1.1 ≤ 0 ∨ signature.1.2 ≤ 0 then false
        else match C.i2dEcdsaSig signature.1 with
          | none => false
          | some canonical => canonical == der)) := by
  simp only [sm2SignatureCanonical]
  by_cases hn : signature.2 ≠ der.length
  · rw [if_pos hn, if_pos hn]
    exact .ret (.no (Or.inl rfl))
  rw [if_neg hn, if_neg hn]
  by_cases hpos : signature.1.1 ≤ 0 ∨ signature.1.2 ≤ 0
  · rw [if_pos hpos, if_pos hpos]
    exact .ret (.no (Or.inl rfl))
  rw [if_neg hpos, if_neg hpos]
  refine (make_spec (C.i2dEcdsaSig signature.1)).bind ?_
  rintro _ _ (⟨canonical, h⟩ | ⟨h⟩)
  · rw [h]
    refine (freeObj_spec canonical).bind ?_
    rintro _ _ rfl
    refine .ret ?_
    cases heq : canonical.val == der with
    | false => exact .no (Or.inl heq)
    | true => exact .yes heq
  · refine .ret (.no (h.imp_left ?_))
    intro h0
    rw [h0]

theorem sm2SignatureDerIsValid_spec (der : Bytes) :
    Spec plan 0 (sm2SignatureDerIsValid C der)
      (Decides plan (HybridPqc.sm2SignatureDerIsValid C der)) := by
  simp only [sm2SignatureDerIsValid, HybridPqc.sm2SignatureDerIsValid]
  by_cases hl : der.length = 0 ∨ longMax < der.length
  · rw [if_pos hl, if_pos hl]
    exact .ret (.no (Or.inl rfl))
  rw [if_neg hl, if_neg hl]
  refine (make_spec (C.d2iEcdsaSig der)).bind ?_
  rintro _ _ (⟨signature, h⟩ | ⟨h⟩)
  · rw [h]
    refine (touch_spec signature).bind ?_
    rintro _ _ rfl
    refine (sm2SignatureCanonical_spec C signature.val der).step signature.owned
      (Multiset.zero_add _).symm ?_
    intro valid R hvalid
    refine (freeObj_spec signature).release R (add_comm _ _) ?_
    exact .ret hvalid
  · refine .ret (.no (h.imp_left ?_))
    intro h0
    rw [h0]

theorem compositeBuildMessage_spec (message ctx : CArg) :
    Spec plan 0 (compositeBuildMessage C message ctx)
      (Yields plan (HybridPqc.compositeBuildMessage C message ctx)) := by
  have hval : HybridPqc.compositeBuildMessage C message ctx =
      HybridPqc.compositeBuildMessage C message ctx := rfl
  conv_rhs at hval => unfold HybridPqc.compositeBuildMessage
  simp only [compositeBuildMessage]
  by_cases harg : message.badNull ∨ ctx.badNull ∨ compositeMaxContextBytes < ctx.len
  · rw [if_pos harg] at hval ⊢
    exact .ret (.null (Or.inl hval))
  rw [if_neg harg] at hval ⊢
  refine (call_spec (C.sm3 message.bytes)).bind ?_
  rintro _ _ (⟨digest, h⟩ | ⟨h⟩)
  swap
  · refine .ret (.null (h.imp_left ?_))
    intro h0
    rw [hval, h0]
  rw [h] at hval
  dsimp only at hval ⊢
  by_cases hd : digest.length ≠ 32
  · rw [if_pos hd] at hval ⊢
    exact .ret (.null (Or.inl hval))
  rw [if_neg hd] at hval ⊢
  split
  · rename_i hl
    rw [if_pos hl] at hval
    exact .ret (.null (Or.inl hval))
  refine (alloc_spec _).bind ?_
  rintro _ _ (⟨output, _⟩ | ⟨h⟩)
  · exact keepIf_spec (store_changes output _)
  · exact .ret (.null (Or.inr (fails_of_some h)))

theorem compositeSerializeSignature_spec (dilithiumSignature sm2SignatureDer : Bytes) :
    Spec plan 0 (compositeSerializeSignature C dilithiumSignature sm2SignatureDer)
      (Yields plan (HybridPqc.compositeSerializeSignature C dilithiumSignature
        sm2SignatureDer)) := by
  simp only [compositeSerializeSignature, HybridPqc.compositeSerializeSignature]
  by_cases hd : dilithiumSignature.length ≠ dilithiumSignatureBytes
  · rw [if_pos hd, if_pos (Or.inl hd)]
    exact .ret (.null (Or.inl rfl))
  rw [if_neg hd]
  refine (sm2SignatureDerIsValid_spec C sm2SignatureDer).bind ?_
  rintro _ _ (h | h)
  · simp only [hd, h, not_true_eq_false, false_or, if_true]
    split
    · exact .ret (.null (Or.inl rfl))
    · exact alloc_spec _
  · refine .ret (.null (h.imp_left ?_))
    intro h0
    rw [if_pos (Or.inr (Or.inl (by simp [h0])))]

theorem compositeParseSignature_spec (signature : Bytes) :
    Spec plan 0 (compositeParseSignature C signature)
      (Answers plan (HybridPqc.compositeParseSignature C signature)) := by
  simp only [compositeParseSignature, HybridPqc.compositeParseSignature]
  by_cases hl : signature.length ≤ dilithiumSignatureBytes
  · rw [if_pos hl, if_pos hl]
    exact .ret (.failed (Or.inl rfl))
  rw [if_neg hl, if_neg hl]
  refine (sm2SignatureDerIsValid_spec C _).bind ?_
  rintro _ _ (h | h)
  · rw [if_pos h]
    exact .ret (.value _ rfl)
  · refine .ret (.failed (h.imp_left ?_))
    intro h0
    rw [if_neg (by simp [h0])]

/-! ## The wrappers -/

theorem dilithiumSign_spec (secretKey : Block dilithiumSecretKeyBytes) (message : Bytes) :
    Spec plan 0 (dilithiumSign C secretKey message)
      (Yields plan (HybridPqc.dilithiumSign C secretKey message)) := by
  refine (alloc_spec _).bind ?_
  rintro _ _ (⟨output, _⟩ | ⟨h⟩)
  · exact keepIf_spec (store_changes output _)
  · exact .ret (.null (Or.inr (fails_of_some h)))

theorem initContext_spec : Spec plan 0 (initContext : Act plan Bool) (Decides plan true) := by
  refine (test_spec true).bind ?_
  intro ready R hready
  exact also_spec hready fun _ => test_spec true

theorem digestSign_spec (privateKey : PKey) (message rnd : Bytes) :
    Spec plan 0 (digestSign C privateKey message rnd)
      (Yields plan (HybridPqc.hybridSm2Sign C privateKey message rnd)) := by
  refine (call_spec _).bind ?_
  rintro _ _ (⟨signature, h⟩ | ⟨h⟩)
  swap
  · exact .ret (.null h)
  rw [h]
  refine (alloc_spec _).bind ?_
  rintro _ _ (⟨output, _⟩ | ⟨h⟩)
  · refine (change_spec output _).bind ?_
    intro r R hr
    exact keepIf_spec hr
  · exact .ret (.null (Or.inr (fails_of_some h)))

theorem hybridSm2Sign_spec (privateKey : PKey) (message rnd : Bytes) :
    Spec plan 0 (hybridSm2Sign C privateKey message rnd)
      (Yields plan (HybridPqc.hybridSm2Sign C privateKey message rnd)) := by
  refine (alloc_spec ()).bind ?_
  rintro _ _ (⟨context, _⟩ | ⟨h⟩)
  swap
  · exact .ret (.null (Or.inr (fails_of_some h)))
  refine initContext_spec.step context.owned (Multiset.zero_add _).symm ?_
  rintro ready _ hready
  refine Spec.step (Q := Yields plan (HybridPqc.hybridSm2Sign C privateKey message rnd))
    context.owned ?_ rfl ?_
  · rcases hready with h | h
    · exact digestSign_spec C privateKey message rnd
    · exact .ret (.null (Or.inr (fails_of_true h)))
  intro signature R hsignature
  refine (freeObj_spec context).release R (add_comm _ _) ?_
  exact .ret hsignature

theorem hybridSm2Verify_spec (publicKey : PKey) (message signature : Bytes) :
    Spec plan 0 (hybridSm2Verify C publicKey message signature)
      (Decides plan (HybridPqc.hybridSm2Verify C publicKey message signature)) := by
  refine (alloc_spec ()).bind ?_
  rintro _ _ (⟨context, _⟩ | ⟨h⟩)
  swap
  · exact .ret (.no (Or.inr (fails_of_some h)))
  refine initContext_spec.step context.owned (Multiset.zero_add _).symm ?_
  intro ready R hready
  refine (also_spec hready fun _ => test_spec _).step context.owned rfl ?_
  intro result R hresult
  refine (freeObj_spec context).release R (add_comm _ _) ?_
  exact .ret hresult

/-! ## Signing and verifying -/

/-- The calls of `composite_sign` in order; each needs what the ones before it have returned. -/
theorem compositeSign_eq {key : HybridPrivateKey PKey} {sm2 : PKey}
    (hk : key.sm2PrivateKey = some sm2) (message ctx : CArg) (rnd : Bytes) :
    let m := HybridPqc.compositeBuildMessage C message ctx
    let d := m.bind (HybridPqc.dilithiumSign C key.dilithiumSecretKey)
    let s := d.bind fun _ => m.bind fun m => HybridPqc.hybridSm2Sign C sm2 m rnd
    HybridPqc.compositeSign C key message ctx rnd =
      s.bind fun s => d.bind fun d => HybridPqc.compositeSerializeSignature C d s := by
  simp only [HybridPqc.compositeSign, hk]
  cases HybridPqc.compositeBuildMessage C message ctx with
  | none => rfl
  | some m =>
    simp only [Option.bind_some]
    cases HybridPqc.dilithiumSign C key.dilithiumSecretKey m with
    | none => rfl
    | some d =>
      simp only [Option.bind_some]
      cases HybridPqc.hybridSm2Sign C sm2 m rnd with
      | none => rfl
      | some s => rfl

theorem compositeSign_spec (key : HybridPrivateKey PKey) (message ctx : CArg) (rnd : Bytes) :
    Spec plan 0 (compositeSign C key message ctx rnd)
      (Yields plan (HybridPqc.compositeSign C key message ctx rnd)) := by
  cases hk : key.sm2PrivateKey with
  | none =>
    simp only [compositeSign, HybridPqc.compositeSign, hk]
    exact .ret (.null (Or.inl rfl))
  | some sm2 =>
    rw [compositeSign_eq C hk]
    simp only [compositeSign, hk]
    refine (compositeBuildMessage_spec C message ctx).bind ?_
    generalize HybridPqc.compositeBuildMessage C message ctx = om
    intro mPrime Rm hm
    -- the Dilithium2 component
    refine Spec.bind (Q := Beside Rm
      (Yields plan (om.bind (HybridPqc.dilithiumSign C key.dilithiumSecretKey)))) ?_ ?_
    · refine (reading_spec hm ?_ ?_).pre (add_zero _).symm
      · exact fun h => .null (h.imp_left fun h0 => by rw [h0]; rfl)
      · rintro m rfl
        exact dilithiumSign_spec C _ m
    generalize om.bind (HybridPqc.dilithiumSign C key.dilithiumSecretKey) = od
    rintro dilithiumSignature _ ⟨Rd, hd, rfl⟩
    -- the SM2 component
    refine Spec.step (Q := Beside Rm (Yields plan (od.bind fun _ => om.bind fun m =>
      HybridPqc.hybridSm2Sign C sm2 m rnd))) (P := Rm) Rd ?_ (add_comm _ _) ?_
    · refine guarded_spec ?_ ?_
      · intro hnone
        refine ⟨0, .null ?_, (zero_add _).symm⟩
        rw [Option.isSome_eq_false_iff, Option.isNone_iff_eq_none] at hnone
        subst hnone
        exact hd.of_null.imp_left fun h0 => by rw [h0]; rfl
      · intro hsome
        obtain ⟨q, rfl⟩ := Option.isSome_iff_exists.mp hsome
        rw [hd.val_eq rfl, Option.bind_some]
        refine (reading_spec hm ?_ ?_).pre (add_zero _).symm
        · exact fun h => .null (h.imp_left fun h0 => by rw [h0]; rfl)
        · rintro m rfl
          exact hybridSm2Sign_spec C sm2 m rnd
    generalize (od.bind fun _ => om.bind fun m => HybridPqc.hybridSm2Sign C sm2 m rnd) = os
    rintro sm2Signature _ ⟨Rs, hs, rfl⟩
    -- both in one buffer
    refine Spec.step (Q := Beside Rs (Beside Rd (Yields plan (os.bind fun s => od.bind fun d =>
      HybridPqc.compositeSerializeSignature C d s)))) (P := Rs + Rd) Rm ?_ (by ac_rfl) ?_
    · refine reading_spec hs ?_ ?_
      · exact fun h => ⟨0, .null (h.imp_left fun h0 => by rw [h0]; rfl), (zero_add _).symm⟩
      · rintro s rfl
        refine (reading_spec hd ?_ ?_).pre (add_zero _).symm
        · exact fun h => .null (h.imp_left fun h0 => by rw [h0]; rfl)
        · rintro d rfl
          exact compositeSerializeSignature_spec C d s
    rintro signature _ ⟨_, ⟨R, hsignature, rfl⟩, rfl⟩
    rw [hm.owned, hd.owned, hs.owned]
    refine (free_spec mPrime).release (R + Obj.ownedOpt dilithiumSignature +
      Obj.ownedOpt sm2Signature) (by ac_rfl) ?_
    refine (free_spec dilithiumSignature).release (R + Obj.ownedOpt sm2Signature)
      (by ac_rfl) ?_
    refine (free_spec sm2Signature).release R (by ac_rfl) ?_
    exact .ret hsignature

/-- Every flag that is set is set in `v` too. -/
structure VerifyResultBelow (r v : CompositeVerifyResult) : Prop where
  formatValid : r.formatValid → v.formatValid
  dilithiumValid : r.dilithiumValid → v.dilithiumValid
  sm2Valid : r.sm2Valid → v.sm2Valid
  compositeValid : r.compositeValid → v.compositeValid

theorem VerifyResultBelow.refl (v : CompositeVerifyResult) : VerifyResultBelow v v :=
  ⟨id, id, id, id⟩

theorem compositeVerifyDetailed_spec (key : HybridPublicKey PKey) (message ctx : CArg)
    (signature : Bytes) :
    Spec plan 0 (compositeVerifyDetailed C key message ctx signature)
      (Reports plan VerifyResultBelow
        (HybridPqc.compositeVerifyDetailed C key message ctx signature)) := by
  simp only [compositeVerifyDetailed, HybridPqc.compositeVerifyDetailed]
  cases key.sm2PublicKey with
  | none => exact .ret ⟨rfl, .refl _, Or.inl rfl⟩
  | some sm2 =>
    refine (compositeParseSignature_spec C signature).bind ?_
    rintro _ _ (⟨⟨d, s⟩, h⟩ | ⟨h⟩)
    swap
    · refine .ret ⟨rfl, ⟨?_, ?_, ?_, ?_⟩, h.imp_left ?_⟩
      · exact fun h0 => by cases h0
      · exact fun h0 => by cases h0
      · exact fun h0 => by cases h0
      · exact fun h0 => by cases h0
      · intro h0
        rw [h0]
    rw [h]
    refine (compositeBuildMessage_spec C message ctx).bind ?_
    rintro _ _ (⟨mPrime, h⟩ | ⟨h⟩)
    swap
    · refine .ret ⟨rfl, ⟨?_, ?_, ?_, ?_⟩, h.imp_left ?_⟩
      · intro _
        cases HybridPqc.compositeBuildMessage C message ctx with
        | none => rfl
        | some m => rfl
      · exact fun h0 => by cases h0
      · exact fun h0 => by cases h0
      · exact fun h0 => by cases h0
      · intro h0
        rw [h0]
    rw [h]
    refine (touch_spec mPrime).bind ?_
    rintro _ _ rfl
    refine (hybridSm2Verify_spec C sm2 mPrime.val s).step mPrime.owned (zero_add _).symm ?_
    intro sm2Valid R hvalid
    refine (freeObj_spec mPrime).release R (add_comm _ _) ?_
    refine .ret ?_
    cases hvalid with
    | yes hv =>
      simp only [hv]
      exact ⟨rfl, .refl _, Or.inl rfl⟩
    | no hv =>
      refine ⟨rfl, ⟨id, id, ?_, ?_⟩, hv.imp_left ?_⟩
      · exact fun h0 => by cases h0
      · simp
      · intro h0
        simp [h0]

end

end Memory

end HybridPqc
