import HybridPqc.Composite.SignVerify

/-!
# Composite.HybridSign

`hybrid_sign.c`: the older interface, which keeps the two components of a signature apart.

Here allocations may fail. A `…Memory` says which of a call's allocations succeed; `ample` means all
of them. A component that is not `NULL` points to at least as many bytes as its length says
(`HybridComponent.readable`).

`hybridVerify_true_iff` and `hybridSign_cases` say what the two functions do in terms of the
composite ones; `HybridOp.run_inv` is the invariant of a structure in use.
-/

namespace HybridPqc

/-! ## Allocations -/

/-- The result of a function that allocates. -/
def allocate {α : Type} (ok : Bool) (r : Option α) : Option α := if ok then r else none

@[simp] theorem allocate_true {α : Type} (r : Option α) : allocate true r = r := rfl

theorem allocate_eq_some {α : Type} {ok : Bool} {r : Option α} {x : α} :
    allocate ok r = some x ↔ ok = true ∧ r = some x := by
  cases ok with
  | false => simp [allocate]
  | true => simp

/-- The allocations of `composite_sign`: in the function for `M'`, in the two signers and in the
serializer. -/
structure SignMemory where
  message : Bool
  dilithium : Bool
  sm2 : Bool
  serialize : Bool

/-- The allocations of `composite_verify`; the Dilithium2 verifier has none. -/
structure VerifyMemory where
  parse : Bool
  message : Bool
  sm2 : Bool

structure HybridSignMemory where
  sign : SignMemory
  parse : Bool
  dilithiumCopy : Bool
  sm2Copy : Bool

structure HybridVerifyMemory where
  serialize : Bool
  verify : VerifyMemory

def SignMemory.ample : SignMemory := ⟨true, true, true, true⟩
def VerifyMemory.ample : VerifyMemory := ⟨true, true, true⟩
def HybridSignMemory.ample : HybridSignMemory := ⟨.ample, true, true, true⟩
def HybridVerifyMemory.ample : HybridVerifyMemory := ⟨true, .ample⟩

/-! ## `HYBRID_SIGNATURE` -/

/-- A pointer of the structure with its length: what is in the memory behind it, `none` for
`NULL`. -/
structure HybridComponent where
  memory : Option Bytes
  len : Nat
  readable : ∀ b, memory = some b → len ≤ b.length

namespace HybridComponent

def null : HybridComponent := ⟨none, 0, fun _ _ => Nat.zero_le _⟩

/-- The component as a `(pointer, length)` argument. -/
def arg (c : HybridComponent) : CArg :=
  match c.memory with
  | none => .null c.len
  | some b => .buf (b.take c.len)

/-- A component whose pointer is fresh from `malloc(n)`. -/
def malloc (ok : Bool) (n : Nat) : HybridComponent :=
  ⟨if ok then some (Bytes.zeros n) else none, 0, fun _ _ => Nat.zero_le _⟩

/-- `memcpy` to the start of the memory, and the length stored. -/
def fill (c : HybridComponent) (src : Bytes) : HybridComponent where
  memory := c.memory.map (·.write 0 src)
  len := src.length
  readable b h := by
    obtain ⟨m, _, rfl⟩ := Option.map_eq_some_iff.mp h
    simp [Bytes.write]

/-- Exactly the given bytes. -/
def ofBytes (b : Bytes) : HybridComponent where
  memory := some b
  len := b.length
  readable _ h := by
    cases h
    exact Nat.le_refl _

theorem arg_ofBytes (b : Bytes) : (ofBytes b).arg = .buf b := by
  simp [arg, ofBytes]

theorem fill_malloc (b : Bytes) : (malloc true b.length).fill b = ofBytes b := by
  have hcopy : (Bytes.zeros b.length).write 0 b = b := by
    rw [Bytes.write_zeros, Nat.sub_self, Bytes.zeros, List.replicate_zero, List.append_nil]
  simp [fill, malloc, ofBytes, hcopy]

end HybridComponent

structure HybridSignature where
  sm2Signature : HybridComponent
  dilithiumSignature : HybridComponent

namespace HybridSignature

/-- All fields `NULL` or 0. -/
def empty : HybridSignature := ⟨.null, .null⟩

/-- Both components, with their exact lengths. -/
def ofParts (dilithiumSignature sm2Signature : Bytes) : HybridSignature :=
  ⟨.ofBytes sm2Signature, .ofBytes dilithiumSignature⟩

end HybridSignature

/-! ## The functions -/

def hybridSignatureInit (signature : Option HybridSignature) : Option HybridSignature :=
  signature.map fun _ => .empty

/-- `hybrid_signature_cleanup`, which frees what the structure points to. -/
def hybridSignatureCleanup (signature : Option HybridSignature) : Option HybridSignature :=
  match signature with
  | none => none
  | some signature => hybridSignatureInit (some signature)

/-- A key argument copied into an array, if it is not `NULL` and has the length of the array. -/
def keyBlock (n : Nat) (key : CArg) : Option (Block n) :=
  match key with
  | .null _ => none
  | .buf b => Block.ofBytes? n b

section

variable {PKey : Type} (C : Crypto PKey)

/-- `composite_sign` with failing allocations. -/
def compositeSignMem (mem : SignMemory) (key : HybridPrivateKey PKey) (message ctx : CArg)
    (rnd : Bytes) : Option Bytes :=
  match key.sm2PrivateKey with
  | none => none
  | some sm2 =>
    match allocate mem.message (compositeBuildMessage C message ctx) with
    | none => none
    | some mPrime =>
      match allocate mem.dilithium (dilithiumSign C key.dilithiumSecretKey mPrime) with
      | none => none
      | some dilithiumSignature =>
        match allocate mem.sm2 (hybridSm2Sign C sm2 mPrime rnd) with
        | none => none
        | some sm2Signature =>
          allocate mem.serialize (compositeSerializeSignature C dilithiumSignature sm2Signature)

/-- `composite_verify` with failing allocations. -/
def compositeVerifyMem (mem : VerifyMemory) (key : HybridPublicKey PKey) (message ctx : CArg)
    (signature : Bytes) : Bool :=
  match key.sm2PublicKey with
  | none => false
  | some sm2 =>
    match allocate mem.parse (compositeParseSignature C signature) with
    | none => false
    | some (dilithiumSignature, sm2Signature) =>
      match allocate mem.message (compositeBuildMessage C message ctx) with
      | none => false
      | some mPrime =>
        dilithiumVerify C key.dilithiumPublicKey mPrime dilithiumSignature &&
          (mem.sm2 && hybridSm2Verify C sm2 mPrime sm2Signature)

/-- `composite_serialize_signature` of arguments that may be `NULL`. -/
def compositeSerializeSignatureArgs (dilithiumSignature sm2SignatureDer : CArg) : Option Bytes :=
  match dilithiumSignature with
  | .null _ => none
  | .buf dilithiumSignature =>
    match sm2SignatureDer with
    | .null _ => none
    | .buf sm2SignatureDer => compositeSerializeSignature C dilithiumSignature sm2SignatureDer

def hybridSign (mem : HybridSignMemory) (sm2PrivateKey : Option PKey)
    (dilithiumSecretKey message : CArg) (rnd : Bytes) (signature : Option HybridSignature) :
    Bool × Option HybridSignature :=
  match signature with
  | none => (false, none)
  | some signature =>
    let signature := hybridSignatureCleanup (some signature)
    match sm2PrivateKey with
    | none => (false, hybridSignatureCleanup signature)
    | some sm2 =>
      match keyBlock dilithiumSecretKeyBytes dilithiumSecretKey with
      | none => (false, hybridSignatureCleanup signature)
      | some dilithium =>
        match compositeSignMem C mem.sign ⟨some sm2, dilithium⟩ message (.null 0) rnd with
        | none => (false, hybridSignatureCleanup signature)
        | some serialized =>
          match allocate mem.parse (compositeParseSignature C serialized) with
          | none => (false, hybridSignatureCleanup signature)
          | some (dilithiumComponent, sm2Component) =>
            let dilithiumSignature :=
              HybridComponent.malloc mem.dilithiumCopy dilithiumComponent.length
            let sm2Signature := HybridComponent.malloc mem.sm2Copy sm2Component.length
            if dilithiumSignature.memory = none ∨ sm2Signature.memory = none then
              (false, hybridSignatureCleanup (some ⟨sm2Signature, dilithiumSignature⟩))
            else
              (true, some ⟨sm2Signature.fill sm2Component,
                dilithiumSignature.fill dilithiumComponent⟩)

def hybridVerify (mem : HybridVerifyMemory) (sm2PublicKey : Option PKey)
    (dilithiumPublicKey message : CArg) (signature : Option HybridSignature) : Bool :=
  match signature with
  | none => false
  | some signature =>
    match sm2PublicKey with
    | none => false
    | some sm2 =>
      match keyBlock dilithiumPublicKeyBytes dilithiumPublicKey with
      | none => false
      | some dilithium =>
        match allocate mem.serialize (compositeSerializeSignatureArgs C
            signature.dilithiumSignature.arg signature.sm2Signature.arg) with
        | none => false
        | some serialized =>
          compositeVerifyMem C mem.verify ⟨some sm2, dilithium⟩ message (.null 0) serialized

end

/-- A call on a structure in use. -/
inductive HybridOp (PKey : Type) where
  | sign (mem : HybridSignMemory) (sm2PrivateKey : Option PKey)
      (dilithiumSecretKey message : CArg) (rnd : Bytes)
  | cleanup

namespace HybridOp

variable {PKey : Type} (C : Crypto PKey)

def step (signature : Option HybridSignature) : HybridOp PKey → Option HybridSignature
  | .sign mem sm2PrivateKey dilithiumSecretKey message rnd =>
    (hybridSign C mem sm2PrivateKey dilithiumSecretKey message rnd signature).2
  | .cleanup => hybridSignatureCleanup signature

def run (ops : List (HybridOp PKey)) (signature : Option HybridSignature) :
    Option HybridSignature :=
  ops.foldl (step C) signature

end HybridOp

section

variable {PKey : Type} {C : Crypto PKey} {limit : Nat} {message ctx : CArg}

/-! ## Failing allocations -/

/-- What is signed although allocations may fail is what would be signed otherwise. -/
theorem compositeSignMem_some {mem : SignMemory} {key : HybridPrivateKey PKey} {rnd x : Bytes}
    (h : compositeSignMem C mem key message ctx rnd = some x) :
    compositeSign C key message ctx rnd = some x := by
  simp only [compositeSignMem] at h
  split at h
  · cases h
  rename_i sm2 hsm2
  split at h
  · cases h
  rename_i m hm
  split at h
  · cases h
  rename_i d hd
  split at h
  · cases h
  rename_i s hs
  exact compositeSign_some_iff.mpr ⟨sm2, m, d, s, hsm2, (allocate_eq_some.mp hm).2,
    (allocate_eq_some.mp hd).2, (allocate_eq_some.mp hs).2, (allocate_eq_some.mp h).2⟩

theorem compositeSignMem_ample (key : HybridPrivateKey PKey) (rnd : Bytes) :
    compositeSignMem C .ample key message ctx rnd = compositeSign C key message ctx rnd := rfl

theorem compositeVerifyMem_ample (key : HybridPublicKey PKey) (signature : Bytes) :
    compositeVerifyMem C .ample key message ctx signature =
      compositeVerify C key message ctx signature := by
  simp only [compositeVerifyMem, compositeVerify, compositeVerifyDetailed, VerifyMemory.ample,
    allocate_true, Bool.true_and]
  cases key.sm2PublicKey with
  | none => rfl
  | some sm2 =>
    cases compositeParseSignature C signature with
    | none => rfl
    | some p =>
      cases compositeBuildMessage C message ctx with
      | none => rfl
      | some m => rfl

theorem compositeVerifyMem_true {mem : VerifyMemory} {key : HybridPublicKey PKey}
    {signature : Bytes} (h : compositeVerifyMem C mem key message ctx signature = true) :
    compositeVerify C key message ctx signature = true := by
  simp only [compositeVerifyMem] at h
  split at h
  · cases h
  rename_i sm2 hsm2
  split at h
  · cases h
  rename_i d s hp
  split at h
  · cases h
  rename_i m hm
  simp only [Bool.and_eq_true] at h
  exact compositeVerifyDetailed_valid_iff.mpr ⟨sm2, d, s, m, hsm2, (allocate_eq_some.mp hp).2,
    (allocate_eq_some.mp hm).2, h.1, h.2.2⟩

/-! ## The adapter and the core -/

theorem keyBlock_eq_some {n : Nat} {key : CArg} {b : Block n} :
    keyBlock n key = some b ↔ key = .buf b.val := by
  cases key with
  | null m => simp [keyBlock]
  | buf a => simp [keyBlock, Block.ofBytes?_eq_some, eq_comm]

theorem compositeSerializeSignatureArgs_some_iff {d s : CArg} {x : Bytes} :
    compositeSerializeSignatureArgs C d s = some x ↔
      ∃ b der : Bytes, d = .buf b ∧ b.length = dilithiumSignatureBytes ∧ s = .buf der ∧
        sm2SignatureDerIsValid C der = true ∧ x = b ++ der := by
  constructor
  · intro h
    cases d with
    | null n => cases h
    | buf b =>
      cases s with
      | null n => cases h
      | buf der =>
        have hp := compositeParseSignature_serialize (C := C) h
        obtain ⟨hl, hv, rfl⟩ := compositeParseSignature_some_iff.mp hp
        exact ⟨b, der, rfl, hl, rfl, hv, rfl⟩
  · rintro ⟨b, der, rfl, hl, rfl, hv, rfl⟩
    exact compositeSerializeSignature_eq hl hv

/-- `hybrid_verify` is `composite_verify` of the components put together. -/
theorem hybridVerify_true_iff {mem : HybridVerifyMemory} {sm2PublicKey : Option PKey}
    {dilithiumPublicKey : CArg} {signature : Option HybridSignature} :
    hybridVerify C mem sm2PublicKey dilithiumPublicKey message signature = true ↔
      mem.serialize = true ∧ ∃ sm2 pk sig, ∃ d der : Bytes, sm2PublicKey = some sm2 ∧
        dilithiumPublicKey = .buf (pk : Block dilithiumPublicKeyBytes).val ∧
        signature = some sig ∧ sig.dilithiumSignature.arg = .buf d ∧
        d.length = dilithiumSignatureBytes ∧ sig.sm2Signature.arg = .buf der ∧
        sm2SignatureDerIsValid C der = true ∧
        compositeVerifyMem C mem.verify ⟨some sm2, pk⟩ message (.null 0) (d ++ der) = true := by
  constructor
  · intro h
    simp only [hybridVerify] at h
    split at h
    · cases h
    rename_i sig
    split at h
    · cases h
    rename_i sm2
    split at h
    · cases h
    rename_i pk hpk
    split at h
    · cases h
    rename_i x hx
    obtain ⟨hmem, hser⟩ := allocate_eq_some.mp hx
    obtain ⟨d, der, hd, hl, hs, hv, rfl⟩ := compositeSerializeSignatureArgs_some_iff.mp hser
    exact ⟨hmem, sm2, pk, sig, d, der, rfl, keyBlock_eq_some.mp hpk, rfl, hd, hl, hs, hv, h⟩
  · rintro ⟨hmem, sm2, pk, sig, d, der, rfl, rfl, rfl, hd, hl, hs, hv, h⟩
    have hser := compositeSerializeSignatureArgs_some_iff.mpr ⟨d, der, hd, hl, hs, hv, rfl⟩
    simp only [hybridVerify, keyBlock_eq_some.mpr rfl, allocate_eq_some.mpr ⟨hmem, hser⟩, h]

theorem hybridVerify_ample_iff (hC : EcdsaSigCodec limit C) {sm2PublicKey : Option PKey}
    {dilithiumPublicKey : CArg} {signature : Option HybridSignature} :
    hybridVerify C .ample sm2PublicKey dilithiumPublicKey message signature = true ↔
      ∃ sm2 pk sig, ∃ d der : Bytes, sm2PublicKey = some sm2 ∧
        dilithiumPublicKey = .buf (pk : Block dilithiumPublicKeyBytes).val ∧
        signature = some sig ∧ sig.dilithiumSignature.arg = .buf d ∧
        d.length = dilithiumSignatureBytes ∧ sig.sm2Signature.arg = .buf der ∧
        (∃ r s : Nat, 0 < r ∧ 0 < s ∧ der = ecdsaSigDer r s) ∧
        compositeVerify C ⟨some sm2, pk⟩ message (.null 0) (d ++ der) = true := by
  rw [hybridVerify_true_iff]
  constructor
  · rintro ⟨_, sm2, pk, sig, d, der, hk, hpk, hsig, hd, hl, hs, hv, h⟩
    obtain ⟨r, s, hr, hs', hder, _⟩ := (sm2SignatureDerIsValid_iff hC).mp hv
    exact ⟨sm2, pk, sig, d, der, hk, hpk, hsig, hd, hl, hs, ⟨r, s, hr, hs', hder⟩,
      compositeVerifyMem_true h⟩
  · rintro ⟨sm2, pk, sig, d, der, hk, hpk, hsig, hd, hl, hs, _, h⟩
    -- the verifier parses the same two parts, so the second passes the DER check
    obtain ⟨_, d', der', _, _, hp, _⟩ := compositeVerify_iff.mp h
    obtain ⟨hl', hv, heq⟩ := compositeParseSignature_some_iff.mp hp
    obtain ⟨rfl, rfl⟩ := List.append_inj heq (hl.trans hl'.symm)
    exact ⟨rfl, sm2, pk, sig, d, der, hk, hpk, hsig, hd, hl, hs, hv,
      (compositeVerifyMem_ample _ _).trans h⟩

/-- A verifier that runs out of memory rejects. -/
theorem hybridVerify_ample_of_true {mem : HybridVerifyMemory} {sm2PublicKey : Option PKey}
    {dilithiumPublicKey : CArg} {signature : Option HybridSignature}
    (h : hybridVerify C mem sm2PublicKey dilithiumPublicKey message signature = true) :
    hybridVerify C .ample sm2PublicKey dilithiumPublicKey message signature = true := by
  obtain ⟨_, sm2, pk, sig, d, der, hk, hpk, hsig, hd, hl, hs, hv, h⟩ := hybridVerify_true_iff.mp h
  refine hybridVerify_true_iff.mpr ⟨rfl, sm2, pk, sig, d, der, hk, hpk, hsig, hd, hl, hs, hv, ?_⟩
  rw [show HybridVerifyMemory.ample.verify = .ample from rfl, compositeVerifyMem_ample]
  exact compositeVerifyMem_true h

/-- What `composite_sign` makes is taken apart again by `composite_parse_signature`. -/
theorem compositeSign_parts {key : HybridPrivateKey PKey} {rnd x : Bytes}
    (h : compositeSign C key message ctx rnd = some x) :
    ∃ d der, compositeParseSignature C x = some (d, der) ∧ x = d ++ der ∧
      d.length = dilithiumSignatureBytes ∧ sm2SignatureDerIsValid C der = true := by
  obtain ⟨_, _, d, der, _, _, _, _, hser⟩ := compositeSign_some_iff.mp h
  have hp := compositeParseSignature_serialize hser
  obtain ⟨hl, hv, heq⟩ := compositeParseSignature_some_iff.mp hp
  exact ⟨d, der, hp, heq, hl, hv⟩

/-- From a composite signature on, only memory can run out. -/
theorem hybridSign_of_signed {mem : HybridSignMemory} {sm2 : PKey}
    {sk : Block dilithiumSecretKeyBytes} {rnd d der : Bytes}
    (hsign : compositeSignMem C mem.sign ⟨some sm2, sk⟩ message (.null 0) rnd = some (d ++ der))
    (hp : compositeParseSignature C (d ++ der) = some (d, der)) (sig : HybridSignature) :
    hybridSign C mem (some sm2) (.buf sk.val) message rnd (some sig) =
      if mem.parse && mem.dilithiumCopy && mem.sm2Copy then (true, some (.ofParts d der))
      else (false, some .empty) := by
  simp only [hybridSign, keyBlock_eq_some.mpr rfl, hsign, hp]
  cases mem.parse with
  | false => rfl
  | true =>
    cases mem.dilithiumCopy with
    | false => rfl
    | true =>
      cases mem.sm2Copy with
      | false => rfl
      | true =>
        simp only [allocate_true, HybridComponent.fill_malloc]
        rfl

/-- The two outcomes of `hybrid_sign`. -/
theorem hybridSign_cases (mem : HybridSignMemory) (sm2PrivateKey : Option PKey)
    (dilithiumSecretKey message : CArg) (rnd : Bytes) (sig : HybridSignature) :
    hybridSign C mem sm2PrivateKey dilithiumSecretKey message rnd (some sig) =
        (false, some .empty) ∨
      ∃ sm2 sk, ∃ d der : Bytes, sm2PrivateKey = some sm2 ∧
        dilithiumSecretKey = .buf (sk : Block dilithiumSecretKeyBytes).val ∧
        compositeSign C ⟨some sm2, sk⟩ message (.null 0) rnd = some (d ++ der) ∧
        d.length = dilithiumSignatureBytes ∧ sm2SignatureDerIsValid C der = true ∧
        hybridSign C mem sm2PrivateKey dilithiumSecretKey message rnd (some sig) =
          (true, some (.ofParts d der)) := by
  cases sm2PrivateKey with
  | none => exact Or.inl rfl
  | some sm2 =>
    cases hkey : keyBlock dilithiumSecretKeyBytes dilithiumSecretKey with
    | none =>
      refine Or.inl ?_
      simp only [hybridSign, hkey]
      rfl
    | some sk =>
      cases hsign : compositeSignMem C mem.sign ⟨some sm2, sk⟩ message (.null 0) rnd with
      | none =>
        refine Or.inl ?_
        simp only [hybridSign, hkey, hsign]
        rfl
      | some x =>
        have hcore := compositeSignMem_some hsign
        obtain ⟨d, der, hp, rfl, hl, hv⟩ := compositeSign_parts hcore
        obtain rfl := keyBlock_eq_some.mp hkey
        rw [hybridSign_of_signed hsign hp]
        split
        · exact Or.inr ⟨sm2, sk, d, der, rfl, rfl, hcore, hl, hv, rfl⟩
        · exact Or.inl rfl

/-- With memory enough, `hybrid_sign` succeeds when `composite_sign` does. -/
theorem hybridSign_ample_iff {sm2PrivateKey : Option PKey} {dilithiumSecretKey message : CArg}
    {rnd : Bytes} {sig : HybridSignature} :
    (hybridSign C .ample sm2PrivateKey dilithiumSecretKey message rnd (some sig)).1 = true ↔
      ∃ sm2 sk x, sm2PrivateKey = some sm2 ∧
        dilithiumSecretKey = .buf (sk : Block dilithiumSecretKeyBytes).val ∧
        compositeSign C ⟨some sm2, sk⟩ message (.null 0) rnd = some x := by
  constructor
  · intro h
    obtain heq | ⟨sm2, sk, d, der, hsm2, hsk, hsign, _⟩ :=
      hybridSign_cases .ample sm2PrivateKey dilithiumSecretKey message rnd sig
    · rw [heq] at h
      cases h
    · exact ⟨sm2, sk, _, hsm2, hsk, hsign⟩
  · rintro ⟨sm2, sk, x, rfl, rfl, hsign⟩
    obtain ⟨d, der, hp, rfl, _⟩ := compositeSign_parts hsign
    have hmem : compositeSignMem C HybridSignMemory.ample.sign ⟨some sm2, sk⟩ message
      (.null 0) rnd =
        some (d ++ der) := hsign
    rw [hybridSign_of_signed hmem hp]
    rfl

/-- What the older signer makes, the older verifier accepts. -/
theorem hybridVerify_ofParts (hC : EcdsaSigCodec limit C) (hsm2 : Sm2Correct C)
    {privateKey : HybridPrivateKey PKey} {sm2 : PKey} {pk : Block dilithiumPublicKeyBytes}
    (hkeys : CorrespondingKeys C privateKey ⟨some sm2, pk⟩) {rnd d der : Bytes}
    (hsign : compositeSign C privateKey message (.null 0) rnd = some (d ++ der))
    (hl : d.length = dilithiumSignatureBytes) (hv : sm2SignatureDerIsValid C der = true) :
    hybridVerify C .ample (some sm2) (.buf pk.val) message (some (.ofParts d der)) = true := by
  obtain ⟨r, s, hr, hs, hder, _⟩ := (sm2SignatureDerIsValid_iff hC).mp hv
  exact (hybridVerify_ample_iff hC).mpr ⟨sm2, pk, _, d, der, rfl, rfl, rfl,
    HybridComponent.arg_ofBytes d, hl, HybridComponent.arg_ofBytes der, ⟨r, s, hr, hs, hder⟩,
    compositeVerify_sign hsm2 hkeys hsign⟩

/-! ## A structure in use -/

/-- The structure is empty or holds both components with their exact lengths. -/
def HybridSignature.Inv (C : Crypto PKey) (sig : HybridSignature) : Prop :=
  sig = .empty ∨ ∃ d der : Bytes, sig = .ofParts d der ∧ d.length = dilithiumSignatureBytes ∧
    sm2SignatureDerIsValid C der = true

/-- Every call starts by emptying the structure. -/
theorem HybridOp.step_inv (sig : HybridSignature) (op : HybridOp PKey) :
    ∃ sig', HybridOp.step C (some sig) op = some sig' ∧ sig'.Inv C := by
  cases op with
  | cleanup => exact ⟨.empty, rfl, Or.inl rfl⟩
  | sign mem sm2PrivateKey dilithiumSecretKey message rnd =>
    obtain heq | ⟨_, _, d, der, _, _, _, hl, hv, heq⟩ :=
      hybridSign_cases mem sm2PrivateKey dilithiumSecretKey message rnd sig
    · exact ⟨.empty, congrArg Prod.snd heq, Or.inl rfl⟩
    · exact ⟨.ofParts d der, congrArg Prod.snd heq, Or.inr ⟨d, der, rfl, hl, hv⟩⟩

/-- By induction on the calls. -/
theorem HybridOp.run_inv {sig : HybridSignature} (h : sig.Inv C) (ops : List (HybridOp PKey)) :
    ∃ sig', HybridOp.run C ops (some sig) = some sig' ∧ sig'.Inv C := by
  induction ops generalizing sig with
  | nil => exact ⟨sig, rfl, h⟩
  | cons op ops ih =>
    obtain ⟨sig', hstep, h'⟩ := HybridOp.step_inv sig op
    obtain ⟨sig'', hrun, h''⟩ := ih h'
    refine ⟨sig'', ?_, h''⟩
    rw [HybridOp.run, List.foldl_cons, hstep]
    exact hrun

end

namespace Toy

theorem beNat_ne_zero {x : UInt8} (h : x ≠ 0) (b : Bytes) : beNat (x :: b) ≠ 0 := by
  intro hz
  have hb : beBytes (beNat (x :: b)) = x :: b := beBytes_beNat (by simpa using h)
  rw [hz] at hb
  cases hb

/-- A number whose octets start below 128 is its own INTEGER contents. -/
theorem natContent_beNat {x : UInt8} (h0 : x ≠ 0) (h : x.toNat < 128) (b : Bytes) :
    Ber.natContent (beNat (x :: b)) = x :: b := by
  rw [Ber.natContent, if_neg (beNat_ne_zero h0 b), beBytes_beNat (by simpa using h0),
    if_neg (by simpa [Ber.topBit] using h)]

theorem nonce_ne_zero (rnd : Bytes) : nonce rnd ≠ 0 := by
  intro h
  have hr := small_nonce rnd
  rw [h] at hr
  cases hr

/-- The signatures of `crypto` are DER. -/
theorem sigDer_eq {k : Bytes} (hk : isPoint k = true) (rnd : Bytes) :
    sigDer (nonce rnd) k = ecdsaSigDer (beNat [nonce rnd]) (beNat (0x01 :: k)) := by
  have hr := small_nonce rnd
  simp only [small, Bool.and_eq_true, decide_eq_true_eq] at hr
  simp only [isPoint, Bool.and_eq_true, beq_iff_eq] at hk
  rw [ecdsaSigDer, Ber.encodeNats, Ber.natsElement, List.map_cons, List.map_cons, List.map_nil,
    natContent_beNat (nonce_ne_zero rnd) hr.2, natContent_beNat (by decide) (by decide)]
  simp [Ber.encode, Ber.encodeAll, Ber.encodeLength, sigDer, hk.1]

theorem derSm2Correct : Sm2Correct derCrypto := sm2Correct

theorem derSm2Signs : Sm2Signs derCrypto := by
  intro k m rnd hk
  have hk : isPoint k = true := hk
  refine ⟨sigDer (nonce rnd) k, digestSign_eq hk m rnd, ?_⟩
  refine (sm2SignatureDerIsValid_iff ecdsaSigCodec).mpr ⟨_, _, ?_, ?_, sigDer_eq hk rnd, ?_⟩
  · exact Nat.pos_of_ne_zero (beNat_ne_zero (nonce_ne_zero rnd) [])
  · exact Nat.pos_of_ne_zero (beNat_ne_zero (by decide) k)
  · simp only [isPoint, Bool.and_eq_true, beq_iff_eq] at hk
    simp [sigDer, hk.1, ecdsaSigMax]

/-- Signing with an empty context always succeeds. -/
theorem derCompositeSign_some (x : UInt8) (message rnd : Bytes) :
    ∃ sig, compositeSign derCrypto (privateKey x) (.buf message) (.null 0) rnd = some sig := by
  obtain ⟨m, hm, hl⟩ : ∃ m, compositeBuildMessage derCrypto (.buf message) (.null 0) = some m ∧
      m.length ≤ 2419 := by
    refine ⟨_, compositeBuildMessage_eq rfl rfl (Nat.zero_le _) rfl (digest_length message), ?_⟩
    simp [compositeSignaturePrefix_length, compositeSignatureLabel_length, digest_length,
      CArg.bytes]
  have hkey : (privateKey x).sm2PrivateKey = some (sm2Key x) := rfl
  have hd : dilithiumSign crypto (privateKey x).dilithiumSecretKey m = some (pad m) :=
    dilithiumSign_eq hl
  obtain ⟨_, _, _, h⟩ := compositeSign_of_parts derSm2Signs (privateKey x) hkey
    (sm2Key_isPoint x) hm hd rnd
  exact ⟨_, h⟩

theorem derCorresponding (x : UInt8) : CorrespondingKeys derCrypto (privateKey x) (publicKey x) :=
  ⟨(keyPair x).corresponding.sm2, (keyPair x).dilithium⟩

end Toy

/-- **The older interface.** Its verifier accepts when the first component has 2420 bytes, the
second is canonical DER and the core accepts them put together, and running out of memory only makes
it reject; its signer leaves nothing, or the parts of a composite signature, which the verifier
accepts; with memory enough it signs when the core does; and any calls leave the structure empty or
whole. -/
theorem hybrid_adapter_agrees {PKey : Type} {C : Crypto PKey} {limit : Nat}
    (hC : EcdsaSigCodec limit C) (hsm2 : Sm2Correct C) :
    (∀ sm2PublicKey dilithiumPublicKey message signature,
      hybridVerify C .ample sm2PublicKey dilithiumPublicKey message signature = true ↔
        ∃ sm2 pk sig, ∃ d der : Bytes, sm2PublicKey = some sm2 ∧
          dilithiumPublicKey = .buf (pk : Block dilithiumPublicKeyBytes).val ∧
          signature = some sig ∧ sig.dilithiumSignature.arg = .buf d ∧
          d.length = dilithiumSignatureBytes ∧ sig.sm2Signature.arg = .buf der ∧
          (∃ r s : Nat, 0 < r ∧ 0 < s ∧ der = ecdsaSigDer r s) ∧
          compositeVerify C ⟨some sm2, pk⟩ message (.null 0) (d ++ der) = true) ∧
    (∀ mem sm2PublicKey dilithiumPublicKey message signature,
      hybridVerify C mem sm2PublicKey dilithiumPublicKey message signature = true →
      hybridVerify C .ample sm2PublicKey dilithiumPublicKey message signature = true) ∧
    (∀ mem sm2PrivateKey dilithiumSecretKey message rnd sig,
      hybridSign C mem sm2PrivateKey dilithiumSecretKey message rnd (some sig) =
          (false, some .empty) ∨
        ∃ sm2 sk, ∃ d der : Bytes, sm2PrivateKey = some sm2 ∧
          dilithiumSecretKey = .buf (sk : Block dilithiumSecretKeyBytes).val ∧
          compositeSign C ⟨some sm2, sk⟩ message (.null 0) rnd = some (d ++ der) ∧
          d.length = dilithiumSignatureBytes ∧
          hybridSign C mem sm2PrivateKey dilithiumSecretKey message rnd (some sig) =
            (true, some (.ofParts d der)) ∧
          ∀ p pk, CorrespondingKeys C ⟨some sm2, sk⟩ ⟨some p, pk⟩ →
            hybridVerify C .ample (some p) (.buf pk.val) message (some (.ofParts d der)) = true) ∧
    (∀ sm2PrivateKey dilithiumSecretKey message rnd sig,
      (hybridSign C .ample sm2PrivateKey dilithiumSecretKey message rnd (some sig)).1 = true ↔
        ∃ sm2 sk x, sm2PrivateKey = some sm2 ∧
          dilithiumSecretKey = .buf (sk : Block dilithiumSecretKeyBytes).val ∧
          compositeSign C ⟨some sm2, sk⟩ message (.null 0) rnd = some x) ∧
    (∀ (sig : HybridSignature) ops,
      ∃ sig', HybridOp.run C ops (hybridSignatureInit (some sig)) = some sig' ∧ sig'.Inv C) := by
  refine ⟨fun _ _ _ _ => hybridVerify_ample_iff hC, fun _ _ _ _ _ => hybridVerify_ample_of_true, ?_,
    fun _ _ _ _ _ => hybridSign_ample_iff, ?_⟩
  · intro mem sm2PrivateKey dilithiumSecretKey message rnd sig
    obtain heq | ⟨sm2, sk, d, der, hsm2k, hsk, hsign, hl, hv, heq⟩ :=
      hybridSign_cases (C := C) mem sm2PrivateKey dilithiumSecretKey message rnd sig
    · exact Or.inl heq
    · refine Or.inr ⟨sm2, sk, d, der, hsm2k, hsk, hsign, hl, heq, ?_⟩
      intro p pk hkeys
      exact hybridVerify_ofParts hC hsm2 hkeys hsign hl hv
  · intro sig ops
    exact HybridOp.run_inv (Or.inl rfl) ops

/-- A pair of sample keys signs the empty message and accepts the two components. -/
theorem hybrid_adapter_agrees_toy :
    ∃ d der : Bytes, hybridSign Toy.derCrypto .ample (some (Toy.sm2Key 1))
        (.buf (Toy.privateKey 1).dilithiumSecretKey.val) (.buf []) [] (some .empty) =
          (true, some (.ofParts d der)) ∧
      hybridVerify Toy.derCrypto .ample (some (Toy.sm2Key 1))
        (.buf (Toy.publicKey 1).dilithiumPublicKey.val) (.buf []) (some (.ofParts d der)) =
          true := by
  obtain ⟨_, _, hcases, hample, _⟩ := hybrid_adapter_agrees Toy.ecdsaSigCodec Toy.derSm2Correct
  obtain ⟨sig, hsign⟩ := Toy.derCompositeSign_some 1 [] []
  have hok := (hample (some (Toy.sm2Key 1)) (.buf (Toy.privateKey 1).dilithiumSecretKey.val)
    (.buf []) [] .empty).mpr ⟨_, _, _, rfl, rfl, hsign⟩
  obtain hfail | ⟨sm2, sk, d, der, hsm2, hsk, _, _, heq, hverify⟩ := hcases .ample
    (some (Toy.sm2Key 1)) (.buf (Toy.privateKey 1).dilithiumSecretKey.val) (.buf []) [] .empty
  · rw [hfail] at hok
    cases hok
  · cases hsm2
    have hblock := keyBlock_eq_some.mpr hsk
    rw [keyBlock_eq_some.mpr rfl] at hblock
    cases hblock
    exact ⟨d, der, heq, hverify _ _ (Toy.derCorresponding 1)⟩

end HybridPqc
