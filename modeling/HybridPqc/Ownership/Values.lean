import HybridPqc.Ownership.Balance

/-!
# Ownership.Values

The calls with references against the functions on key values.

`KeyState.privateKey` and `KeyState.publicKey` read a structure through its pointer. When nothing
fails but what the inputs decide, a call succeeds exactly when the function on values does, and the
structures then read as what that function returns: `compositeParsePublicKey_works`,
`hybridX509GetCompositePublicKey_works`, `hybridKeyStoreLoad_works`. A structure that a call does
not store into reads as before (`run_failed_reads`).
-/

namespace HybridPqc

namespace Ownership

open Conc Fs Refs

section

variable {PKey : Type} {P : Pool PKey} {R : Multiset Nat}

/-- A key that passes its check is the object that was made. -/
theorem checkKey_works {v : PKey} {check : Bool} (hP : P.Balanced R) :
    (checkKey (P.make v).2 (P.make v).1 true check).1.map
        (checkKey (P.make v).2 (P.make v).1 true check).2.heap.deref =
      if check then some (some v) else none := by
  have hmade : (P.make v).2.Hands R (some (P.make v).1, (P.make v).2) := ⟨hP.make v, .refl _⟩
  have hkey := checkKey_hands hmade true check
  cases check with
  | false => rfl
  | true =>
    exact congrArg some (hkey.keeps.deref hkey.balanced (Pool.mem_held_add _ R) (P.make_deref v))

/-- A pointer to a new object, and its value. -/
theorem map_deref_some {key : Nat} {made : Option PKey}
    (h : (some key).map P.heap.deref = made.map some) :
    ∃ v, made = some v ∧ P.heap.deref key = some v := by
  obtain ⟨v, hmade, hv⟩ := Option.map_eq_some_iff.mp h.symm
  exact ⟨v, hmade, hv.symm⟩

end

/-! ## Parsing -/

/-- Nothing fails but what `encoded` decides. -/
def ParseSteps.works {PKey : Type} (C : Crypto PKey) (encoded : Bytes) : ParseSteps PKey where
  context := true
  fromdataInit := true
  fromdata := ((C.fromdata encoded).isSome, C.fromdata encoded)
  checkContext := true
  publicCheck := (C.fromdata encoded).any C.publicCheck

section

variable {PKey : Type} {C : Crypto PKey} {P : Pool PKey} {R : Multiset Nat}

/-- The pointer that is returned, read through. -/
theorem parseSm2PublicKey_works (hP : P.Balanced R) (encoded : Bytes) :
    (parseSm2PublicKey (.works C encoded) P encoded).1.map
        (parseSm2PublicKey (.works C encoded) P encoded).2.heap.deref =
      (HybridPqc.parseSm2PublicKey C encoded).map some := by
  simp only [parseSm2PublicKey, HybridPqc.parseSm2PublicKey, ParseSteps.works]
  by_cases hform : encoded.length = sm2UncompressedPublicKeyBytes ∧ encoded.head? = some 0x04
  · simp only [if_pos hform, Bool.and_self, if_true]
    rcases Option.eq_none_or_eq_some (C.fromdata encoded) with hf | ⟨v, hf⟩
    · simp [hf, Pool.makeOpt]
    · simp only [hf, Pool.makeOpt, Option.isSome_some, if_true, Option.any_some]
      rw [checkKey_works hP]
      by_cases hc : C.publicCheck v = true
      · simp [hc]
      · simp [hc]
  · simp [if_neg hform]

end

/-! ## Reading the structures -/

namespace KeyState

variable {ι κ PKey : Type}

/-- A structure, read through its pointer. -/
def privateKey (S : KeyState ι κ PKey) (key : ι) : HybridPrivateKey PKey where
  sm2PrivateKey := (S.privateKeys key).sm2PrivateKey.bind S.pool.heap.deref
  dilithiumSecretKey := (S.privateKeys key).dilithiumSecretKey

def publicKey (S : KeyState ι κ PKey) (key : κ) : HybridPublicKey PKey where
  sm2PublicKey := (S.publicKeys key).sm2PublicKey.bind S.pool.heap.deref
  dilithiumPublicKey := (S.publicKeys key).dilithiumPublicKey

variable [Fintype ι] [Fintype κ] {S : KeyState ι κ PKey} {P : Pool PKey} {n : Nat} {v : PKey}

theorem mem_refs_privateKeys {key : ι} {sk : Block dilithiumSecretKeyBytes}
    (hslot : S.privateKeys key = ⟨some n, sk⟩) : n ∈ S.refs :=
  Multiset.mem_add.mpr (Or.inl (mem_slotRefs (congrArg (·.sm2PrivateKey) hslot)))

theorem mem_refs_publicKeys {key : κ} {pk : Block dilithiumPublicKeyBytes}
    (hslot : S.publicKeys key = ⟨some n, pk⟩) : n ∈ S.refs :=
  Multiset.mem_add.mpr (Or.inr (mem_slotRefs (congrArg (·.sm2PublicKey) hslot)))

/-- A structure reads as the object its pointer was given. -/
theorem Owned.privateKey_eq (hS : S.Owned 0) {key : ι} {sk : Block dilithiumSecretKeyBytes}
    (hslot : S.privateKeys key = ⟨some n, sk⟩) (hk : P.Keeps S.pool)
    (hv : P.heap.deref n = some v) : S.privateKey key = ⟨some v, sk⟩ := by
  have hn := mem_refs_privateKeys hslot
  simp only [privateKey, hslot, Option.bind_some, hk.deref hS.balanced hn hv]

theorem Owned.publicKey_eq (hS : S.Owned 0) {key : κ} {pk : Block dilithiumPublicKeyBytes}
    (hslot : S.publicKeys key = ⟨some n, pk⟩) (hk : P.Keeps S.pool)
    (hv : P.heap.deref n = some v) : S.publicKey key = ⟨some v, pk⟩ := by
  have hn := mem_refs_publicKeys hslot
  simp only [publicKey, hslot, Option.bind_some, hk.deref hS.balanced hn hv]

end KeyState

section

variable {ι κ PKey : Type} [Fintype ι] [Fintype κ] [DecidableEq ι] [DecidableEq κ]
  {S : KeyState ι κ PKey}

/-- A structure that a call has not stored into reads as before. -/
theorem CallOutcome.privateKey_eq {r : Bool × KeyState ι κ PKey} (h : CallOutcome S r)
    (hS : S.Owned 0) {key : ι} (hslot : r.2.privateKeys key = S.privateKeys key) :
    r.2.privateKey key = S.privateKey key := by
  cases hkey : S.privateKeys key with
  | mk p sk =>
    rw [hkey] at hslot
    cases p with
    | none => simp [KeyState.privateKey, hslot, hkey]
    | some n =>
      obtain ⟨v, hv⟩ := hS.balanced.exists_deref (KeyState.mem_refs_privateKeys hkey)
      rw [(h.owned hS).privateKey_eq hslot h.keeps hv, hS.privateKey_eq hkey (.refl _) hv]

theorem CallOutcome.publicKey_eq {r : Bool × KeyState ι κ PKey} (h : CallOutcome S r)
    (hS : S.Owned 0) {key : κ} (hslot : r.2.publicKeys key = S.publicKeys key) :
    r.2.publicKey key = S.publicKey key := by
  cases hkey : S.publicKeys key with
  | mk p pk =>
    rw [hkey] at hslot
    cases p with
    | none => simp [KeyState.publicKey, hslot, hkey]
    | some n =>
      obtain ⟨v, hv⟩ := hS.balanced.exists_deref (KeyState.mem_refs_publicKeys hkey)
      rw [(h.owned hS).publicKey_eq hslot h.keeps hv, hS.publicKey_eq hkey (.refl _) hv]

/-- After a call that fails every structure reads as before. -/
theorem run_failed_reads (hS : S.Owned 0) {c : Call ι κ PKey} (hfail : (c.run S).1 = false) :
    (∀ key, (c.run S).2.privateKey key = S.privateKey key) ∧
      ∀ key, (c.run S).2.publicKey key = S.publicKey key := by
  have h := run_outcome hS c
  obtain ⟨hpriv, hpub⟩ := h.unchanged hfail
  refine ⟨?_, ?_⟩
  · intro key
    exact h.privateKey_eq hS (congrFun hpriv key)
  · intro key
    exact h.publicKey_eq hS (congrFun hpub key)

theorem compositeParsePublicKey_works {C : Crypto PKey} (hS : S.Owned 0) (b : Bytes) (key : κ) :
    let steps : ParseSteps PKey :=
      .works C (b.slice dilithiumPublicKeyBytes sm2UncompressedPublicKeyBytes)
    let r := compositeParsePublicKey steps S (.buf b) (some key)
    r.1 = (HybridPqc.compositeParsePublicKey C b).isSome ∧
      ∀ parsed, HybridPqc.compositeParsePublicKey C b = some parsed →
        r.2.publicKey key = parsed := by
  intro steps r
  have howned := (compositeParsePublicKey_outcome steps hS (.buf b) (some key)).owned hS
  have hparse := parseSm2PublicKey_works (C := C) hS
    (b.slice dilithiumPublicKeyBytes sm2UncompressedPublicKeyBytes)
  simp only [r, compositeParsePublicKey, HybridPqc.compositeParsePublicKey] at howned ⊢
  by_cases hl : b.length = compositePublicKeyBytes
  swap
  · simp [if_neg hl]
  simp only [if_pos hl] at howned ⊢
  generalize parseSm2PublicKey steps S.pool _ = t at hparse howned ⊢
  obtain ⟨made, P⟩ := t
  cases made with
  | none =>
    have hnone := Option.map_eq_none_iff.mp hparse.symm
    simp [hnone]
  | some made =>
    obtain ⟨v, hv, hderef⟩ := map_deref_some hparse
    have hd : (b.slice 0 dilithiumPublicKeyBytes).length = dilithiumPublicKeyBytes := by
      simp only [Bytes.slice, List.length_take, List.length_drop, hl, compositePublicKeyBytes]
      omega
    have hdil := Block.ofBytes?_eq_some.mpr (show (⟨_, hd⟩ : Block _).val = _ from rfl)
    simp only [Block.memcpy_of_length hd] at howned ⊢
    simp only [hv, hdil]
    refine ⟨rfl, ?_⟩
    intro parsed hparsed
    cases hparsed
    exact howned.publicKey_eq (Function.update_self ..) (Pool.keeps_freeOpt _ _) hderef

theorem hybridX509GetCompositePublicKey_works {E : Openssl PKey} (hS : S.Owned 0)
    (certificate : X509) (key : κ) :
    let steps : ParseSteps PKey :=
      .works E.toCrypto (certificate.tbsCertificate.subjectPublicKeyInfo.publicKey.data.slice
        dilithiumPublicKeyBytes sm2UncompressedPublicKeyBytes)
    let r := hybridX509GetCompositePublicKey ⟨true, true, true⟩ steps S (some certificate)
      (some key)
    r.1 = (HybridPqc.hybridX509GetCompositePublicKey E certificate).isSome ∧
      ∀ parsed, HybridPqc.hybridX509GetCompositePublicKey E certificate = some parsed →
        r.2.publicKey key = parsed := by
  intro steps r
  simp only [r, hybridX509GetCompositePublicKey, HybridPqc.hybridX509GetCompositePublicKey,
    Bool.true_eq_false, false_or]
  split
  · simp
  · exact compositeParsePublicKey_works hS _ key

/-- The two structures read as the object they were given. -/
theorem replaceKeyPair_reads {P : Pool PKey} {n : Nat} {v : PKey} {privateKey : ι} {publicKey : κ}
    {sk : Block dilithiumSecretKeyBytes} {pk : Block dilithiumPublicKeyBytes}
    (howned : (S.replaceKeyPair privateKey publicKey ⟨some n, sk⟩ ⟨some n, pk⟩).Owned 0)
    (hk : P.Keeps S.pool) (hv : P.heap.deref n = some v) :
    (S.replaceKeyPair privateKey publicKey ⟨some n, sk⟩ ⟨some n, pk⟩).privateKey privateKey =
        ⟨some v, sk⟩ ∧
      (S.replaceKeyPair privateKey publicKey ⟨some n, sk⟩ ⟨some n, pk⟩).publicKey publicKey =
        ⟨some v, pk⟩ := by
  have hkeeps : P.Keeps (S.replaceKeyPair privateKey publicKey ⟨some n, sk⟩ ⟨some n, pk⟩).pool :=
    (hk.trans (Pool.keeps_freeOpt _ _)).trans (Pool.keeps_freeOpt _ _)
  exact ⟨howned.privateKey_eq (Function.update_self ..) hkeeps hv,
    howned.publicKey_eq (Function.update_self ..) hkeeps hv⟩

theorem compositeKeyGenerate_works (hS : S.Owned 0) (key : PKey)
    (pk : Block dilithiumPublicKeyBytes) (sk : Block dilithiumSecretKeyBytes) (privateKey : ι)
    (publicKey : κ) :
    let r := compositeKeyGenerate (.works key pk sk) S (some privateKey) (some publicKey)
    r.1 = true ∧ r.2.privateKey privateKey = ⟨some key, sk⟩ ∧
      r.2.publicKey publicKey = ⟨some key, pk⟩ := by
  intro r
  have howned := (compositeKeyGenerate_outcome (.works key pk sk) hS (some privateKey)
    (some publicKey)).owned hS
  exact ⟨rfl, replaceKeyPair_reads howned (Pool.keeps_upRef _ _) (S.pool.make_deref key)⟩

end

/-! ## Loading -/

/-- Nothing fails but what the directory `d` decides; it is there, and made if it was missing. -/
def LoadSteps.works {PKey τ : Type} (K : StoreCrypto PKey) (d : Dir τ KeyFile)
    (passphrase : CString) (rnd : Bytes) : LoadSteps PKey :=
  let pem := (d.fileAt .sm2PrivatePem).bind fun input =>
    K.pemReadPrivateKey input.data (passwordCallback pemBufsize passphrase)
  let dilithium := loadDilithiumPrivateKeyInto K ⟨true, true, true, true⟩ d passphrase
    (.zero _) (.zero _)
  { ensurePrivateDirectory := d.kind == .privateDirectory
    status := match d.accessible .sm2PrivatePem, d.accessible .dilithium2PrivateEnc with
      | false, false => .missing
      | true, true => .complete
      | _, _ => .incomplete
    sm2Path := true
    dilithiumPath := true
    secureRegularFile := HybridPqc.secureRegularFile d .sm2PrivatePem none
    fopen := (d.fileAt .sm2PrivatePem).isSome
    pemReadPrivateKey := pem
    isSm2 := pem.any K.isSm2
    checkContext := true
    privateCheck := pem.any K.privateCheck
    dilithium := dilithium
    upRef := true
    selfTest := {
      signContext := true
      signed := (compositeSign K.toCrypto ⟨pem, dilithium.secretKey⟩ (.buf selfTestChallenge)
        (.null 0) rnd).isSome
      verifyContext := true
      valid := HybridPqc.keypairSelfTest K ⟨pem, dilithium.secretKey⟩ ⟨pem, dilithium.publicKey⟩
        rnd } }

section

variable {PKey τ : Type} {K : StoreCrypto PKey} {d : Dir τ KeyFile} {passphrase : CString}
  {rnd : Bytes} {P : Pool PKey} {R : Multiset Nat}

theorem loadSm2PrivateKey_works (d : Dir τ KeyFile) (passphrase : CString) (rnd : Bytes)
    (hP : P.Balanced R) :
    (loadSm2PrivateKey (.works K d passphrase rnd) P passphrase).1.map
        (loadSm2PrivateKey (.works K d passphrase rnd) P passphrase).2.heap.deref =
      (HybridPqc.loadSm2PrivateKey K d passphrase).map some := by
  simp only [loadSm2PrivateKey, HybridPqc.loadSm2PrivateKey, LoadSteps.works]
  by_cases hpass : (secureRegularFile d .sm2PrivatePem none && passphraseValid passphrase) = true
  swap
  · simp only [Bool.not_eq_true] at hpass
    simp [hpass]
  rcases Option.eq_none_or_eq_some (d.fileAt .sm2PrivatePem) with hf | ⟨input, hf⟩
  · simp [hf]
  simp only [hpass, hf, Option.isSome_some, Bool.and_self, if_true,
    Option.bind_some]
  rcases Option.eq_none_or_eq_some (K.pemReadPrivateKey input.data
    (passwordCallback pemBufsize passphrase)) with hpem | ⟨v, hpem⟩
  · simp [hpem, Pool.makeOpt]
  · simp only [hpem, Pool.makeOpt, Option.any_some]
    by_cases hs : K.isSm2 v = true
    · simp only [hs, if_true, Bool.true_and]
      rw [checkKey_works hP]
      by_cases hc : K.privateCheck v = true
      · simp [hc]
      · simp [hc]
    · simp [hs]

end

section

variable {ι κ PKey τ : Type} [Fintype ι] [Fintype κ] [DecidableEq ι] [DecidableEq κ]
  {S : KeyState ι κ PKey} {K : StoreCrypto PKey} {d : Dir τ KeyFile} {passphrase : CString}
  {rnd : Bytes}

/-- The call goes on to the files exactly when the directory is private and both names are there. -/
theorem LoadSteps.works_checks :
    ((LoadSteps.works K d passphrase rnd).ensurePrivateDirectory &&
        ((LoadSteps.works K d passphrase rnd).status == .complete)) = true ↔
      d.kind = .privateDirectory ∧ d.accessible .sm2PrivatePem ∧
        d.accessible .dilithium2PrivateEnc := by
  simp only [LoadSteps.works, Bool.and_eq_true, beq_iff_eq]
  refine and_congr_right ?_
  intro _
  cases d.accessible .sm2PrivatePem with
  | false =>
    cases d.accessible .dilithium2PrivateEnc with
    | false => simp
    | true => simp
  | true =>
    cases d.accessible .dilithium2PrivateEnc with
    | false => simp
    | true => simp

/-- The self-test succeeds when both of its halves do. -/
theorem keypairSelfTest_fst (E : SelfTestSteps) (P : Pool PKey) (n m : Nat)
    (sk : Block dilithiumSecretKeyBytes) (pk : Block dilithiumPublicKeyBytes) :
    (keypairSelfTest E P ⟨some n, sk⟩ ⟨some m, pk⟩).1 = (E.signed && E.valid) := by
  simp only [keypairSelfTest]
  cases E.signed with
  | false => rfl
  | true => simp

theorem signed_of_selfTest {priv : HybridPrivateKey PKey} {pub : HybridPublicKey PKey}
    (h : HybridPqc.keypairSelfTest K priv pub rnd = true) :
    (compositeSign K.toCrypto priv (.buf selfTestChallenge) (.null 0) rnd).isSome = true := by
  simp only [HybridPqc.keypairSelfTest] at h
  cases hsign : compositeSign K.toCrypto priv (.buf selfTestChallenge) (.null 0) rnd with
  | none =>
    rw [hsign] at h
    cases h
  | some signature => rfl

theorem LoadSteps.works_dilithium :
    (LoadSteps.works K d passphrase rnd).dilithium =
      (loadDilithiumPrivateKey K d passphrase).elim ⟨false, .zero _, .zero _⟩
        fun keys => ⟨true, keys.1, keys.2⟩ := by
  rw [LoadSteps.works, loadDilithiumPrivateKeyInto_eq]
  rfl

/-- The two halves of the self-test are the self-test of the loaded pair. -/
theorem LoadSteps.works_selfTest {s : PKey} {pk : Block dilithiumPublicKeyBytes}
    {sk : Block dilithiumSecretKeyBytes} (hs : HybridPqc.loadSm2PrivateKey K d passphrase = some s)
    (hdil : loadDilithiumPrivateKey K d passphrase = some (pk, sk)) :
    ((LoadSteps.works K d passphrase rnd).selfTest.signed &&
        (LoadSteps.works K d passphrase rnd).selfTest.valid) =
      HybridPqc.keypairSelfTest K ⟨some s, sk⟩ ⟨some s, pk⟩ rnd := by
  obtain ⟨_, f, hf, _, hread, _⟩ := loadSm2PrivateKey_some_iff.mp hs
  have hdil' : loadDilithiumPrivateKeyInto K ⟨true, true, true, true⟩ d passphrase (.zero _)
      (.zero _) = ⟨true, pk, sk⟩ := by
    rw [loadDilithiumPrivateKeyInto_eq, hdil]
    rfl
  simp only [LoadSteps.works, hf, Option.bind_some, hread, hdil']
  by_cases htest : HybridPqc.keypairSelfTest K ⟨some s, sk⟩ ⟨some s, pk⟩ rnd = true
  · rw [htest, signed_of_selfTest htest, Bool.and_self]
  · rw [Bool.not_eq_true] at htest
    rw [htest, Bool.and_false]

/-- The two files decide. -/
theorem loadKeyPair_works (hS : S.Owned 0) (d : Dir τ KeyFile) (passphrase : CString) (rnd : Bytes)
    (privateKey : ι) (publicKey : κ) :
    let r := loadKeyPair (.works K d passphrase rnd) S passphrase privateKey publicKey
    (r.1 = false ∧ ∀ s pk sk, HybridPqc.loadSm2PrivateKey K d passphrase = some s →
        loadDilithiumPrivateKey K d passphrase = some (pk, sk) →
        HybridPqc.keypairSelfTest K ⟨some s, sk⟩ ⟨some s, pk⟩ rnd = false) ∨
      (r.1 = true ∧ ∃ s pk sk, HybridPqc.loadSm2PrivateKey K d passphrase = some s ∧
        loadDilithiumPrivateKey K d passphrase = some (pk, sk) ∧
        HybridPqc.keypairSelfTest K ⟨some s, sk⟩ ⟨some s, pk⟩ rnd = true ∧
        r.2.privateKey privateKey = ⟨some s, sk⟩ ∧ r.2.publicKey publicKey = ⟨some s, pk⟩) := by
  intro r
  have howned := (loadKeyPair_outcome (.works K d passphrase rnd) hS passphrase privateKey
    publicKey).owned hS
  have hload := loadSm2PrivateKey_works (K := K) d passphrase rnd hS
  have hmade := (loadSm2PrivateKey_hands (.works K d passphrase rnd) passphrase hS).balanced
  simp only [r, loadKeyPair] at howned ⊢
  rw [if_pos (show (LoadSteps.works K d passphrase rnd).sm2Path &&
    (LoadSteps.works K d passphrase rnd).dilithiumPath from rfl)] at howned ⊢
  generalize loadSm2PrivateKey (.works K d passphrase rnd) S.pool passphrase = t
    at hload hmade howned ⊢
  obtain ⟨made, P⟩ := t
  cases made with
  | none =>
    have hnone := Option.map_eq_none_iff.mp hload.symm
    refine Or.inl ⟨rfl, ?_⟩
    intro s pk sk hs
    rw [hnone] at hs
    cases hs
  | some made =>
    obtain ⟨s, hs, hderef⟩ := map_deref_some hload
    have hboth := hmade.upRef (Pool.mem_held_add made _)
    rcases Option.eq_none_or_eq_some (loadDilithiumPrivateKey K d passphrase) with
      hdil | ⟨⟨pk, sk⟩, hdil⟩
    · have hok : (LoadSteps.works K d passphrase rnd).dilithium.ok = false := by
        rw [LoadSteps.works_dilithium, hdil]
        rfl
      refine Or.inl ⟨?_, ?_⟩
      · simp [hok, loadDone]
      · intro s' pk sk _ hdil'
        rw [hdil] at hdil'
        cases hdil'
    have hE : (LoadSteps.works K d passphrase rnd).dilithium = ⟨true, pk, sk⟩ := by
      rw [LoadSteps.works_dilithium, hdil]
      rfl
    have hup : (LoadSteps.works K d passphrase rnd).upRef = true := rfl
    simp only [hE, hup, Bool.and_self, if_true] at howned ⊢
    have htest := keypairSelfTest_fst (LoadSteps.works K d passphrase rnd).selfTest
      (P.upRef made) made made sk pk
    have hkeeps := (keypairSelfTest_balanced (LoadSteps.works K d passphrase rnd).selfTest
      ⟨some made, sk⟩ ⟨some made, pk⟩ hboth).2
    rw [LoadSteps.works_selfTest hs hdil] at htest
    generalize keypairSelfTest (LoadSteps.works K d passphrase rnd).selfTest (P.upRef made)
      ⟨some made, sk⟩ ⟨some made, pk⟩ = t at htest hkeeps howned ⊢
    obtain ⟨valid, P'⟩ := t
    cases valid with
    | false =>
      refine Or.inl ⟨rfl, ?_⟩
      intro s' pk' sk' hs' hdil'
      rw [hs] at hs'
      rw [hdil] at hdil'
      cases hs'
      cases hdil'
      exact htest.symm
    | true =>
      have hreads := replaceKeyPair_reads (S := S.withPool P') howned
        ((P.keeps_upRef made).trans hkeeps) hderef
      exact Or.inr ⟨rfl, s, pk, sk, hs, hdil, htest.symm, hreads⟩

/-- A load succeeds exactly when the load of values does, and the structures read as its pair. -/
theorem hybridKeyStoreLoad_works (hS : S.Owned 0) (d : Dir τ KeyFile) (passphrase : CString)
    (rnd : Bytes) (privateKey : ι) (publicKey : κ) :
    let steps : LoadSteps PKey :=
      .works K (if d.kind = .missing then d.setKind .privateDirectory else d) passphrase rnd
    let r := hybridKeyStoreLoad steps S (some passphrase) (some privateKey) (some publicKey)
    r.1 = (HybridPqc.hybridKeyStoreLoad K d passphrase rnd).2.isSome ∧
      ∀ priv pub, (HybridPqc.hybridKeyStoreLoad K d passphrase rnd).2 = some (priv, pub) →
        r.2.privateKey privateKey = priv ∧ r.2.publicKey publicKey = pub := by
  intro steps r
  simp only [r, steps, hybridKeyStoreLoad, HybridPqc.hybridKeyStoreLoad]
  generalize (if d.kind = .missing then d.setKind .privateDirectory else d) = d'
  by_cases hpass : passphraseValid passphrase = true
  swap
  · simp [hpass]
  simp only [hpass, Bool.true_and, if_true, LoadSteps.works_checks]
  by_cases hok : d'.kind = .privateDirectory ∧ d'.accessible .sm2PrivatePem ∧
      d'.accessible .dilithium2PrivateEnc
  swap
  · simp [if_neg hok]
  simp only [if_pos hok]
  rcases loadKeyPair_works (K := K) hS d' passphrase rnd privateKey publicKey with
    ⟨hr, hfail⟩ | ⟨hr, s, pk, sk, hs, hdil, htest, hreads⟩
  · rw [hr]
    rcases Option.eq_none_or_eq_some (HybridPqc.loadSm2PrivateKey K d' passphrase) with hs | ⟨s, hs⟩
    · simp [hs]
    rcases Option.eq_none_or_eq_some (loadDilithiumPrivateKey K d' passphrase) with
      hdil | ⟨⟨pk, sk⟩, hdil⟩
    · simp [hs, hdil]
    · simp [hs, hdil, hfail s pk sk hs hdil]
  · rw [hr]
    simp only [hs, hdil, htest, if_true]
    refine ⟨rfl, ?_⟩
    intro priv pub hpair
    cases hpair
    exact hreads

end

end Ownership

end HybridPqc
