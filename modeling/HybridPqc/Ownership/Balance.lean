import HybridPqc.Ownership.Calls

/-!
# Ownership.Balance

Key ownership stays balanced over any sequence of calls.

`Owned R` is the balance of the pool with what the caller's structures hold and the references `R`
of the function that is running. Each function that makes a key returns it with one reference, or
returns `NULL` and has dropped every reference it took (`Pool.Hands`). A call that fills structures
therefore ends in one of the ways of `CallOutcome`: it failed and only the pool has changed, or it
holds the references that it is about to store. `key_ownership_balanced` is the account over any
sequence of calls.
-/

namespace HybridPqc

namespace Ownership

open Refs
open Refs.Arena (held)

/-! ## Functions that make a key -/

section

variable {PKey : Type} {P P' : Pool PKey} {R : Multiset Nat}

/-- A context of its own for the check changes nothing in the account. -/
theorem checkKey_hands {key : Nat} (h : P.Hands R (some key, P')) (checkContext check : Bool) :
    P.Hands R (checkKey P' key checkContext check) := by
  cases checkContext with
  | false => exact h.freeOpt
  | true =>
    have hup := h.balanced.upRef (Pool.mem_held_add key R)
    have hkeeps := h.keeps.trans (P'.keeps_upRef key)
    cases check with
    | false =>
      -- `EVP_PKEY_free` leaves the context's reference, which `EVP_PKEY_CTX_free` drops
      refine ⟨?_, (hkeeps.trans (Pool.keeps_free _ key)).trans (Pool.keeps_free _ key)⟩
      simpa [checkKey] using hup.free.free
    | true => exact ⟨hup.free, hkeeps.trans (Pool.keeps_free _ key)⟩

theorem hybridSm2GenerateKeypair_hands (E : GenerateSteps PKey) (hP : P.Balanced R) :
    P.Hands R (hybridSm2GenerateKeypair E P) := by
  simp only [hybridSm2GenerateKeypair]
  by_cases hc : (E.context && E.keygenInit) = true
  · rw [if_pos hc]
    by_cases hg : E.generate.1 = true
    · rw [if_pos hg]
      exact Pool.hands_makeOpt hP E.generate.2
    · rw [if_neg hg]
      exact (Pool.hands_makeOpt hP E.generate.2).freeOpt
  · rw [if_neg hc]
    exact Pool.hands_null hP

theorem parseSm2PublicKey_hands (E : ParseSteps PKey) (encoded : Bytes) (hP : P.Balanced R) :
    P.Hands R (parseSm2PublicKey E P encoded) := by
  simp only [parseSm2PublicKey]
  by_cases hform : encoded.length = sm2UncompressedPublicKeyBytes ∧ encoded.head? = some 0x04
  swap
  · rw [if_neg hform]
    exact Pool.hands_null hP
  rw [if_pos hform]
  by_cases hc : (E.context && E.fromdataInit) = true
  swap
  · rw [if_neg hc]
    exact Pool.hands_null hP
  rw [if_pos hc]
  have hmade := Pool.hands_makeOpt hP E.fromdata.2
  generalize P.makeOpt E.fromdata.2 = r at hmade ⊢
  obtain ⟨key, P₁⟩ := r
  cases key with
  | none => exact hmade
  | some key =>
    by_cases hf : E.fromdata.1 = true
    · simp only [if_pos hf]
      exact checkKey_hands hmade E.checkContext E.publicCheck
    · simp only [if_neg hf]
      exact hmade.freeOpt

theorem loadSm2PrivateKey_hands (E : LoadSteps PKey) (passphrase : CString) (hP : P.Balanced R) :
    P.Hands R (loadSm2PrivateKey E P passphrase) := by
  simp only [loadSm2PrivateKey]
  by_cases hc : (E.secureRegularFile && passphraseValid passphrase && E.fopen) = true
  swap
  · rw [if_neg hc]
    exact Pool.hands_null hP
  rw [if_pos hc]
  have hmade := Pool.hands_makeOpt hP E.pemReadPrivateKey
  generalize P.makeOpt E.pemReadPrivateKey = r at hmade ⊢
  obtain ⟨key, P₁⟩ := r
  cases key with
  | none => exact hmade
  | some key =>
    by_cases hs : E.isSm2 = true
    · simp only [if_pos hs]
      exact checkKey_hands hmade E.checkContext E.privateCheck
    · simp only [if_neg hs]
      exact hmade.freeOpt

/-! ## The self-test -/

theorem digestContext_balanced {key : Nat} (hP : P.Balanced R) (hkey : key ∈ R) (made : Bool) :
    (digestContext P key made).Balanced R ∧ P.Keeps (digestContext P key made) := by
  cases made with
  | false => exact ⟨hP, .refl P⟩
  | true => exact ⟨(hP.upRef hkey).free, (P.keeps_upRef key).trans (Pool.keeps_free _ key)⟩

/-- The digest contexts take their references through the two local structures. -/
theorem keypairSelfTest_balanced (E : SelfTestSteps) (privateKey : PrivateKeySlot)
    (publicKey : PublicKeySlot)
    (hP : P.Balanced (held privateKey.sm2PrivateKey + (held publicKey.sm2PublicKey + R))) :
    (keypairSelfTest E P privateKey publicKey).2.Balanced
        (held privateKey.sm2PrivateKey + (held publicKey.sm2PublicKey + R)) ∧
      P.Keeps (keypairSelfTest E P privateKey publicKey).2 := by
  simp only [keypairSelfTest]
  cases hpriv : privateKey.sm2PrivateKey with
  | none =>
    rw [hpriv] at hP
    exact ⟨hP, .refl P⟩
  | some key =>
    rw [hpriv] at hP
    have hsign := digestContext_balanced hP (Pool.mem_held_add key _) E.signContext
    cases hpub : publicKey.sm2PublicKey with
    | none =>
      rw [hpub] at hsign
      exact hsign
    | some pub =>
      rw [hpub] at hsign
      have hmem : pub ∈ held (some key) + (held (some pub) + R) :=
        Multiset.mem_add.mpr (Or.inr (Pool.mem_held_add pub R))
      cases E.signed with
      | false => exact hsign
      | true =>
        have hverify := digestContext_balanced hsign.1 hmem E.verifyContext
        exact ⟨hverify.1, hsign.2.trans hverify.2⟩

end

/-! ## The account of a state -/

section

variable {ι κ PKey : Type} [Fintype ι] [Fintype κ]

namespace KeyState

/-- The references that the caller's structures hold. -/
def refs (S : KeyState ι κ PKey) : Multiset Nat :=
  slotRefs (PrivateKeySlot.sm2PrivateKey ∘ S.privateKeys) +
    slotRefs (PublicKeySlot.sm2PublicKey ∘ S.publicKeys)

/-- The pool is balanced with the structures and the references `R` of a running function. -/
def Owned (S : KeyState ι κ PKey) (R : Multiset Nat) : Prop := S.pool.Balanced (R + S.refs)

variable {S : KeyState ι κ PKey} {R : Multiset Nat}

theorem init_owned : (init : KeyState ι κ PKey).Owned 0 := by
  have hrefs : (init : KeyState ι κ PKey).refs = 0 := by
    simp [refs, init, Function.comp_def]
  rw [Owned, hrefs]
  exact Pool.balanced_empty

theorem Owned.balanced (hS : S.Owned 0) : S.pool.Balanced S.refs := by
  rwa [Owned, Multiset.zero_add] at hS

theorem Owned.withPool {P : Pool PKey} (hP : P.Balanced (R + S.refs)) :
    (S.withPool P).Owned R := hP

section

variable [DecidableEq ι]

/-- A store moves the reference of the old value out and that of the new value in. -/
theorem refs_setPrivateKey (S : KeyState ι κ PKey) (key : ι) (value : PrivateKeySlot) :
    held (S.privateKeys key).sm2PrivateKey + (S.setPrivateKey key value).refs =
      held value.sm2PrivateKey + S.refs := by
  have hupd := slotRefs_update (PrivateKeySlot.sm2PrivateKey ∘ S.privateKeys) key
    value.sm2PrivateKey
  simp only [refs, setPrivateKey, Function.comp_update, ← Multiset.add_assoc]
  exact congrArg (· + _) hupd

/-- A structure that is empty takes over a reference of the function. -/
theorem Owned.setPrivateKey {key : ι} {value : PrivateKeySlot}
    (hS : S.Owned (held value.sm2PrivateKey + R))
    (hempty : (S.privateKeys key).sm2PrivateKey = none) : (S.setPrivateKey key value).Owned R := by
  have hrefs := refs_setPrivateKey S key value
  rw [hempty, Arena.held_none, Multiset.zero_add] at hrefs
  rw [Owned, hrefs, add_left_comm, ← Multiset.add_assoc]
  exact hS

theorem Owned.cleanupPrivateKey (hS : S.Owned R) (key : ι) : (S.cleanupPrivateKey key).Owned R := by
  have hrefs := refs_setPrivateKey S key hybridPrivateKeyInit
  have hbal : S.pool.Balanced (held (S.privateKeys key).sm2PrivateKey +
      (R + (S.setPrivateKey key hybridPrivateKeyInit).refs)) := by
    rw [add_left_comm, hrefs]
    simpa [Owned] using hS
  exact hbal.freeOpt

end

section

variable [DecidableEq κ]

theorem refs_setPublicKey (S : KeyState ι κ PKey) (key : κ) (value : PublicKeySlot) :
    held (S.publicKeys key).sm2PublicKey + (S.setPublicKey key value).refs =
      held value.sm2PublicKey + S.refs := by
  have hupd := slotRefs_update (PublicKeySlot.sm2PublicKey ∘ S.publicKeys) key
    value.sm2PublicKey
  simp only [refs, setPublicKey, Function.comp_update]
  rw [add_left_comm, add_left_comm (held value.sm2PublicKey)]
  exact congrArg (_ + ·) hupd

theorem Owned.setPublicKey {key : κ} {value : PublicKeySlot}
    (hS : S.Owned (held value.sm2PublicKey + R))
    (hempty : (S.publicKeys key).sm2PublicKey = none) : (S.setPublicKey key value).Owned R := by
  have hrefs := refs_setPublicKey S key value
  rw [hempty, Arena.held_none, Multiset.zero_add] at hrefs
  rw [Owned, hrefs, add_left_comm, ← Multiset.add_assoc]
  exact hS

theorem Owned.cleanupPublicKey (hS : S.Owned R) (key : κ) : (S.cleanupPublicKey key).Owned R := by
  have hrefs := refs_setPublicKey S key hybridPublicKeyInit
  have hbal : S.pool.Balanced (held (S.publicKeys key).sm2PublicKey +
      (R + (S.setPublicKey key hybridPublicKeyInit).refs)) := by
    rw [add_left_comm, hrefs]
    simpa [Owned] using hS
  exact hbal.freeOpt

end

variable [DecidableEq ι] [DecidableEq κ]

/-- The structures take over the references of the local ones. -/
theorem Owned.replaceKeyPair {privateKey : ι} {publicKey : κ} {newPrivate : PrivateKeySlot}
    {newPublic : PublicKeySlot}
    (hS : S.Owned (held newPrivate.sm2PrivateKey + (held newPublic.sm2PublicKey + R))) :
    (S.replaceKeyPair privateKey publicKey newPrivate newPublic).Owned R := by
  have hclean := (hS.cleanupPrivateKey privateKey).cleanupPublicKey publicKey
  refine (hclean.setPrivateKey ?_).setPublicKey ?_
  · simp
  · simp

end KeyState

end

/-! ## How a call ends -/

section

variable {ι κ PKey : Type} [Fintype ι] [Fintype κ] [DecidableEq ι] [DecidableEq κ]

/-- What a call can have done to the state, with the references it held before it stored them. -/
inductive CallOutcome (S : KeyState ι κ PKey) : Bool × KeyState ι κ PKey → Prop
  | failed {P} (hP : P.Balanced S.refs) (hk : S.pool.Keeps P) : CallOutcome S (false, S.withPool P)
  | keyPair {P key} (privateKey : ι) (publicKey : κ) (sk pk)
      (hP : P.Balanced ({key} + ({key} + S.refs))) (hk : S.pool.Keeps P) :
      CallOutcome S (true, (S.withPool P).replaceKeyPair privateKey publicKey ⟨some key, sk⟩
        ⟨some key, pk⟩)
  | publicKey {P key} (publicKey : κ) (pk) (hP : P.Balanced ({key} + S.refs))
      (hk : S.pool.Keeps P) :
      CallOutcome S (true, ((S.withPool P).cleanupPublicKey publicKey).setPublicKey publicKey
        ⟨some key, pk⟩)
  | cleanedPrivate (privateKey : ι) : CallOutcome S (true, S.cleanupPrivateKey privateKey)
  | cleanedPublic (publicKey : κ) : CallOutcome S (true, S.cleanupPublicKey publicKey)
  | nothing : CallOutcome S (true, S)

variable {S : KeyState ι κ PKey}

theorem generateError_outcome {generatedPrivate : PrivateKeySlot}
    {generatedPublic : PublicKeySlot} {P : Pool PKey}
    (hP : P.Balanced
      (held generatedPrivate.sm2PrivateKey + (held generatedPublic.sm2PublicKey + S.refs)))
    (hk : S.pool.Keeps P) :
    CallOutcome S (generateError (S.withPool P) generatedPrivate generatedPublic) :=
  .failed hP.freeOpt.freeOpt ((hk.trans (Pool.keeps_freeOpt _ _)).trans (Pool.keeps_freeOpt _ _))

theorem loadDone_outcome {loadedPrivate : PrivateKeySlot} {loadedPublic : PublicKeySlot}
    {P : Pool PKey}
    (hP : P.Balanced
      (held loadedPrivate.sm2PrivateKey + (held loadedPublic.sm2PublicKey + S.refs)))
    (hk : S.pool.Keeps P) :
    CallOutcome S (loadDone (S.withPool P) loadedPrivate loadedPublic false) := by
  rw [add_left_comm] at hP
  exact .failed hP.freeOpt.freeOpt
    ((hk.trans (Pool.keeps_freeOpt _ _)).trans (Pool.keeps_freeOpt _ _))

theorem failed_of_owned (hS : S.Owned 0) : CallOutcome S (false, S) :=
  .failed hS.balanced (.refl _)

theorem compositeKeyGenerate_outcome (E : GenerateSteps PKey) (hS : S.Owned 0)
    (privateKey : Option ι) (publicKey : Option κ) :
    CallOutcome S (compositeKeyGenerate E S privateKey publicKey) := by
  cases privateKey with
  | none => exact failed_of_owned hS
  | some privateKey =>
    cases publicKey with
    | none => exact failed_of_owned hS
    | some publicKey =>
      simp only [compositeKeyGenerate]
      have hmade := hybridSm2GenerateKeypair_hands E hS.balanced
      generalize hybridSm2GenerateKeypair E S.pool = r at hmade ⊢
      obtain ⟨key, P⟩ := r
      obtain ⟨hkey, hk⟩ := hmade
      cases key with
      | none => exact generateError_outcome (by simpa using hkey) hk
      | some key =>
        by_cases hup : E.upRef = true
        · simp only [if_pos hup]
          have hboth := hkey.upRef (Pool.mem_held_add key _)
          have hk' := hk.trans (P.keeps_upRef key)
          by_cases hdil : E.dilithium.ok = true
          · simp only [if_pos hdil]
            exact .keyPair privateKey publicKey _ _ hboth hk'
          · simp only [if_neg hdil]
            exact generateError_outcome hboth hk'
        · simp only [if_neg hup]
          exact generateError_outcome (by simpa using hkey) hk

theorem compositeParsePublicKey_outcome (E : ParseSteps PKey) (hS : S.Owned 0) (serialized : CArg)
    (key : Option κ) : CallOutcome S (compositeParsePublicKey E S serialized key) := by
  cases serialized with
  | null n => exact failed_of_owned hS
  | buf serialized =>
    cases key with
    | none => exact failed_of_owned hS
    | some key =>
      simp only [compositeParsePublicKey]
      by_cases hl : serialized.length = compositePublicKeyBytes
      · rw [if_pos hl]
        have hparse := parseSm2PublicKey_hands E
          (serialized.slice dilithiumPublicKeyBytes sm2UncompressedPublicKeyBytes) hS.balanced
        generalize parseSm2PublicKey E S.pool _ = r at hparse ⊢
        obtain ⟨parsed, P⟩ := r
        obtain ⟨hkey, hk⟩ := hparse
        cases parsed with
        | none => exact .failed (by simpa using hkey) hk
        | some parsed => exact .publicKey key _ hkey hk
      · rw [if_neg hl]
        exact failed_of_owned hS

theorem hybridX509GetCompositePublicKey_outcome (A : SpkiSteps) (E : ParseSteps PKey)
    (hS : S.Owned 0) (certificate : Option X509) (publicKey : Option κ) :
    CallOutcome S (hybridX509GetCompositePublicKey A E S certificate publicKey) := by
  cases certificate with
  | none => exact failed_of_owned hS
  | some certificate =>
    cases publicKey with
    | none => exact failed_of_owned hS
    | some publicKey =>
      simp only [hybridX509GetCompositePublicKey]
      split
      · exact failed_of_owned hS
      · exact compositeParsePublicKey_outcome E hS _ _

theorem loadKeyPair_outcome (E : LoadSteps PKey) (hS : S.Owned 0) (passphrase : CString)
    (privateKey : ι) (publicKey : κ) :
    CallOutcome S (loadKeyPair E S passphrase privateKey publicKey) := by
  simp only [loadKeyPair]
  by_cases hpaths : (E.sm2Path && E.dilithiumPath) = true
  swap
  · rw [if_neg hpaths]
    exact loadDone_outcome (by simpa using hS.balanced) (.refl S.pool)
  rw [if_pos hpaths]
  have hmade := loadSm2PrivateKey_hands E passphrase hS.balanced
  generalize loadSm2PrivateKey E S.pool passphrase = r at hmade ⊢
  obtain ⟨key, P⟩ := r
  obtain ⟨hkey, hk⟩ := hmade
  cases key with
  | none => exact loadDone_outcome (by simpa using hkey) hk
  | some key =>
    by_cases hdil : (E.dilithium.ok && E.upRef) = true
    swap
    · simp only [if_neg hdil]
      exact loadDone_outcome (by simpa using hkey) hk
    simp only [if_pos hdil]
    have hboth := hkey.upRef (Pool.mem_held_add key _)
    have htest := keypairSelfTest_balanced E.selfTest ⟨some key, E.dilithium.secretKey⟩
      ⟨some key, E.dilithium.publicKey⟩ hboth
    generalize keypairSelfTest E.selfTest (P.upRef key) _ _ = t at htest ⊢
    obtain ⟨valid, P'⟩ := t
    have hk' := (hk.trans (P.keeps_upRef key)).trans htest.2
    cases valid with
    | false => exact loadDone_outcome htest.1 hk'
    -- the local structures are empty again at `done`
    | true => exact .keyPair privateKey publicKey _ _ htest.1 hk'

theorem hybridKeyStoreLoad_outcome (E : LoadSteps PKey) (hS : S.Owned 0)
    (passphrase : Option CString) (privateKey : Option ι) (publicKey : Option κ) :
    CallOutcome S (hybridKeyStoreLoad E S passphrase privateKey publicKey) := by
  cases passphrase with
  | none => exact failed_of_owned hS
  | some passphrase =>
    cases privateKey with
    | none => exact failed_of_owned hS
    | some privateKey =>
      cases publicKey with
      | none => exact failed_of_owned hS
      | some publicKey =>
        simp only [hybridKeyStoreLoad]
        split
        · exact loadKeyPair_outcome E hS passphrase privateKey publicKey
        · exact failed_of_owned hS

/-- However a call ends, the structures hold every reference there is. -/
theorem CallOutcome.owned {r : Bool × KeyState ι κ PKey} (h : CallOutcome S r) (hS : S.Owned 0) :
    r.2.Owned 0 := by
  cases h with
  | failed hP hk => exact .withPool (by rwa [Multiset.zero_add])
  | keyPair privateKey publicKey sk pk hP hk =>
    exact .replaceKeyPair (.withPool (by simpa [Multiset.add_assoc] using hP))
  | publicKey publicKey pk hP hk =>
    refine .setPublicKey (.cleanupPublicKey (.withPool ?_) publicKey) ?_
    · simpa using hP
    · simp
  | cleanedPrivate privateKey => exact hS.cleanupPrivateKey privateKey
  | cleanedPublic publicKey => exact hS.cleanupPublicKey publicKey
  | nothing => exact hS

/-- A call that fails has stored nothing. -/
theorem CallOutcome.unchanged {r : Bool × KeyState ι κ PKey} (h : CallOutcome S r)
    (hfail : r.1 = false) :
    r.2.privateKeys = S.privateKeys ∧ r.2.publicKeys = S.publicKeys := by
  cases h with
  | failed hP hk => exact ⟨rfl, rfl⟩
  | _ => exact absurd hfail (by simp)

/-- No call changes a key object that somebody else holds. -/
theorem CallOutcome.keeps {r : Bool × KeyState ι κ PKey} (h : CallOutcome S r) :
    S.pool.Keeps r.2.pool := by
  cases h with
  | failed hP hk => exact hk
  | keyPair privateKey publicKey sk pk hP hk =>
    exact (hk.trans (Pool.keeps_freeOpt _ _)).trans (Pool.keeps_freeOpt _ _)
  | publicKey publicKey pk hP hk => exact hk.trans (Pool.keeps_freeOpt _ _)
  | cleanedPrivate privateKey => exact Pool.keeps_freeOpt _ _
  | cleanedPublic publicKey => exact Pool.keeps_freeOpt _ _
  | nothing => exact .refl S.pool

/-! ## Sequences of calls -/

theorem run_outcome (hS : S.Owned 0) (c : Call ι κ PKey) : CallOutcome S (c.run S) := by
  cases c with
  | compositeKeyGenerate E privateKey publicKey =>
    exact compositeKeyGenerate_outcome E hS privateKey publicKey
  | compositeParsePublicKey E serialized key =>
    exact compositeParsePublicKey_outcome E hS serialized key
  | hybridX509GetCompositePublicKey A E certificate publicKey =>
    exact hybridX509GetCompositePublicKey_outcome A E hS certificate publicKey
  | hybridKeyStoreLoad E passphrase privateKey publicKey =>
    exact hybridKeyStoreLoad_outcome E hS passphrase privateKey publicKey
  | hybridPrivateKeyCleanup key =>
    cases key with
    | none => exact .nothing
    | some key => exact .cleanedPrivate key
  | hybridPublicKeyCleanup key =>
    cases key with
    | none => exact .nothing
    | some key => exact .cleanedPublic key

theorem runCalls_owned (hS : S.Owned 0) (calls : List (Call ι κ PKey)) :
    (runCalls S calls).Owned 0 := by
  induction calls generalizing S with
  | nil => exact hS
  | cons c calls ih => exact ih ((run_outcome hS c).owned hS)

end

section

variable {ι κ PKey : Type} [Fintype ι] [Fintype κ]

/-- How many of the caller's structures point to an object. -/
def KeyState.referring (S : KeyState ι κ PKey) (n : Nat) : Nat :=
  (Finset.univ.filter fun i => (S.privateKeys i).sm2PrivateKey = some n).card +
    (Finset.univ.filter fun k => (S.publicKeys k).sm2PublicKey = some n).card

theorem KeyState.Owned.count {S : KeyState ι κ PKey} (hS : S.Owned 0) (n : Nat) :
    S.pool.heap.count n = S.referring n := by
  rw [Pool.Balanced.count hS, Multiset.zero_add, refs, Multiset.count_add, count_slotRefs,
    count_slotRefs]
  rfl

variable [DecidableEq ι] [DecidableEq κ]

/-- Whatever was called and whatever failed in it, no reference was dropped or taken through a
pointer to an object that was gone, an object has as many references as there are structures that
point to it, it is there exactly while one does, and the next call, if it fails, changes no
structure. -/
theorem key_ownership_balanced (calls : List (Call ι κ PKey)) :
    (runCalls .init calls).pool.dangling = false ∧
      (∀ n, (runCalls .init calls).pool.heap.count n = (runCalls .init calls).referring n) ∧
      (∀ n, (runCalls .init calls).pool.live n = true ↔ 0 < (runCalls .init calls).referring n) ∧
      ∀ c : Call ι κ PKey, (c.run (runCalls .init calls)).1 = false →
        (c.run (runCalls .init calls)).2.privateKeys = (runCalls .init calls).privateKeys ∧
        (c.run (runCalls .init calls)).2.publicKeys = (runCalls .init calls).publicKeys := by
  have hS : (runCalls .init calls : KeyState ι κ PKey).Owned 0 :=
    runCalls_owned KeyState.init_owned calls
  refine ⟨hS.sound, hS.count, ?_, ?_⟩
  · intro n
    rw [← hS.count, Heap.count_pos]
    rfl
  · intro c hfail
    exact (run_outcome hS c).unchanged hfail

/-- A key pair is made and a load over it fails in its self-test: the two structures still share
object 0, object 1 is gone. -/
theorem key_ownership_balanced_load :
    let load : Call Unit Bool Unit := .hybridKeyStoreLoad
      ⟨true, .complete, true, true, true, true, some (), true, true, true,
        ⟨true, .zero _, .zero _⟩, true, ⟨true, true, true, false⟩⟩
      (some Toy.passphrase) (some ()) (some true)
    let S := runCalls .init
      [.compositeKeyGenerate (.works () (.zero _) (.zero _)) (some ()) (some true)]
    S.pool.heap.count 0 = 2 ∧
      (load.run S).2.publicKeys = S.publicKeys ∧
      (load.run S).2.pool.heap.count 0 = 2 ∧ (load.run S).2.pool.live 1 = false ∧
      (load.run S).2.pool.dangling = false := by
  intro load S
  have hS := key_ownership_balanced
    [.compositeKeyGenerate (.works () (.zero _) (.zero _)) (some ()) (some true)]
  have hload := key_ownership_balanced
    [.compositeKeyGenerate (.works () (.zero _) (.zero _)) (some ()) (some true), load]
  refine ⟨(hS.2.1 0).trans ?_, (hS.2.2.2 load ?_).2, (hload.2.1 0).trans ?_, ?_, hload.1⟩
  · decide +kernel
  · decide +kernel
  · decide +kernel
  · decide +kernel

end

end Ownership

end HybridPqc
