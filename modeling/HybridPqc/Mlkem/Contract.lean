import HybridPqc.Mlkem.Wrapper

/-!
# Mlkem.Contract

The error contract of the ML-KEM wrapper over call sequences.

* `MlkemState.Inv`: the keypair is empty or holds a pair that some provider has generated, and the
  arena accounts for every handle. `mlkemStep_inv` is one call, `MlkemReaches.inv` any sequence.
* `mlkem768Keygen_cases`, `mlkem768Encaps_cases`, `mlkem768Decaps_cases`: what one call can do.
* `mlkem_error_contract`: the contract. A provider that fails in `mlkem768_encaps` leaves the 1088
  bytes of a ciphertext zeroed and what is behind them untouched
  (`mlkem_encaps_neither_untouched_nor_zeroed`).
-/

namespace HybridPqc

open Refs

/-! ## The keypair and its buffers -/

def MlkemKeypair.handles (keypair : MlkemKeypair) : Multiset Nat :=
  Arena.held (keypair.encapsulationKey.map KeyBuffer.handle) +
    Arena.held (keypair.decapsulationKey.map KeyBuffer.handle)

/-- Both keys are there, with their exact lengths. -/
def MlkemKeypair.Holds (keypair : MlkemKeypair) (ek : EncapsulationKey) (dk : DecapsulationKey) :
    Prop :=
  ∃ h k, keypair = ⟨some ⟨h, ek⟩, mlkem768EncapsulationKeyBytes, some ⟨k, dk⟩,
    mlkem768DecapsulationKeyBytes⟩

@[simp] theorem MlkemKeypair.handles_empty : MlkemKeypair.empty.handles = 0 := rfl

/-- A pair that a provider in `F` has generated. -/
def Generated (F : KemProvider → Prop) (ek : EncapsulationKey) (dk : DecapsulationKey) : Prop :=
  ∃ E, F E ∧ E.keypair = (true, ek, dk)

structure MlkemState.Inv (F : KemProvider → Prop) (s : MlkemState) : Prop where
  keypair : s.keypair = .empty ∨ ∃ ek dk, s.keypair.Holds ek dk ∧ Generated F ek dk
  owns : s.arena.Owns s.keypair.handles

section

variable {E : KemProvider} {A : Arena} {R : Multiset Nat}

/-- A checked object is held, a rejected one released. -/
theorem mlkem768NewChecked_owns (hA : A.Owns R) :
    (mlkem768NewChecked E A).2.Owns (Arena.held (mlkem768NewChecked E A).1 + R) ∧
    A.next ≤ (mlkem768NewChecked E A).2.next := by
  unfold mlkem768NewChecked
  by_cases hen : E.algIsEnabled = false
  · rw [if_pos hen]
    exact ⟨by simpa using hA, Nat.le_refl _⟩
  · rw [if_neg hen]
    cases hk : E.kemNew with
    | none => exact ⟨by simpa using hA, Nat.le_refl _⟩
    | some kem =>
      have hm := hA.malloc true
      by_cases hc : kem.isMlKem768 = true
      · simp only [hc, if_true]
        exact ⟨hm, Nat.le_succ _⟩
      · simp only [hc]
        exact ⟨by simpa using hm.freeOpt, Nat.le_succ _⟩

/-- `done:` releases what it is given. -/
theorem keygenDone_owns {ek dk kem : Option Nat}
    (hA : A.Owns (Arena.held ek + (Arena.held dk + (Arena.held kem + R)))) :
    (keygenDone A ek dk kem).Owns R := hA.freeOpt.freeOpt.freeOpt

theorem MlkemKeypair.eq_empty {keypair : MlkemKeypair}
    (h : ¬ (keypair.encapsulationKey.isSome ∨ keypair.decapsulationKey.isSome ∨
      keypair.encapsulationKeyLen ≠ 0 ∨ keypair.decapsulationKeyLen ≠ 0)) :
    keypair = .empty := by
  obtain ⟨ek, ekLen, dk, dkLen⟩ := keypair
  simp only [not_or, Bool.not_eq_true, Option.isSome_eq_false_iff, Option.isNone_iff_eq_none, ne_eq,
    not_not] at h
  obtain ⟨rfl, rfl, rfl, rfl⟩ := h
  rfl

/-- Key generation fails and changes nothing, or fills an empty keypair. -/
theorem mlkem768Keygen_cases (keypair : Option MlkemKeypair) (hA : A.Owns R) :
    ((mlkem768Keygen E keypair A).1 = false ∧ (mlkem768Keygen E keypair A).2.1 = keypair ∧
      (mlkem768Keygen E keypair A).2.2.Owns R ∧ A.next ≤ (mlkem768Keygen E keypair A).2.2.next) ∨
    ((mlkem768Keygen E keypair A).1 = true ∧ keypair = some .empty ∧ ∃ new ek dk,
      (mlkem768Keygen E keypair A).2.1 = some new ∧ new.Holds ek dk ∧ E.keypair = (true, ek, dk) ∧
      (mlkem768Keygen E keypair A).2.2.Owns (new.handles + R)) := by
  cases keypair with
  | none => exact .inl ⟨rfl, rfl, hA, Nat.le_refl _⟩
  | some keypair =>
    by_cases hne : keypair.encapsulationKey.isSome ∨ keypair.decapsulationKey.isSome ∨
        keypair.encapsulationKeyLen ≠ 0 ∨ keypair.decapsulationKeyLen ≠ 0
    · simp only [mlkem768Keygen, if_pos hne]
      exact .inl ⟨trivial, trivial, hA, Nat.le_refl _⟩
    · obtain rfl := MlkemKeypair.eq_empty hne
      obtain ⟨hkem, hle⟩ := mlkem768NewChecked_owns (E := E) hA
      simp only [mlkem768Keygen, if_neg hne]
      generalize mlkem768NewChecked E A = r at hkem hle ⊢
      obtain ⟨kem, A₁⟩ := r
      cases kem with
      | none => exact .inl ⟨rfl, rfl, by simpa using hkem, hle⟩
      | some kem =>
        simp only [Option.isNone_some, Bool.false_eq_true, if_false]
        have hek := hkem.malloc E.mallocEk
        have hle' := hle.trans (A₁.next_le_malloc E.mallocEk)
        generalize A₁.malloc E.mallocEk = r at hek hle' ⊢
        obtain ⟨ek, A₂⟩ := r
        have hdk := hek.malloc E.mallocDk
        have hle'' := hle'.trans (A₂.next_le_malloc E.mallocDk)
        generalize A₂.malloc E.mallocDk = r at hdk hle'' ⊢
        obtain ⟨dk, A₃⟩ := r
        have hall : A₃.Owns (Arena.held ek + (Arena.held dk + (Arena.held (some kem) + R))) := by
          simpa [add_comm, add_left_comm, add_assoc] using hdk
        cases ek with
        | none => exact .inl ⟨rfl, rfl, keygenDone_owns hall, by simpa [keygenDone] using hle''⟩
        | some ek =>
          cases dk with
          | none => exact .inl ⟨rfl, rfl, keygenDone_owns hall, by simpa [keygenDone] using hle''⟩
          | some dk =>
            by_cases hop : E.keypair.1 = false
            · simp only [if_pos hop]
              exact .inl ⟨trivial, trivial, keygenDone_owns hall, by simpa [keygenDone] using hle''⟩
            · simp only [if_neg hop]
              refine .inr ⟨trivial, trivial, _, _, _, rfl, ⟨ek, dk, rfl⟩, ?_, ?_⟩
              · exact Prod.ext (Bool.not_eq_false _ ▸ hop) rfl
              · apply keygenDone_owns
                have hsum : Arena.held none + (Arena.held none + (Arena.held (some kem) +
                    (Arena.held (some ek) + Arena.held (some dk) + R))) =
                    Arena.held (some ek) +
                      (Arena.held (some dk) + (Arena.held (some kem) + R)) := by
                  simp only [Arena.held_none, Multiset.zero_add]
                  ac_rfl
                exact hsum ▸ hall

end

/-! ## Encapsulation and decapsulation -/

/-- The 1088 bytes of a ciphertext are zero, and what is behind them is what was there. -/
def CiphertextZeroed (before after : CArg) : Prop :=
  ∃ b, before = .buf b ∧ mlkem768CiphertextBytes ≤ b.length ∧
    after = .buf (Bytes.zeros mlkem768CiphertextBytes ++ b.drop mlkem768CiphertextBytes)

structure EncapsFails (args : EncapsArgs) (r : EncapsResult) : Prop where
  ret : r.ret = false
  sharedSecret : r.sharedSecret = cleanseSecret args.sharedSecret
  ciphertextLen : r.ciphertextLen = args.ciphertextLen.map fun _ => 0
  ciphertext : r.ciphertext = args.ciphertext ∨ CiphertextZeroed args.ciphertext r.ciphertext

structure EncapsSucceeds (E : KemProvider) (args : EncapsArgs) (r : EncapsResult)
    (ek : EncapsulationKey) (ct : KemCiphertext) (secret : SharedSecret) : Prop where
  ret : r.ret = true
  encapsulationKey : args.encapsulationKey = .buf ek.val
  encaps : E.encaps ek = (true, ct, secret)
  ciphertext : ∃ b, args.ciphertext = .buf b ∧ mlkem768CiphertextBytes ≤ b.length ∧
    r.ciphertext = .buf (ct.val ++ b.drop mlkem768CiphertextBytes)
  ciphertextLen : r.ciphertextLen = some mlkem768CiphertextBytes
  sharedSecret : r.sharedSecret = some secret

theorem write_front (b src : Bytes) : b.write 0 src = src ++ b.drop src.length := by
  simp [Bytes.write]

/-- Cleansing a ciphertext that has been written. -/
theorem write_front_twice (b : Bytes) (ct : KemCiphertext) :
    (b.write 0 ct.val).write 0 (Bytes.zeros mlkem768CiphertextBytes) =
      Bytes.zeros mlkem768CiphertextBytes ++ b.drop mlkem768CiphertextBytes := by
  rw [write_front, write_front, Bytes.zeros_length, ct.length_val]
  congr 1
  exact List.drop_left' ct.length_val

section

variable {E : KemProvider} {A : Arena} {R : Multiset Nat}

/-- By the arguments, the object and the operation. -/
theorem mlkem768Encaps_cases (args : EncapsArgs) (hA : A.Owns R) :
    (EncapsFails args (mlkem768Encaps E args A) ∨
      ∃ ek ct secret, EncapsSucceeds E args (mlkem768Encaps E args A) ek ct secret) ∧
    (mlkem768Encaps E args A).arena.Owns R := by
  obtain ⟨encapsulationKey, ciphertext, ciphertextLen, sharedSecret⟩ := args
  cases encapsulationKey with
  | null len => exact ⟨.inl ⟨rfl, rfl, rfl, .inl rfl⟩, hA⟩
  | buf key =>
  cases ciphertext with
  | null len => exact ⟨.inl ⟨rfl, rfl, rfl, .inl rfl⟩, hA⟩
  | buf ciphertext =>
  cases ciphertextLen with
  | none => exact ⟨.inl ⟨rfl, rfl, rfl, .inl rfl⟩, hA⟩
  | some len =>
  cases sharedSecret with
  | none => exact ⟨.inl ⟨rfl, rfl, rfl, .inl rfl⟩, hA⟩
  | some before =>
  cases hek : Block.ofBytes? mlkem768EncapsulationKeyBytes key with
  | none =>
    simp only [mlkem768Encaps, cleanseSecret, Option.map_some, hek]
    exact ⟨.inl ⟨rfl, rfl, rfl, .inl rfl⟩, hA⟩
  | some ek =>
  obtain rfl : ek.val = key := Block.ofBytes?_eq_some.mp hek
  simp only [mlkem768Encaps, cleanseSecret, Option.map_some, hek]
  by_cases hlen : ciphertext.length < mlkem768CiphertextBytes
  · rw [if_pos hlen]
    exact ⟨.inl ⟨rfl, rfl, rfl, .inl rfl⟩, hA⟩
  · rw [if_neg hlen]
    obtain ⟨hkem, _⟩ := mlkem768NewChecked_owns (E := E) hA
    generalize mlkem768NewChecked E A = r at hkem ⊢
    obtain ⟨kem, A₁⟩ := r
    cases kem with
    | none => exact ⟨.inl ⟨rfl, rfl, rfl, .inl rfl⟩, by simpa using hkem⟩
    | some kem =>
      simp only [Option.isNone_some, Bool.false_eq_true, if_false]
      by_cases hop : (E.encaps ek).1 = false
      · rw [if_pos hop, write_front_twice]
        exact ⟨.inl ⟨rfl, rfl, rfl, .inr ⟨ciphertext, rfl, Nat.not_lt.mp hlen, rfl⟩⟩, hkem.freeOpt⟩
      · rw [if_neg hop]
        refine ⟨.inr ⟨ek, (E.encaps ek).2.1, (E.encaps ek).2.2, rfl, rfl, ?_, ?_, rfl, rfl⟩,
          hkem.freeOpt⟩
        · exact Prod.ext (Bool.not_eq_false _ ▸ hop) rfl
        · refine ⟨ciphertext, rfl, Nat.not_lt.mp hlen, ?_⟩
          rw [write_front, (E.encaps ek).2.1.length_val]

structure DecapsFails (args : DecapsArgs) (r : DecapsResult) : Prop where
  ret : r.ret = false
  sharedSecret : r.sharedSecret = cleanseSecret args.sharedSecret

theorem mlkem768Decaps_cases (args : DecapsArgs) (hA : A.Owns R) :
    (DecapsFails args (mlkem768Decaps E args A) ∨
      ∃ dk ct secret, (mlkem768Decaps E args A).ret = true ∧ args.decapsulationKey = .buf dk.val ∧
        args.ciphertext = .buf ct.val ∧ E.decaps dk ct = (true, secret) ∧
        (mlkem768Decaps E args A).sharedSecret = some secret) ∧
    (mlkem768Decaps E args A).arena.Owns R := by
  obtain ⟨decapsulationKey, ciphertext, sharedSecret⟩ := args
  cases decapsulationKey with
  | null len => exact ⟨.inl ⟨rfl, rfl⟩, hA⟩
  | buf key =>
  cases ciphertext with
  | null len => exact ⟨.inl ⟨rfl, rfl⟩, hA⟩
  | buf ciphertext =>
  cases sharedSecret with
  | none => exact ⟨.inl ⟨rfl, rfl⟩, hA⟩
  | some before =>
  cases hdk : Block.ofBytes? mlkem768DecapsulationKeyBytes key with
  | none =>
    simp only [mlkem768Decaps, hdk]
    exact ⟨.inl ⟨rfl, rfl⟩, hA⟩
  | some dk =>
  cases hct : Block.ofBytes? mlkem768CiphertextBytes ciphertext with
  | none =>
    simp only [mlkem768Decaps, hdk, hct]
    exact ⟨.inl ⟨rfl, rfl⟩, hA⟩
  | some ct =>
  obtain rfl : dk.val = key := Block.ofBytes?_eq_some.mp hdk
  obtain rfl : ct.val = ciphertext := Block.ofBytes?_eq_some.mp hct
  simp only [mlkem768Decaps, hdk, hct]
  obtain ⟨hkem, _⟩ := mlkem768NewChecked_owns (E := E) hA
  generalize mlkem768NewChecked E A = r at hkem ⊢
  obtain ⟨kem, A₁⟩ := r
  cases kem with
  | none => exact ⟨.inl ⟨rfl, rfl⟩, by simpa using hkem⟩
  | some kem =>
    simp only [Option.isNone_some, Bool.false_eq_true, if_false]
    by_cases hop : (E.decaps dk ct).1 = false
    · rw [if_pos hop]
      exact ⟨.inl ⟨rfl, rfl⟩, hkem.freeOpt⟩
    · rw [if_neg hop]
      refine ⟨.inr ⟨dk, ct, (E.decaps dk ct).2, rfl, rfl, rfl, ?_, rfl⟩, hkem.freeOpt⟩
      exact Prod.ext (Bool.not_eq_false _ ▸ hop) rfl

end

/-! ## Call sequences -/

section

variable {F : KemProvider → Prop} {E : KemProvider} {s : MlkemState}

/-- Cleaning up releases both buffers. -/
theorem mlkemKeypairCleanup_owns (hs : s.Inv F) :
    (mlkemKeypairCleanup (some s.keypair) s.arena).2.Owns MlkemKeypair.empty.handles := by
  have howns := hs.owns
  rw [MlkemKeypair.handles, ← Multiset.add_zero (_ + _), Multiset.add_assoc] at howns
  exact howns.freeOpt.freeOpt

/-- One call keeps the invariant. -/
theorem mlkemStep_inv (hE : F E) (call : MlkemCall) (hs : s.Inv F) :
    (mlkemStep E call s).Inv F := by
  cases call with
  | keygen null =>
    cases null with
    | true => exact hs
    | false =>
      have hkeygen : mlkemStep E (.keygen false) s =
          ⟨(mlkem768Keygen E (some s.keypair) s.arena).2.1.getD s.keypair,
            (mlkem768Keygen E (some s.keypair) s.arena).2.2⟩ := rfl
      rw [hkeygen]
      obtain ⟨_, hsame, howns, _⟩ | ⟨_, hempty, new, ek, dk, hnew, hholds, hgen, howns⟩ :=
        mlkem768Keygen_cases (E := E) (some s.keypair) hs.owns
      · rw [hsame]
        exact ⟨hs.keypair, howns⟩
      · rw [Option.some.inj hempty, MlkemKeypair.handles_empty, Multiset.add_zero] at howns
        rw [hnew, Option.some.inj hempty]
        exact ⟨.inr ⟨ek, dk, hholds, E, hE, hgen⟩, howns⟩
  | encaps args => exact ⟨hs.keypair, (mlkem768Encaps_cases args hs.owns).2⟩
  | decaps args => exact ⟨hs.keypair, (mlkem768Decaps_cases args hs.owns).2⟩
  | cleanup null =>
    cases null with
    | true => exact hs
    | false => exact ⟨.inl rfl, mlkemKeypairCleanup_owns hs⟩

theorem MlkemReaches.inv (h : MlkemReaches F s) : s.Inv F := by
  induction h with
  | start => exact ⟨.inl rfl, Arena.owns_empty⟩
  | step call _ hE ih => exact mlkemStep_inv hE call ih

end

/-! ## The contract -/

/-- liboqs has the algorithm with its parameters. -/
def KemProvider.Available (E : KemProvider) : Prop :=
  E.algIsEnabled = true ∧ ∃ kem, E.kemNew = some kem ∧ kem.isMlKem768 = true

/-- Providers that belong together: decapsulation under a generated key returns what was
encapsulated under its other half. -/
def CorrectProviders (F : KemProvider → Prop) : Prop :=
  ∀ ek dk, Generated F ek dk → ∀ E E', F E → F E' → ∀ ct secret,
    E.encaps ek = (true, ct, secret) → E'.decaps dk ct = (true, secret)

theorem mlkem768NewChecked_available {E : KemProvider} (h : E.Available) (A : Arena) :
    (mlkem768NewChecked E A).1.isNone = false := by
  obtain ⟨hen, kem, hkem, hc⟩ := h
  simp [mlkem768NewChecked, hen, hkem, hc, Arena.malloc]

theorem ofBytes?_val {n : Nat} (a : Block n) : Block.ofBytes? n a.val = some a :=
  Block.ofBytes?_eq_some.mpr rfl

/-- Where the algorithm is there, decapsulation is the provider's. -/
theorem mlkem768Decaps_available {E : KemProvider} (h : E.Available) {dk : DecapsulationKey}
    {ct : KemCiphertext} {secret : SharedSecret} (hop : E.decaps dk ct = (true, secret))
    (before : SharedSecret) (A : Arena) :
    (mlkem768Decaps E ⟨.buf dk.val, .buf ct.val, some before⟩ A).ret = true ∧
    (mlkem768Decaps E ⟨.buf dk.val, .buf ct.val, some before⟩ A).sharedSecret = some secret := by
  simp [mlkem768Decaps, ofBytes?_val, mlkem768NewChecked_available h, hop]

/-- A keypair that is held was generated. -/
theorem MlkemState.Inv.generated {F : KemProvider → Prop} {s : MlkemState} (hs : s.Inv F)
    {ek : EncapsulationKey} {dk : DecapsulationKey} (hholds : s.keypair.Holds ek dk) :
    Generated F ek dk := by
  obtain ⟨_, _, hk⟩ := hholds
  obtain hempty | ⟨ek', dk', ⟨_, _, hk'⟩, hgen⟩ := hs.keypair
  · rw [hempty] at hk
    cases hk
  · rw [hk] at hk'
    cases hk'
    exact hgen

/-- Key generation on the keypair of a state, or on `NULL`. -/
theorem mlkem768Keygen_contract {s : MlkemState} {R : Multiset Nat} (hA : s.arena.Owns R)
    (E : KemProvider) (null : Bool) :
    ((mlkem768Keygen E (s.argument null) s.arena).1 = true →
      null = false ∧ s.keypair = .empty ∧ ∃ new ek dk,
        (mlkem768Keygen E (s.argument null) s.arena).2.1 = some new ∧ new.Holds ek dk) ∧
    ((mlkem768Keygen E (s.argument null) s.arena).1 = false →
      (mlkem768Keygen E (s.argument null) s.arena).2.1 = s.argument null ∧
      ∀ h, s.arena.next ≤ h → h < (mlkem768Keygen E (s.argument null) s.arena).2.2.next →
        (mlkem768Keygen E (s.argument null) s.arena).2.2.freed.count h = 1) := by
  obtain ⟨hret, hsame, howns, _⟩ | ⟨hret, hempty, new, ek, dk, hnew, hholds, _⟩ :=
    mlkem768Keygen_cases (E := E) (s.argument null) hA
  · rw [hret]
    refine ⟨fun h => absurd h Bool.false_ne_true, fun _ => ⟨hsame, ?_⟩⟩
    intro h hle hlt
    exact hA.released howns hle hlt
  · rw [hret]
    refine ⟨fun _ => ?_, fun h => absurd h.symm Bool.false_ne_true⟩
    cases null with
    | true => cases hempty
    | false => exact ⟨rfl, Option.some.inj hempty, new, ek, dk, hnew, hholds⟩

/-- What was encapsulated under the key of a generated pair is decapsulated under the other. -/
theorem mlkem768_roundtrip {F : KemProvider → Prop} (hF : CorrectProviders F)
    {ek : EncapsulationKey} {dk : DecapsulationKey} (hgen : Generated F ek dk) {E E' : KemProvider}
    (hE : F E) (hE' : F E') (hav : E'.Available) {args : EncapsArgs} {A : Arena}
    {R : Multiset Nat} (hA : A.Owns R) (hkey : args.encapsulationKey = .buf ek.val)
    (hret : (mlkem768Encaps E args A).ret = true) :
    ∃ (ct : KemCiphertext) (rest : Bytes) (secret : SharedSecret),
      (mlkem768Encaps E args A).ciphertext = .buf (ct.val ++ rest) ∧
      (mlkem768Encaps E args A).ciphertextLen = some ct.val.length ∧
      (mlkem768Encaps E args A).sharedSecret = some secret ∧
      ∀ before A', (mlkem768Decaps E' ⟨.buf dk.val, .buf ct.val, some before⟩ A').ret = true ∧
        (mlkem768Decaps E' ⟨.buf dk.val, .buf ct.val, some before⟩ A').sharedSecret =
          some secret := by
  obtain hfails | ⟨ek', ct, secret, hok⟩ := (mlkem768Encaps_cases (E := E) args hA).1
  · rw [hfails.ret] at hret
    cases hret
  have hek : Block.ofBytes? mlkem768EncapsulationKeyBytes ek.val = some ek' :=
    Block.ofBytes?_eq_some.mpr (CArg.buf.inj (hok.encapsulationKey.symm.trans hkey))
  obtain rfl : ek = ek' := Option.some.inj ((ofBytes?_val ek).symm.trans hek)
  obtain ⟨b, _, _, hct⟩ := hok.ciphertext
  refine ⟨ct, _, secret, hct, ?_, hok.sharedSecret, ?_⟩
  · rw [hok.ciphertextLen, ct.length_val]
  · intro before A'
    exact mlkem768Decaps_available hav (hF _ _ hgen E E' hE hE' ct secret hok.encaps) before A'

/-- **The error contract.** After any calls from a zeroed keypair:
* the keypair is empty or holds both keys with their exact lengths, and each buffer given out is
  released once unless the keypair holds it;
* `mlkem768_keygen` succeeds only on an empty keypair; when it fails the keypair is as it was and
  what it has allocated is released;
* when `mlkem768_encaps` fails the secret is zero, the length 0, and the ciphertext untouched, or
  its 1088 bytes zero and the rest of the buffer untouched; when `mlkem768_decaps` fails the secret
  is zero;
* with providers that belong together, decapsulation returns what encapsulation did. -/
theorem mlkem_error_contract {F : KemProvider → Prop} {s : MlkemState} (hs : MlkemReaches F s) :
    (s.keypair = .empty ∨ ∃ ek dk, s.keypair.Holds ek dk) ∧
    (∀ h, h < s.arena.next → s.arena.freed.count h = if h ∈ s.keypair.handles then 0 else 1) ∧
    (∀ E null,
      ((mlkem768Keygen E (s.argument null) s.arena).1 = true →
        null = false ∧ s.keypair = .empty ∧ ∃ new ek dk,
          (mlkem768Keygen E (s.argument null) s.arena).2.1 = some new ∧ new.Holds ek dk) ∧
      ((mlkem768Keygen E (s.argument null) s.arena).1 = false →
        (mlkem768Keygen E (s.argument null) s.arena).2.1 = s.argument null ∧
        ∀ h, s.arena.next ≤ h → h < (mlkem768Keygen E (s.argument null) s.arena).2.2.next →
          (mlkem768Keygen E (s.argument null) s.arena).2.2.freed.count h = 1)) ∧
    (∀ E args, (mlkem768Encaps E args s.arena).ret = false →
      EncapsFails args (mlkem768Encaps E args s.arena)) ∧
    (∀ E args, (mlkem768Decaps E args s.arena).ret = false →
      DecapsFails args (mlkem768Decaps E args s.arena)) ∧
    (CorrectProviders F → ∀ ek dk, s.keypair.Holds ek dk →
      ∀ E E', F E → F E' → E'.Available → ∀ args, args.encapsulationKey = .buf ek.val →
      (mlkem768Encaps E args s.arena).ret = true →
      ∃ (ct : KemCiphertext) (rest : Bytes) (secret : SharedSecret),
        (mlkem768Encaps E args s.arena).ciphertext = .buf (ct.val ++ rest) ∧
        (mlkem768Encaps E args s.arena).ciphertextLen = some ct.val.length ∧
        (mlkem768Encaps E args s.arena).sharedSecret = some secret ∧
        ∀ before A, (mlkem768Decaps E' ⟨.buf dk.val, .buf ct.val, some before⟩ A).ret = true ∧
          (mlkem768Decaps E' ⟨.buf dk.val, .buf ct.val, some before⟩ A).sharedSecret =
            some secret) := by
  have hinv := hs.inv
  refine ⟨?_, ?_, ?_, ?_, ?_, ?_⟩
  · obtain hempty | ⟨ek, dk, hholds, _⟩ := hinv.keypair
    · exact .inl hempty
    · exact .inr ⟨ek, dk, hholds⟩
  · intro h hlt
    exact hinv.owns.count_freed hlt
  · intro E null
    exact mlkem768Keygen_contract hinv.owns E null
  · intro E args hret
    obtain hfails | ⟨_, _, _, hok⟩ := (mlkem768Encaps_cases (E := E) args hinv.owns).1
    · exact hfails
    · rw [hok.ret] at hret
      cases hret
  · intro E args hret
    obtain hfails | ⟨_, _, _, hok, _⟩ := (mlkem768Decaps_cases (E := E) args hinv.owns).1
    · exact hfails
    · rw [hok] at hret
      cases hret
  · intro hF ek dk hholds E E' hE hE' hav args hkey hret
    exact mlkem768_roundtrip hF (hinv.generated hholds) hE hE' hav hinv.owns hkey hret

namespace Toy

def kemName : CString := ⟨oqsKemAlgMlKem768, by decide +kernel⟩
def kemVersion : CString := ⟨oqsKemFips203, by decide +kernel⟩

/-- A provider whose two keys start alike, and whose secret is that start; `ok` is what
`OQS_KEM_encaps` returns. -/
def kemProvider (ok : Bool) : KemProvider where
  algIsEnabled := true
  kemNew := some ⟨some kemName, some kemVersion, mlkem768EncapsulationKeyBytes,
    mlkem768DecapsulationKeyBytes, mlkem768CiphertextBytes, mlkem768SharedSecretBytes⟩
  mallocEk := true
  mallocDk := true
  keypair := (true, (Block.zero _).memcpy [1, 2, 3], (Block.zero _).memcpy [1, 2, 3])
  encaps ek := (ok, (Block.zero _).memcpy [4, 5], (Block.zero _).memcpy ek.val)
  decaps dk _ := (true, (Block.zero _).memcpy (dk.val.take 32))

theorem kemProvider_available (ok : Bool) : (kemProvider ok).Available :=
  ⟨rfl, _, rfl, by decide +kernel⟩

def kemKeys : EncapsulationKey × DecapsulationKey := (kemProvider true).keypair.2

theorem kemProvider_correct : CorrectProviders (· = kemProvider true) := by
  intro ek dk hgen E E' hE hE' ct secret hencaps
  obtain ⟨_, rfl, hkeys⟩ := hgen
  subst hE hE'
  cases hkeys
  cases hencaps
  decide +kernel

/-- The state after one key generation. -/
def kemState : MlkemState := mlkemStep (kemProvider true) (.keygen false) ⟨.empty, .empty⟩

/-- A ciphertext buffer that is one byte longer than a ciphertext. -/
def longBuffer : Bytes := List.replicate 1089 0xaa

def encapsArgs : EncapsArgs :=
  ⟨.buf (Block.zero mlkem768EncapsulationKeyBytes).val, .buf longBuffer, some 7,
    some (Block.zero _)⟩

end Toy

/-- `OQS_KEM_encaps` fails on a buffer that is longer than a ciphertext: the buffer is neither
untouched nor zeroed. -/
theorem mlkem_encaps_neither_untouched_nor_zeroed :
    (mlkem768Encaps (Toy.kemProvider false) Toy.encapsArgs .empty).ret = false ∧
    (mlkem768Encaps (Toy.kemProvider false) Toy.encapsArgs .empty).ciphertext =
      .buf (Bytes.zeros 1088 ++ [0xaa]) ∧
    (mlkem768Encaps (Toy.kemProvider false) Toy.encapsArgs .empty).ciphertext ≠
      Toy.encapsArgs.ciphertext ∧
    (mlkem768Encaps (Toy.kemProvider false) Toy.encapsArgs .empty).ciphertext ≠
      .buf (Bytes.zeros 1089) := by
  decide +kernel

/-- Key generation, encapsulation under the new key, and decapsulation. -/
theorem mlkem_error_contract_roundtrip : ∃ (ct : KemCiphertext) (secret : SharedSecret),
    (mlkem768Encaps (Toy.kemProvider true)
      ⟨.buf Toy.kemKeys.1.val, .buf Toy.longBuffer, some 7, some (Block.zero _)⟩
      Toy.kemState.arena).sharedSecret = some secret ∧
    (mlkem768Decaps (Toy.kemProvider true)
      ⟨.buf Toy.kemKeys.2.val, .buf ct.val, some (Block.zero _)⟩
      Toy.kemState.arena).sharedSecret = some secret := by
  have hreach : MlkemReaches (· = Toy.kemProvider true) Toy.kemState := .step _ .start rfl
  have hholds : Toy.kemState.keypair.Holds Toy.kemKeys.1 Toy.kemKeys.2 := ⟨1, 2, rfl⟩
  obtain ⟨_, _, _, _, _, hround⟩ := mlkem_error_contract hreach
  obtain ⟨ct, _, secret, _, _, hsecret, hdecaps⟩ :=
    hround Toy.kemProvider_correct _ _ hholds _ _ rfl rfl
    (Toy.kemProvider_available true)
    ⟨.buf Toy.kemKeys.1.val, .buf Toy.longBuffer, some 7, some (Block.zero _)⟩ rfl
    (by decide +kernel)
  exact ⟨ct, secret, hsecret, (hdecaps (Block.zero _) Toy.kemState.arena).2⟩

end HybridPqc
