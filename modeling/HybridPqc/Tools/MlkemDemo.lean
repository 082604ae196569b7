import HybridPqc.Mlkem.Contract

/-!
# Tools.MlkemDemo

`mlkem_demo.c`: a provider check, key generation, encapsulation and decapsulation one after the
other, each only if the one before has succeeded, and the cleanups whatever came of them.

Each call meets a provider of its own, so any of them may fail or go wrong where another did not.
`mlkem_demo_accounted`: the program leaves nothing behind; with providers that belong together, the
secrets agree after a decapsulation.
-/

namespace HybridPqc

open Refs

def mlkem768ProviderCheck (E : KemProvider) (A : Arena) : Bool × Arena :=
  let (kem, A) := mlkem768NewChecked E A
  if kem.isNone then (false, A) else (true, A.freeOpt kem)

/-- A key and its length, as they are passed on. -/
def KeyBuffer.arg {n : Nat} (key : Option (KeyBuffer n)) (len : Nat) : CArg :=
  match key with
  | none => .null len
  | some key => .buf key.contents.val

/-- What the four calls meet in liboqs. -/
structure DemoProviders where
  check : KemProvider
  keygen : KemProvider
  encaps : KemProvider
  decaps : KemProvider

/-- The variables of `main` when it returns. -/
structure MlkemDemo where
  keygenOk : Bool
  encapsOk : Bool
  decapsOk : Bool
  matchOk : Bool
  serverSecret : Option SharedSecret
  clientSecret : Option SharedSecret
  client : Option MlkemKeypair
  arena : Arena

/-- `EXIT_SUCCESS` -/
def MlkemDemo.success (r : MlkemDemo) : Bool :=
  r.keygenOk && r.encapsOk && r.decapsOk && r.matchOk

section

variable (P : DemoProviders)

def demoKeygen (A : Arena) : Bool × Option MlkemKeypair × Arena :=
  let (available, A) := mlkem768ProviderCheck P.check A
  if available then mlkem768Keygen P.keygen (some .empty) A else (false, some .empty, A)

/-- `ciphertext` is what the buffer holds before. -/
def demoEncaps (keygenOk : Bool) (client : MlkemKeypair) (ciphertext : KemCiphertext) (A : Arena) :
    EncapsResult :=
  if keygenOk then
    mlkem768Encaps P.encaps ⟨KeyBuffer.arg client.encapsulationKey client.encapsulationKeyLen,
      .buf ciphertext.val, some 0, some (Block.zero _)⟩ A
  else ⟨false, .buf ciphertext.val, some 0, some (Block.zero _), A⟩

def demoDecaps (client : MlkemKeypair) (enc : EncapsResult) : DecapsResult :=
  if enc.ret then
    mlkem768Decaps P.decaps ⟨KeyBuffer.arg client.decapsulationKey client.decapsulationKeyLen,
      .buf (enc.ciphertext.bytes.take (enc.ciphertextLen.getD 0)), some (Block.zero _)⟩ enc.arena
  else ⟨false, some (Block.zero _), enc.arena⟩

/-- `main` -/
def mlkemDemoMain (ciphertext : KemCiphertext) : MlkemDemo :=
  let (keygenOk, client, A) := demoKeygen P .empty
  let enc := demoEncaps P keygenOk (client.getD .empty) ciphertext A
  let dec := demoDecaps P (client.getD .empty) enc
  let (client, A) := mlkemKeypairCleanup client dec.arena
  { keygenOk := keygenOk
    encapsOk := enc.ret
    decapsOk := dec.ret
    matchOk := dec.ret && decide (enc.sharedSecret = dec.sharedSecret)
    serverSecret := cleanseSecret enc.sharedSecret
    clientSecret := cleanseSecret dec.sharedSecret
    client := client
    arena := A }

end

section

variable {P : DemoProviders} {A : Arena} {R : Multiset Nat}

theorem mlkem768ProviderCheck_owns {E : KemProvider} (hA : A.Owns R) :
    (mlkem768ProviderCheck E A).2.Owns R := by
  obtain ⟨hkem, _⟩ := mlkem768NewChecked_owns (E := E) hA
  unfold mlkem768ProviderCheck
  generalize mlkem768NewChecked E A = r at hkem ⊢
  obtain ⟨kem, A₁⟩ := r
  cases kem with
  | none => simpa using hkem
  | some kem => exact hkem.freeOpt

/-- The keypair is what the arena still holds, and was generated where there is one. -/
theorem demoKeygen_spec : ∃ client, (demoKeygen P .empty).2.1 = some client ∧
    (demoKeygen P .empty).2.2.Owns client.handles ∧
    ((demoKeygen P .empty).1 = true →
      ∃ ek dk, client.Holds ek dk ∧ P.keygen.keypair = (true, ek, dk)) := by
  have hcheck := mlkem768ProviderCheck_owns (E := P.check) Arena.owns_empty
  unfold demoKeygen
  generalize mlkem768ProviderCheck P.check .empty = r at hcheck ⊢
  obtain ⟨available, A⟩ := r
  cases available with
  | false => exact ⟨.empty, rfl, hcheck, nofun⟩
  | true =>
    simp only [if_true]
    obtain ⟨hret, hsame, howns, _⟩ | ⟨_, _, new, ek, dk, hnew, hholds, hgen, howns⟩ :=
      mlkem768Keygen_cases (E := P.keygen) (some .empty) hcheck
    · refine ⟨.empty, hsame, howns, ?_⟩
      intro hok
      rw [hret] at hok
      cases hok
    · rw [Multiset.add_zero] at howns
      exact ⟨new, hnew, howns, fun _ => ⟨ek, dk, hholds, hgen⟩⟩

theorem cleanseSecret_isSome {secret : Option SharedSecret} (h : secret.isSome = true) :
    cleanseSecret secret = some (Block.zero _) := by
  obtain ⟨secret, rfl⟩ := Option.isSome_iff_exists.mp h
  rfl

/-- An encapsulation that succeeds is one under the generated key. -/
theorem demoEncaps_spec (hA : A.Owns R) (keygenOk : Bool) (client : MlkemKeypair)
    (ciphertext : KemCiphertext) :
    (demoEncaps P keygenOk client ciphertext A).arena.Owns R ∧
    (demoEncaps P keygenOk client ciphertext A).sharedSecret.isSome = true ∧
    ((demoEncaps P keygenOk client ciphertext A).ret = true → keygenOk = true ∧
      ∀ ek dk, client.Holds ek dk → ∃ ct secret, P.encaps.encaps ek = (true, ct, secret) ∧
        (demoEncaps P keygenOk client ciphertext A).ciphertext = .buf ct.val ∧
        (demoEncaps P keygenOk client ciphertext A).ciphertextLen = some mlkem768CiphertextBytes ∧
        (demoEncaps P keygenOk client ciphertext A).sharedSecret = some secret) := by
  cases keygenOk with
  | false => exact ⟨hA, rfl, nofun⟩
  | true =>
    simp only [demoEncaps, if_true]
    obtain ⟨hcases, howns⟩ := mlkem768Encaps_cases (E := P.encaps)
      ⟨KeyBuffer.arg client.encapsulationKey client.encapsulationKeyLen, .buf ciphertext.val,
        some 0, some (Block.zero _)⟩ hA
    refine ⟨howns, ?_, ?_⟩
    · obtain hfails | ⟨_, _, _, hok⟩ := hcases
      · rw [hfails.sharedSecret]
        rfl
      · rw [hok.sharedSecret]
        rfl
    · intro hret
      obtain hfails | ⟨ek', ct, secret, hok⟩ := hcases
      · rw [hfails.ret] at hret
        cases hret
      refine ⟨trivial, ?_⟩
      intro ek dk hholds
      obtain ⟨_, _, rfl⟩ := hholds
      have hek : ek = ek' :=
        Option.some.inj ((ofBytes?_val ek).symm.trans
          (Block.ofBytes?_eq_some.mpr (CArg.buf.inj hok.encapsulationKey.symm)))
      obtain ⟨b, hb, _, hct⟩ := hok.ciphertext
      have hdrop : b.drop mlkem768CiphertextBytes = [] := by
        rw [← CArg.buf.inj hb]
        exact List.drop_eq_nil_of_le (Nat.le_of_eq ciphertext.length_val)
      rw [hdrop, List.append_nil] at hct
      exact ⟨ct, secret, hek ▸ hok.encaps, hct, hok.ciphertextLen, hok.sharedSecret⟩

theorem demoDecaps_spec {enc : EncapsResult} (hA : enc.arena.Owns R) (client : MlkemKeypair) :
    (demoDecaps P client enc).arena.Owns R ∧
    (demoDecaps P client enc).sharedSecret.isSome = true := by
  unfold demoDecaps
  split
  · obtain ⟨hcases, howns⟩ := mlkem768Decaps_cases (E := P.decaps)
      ⟨KeyBuffer.arg client.decapsulationKey client.decapsulationKeyLen,
        .buf (enc.ciphertext.bytes.take (enc.ciphertextLen.getD 0)), some (Block.zero _)⟩ hA
    refine ⟨howns, ?_⟩
    obtain hfails | ⟨_, _, _, _, _, _, _, hsecret⟩ := hcases
    · rw [hfails.sharedSecret]
      rfl
    · rw [hsecret]
      rfl
  · exact ⟨hA, rfl⟩

/-- What was encapsulated under a generated key. -/
theorem demoDecaps_agrees {F : KemProvider → Prop} (hF : CorrectProviders F) (hkeygen : F P.keygen)
    (hencaps : F P.encaps) (hdecaps : F P.decaps) {enc : EncapsResult} (hA : enc.arena.Owns R)
    {client : MlkemKeypair} {ek : EncapsulationKey} {dk : DecapsulationKey} {ct : KemCiphertext}
    {secret : SharedSecret} (hholds : client.Holds ek dk)
    (hgen : P.keygen.keypair = (true, ek, dk)) (hret : enc.ret = true)
    (hop : P.encaps.encaps ek = (true, ct, secret)) (hct : enc.ciphertext = .buf ct.val)
    (hlen : enc.ciphertextLen = some mlkem768CiphertextBytes) :
    ((demoDecaps P client enc).ret = true →
      (demoDecaps P client enc).sharedSecret = some secret) ∧
    (P.decaps.Available → (demoDecaps P client enc).ret = true) := by
  have hback : P.decaps.decaps dk ct = (true, secret) :=
    hF ek dk ⟨P.keygen, hkeygen, hgen⟩ _ _ hencaps hdecaps ct secret hop
  have htake : enc.ciphertext.bytes.take (enc.ciphertextLen.getD 0) = ct.val := by
    rw [hct, hlen]
    exact List.take_of_length_le (Nat.le_of_eq ct.length_val)
  obtain ⟨_, _, rfl⟩ := hholds
  simp only [demoDecaps, hret, if_true, htake, KeyBuffer.arg]
  constructor
  · intro hok
    obtain hfails | ⟨dk', ct', secret', _, hdk, hct', hdec, hsecret⟩ :=
      (mlkem768Decaps_cases (E := P.decaps) ⟨.buf dk.val, .buf ct.val, some (Block.zero _)⟩ hA).1
    · rw [hfails.ret] at hok
      cases hok
    have hdk' : dk = dk' := Option.some.inj ((ofBytes?_val dk).symm.trans
      (Block.ofBytes?_eq_some.mpr (CArg.buf.inj hdk.symm)))
    have hct'' : ct = ct' := Option.some.inj ((ofBytes?_val ct).symm.trans
      (Block.ofBytes?_eq_some.mpr (CArg.buf.inj hct'.symm)))
    rw [← hdk', ← hct'', hback] at hdec
    cases hdec
    exact hsecret
  · intro havailable
    exact (mlkem768Decaps_available havailable hback _ _).1

end

/-- Every call meets a provider of the family `F`. -/
structure DemoProviders.Among (F : KemProvider → Prop) (P : DemoProviders) : Prop where
  keygen : F P.keygen
  encaps : F P.encaps
  decaps : F P.decaps

/-- The variables of a run, with the keypair that the arena holds before the cleanups. -/
theorem mlkemDemoMain_spec (P : DemoProviders) (ciphertext : KemCiphertext) :
    ∃ client keygenOk, ∃ enc : EncapsResult,
      (keygenOk = true → ∃ ek dk, client.Holds ek dk ∧ P.keygen.keypair = (true, ek, dk)) ∧
      (enc.ret = true → keygenOk = true ∧
        ∀ ek dk, client.Holds ek dk → ∃ ct secret, P.encaps.encaps ek = (true, ct, secret) ∧
          enc.ciphertext = .buf ct.val ∧ enc.ciphertextLen = some mlkem768CiphertextBytes ∧
          enc.sharedSecret = some secret) ∧
      enc.arena.Owns client.handles ∧ enc.sharedSecret.isSome = true ∧
      mlkemDemoMain P ciphertext =
        let dec := demoDecaps P client enc
        ⟨keygenOk, enc.ret, dec.ret, dec.ret && decide (enc.sharedSecret = dec.sharedSecret),
          cleanseSecret enc.sharedSecret, cleanseSecret dec.sharedSecret,
          (mlkemKeypairCleanup (some client) dec.arena).1,
          (mlkemKeypairCleanup (some client) dec.arena).2⟩ := by
  obtain ⟨client, hclient, howns, hgen⟩ := demoKeygen_spec (P := P)
  obtain ⟨henc, hsecret, hok⟩ :=
    demoEncaps_spec (P := P) howns (demoKeygen P .empty).1 client ciphertext
  refine ⟨client, _, _, hgen, hok, henc, hsecret, ?_⟩
  simp only [mlkemDemoMain, hclient, Option.getD_some]

/-- **The demo.** Whichever of the four calls fail, and wherever: every allocation is released once,
the keypair is empty and the secrets are zero when `main` returns. With providers that belong
together the program succeeds once the decapsulation has, and after an encapsulation that fails only
where liboqs does not have the algorithm any more. -/
theorem mlkem_demo_accounted (P : DemoProviders) (ciphertext : KemCiphertext) :
    let r := mlkemDemoMain P ciphertext
    (∀ h, h < r.arena.next → r.arena.freed.count h = 1) ∧ r.client = some .empty ∧
    r.serverSecret = some (Block.zero _) ∧ r.clientSecret = some (Block.zero _) ∧
    ∀ F, CorrectProviders F → P.Among F →
      (r.decapsOk = true → r.success = true) ∧
      (r.encapsOk = true → P.decaps.Available → r.success = true) := by
  intro r
  obtain ⟨client, keygenOk, enc, hgen, hencaps, henc, hencSecret, hr⟩ :=
    mlkemDemoMain_spec P ciphertext
  obtain ⟨hdec, hdecSecret⟩ := demoDecaps_spec (P := P) henc client
  refine ⟨?_, ?_, ?_, ?_, ?_⟩
  · intro h hlt
    have hfreed : (mlkemKeypairCleanup (some client) (demoDecaps P client enc).arena).2.Owns 0 := by
      rw [← Multiset.add_zero client.handles, MlkemKeypair.handles, Multiset.add_assoc] at hdec
      exact hdec.freeOpt.freeOpt
    simp only [r, hr] at hlt ⊢
    exact hfreed.freed_once hlt (Multiset.notMem_zero h)
  · simp only [r, hr]
    rfl
  · simp only [r, hr]
    exact cleanseSecret_isSome hencSecret
  · simp only [r, hr]
    exact cleanseSecret_isSome hdecSecret
  · intro F hF hP
    have hran : (demoDecaps P client enc).ret = true → enc.ret = true := by
      intro hd
      by_contra hno
      simp [demoDecaps, hno] at hd
    have hagrees : enc.ret = true → keygenOk = true ∧
        ((demoDecaps P client enc).ret = true →
          enc.sharedSecret = (demoDecaps P client enc).sharedSecret) ∧
        (P.decaps.Available → (demoDecaps P client enc).ret = true) := by
      intro hret
      obtain ⟨hkeygen, hsecret⟩ := hencaps hret
      obtain ⟨ek, dk, hholds, hpair⟩ := hgen hkeygen
      obtain ⟨ct, secret, hop, hct, hlen, hsame⟩ := hsecret ek dk hholds
      obtain ⟨hmatch, havailable⟩ := demoDecaps_agrees hF hP.keygen hP.encaps hP.decaps henc hholds
        hpair hret hop hct hlen
      exact ⟨hkeygen, fun hd => hsame.trans (hmatch hd).symm, havailable⟩
    have hsuccess : (demoDecaps P client enc).ret = true → r.success = true := by
      intro hd
      obtain ⟨hkeygen, hsame, _⟩ := hagrees (hran hd)
      simp [r, hr, MlkemDemo.success, hkeygen, hran hd, hd, hsame hd]
    constructor
    · intro hd
      simp only [r, hr] at hd
      exact hsuccess hd
    · intro he havailable
      simp only [r, hr] at he
      exact hsuccess ((hagrees he).2.2 havailable)

/-- One provider for all calls. -/
theorem mlkem_demo_accounted_toy :
    let E := Toy.kemProvider true
    (mlkemDemoMain ⟨E, E, E, E⟩ (Block.zero _)).success = true := by
  intro E
  obtain ⟨_, _, _, _, hcorrect⟩ := mlkem_demo_accounted ⟨E, E, E, E⟩ (Block.zero _)
  exact (hcorrect _ Toy.kemProvider_correct ⟨rfl, rfl, rfl⟩).2 (by decide +kernel)
    (Toy.kemProvider_available true)

end HybridPqc
