import HybridPqc.Composite.Sig

/-!
# Composite.Toy

A concrete `Crypto`, to show that the assumptions of the theorems can be met together. Keys are
their public octets; a Dilithium2 signature is the padded message, so it fits one message only; an
SM2 signature is `SEQUENCE { INTEGER r, INTEGER s }` with one octet `r` from the randomness and the
signer's octets, after a 1, as `s`.
-/

namespace HybridPqc

namespace Toy

/-- The first 32 bytes, for want of a digest. -/
def digest (b : Bytes) : Bytes := (b ++ Bytes.zeros 32).take 32

def pad (m : Bytes) : Bytes := m ++ 0x80 :: Bytes.zeros (2419 - m.length)

/-- The octets of an uncompressed point. -/
def isPoint (k : Bytes) : Bool := k.length == 65 && k.head? == some 0x04

/-- The DER of an ECDSA signature with a one-octet `r` and `s` made of `k`. -/
def sigDer (r : UInt8) (k : Bytes) : Bytes := [0x30, 0x47, 0x02, 0x01, r, 0x02, 0x42, 0x01] ++ k

def small (r : UInt8) : Bool := decide (0 < r) && decide (r < 0x80)

/-- The octet that the randomness gives for `r`. -/
def nonce (rnd : Bytes) : UInt8 := if small (rnd.headD 1) then rnd.headD 1 else 1

def readSig : Bytes → Option ((Int × Int) × Nat)
  | 0x30 :: 0x47 :: 0x02 :: 0x01 :: r :: 0x02 :: 0x42 :: 0x01 :: k =>
    if small r && decide (65 ≤ k.length) then some ((r.toNat, beNat (0x01 :: k.take 65)), 73)
    else none
  | _ => none

def crypto : Crypto Bytes where
  isSm2 _ := true
  getPubKey k := if k.length ≤ 65 then some k else none
  getPubKey_le {k o} h := by
    split at h
    · cases h; assumption
    · cases h
  fromdata b := if b.length ≤ 65 then some b else none
  fromdata_export {b k} hl _ h := by
    simp only [hl, Nat.le_refl, if_true, Option.some.injEq] at h
    subst h
    simp [hl]
  publicCheck _ := true
  privateCheck := isPoint
  sm3 b := some (digest b)
  sha256 b := some (digest b)
  d2iEcdsaSig := readSig
  i2dEcdsaSig rs := some (sigDer (UInt8.ofNat rs.1.toNat) (beBytes rs.2.toNat).tail)
  digestSign k _ _ rnd := if isPoint k then some (sigDer (nonce rnd) k) else none
  digestVerify k _ sig _ := isPoint k && (readSig sig).isSome && sig.drop 8 == k
  dilithium2Signature m _ := if m.length ≤ 2419 then some (pad m) else none
  dilithium2Verify sig m _ := decide (m.length ≤ 2419) && sig == pad m

theorem digest_length (b : Bytes) : (digest b).length = 32 := by simp [digest]

theorem pad_length {m : Bytes} (h : m.length ≤ 2419) : (pad m).length = 2420 := by
  simp [pad]; omega

/-- The padding can be taken off again. -/
theorem pad_injective {m m' : Bytes} (h : pad m = pad m') : m = m' := by
  have hno : ∀ (t u : Bytes) (k k' : Nat), 0x80 :: Bytes.zeros k = t ++ 0x80 :: Bytes.zeros k' →
      t = [] := by
    intro t u k k' ht
    cases t with
    | nil => rfl
    | cons x t =>
      simp only [List.cons_append, List.cons.injEq] at ht
      have hmem : (0x80 : UInt8) ∈ Bytes.zeros k := by rw [ht.2]; simp
      simp [Bytes.zeros] at hmem
  obtain ⟨t, rfl, ht⟩ | ⟨t, rfl, ht⟩ := List.append_eq_append_iff.mp h
  · rw [hno t t _ _ ht, List.append_nil]
  · rw [hno t t _ _ ht, List.append_nil]

theorem small_nonce (rnd : Bytes) : small (nonce rnd) = true := by
  simp only [nonce]
  split
  · assumption
  · decide

theorem readSig_sigDer {r : UInt8} {k : Bytes} (hr : small r = true) (hk : isPoint k = true) :
    readSig (sigDer r k) = some (((r.toNat : Int), (beNat (0x01 :: k) : Int)), 73) := by
  simp only [isPoint, Bool.and_eq_true, beq_iff_eq] at hk
  have ht : k.take 65 = k := List.take_of_length_le (by omega)
  simp [readSig, sigDer, hr, hk.1, ht]

theorem beNat_pos {k : Bytes} : 0 < beNat (0x01 :: k) := by
  rw [Nat.pos_iff_ne_zero]
  intro h
  have h1 := beBytes_beNat (b := 0x01 :: k) (by simp)
  rw [h] at h1
  cases h1

theorem sigDer_valid {k : Bytes} (hk : isPoint k = true) (rnd : Bytes) :
    sm2SignatureDerIsValid crypto (sigDer (nonce rnd) k) = true := by
  have hr := small_nonce rnd
  have hd : crypto.d2iEcdsaSig (sigDer (nonce rnd) k) =
      some ((((nonce rnd).toNat : Int), (beNat (0x01 :: k) : Int)), 73) := readSig_sigDer hr hk
  have hpos : 0 < (nonce rnd).toNat := by
    simp only [small, Bool.and_eq_true, decide_eq_true_eq] at hr
    exact hr.1
  have hl : (sigDer (nonce rnd) k).length = 73 := by
    simp only [isPoint, Bool.and_eq_true, beq_iff_eq] at hk
    simp [sigDer, hk.1]
  have hs := beNat_pos (k := k)
  have hi : crypto.i2dEcdsaSig (((nonce rnd).toNat : Int), (beNat (0x01 :: k) : Int)) =
      some (sigDer (nonce rnd) k) := by
    simp [crypto, beBytes_beNat (b := 0x01 :: k) (by simp)]
  simp only [sm2SignatureDerIsValid, hd, hl, hi]
  simp [longMax]
  omega

theorem sm2Octets_eq {k : Bytes} : sm2Octets crypto k = if isPoint k then some k else none := by
  by_cases hl : k.length = 65
  · simp [sm2Octets, crypto, isPoint, hl, sm2UncompressedPublicKeyBytes]
  · by_cases hle : k.length ≤ 65 <;>
      simp [sm2Octets, crypto, isPoint, hl, hle, sm2UncompressedPublicKeyBytes]

theorem sm2Octets_some {k o : Bytes} (h : sm2Octets crypto k = some o) :
    isPoint k = true ∧ o = k := by
  rw [sm2Octets_eq] at h
  split at h
  · cases h; exact ⟨‹_›, rfl⟩
  · cases h

theorem digestSign_eq {k : Bytes} (hk : isPoint k = true) (m rnd : Bytes) :
    hybridSm2Sign crypto k m rnd = some (sigDer (nonce rnd) k) := by
  simp [hybridSm2Sign, crypto, hk]

theorem hybridSm2Sign_some {k m rnd sig : Bytes} (h : hybridSm2Sign crypto k m rnd = some sig) :
    isPoint k = true ∧ sig = sigDer (nonce rnd) k := by
  simp only [hybridSm2Sign, crypto] at h
  split at h
  · cases h; exact ⟨‹_›, rfl⟩
  · cases h

theorem sm2Correct : Sm2Correct crypto := by
  intro s p o m rnd sig hs hp h
  obtain ⟨hk, rfl⟩ := sm2Octets_some hs
  obtain ⟨_, rfl⟩ := sm2Octets_some hp
  obtain ⟨_, rfl⟩ := hybridSm2Sign_some h
  have hdrop : (sigDer (nonce rnd) o).drop 8 = o := rfl
  simp [hybridSm2Verify, crypto, hk, readSig_sigDer (small_nonce rnd) hk, hdrop]

theorem sm2Signs : Sm2Signs crypto :=
  fun _ m rnd hs => ⟨_, digestSign_eq hs m rnd, sigDer_valid hs rnd⟩

theorem sm2Binding : Sm2Binding crypto := by
  intro s p m rnd sig h hv
  obtain ⟨hs, rfl⟩ := hybridSm2Sign_some h
  simp only [hybridSm2Verify, crypto, sigDer, List.cons_append, List.nil_append,
    List.drop_succ_cons, List.drop_zero, Bool.and_eq_true, beq_iff_eq] at hv
  obtain ⟨_, rfl⟩ := hv
  exact ⟨s, by simp [sm2Octets_eq, hs], by simp [sm2Octets_eq, hs]⟩

theorem dilithiumPair (sk : Block dilithiumSecretKeyBytes) (pk : Block dilithiumPublicKeyBytes) :
    DilithiumPair crypto sk pk := by
  intro m sig h
  simp only [dilithiumSign, crypto] at h
  split at h
  · cases h
  rename_i output ho
  split at ho
  · rename_i hm
    cases ho
    rw [if_pos (show (pad m).length = dilithiumSignatureBytes from pad_length hm)] at h
    cases h
    simp [dilithiumVerify, crypto, pad_length hm, hm, dilithiumSignatureBytes]
  · cases ho

theorem dilithiumSign_eq {sk : Block dilithiumSecretKeyBytes} {m : Bytes} (h : m.length ≤ 2419) :
    dilithiumSign crypto sk m = some (pad m) := by
  simp [dilithiumSign, crypto, h, pad_length h, dilithiumSignatureBytes]

/-- Signing with an empty context always succeeds. -/
theorem compositeSign_some {key : HybridPrivateKey Bytes} {k : Bytes}
    (hk : key.sm2PrivateKey = some k) (hp : isPoint k = true) (message rnd : Bytes) :
    ∃ sig, compositeSign crypto key (.buf message) (.null 0) rnd = some sig := by
  have hm : compositeBuildMessage crypto (.buf message) (.null 0) = some _ :=
    compositeBuildMessage_eq rfl rfl (by simp [CArg.len]) rfl (digest_length message)
  obtain ⟨_, _, _, h⟩ := compositeSign_of_parts sm2Signs key hk hp hm (dilithiumSign_eq (by
    simp [compositeSignaturePrefix_length, compositeSignatureLabel_length, digest_length,
      CArg.bytes])) rnd
  exact ⟨_, h⟩

/-- Any private key and public key with the same public octets are a pair. -/
theorem hybridKeyPair {priv : HybridPrivateKey Bytes} {pub : HybridPublicKey Bytes} {k : Bytes}
    (hs : priv.sm2PrivateKey = some k) (hp : pub.sm2PublicKey = some k)
    (hk : isPoint k = true) : HybridKeyPair crypto priv pub := by
  have ho : sm2Octets crypto k = some k := by simp [sm2Octets_eq, hk]
  exact ⟨⟨k, k, k, hs, hp, hk, ho, ho⟩, dilithiumPair _ _⟩

/-! ## Sample keys -/

/-- An SM2 key whose octets end in `x`. -/
def sm2Key (x : UInt8) : Bytes := 0x04 :: Bytes.zeros 63 ++ [x]

/-- A Dilithium2 key of octets `x`. -/
def filled (n : Nat) (x : UInt8) : Block n := ⟨List.replicate n x, List.length_replicate⟩

def privateKey (x : UInt8) : HybridPrivateKey Bytes := ⟨some (sm2Key x), filled _ x⟩
def publicKey (x : UInt8) : HybridPublicKey Bytes := ⟨some (sm2Key x), filled _ x⟩

theorem sm2Key_isPoint (x : UInt8) : isPoint (sm2Key x) = true := by simp [isPoint, sm2Key]

theorem sm2Octets_sm2Key (x : UInt8) : sm2Octets crypto (sm2Key x) = some (sm2Key x) := by
  rw [sm2Octets_eq, if_pos (sm2Key_isPoint x)]

theorem filled_inj {n : Nat} {x y : UInt8} (hn : n ≠ 0) (h : filled n x = filled n y) : x = y := by
  have hh := congrArg (fun b : Block n => b.val.head?) h
  simpa [filled, List.head?_replicate, hn] using hh

theorem keyPair (x : UInt8) : HybridKeyPair crypto (privateKey x) (publicKey x) :=
  hybridKeyPair rfl rfl (sm2Key_isPoint x)

end Toy

end HybridPqc
