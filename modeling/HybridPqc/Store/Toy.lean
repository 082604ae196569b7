import HybridPqc.Composite.Toy
import HybridPqc.Store.KeyStore

/-!
# Store.Toy

A concrete `StoreCrypto` over `Composite.Toy`: encryption leaves the plaintext and adds a tag over
everything, and an encrypted PEM file is the password, its length in unary before it, and the key.
`saveArgs` is a call whose key pair, passphrase and randomness a save accepts.
-/

namespace HybridPqc

namespace Toy

open Conc Fs

def gcmTag (key iv aad plaintext : Bytes) : Block dilithiumStoreTagBytes :=
  ⟨(digest (key ++ iv ++ aad ++ plaintext)).take 16, by
    rw [List.length_take, digest_length]; rfl⟩

/-- A password with its length in unary; no such string is a prefix of another. -/
def pemHeader (password : Bytes) : Bytes := Bytes.zeros password.length ++ 1 :: password

def storeCrypto : StoreCrypto Bytes where
  toCrypto := crypto
  pbkdf2Hmac password salt _ := some ⟨digest (password ++ salt), digest_length _⟩
  gcmEncrypt key iv aad plaintext := some (plaintext, gcmTag key iv aad plaintext)
  gcmDecrypt key iv aad ciphertext tag :=
    if tag = (gcmTag key iv aad ciphertext).val then some ciphertext else none
  pemWritePkcs8PrivateKey key password _ := some (pemHeader password ++ key)
  pemReadPrivateKey pem password :=
    if pemHeader password <+: pem then some (pem.drop (pemHeader password).length) else none

theorem unary_prefix {x y : Bytes} : ∀ {n m : Nat},
    Bytes.zeros n ++ 1 :: x <+: Bytes.zeros m ++ 1 :: y → n = m ∧ x <+: y
  | 0, 0, h => by simpa [Bytes.zeros] using h
  | 0, m + 1, h => by simp [Bytes.zeros, List.replicate_succ] at h
  | n + 1, 0, h => by simp [Bytes.zeros, List.replicate_succ] at h
  | n + 1, m + 1, h => by
    simp only [Bytes.zeros, List.replicate_succ, List.cons_append, List.cons_prefix_cons,
      true_and] at h
    obtain ⟨hnm, hxy⟩ := unary_prefix h
    exact ⟨by omega, hxy⟩

theorem pemHeader_injective {p q k : Bytes} (h : pemHeader p <+: pemHeader q ++ k) : p = q := by
  rw [pemHeader, pemHeader, List.append_assoc, List.cons_append] at h
  obtain ⟨hl, hp⟩ := unary_prefix h
  obtain ⟨t, ht⟩ := hp
  exact (List.append_inj ht hl).1

def passphrase : CString := ⟨Bytes.ofAscii "correct horse", by decide⟩

/-- `PEM_BUFSIZE + 1` bytes -/
def longPassphrase : CString := ⟨List.replicate 1025 0x61, fun h =>
  absurd (List.eq_of_mem_replicate h) (by decide)⟩

theorem passphrase_valid : passphraseValid passphrase = true := by decide

def saveArgs (x : UInt8) : SaveArgs Bytes where
  privateKey := privateKey x
  publicKey := publicKey x
  passphrase := passphrase
  selfTestRnd := []
  pemRnd := []
  salt := some (.zero _)
  iv := some (.zero _)

theorem encryptDilithiumPayload_eq (args : SaveArgs Bytes)
    (hp : passphraseValid args.passphrase = true) {salt : Block dilithiumStoreSaltBytes}
    {iv : Block dilithiumStoreIvBytes} (hs : args.salt = some salt) (hi : args.iv = some iv) :
    ∃ file, encryptDilithiumPayload storeCrypto args.privateKey args.publicKey args.passphrase
      args.salt args.iv = some file := by
  have hk : deriveEncryptionKey storeCrypto args.passphrase salt.val =
      some ⟨digest (args.passphrase.val ++ salt.val), digest_length _⟩ := by
    simp [deriveEncryptionKey, hp, storeCrypto]
  have hgcm : ∀ key iv aad plaintext, storeCrypto.gcmEncrypt key iv aad plaintext =
      some (plaintext, gcmTag key iv aad plaintext) := fun _ _ _ _ => rfl
  simp only [encryptDilithiumPayload, hs, hi, hk, plaintext_writes, hgcm,
    dilithiumPlaintext_length, ne_eq, not_true_eq_false, if_false]
  exact ⟨_, rfl⟩

/-- A pair passes the self-test with any randomness. -/
theorem keypairSelfTest_pair {priv : HybridPrivateKey Bytes} {pub : HybridPublicKey Bytes}
    (h : HybridKeyPair crypto priv pub) (rnd : Bytes) :
    keypairSelfTest storeCrypto priv pub rnd = true := by
  obtain ⟨s, _, _, hs, _, hk, _⟩ := h.sm2
  obtain ⟨sig, hsig⟩ := compositeSign_some hs hk selfTestChallenge rnd
  simp only [keypairSelfTest]
  rw [show compositeSign storeCrypto.toCrypto priv (.buf selfTestChallenge) (.null 0) rnd = some sig
    from hsig]
  exact compositeVerify_sign sm2Correct h.corresponding hsig

/-- A pair saves in an empty private directory. -/
theorem save_run {ι : Type} {i : ι} (args : SaveArgs Bytes) {d : Dir ι KeyFile}
    (hpair : HybridKeyPair crypto args.privateKey args.publicKey)
    (hp : passphraseValid args.passphrase = true) (hs : args.salt = some (.zero _))
    (hi : args.iv = some (.zero _)) (hkind : d.kind = .privateDirectory)
    (hnone : ∀ name, d.entry name = none) :
    ∃ d', Run (stepNoFailure i) (hybridKeyStoreSave storeCrypto args) d true d' := by
  obtain ⟨file, hfile⟩ := encryptDilithiumPayload_eq args hp hs hi
  obtain ⟨s, _, _, hsm2, _⟩ := hpair.sm2
  obtain ⟨d', hrun⟩ := saveKeyFiles_run (i := i) (K := storeCrypto) args hsm2 hp rfl hfile hnone
  exact ⟨d', hybridKeyStoreSave_run (fun _ _ _ _ h => h) hp (keypairSelfTest_pair hpair _) hkind
    (fun name => by simp [Dir.accessible, hnone]) hrun⟩

theorem saveArgs_run (x : UInt8) : ∃ d' : Dir Unit KeyFile,
    Run (step ()) (hybridKeyStoreSave storeCrypto (saveArgs x))
      (.empty .privateDirectory) true d' :=
  (save_run (saveArgs x) (keyPair x) passphrase_valid rfl rfl rfl fun _ => rfl).imp
    fun _ => run_of_noFailure

end Toy

end HybridPqc
