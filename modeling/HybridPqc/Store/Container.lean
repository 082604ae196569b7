import HybridPqc.Composite.Sig

/-!
# Store.Container

The encrypted Dilithium2 key file of `hybrid_key_store.c`:

`magic(8) || iterations(4) || salt(16) || iv(12) || length(4) || ciphertext(3880) || tag(16)`

with the 44 header bytes as associated data. The writer fills a buffer at computed offsets, the
reader takes the fields from offsets it computes again. `decryptDilithiumPayload_encrypt`: the
reader undoes the writer.
-/

namespace HybridPqc

def dilithiumStoreMagic : Bytes := Bytes.ofAscii "HPQCDK01"
def dilithiumPlaintextMagic : Bytes := Bytes.ofAscii "DIL2K001"
def dilithiumStoreSaltBytes : Nat := 16
def dilithiumStoreIvBytes : Nat := 12
def dilithiumStoreTagBytes : Nat := 16
def dilithiumStoreKeyBytes : Nat := 32
def dilithiumStoreIterations : UInt32 := 200000
def dilithiumStoreHeaderBytes : Nat :=
  8 + 4 + dilithiumStoreSaltBytes + dilithiumStoreIvBytes + 4
def dilithiumStorePlaintextBytes : Nat := 8 + dilithiumPublicKeyBytes + dilithiumSecretKeyBytes
def dilithiumStoreFileBytes : Nat :=
  dilithiumStoreHeaderBytes + dilithiumStorePlaintextBytes + dilithiumStoreTagBytes

/-- What the key store calls beside `Crypto`. -/
structure StoreCrypto (PKey : Type) extends Crypto PKey where
  /-- `PKCS5_PBKDF2_HMAC` with SHA-256 and a 32-byte key: passphrase, salt, iterations. -/
  pbkdf2Hmac : Bytes → Bytes → Nat → Option (Block dilithiumStoreKeyBytes)
  /-- AES-256-GCM encryption: key, IV, associated data, plaintext. -/
  gcmEncrypt : Bytes → Bytes → Bytes → Bytes → Option (Bytes × Block dilithiumStoreTagBytes)
  /-- AES-256-GCM decryption: key, IV, associated data, ciphertext, tag. -/
  gcmDecrypt : Bytes → Bytes → Bytes → Bytes → Bytes → Option Bytes
  /-- The PEM that `PEM_write_PKCS8PrivateKey` writes for key, passphrase and randomness. -/
  pemWritePkcs8PrivateKey : PKey → Bytes → Bytes → Option Bytes
  /-- `PEM_read_PrivateKey` with the password its callback supplied. -/
  pemReadPrivateKey : Bytes → Bytes → Option PKey

/-- `passphrase_valid` on a non-`NULL` passphrase. -/
def passphraseValid (passphrase : CString) : Bool :=
  decide (12 ≤ passphrase.strlen) && decide (passphrase.strlen ≤ intMax)

def putU32Be (value : UInt32) : Bytes :=
  [(value >>> 24).toUInt8, (value >>> 16).toUInt8, (value >>> 8).toUInt8, value.toUInt8]

def getU32Be (input : Bytes) : UInt32 :=
  match input with
  | [a, b, c, d] => a.toUInt32 <<< 24 ||| b.toUInt32 <<< 16 ||| c.toUInt32 <<< 8 ||| d.toUInt32
  | _ => 0

section

variable {PKey : Type} (K : StoreCrypto PKey)

def deriveEncryptionKey (passphrase : CString) (salt : Bytes) :
    Option (Block dilithiumStoreKeyBytes) :=
  if passphraseValid passphrase then
    K.pbkdf2Hmac passphrase.val salt dilithiumStoreIterations.toNat
  else none

/-- `encrypt_dilithium_payload`: the file. `salt` and `iv` are what `RAND_bytes` gives, `none` when
it fails. -/
def encryptDilithiumPayload (privateKey : HybridPrivateKey PKey) (publicKey : HybridPublicKey PKey)
    (passphrase : CString) (salt : Option (Block dilithiumStoreSaltBytes))
    (iv : Option (Block dilithiumStoreIvBytes)) : Option Bytes :=
  let output := Bytes.zeros dilithiumStoreFileBytes
  let output := output.write 0 dilithiumStoreMagic
  let output := output.write 8 (putU32Be dilithiumStoreIterations)
  let output := output.write (dilithiumStoreHeaderBytes - 4)
    (putU32Be dilithiumStorePlaintextBytes.toUInt32)
  match salt, iv with
  | some salt, some iv =>
    let output := output.write 12 salt.val
    let output := output.write (12 + dilithiumStoreSaltBytes) iv.val
    match deriveEncryptionKey K passphrase salt.val with
    | none => none
    | some encryptionKey =>
      let plaintext := Bytes.zeros dilithiumStorePlaintextBytes
      let plaintext := plaintext.write 0 dilithiumPlaintextMagic
      let plaintext := plaintext.write 8 publicKey.dilithiumPublicKey.val
      let plaintext := plaintext.write (8 + dilithiumPublicKeyBytes)
        privateKey.dilithiumSecretKey.val
      match K.gcmEncrypt encryptionKey.val iv.val (output.slice 0 dilithiumStoreHeaderBytes)
          plaintext with
      | none => none
      | some (ciphertext, tag) =>
        if ciphertext.length ≠ dilithiumStorePlaintextBytes then none
        else
          let output := output.write dilithiumStoreHeaderBytes ciphertext
          some (output.write (dilithiumStoreHeaderBytes + dilithiumStorePlaintextBytes) tag.val)
  | _, _ => none

/-- `decrypt_dilithium_payload`: the Dilithium2 public and secret key. -/
def decryptDilithiumPayload (input : Bytes) (passphrase : CString) :
    Option (Block dilithiumPublicKeyBytes × Block dilithiumSecretKeyBytes) :=
  let salt := input.slice 12 dilithiumStoreSaltBytes
  let iv := input.slice (12 + dilithiumStoreSaltBytes) dilithiumStoreIvBytes
  let ciphertext := input.slice dilithiumStoreHeaderBytes dilithiumStorePlaintextBytes
  let tag := input.slice (dilithiumStoreHeaderBytes + dilithiumStorePlaintextBytes)
    dilithiumStoreTagBytes
  if input.slice 0 8 ≠ dilithiumStoreMagic ∨
      getU32Be (input.slice 8 4) ≠ dilithiumStoreIterations ∨
      getU32Be (input.slice (dilithiumStoreHeaderBytes - 4) 4) ≠
        dilithiumStorePlaintextBytes.toUInt32 then none
  else
    match deriveEncryptionKey K passphrase salt with
    | none => none
    | some encryptionKey =>
      match K.gcmDecrypt encryptionKey.val iv (input.slice 0 dilithiumStoreHeaderBytes) ciphertext
          tag with
      | none => none
      | some plaintext =>
        if plaintext.length ≠ dilithiumStorePlaintextBytes ∨
            plaintext.slice 0 8 ≠ dilithiumPlaintextMagic then none
        else
          match Block.ofBytes? dilithiumPublicKeyBytes (plaintext.slice 8 dilithiumPublicKeyBytes),
              Block.ofBytes? dilithiumSecretKeyBytes
                (plaintext.slice (8 + dilithiumPublicKeyBytes) dilithiumSecretKeyBytes) with
          | some publicKey, some secretKey => some (publicKey, secretKey)
          | _, _ => none

end

/-! ## Round trip -/

section

variable {PKey : Type} {K : StoreCrypto PKey}

/-- The plaintext of the container. -/
def dilithiumPlaintext (publicKey : Block dilithiumPublicKeyBytes)
    (secretKey : Block dilithiumSecretKeyBytes) : Bytes :=
  dilithiumPlaintextMagic ++ publicKey.val ++ secretKey.val

theorem plaintext_writes (pk : Block dilithiumPublicKeyBytes) (sk : Block dilithiumSecretKeyBytes) :
    (((Bytes.zeros dilithiumStorePlaintextBytes).write 0 dilithiumPlaintextMagic).write 8
      pk.val).write (8 + dilithiumPublicKeyBytes) sk.val = dilithiumPlaintext pk sk := by
  have hm : dilithiumPlaintextMagic.length = 8 := by decide
  rw [Bytes.write_zeros, Bytes.write_append hm.symm, Bytes.write_append (by simp [hm])]
  simp [hm, dilithiumStorePlaintextBytes, Bytes.zeros, dilithiumPlaintext,
    show 8 + dilithiumPublicKeyBytes + dilithiumSecretKeyBytes - 8 - dilithiumPublicKeyBytes -
      dilithiumSecretKeyBytes = 0 from rfl]

/-- The fields of a container, at the offsets the reader takes them from. -/
structure ContainerFields (file salt iv ciphertext tag : Bytes) : Prop where
  length : file.length = dilithiumStoreFileBytes
  magic : file.slice 0 8 = dilithiumStoreMagic
  iterations : file.slice 8 4 = putU32Be dilithiumStoreIterations
  salt : file.slice 12 dilithiumStoreSaltBytes = salt
  iv : file.slice (12 + dilithiumStoreSaltBytes) dilithiumStoreIvBytes = iv
  size : file.slice (dilithiumStoreHeaderBytes - 4) 4 =
    putU32Be dilithiumStorePlaintextBytes.toUInt32
  ciphertext : file.slice dilithiumStoreHeaderBytes dilithiumStorePlaintextBytes = ciphertext
  tag : file.slice (dilithiumStoreHeaderBytes + dilithiumStorePlaintextBytes)
    dilithiumStoreTagBytes = tag

/-- What the writer leaves in its buffer: the header first, ciphertext and tag over it. -/
theorem container_writes (salt : Block dilithiumStoreSaltBytes) (iv : Block dilithiumStoreIvBytes)
    {ciphertext : Bytes} (hct : ciphertext.length = dilithiumStorePlaintextBytes)
    (tag : Block dilithiumStoreTagBytes) :
    let header := (((((Bytes.zeros dilithiumStoreFileBytes).write 0 dilithiumStoreMagic).write 8
      (putU32Be dilithiumStoreIterations)).write (dilithiumStoreHeaderBytes - 4)
      (putU32Be dilithiumStorePlaintextBytes.toUInt32)).write 12 salt.val).write
      (12 + dilithiumStoreSaltBytes) iv.val
    let file := (header.write dilithiumStoreHeaderBytes ciphertext).write
      (dilithiumStoreHeaderBytes + dilithiumStorePlaintextBytes) tag.val
    ContainerFields file salt.val iv.val ciphertext tag.val ∧
      file.slice 0 dilithiumStoreHeaderBytes = header.slice 0 dilithiumStoreHeaderBytes := by
  have lm : dilithiumStoreMagic.length = 8 := by decide
  have li : (putU32Be dilithiumStoreIterations).length = 4 := rfl
  have ln : (putU32Be dilithiumStorePlaintextBytes.toUInt32).length = 4 := rfl
  have ls : salt.val.length = 16 := salt.length_val
  have lv : iv.val.length = 12 := iv.length_val
  have lt : tag.val.length = 16 := tag.length_val
  have lc : ciphertext.length = 3880 := hct
  simp only [show dilithiumStoreFileBytes = 3940 from rfl,
    show dilithiumStoreHeaderBytes = 44 from rfl, show dilithiumStoreSaltBytes = 16 from rfl,
    show dilithiumStorePlaintextBytes = 3880 from rfl, show (44 : Nat) - 4 = 40 from rfl,
    show (12 : Nat) + 16 = 28 from rfl, show (44 : Nat) + 3880 = 3924 from rfl] at *
  generalize h0 : Bytes.zeros 3940 = b0
  have l0 : b0.length = 3940 := by rw [← h0]; simp
  generalize h1 : b0.write 0 dilithiumStoreMagic = b1
  have l1 : b1.length = 3940 := by rw [← h1, Bytes.write_length (by omega), l0]
  generalize h2 : b1.write 8 (putU32Be dilithiumStoreIterations) = b2
  have l2 : b2.length = 3940 := by rw [← h2, Bytes.write_length (by omega), l1]
  generalize h3 : b2.write 40 (putU32Be (3880 : Nat).toUInt32) = b3
  have l3 : b3.length = 3940 := by rw [← h3, Bytes.write_length (by omega), l2]
  generalize h4 : b3.write 12 salt.val = b4
  have l4 : b4.length = 3940 := by rw [← h4, Bytes.write_length (by omega), l3]
  generalize h5 : b4.write 28 iv.val = b5
  have l5 : b5.length = 3940 := by rw [← h5, Bytes.write_length (by omega), l4]
  generalize h6 : b5.write 44 ciphertext = b6
  have l6 : b6.length = 3940 := by rw [← h6, Bytes.write_length (by omega), l5]
  generalize h7 : b6.write 3924 tag.val = b7
  have l7 : b7.length = 3940 := by rw [← h7, Bytes.write_length (by omega), l6]
  -- a field within the header is not touched by the last two writes
  have hdr : ∀ o n, o + n ≤ 44 → b7.slice o n = b5.slice o n := fun o n h => by
    rw [← h7, Bytes.slice_write_of_le (by omega) (by omega), ← h6,
      Bytes.slice_write_of_le (by omega) (by omega)]
  refine ⟨⟨l7, ?_, ?_, ?_, ?_, ?_, ?_, ?_⟩, hdr 0 44 (by omega)⟩
  · rw [hdr 0 8 (by omega), ← h5, Bytes.slice_write_of_le (by omega) (by omega), ← h4,
      Bytes.slice_write_of_le (by omega) (by omega), ← h3,
      Bytes.slice_write_of_le (by omega) (by omega), ← h2,
      Bytes.slice_write_of_le (by omega) (by omega), ← h1, ← lm]
    exact Bytes.slice_write (by omega)
  · rw [hdr 8 4 (by omega), ← h5, Bytes.slice_write_of_le (by omega) (by omega), ← h4,
      Bytes.slice_write_of_le (by omega) (by omega), ← h3,
      Bytes.slice_write_of_le (by omega) (by omega), ← h2]
    exact Bytes.slice_write (by omega)
  · show b7.slice 12 16 = salt.val
    rw [hdr 12 16 (by omega), ← h5, Bytes.slice_write_of_le (by omega) (by omega), ← h4, ← ls]
    exact Bytes.slice_write (by omega)
  · show b7.slice 28 12 = iv.val
    rw [hdr 28 12 (by omega), ← h5, ← lv]
    exact Bytes.slice_write (by omega)
  · show b7.slice 40 4 = putU32Be (3880 : Nat).toUInt32
    rw [hdr 40 4 (by omega), ← h5, Bytes.slice_write_of_ge (by omega) (by omega), ← h4,
      Bytes.slice_write_of_ge (by omega) (by omega), ← h3]
    exact Bytes.slice_write (by omega)
  · show b7.slice 44 3880 = ciphertext
    rw [← h7, Bytes.slice_write_of_le (by omega) (by omega), ← h6, ← lc]
    exact Bytes.slice_write (by omega)
  · show b7.slice 3924 16 = tag.val
    rw [← h7, ← lt]
    exact Bytes.slice_write (by omega)

/-- A container that was written, read back field by field. -/
theorem encryptDilithiumPayload_some {privateKey : HybridPrivateKey PKey}
    {publicKey : HybridPublicKey PKey} {passphrase : CString}
    {salt : Option (Block dilithiumStoreSaltBytes)} {iv : Option (Block dilithiumStoreIvBytes)}
    {file : Bytes}
    (h : encryptDilithiumPayload K privateKey publicKey passphrase salt iv = some file) :
    ∃ salt' iv' key ciphertext tag, salt = some salt' ∧ iv = some iv' ∧
      deriveEncryptionKey K passphrase salt'.val = some key ∧
      K.gcmEncrypt key.val iv'.val (file.slice 0 dilithiumStoreHeaderBytes)
        (dilithiumPlaintext publicKey.dilithiumPublicKey privateKey.dilithiumSecretKey) =
          some (ciphertext, tag) ∧
      ContainerFields file salt'.val iv'.val ciphertext tag.val := by
  simp only [encryptDilithiumPayload, plaintext_writes] at h
  split at h
  · rename_i salt' iv'
    split at h
    · cases h
    rename_i key hkey
    split at h
    · cases h
    rename_i ciphertext tag henc
    split at h
    · cases h
    rename_i hlen
    obtain ⟨hf, hh⟩ := container_writes salt' iv' (not_not.mp hlen) tag
    injection h with h
    rw [h] at hf hh
    exact ⟨salt', iv', key, ciphertext, tag, rfl, rfl, hkey, by rw [hh]; exact henc, hf⟩
  · cases h

theorem dilithiumPlaintext_length (pk : Block dilithiumPublicKeyBytes)
    (sk : Block dilithiumSecretKeyBytes) :
    (dilithiumPlaintext pk sk).length = dilithiumStorePlaintextBytes := by
  have hm : dilithiumPlaintextMagic.length = 8 := by decide
  simp [dilithiumPlaintext, dilithiumStorePlaintextBytes, hm, Nat.add_assoc]

/-- What the reader makes of the fields of a container. -/
theorem decryptDilithiumPayload_of_fields {file salt iv ciphertext tag : Bytes}
    {passphrase : CString} {key : Block dilithiumStoreKeyBytes}
    {publicKey : Block dilithiumPublicKeyBytes} {secretKey : Block dilithiumSecretKeyBytes}
    (hf : ContainerFields file salt iv ciphertext tag)
    (hkey : deriveEncryptionKey K passphrase salt = some key)
    (hdec : K.gcmDecrypt key.val iv (file.slice 0 dilithiumStoreHeaderBytes) ciphertext tag =
      some (dilithiumPlaintext publicKey secretKey)) :
    decryptDilithiumPayload K file passphrase = some (publicKey, secretKey) := by
  have hm : dilithiumPlaintextMagic.length = 8 := by decide
  have h1 : (dilithiumPlaintext publicKey secretKey).slice 0 8 = dilithiumPlaintextMagic := by
    simp [Bytes.slice, dilithiumPlaintext, ← hm]
  have h2 : (dilithiumPlaintext publicKey secretKey).slice 8 dilithiumPublicKeyBytes =
      publicKey.val := by
    simp [Bytes.slice, dilithiumPlaintext, ← hm]
  have h3 : (dilithiumPlaintext publicKey secretKey).slice (8 + dilithiumPublicKeyBytes)
      dilithiumSecretKeyBytes = secretKey.val := by
    have hl : (dilithiumPlaintextMagic ++ publicKey.val).length = 8 + dilithiumPublicKeyBytes := by
      simp [hm]
    rw [Bytes.slice, dilithiumPlaintext, ← hl, List.drop_left, List.take_of_length_le (by simp)]
  have hi : getU32Be (putU32Be dilithiumStoreIterations) = dilithiumStoreIterations := by decide
  have hs : getU32Be (putU32Be dilithiumStorePlaintextBytes.toUInt32) =
      dilithiumStorePlaintextBytes.toUInt32 := by decide
  simp only [decryptDilithiumPayload, hf.magic, hf.iterations, hf.salt, hf.iv, hf.size,
    hf.ciphertext, hf.tag, hi, hs, hkey, hdec, h1, h2, h3, dilithiumPlaintext_length, ne_eq,
    not_true_eq_false, or_self, if_false,
    Block.ofBytes?_eq_some.mpr (show publicKey.val = _ from rfl),
    Block.ofBytes?_eq_some.mpr (show secretKey.val = _ from rfl)]

/-- The reader undoes the writer, given that decryption undoes encryption. -/
theorem decryptDilithiumPayload_encrypt
    (hgcm : ∀ key iv aad plaintext ciphertext tag,
      K.gcmEncrypt key iv aad plaintext = some (ciphertext, tag) →
      K.gcmDecrypt key iv aad ciphertext tag.val = some plaintext)
    {privateKey : HybridPrivateKey PKey} {publicKey : HybridPublicKey PKey} {passphrase : CString}
    {salt : Option (Block dilithiumStoreSaltBytes)} {iv : Option (Block dilithiumStoreIvBytes)}
    {file : Bytes}
    (h : encryptDilithiumPayload K privateKey publicKey passphrase salt iv = some file) :
    file.length = dilithiumStoreFileBytes ∧
      decryptDilithiumPayload K file passphrase =
        some (publicKey.dilithiumPublicKey, privateKey.dilithiumSecretKey) := by
  obtain ⟨salt', iv', key, ciphertext, tag, rfl, rfl, hkey, henc, hf⟩ :=
    encryptDilithiumPayload_some h
  exact ⟨hf.length, decryptDilithiumPayload_of_fields hf hkey (hgcm _ _ _ _ _ _ henc)⟩

end

end HybridPqc
