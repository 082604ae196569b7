import HybridPqc.Aead.Ideal
import HybridPqc.Store.RoundTrip

/-!
# Store.Authenticated

Every byte of the Dilithium2 key file is authenticated.

The 44 header bytes are the associated data, the rest is ciphertext and tag, so nothing of the file
stays outside the encryption: `container_split`. `dilithium_container_authenticated`: with ideal
encryption and a key derivation without collisions, the loader accepts exactly what
`encrypt_dilithium_payload` wrote under the same passphrase, gives the keys it was given, and
writes nothing when it fails.
-/

namespace HybridPqc

open Conc Fs

/-! ## Loading into the caller's buffers -/

/-- The return value and the two output buffers. -/
structure DilithiumOut where
  ok : Bool
  publicKey : Block dilithiumPublicKeyBytes
  secretKey : Block dilithiumSecretKeyBytes
  deriving DecidableEq

/-- Calls of a load that can fail whatever the file holds. -/
structure LoadEnv where
  /-- `OPENSSL_malloc(DILITHIUM_STORE_FILE_BYTES) != NULL` -/
  fileData : Bool
  /-- `open(path, O_RDONLY | O_NOFOLLOW) >= 0` -/
  opened : Bool
  /-- `read_all` -/
  readAll : Bool
  /-- The cipher context is made and set up. -/
  context : Bool

def LoadEnv.works (env : LoadEnv) : Bool :=
  env.fileData && env.opened && env.readAll && env.context

section

variable {PKey ι : Type} (K : StoreCrypto PKey)

def decryptDilithiumPayloadInto (env : LoadEnv) (input : Bytes) (passphrase : CString)
    (publicKey : Block dilithiumPublicKeyBytes) (secretKey : Block dilithiumSecretKeyBytes) :
    DilithiumOut :=
  let salt := input.slice 12 dilithiumStoreSaltBytes
  let iv := input.slice (12 + dilithiumStoreSaltBytes) dilithiumStoreIvBytes
  let ciphertext := input.slice dilithiumStoreHeaderBytes dilithiumStorePlaintextBytes
  let tag := input.slice (dilithiumStoreHeaderBytes + dilithiumStorePlaintextBytes)
    dilithiumStoreTagBytes
  if input.slice 0 8 ≠ dilithiumStoreMagic ∨
      getU32Be (input.slice 8 4) ≠ dilithiumStoreIterations ∨
      getU32Be (input.slice (dilithiumStoreHeaderBytes - 4) 4) ≠
        dilithiumStorePlaintextBytes.toUInt32 then ⟨false, publicKey, secretKey⟩
  else
    match deriveEncryptionKey K passphrase salt with
    | none => ⟨false, publicKey, secretKey⟩
    | some encryptionKey =>
      if env.context = false then ⟨false, publicKey, secretKey⟩
      else
        match K.gcmDecrypt encryptionKey.val iv (input.slice 0 dilithiumStoreHeaderBytes) ciphertext
            tag with
        | none => ⟨false, publicKey, secretKey⟩
        | some plaintext =>
          if plaintext.length ≠ dilithiumStorePlaintextBytes ∨
              plaintext.slice 0 8 ≠ dilithiumPlaintextMagic then ⟨false, publicKey, secretKey⟩
          else
            let publicKey := publicKey.memcpy (plaintext.slice 8 dilithiumPublicKeyBytes)
            let secretKey := secretKey.memcpy
              (plaintext.slice (8 + dilithiumPublicKeyBytes) dilithiumSecretKeyBytes)
            ⟨true, publicKey, secretKey⟩

/-- `load_dilithium_private_key` -/
def loadDilithiumPrivateKeyInto (env : LoadEnv) (d : Dir ι KeyFile) (passphrase : CString)
    (publicKey : Block dilithiumPublicKeyBytes) (secretKey : Block dilithiumSecretKeyBytes) :
    DilithiumOut :=
  if secureRegularFile d .dilithium2PrivateEnc (some dilithiumStoreFileBytes) then
    match d.fileAt .dilithium2PrivateEnc with
    | none => ⟨false, publicKey, secretKey⟩
    | some input =>
      if env.fileData && env.opened && env.readAll then
        decryptDilithiumPayloadInto K env input.data passphrase publicKey secretKey
      else ⟨false, publicKey, secretKey⟩
  else ⟨false, publicKey, secretKey⟩

variable {K}

theorem decryptDilithiumPayloadInto_eq {env : LoadEnv} {input : Bytes} {passphrase : CString}
    {pk : Block dilithiumPublicKeyBytes} {sk : Block dilithiumSecretKeyBytes} :
    decryptDilithiumPayloadInto K env input passphrase pk sk =
      if env.context = false then ⟨false, pk, sk⟩
      else (decryptDilithiumPayload K input passphrase).elim ⟨false, pk, sk⟩
        fun keys => ⟨true, keys.1, keys.2⟩ := by
  simp only [decryptDilithiumPayloadInto, decryptDilithiumPayload]
  split
  · simp
  cases deriveEncryptionKey K passphrase (input.slice 12 dilithiumStoreSaltBytes) with
  | none => simp
  | some key =>
    by_cases hc : env.context = false
    · simp [hc]
    rw [Bool.not_eq_false] at hc
    simp only [hc, Bool.true_eq_false, if_false]
    cases K.gcmDecrypt key.val (input.slice (12 + dilithiumStoreSaltBytes)
      dilithiumStoreIvBytes) (input.slice 0 dilithiumStoreHeaderBytes)
      (input.slice dilithiumStoreHeaderBytes dilithiumStorePlaintextBytes)
      (input.slice (dilithiumStoreHeaderBytes + dilithiumStorePlaintextBytes)
        dilithiumStoreTagBytes) with
    | none => simp
    | some plaintext =>
      by_cases hp : plaintext.length ≠ dilithiumStorePlaintextBytes ∨
          plaintext.slice 0 8 ≠ dilithiumPlaintextMagic
      · simp [hp]
      simp only [hp, if_false]
      -- both slices lie inside the plaintext
      have hl : plaintext.length = 8 + dilithiumPublicKeyBytes + dilithiumSecretKeyBytes := by
        rw [not_or, not_not] at hp
        exact hp.1
      have h1 : (plaintext.slice 8 dilithiumPublicKeyBytes).length = dilithiumPublicKeyBytes := by
        simp only [Bytes.slice, List.length_take, List.length_drop]
        omega
      have h2 : (plaintext.slice (8 + dilithiumPublicKeyBytes) dilithiumSecretKeyBytes).length =
          dilithiumSecretKeyBytes := by
        simp only [Bytes.slice, List.length_take, List.length_drop]
        omega
      have e1 := Block.ofBytes?_eq_some.mpr (show (⟨_, h1⟩ : Block _).val = _ from rfl)
      have e2 := Block.ofBytes?_eq_some.mpr (show (⟨_, h2⟩ : Block _).val = _ from rfl)
      simp only [e1, e2, Option.elim_some, Block.memcpy_of_length h1, Block.memcpy_of_length h2]

/-- The loader fills the buffers with what `loadDilithiumPrivateKey` gives, or leaves them. -/
theorem loadDilithiumPrivateKeyInto_eq {env : LoadEnv} {d : Dir ι KeyFile} {passphrase : CString}
    {pk : Block dilithiumPublicKeyBytes} {sk : Block dilithiumSecretKeyBytes} :
    loadDilithiumPrivateKeyInto K env d passphrase pk sk =
      if env.works then (loadDilithiumPrivateKey K d passphrase).elim ⟨false, pk, sk⟩
        fun keys => ⟨true, keys.1, keys.2⟩
      else ⟨false, pk, sk⟩ := by
  simp only [loadDilithiumPrivateKeyInto, loadDilithiumPrivateKey, LoadEnv.works]
  split
  swap
  · simp
  cases d.fileAt .dilithium2PrivateEnc with
  | none => simp
  | some input =>
    simp only [decryptDilithiumPayloadInto_eq]
    by_cases hr : (env.fileData && env.opened && env.readAll) = true
    · by_cases hc : env.context = true
      · simp [hr, hc]
      · simp [hc]
    · simp [hr]

end

/-! ## The layout -/

/-- The header of a container: what is authenticated beside the ciphertext. -/
def containerHeader (salt : Block dilithiumStoreSaltBytes) (iv : Block dilithiumStoreIvBytes) :
    Bytes :=
  dilithiumStoreMagic ++ putU32Be dilithiumStoreIterations ++ salt.val ++ iv.val ++
    putU32Be dilithiumStorePlaintextBytes.toUInt32

/-- Header, ciphertext and tag are the whole file. -/
theorem container_split {file : Bytes} (h : file.length = dilithiumStoreFileBytes) :
    file.slice 0 dilithiumStoreHeaderBytes ++
      file.slice dilithiumStoreHeaderBytes dilithiumStorePlaintextBytes ++
      file.slice (dilithiumStoreHeaderBytes + dilithiumStorePlaintextBytes) dilithiumStoreTagBytes =
        file := by
  calc file.slice 0 dilithiumStoreHeaderBytes ++
        file.slice dilithiumStoreHeaderBytes dilithiumStorePlaintextBytes ++
        file.slice (dilithiumStoreHeaderBytes + dilithiumStorePlaintextBytes) dilithiumStoreTagBytes
      = file.slice 0 (0 + dilithiumStoreHeaderBytes + dilithiumStorePlaintextBytes) ++
        file.slice (0 + dilithiumStoreHeaderBytes + dilithiumStorePlaintextBytes)
          dilithiumStoreTagBytes := by
        rw [Nat.zero_add]
        congr 1
        exact (congrArg _ (by rw [Nat.zero_add])).trans (Bytes.slice_append_slice file 0 _ _)
    _ = file.slice 0 dilithiumStoreFileBytes := Bytes.slice_append_slice file 0 _ _
    _ = file := Bytes.slice_all h

theorem ContainerFields.header_eq {file ciphertext tag : Bytes}
    {salt : Block dilithiumStoreSaltBytes} {iv : Block dilithiumStoreIvBytes}
    (h : ContainerFields file salt.val iv.val ciphertext tag) :
    file.slice 0 dilithiumStoreHeaderBytes = containerHeader salt iv := by
  rw [containerHeader, ← h.magic, ← h.iterations, ← h.salt, ← h.iv, ← h.size]
  simp only [dilithiumStoreHeaderBytes, dilithiumStoreSaltBytes, dilithiumStoreIvBytes]
  rw [show file.slice 8 4 = file.slice (0 + 8) 4 from rfl, Bytes.slice_append_slice,
    show file.slice 12 16 = file.slice (0 + (8 + 4)) 16 from rfl, Bytes.slice_append_slice,
    show file.slice (12 + 16) 12 = file.slice (0 + (8 + 4 + 16)) 12 from rfl,
    Bytes.slice_append_slice,
    show file.slice (8 + 4 + 16 + 12 + 4 - 4) 4 = file.slice (0 + (8 + 4 + 16 + 12)) 4 from rfl,
    Bytes.slice_append_slice]

/-! ## The calls that wrote containers -/

/-- The arguments of one `encrypt_dilithium_payload` call and what it draws. -/
structure EncryptCall (PKey : Type) where
  privateKey : HybridPrivateKey PKey
  publicKey : HybridPublicKey PKey
  passphrase : CString
  salt : Option (Block dilithiumStoreSaltBytes)
  iv : Option (Block dilithiumStoreIvBytes)

namespace EncryptCall

variable {PKey : Type} (K : StoreCrypto PKey) (c : EncryptCall PKey)

/-- What the call writes. -/
def file : Option Bytes :=
  encryptDilithiumPayload K c.privateKey c.publicKey c.passphrase c.salt c.iv

def plaintext : Bytes :=
  dilithiumPlaintext c.publicKey.dilithiumPublicKey c.privateKey.dilithiumSecretKey

/-- The key a call encrypts under. -/
def encryptionKey : Option (Block dilithiumStoreKeyBytes) :=
  match c.salt with
  | none => none
  | some salt => deriveEncryptionKey K c.passphrase salt.val

/-- The AES-256-GCM encryption that the call makes. -/
def gcmRun : Option (Aead.Run Bytes Bytes Bytes Bytes Bytes Bytes) :=
  match c.salt, c.iv, c.encryptionKey K with
  | some salt, some iv, some key =>
    match K.gcmEncrypt key.val iv.val (containerHeader salt iv) c.plaintext with
    | none => none
    | some (ciphertext, tag) =>
      some ⟨key.val, iv.val, containerHeader salt iv, c.plaintext, ciphertext, tag.val⟩
  | _, _, _ => none

variable {K c}

theorem gcmRun_some {r : Aead.Run Bytes Bytes Bytes Bytes Bytes Bytes} (h : c.gcmRun K = some r) :
    ∃ salt iv key tag, c.salt = some salt ∧ c.iv = some iv ∧
      deriveEncryptionKey K c.passphrase salt.val = some key ∧
      K.gcmEncrypt key.val iv.val (containerHeader salt iv) c.plaintext = some (r.ciphertext, tag) ∧
      r = ⟨key.val, iv.val, containerHeader salt iv, c.plaintext, r.ciphertext, tag.val⟩ := by
  simp only [gcmRun] at h
  split at h
  · rename_i salt iv key hsalt hiv hkey
    split at h
    · cases h
    · rename_i ciphertext tag henc
      cases h
      simp only [encryptionKey, hsalt] at hkey
      exact ⟨salt, iv, key, tag, hsalt, hiv, hkey, henc, rfl⟩
  · cases h

/-- The file is the header, the ciphertext and the tag of the call's encryption. -/
theorem file_some_iff {data : Bytes} :
    c.file K = some data ↔ ∃ r, c.gcmRun K = some r ∧
      r.ciphertext.length = dilithiumStorePlaintextBytes ∧
      data = r.ad ++ r.ciphertext ++ r.tag := by
  constructor
  · intro h
    obtain ⟨salt, iv, key, ciphertext, tag, hsalt, hiv, hkey, henc, hf⟩ :=
      encryptDilithiumPayload_some h
    rw [hf.header_eq] at henc
    refine ⟨⟨key.val, iv.val, containerHeader salt iv, c.plaintext, ciphertext, tag.val⟩, ?_, ?_,
      ?_⟩
    · simp only [gcmRun, encryptionKey, hsalt, hiv, hkey, plaintext, henc]
    · have hl := hf.length
      simp only [← hf.ciphertext, Bytes.slice, List.length_take, List.length_drop, hl]
      decide
    · rw [← hf.header_eq, ← hf.ciphertext, ← hf.tag, container_split hf.length]
  · rintro ⟨r, hr, hlen, rfl⟩
    obtain ⟨salt, iv, key, tag, hsalt, hiv, hkey, henc, heq⟩ := gcmRun_some hr
    obtain ⟨hf, hh⟩ := container_writes salt iv hlen tag
    rw [hf.header_eq] at hh
    have hfile := container_split hf.length
    rw [hf.header_eq, hf.ciphertext, hf.tag] at hfile
    rw [heq]
    simp only [file, encryptDilithiumPayload, plaintext_writes, hsalt, hiv, hkey, ← hh]
    rw [show dilithiumPlaintext c.publicKey.dilithiumPublicKey c.privateKey.dilithiumSecretKey =
      c.plaintext from rfl, henc]
    simp only [hlen, ne_eq, not_true_eq_false, if_false, hfile]

end EncryptCall

/-- Ideal encryption, by the calls that were made, and a key derivation without collisions: no
other passphrase gives the key of a call. -/
structure IdealStore {PKey : Type} (K : StoreCrypto PKey) (calls : Set (EncryptCall PKey)) :
    Prop where
  gcm : Aead.Ideal K.gcmDecrypt {r | ∃ c ∈ calls, c.gcmRun K = some r}
  kdf : ∀ {c passphrase salt key}, c ∈ calls → c.encryptionKey K = some key →
    deriveEncryptionKey K passphrase salt = some key → c.passphrase = passphrase

section

variable {PKey ι : Type} {K : StoreCrypto PKey} {calls : Set (EncryptCall PKey)}

/-- What a call wrote decrypts to the keys it was given. -/
theorem IdealStore.decrypt_file (h : IdealStore K calls) {c : EncryptCall PKey} {data : Bytes}
    (hc : c ∈ calls) (hfile : c.file K = some data) :
    data.length = dilithiumStoreFileBytes ∧ decryptDilithiumPayload K data c.passphrase =
      some (c.publicKey.dilithiumPublicKey, c.privateKey.dilithiumSecretKey) := by
  obtain ⟨salt, iv, key, ciphertext, tag, hsalt, hiv, hkey, henc, hf⟩ :=
    encryptDilithiumPayload_some hfile
  have hrun : c.gcmRun K = some ⟨key.val, iv.val, data.slice 0 dilithiumStoreHeaderBytes,
      c.plaintext, ciphertext, tag.val⟩ := by
    rw [hf.header_eq] at henc ⊢
    simp only [EncryptCall.gcmRun, EncryptCall.encryptionKey, EncryptCall.plaintext, hsalt, hiv,
      hkey, henc]
  exact ⟨hf.length, decryptDilithiumPayload_of_fields hf hkey (h.gcm.decrypts ⟨c, hc, hrun⟩)⟩

/-- What decrypts is, byte for byte, what a call wrote under the passphrase. -/
theorem IdealStore.file_of_decrypt (h : IdealStore K calls) {data : Bytes} {passphrase : CString}
    {keys : Block dilithiumPublicKeyBytes × Block dilithiumSecretKeyBytes}
    (hlen : data.length = dilithiumStoreFileBytes)
    (hdec : decryptDilithiumPayload K data passphrase = some keys) :
    ∃ c ∈ calls, c.passphrase = passphrase ∧ c.file K = some data := by
  simp only [decryptDilithiumPayload] at hdec
  split at hdec
  · cases hdec
  split at hdec
  · cases hdec
  rename_i key hkey
  split at hdec
  · cases hdec
  rename_i plaintext hgcm
  obtain ⟨c, hc, hrun⟩ := h.gcm.dec_iff.mp hgcm
  obtain ⟨salt, iv, key', tag, hsalt, -, hkey', -, heq⟩ := EncryptCall.gcmRun_some hrun
  have hk : key' = key := by
    have hval := congrArg Aead.Run.key heq
    cases key'
    cases key
    cases hval
    rfl
  refine ⟨c, hc, h.kdf hc ?_ hkey, EncryptCall.file_some_iff.mpr ⟨_, hrun, ?_, ?_⟩⟩
  · simp only [EncryptCall.encryptionKey, hsalt, hkey', hk]
  · simp only [Bytes.slice, List.length_take, List.length_drop, hlen]
    decide
  · exact (container_split hlen).symm

/-- **The container is authenticated.** Whatever the file holds, the loader accepts it exactly when
nothing else fails and some call wrote it, byte for byte, under the passphrase; the buffers then
hold the keys of that call, and a load that fails leaves them. -/
theorem dilithium_container_authenticated (h : IdealStore K calls) (env : LoadEnv)
    (d : Dir ι KeyFile) (passphrase : CString) (pk : Block dilithiumPublicKeyBytes)
    (sk : Block dilithiumSecretKeyBytes) :
    ((loadDilithiumPrivateKeyInto K env d passphrase pk sk).ok = true ↔
      env.works = true ∧ ∃ f, d.fileAt .dilithium2PrivateEnc = some f ∧ f.isPrivate = true ∧
        ∃ c ∈ calls, c.passphrase = passphrase ∧ c.file K = some f.data) ∧
    (∀ f, d.fileAt .dilithium2PrivateEnc = some f → ∀ c ∈ calls, c.passphrase = passphrase →
      c.file K = some f.data → (loadDilithiumPrivateKeyInto K env d passphrase pk sk).ok = true →
      (loadDilithiumPrivateKeyInto K env d passphrase pk sk).publicKey =
          c.publicKey.dilithiumPublicKey ∧
        (loadDilithiumPrivateKeyInto K env d passphrase pk sk).secretKey =
          c.privateKey.dilithiumSecretKey) ∧
    ((loadDilithiumPrivateKeyInto K env d passphrase pk sk).ok = false →
      (loadDilithiumPrivateKeyInto K env d passphrase pk sk).publicKey = pk ∧
        (loadDilithiumPrivateKeyInto K env d passphrase pk sk).secretKey = sk) := by
  rw [loadDilithiumPrivateKeyInto_eq]
  by_cases hw : env.works = true
  swap
  · simp [hw]
  rw [if_pos hw]
  cases hload : loadDilithiumPrivateKey K d passphrase with
  | none =>
    refine ⟨⟨fun hok => (by cases hok), ?_⟩, fun _ _ _ _ _ _ hok => (by cases hok),
      fun _ => ⟨rfl, rfl⟩⟩
    rintro ⟨-, f, hf, hpriv, c, hc, rfl, hfile⟩
    obtain ⟨hlen, hdec⟩ := h.decrypt_file hc hfile
    rw [loadDilithiumPrivateKey_some_iff.mpr ⟨f, hf, hpriv, hlen, hdec⟩] at hload
    cases hload
  | some keys =>
    obtain ⟨f, hf, hpriv, hlen, hdec⟩ := loadDilithiumPrivateKey_some_iff.mp hload
    refine ⟨⟨fun _ => ⟨hw, f, hf, hpriv, h.file_of_decrypt hlen hdec⟩, fun _ => rfl⟩, ?_,
      fun hok => (by cases hok)⟩
    intro f' hf' c hc hp hfile _
    rw [hf] at hf'
    cases hf'
    have hdec' := (h.decrypt_file hc hfile).2
    rw [hp, hdec] at hdec'
    cases hdec'
    exact ⟨rfl, rfl⟩

/-- When one container was written, nothing else is accepted and nothing opens it but its own
passphrase. -/
theorem sole_container_iff {c : EncryptCall PKey} {data : Bytes} (h : IdealStore K {c})
    (hfile : c.file K = some data) {env : LoadEnv} (hw : env.works = true) {d : Dir ι KeyFile}
    {f : File ι} (hf : d.fileAt .dilithium2PrivateEnc = some f) (hpriv : f.isPrivate = true)
    (passphrase : CString) (pk : Block dilithiumPublicKeyBytes)
    (sk : Block dilithiumSecretKeyBytes) :
    (loadDilithiumPrivateKeyInto K env d passphrase pk sk).ok = true ↔
      f.data = data ∧ passphrase = c.passphrase := by
  rw [loadDilithiumPrivateKeyInto_eq, if_pos hw]
  constructor
  · intro hok
    cases hload : loadDilithiumPrivateKey K d passphrase with
    | none =>
      rw [hload] at hok
      cases hok
    | some keys =>
      obtain ⟨f', hf', _, hlen, hdec⟩ := loadDilithiumPrivateKey_some_iff.mp hload
      rw [hf] at hf'
      cases hf'
      obtain ⟨c', hc', hp, hfile'⟩ := h.file_of_decrypt hlen hdec
      cases Set.mem_singleton_iff.mp hc'
      rw [hfile] at hfile'
      cases hfile'
      exact ⟨rfl, hp.symm⟩
  · rintro ⟨hdata, rfl⟩
    rw [← hdata] at hfile
    obtain ⟨hlen, hdec⟩ := h.decrypt_file (Set.mem_singleton c) hfile
    rw [loadDilithiumPrivateKey_some_iff.mpr ⟨f, hf, hpriv, hlen, hdec⟩]
    rfl

end

/-! ## One container -/

namespace Toy

/-- A key derivation that shows its input: a passphrase of at most 16 bytes, padded, and the
salt. -/
def paddedKey (password salt : Bytes) : Option (Block dilithiumStoreKeyBytes) :=
  if password.length ≤ 16 then
    Block.ofBytes? _ (password ++ Bytes.zeros (16 - password.length) ++ salt)
  else none

theorem paddedKey_inj {p q : CString} {s t : Bytes} {key : Block dilithiumStoreKeyBytes}
    (hp : paddedKey p.val s = some key) (hq : paddedKey q.val t = some key) : p = q := by
  simp only [paddedKey] at hp hq
  split at hp
  swap
  · cases hp
  split at hq
  swap
  · cases hq
  have heq := (Block.ofBytes?_eq_some.mp hp).symm.trans (Block.ofBytes?_eq_some.mp hq)
  have hpad := (List.append_inj heq (by simp; omega)).1
  -- the padding goes, the passphrases have no NUL
  have hval := congrArg (List.filter (· ≠ 0)) hpad
  have hnul : ∀ r : CString, r.val.filter (· ≠ 0) = r.val := by
    intro r
    refine List.filter_eq_self.mpr fun x hx => decide_eq_true ?_
    rintro rfl
    exact r.no_nul hx
  rw [List.filter_append, List.filter_append, hnul, hnul] at hval
  have hzeros : ∀ n, (Bytes.zeros n).filter (· ≠ 0) = [] := by
    intro n
    simp [Bytes.zeros]
  rw [hzeros, hzeros, List.append_nil, List.append_nil] at hval
  obtain ⟨p, _⟩ := p
  obtain ⟨q, _⟩ := q
  cases hval
  rfl

def authCall : EncryptCall Bytes where
  privateKey := privateKey 1
  publicKey := publicKey 1
  passphrase := passphrase
  salt := some (.zero _)
  iv := some (.zero _)

def authKey : Block dilithiumStoreKeyBytes := ⟨passphrase.val ++ Bytes.zeros 19, by decide⟩

/-- The encryption of `authCall`. -/
def authRun : Aead.Run Bytes Bytes Bytes Bytes Bytes Bytes where
  key := authKey.val
  iv := (Block.zero dilithiumStoreIvBytes).val
  ad := containerHeader (.zero _) (.zero _)
  plaintext := authCall.plaintext
  ciphertext := authCall.plaintext
  tag := (gcmTag authKey.val (Block.zero dilithiumStoreIvBytes).val
    (containerHeader (.zero _) (.zero _)) authCall.plaintext).val

/-- Decryption knows the one encryption that was made. -/
def authStoreCrypto : StoreCrypto Bytes where
  __ := storeCrypto
  pbkdf2Hmac password salt _ := paddedKey password salt
  gcmDecrypt key iv aad ciphertext tag :=
    if authRun.key = key ∧ authRun.iv = iv ∧ authRun.ad = aad ∧ authRun.ciphertext = ciphertext ∧
      authRun.tag = tag then some authRun.plaintext else none

theorem authStoreCrypto_gcmDecrypt (key iv aad ciphertext tag : Bytes) :
    authStoreCrypto.gcmDecrypt key iv aad ciphertext tag =
      if authRun.key = key ∧ authRun.iv = iv ∧ authRun.ad = aad ∧ authRun.ciphertext = ciphertext ∧
        authRun.tag = tag then some authRun.plaintext else none := rfl

theorem authCall_gcmRun : authCall.gcmRun authStoreCrypto = some authRun := by
  have hkey : paddedKey passphrase.val (Block.zero dilithiumStoreSaltBytes).val = some authKey := by
    decide
  have hkey' : authCall.encryptionKey authStoreCrypto = some authKey := by
    simp only [EncryptCall.encryptionKey, authCall, deriveEncryptionKey, passphrase_valid, if_true,
      authStoreCrypto, hkey]
  simp only [EncryptCall.gcmRun, hkey']
  rfl

theorem idealStore : IdealStore authStoreCrypto {authCall} where
  gcm := by
    have hmade : ∀ r, r ∈ {r | ∃ c ∈ ({authCall} : Set (EncryptCall Bytes)),
        c.gcmRun authStoreCrypto = some r} ↔ r = authRun := by
      intro r
      simp only [Set.mem_singleton_iff, exists_eq_left, Set.mem_ofPred_eq, authCall_gcmRun]
      exact ⟨fun h => (Option.some.inj h).symm, fun h => by rw [h]⟩
    refine ⟨fun {r} hr => ?_, fun {key iv ad ct tag pt} hdec => ?_⟩
    · rw [(hmade r).mp hr, authStoreCrypto_gcmDecrypt, if_pos ⟨rfl, rfl, rfl, rfl, rfl⟩]
    · refine ⟨authRun, (hmade _).mpr rfl, ?_⟩
      by_contra hne
      rw [authStoreCrypto_gcmDecrypt, if_neg hne] at hdec
      cases hdec
  kdf {c p salt key} hc hkey hderive := by
    cases Set.mem_singleton_iff.mp hc
    have hinner : ∀ {q : CString} {s : Bytes}, deriveEncryptionKey authStoreCrypto q s = some key →
        paddedKey q.val s = some key := by
      intro q s h
      simp only [deriveEncryptionKey] at h
      split at h
      · exact h
      · cases h
    exact paddedKey_inj (hinner (q := passphrase) hkey) (hinner hderive)

end Toy

/-- A container and a load that opens it. -/
theorem dilithium_container_opens : ∃ data, Toy.authCall.file Toy.authStoreCrypto = some data ∧
    (loadDilithiumPrivateKeyInto Toy.authStoreCrypto ⟨true, true, true, true⟩
      ((Dir.empty .privateDirectory : Dir Unit KeyFile).put .dilithium2PrivateEnc
        ⟨data, true, none⟩)
      Toy.passphrase (.zero _) (.zero _)).ok = true := by
  have hfile := EncryptCall.file_some_iff.mpr ⟨_, Toy.authCall_gcmRun,
    dilithiumPlaintext_length _ _, rfl⟩
  refine ⟨_, hfile, (dilithium_container_authenticated Toy.idealStore _ _ _ _ _).1.mpr
    ⟨rfl, _, Dir.put_fileAt_self .., rfl, Toy.authCall, rfl, rfl, hfile⟩⟩

end HybridPqc
