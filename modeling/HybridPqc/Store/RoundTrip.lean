import HybridPqc.Store.Concurrent

/-!
# Store.RoundTrip

Loading what was saved.

`hybridKeyStoreLoad_some_iff` says what a load needs of the two files; `load_saved` that two files
which saves wrote under the passphrase, not necessarily the same save, give it. `save_load_iff`: a
saved key pair is loaded back exactly for a passphrase of at most `PEM_BUFSIZE` bytes. The writer
hands the passphrase to `PEM_write_PKCS8PrivateKey` whatever its length; the reader's callback has
to fit it into a buffer of that size, and a longer one comes out empty.
-/

namespace HybridPqc

open Conc Fs

variable {PKey ι : Type} {K : StoreCrypto PKey}

/-- What the key store relies on: decryption undoes encryption, a PEM file opens with its own
passphrase and not with the empty one, and SM2 signatures work. -/
structure StoreCorrect (K : StoreCrypto PKey) : Prop where
  gcm : ∀ key iv aad plaintext ciphertext tag,
    K.gcmEncrypt key iv aad plaintext = some (ciphertext, tag) →
    K.gcmDecrypt key iv aad ciphertext tag.val = some plaintext
  pemRead : ∀ key passphrase rnd pem, K.pemWritePkcs8PrivateKey key passphrase rnd = some pem →
    K.pemReadPrivateKey pem passphrase = some key
  pemEmpty : ∀ key passphrase rnd pem, K.pemWritePkcs8PrivateKey key passphrase rnd = some pem →
    passphrase ≠ [] → K.pemReadPrivateKey pem [] = none
  sm2Correct : Sm2Correct K.toCrypto
  sm2Signs : Sm2Signs K.toCrypto

namespace Toy

theorem storeCorrect : StoreCorrect storeCrypto where
  gcm key iv aad plaintext ciphertext tag h := by
    simp only [storeCrypto, Option.some.injEq, Prod.mk.injEq] at h
    obtain ⟨rfl, rfl⟩ := h
    simp [storeCrypto]
  pemRead key password rnd pem h := by
    simp only [storeCrypto, Option.some.injEq] at h
    subst h
    simp [storeCrypto]
  pemEmpty key password rnd pem h hne := by
    simp only [storeCrypto, Option.some.injEq] at h
    subst h
    have hno : ¬ pemHeader [] <+: pemHeader password ++ key :=
      fun hp => hne (pemHeader_injective hp).symm
    simp [storeCrypto, hno]
  sm2Correct := sm2Correct
  sm2Signs := sm2Signs

end Toy

/-! ## The self-test -/

/-- The Dilithium2 keys sign the challenge and accept the signature; `m` is the message signed. -/
def DilithiumSelfTest (K : StoreCrypto PKey) (m : Bytes) (secretKey : Block dilithiumSecretKeyBytes)
    (publicKey : Block dilithiumPublicKeyBytes) : Prop :=
  ∃ d, dilithiumSign K.toCrypto secretKey m = some d ∧
    dilithiumVerify K.toCrypto publicKey m d = true

theorem keypairSelfTest_parts {priv : HybridPrivateKey PKey} {pub : HybridPublicKey PKey}
    {rnd : Bytes} (h : keypairSelfTest K priv pub rnd = true) :
    ∃ m s p sig, compositeBuildMessage K.toCrypto (.buf selfTestChallenge) (.null 0) = some m ∧
      DilithiumSelfTest K m priv.dilithiumSecretKey pub.dilithiumPublicKey ∧
      priv.sm2PrivateKey = some s ∧ pub.sm2PublicKey = some p ∧
      hybridSm2Sign K.toCrypto s m rnd = some sig ∧ hybridSm2Verify K.toCrypto p m sig = true := by
  simp only [keypairSelfTest] at h
  split at h
  · cases h
  rename_i signature hsign
  obtain ⟨s, m, d, sig, hs, hm, hd, hsig, hser⟩ := compositeSign_some_iff.mp hsign
  obtain ⟨p, d', sig', m', hp, hparse, hm', hdv, hsv⟩ := compositeVerifyDetailed_valid_iff.mp h
  rw [compositeParseSignature_serialize hser] at hparse; cases hparse
  rw [hm] at hm'; cases hm'
  exact ⟨m, s, p, sig, hm, ⟨d, hd, hdv⟩, hs, hp, hsig, hsv⟩

/-- A valid SM2 key that stands on both sides passes with any Dilithium2 keys that pass. -/
theorem keypairSelfTest_of_parts (hK : StoreCorrect K) {m o : Bytes} {s : PKey}
    {secretKey : Block dilithiumSecretKeyBytes} {publicKey : Block dilithiumPublicKeyBytes}
    (hm : compositeBuildMessage K.toCrypto (.buf selfTestChallenge) (.null 0) = some m)
    (hd : DilithiumSelfTest K m secretKey publicKey) (hcheck : K.privateCheck s = true)
    (ho : sm2Octets K.toCrypto s = some o) (rnd : Bytes) :
    keypairSelfTest K ⟨some s, secretKey⟩ ⟨some s, publicKey⟩ rnd = true := by
  obtain ⟨d, hd, hdv⟩ := hd
  obtain ⟨sig, hsig, hv, hsign⟩ := compositeSign_of_parts hK.sm2Signs
    ⟨some s, secretKey⟩ rfl hcheck hm hd rnd
  simp only [keypairSelfTest, hsign]
  have hser := compositeSerializeSignature_eq (C := K.toCrypto) (dilithiumSign_length hd) hv
  exact compositeVerifyDetailed_valid_iff.mpr ⟨s, d, sig, m, rfl,
    compositeParseSignature_serialize hser, hm, hdv, hK.sm2Correct _ _ _ _ _ _ ho ho hsig⟩

/-! ## Loading -/

theorem accessible_of_fileAt {d : Dir ι KeyFile} {name : KeyFile} {f : File ι}
    (h : d.fileAt name = some f) : d.accessible name = true := by
  obtain ⟨n, hn, _⟩ := Dir.fileAt_some h
  simp [Dir.accessible, hn]

theorem secureRegularFile_iff {d : Dir ι KeyFile} {name : KeyFile} {expectedSize : Option Nat} :
    secureRegularFile d name expectedSize = true ↔
      ∃ f, d.fileAt name = some f ∧ f.isPrivate = true ∧
        ∀ n, expectedSize = some n → f.data.length = n := by
  simp only [secureRegularFile]
  cases d.fileAt name with
  | none => simp
  | some f => cases expectedSize <;> simp

theorem loadSm2PrivateKey_some_iff {d : Dir ι KeyFile} {passphrase : CString} {s : PKey} :
    loadSm2PrivateKey K d passphrase = some s ↔
      passphraseValid passphrase = true ∧ ∃ f, d.fileAt .sm2PrivatePem = some f ∧
        f.isPrivate = true ∧
        K.pemReadPrivateKey f.data (passwordCallback pemBufsize passphrase) = some s ∧
        K.isSm2 s = true ∧ K.privateCheck s = true := by
  constructor
  · intro h
    simp only [loadSm2PrivateKey] at h
    split at h
    · rename_i hsec
      rw [Bool.and_eq_true] at hsec
      obtain ⟨f, hf, hpriv, _⟩ := secureRegularFile_iff.mp hsec.1
      simp only [hf] at h
      split at h
      · cases h
      rename_i s' hread
      split at h
      · rename_i hcheck
        cases h
        rw [Bool.and_eq_true] at hcheck
        exact ⟨hsec.2, f, hf, hpriv, hread, hcheck⟩
      · cases h
    · cases h
  · rintro ⟨hpass, f, hf, hpriv, hread, hsm2, hcheck⟩
    have hsec : secureRegularFile d .sm2PrivatePem none = true :=
      secureRegularFile_iff.mpr ⟨f, hf, hpriv, fun _ h => by cases h⟩
    simp [loadSm2PrivateKey, hsec, hpass, hf, hread, hsm2, hcheck]

theorem loadDilithiumPrivateKey_some_iff {d : Dir ι KeyFile} {passphrase : CString}
    {keys : Block dilithiumPublicKeyBytes × Block dilithiumSecretKeyBytes} :
    loadDilithiumPrivateKey K d passphrase = some keys ↔
      ∃ f, d.fileAt .dilithium2PrivateEnc = some f ∧ f.isPrivate = true ∧
        f.data.length = dilithiumStoreFileBytes ∧
        decryptDilithiumPayload K f.data passphrase = some keys := by
  constructor
  · intro h
    simp only [loadDilithiumPrivateKey] at h
    split at h
    · rename_i hsec
      obtain ⟨f, hf, hpriv, hl⟩ := secureRegularFile_iff.mp hsec
      simp only [hf] at h
      exact ⟨f, hf, hpriv, hl _ rfl, h⟩
    · cases h
  · rintro ⟨f, hf, hpriv, hl, hdec⟩
    have hsec : secureRegularFile d .dilithium2PrivateEnc (some dilithiumStoreFileBytes) = true :=
      secureRegularFile_iff.mpr ⟨f, hf, hpriv, fun n h => by cases h; exact hl⟩
    simp [loadDilithiumPrivateKey, hsec, hf, hdec]

/-- What a successful load read. -/
theorem hybridKeyStoreLoad_some_iff {d : Dir ι KeyFile} {passphrase : CString} {rnd : Bytes}
    {priv : HybridPrivateKey PKey} {pub : HybridPublicKey PKey} :
    (hybridKeyStoreLoad K d passphrase rnd).2 = some (priv, pub) ↔
      d.kind ≠ .other ∧ ∃ s, loadSm2PrivateKey K d passphrase = some s ∧
        loadDilithiumPrivateKey K d passphrase =
          some (pub.dilithiumPublicKey, priv.dilithiumSecretKey) ∧
        priv.sm2PrivateKey = some s ∧ pub.sm2PublicKey = some s ∧
        keypairSelfTest K priv pub rnd = true := by
  -- a directory that is made on the way has the same files
  have hmade : ∀ d' : Dir ι KeyFile,
      d' = (if d.kind = .missing then d.setKind .privateDirectory else d) →
      loadSm2PrivateKey K d' passphrase = loadSm2PrivateKey K d passphrase ∧
      loadDilithiumPrivateKey K d' passphrase = loadDilithiumPrivateKey K d passphrase ∧
      (∀ name, d'.accessible name = d.accessible name) ∧
      (d'.kind = .privateDirectory ↔ d.kind ≠ .other) := by
    rintro _ rfl
    split
    · rename_i hk; exact ⟨rfl, rfl, fun _ => rfl, by simp [Dir.setKind, hk]⟩
    · rename_i hk
      refine ⟨rfl, rfl, fun _ => rfl, ?_⟩
      cases h : d.kind <;> simp_all
  simp only [hybridKeyStoreLoad]
  generalize hd' : (if d.kind = .missing then d.setKind .privateDirectory else d) = d'
  obtain ⟨h1, h2, h3, h4⟩ := hmade d' hd'.symm
  constructor
  · intro h
    split at h
    swap
    · cases h
    split at h
    swap
    · cases h
    rename_i hok
    split at h
    · cases h
    rename_i s hs
    split at h
    · cases h
    rename_i pk sk hdil
    split at h
    · rename_i htest
      cases h
      exact ⟨h4.mp hok.1, s, h1 ▸ hs, h2 ▸ hdil, rfl, rfl, htest⟩
    · cases h
  · rintro ⟨hk, s, hs, hdil, hpriv, hpub, htest⟩
    obtain ⟨hpass, f, hf, _⟩ := loadSm2PrivateKey_some_iff.mp hs
    obtain ⟨g, hg, _⟩ := loadDilithiumPrivateKey_some_iff.mp hdil
    obtain ⟨sm2, dsk⟩ := priv
    obtain ⟨sm2', dpk⟩ := pub
    cases hpriv
    cases hpub
    have hok : d'.kind = .privateDirectory ∧ d'.accessible .sm2PrivatePem ∧
        d'.accessible .dilithium2PrivateEnc :=
      ⟨h4.mpr hk, (h3 _).trans (accessible_of_fileAt hf), (h3 _).trans (accessible_of_fileAt hg)⟩
    simp only [hpass, if_true, if_pos hok, h1, h2, hs, hdil, htest]

/-! ## Saving, then loading -/

/-- The SM2 file that a save with the given arguments writes. -/
def Sm2FileOf (K : StoreCrypto PKey) (args : SaveArgs PKey) (f : File ι) : Prop :=
  ∃ s, args.privateKey.sm2PrivateKey = some s ∧
    K.pemWritePkcs8PrivateKey s args.passphrase.val args.pemRnd = some f.data ∧
    f.isPrivate = true

/-- The Dilithium2 file that a save with the given arguments writes. -/
def DilithiumFileOf (K : StoreCrypto PKey) (args : SaveArgs PKey) (f : File ι) : Prop :=
  encryptDilithiumPayload K args.privateKey args.publicKey args.passphrase args.salt args.iv =
    some f.data ∧ f.isPrivate = true

/-- What a call that returned 1 checked and left behind. -/
structure Saved (K : StoreCrypto PKey) (args : SaveArgs PKey) (d : Dir Unit KeyFile) : Prop where
  passphrase : passphraseValid args.passphrase = true
  selfTest : keypairSelfTest K args.privateKey args.publicKey args.selfTestRnd = true
  directory : d.kind = .privateDirectory
  sm2 : ∃ f, d.fileAt .sm2PrivatePem = some f ∧ Sm2FileOf K args f
  dilithium : ∃ f, d.fileAt .dilithium2PrivateEnc = some f ∧ DilithiumFileOf K args f

theorem saved_of_run {args : SaveArgs PKey} {d d' : Dir Unit KeyFile}
    (hrun : Run (step ()) (hybridKeyStoreSave K args) d true d') : Saved K args d' := by
  have hkeys : KeysSaved K (fun _ => True) () args d' := by
    have hv := hybridKeyStoreSave_valid K args (P := fun _ => True) (i := ()) (d := d)
    rw [saveSem_unit] at hv
    exact hv.run (fun _ => .refl) hrun rfl
  obtain ⟨hkind, ⟨s, pem, n, hs, hpem, hm⟩, ⟨file, n', hfile, hm'⟩⟩ := hkeys
  have hchecks : passphraseValid args.passphrase = true ∧
      keypairSelfTest K args.privateKey args.publicKey args.selfTestRnd = true := by
    simp only [hybridKeyStoreSave] at hrun
    split at hrun
    · rename_i h; rwa [Bool.and_eq_true] at h
    · cases hrun
  exact ⟨hchecks.1, hchecks.2, hkind, ⟨_, hm.fileAt trivial, s, hs, hpem, rfl⟩,
    ⟨_, hm'.fileAt trivial, hfile, rfl⟩⟩

theorem passwordCallback_of_le {passphrase : CString} (h : passphrase.strlen ≤ pemBufsize) :
    passwordCallback pemBufsize passphrase = passphrase.val := by
  simp [passwordCallback, h]

theorem passwordCallback_of_lt {passphrase : CString} (h : pemBufsize < passphrase.strlen) :
    passwordCallback pemBufsize passphrase = [] := by
  simp [passwordCallback, h]

/-- A passphrase that fits the buffer of the password callback opens any two files that were
written under it, from one save or from two. -/
theorem load_saved (hK : StoreCorrect K) {d : Dir ι KeyFile} (hkind : d.kind ≠ .other)
    {f g : File ι} (hf : d.fileAt .sm2PrivatePem = some f)
    (hg : d.fileAt .dilithium2PrivateEnc = some g) {a b : SaveArgs PKey} {passphrase : CString}
    (ha : Sm2FileOf K a f) (hb : DilithiumFileOf K b g) (hap : a.passphrase = passphrase)
    (hbp : b.passphrase = passphrase) (hpass : passphraseValid passphrase = true)
    (hl : passphrase.strlen ≤ pemBufsize) {s : PKey} {o : Bytes}
    (hs : a.privateKey.sm2PrivateKey = some s) (hcheck : K.privateCheck s = true)
    (ho : sm2Octets K.toCrypto s = some o)
    (htest : keypairSelfTest K b.privateKey b.publicKey b.selfTestRnd = true) (rnd : Bytes) :
    (hybridKeyStoreLoad K d passphrase rnd).2 =
      some (⟨some s, b.privateKey.dilithiumSecretKey⟩,
        ⟨some s, b.publicKey.dilithiumPublicKey⟩) := by
  subst hbp
  obtain ⟨s', hs', hpem, hfp⟩ := ha
  rw [hs] at hs'; cases hs'
  obtain ⟨hfile, hgp⟩ := hb
  obtain ⟨hlen, hdec⟩ := decryptDilithiumPayload_encrypt hK.gcm hfile
  obtain ⟨m, _, _, _, hm, hd, _⟩ := keypairSelfTest_parts htest
  have hsm2 : K.isSm2 s = true := by
    by_contra h
    simp [sm2Octets, h] at ho
  rw [hap] at hpem
  refine hybridKeyStoreLoad_some_iff.mpr ⟨hkind, s, ?_, ?_, rfl, rfl,
    keypairSelfTest_of_parts hK hm hd hcheck ho rnd⟩
  · refine loadSm2PrivateKey_some_iff.mpr ⟨hpass, f, hf, hfp, ?_, hsm2, hcheck⟩
    rw [passwordCallback_of_le hl]
    exact hK.pemRead _ _ _ _ hpem
  · exact loadDilithiumPrivateKey_some_iff.mpr ⟨g, hg, hgp, hlen, hdec⟩

/-- A longer one opens nothing. -/
theorem load_saved_long (hK : StoreCorrect K) {d : Dir ι KeyFile} {f : File ι}
    (hf : d.fileAt .sm2PrivatePem = some f) {a : SaveArgs PKey} (ha : Sm2FileOf K a f)
    (hl : pemBufsize < a.passphrase.strlen) {passphrase : CString}
    (hp : pemBufsize < passphrase.strlen) (rnd : Bytes) :
    (hybridKeyStoreLoad K d passphrase rnd).2 = none := by
  rw [Option.eq_none_iff_forall_ne_some]
  rintro ⟨priv, pub⟩ h
  obtain ⟨_, s, hs, _⟩ := hybridKeyStoreLoad_some_iff.mp h
  obtain ⟨_, f', hf', _, hread, _⟩ := loadSm2PrivateKey_some_iff.mp hs
  rw [hf] at hf'; cases hf'
  obtain ⟨_, _, hpem, _⟩ := ha
  rw [passwordCallback_of_lt hp, hK.pemEmpty _ _ _ _ hpem] at hread
  · cases hread
  · intro h
    simp [CString.strlen, h] at hl

/-- The SM2 key and the Dilithium2 secret key that were saved, and an equal public key. -/
def SamePair (K : StoreCrypto PKey) (args : SaveArgs PKey) (priv : HybridPrivateKey PKey)
    (pub : HybridPublicKey PKey) : Prop :=
  priv.sm2PrivateKey = args.privateKey.sm2PrivateKey ∧
    priv.dilithiumSecretKey = args.privateKey.dilithiumSecretKey ∧
    compositePublicKeysEqual K.toCrypto pub args.publicKey = true

/-- **Save and load.** When saving a key pair returned 1, loading with the same passphrase gives the
pair back exactly if the passphrase has at most `PEM_BUFSIZE` bytes. -/
theorem save_load_iff {PKey : Type} {K : StoreCrypto PKey} (hK : StoreCorrect K)
    (args : SaveArgs PKey)
    (hpair : HybridKeyPair K.toCrypto args.privateKey args.publicKey) {d d' : Dir Unit KeyFile}
    (hrun : Run (step ()) (hybridKeyStoreSave K args) d true d') (rnd : Bytes) :
    (∃ priv pub, (hybridKeyStoreLoad K d' args.passphrase rnd).2 = some (priv, pub) ∧
      SamePair K args priv pub) ↔ args.passphrase.strlen ≤ pemBufsize := by
  obtain ⟨hpass, htest, hkind, ⟨f, hf, hsm2⟩, ⟨g, hg, hdil⟩⟩ := saved_of_run hrun
  obtain ⟨s, p, o, hs, hp, hcheck, hso, hpo⟩ := hpair.sm2
  constructor
  · rintro ⟨priv, pub, hload, _⟩
    by_contra hl
    rw [not_le] at hl
    rw [load_saved_long hK hf hsm2 hl hl] at hload
    cases hload
  · intro hl
    refine ⟨_, _, load_saved hK (by simp [hkind]) hf hg hsm2 hdil rfl rfl hpass hl hs hcheck hso
      htest rnd, hs.symm, rfl, compositePublicKeysEqual_iff.mpr ⟨rfl, s, p, o, rfl, hp, hso, hpo⟩⟩

/-- The round trip of a pair saved under a 13-byte passphrase. -/
theorem save_load_toy : ∃ d',
    Run (step ()) (hybridKeyStoreSave Toy.storeCrypto (Toy.saveArgs 1))
      (.empty .privateDirectory) true d' ∧
    ∃ priv pub, (hybridKeyStoreLoad Toy.storeCrypto d' Toy.passphrase []).2 = some (priv, pub) ∧
      SamePair Toy.storeCrypto (Toy.saveArgs 1) priv pub := by
  obtain ⟨d', hrun⟩ := Toy.saveArgs_run 1
  exact ⟨d', hrun, (save_load_iff Toy.storeCorrect (Toy.saveArgs 1) (Toy.keyPair 1) hrun []).mpr
    (by decide)⟩

/-- A passphrase of 1025 bytes saves and does not load. -/
theorem save_does_not_load :
    ¬ ∀ (args : SaveArgs Bytes) (d d' : Dir Unit KeyFile) (rnd : Bytes),
      HybridKeyPair Toy.storeCrypto.toCrypto args.privateKey args.publicKey →
      (∀ name, d.fileAt name = none) →
      Run (step ()) (hybridKeyStoreSave Toy.storeCrypto args) d true d' →
      ∃ priv pub, (hybridKeyStoreLoad Toy.storeCrypto d' args.passphrase rnd).2 = some (priv, pub) ∧
        SamePair Toy.storeCrypto args priv pub := by
  intro hclaim
  have hlong : Toy.longPassphrase.strlen = 1025 := List.length_replicate
  let args := { Toy.saveArgs 1 with passphrase := Toy.longPassphrase }
  obtain ⟨d', hrun⟩ := Toy.save_run (i := ()) (d := .empty .privateDirectory) args (Toy.keyPair 1)
    (by simp [args, passphraseValid, hlong, intMax]) rfl rfl rfl fun _ => rfl
  have hrun := run_of_noFailure hrun
  obtain ⟨_, _, hload, _⟩ := hclaim args _ d' [] (Toy.keyPair 1) (fun _ => rfl) hrun
  obtain ⟨f, hf, hsm2⟩ := (saved_of_run hrun).sm2
  have hl : pemBufsize < Toy.longPassphrase.strlen := by rw [hlong]; decide
  rw [load_saved_long Toy.storeCorrect hf hsm2 hl hl] at hload
  cases hload

end HybridPqc
