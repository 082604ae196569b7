import HybridPqc.Store.RoundTrip

/-!
# Store.Binding

Whether the two files of a key store belong together.

`StoreStep` is a history over any number of directories: saves that return 1, and copies, swaps and
removals of the written files. In every state a history reaches, each file was written by a save of
the history (`StoreInv`). `pairs_bound_iff`: loading gives only pairs that one save was given
exactly as long as no directory brings together an SM2 key and a Dilithium2 pair that no save was
given together. The self-test of the loader does not tell: it signs and verifies with one SM2 key,
the one it loaded, so it passes on the files of two saves.
-/

namespace HybridPqc

open Conc Fs

/-- Directories by name, and the saves so far. -/
structure Stores (D PKey : Type) where
  dir : D → Dir Unit KeyFile
  saved : List (SaveArgs PKey)

section

variable {D PKey : Type} [DecidableEq D] (K : StoreCrypto PKey) (passphrase : CString)

inductive StoreStep : Stores D PKey → Stores D PKey → Prop where
  | save {w : Stores D PKey} {args : SaveArgs PKey} {a : D} {d' : Dir Unit KeyFile} :
      args.passphrase = passphrase → Run (step ()) (hybridKeyStoreSave K args) (w.dir a) true d' →
      StoreStep w ⟨Function.update w.dir a d', args :: w.saved⟩
  | copy {w : Stores D PKey} {a b : D} {name : KeyFile} {f : File Unit} :
      (w.dir a).fileAt name = some f →
      StoreStep w ⟨Function.update w.dir b ((w.dir b).put name f), w.saved⟩
  | swap {w : Stores D PKey} {a b : D} {name : KeyFile} {f g : File Unit} :
      (w.dir a).fileAt name = some f → (w.dir b).fileAt name = some g →
      StoreStep w ⟨Function.update (Function.update w.dir a ((w.dir a).put name g)) b
        ((w.dir b).put name f), w.saved⟩
  | remove {w : Stores D PKey} {a : D} {name : KeyFile} :
      StoreStep w ⟨Function.update w.dir a ((w.dir a).unlink name), w.saved⟩

/-- What saves and rearrangements reach from directories without key files. -/
def StoresReachable (w : Stores D PKey) : Prop :=
  ∃ dir : D → Dir Unit KeyFile, (∀ a name, (dir a).fileAt name = none) ∧
    Relation.ReflTransGen (StoreStep K passphrase) ⟨dir, []⟩ w

/-- The file under `name` that a save with the given arguments writes. -/
def FileOf (args : SaveArgs PKey) (name : KeyFile) (f : File Unit) : Prop :=
  match name with
  | .sm2PrivatePem => Sm2FileOf K args f
  | .dilithium2PrivateEnc => DilithiumFileOf K args f

/-- Every file was written by some save, and every save passed its checks. -/
structure StoreInv (w : Stores D PKey) : Prop where
  written : ∀ {a name f}, (w.dir a).fileAt name = some f → ∃ args ∈ w.saved, FileOf K args name f
  passphrase : ∀ {args}, args ∈ w.saved → args.passphrase = passphrase
  valid : ∀ {args}, args ∈ w.saved → passphraseValid args.passphrase = true
  selfTest : ∀ {args}, args ∈ w.saved →
    keypairSelfTest K args.privateKey args.publicKey args.selfTestRnd = true

variable {K passphrase}

omit [DecidableEq D] in
/-- A rearrangement brings no file of its own. -/
theorem StoreInv.rearrange {w : Stores D PKey} (h : StoreInv K passphrase w)
    {dir : D → Dir Unit KeyFile}
    (hdir : ∀ a name f, (dir a).fileAt name = some f → ∃ b, (w.dir b).fileAt name = some f) :
    StoreInv K passphrase ⟨dir, w.saved⟩ where
  written hf := by
    obtain ⟨b, hb⟩ := hdir _ _ _ hf
    exact h.written hb
  passphrase := h.passphrase
  valid := h.valid
  selfTest := h.selfTest

omit [DecidableEq D] in
theorem put_fileAt {w : Stores D PKey} {a b : D} {name name' : KeyFile} {f f' : File Unit}
    (hb : (w.dir b).fileAt name = some f)
    (hf : ((w.dir a).put name f).fileAt name' = some f') :
    ∃ c, (w.dir c).fileAt name' = some f' := by
  by_cases hn : name' = name
  · subst hn
    rw [Dir.put_fileAt_self] at hf
    cases hf
    exact ⟨b, hb⟩
  · rw [Dir.put_fileAt_ne hn] at hf
    exact ⟨a, hf⟩

/-- A save writes both files of its directory and leaves the others. -/
theorem StoreInv.save {w : Stores D PKey} (h : StoreInv K passphrase w) {args : SaveArgs PKey}
    {a : D} {d' : Dir Unit KeyFile} (hp : args.passphrase = passphrase)
    (hrun : Run (step ()) (hybridKeyStoreSave K args) (w.dir a) true d') :
    StoreInv K passphrase ⟨Function.update w.dir a d', args :: w.saved⟩ := by
  have hsaved := saved_of_run hrun
  refine ⟨fun {b name f} hf => ?_, ?_, ?_, ?_⟩
  · by_cases hb : b = a
    · subst hb
      simp only [Function.update_self] at hf
      refine ⟨args, List.mem_cons_self, ?_⟩
      cases name with
      | sm2PrivatePem =>
        obtain ⟨f', hf', hs⟩ := hsaved.sm2
        rw [hf] at hf'; cases hf'; exact hs
      | dilithium2PrivateEnc =>
        obtain ⟨f', hf', hs⟩ := hsaved.dilithium
        rw [hf] at hf'; cases hf'; exact hs
    · simp only [Function.update_of_ne hb] at hf
      obtain ⟨args', hmem, hfile⟩ := h.written hf
      exact ⟨args', List.mem_cons_of_mem _ hmem, hfile⟩
  · exact fun hmem => (List.mem_cons.mp hmem).elim (fun h' => h' ▸ hp) h.passphrase
  · exact fun hmem => (List.mem_cons.mp hmem).elim (fun h' => h' ▸ hsaved.passphrase) h.valid
  · exact fun hmem => (List.mem_cons.mp hmem).elim (fun h' => h' ▸ hsaved.selfTest) h.selfTest

theorem StoreInv.step {w w' : Stores D PKey} (h : StoreInv K passphrase w)
    (hs : StoreStep K passphrase w w') : StoreInv K passphrase w' := by
  cases hs with
  | save hp hrun => exact h.save hp hrun
  | @copy a b name f hf =>
    refine h.rearrange fun c name' f' hf' => ?_
    by_cases hc : c = b
    · subst hc
      rw [Function.update_self] at hf'
      exact put_fileAt hf hf'
    · rw [Function.update_of_ne hc] at hf'
      exact ⟨c, hf'⟩
  | @swap a b name f g hf hg =>
    refine h.rearrange fun c name' f' hf' => ?_
    by_cases hc : c = b
    · subst hc
      rw [Function.update_self] at hf'
      exact put_fileAt hf hf'
    · rw [Function.update_of_ne hc] at hf'
      by_cases hc' : c = a
      · subst hc'
        rw [Function.update_self] at hf'
        exact put_fileAt hg hf'
      · rw [Function.update_of_ne hc'] at hf'
        exact ⟨c, hf'⟩
  | @remove a name =>
    refine h.rearrange fun c name' f' hf' => ?_
    by_cases hc : c = a
    · subst hc
      rw [Function.update_self] at hf'
      by_cases hn : name' = name
      · subst hn
        rw [Dir.unlink_fileAt_self] at hf'
        cases hf'
      · rw [Dir.unlink_fileAt_ne hn] at hf'
        exact ⟨c, hf'⟩
    · rw [Function.update_of_ne hc] at hf'
      exact ⟨c, hf'⟩

theorem StoresReachable.inv {w : Stores D PKey} (h : StoresReachable K passphrase w) :
    StoreInv K passphrase w := by
  obtain ⟨dir, hnone, hsteps⟩ := h
  induction hsteps with
  | refl =>
    exact ⟨fun hf => (by rw [hnone] at hf; cases hf), fun h => (by cases h), fun h => (by cases h),
      fun h => (by cases h)⟩
  | tail _ hs ih => exact ih.step hs

end

/-! ## What a load gives -/

section

variable {D PKey : Type} [DecidableEq D] (K : StoreCrypto PKey) (passphrase : CString)

/-- Loading any directory gives only pairs that one save was given. -/
def PairsBound (w : Stores D PKey) : Prop :=
  ∀ a rnd priv pub, (hybridKeyStoreLoad K (w.dir a) passphrase rnd).2 = some (priv, pub) →
    ∃ args ∈ w.saved, SamePair K args priv pub

/-- The key files of each directory are those of one save, or of saves whose SM2 key and Dilithium2
pair a third one was given together. Directories that are not private, SM2 keys that do not check
and passphrases longer than the callback's buffer do not count. -/
def FilesTogether (w : Stores D PKey) : Prop :=
  ∀ a f g x y s, (w.dir a).kind ≠ .other → passphrase.strlen ≤ pemBufsize →
    (w.dir a).fileAt .sm2PrivatePem = some f → (w.dir a).fileAt .dilithium2PrivateEnc = some g →
    x ∈ w.saved → y ∈ w.saved → Sm2FileOf K x f → DilithiumFileOf K y g →
    x.privateKey.sm2PrivateKey = some s → K.privateCheck s = true →
    ∃ z ∈ w.saved, z.privateKey.sm2PrivateKey = some s ∧
      z.privateKey.dilithiumSecretKey = y.privateKey.dilithiumSecretKey ∧
      z.publicKey.dilithiumPublicKey = y.publicKey.dilithiumPublicKey

variable {K passphrase}

omit [DecidableEq D] in
/-- A load puts together the SM2 key of the save that wrote the one file and the Dilithium2 pair of
the save that wrote the other. -/
theorem StoreInv.load_some (hK : StoreCorrect K) {w : Stores D PKey}
    (h : StoreInv K passphrase w) {a : D} {rnd : Bytes} {priv : HybridPrivateKey PKey}
    {pub : HybridPublicKey PKey}
    (hload : (hybridKeyStoreLoad K (w.dir a) passphrase rnd).2 = some (priv, pub)) :
    ∃ f g x y s, (w.dir a).kind ≠ .other ∧ passphrase.strlen ≤ pemBufsize ∧
      (w.dir a).fileAt .sm2PrivatePem = some f ∧ (w.dir a).fileAt .dilithium2PrivateEnc = some g ∧
      x ∈ w.saved ∧ y ∈ w.saved ∧ Sm2FileOf K x f ∧ DilithiumFileOf K y g ∧
      x.privateKey.sm2PrivateKey = some s ∧ K.privateCheck s = true ∧
      priv = ⟨some s, y.privateKey.dilithiumSecretKey⟩ ∧
      pub = ⟨some s, y.publicKey.dilithiumPublicKey⟩ := by
  obtain ⟨hkind, s, hs, hdil, hpriv, hpub, htest⟩ := hybridKeyStoreLoad_some_iff.mp hload
  obtain ⟨hpass, f, hf, _, hread, _, hcheck⟩ := loadSm2PrivateKey_some_iff.mp hs
  obtain ⟨g, hg, _, _, hdec⟩ := loadDilithiumPrivateKey_some_iff.mp hdil
  obtain ⟨x, hx, hxf⟩ := h.written hf
  obtain ⟨y, hy, hyg⟩ := h.written hg
  have hl : passphrase.strlen ≤ pemBufsize := by
    by_contra hl
    rw [not_le] at hl
    rw [load_saved_long hK hf hxf (by rw [h.passphrase hx]; exact hl) hl] at hload
    cases hload
  obtain ⟨s', hs', hpem, _⟩ := id hxf
  rw [passwordCallback_of_le hl, ← h.passphrase hx, hK.pemRead _ _ _ _ hpem] at hread
  cases hread
  rw [← h.passphrase hy, (decryptDilithiumPayload_encrypt hK.gcm hyg.1).2,
    Option.some.injEq, Prod.mk.injEq] at hdec
  obtain ⟨hpk, hsk⟩ := hdec
  obtain ⟨sm2, dsk⟩ := priv
  obtain ⟨sm2', dpk⟩ := pub
  dsimp only at hpriv hpub hpk hsk
  subst hpriv hpub hpk hsk
  exact ⟨f, g, x, y, s, hkind, hl, hf, hg, hx, hy, hxf, hyg, hs', hcheck, rfl, rfl⟩

omit [DecidableEq D] in
/-- The public octets of a saved pair: a self-test that passed ties its two SM2 keys. -/
theorem StoreInv.octets (hbind : Sm2Binding K.toCrypto) {w : Stores D PKey}
    (h : StoreInv K passphrase w) {args : SaveArgs PKey} (hmem : args ∈ w.saved) {s : PKey}
    (hs : args.privateKey.sm2PrivateKey = some s) :
    ∃ p o, args.publicKey.sm2PublicKey = some p ∧ sm2Octets K.toCrypto s = some o ∧
      sm2Octets K.toCrypto p = some o := by
  obtain ⟨m, s', p, sig, _, _, hs', hp, hsign, hverify⟩ := keypairSelfTest_parts (h.selfTest hmem)
  rw [hs] at hs'; cases hs'
  obtain ⟨o, hso, hpo⟩ := hbind _ _ _ _ _ hsign hverify
  exact ⟨p, o, hp, hso, hpo⟩

/-- **Binding of the component keys.** After any history of saves under one passphrase and of
rearrangements, loading gives only pairs that one save was given exactly when the files of each
directory belong together. -/
theorem pairs_bound_iff {D PKey : Type} [DecidableEq D] {K : StoreCrypto PKey}
    {passphrase : CString} (hK : StoreCorrect K) (hbind : Sm2Binding K.toCrypto)
    {w : Stores D PKey} (hreach : StoresReachable K passphrase w) :
    PairsBound K passphrase w ↔ FilesTogether K passphrase w := by
  have hinv := hreach.inv
  constructor
  · intro h a f g x y s hkind hl hf hg hx hy hxf hyg hs hcheck
    obtain ⟨p, o, hp, hso, hpo⟩ := hinv.octets hbind hx hs
    have hpass := hinv.valid hx
    rw [hinv.passphrase hx] at hpass
    obtain ⟨z, hz, hsm2, hdil, hpub⟩ := h a [] _ _ (load_saved hK hkind hf hg hxf hyg
      (hinv.passphrase hx) (hinv.passphrase hy) hpass hl hs hcheck hso (hinv.selfTest hy) [])
    exact ⟨z, hz, hsm2.symm, hdil.symm, (compositePublicKeysEqual_iff.mp hpub).1.symm⟩
  · intro h a rnd priv pub hload
    obtain ⟨f, g, x, y, s, hkind, hl, hf, hg, hx, hy, hxf, hyg, hs, hcheck, rfl, rfl⟩ :=
      hinv.load_some hK hload
    obtain ⟨z, hz, hsm2, hdil, hpub⟩ := h a f g x y s hkind hl hf hg hx hy hxf hyg hs hcheck
    obtain ⟨p, o, hp, hso, hpo⟩ := hinv.octets hbind hz hsm2
    exact ⟨z, hz, hsm2.symm, hdil.symm, compositePublicKeysEqual_iff.mpr
      ⟨hpub.symm, s, p, o, rfl, hp, hso, hpo⟩⟩

omit [DecidableEq D] in
/-- Files that stay with what the same save wrote belong together, wherever they are. -/
theorem StoreInv.filesTogether (hK : StoreCorrect K) {w : Stores D PKey}
    (h : StoreInv K passphrase w)
    (hone : ∀ a f g, (w.dir a).fileAt .sm2PrivatePem = some f →
      (w.dir a).fileAt .dilithium2PrivateEnc = some g →
      ∃ z ∈ w.saved, Sm2FileOf K z f ∧ DilithiumFileOf K z g) : FilesTogether K passphrase w := by
  intro a f g x y s _ _ hf hg hx hy hxf hyg hs _
  obtain ⟨z, hz, ⟨s', hs', hpem', _⟩, hzg⟩ := hone a f g hf hg
  obtain ⟨s'', hs'', hpem, _⟩ := hxf
  rw [hs] at hs''; cases hs''
  -- one passphrase opens the PEM file to one key, and the container to one pair
  have hread := hK.pemRead _ _ _ _ hpem
  rw [h.passphrase hx, ← h.passphrase hz, hK.pemRead _ _ _ _ hpem'] at hread
  cases hread
  have hdec := (decryptDilithiumPayload_encrypt hK.gcm hyg.1).2
  rw [h.passphrase hy, ← h.passphrase hz, (decryptDilithiumPayload_encrypt hK.gcm hzg.1).2,
    Option.some.injEq, Prod.mk.injEq] at hdec
  exact ⟨z, hz, hs', hdec.2, hdec.1⟩

end

/-- Two saves under one passphrase, each in an empty directory. -/
theorem toy_two_saves : ∃ w : Stores Bool Bytes,
    StoresReachable Toy.storeCrypto Toy.passphrase w ∧
    w.saved = [Toy.saveArgs 2, Toy.saveArgs 1] ∧
    ∀ a, Saved Toy.storeCrypto (Toy.saveArgs (if a then 1 else 2)) (w.dir a) := by
  obtain ⟨d1, hrun1⟩ := Toy.saveArgs_run 1
  obtain ⟨d2, hrun2⟩ := Toy.saveArgs_run 2
  let dir1 : Bool → Dir Unit KeyFile := Function.update (fun _ => .empty .privateDirectory) true d1
  have h1 : StoreStep Toy.storeCrypto Toy.passphrase ⟨fun _ => .empty .privateDirectory, []⟩
      ⟨dir1, [Toy.saveArgs 1]⟩ := .save rfl hrun1
  have h2 : StoreStep Toy.storeCrypto Toy.passphrase ⟨dir1, [Toy.saveArgs 1]⟩
      ⟨Function.update dir1 false d2, [Toy.saveArgs 2, Toy.saveArgs 1]⟩ := .save rfl hrun2
  refine ⟨_, ⟨_, fun _ _ => rfl, .tail (.single h1) h2⟩, rfl, fun a => ?_⟩
  cases a with
  | true => exact saved_of_run hrun1
  | false => exact saved_of_run hrun2

/-- Two saves whose directories then exchange both files: everything still belongs together, and
both stores load. -/
theorem pairs_bound_exchanged : ∃ w : Stores Bool Bytes,
    w.saved = [Toy.saveArgs 2, Toy.saveArgs 1] ∧ PairsBound Toy.storeCrypto Toy.passphrase w ∧
    ∀ a, (hybridKeyStoreLoad Toy.storeCrypto (w.dir a) Toy.passphrase []).2.isSome := by
  obtain ⟨w, ⟨dir, hnone, hsteps⟩, hsaved, hw⟩ := toy_two_saves
  obtain ⟨f1, hf1, hsm1⟩ := (hw true).sm2
  obtain ⟨g1, hg1, hdil1⟩ := (hw true).dilithium
  obtain ⟨f2, hf2, hsm2⟩ := (hw false).sm2
  obtain ⟨g2, hg2, hdil2⟩ := (hw false).dilithium
  let dir1 := Function.update (Function.update w.dir true ((w.dir true).put .sm2PrivatePem f2))
    false ((w.dir false).put .sm2PrivatePem f1)
  let dir2 := Function.update (Function.update dir1 true ((dir1 true).put .dilithium2PrivateEnc g2))
    false ((dir1 false).put .dilithium2PrivateEnc g1)
  have h1 : StoreStep Toy.storeCrypto Toy.passphrase w ⟨dir1, w.saved⟩ := .swap hf1 hf2
  have h2 : StoreStep Toy.storeCrypto Toy.passphrase ⟨dir1, w.saved⟩ ⟨dir2, w.saved⟩ :=
    .swap (a := true) (b := false) ((Dir.put_fileAt_ne (by decide)).trans hg1)
      ((Dir.put_fileAt_ne (by decide)).trans hg2)
  have hreach : StoresReachable Toy.storeCrypto Toy.passphrase ⟨dir2, w.saved⟩ :=
    ⟨dir, hnone, .tail (.tail hsteps h1) h2⟩
  have hmem : ∀ a : Bool, Toy.saveArgs (if a then 2 else 1) ∈ w.saved := by
    intro a
    rw [hsaved]
    cases a with
    | true => exact List.mem_cons_self
    | false => exact List.mem_cons_of_mem _ List.mem_cons_self
  -- each directory now holds what the other save wrote
  have hfiles : ∀ a : Bool, ∃ f g, (dir2 a).fileAt .sm2PrivatePem = some f ∧
      (dir2 a).fileAt .dilithium2PrivateEnc = some g ∧
      Sm2FileOf Toy.storeCrypto (Toy.saveArgs (if a then 2 else 1)) f ∧
      DilithiumFileOf Toy.storeCrypto (Toy.saveArgs (if a then 2 else 1)) g := by
    intro a
    cases a with
    | true =>
      exact ⟨f2, g2, (Dir.put_fileAt_ne (by decide)).trans (Dir.put_fileAt_self ..),
        Dir.put_fileAt_self .., hsm2, hdil2⟩
    | false =>
      exact ⟨f1, g1, (Dir.put_fileAt_ne (by decide)).trans (Dir.put_fileAt_self ..),
        Dir.put_fileAt_self .., hsm1, hdil1⟩
  refine ⟨⟨dir2, w.saved⟩, hsaved, (pairs_bound_iff Toy.storeCorrect Toy.sm2Binding hreach).mpr
    (hreach.inv.filesTogether Toy.storeCorrect fun a f g hf hg => ?_), fun a => ?_⟩
  · obtain ⟨f', g', hf', hg', hzf, hzg⟩ := hfiles a
    cases hf'.symm.trans hf
    cases hg'.symm.trans hg
    exact ⟨_, hmem a, hzf, hzg⟩
  · obtain ⟨f', g', hf', hg', hzf, hzg⟩ := hfiles a
    have hkind : (dir2 a).kind ≠ .other := by
      cases a with
      | true => simp [dir2, dir1, Dir.put, (hw true).directory]
      | false => simp [dir2, dir1, Dir.put, (hw false).directory]
    have hlen : Toy.passphrase.strlen ≤ pemBufsize := by decide
    have hload := load_saved Toy.storeCorrect hkind hf' hg' hzf hzg rfl rfl Toy.passphrase_valid
      hlen rfl (Toy.sm2Key_isPoint _) (Toy.sm2Octets_sm2Key _) (hreach.inv.selfTest (hmem a)) []
    exact Option.isSome_iff_exists.mpr ⟨_, hload⟩

/-- Two saves whose SM2 files are swapped: the loader takes both mixed pairs. -/
theorem swapped_files_load :
    ¬ ∀ w : Stores Bool Bytes, StoresReachable Toy.storeCrypto Toy.passphrase w →
      PairsBound Toy.storeCrypto Toy.passphrase w := by
  intro hclaim
  obtain ⟨w, ⟨dir, hnone, hsteps⟩, hsaved, hw⟩ := toy_two_saves
  obtain ⟨f1, hf1, _⟩ := (hw true).sm2
  obtain ⟨g1, hg1, hdil1⟩ := (hw true).dilithium
  obtain ⟨f2, hf2, hsm2⟩ := (hw false).sm2
  have h3 : StoreStep Toy.storeCrypto Toy.passphrase w ⟨_, w.saved⟩ :=
    .swap (a := true) (b := false) hf1 hf2
  -- the first directory now has the SM2 file of the second save
  have hbad := hclaim _ ⟨dir, hnone, .tail hsteps h3⟩ true []
  have hload := load_saved Toy.storeCorrect (d := (w.dir true).put .sm2PrivatePem f2)
    (by simp [Dir.put, (hw true).directory]) (Dir.put_fileAt_self ..)
    ((Dir.put_fileAt_ne (by decide)).trans hg1) hsm2 hdil1 rfl rfl Toy.passphrase_valid (by decide)
    rfl (Toy.sm2Key_isPoint 2) (Toy.sm2Octets_sm2Key 2) (hw true).selfTest []
  obtain ⟨args, hmem, hkey, hdil, _⟩ := hbad _ _ hload
  simp only [hsaved, List.mem_cons, List.not_mem_nil, or_false] at hmem
  obtain rfl | rfl := hmem
  · cases Toy.filled_inj (by decide) hdil
  · revert hkey; decide

end HybridPqc
