import HybridPqc.Conc.Crash
import HybridPqc.Store.Rollback
import HybridPqc.Store.RoundTrip

/-!
# Store.Crash

A `hybrid_key_store_save` that a crash cuts off: no later system call of it runs. The file being
written can then hold any prefix of its bytes, since a `write` may be short.

`CrashState` is what holds after every system call: the Dilithium2 name is free, or the SM2 file is
complete and the Dilithium2 file a prefix of the container. In between, both names exist, so that
the status is `COMPLETE`, and nothing can be loaded (`crash_complete_loads`).
-/

namespace HybridPqc

open Conc Fs

variable {PKey : Type} {K : StoreCrypto PKey} {args : SaveArgs PKey}

/-! ## Outside the Dilithium2 file -/

/-- Any system call but the one that creates the Dilithium2 file. -/
def SparesDilithium (op : Op KeyFile) : Prop := op ≠ .createExcl .dilithium2PrivateEnc

section

variable {name : KeyFile} {n : Nat}

theorem unlinkAndFail_only : Only SparesDilithium (unlinkAndFail name) :=
  ⟨nofun, fun _ => trivial⟩

theorem closeAndFail_only {buffered : Bytes} :
    Only SparesDilithium (closeAndFail n buffered name) :=
  ⟨nofun, fun _ => unlinkAndFail_only⟩

theorem writeAll_only (data : Bytes) : Only SparesDilithium (writeAll n data) := by
  induction data using writeAll.induct with
  | case1 =>
    rw [writeAll_nil]
    trivial
  | case2 data hne ih =>
    have hwrite : SparesDilithium (.write n data) := by
      intro h
      cases h
    rw [writeAll_step hne]
    refine ⟨hwrite, ?_⟩
    intro written
    cases written with
    | none => trivial
    | some k =>
      dsimp only [Option.elim_some]
      split
      · exact ih k ‹_›
      · trivial

theorem syncAndClose_only : Only SparesDilithium (syncAndClose n name) := by
  refine ⟨nofun, ?_⟩
  intro synced
  cases synced with
  | false => exact closeAndFail_only
  | true =>
    refine ⟨nofun, ?_⟩
    intro closed
    cases closed with
    | false => exact unlinkAndFail_only
    | true => trivial

theorem ensurePrivateDirectory_only : Only SparesDilithium ensurePrivateDirectory := by
  have hlstat : SparesDilithium Op.lstatDir := by
    intro h
    cases h
  have hmkdir : SparesDilithium Op.mkdir := by
    intro h
    cases h
  simp only [ensurePrivateDirectory, lstatDir_bind, mkdir_bind, Prog.pure_eq]
  refine ⟨hlstat, ?_⟩
  intro kind
  dsimp only
  split
  · refine ⟨hmkdir, ?_⟩
    intro made
    cases made with
    | false => trivial
    | true => exact ⟨hlstat, fun _ => trivial⟩
  · trivial

theorem hybridKeyStoreStatus_only : Only SparesDilithium hybridKeyStoreStatus :=
  ⟨nofun, fun _ => ⟨nofun, fun _ => trivial⟩⟩

theorem saveSm2PrivateKey_only {key : Option PKey} {passphrase : CString} {rnd : Bytes} :
    Only SparesDilithium (saveSm2PrivateKey K key passphrase rnd) := by
  unfold saveSm2PrivateKey
  split
  · trivial
  split
  swap
  · trivial
  refine ⟨nofun, ?_⟩
  intro descriptor
  cases descriptor with
  | none => trivial
  | some ino =>
    refine ⟨nofun, ?_⟩
    intro opened
    cases opened with
    | false => exact closeAndFail_only
    | true =>
      dsimp only
      split
      · exact closeAndFail_only
      · refine (writeAll_only _).bind ?_
        intro rest
        cases rest with
        | none => exact syncAndClose_only
        | some rest => exact closeAndFail_only

end

/-! ## After every call -/

/-- Both key names exist; the SM2 file is complete, the Dilithium2 file may not be. -/
structure HalfSaved (K : StoreCrypto PKey) (args : SaveArgs PKey) (d : Dir Unit KeyFile) :
    Prop where
  passphrase : passphraseValid args.passphrase = true
  selfTest : keypairSelfTest K args.privateKey args.publicKey args.selfTestRnd = true
  directory : d.kind = .privateDirectory
  sm2 : ∃ f, d.fileAt .sm2PrivatePem = some f ∧ Sm2FileOf K args f
  dilithium : ∃ f fileData, d.fileAt .dilithium2PrivateEnc = some f ∧ f.isPrivate = true ∧
    encryptDilithiumPayload K args.privateKey args.publicKey args.passphrase args.salt args.iv =
      some fileData ∧ f.data <+: fileData

def CrashState (K : StoreCrypto PKey) (args : SaveArgs PKey) (d : Dir Unit KeyFile) : Prop :=
  d.entry .dilithium2PrivateEnc = none ∨ HalfSaved K args d

theorem crashState_of_only {α : Type} {p : Prog (sig KeyFile) α} {d : Dir Unit KeyFile}
    (h : Only SparesDilithium p) (hd : d.entry .dilithium2PrivateEnc = none) :
    Guarded (step ()) (CrashState K args) (fun _ d => d.entry .dilithium2PrivateEnc = none) p d :=
  h.guarded (fun _ _ _ _ hop hs => step_entry_none hop hs) (fun _ => Or.inl) hd

/-- The Dilithium2 file `n` holds `data`, next to a complete SM2 file. -/
structure Writing (K : StoreCrypto PKey) (args : SaveArgs PKey) (n : Nat) (data : Bytes)
    (d : Dir Unit KeyFile) : Prop where
  directory : d.kind = .privateDirectory
  sm2 : ∃ m f, m ≠ n ∧ d.entry .sm2PrivatePem = some (.file m) ∧ d.file m = some f ∧
    Sm2FileOf K args f
  entry : d.entry .dilithium2PrivateEnc = some (.file n)
  file : ∃ f, d.file n = some f ∧ f.data = data ∧ f.isPrivate = true

section

variable {n : Nat} {data fileData : Bytes} {d : Dir Unit KeyFile}

theorem Writing.append (h : Writing K args n data d) (x : Bytes) :
    Writing K args n (data ++ x) (d.append n x) := by
  obtain ⟨m, f, hm, he, hf, hof⟩ := h.sm2
  obtain ⟨g, hg, rfl, hpriv⟩ := h.file
  exact ⟨h.directory, ⟨m, f, hm, he, (Dir.append_file_ne hm).trans hf, hof⟩, h.entry,
    ⟨_, Dir.append_file_self hg, rfl, hpriv⟩⟩

/-- Nothing is left in the stream when the file is closed. -/
theorem Writing.close (h : Writing K args n data d) {r : Bool} {d' : Dir Unit KeyFile}
    (hclose : step () (.close n []) d r d') : Writing K args n data d' := by
  obtain ⟨k, _, _, rfl⟩ := hclose
  have := h.append []
  rw [List.append_nil] at this
  rw [List.take_nil]
  exact this

variable (hpass : passphraseValid args.passphrase = true)
  (htest : keypairSelfTest K args.privateKey args.publicKey args.selfTestRnd = true)
  (hfile : encryptDilithiumPayload K args.privateKey args.publicKey args.passphrase args.salt
    args.iv = some fileData)
include hpass htest hfile

theorem Writing.crashState (h : Writing K args n data d) (hdata : data <+: fileData) :
    CrashState K args d := by
  obtain ⟨m, f, _, he, hf, hof⟩ := h.sm2
  obtain ⟨g, hg, rfl, hpriv⟩ := h.file
  exact Or.inr ⟨hpass, htest, h.directory, ⟨f, (Dir.fileAt_of_entry he).trans hf, hof⟩,
    ⟨g, fileData, (Dir.fileAt_of_entry h.entry).trans hg, hpriv, hfile, hdata⟩⟩

/-- The write loop, by induction on what is left. -/
theorem writeAll_guarded (rest : Bytes) :
    ∀ data d, Writing K args n data d → data ++ rest = fileData →
      Guarded (step ()) (CrashState K args)
        (fun _ d => ∃ data, Writing K args n data d ∧ data <+: fileData) (writeAll n rest) d := by
  induction rest using writeAll.induct with
  | case1 =>
    intro data d hw hdata
    rw [writeAll_nil]
    exact .ret ⟨data, hw, ⟨[], hdata⟩⟩
  | case2 rest hne ih =>
    intro data d hw hdata
    have hprefix : data <+: fileData := ⟨rest, hdata⟩
    rw [writeAll_step hne]
    refine .call ?_
    rintro r d1 (⟨rfl, rfl⟩ | ⟨k, hk, hkl, rfl, rfl⟩)
    · exact ⟨hw.crashState hpass htest hfile hprefix, .ret ⟨data, hw, hprefix⟩⟩
    · have hw1 := hw.append (rest.take k)
      have hdata1 : (data ++ rest.take k) ++ rest.drop k = fileData := by
        rw [List.append_assoc, List.take_append_drop, hdata]
      refine ⟨hw1.crashState hpass htest hfile ⟨_, hdata1⟩, ?_⟩
      simp only [Option.elim_some, if_pos hk]
      exact ih k hk _ _ hw1 hdata1

omit hpass htest hfile in
/-- The name is free again, whatever it stood for. -/
theorem unlinkDilithium_guarded (d : Dir Unit KeyFile) :
    Guarded (step ()) (CrashState K args) (fun _ d => d.entry .dilithium2PrivateEnc = none)
      (unlinkAndFail .dilithium2PrivateEnc) d := by
  refine .call ?_
  rintro r d1 rfl
  exact ⟨Or.inl (Dir.unlink_entry_self ..), .ret (Dir.unlink_entry_self ..)⟩

theorem closeAndFail_guarded (hw : Writing K args n data d) (hdata : data <+: fileData) :
    Guarded (step ()) (CrashState K args) (fun _ d => d.entry .dilithium2PrivateEnc = none)
      (closeAndFail n [] .dilithium2PrivateEnc) d := by
  refine .call ?_
  intro r d1 hclose
  exact ⟨(hw.close hclose).crashState hpass htest hfile hdata, unlinkDilithium_guarded d1⟩

theorem syncAndClose_guarded (hw : Writing K args n data d) (hdata : data <+: fileData) :
    Guarded (step ()) (CrashState K args)
      (fun r d => r = false → d.entry .dilithium2PrivateEnc = none)
      (syncAndClose n .dilithium2PrivateEnc) d := by
  refine .call ?_
  rintro synced d1 rfl
  refine ⟨hw.crashState hpass htest hfile hdata, ?_⟩
  cases synced with
  | false =>
    exact (closeAndFail_guarded hpass htest hfile hw hdata).mono fun _ _ h _ => h
  | true =>
    refine .call ?_
    intro closed d2 hclose
    refine ⟨(hw.close hclose).crashState hpass htest hfile hdata, ?_⟩
    cases closed with
    | true => exact .ret nofun
    | false => exact (unlinkDilithium_guarded d2).mono fun _ _ h _ => h

end

/-- A complete SM2 file in a private directory whose Dilithium2 name is free. -/
structure HalfWay (K : StoreCrypto PKey) (args : SaveArgs PKey) (d : Dir Unit KeyFile) : Prop where
  directory : d.kind = .privateDirectory
  sm2 : ∃ m f, d.entry .sm2PrivatePem = some (.file m) ∧ d.file m = some f ∧ Sm2FileOf K args f
  free : d.entry .dilithium2PrivateEnc = none

theorem HalfWay.create {d : Dir Unit KeyFile} (h : HalfWay K args d) :
    Writing K args d.next [] (d.create () .dilithium2PrivateEnc) where
  directory := h.directory
  sm2 := by
    obtain ⟨m, f, he, hf, hof⟩ := h.sm2
    have hm : m ≠ d.next := by
      rintro rfl
      rw [d.fresh (Nat.le_refl _)] at hf
      cases hf
    exact ⟨m, f, hm, (Dir.create_entry_ne (by decide)).trans he, Dir.create_file_of_some hf, hof⟩
  entry := Dir.create_entry_self ..
  file := ⟨_, Dir.create_file_next .., rfl, rfl⟩

section

variable {d d' : Dir Unit KeyFile}

theorem saveDilithiumPrivateKey_guarded (hpass : passphraseValid args.passphrase = true)
    (htest : keypairSelfTest K args.privateKey args.publicKey args.selfTestRnd = true)
    (h : HalfWay K args d) :
    Guarded (step ()) (CrashState K args)
      (fun r d => r = false → d.entry .dilithium2PrivateEnc = none)
      (saveDilithiumPrivateKey K args) d := by
  have hgone : Guarded (step ()) (CrashState K args)
      (fun r d => r = false → d.entry .dilithium2PrivateEnc = none)
      (unlinkAndFail .dilithium2PrivateEnc) d :=
    (unlinkDilithium_guarded d).mono fun _ _ h _ => h
  unfold saveDilithiumPrivateKey
  split
  · exact hgone
  · rename_i fileData hfile
    rw [createExcl_bind]
    refine .call ?_
    rintro r d1 (⟨rfl, rfl⟩ | ⟨rfl, _, rfl⟩)
    · exact ⟨Or.inl h.free, hgone⟩
    · have hw := h.create
      refine ⟨hw.crashState hpass htest hfile List.nil_prefix, ?_⟩
      refine Guarded.bind (writeAll_guarded hpass htest hfile fileData [] _ hw rfl) ?_
      rintro rest d2 ⟨data, hw2, hdata⟩
      cases rest with
      | none => exact syncAndClose_guarded hpass htest hfile hw2 hdata
      | some rest =>
        exact (closeAndFail_guarded hpass htest hfile hw2 hdata).mono fun _ _ h _ => h

/-- What a save of the SM2 key that returned 1 leaves behind. -/
theorem halfWay_of_run (hkind : d.kind = .privateDirectory)
    (h : Run (step ()) (saveSm2PrivateKey K args.privateKey.sm2PrivateKey args.passphrase
      args.pemRnd) d true d') (hfree : d'.entry .dilithium2PrivateEnc = none) :
    HalfWay K args d' := by
  have hv : Valid (saveSem (fun _ => True) ()) (Keeps (fun _ => True) ())
      (Guar (fun _ => True) () fun _ => True)
      (fun r d => r = true → Sm2Saved K (fun _ => True) () args d)
      (saveSm2PrivateKey K args.privateKey.sm2PrivateKey args.passphrase args.pemRnd) d :=
    saveSm2PrivateKey_valid
  rw [saveSem_unit] at hv
  obtain ⟨sm2, pem, n, hsm2, hpem, hm⟩ := hv.run (fun _ => .refl) h rfl
  rcases saveSm2PrivateKey_run h with ⟨_, _, hc⟩ | ⟨hr, _⟩
  · exact ⟨hc.kind.trans hkind, ⟨n, _, hm.2 trivial, hm.1, sm2, hsm2, hpem, rfl⟩, hfree⟩
  · cases hr

theorem saveKeyFiles_guarded (hpass : passphraseValid args.passphrase = true)
    (htest : keypairSelfTest K args.privateKey args.publicKey args.selfTestRnd = true)
    (hkind : d.kind = .privateDirectory) (hfree : d.entry .dilithium2PrivateEnc = none) :
    Guarded (step ()) (CrashState K args) (fun _ _ => True) (saveKeyFiles K args) d := by
  have hgone : ∀ d : Dir Unit KeyFile, Guarded (step ()) (CrashState K args) (fun _ _ => True)
      (unlinkAndFail .dilithium2PrivateEnc) d :=
    fun d => (unlinkDilithium_guarded d).mono fun _ _ _ => trivial
  refine Guarded.bind ((crashState_of_only saveSm2PrivateKey_only hfree).and_run fun _ _ hr => hr)
    ?_
  rintro sm2Saved d1 ⟨hfree1, hrun⟩
  cases sm2Saved with
  | false => exact hgone d1
  | true =>
    refine Guarded.bind
      (saveDilithiumPrivateKey_guarded hpass htest (halfWay_of_run hkind hrun hfree1)) ?_
    intro dilithiumSaved d2 hd2
    cases dilithiumSaved with
    | true => exact .ret trivial
    | false =>
      have hfree2 := hd2 rfl
      refine .call ?_
      rintro r d3 rfl
      have hfree3 : (d2.unlink .sm2PrivatePem).entry .dilithium2PrivateEnc = none :=
        (Dir.unlink_entry_ne (by decide)).trans hfree2
      exact ⟨Or.inl hfree3, hgone _⟩

/-- Whatever cuts a save off, it leaves a `CrashState`. -/
theorem hybridKeyStoreSave_cut (hnone : ∀ name, d.entry name = none)
    (hcut : Cut (step ()) (hybridKeyStoreSave K args) d d') : CrashState K args d' := by
  have hfree := hnone .dilithium2PrivateEnc
  refine Guarded.cut (Q := fun _ _ => True) ?_ (Or.inl hfree) hcut
  unfold hybridKeyStoreSave
  split
  swap
  · exact .ret trivial
  rename_i hcheck
  rw [Bool.and_eq_true] at hcheck
  have hv := ensurePrivateDirectory_valid (P := fun _ => True) (i := ()) (d := d)
  rw [saveSem_unit] at hv
  refine Guarded.bind ((crashState_of_only ensurePrivateDirectory_only hfree).and_run
    fun _ _ hr => hv.run (fun _ => .refl) hr) ?_
  rintro directoryOk d1 ⟨hfree1, hkind⟩
  cases directoryOk with
  | false => exact .ret trivial
  | true =>
    rw [if_pos rfl]
    have hstatus : ∀ status d2, Run (step ()) hybridKeyStoreStatus d1 status d2 →
        d2.kind = .privateDirectory := by
      intro status d2 hr
      rw [← Prog.bind_ret hybridKeyStoreStatus] at hr
      obtain ⟨_, rfl⟩ := run_ret.mp (run_hybridKeyStoreStatus.mp hr)
      exact hkind rfl
    refine Guarded.bind
      ((crashState_of_only hybridKeyStoreStatus_only hfree1).and_run hstatus) ?_
    rintro status d2 ⟨hfree2, hkind2⟩
    split
    · exact saveKeyFiles_guarded hcheck.1 hcheck.2 hkind2 hfree2
    · exact .ret trivial

end

/-! ## What can be loaded -/

/-- If the status is `COMPLETE`, the pair can be loaded. -/
def CompleteLoads (K : StoreCrypto PKey) (args : SaveArgs PKey) (d : Dir Unit KeyFile) : Prop :=
  statusOf d = .complete → ∀ rnd, ∃ priv pub,
    (hybridKeyStoreLoad K d args.passphrase rnd).2 = some (priv, pub) ∧ SamePair K args priv pub

/-- The Dilithium2 file is not there, or complete. -/
def DilithiumWhole (d : Dir Unit KeyFile) : Prop :=
  d.entry .dilithium2PrivateEnc = none ∨
    ∃ f, d.fileAt .dilithium2PrivateEnc = some f ∧ f.data.length = dilithiumStoreFileBytes

theorem statusOf_complete {d : Dir Unit KeyFile} :
    statusOf d = .complete ↔ ∀ name, d.accessible name = true := by
  unfold statusOf
  constructor
  · intro h name
    cases hs : d.accessible .sm2PrivatePem <;> cases hd : d.accessible .dilithium2PrivateEnc <;>
      rw [hs, hd] at h <;> cases h
    cases name with
    | sm2PrivatePem => exact hs
    | dilithium2PrivateEnc => exact hd
  · intro h
    rw [h, h]

/-- Nothing is loaded from a Dilithium2 file that is too short. -/
theorem load_needs_whole {d : Dir Unit KeyFile} {passphrase : CString} {rnd : Bytes}
    {keys : HybridPrivateKey PKey × HybridPublicKey PKey}
    (h : (hybridKeyStoreLoad K d passphrase rnd).2 = some keys) : DilithiumWhole d := by
  obtain ⟨_, _, _, hdil, _⟩ := hybridKeyStoreLoad_some_iff.mp h
  obtain ⟨f, hf, _, hl, _⟩ := loadDilithiumPrivateKey_some_iff.mp hdil
  exact Or.inr ⟨f, hf, hl⟩

theorem HalfSaved.complete {d : Dir Unit KeyFile} (h : HalfSaved K args d) :
    statusOf d = .complete := by
  obtain ⟨f, hf, _⟩ := h.sm2
  obtain ⟨g, _, hg, _⟩ := h.dilithium
  refine statusOf_complete.mpr ?_
  intro name
  cases name with
  | sm2PrivatePem => exact accessible_of_fileAt hf
  | dilithium2PrivateEnc => exact accessible_of_fileAt hg

/-- **Complete means loadable** after a crash, unless the crash falls between the creation of the
Dilithium2 file and the write of its last byte. There the status is `COMPLETE` and a load fails. -/
theorem crash_complete_loads {PKey : Type} {K : StoreCrypto PKey} (hK : StoreCorrect K)
    (args : SaveArgs PKey) (hpair : HybridKeyPair K.toCrypto args.privateKey args.publicKey)
    (hl : args.passphrase.strlen ≤ pemBufsize) {d d' : Dir Unit KeyFile}
    (hnone : ∀ name, d.entry name = none)
    (hcut : Cut (step ()) (hybridKeyStoreSave K args) d d') :
    (DilithiumWhole d' → CompleteLoads K args d') ∧
    (¬ DilithiumWhole d' → statusOf d' = .complete ∧
      ∀ rnd, (hybridKeyStoreLoad K d' args.passphrase rnd).2 = none) := by
  rcases hybridKeyStoreSave_cut hnone hcut with hfree | hhalf
  · refine ⟨?_, fun h => (h (Or.inl hfree)).elim⟩
    intro _ hcomplete
    have := statusOf_complete.mp hcomplete .dilithium2PrivateEnc
    rw [Dir.accessible, hfree] at this
    cases this
  · constructor
    · intro hwhole _ rnd
      obtain ⟨f, hf, hsm2⟩ := hhalf.sm2
      obtain ⟨g, fileData, hg, hpriv, hfile, hprefix⟩ := hhalf.dilithium
      have hlen : g.data.length = dilithiumStoreFileBytes := by
        rcases hwhole with hfree | ⟨g', hg', hlen⟩
        · rw [Dir.fileAt, hfree] at hg
          cases hg
        · rw [hg] at hg'
          cases hg'
          exact hlen
      have hdata : g.data = fileData :=
        hprefix.eq_of_length (hlen.trans (decryptDilithiumPayload_encrypt hK.gcm hfile).1.symm)
      obtain ⟨s, p, o, hs, hp, hcheck, hso, hpo⟩ := hpair.sm2
      exact ⟨_, _, load_saved hK (by simp [hhalf.directory]) hf hg hsm2
        ⟨by rw [hdata, hfile], hpriv⟩
        rfl rfl hhalf.passphrase hl hs hcheck hso hhalf.selfTest rnd, hs.symm, rfl,
        compositePublicKeysEqual_iff.mpr ⟨rfl, s, p, o, rfl, hp, hso, hpo⟩⟩
    · intro hpart
      refine ⟨hhalf.complete, ?_⟩
      intro rnd
      cases hload : (hybridKeyStoreLoad K d' args.passphrase rnd).2 with
      | none => rfl
      | some keys => exact (hpart (load_needs_whole hload)).elim

/-- A crash after the last step. -/
theorem crash_complete_loads_toy : ∃ d',
    Cut (step ()) (hybridKeyStoreSave Toy.storeCrypto (Toy.saveArgs 1)) (.empty .privateDirectory)
      d' ∧ statusOf d' = .complete ∧ CompleteLoads Toy.storeCrypto (Toy.saveArgs 1) d' := by
  obtain ⟨d', hrun⟩ := Toy.saveArgs_run 1
  obtain ⟨f, hf, _⟩ := (saved_of_run hrun).sm2
  obtain ⟨g, hg, hfile, _⟩ := (saved_of_run hrun).dilithium
  have hcut := Cut.of_run hrun
  refine ⟨d', hcut, ?_, ?_⟩
  · refine statusOf_complete.mpr ?_
    intro name
    cases name with
    | sm2PrivatePem => exact accessible_of_fileAt hf
    | dilithium2PrivateEnc => exact accessible_of_fileAt hg
  · exact (crash_complete_loads Toy.storeCorrect (Toy.saveArgs 1) (Toy.keyPair 1) (by decide)
      (fun _ => rfl) hcut).1
      (Or.inr ⟨g, hg, (decryptDilithiumPayload_encrypt Toy.storeCorrect.gcm hfile).1⟩)

/-- A call can be cut off right after it has created the Dilithium2 file. -/
theorem cut_after_create {d : Dir Unit KeyFile} {sm2 : PKey} {pem fileData : Bytes}
    (hsm2 : args.privateKey.sm2PrivateKey = some sm2)
    (hpass : passphraseValid args.passphrase = true)
    (htest : keypairSelfTest K args.privateKey args.publicKey args.selfTestRnd = true)
    (hpem : K.pemWritePkcs8PrivateKey sm2 args.passphrase.val args.pemRnd = some pem)
    (hfile : encryptDilithiumPayload K args.privateKey args.publicKey args.passphrase args.salt
      args.iv = some fileData) (hkind : d.kind = .privateDirectory)
    (hnone : ∀ name, d.entry name = none) :
    ∃ d1 : Dir Unit KeyFile, (∃ n, d1.entry .sm2PrivatePem = some (.file n)) ∧
      Cut (step ()) (hybridKeyStoreSave K args) d (d1.create () .dilithium2PrivateEnc) := by
  obtain ⟨d1, hsaves, _, hentry, hfree⟩ := saveSm2PrivateKey_saves (i := ()) hpass hpem hnone
  refine ⟨d1, hentry, ?_⟩
  have hacc : ∀ name, d.accessible name = false := by
    intro name
    rw [Dir.accessible, hnone]
  simp only [hybridKeyStoreSave, hpass, htest, Bool.and_self, if_true]
  refine Cut.bind (run_of_noFailure (ensurePrivateDirectory_run hkind))
    (Cut.bind (run_of_noFailure (hybridKeyStoreStatus_run hacc)) ?_)
  simp only [if_true, saveKeyFiles, hsm2]
  refine Cut.bind (run_of_noFailure hsaves) (Cut.bind_left _ ?_)
  simp only [saveDilithiumPrivateKey, hfile, createExcl_bind]
  exact .call (r := some d1.next) (Or.inr ⟨rfl, hfree, rfl⟩) .here

/-- There the status is `COMPLETE`, and the Dilithium2 file is empty. -/
theorem crash_not_loadable :
    ¬ ∀ (args : SaveArgs Bytes) (d d' : Dir Unit KeyFile),
      HybridKeyPair Toy.storeCrypto.toCrypto args.privateKey args.publicKey →
      args.passphrase.strlen ≤ pemBufsize → (∀ name, d.entry name = none) →
      Cut (step ()) (hybridKeyStoreSave Toy.storeCrypto args) d d' →
      CompleteLoads Toy.storeCrypto args d' := by
  intro hclaim
  have htest : keypairSelfTest Toy.storeCrypto (Toy.saveArgs 1).privateKey
      (Toy.saveArgs 1).publicKey (Toy.saveArgs 1).selfTestRnd = true :=
    Toy.keypairSelfTest_pair (Toy.keyPair 1) []
  obtain ⟨file, hfile⟩ :=
    Toy.encryptDilithiumPayload_eq (Toy.saveArgs 1) Toy.passphrase_valid rfl rfl
  obtain ⟨d1, ⟨n, hn⟩, hcut⟩ := cut_after_create (d := .empty .privateDirectory) rfl
    Toy.passphrase_valid htest rfl hfile rfl fun _ => rfl
  have hempty : (d1.create () .dilithium2PrivateEnc).fileAt .dilithium2PrivateEnc =
      some ⟨[], true, some ()⟩ := Dir.put_fileAt_self ..
  have hcomplete : statusOf (d1.create () .dilithium2PrivateEnc) = .complete := by
    refine statusOf_complete.mpr ?_
    intro name
    cases name with
    | sm2PrivatePem => rw [Dir.accessible, Dir.create_entry_ne (by decide), hn]
    | dilithium2PrivateEnc => exact accessible_of_fileAt hempty
  obtain ⟨_, _, hload, _⟩ :=
    hclaim (Toy.saveArgs 1) _ _ (Toy.keyPair 1) (by decide) (fun _ => rfl) hcut hcomplete []
  rcases load_needs_whole hload with hfree | ⟨f, hf, hlen⟩
  · rw [Dir.create_entry_self] at hfree
    cases hfree
  · rw [hempty] at hf
    cases hf
    cases hlen

end HybridPqc
