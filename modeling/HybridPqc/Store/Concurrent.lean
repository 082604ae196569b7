import HybridPqc.Store.Toy

/-!
# Store.Concurrent

`hybrid_key_store_save` calls running at the same time on one directory.

Each call is a thread of `Conc`; its files carry its index. `P` says which names are protected: a
run in which every call spares the protected Dilithium2 name (`saveSem`) keeps every other call's
files under their protected names. `saveKeyFiles_valid` is the rely-guarantee triple of a call: when
it returns 1, both files are its own and complete, and stay so.

`concurrent_saves`: with both names protected, at most one call returns 1 and from then on both its
files are there. `concurrent_saves_sm2`: without any condition this still holds of the SM2 file.
The clean-up under `done` unlinks the Dilithium2 name also when the call made no file
(`save_loses_key`), which the condition rules out.
-/

namespace HybridPqc

open Conc Fs

variable {PKey ι : Type}

/-- A system call of call `i`. Where the Dilithium2 name is protected, `i` does not unlink it while
it stands for a file that another call created. -/
def saveSem (P : KeyFile → Prop) (i : ι) : Sem (sig KeyFile) (Dir ι KeyFile) := fun op d r d' =>
  step i op d r d' ∧
    (op = .unlink .dilithium2PrivateEnc → P .dilithium2PrivateEnc →
      Spares i .dilithium2PrivateEnc d)

/-- `n` is a file of call `i` that holds `data`, and if `name` is protected it stands for `n`. -/
def Mine (P : KeyFile → Prop) (i : ι) (name : KeyFile) (n : Nat) (data : Bytes)
    (d : Dir ι KeyFile) : Prop :=
  d.file n = some ⟨data, true, some i⟩ ∧ (P name → d.entry name = some (.file n))

/-- What call `i` does: it keeps the other calls' files, a private directory, and `F`. -/
structure Guar (P : KeyFile → Prop) (i : ι) (F : Dir ι KeyFile → Prop) (d d' : Dir ι KeyFile) :
    Prop where
  keeps : ∀ j, j ≠ i → Keeps P j d d'
  kind : d.kind = .privateDirectory → d'.kind = .privateDirectory
  frame : F d → F d'

section

variable {P : KeyFile → Prop} {i : ι} {F : Dir ι KeyFile → Prop} {name : KeyFile} {n : Nat}
  {data : Bytes} {d d' : Dir ι KeyFile}

theorem Mine.keeps (h : Mine P i name n data d) (hk : Keeps P i d d') : Mine P i name n data d' :=
  ⟨hk.file h.1 rfl, fun hP => hk.entry hP (h.2 hP) h.1 rfl⟩

theorem Mine.append (h : Mine P i name n data d) (x : Bytes) :
    Mine P i name n (data ++ x) (d.append n x) :=
  ⟨Dir.append_file_self h.1, h.2⟩

theorem Mine.append_ne {m : Nat} (h : Mine P i name n data d) (hm : n ≠ m) (x : Bytes) :
    Mine P i name n data (d.append m x) :=
  ⟨(Dir.append_file_ne hm).trans h.1, h.2⟩

theorem Mine.unlink_ne {name' : KeyFile} (h : Mine P i name n data d) (hn : name ≠ name') :
    Mine P i name n data (d.unlink name') :=
  ⟨h.1, fun hP => (Dir.unlink_entry_ne hn).trans (h.2 hP)⟩

theorem Mine.create_ne {name' : KeyFile} (h : Mine P i name n data d) (hn : name ≠ name') :
    Mine P i name n data (d.create i name') :=
  ⟨Dir.create_file_of_some h.1, fun hP => (Dir.create_entry_ne hn).trans (h.2 hP)⟩

theorem mine_create : Mine P i name d.next [] (d.create i name) :=
  ⟨Dir.create_file_next .., fun _ => Dir.create_entry_self ..⟩

theorem Mine.spares (h : Mine P i name n data d) (hP : P name) : Spares i name d := by
  intro m f j he hf hc
  rw [h.2 hP] at he
  cases he
  rw [h.1] at hf
  cases hf
  exact (Option.some.inj hc).symm

/-- A respectful call keeps to the guarantee if it also keeps `F`. -/
theorem guar_of_step {op : Op KeyFile} {r : op.Resp} (hs : step i op d r d')
    (h : Respects P i op d) (hF : F d → F d') : Guar P i F d d' :=
  ⟨fun _ hj => step_keeps hs h hj, step_kind hs, hF⟩

/-! ## The pieces of a save -/

variable {Q : Bool → Dir ι KeyFile → Prop}

/-- Unlinking an own file, or the Dilithium2 name under the condition of the run. -/
theorem unlink_valid {k : Unit → Prog (sig KeyFile) Bool}
    (hown : name = .dilithium2PrivateEnc ∨ ∃ data, Mine P i name n data d)
    (hF : ∀ d, F d → F (d.unlink name))
    (hk : ∀ d, Valid (saveSem P i) (Keeps P i) (Guar P i F) Q (k ()) d) :
    Valid (saveSem P i) (Keeps P i) (Guar P i F) Q (unlink name >>= k) d := by
  rintro d1 h1 r d2 ⟨hs, hspares⟩
  refine ⟨guar_of_step hs (fun hP => ?_) ?_, hk d2⟩
  · obtain rfl | ⟨data, hm⟩ := hown
    · exact hspares rfl hP
    · exact (hm.keeps h1).spares hP
  · cases hs; exact hF d1

theorem unlinkAndFail_valid
    (hown : name = .dilithium2PrivateEnc ∨ ∃ data, Mine P i name n data d)
    (hF : ∀ d, F d → F (d.unlink name)) :
    Valid (saveSem P i) (Keeps P i) (Guar P i F) (fun r _ => r = false) (unlinkAndFail name) d :=
  unlink_valid hown hF fun _ => Valid.ret fun _ _ => rfl

theorem closeAndFail_valid {buffered : Bytes} (hm : Mine P i name n data d)
    (hFa : ∀ d x, F d → F (d.append n x)) (hFu : ∀ d, F d → F (d.unlink name)) :
    Valid (saveSem P i) (Keeps P i) (Guar P i F) (fun r _ => r = false)
      (closeAndFail n buffered name) d := by
  rintro d1 h1 r d2 ⟨hs, _⟩
  have hm1 := hm.keeps h1
  refine ⟨guar_of_step hs (fun f hf => ?_) ?_, ?_⟩
  · rw [hm1.1] at hf; cases hf; rfl
  · obtain ⟨k, _, _, rfl⟩ := hs; exact hFa d1 _
  · obtain ⟨k, _, _, rfl⟩ := hs
    exact unlinkAndFail_valid (Or.inr ⟨_, hm1.append _⟩) hFu

/-- The write loop, by induction on what is left: all of it ends up in the file, or some of it. -/
theorem writeAll_valid (hFa : ∀ d x, F d → F (d.append n x)) (rest : Bytes) :
    ∀ data d, Mine P i name n data d →
      Valid (saveSem P i) (Keeps P i) (Guar P i F)
        (fun r d => match r with
          | none => Mine P i name n (data ++ rest) d
          | some _ => ∃ data', Mine P i name n data' d) (writeAll n rest) d := by
  induction rest using writeAll.induct with
  | case1 =>
    intro data d hm
    rw [writeAll_nil, List.append_nil]
    exact Valid.ret fun d1 h1 => hm.keeps h1
  | case2 rest hne ih =>
    intro data d hm
    rw [writeAll_step hne]
    rintro d1 h1 r d2 ⟨hs, _⟩
    have hm1 := hm.keeps h1
    refine ⟨guar_of_step hs ?_ ?_, ?_⟩
    · intro f hf
      rw [hm1.1] at hf
      cases hf
      rfl
    · obtain ⟨_, rfl⟩ | ⟨k, _, _, _, rfl⟩ := hs
      · exact id
      · exact hFa d1 _
    · obtain ⟨rfl, rfl⟩ | ⟨k, hk, hkl, rfl, rfl⟩ := hs
      · exact Valid.ret fun d3 h3 => ⟨_, hm1.keeps h3⟩
      · have hrest := ih k hk _ _ (hm1.append (rest.take k))
        rw [List.append_assoc, List.take_append_drop] at hrest
        simp only [Option.elim_some, if_pos hk]
        exact hrest

/-- Closing an own file that is complete leaves it as it is. -/
theorem syncAndClose_valid (hm : Mine P i name n data d) (hFa : ∀ d x, F d → F (d.append n x))
    (hFu : ∀ d, F d → F (d.unlink name)) :
    Valid (saveSem P i) (Keeps P i) (Guar P i F) (fun r d => r = true → Mine P i name n data d)
      (syncAndClose n name) d := by
  have hfail : ∀ {p : Prog (sig KeyFile) Bool} {d}, Valid (saveSem P i) (Keeps P i) (Guar P i F)
      (fun r _ => r = false) p d → Valid (saveSem P i) (Keeps P i) (Guar P i F)
        (fun r d => r = true → Mine P i name n data d) p d :=
    fun h => h.mono (fun _ _ => id) fun r _ hr hr' => by rw [hr] at hr'; cases hr'
  simp only [syncAndClose, fsync_bind, close_bind, Prog.pure_eq]
  rintro d1 h1 synced d2 ⟨hs, _⟩
  have hm1 := hm.keeps h1
  refine ⟨guar_of_step hs trivial (by cases hs; exact id), ?_⟩
  cases hs
  cases synced with
  | false => exact hfail (closeAndFail_valid hm1 hFa hFu)
  | true =>
    simp only [if_true]
    rintro d3 h3 closed d4 ⟨hs, _⟩
    have hm3 := hm1.keeps h3
    refine ⟨guar_of_step hs (fun f hf => ?_) ?_, ?_⟩
    · rw [hm3.1] at hf; cases hf; rfl
    · obtain ⟨k, _, _, rfl⟩ := hs; exact hFa d3 _
    · obtain ⟨k, _, _, rfl⟩ := hs
      have hm4 := hm3.append (([] : Bytes).take k)
      rw [List.take_nil, List.append_nil] at hm4
      rw [List.take_nil]
      cases closed with
      | false => exact hfail (unlinkAndFail_valid (Or.inr ⟨_, hm4⟩) hFu)
      | true => exact Valid.ret fun d5 h5 _ => hm4.keeps h5

/-! ## A whole save -/

variable (K : StoreCrypto PKey)

/-- The SM2 file of call `i` is there and holds the PEM that the call wrote. -/
def Sm2Saved (P : KeyFile → Prop) (i : ι) (args : SaveArgs PKey) (d : Dir ι KeyFile) : Prop :=
  ∃ sm2 pem n, args.privateKey.sm2PrivateKey = some sm2 ∧
    K.pemWritePkcs8PrivateKey sm2 args.passphrase.val args.pemRnd = some pem ∧
    Mine P i .sm2PrivatePem n pem d

/-- The Dilithium2 file of call `i` is there and holds the container that the call wrote. -/
def DilithiumSaved (P : KeyFile → Prop) (i : ι) (args : SaveArgs PKey) (d : Dir ι KeyFile) :
    Prop :=
  ∃ fileData n, encryptDilithiumPayload K args.privateKey args.publicKey args.passphrase args.salt
      args.iv = some fileData ∧ Mine P i .dilithium2PrivateEnc n fileData d

variable {K} {args : SaveArgs PKey}

theorem Valid.of_false {p : Prog (sig KeyFile) Bool} {Q : Dir ι KeyFile → Prop}
    (h : Valid (saveSem P i) (Keeps P i) (Guar P i F) (fun r _ => r = false) p d) :
    Valid (saveSem P i) (Keeps P i) (Guar P i F) (fun r d => r = true → Q d) p d :=
  h.mono (fun _ _ => id) fun r _ hr hr' => by rw [hr] at hr'; cases hr'

theorem saveSm2PrivateKey_valid :
    Valid (saveSem P i) (Keeps P i) (Guar P i fun _ => True)
      (fun r d => r = true → Sm2Saved K P i args d)
      (saveSm2PrivateKey K args.privateKey.sm2PrivateKey args.passphrase args.pemRnd) d := by
  have hret : ∀ d, Valid (saveSem P i) (Keeps P i) (Guar P i fun _ => True)
      (fun r d => r = true → Sm2Saved K P i args d) (Prog.ret false) d :=
    fun d => Valid.ret fun _ _ h => by cases h
  simp only [saveSm2PrivateKey]
  split
  · exact hret d
  rename_i sm2 hsm2
  split
  swap
  · exact hret d
  simp only [createExcl_bind, fdopen_bind, Prog.pure_eq]
  rintro d1 h1 descriptor d2 ⟨hs, _⟩
  refine ⟨guar_of_step hs trivial id, ?_⟩
  obtain ⟨rfl, rfl⟩ | ⟨rfl, _, rfl⟩ := hs
  · exact hret _
  rintro d3 h3 opened d4 ⟨hs, _⟩
  have hm : Mine P i .sm2PrivatePem d1.next [] d3 := mine_create.keeps h3
  refine ⟨guar_of_step hs trivial id, ?_⟩
  cases hs
  cases opened with
  | false =>
    exact Valid.of_false (closeAndFail_valid hm (fun _ _ => id) fun _ => id)
  | true =>
    simp only [if_true]
    split
    · exact Valid.of_false (closeAndFail_valid hm (fun _ _ => id) fun _ => id)
    rename_i pem hpem
    refine Valid.bind (fun _ => .refl) ((writeAll_valid (fun _ _ => id) pem [] d3 hm).mono
      (fun _ _ => id) fun rest d5 hrest => ?_)
    cases rest with
    | some rest =>
      obtain ⟨data', hm'⟩ := hrest
      exact Valid.of_false (closeAndFail_valid hm' (fun _ _ => id) fun _ => id)
    | none =>
      exact (syncAndClose_valid hrest (fun _ _ => id) fun _ => id).mono (fun _ _ => id)
        fun r d6 h6 hr => ⟨sm2, pem, _, hsm2, hpem, h6 hr⟩

variable (K args) in
/-- While it works on the Dilithium2 file, a call keeps its SM2 file. -/
theorem saveDilithiumPrivateKey_valid {n : Nat} {pem : Bytes}
    (hsm2 : Mine P i .sm2PrivatePem n pem d) :
    Valid (saveSem P i) (Keeps P i) (Guar P i (Mine P i .sm2PrivatePem n pem))
      (fun r d => r = true → DilithiumSaved K P i args d)
      (saveDilithiumPrivateKey K args) d := by
  have hFu : ∀ d : Dir ι KeyFile, Mine P i .sm2PrivatePem n pem d →
      Mine P i .sm2PrivatePem n pem (d.unlink .dilithium2PrivateEnc) :=
    fun d h => h.unlink_ne (by decide)
  simp only [saveDilithiumPrivateKey]
  split
  · exact Valid.of_false (unlinkAndFail_valid (n := 0) (Or.inl rfl) hFu)
  rename_i fileData hfile
  simp only [createExcl_bind]
  rintro d1 h1 descriptor d2 ⟨hs, _⟩
  have hsm1 := hsm2.keeps h1
  refine ⟨guar_of_step hs trivial ?_, ?_⟩
  · obtain ⟨_, rfl⟩ | ⟨_, _, rfl⟩ := hs
    · exact id
    · exact fun h => h.create_ne (by decide)
  obtain ⟨rfl, rfl⟩ | ⟨rfl, _, rfl⟩ := hs
  · exact Valid.of_false (unlinkAndFail_valid (n := 0) (Or.inl rfl) hFu)
  -- the new file is not the SM2 file, whose number was in use
  have hne : n ≠ d1.next := by
    rintro rfl
    have := hsm1.1
    rw [d1.fresh (Nat.le_refl _)] at this; cases this
  have hFa : ∀ (d : Dir ι KeyFile) x, Mine P i .sm2PrivatePem n pem d →
      Mine P i .sm2PrivatePem n pem (d.append d1.next x) := fun d x h => h.append_ne hne x
  refine Valid.bind (fun _ => .refl) ((writeAll_valid hFa fileData [] _ mine_create).mono
    (fun _ _ => id) fun rest d5 hrest => ?_)
  cases rest with
  | some rest =>
    obtain ⟨data', hm'⟩ := hrest
    exact Valid.of_false (closeAndFail_valid hm' hFa hFu)
  | none =>
    exact (syncAndClose_valid hrest hFa hFu).mono (fun _ _ => id)
      fun r d6 h6 hr => ⟨fileData, _, hfile, h6 hr⟩

variable (K args) in
theorem saveKeyFiles_valid :
    Valid (saveSem P i) (Keeps P i) (Guar P i fun _ => True)
      (fun r d => r = true → Sm2Saved K P i args d ∧ DilithiumSaved K P i args d)
      (saveKeyFiles K args) d := by
  simp only [saveKeyFiles, unlink_bind, Prog.pure_eq]
  refine Valid.bind (fun _ => .refl) (saveSm2PrivateKey_valid.mono (fun _ _ => id)
    fun sm2Saved d1 h1 => ?_)
  cases sm2Saved with
  | false => exact Valid.of_false (unlinkAndFail_valid (n := 0) (Or.inl rfl) fun _ => id)
  | true =>
    obtain ⟨sm2, pem, n, hsm2, hpem, hm⟩ := h1 rfl
    simp only [if_true]
    have hdil := (saveDilithiumPrivateKey_valid K args hm).frame
      (fun _ _ hk h => h.keeps hk) (fun _ _ hg => hg.frame) hm
    refine Valid.bind (fun _ => .refl) (hdil.mono
      (fun _ _ hg => ⟨hg.keeps, hg.kind, fun _ => trivial⟩) fun dilithiumSaved d2 h2 => ?_)
    cases dilithiumSaved with
    | true =>
      obtain ⟨fileData, m, hfile, hm'⟩ := h2.1 rfl
      exact Valid.ret fun d3 h3 _ =>
        ⟨⟨sm2, pem, n, hsm2, hpem, h2.2.keeps h3⟩, ⟨fileData, m, hfile, hm'.keeps h3⟩⟩
    | false =>
      refine Valid.of_false ?_
      exact unlink_valid (Or.inr ⟨_, h2.2⟩) (fun _ => id) fun d3 =>
        unlinkAndFail_valid (n := 0) (Or.inl rfl) fun _ => id

theorem ensurePrivateDirectory_valid :
    Valid (saveSem P i) (Keeps P i) (Guar P i fun _ => True)
      (fun r d => r = true → d.kind = .privateDirectory) ensurePrivateDirectory d := by
  simp only [ensurePrivateDirectory, lstatDir_bind, mkdir_bind, Prog.pure_eq]
  -- the last `lstat` decides
  have hlast : ∀ (kind : DirKind) (d d' : Dir ι KeyFile), step i .lstatDir d kind d' →
      Valid (saveSem P i) (Keeps P i) (Guar P i fun _ => True)
        (fun r d => r = true → d.kind = .privateDirectory)
        (Prog.ret (decide (kind = .privateDirectory))) d' := by
    rintro kind d d' ⟨rfl, rfl⟩
    exact Valid.ret fun _ hk hr => hk.kind (of_decide_eq_true hr)
  rintro d1 _ kind d2 ⟨hs, _⟩
  refine ⟨guar_of_step hs trivial id, ?_⟩
  dsimp only
  split
  · rintro d3 _ made d4 ⟨hs, _⟩
    refine ⟨guar_of_step hs trivial id, ?_⟩
    dsimp only
    split
    · rintro d5 _ kind' d6 ⟨hs, _⟩
      exact ⟨guar_of_step hs trivial id, hlast _ _ _ hs⟩
    · exact Valid.ret fun _ _ hr => by cases hr
  · exact hlast _ _ _ hs

variable (K) in
/-- What a call that returned 1 leaves behind. -/
structure KeysSaved (P : KeyFile → Prop) (i : ι) (args : SaveArgs PKey) (d : Dir ι KeyFile) :
    Prop where
  directory : d.kind = .privateDirectory
  sm2 : Sm2Saved K P i args d
  dilithium : DilithiumSaved K P i args d

variable (K args) in
/-- The triple of a call: when it returns 1, both its files are there and complete, as long as the
other calls keep to theirs. -/
theorem hybridKeyStoreSave_valid :
    Valid (saveSem P i) (Keeps P i) (Guar P i fun _ => True)
      (fun r d => r = true → KeysSaved K P i args d) (hybridKeyStoreSave K args) d := by
  have hret : ∀ d, Valid (saveSem P i) (Keeps P i) (Guar P i fun _ => True)
      (fun r d => r = true → KeysSaved K P i args d) (Prog.ret false) d :=
    fun d => Valid.ret fun _ _ h => by cases h
  simp only [hybridKeyStoreSave, hybridKeyStoreStatus, access_bind, Prog.pure_eq]
  split
  swap
  · exact hret d
  refine Valid.bind (fun _ => .refl) (ensurePrivateDirectory_valid.mono (fun _ _ => id)
    fun ok d1 hok => ?_)
  cases ok with
  | false => exact hret d1
  | true =>
    simp only [if_true]
    rintro d2 h2 sm2Exists d3 ⟨hs, _⟩
    refine ⟨guar_of_step hs trivial id, ?_⟩
    obtain ⟨_, rfl⟩ := hs
    rintro d4 h4 dilithiumExists d5 ⟨hs, _⟩
    refine ⟨guar_of_step hs trivial id, ?_⟩
    obtain ⟨_, rfl⟩ := hs
    have hfiles := (saveKeyFiles_valid K args (P := P) (i := i)
      (d := d5)).frame (fun _ _ hk h => hk.kind h) (fun _ _ hg => hg.kind)
      (h4.kind (h2.kind (hok rfl)))
    have hsave : Valid (saveSem P i) (Keeps P i) (Guar P i fun _ => True)
        (fun r d => r = true → KeysSaved K P i args d) (saveKeyFiles K args) d5 :=
      hfiles.mono (fun _ _ => id) fun r d h hr => ⟨h.2, (h.1 hr).1, (h.1 hr).2⟩
    cases sm2Exists with
    | false =>
      cases dilithiumExists with
      | false => exact hsave
      | true => exact hret d5
    | true => cases dilithiumExists <;> exact hret d5

end

/-! ## Any number of saves -/

section

variable [DecidableEq ι] (K : StoreCrypto PKey)

/-- The calls with the given arguments on directory `d`, none of them started. -/
def savesConfig (d : Dir ι KeyFile) (args : ι → SaveArgs PKey) :
    Config (sig KeyFile) ι (Dir ι KeyFile) Bool :=
  ⟨d, fun i => hybridKeyStoreSave K (args i)⟩

variable {K}

omit [DecidableEq ι] in
@[simp] theorem savesConfig_threads {d : Dir ι KeyFile} {args : ι → SaveArgs PKey} (i : ι) :
    (savesConfig K d args).threads i = hybridKeyStoreSave K (args i) := rfl

/-- In every interleaving, a call that has returned 1 has its protected files in the directory. -/
theorem saves_returned {P : KeyFile → Prop} {d : Dir ι KeyFile} {args : ι → SaveArgs PKey}
    {c : Config (sig KeyFile) ι (Dir ι KeyFile) Bool}
    (hreach : Reachable (saveSem P) (savesConfig K d args) c) {i : ι}
    (hret : c.threads i = .ret true) : KeysSaved K P i (args i) c.state :=
  returned_valid (fun _ _ hij _ _ hg => hg.keeps _ (Ne.symm hij)) (fun _ _ => .refl)
    (fun _ _ _ _ h h' => h.trans h') hreach (fun _ => hybridKeyStoreSave_valid K _) hret rfl

/-- No key is lost: at most one call has returned 1, and both files of one that has are there and
hold exactly what it wrote. -/
structure NoLostKey (K : StoreCrypto PKey) (args : ι → SaveArgs PKey)
    (c : Config (sig KeyFile) ι (Dir ι KeyFile) Bool) : Prop where
  one : ∀ i j, c.threads i = .ret true → c.threads j = .ret true → i = j
  files : ∀ i, c.threads i = .ret true → ∃ sm2 pem fileData,
    (args i).privateKey.sm2PrivateKey = some sm2 ∧
    K.pemWritePkcs8PrivateKey sm2 (args i).passphrase.val (args i).pemRnd = some pem ∧
    encryptDilithiumPayload K (args i).privateKey (args i).publicKey (args i).passphrase
      (args i).salt (args i).iv = some fileData ∧
    c.state.fileAt .sm2PrivatePem = some ⟨pem, true, some i⟩ ∧
    c.state.fileAt .dilithium2PrivateEnc = some ⟨fileData, true, some i⟩

omit [DecidableEq ι] in
theorem Mine.fileAt {P : KeyFile → Prop} {i : ι} {name : KeyFile} {n : Nat} {data : Bytes}
    {d : Dir ι KeyFile} (h : Mine P i name n data d) (hP : P name) :
    d.fileAt name = some ⟨data, true, some i⟩ :=
  (Dir.fileAt_of_entry (h.2 hP)).trans h.1

/-- The SM2 file tells the calls that returned 1 apart. -/
theorem saves_one {P : KeyFile → Prop} (hP : P .sm2PrivatePem) {d : Dir ι KeyFile}
    {args : ι → SaveArgs PKey} {c : Config (sig KeyFile) ι (Dir ι KeyFile) Bool}
    (hreach : Reachable (saveSem P) (savesConfig K d args) c) {i j : ι}
    (hi : c.threads i = .ret true) (hj : c.threads j = .ret true) : i = j := by
  obtain ⟨_, _, _, _, _, hmi⟩ := (saves_returned hreach hi).sm2
  obtain ⟨_, _, _, _, _, hmj⟩ := (saves_returned hreach hj).sm2
  have h := (hmi.fileAt hP).symm.trans (hmj.fileAt hP)
  cases h; rfl

/-- **Concurrent saves.** In every interleaving of any number of calls, with any failures, in which
no call unlinks `dilithium2_private.enc` while it stands for a file another call created, no key
is lost. -/
theorem concurrent_saves {PKey ι : Type} [DecidableEq ι] (K : StoreCrypto PKey) (d : Dir ι KeyFile)
    (args : ι → SaveArgs PKey) {c : Config (sig KeyFile) ι (Dir ι KeyFile) Bool}
    (hreach : Reachable (saveSem fun _ => True) (savesConfig K d args) c) : NoLostKey K args c := by
  refine ⟨fun i j => saves_one trivial hreach, fun i hi => ?_⟩
  obtain ⟨_, ⟨sm2, pem, n, hs, hp, hm⟩, ⟨fileData, m, hf, hm'⟩⟩ := saves_returned hreach hi
  exact ⟨sm2, pem, fileData, hs, hp, hf, hm.fileAt trivial, hm'.fileAt trivial⟩

omit [DecidableEq ι] in
/-- A single call has nobody to spare. -/
theorem saveSem_unit (P : KeyFile → Prop) : saveSem P = step (ι := Unit) := by
  funext i op d r d'
  exact propext ⟨And.left, fun hs => ⟨hs, fun _ _ _ _ _ _ _ _ => rfl⟩⟩

omit [DecidableEq ι] in
/-- A call that meets no file of another call keeps to the condition. -/
theorem run_saveSem {P : KeyFile → Prop} {i : ι} {α : Type} {p : Prog (sig KeyFile) α}
    {d d' : Dir ι KeyFile} {a : α} (h : Alone i d) (hr : Run (step i) p d a d') :
    Run (saveSem P i) p d a d' := by
  induction hr with
  | ret => exact .ret
  | call hs _ ih => exact .call ⟨hs, fun _ _ => h.spares _⟩ (ih (h.step hs))

/-- On its own and without a failure, a call whose names are free saves both files. -/
theorem toy_saves {c : Config (sig KeyFile) ι (Dir ι KeyFile) Bool} {i : ι} {x : UInt8}
    (P : KeyFile → Prop)
    (hc : c.threads i = saveKeyFiles Toy.storeCrypto (Toy.saveArgs x))
    (hnone : ∀ name, c.state.entry name = none) (halone : Alone i c.state) :
    ∃ c', Reachable (saveSem P) c c' ∧ c'.threads = Function.update c.threads i (.ret true) := by
  obtain ⟨file, hfile⟩ := Toy.encryptDilithiumPayload_eq (Toy.saveArgs x) Toy.passphrase_valid
    rfl rfl
  obtain ⟨d', hrun⟩ := saveKeyFiles_run (i := i) (K := Toy.storeCrypto) (Toy.saveArgs x)
    (d := c.state) rfl Toy.passphrase_valid rfl hfile hnone
  rw [← hc] at hrun
  exact ⟨_, reachable_of_run_ret (run_saveSem halone (run_of_noFailure hrun)), rfl⟩

/-- In an empty directory a call gets past its checks. -/
theorem toy_reaches {c : Config (sig KeyFile) ι (Dir ι KeyFile) Bool} {i : ι} {x : UInt8}
    (P : KeyFile → Prop)
    (hc : c.threads i = hybridKeyStoreSave Toy.storeCrypto (Toy.saveArgs x))
    (hd : c.state = .empty .privateDirectory) :
    ∃ c', Reachable (saveSem P) c c' ∧ c'.state = .empty .privateDirectory ∧
      c'.threads = Function.update c.threads i (saveKeyFiles Toy.storeCrypto (Toy.saveArgs x)) := by
  have halone : Alone i c.state := by rw [hd]; exact alone_empty
  refine ⟨_, reachable_saveKeyFiles hc Toy.passphrase_valid
    (Toy.keypairSelfTest_pair (Toy.keyPair x) _) ?_ ?_, hd, rfl⟩
  · exact run_saveSem halone (run_of_noFailure (ensurePrivateDirectory_run (by rw [hd]; rfl)))
  · exact run_saveSem halone
      (run_of_noFailure (hybridKeyStoreStatus_run (by rw [hd]; exact fun _ => rfl)))

/-- Two calls with different keys are past their checks in an empty directory. -/
theorem toy_both_reach (P : KeyFile → Prop) :
    ∃ c, Reachable (saveSem P) (savesConfig Toy.storeCrypto (.empty .privateDirectory)
        fun b : Bool => Toy.saveArgs (if b then 1 else 2)) c ∧
      c.state = .empty .privateDirectory ∧
      ∀ b, c.threads b = saveKeyFiles Toy.storeCrypto (Toy.saveArgs (if b then 1 else 2)) := by
  obtain ⟨c1, h1, hd1, ht1⟩ := toy_reaches P (i := true) (c := savesConfig Toy.storeCrypto
    (.empty .privateDirectory) fun b : Bool => Toy.saveArgs (if b then 1 else 2))
    (savesConfig_threads true) rfl
  obtain ⟨c2, h2, hd2, ht2⟩ := toy_reaches P (c := c1) (i := false) (x := 2) (by simp [ht1]) hd1
  refine ⟨c2, h1.trans h2, hd2, fun b => ?_⟩
  cases b with
  | true => simp [ht1, ht2]
  | false => simp [ht2]

/-- The condition is met by two calls that are past their checks together: the `open` of one fails,
its clean-up unlinks a name that stands for nothing, and the other one saves its key. -/
theorem concurrent_saves_two : ∃ c : Config (sig KeyFile) Bool (Dir Bool KeyFile) Bool,
    Reachable (saveSem fun _ => True) (savesConfig Toy.storeCrypto (.empty .privateDirectory)
      fun b : Bool => Toy.saveArgs (if b then 1 else 2)) c ∧
    c.threads true = .ret true ∧ c.threads false = .ret false ∧
    NoLostKey Toy.storeCrypto (fun b : Bool => Toy.saveArgs (if b then 1 else 2)) c := by
  obtain ⟨c1, h1, hd1, ht1⟩ := toy_both_reach fun _ => True
  have hfails := saveKeyFiles_taken (i := false) (K := Toy.storeCrypto) (Toy.saveArgs 2) c1.state
    rfl Toy.passphrase_valid
  rw [show saveKeyFiles Toy.storeCrypto (Toy.saveArgs 2) = c1.threads false from (ht1 false).symm]
    at hfails
  have halone : ∀ i, Alone i c1.state := by rw [hd1]; exact fun _ => alone_empty
  have h2 := reachable_of_run_ret (run_saveSem (P := fun _ => True) (halone false) hfails)
  obtain ⟨c3, h3, ht3⟩ := toy_saves (fun _ => True) (i := true) (x := 1)
    (c := ⟨c1.state.unlink .dilithium2PrivateEnc, Function.update c1.threads false (.ret false)⟩)
    (by simp [ht1]) (by intro name; cases name <;> simp [hd1, Dir.empty, Dir.unlink]) (halone true)
  have hreach := h1.trans (h2.trans h3)
  exact ⟨c3, hreach, by simp [ht3], by simp [ht3],
    concurrent_saves Toy.storeCrypto (.empty .privateDirectory) _ hreach⟩

/-- Two calls see an empty directory; one saves its key and returns 1; the other finds the SM2 name
taken and removes the first one's Dilithium2 file. -/
theorem save_loses_key :
    ¬ ∀ c, Reachable step (savesConfig Toy.storeCrypto (.empty .privateDirectory)
      fun b : Bool => Toy.saveArgs (if b then 1 else 2)) c →
        NoLostKey Toy.storeCrypto (fun b : Bool => Toy.saveArgs (if b then 1 else 2)) c := by
  intro hclaim
  obtain ⟨c1, h1, hd1, ht1⟩ := toy_both_reach fun _ => True
  obtain ⟨c2, h2, ht2⟩ := toy_saves (fun _ => True) (c := c1) (i := true) (x := 1)
    (by simp [ht1]) (by rw [hd1]; exact fun _ => rfl)
    (by rw [hd1]; exact alone_empty)
  have htaken := saveKeyFiles_taken (i := false) (K := Toy.storeCrypto) (Toy.saveArgs 2) c2.state
    rfl Toy.passphrase_valid
  have hfalse : c2.threads false = saveKeyFiles Toy.storeCrypto (Toy.saveArgs 2) := by
    simp [ht1, ht2]
  rw [← hfalse] at htaken
  have h12 : Reachable step _ c2 := Reachable.mono (fun _ _ _ _ _ hs => hs.1) (h1.trans h2)
  have h3 := h12.trans (reachable_of_run_ret htaken)
  obtain ⟨_, _, _, _, _, _, _, hfile⟩ := (hclaim _ h3).files true (by simp [ht2])
  simp [Dir.fileAt] at hfile

/-- Without any condition, at most one call returns 1 and its SM2 file stays. -/
theorem concurrent_saves_sm2 {d : Dir ι KeyFile} {args : ι → SaveArgs PKey}
    {c : Config (sig KeyFile) ι (Dir ι KeyFile) Bool}
    (hreach : Reachable step (savesConfig K d args) c) :
    (∀ i j, c.threads i = .ret true → c.threads j = .ret true → i = j) ∧
    ∀ i, c.threads i = .ret true →
      ∃ pem, c.state.fileAt .sm2PrivatePem = some ⟨pem, true, some i⟩ := by
  have hreach' : Reachable (saveSem (· = .sm2PrivatePem)) (savesConfig K d args) c :=
    hreach.mono fun _ _ _ _ _ hs => ⟨hs, fun _ h => by cases h⟩
  refine ⟨fun i j => saves_one (P := (· = .sm2PrivatePem)) rfl hreach', fun i hi => ?_⟩
  obtain ⟨_, pem, n, _, _, hm⟩ := (saves_returned hreach' hi).sm2
  exact ⟨pem, hm.fileAt rfl⟩

end

end HybridPqc
