import HybridPqc.Fs.Change
import HybridPqc.Store.Concurrent

/-!
# Store.Rollback

What one `hybrid_key_store_save` alone leaves in a private directory, whatever fails on the way.

Each of the two savers unlinks the file it made when it fails after making it
(`saveSm2PrivateKey_run`). The Dilithium2 name is unlinked on every failure, also when the call
never made a file of that name. `access` has answered that the name does not exist, which is also
its answer about a symbolic link to nowhere, and such a link is removed (`save_rolls_back_iff`).
-/

namespace HybridPqc

open Conc Fs

variable {PKey ι : Type} {K : StoreCrypto PKey} {i : ι}

/-! ## The pieces of a save -/

section

variable {d d1 d' : Dir ι KeyFile} {r : Bool} {name : KeyFile} {n : Nat}

/-- The write loop only writes; by induction on what is left. -/
theorem writeAll_created {data : Bytes} {rest : Option Bytes}
    (h : Run (step i) (writeAll n data) d1 rest d') (hc : Created name n d d1) :
    Created name n d d' := by
  induction data using writeAll.induct generalizing d1 with
  | case1 =>
    rw [writeAll_nil] at h
    obtain ⟨_, rfl⟩ := run_ret.mp h
    exact hc
  | case2 data hne ih =>
    rw [writeAll_step hne] at h
    rcases run_write h with h | ⟨k, x, hk, h⟩
    · obtain ⟨_, rfl⟩ := run_ret.mp h
      exact hc
    · rw [Option.elim_some, if_pos hk] at h
      exact ih k hk h (hc.append x)

theorem unlinkAndFail_run (h : Run (step i) (unlinkAndFail name) d r d') :
    r = false ∧ d' = d.unlink name := by
  simp only [unlinkAndFail, unlink_bind, Prog.pure_eq, run_unlink, run_ret] at h
  exact h

theorem closeAndFail_run {buffered : Bytes}
    (h : Run (step i) (closeAndFail n buffered name) d1 r d') (hc : Created name n d d1) :
    r = false ∧ Unchanged d d' := by
  simp only [closeAndFail, close_bind] at h
  obtain ⟨_, x, h⟩ := run_close h
  obtain ⟨rfl, rfl⟩ := unlinkAndFail_run h
  exact ⟨rfl, (hc.append x).unlink⟩

/-- A file that was to be saved is there, or everything is as before. -/
def SavedOrNot (name : KeyFile) (d : Dir ι KeyFile) (r : Bool) (d' : Dir ι KeyFile) : Prop :=
  (r = true ∧ ∃ n, Created name n d d') ∨ (r = false ∧ Unchanged d d')

theorem syncAndClose_saved (h : Run (step i) (syncAndClose n name) d1 r d')
    (hc : Created name n d d1) : SavedOrNot name d r d' := by
  simp only [syncAndClose, fsync_bind, run_fsync] at h
  obtain ⟨synced, h⟩ := h
  cases synced with
  | false => exact Or.inr (closeAndFail_run h hc)
  | true =>
    simp only [if_true, close_bind, Prog.pure_eq] at h
    obtain ⟨closed, x, h⟩ := run_close h
    cases closed with
    | false =>
      obtain ⟨rfl, rfl⟩ := unlinkAndFail_run h
      exact Or.inr ⟨rfl, (hc.append x).unlink⟩
    | true =>
      obtain ⟨rfl, rfl⟩ := run_ret.mp h
      exact Or.inl ⟨rfl, n, hc.append x⟩

theorem saveSm2PrivateKey_run {key : Option PKey} {passphrase : CString} {rnd : Bytes}
    (h : Run (step i) (saveSm2PrivateKey K key passphrase rnd) d r d') :
    SavedOrNot .sm2PrivatePem d r d' := by
  have hret : Run (step i) (.ret false) d r d' → SavedOrNot .sm2PrivatePem d r d' := by
    intro h
    obtain ⟨rfl, rfl⟩ := run_ret.mp h
    exact Or.inr ⟨rfl, .refl _⟩
  unfold saveSm2PrivateKey at h
  split at h
  · exact hret h
  split at h
  swap
  · exact hret h
  simp only [createExcl_bind, fdopen_bind, Prog.pure_eq, run_createExcl] at h
  rcases h with h | ⟨hfree, h⟩
  · exact hret h
  obtain ⟨opened, h⟩ := run_fdopen.mp h
  have hc : Created .sm2PrivatePem d.next d (d.create i .sm2PrivatePem) := created_create hfree
  cases opened with
  | false => exact Or.inr (closeAndFail_run h hc)
  | true =>
    simp only [if_true] at h
    split at h
    · exact Or.inr (closeAndFail_run h hc)
    · obtain ⟨rest, d1, hw, h⟩ := run_bind.mp h
      have hc1 := writeAll_created hw hc
      cases rest with
      | some rest => exact Or.inr (closeAndFail_run h hc1)
      | none => exact syncAndClose_saved h hc1

/-- On failure the Dilithium2 name is free, whoever it belonged to. -/
theorem saveDilithiumPrivateKey_run {args : SaveArgs PKey}
    (h : Run (step i) (saveDilithiumPrivateKey K args) d r d') :
    SavedOrNot .dilithium2PrivateEnc d r d' ∨
      (r = false ∧ d' = d.unlink .dilithium2PrivateEnc) := by
  unfold saveDilithiumPrivateKey at h
  split at h
  · exact Or.inr (unlinkAndFail_run h)
  · simp only [createExcl_bind, run_createExcl] at h
    rcases h with h | ⟨hfree, h⟩
    · exact Or.inr (unlinkAndFail_run h)
    · left
      obtain ⟨rest, d1, hw, h⟩ := run_bind.mp h
      have hc1 := writeAll_created hw (created_create hfree)
      cases rest with
      | some rest => exact Or.inr (closeAndFail_run h hc1)
      | none => exact syncAndClose_saved h hc1

end

/-! ## A whole save -/

/-- Both key files are new, under names that were free. -/
structure BothSaved (d d' : Dir ι KeyFile) : Prop extends Extends d d' where
  free : ∀ name, d.entry name = none
  entry : ∀ name, ∃ n, d'.entry name = some (.file n) ∧ d.file n = none

section

variable {d d' : Dir ι KeyFile} {r : Bool} {args : SaveArgs PKey}

theorem BothSaved.files (h : BothSaved d d') (name : KeyFile) :
    ∃ n, d'.entry name = some (.file n) := by
  obtain ⟨n, hn, _⟩ := h.entry name
  exact ⟨n, hn⟩

theorem bothSaved_of_created {d1 : Dir ι KeyFile} {n m : Nat}
    (hs : Created .sm2PrivatePem n d d1) (hd : Created .dilithium2PrivateEnc m d1 d') :
    BothSaved d d' := by
  have hm : d.file m = none := by
    cases hf : d.file m with
    | none => rfl
    | some f =>
      have := hs.file hf
      rw [hd.new] at this
      cases this
  refine ⟨hs.toExtends.trans hd.toExtends, ?_, ?_⟩
  · intro name
    cases name with
    | sm2PrivatePem => exact hs.free
    | dilithium2PrivateEnc => rw [← hs.others (by decide), hd.free]
  · intro name
    cases name with
    | sm2PrivatePem => exact ⟨n, (hd.others (by decide)).trans hs.entry, hs.new⟩
    | dilithium2PrivateEnc => exact ⟨m, hd.entry, hm⟩

/-- The two files are saved, or the directory is as before but for the Dilithium2 name. -/
theorem saveKeyFiles_outcome (h : Run (step i) (saveKeyFiles K args) d r d') :
    (r = true ∧ BothSaved d d') ∨
      (r = false ∧ Extends d d' ∧ d'.entry = (d.unlink .dilithium2PrivateEnc).entry) := by
  obtain ⟨sm2Saved, d1, hs, h⟩ := run_bind.mp h
  rcases saveSm2PrivateKey_run hs with ⟨rfl, n, hc⟩ | ⟨rfl, hu⟩
  · rw [if_pos rfl] at h
    obtain ⟨dilithiumSaved, d2, hd, h⟩ := run_bind.mp h
    cases dilithiumSaved with
    | true =>
      obtain ⟨rfl, rfl⟩ := run_ret.mp h
      rcases saveDilithiumPrivateKey_run hd with (⟨_, m, hc'⟩ | ⟨hr, _⟩) | ⟨hr, _⟩
      · exact Or.inl ⟨rfl, bothSaved_of_created hc hc'⟩
      · cases hr
      · cases hr
    | false =>
      -- both names are unlinked, and the SM2 name was free before
      have hd2 : Extends d1 d2 := by
        rcases saveDilithiumPrivateKey_run hd with (⟨hr, _⟩ | ⟨_, hu⟩) | ⟨_, rfl⟩
        · cases hr
        · exact hu.toExtends
        · exact (Extends.refl d1).unlink _
      simp only [Bool.false_eq_true, if_false, unlink_bind, run_unlink] at h
      obtain ⟨rfl, rfl⟩ := unlinkAndFail_run h
      refine Or.inr ⟨rfl, ((hc.toExtends.trans hd2).unlink _).unlink _, ?_⟩
      funext name
      cases name with
      | sm2PrivatePem =>
        rw [Dir.unlink_entry_ne (by decide), Dir.unlink_entry_self,
          Dir.unlink_entry_ne (by decide), hc.free]
      | dilithium2PrivateEnc => rw [Dir.unlink_entry_self, Dir.unlink_entry_self]
  · simp only [Bool.false_eq_true, if_false] at h
    obtain ⟨rfl, rfl⟩ := unlinkAndFail_run h
    refine Or.inr ⟨rfl, hu.toExtends.unlink _, ?_⟩
    simp only [Dir.unlink, hu.entry]

/-- The answer of `hybrid_key_store_status`. -/
def statusOf (d : Dir ι KeyFile) : HybridKeyStoreStatus :=
  match d.accessible .sm2PrivatePem, d.accessible .dilithium2PrivateEnc with
  | false, false => .missing
  | true, true => .complete
  | _, _ => .incomplete

theorem statusOf_missing : statusOf d = .missing ↔ ∀ name, d.accessible name = false := by
  unfold statusOf
  constructor
  · intro h name
    cases hs : d.accessible .sm2PrivatePem <;> cases hd : d.accessible .dilithium2PrivateEnc <;>
      rw [hs, hd] at h <;> cases h
    cases name with
    | sm2PrivatePem => exact hs
    | dilithium2PrivateEnc => exact hd
  · intro h
    rw [h, h]

theorem run_hybridKeyStoreStatus {α : Type} {a : α}
    {f : HybridKeyStoreStatus → Prog (sig KeyFile) α} :
    Run (step i) (hybridKeyStoreStatus >>= f) d a d' ↔ Run (step i) (f (statusOf d)) d a d' := by
  simp only [hybridKeyStoreStatus, access_bind, Prog.pure_eq, Prog.call_bind, Prog.ret_bind,
    run_access]
  exact Iff.rfl

theorem run_ensurePrivateDirectory {α : Type} {a : α} {f : Bool → Prog (sig KeyFile) α}
    (hkind : d.kind = .privateDirectory) :
    Run (step i) (ensurePrivateDirectory >>= f) d a d' ↔ Run (step i) (f true) d a d' := by
  simp only [ensurePrivateDirectory, lstatDir_bind, Prog.call_bind, run_lstatDir, hkind,
    reduceCtorEq, if_false, Prog.pure_eq, Prog.ret_bind, decide_true]

/-- The checks before the first file is made. -/
def SaveStarts (K : StoreCrypto PKey) (args : SaveArgs PKey) (d : Dir ι KeyFile) : Prop :=
  passphraseValid args.passphrase = true ∧
    keypairSelfTest K args.privateKey args.publicKey args.selfTestRnd = true ∧
    ∀ name, d.accessible name = false

/-- In a private directory a save that does not start changes nothing. -/
theorem hybridKeyStoreSave_outcome (hkind : d.kind = .privateDirectory)
    (h : Run (step i) (hybridKeyStoreSave K args) d r d') :
    (SaveStarts K args d ∧ Run (step i) (saveKeyFiles K args) d r d') ∨
      (¬ SaveStarts K args d ∧ r = false ∧ d' = d) := by
  unfold hybridKeyStoreSave at h
  split at h
  swap
  · rename_i hcheck
    refine Or.inr ⟨?_, run_ret.mp h⟩
    rintro ⟨hpass, htest, _⟩
    rw [hpass, htest] at hcheck
    exact hcheck rfl
  rename_i hcheck
  rw [Bool.and_eq_true] at hcheck
  rw [run_ensurePrivateDirectory hkind, if_pos rfl, run_hybridKeyStoreStatus] at h
  split at h
  · rename_i hmissing
    exact Or.inl ⟨⟨hcheck.1, hcheck.2, statusOf_missing.mp hmissing⟩, h⟩
  · rename_i hmissing
    exact Or.inr ⟨fun hs => hmissing (statusOf_missing.mpr hs.2.2), run_ret.mp h⟩

/-- A save that returns 0 leaves the directory as it was; one that returns 1 has made both files,
under names that were free. -/
structure RollsBack (d : Dir ι KeyFile) (r : Bool) (d' : Dir ι KeyFile) : Prop where
  failed : r = false → Unchanged d d'
  saved : r = true → BothSaved d d'

/-- The save starts, and the Dilithium2 name is a symbolic link to nowhere. -/
def RemovesLink (K : StoreCrypto PKey) (args : SaveArgs PKey) (d : Dir ι KeyFile) : Prop :=
  SaveStarts K args d ∧ d.entry .dilithium2PrivateEnc = some (.symlink false)

/-- A name that does not resolve is free or a link to nowhere. -/
theorem entry_of_not_accessible {name : KeyFile} (h : d.accessible name = false) :
    d.entry name = none ∨ d.entry name = some (.symlink false) := by
  simp only [Dir.accessible] at h
  split at h
  · exact Or.inl ‹_›
  · cases h
  · rename_i hlink
    exact Or.inr (hlink.trans (by rw [h]))

end

/-- **A failed save leaves the directory as it found it**, wherever it fails, exactly when it does
not start in a directory in which the Dilithium2 name is a symbolic link to nowhere. -/
theorem save_rolls_back_iff {PKey ι : Type} (K : StoreCrypto PKey) (i : ι) (args : SaveArgs PKey)
    {d d' : Dir ι KeyFile} {r : Bool} (hkind : d.kind = .privateDirectory)
    (h : Run (step i) (hybridKeyStoreSave K args) d r d') :
    RollsBack d r d' ↔ ¬ RemovesLink K args d := by
  rcases hybridKeyStoreSave_outcome hkind h with ⟨hstarts, hrun⟩ | ⟨hno, rfl, rfl⟩
  · rcases saveKeyFiles_outcome hrun with ⟨rfl, hboth⟩ | ⟨rfl, hext, hentry⟩
    · refine ⟨?_, fun _ => ⟨nofun, fun _ => hboth⟩⟩
      rintro _ ⟨_, hlink⟩
      rw [hboth.free] at hlink
      cases hlink
    · constructor
      · rintro hback ⟨_, hlink⟩
        have := (hback.failed rfl).entry
        rw [hentry] at this
        have := congrFun this .dilithium2PrivateEnc
        rw [Dir.unlink_entry_self, hlink] at this
        cases this
      · intro hlink
        have hfree : d.entry .dilithium2PrivateEnc = none := by
          rcases entry_of_not_accessible (hstarts.2.2 .dilithium2PrivateEnc) with hfree | hl
          · exact hfree
          · exact (hlink ⟨hstarts, hl⟩).elim
        exact ⟨fun _ => ⟨hext, hentry.trans (unlink_entry_of_free hfree)⟩, nofun⟩
  · exact ⟨fun _ hlink => hno hlink.1, fun _ => ⟨fun _ => .refl d', nofun⟩⟩

/-- The condition is met by a save into an empty directory. -/
theorem save_rolls_back_toy : ∃ d',
    Run (step ()) (hybridKeyStoreSave Toy.storeCrypto (Toy.saveArgs 1)) (.empty .privateDirectory)
      true d' ∧ RollsBack (.empty .privateDirectory : Dir Unit KeyFile) true d' := by
  obtain ⟨d', hrun⟩ := Toy.saveArgs_run 1
  refine ⟨d', hrun, (save_rolls_back_iff Toy.storeCrypto () (Toy.saveArgs 1) rfl hrun).mpr ?_⟩
  rintro ⟨_, hlink⟩
  cases hlink

namespace Toy

/-- A private directory in which both key names are links to nowhere. -/
def danglingLinks : Dir Unit KeyFile where
  kind := .privateDirectory
  entry _ := some (.symlink false)
  file _ := none
  next := 0
  fresh _ := rfl
  linked h := by cases h

end Toy

/-- The SM2 name cannot be created, and the Dilithium2 link is gone. -/
theorem save_removes_link :
    ¬ ∀ (args : SaveArgs Bytes) (d d' : Dir Unit KeyFile) (r : Bool), d.kind = .privateDirectory →
      Run (step ()) (hybridKeyStoreSave Toy.storeCrypto args) d r d' → RollsBack d r d' := by
  intro hclaim
  have htest : keypairSelfTest Toy.storeCrypto (Toy.saveArgs 1).privateKey
      (Toy.saveArgs 1).publicKey (Toy.saveArgs 1).selfTestRnd = true :=
    Toy.keypairSelfTest_pair (Toy.keyPair 1) []
  have htaken : Run (step ()) (saveKeyFiles Toy.storeCrypto (Toy.saveArgs 1)) Toy.danglingLinks
      false (Toy.danglingLinks.unlink .dilithium2PrivateEnc) :=
    saveKeyFiles_taken _ _ rfl Toy.passphrase_valid
  have hrun := hybridKeyStoreSave_run (fun _ _ _ _ h => h.1) Toy.passphrase_valid htest rfl
    (fun _ => rfl) htaken
  have hback := hclaim _ _ _ _ rfl hrun
  have := congrFun (hback.failed rfl).entry .dilithium2PrivateEnc
  rw [Dir.unlink_entry_self] at this
  cases this

end HybridPqc
