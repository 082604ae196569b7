import HybridPqc.Fs.NoFailure
import HybridPqc.Store.Rollback

/-!
# Store.NoFailure

Saves in which no system call and no cryptographic operation fails. What is left to refuse is the
directory: one that is not private, and names that are taken.
-/

namespace HybridPqc

open Conc Fs

variable {PKey ι : Type} {K : StoreCrypto PKey} {i : ι} {d d' : Dir ι KeyFile} {r : Bool}
  {args : SaveArgs PKey}

/-- A directory that does not exist has no names in it. -/
def OnDisk (d : Dir ι KeyFile) : Prop := d.kind = .missing → ∀ name, d.entry name = none

/-- The self-test passes and both files are encrypted. -/
structure CryptoSucceeds (K : StoreCrypto PKey) (args : SaveArgs PKey) : Prop where
  selfTest : keypairSelfTest K args.privateKey args.publicKey args.selfTestRnd = true
  pem : ∃ sm2 pem, args.privateKey.sm2PrivateKey = some sm2 ∧
    K.pemWritePkcs8PrivateKey sm2 args.passphrase.val args.pemRnd = some pem
  container : passphraseValid args.passphrase = true → ∃ fileData,
    encryptDilithiumPayload K args.privateKey args.publicKey args.passphrase args.salt args.iv =
      some fileData

/-- A private directory, or none yet, in which both names are free. -/
def Savable (d : Dir ι KeyFile) : Prop := d.kind ≠ .other ∧ ∀ name, d.entry name = none

/-- The same for the SM2 name alone. -/
def Sm2Savable (d : Dir ι KeyFile) : Prop := d.kind ≠ .other ∧ d.entry .sm2PrivatePem = none

/-- A private directory in which the Dilithium2 name is a link to nowhere. -/
def LosesLink (d : Dir ι KeyFile) : Prop :=
  d.kind ≠ .other ∧ d.entry .dilithium2PrivateEnc = some (.symlink false)

/-! ## The pieces of a save -/

theorem writeAll_noFailure {n : Nat} {data : Bytes} {rest : Option Bytes}
    (h : Run (stepNoFailure i) (writeAll n data) d rest d') : rest = none := by
  induction data using writeAll.induct generalizing d with
  | case1 =>
    rw [writeAll_nil] at h
    cases h
    rfl
  | case2 data hne ih =>
    rw [writeAll_step hne] at h
    obtain ⟨k, x, hk, h⟩ := noFailure_write h
    rw [Option.elim_some, if_pos hk] at h
    exact ih k hk h

theorem syncAndClose_noFailure {n : Nat} {name : KeyFile}
    (h : Run (stepNoFailure i) (syncAndClose n name) d r d') : r = true := by
  simp only [syncAndClose, fsync_bind, close_bind, Prog.pure_eq] at h
  obtain ⟨x, h⟩ := noFailure_close (noFailure_fsync h)
  cases h
  rfl

theorem saveSm2PrivateKey_noFailure {key : PKey} {passphrase : CString} {rnd pem : Bytes}
    (hpass : passphraseValid passphrase = true)
    (hpem : K.pemWritePkcs8PrivateKey key passphrase.val rnd = some pem)
    (hfree : d.entry .sm2PrivatePem = none)
    (h : Run (stepNoFailure i) (saveSm2PrivateKey K (some key) passphrase rnd) d r d') :
    r = true := by
  simp only [saveSm2PrivateKey, hpass, if_true, createExcl_bind, fdopen_bind, hpem] at h
  obtain ⟨rest, d1, hw, h⟩ := run_bind.mp (noFailure_fdopen (noFailure_createExcl hfree h))
  rw [writeAll_noFailure hw] at h
  exact syncAndClose_noFailure h

theorem saveDilithiumPrivateKey_noFailure {fileData : Bytes}
    (hfile : encryptDilithiumPayload K args.privateKey args.publicKey args.passphrase args.salt
      args.iv = some fileData) (hfree : d.entry .dilithium2PrivateEnc = none)
    (h : Run (stepNoFailure i) (saveDilithiumPrivateKey K args) d r d') : r = true := by
  simp only [saveDilithiumPrivateKey, hfile, createExcl_bind] at h
  obtain ⟨rest, d1, hw, h⟩ := run_bind.mp (noFailure_createExcl hfree h)
  rw [writeAll_noFailure hw] at h
  exact syncAndClose_noFailure h

theorem saveKeyFiles_noFailure (hcrypto : CryptoSucceeds K args)
    (hpass : passphraseValid args.passphrase = true) (hfree : ∀ name, d.entry name = none)
    (h : Run (stepNoFailure i) (saveKeyFiles K args) d r d') : r = true := by
  obtain ⟨sm2, pem, hsm2, hpem⟩ := hcrypto.pem
  obtain ⟨fileData, hfile⟩ := hcrypto.container hpass
  rw [saveKeyFiles, hsm2] at h
  obtain ⟨sm2Saved, d1, hs, h⟩ := run_bind.mp h
  cases saveSm2PrivateKey_noFailure hpass hpem (hfree _) hs
  rcases saveSm2PrivateKey_run (run_of_noFailure hs) with ⟨_, n, hc⟩ | ⟨hr, _⟩
  · rw [if_pos rfl] at h
    obtain ⟨dilithiumSaved, d2, hd, h⟩ := run_bind.mp h
    have hfree1 : d1.entry .dilithium2PrivateEnc = none := by
      rw [hc.others (by decide), hfree]
    cases saveDilithiumPrivateKey_noFailure hfile hfree1 hd
    cases h
    rfl
  · cases hr

theorem ensurePrivateDirectory_noFailure {α : Type} {a : α} {f : Bool → Prog (sig KeyFile) α}
    (h : Run (stepNoFailure i) (ensurePrivateDirectory >>= f) d a d') :
    (d.kind = .other ∧ Run (stepNoFailure i) (f false) d a d') ∨
      (d.kind ≠ .other ∧ Run (stepNoFailure i) (f true)
        (if d.kind = .missing then d.setKind .privateDirectory else d) a d') := by
  simp only [ensurePrivateDirectory, lstatDir_bind, Prog.call_bind] at h
  have h := noFailure_lstatDir h
  cases hkind : d.kind with
  | missing =>
    rw [hkind, if_pos rfl, mkdir_bind] at h
    exact Or.inr ⟨DirKind.noConfusion, noFailure_lstatDir (noFailure_mkdir hkind h)⟩
  | privateDirectory =>
    rw [hkind, if_neg DirKind.noConfusion] at h
    exact Or.inr ⟨DirKind.noConfusion, h⟩
  | other =>
    rw [hkind, if_neg DirKind.noConfusion] at h
    exact Or.inl ⟨rfl, h⟩

theorem hybridKeyStoreStatus_noFailure {α : Type} {a : α}
    {f : HybridKeyStoreStatus → Prog (sig KeyFile) α}
    (h : Run (stepNoFailure i) (hybridKeyStoreStatus >>= f) d a d') :
    Run (stepNoFailure i) (f (statusOf d)) d a d' := by
  simp only [hybridKeyStoreStatus, access_bind, Prog.call_bind] at h
  exact noFailure_access (noFailure_access h)

/-! ## A whole save -/

/-- A passphrase that is too long is refused first. -/
theorem hybridKeyStoreSave_passphrase (hpass : passphraseValid args.passphrase = false)
    (h : Run (stepNoFailure i) (hybridKeyStoreSave K args) d r d') : r = false ∧ d' = d := by
  simp only [hybridKeyStoreSave, hpass, Bool.false_and, Bool.false_eq_true, if_false] at h
  cases h
  exact ⟨rfl, rfl⟩

/-- A save into a directory without readable key files saves, or refuses the directory. -/
theorem hybridKeyStoreSave_noFailure (hdisk : OnDisk d) (hcrypto : CryptoSucceeds K args)
    (hpass : passphraseValid args.passphrase = true) (hmissing : statusOf d = .missing)
    (h : Run (stepNoFailure i) (hybridKeyStoreSave K args) d r d') :
    (r = true ∧ Savable d ∧ ∀ name, ∃ n, d'.entry name = some (.file n)) ∨
      (r = false ∧ ¬ Savable d ∧ (LosesLink d → d'.entry .dilithium2PrivateEnc = none) ∧
        (¬ LosesLink d → Unchanged d d')) := by
  simp only [hybridKeyStoreSave, hpass, hcrypto.selfTest, Bool.and_self, if_true] at h
  rcases ensurePrivateDirectory_noFailure h with ⟨hkind, h⟩ | ⟨hkind, h⟩
  · cases h
    exact Or.inr ⟨rfl, fun hs => hs.1 hkind, fun hl => (hl.1 hkind).elim, fun _ => .refl d⟩
  · rw [if_pos rfl] at h
    have h := hybridKeyStoreStatus_noFailure h
    have hstatus : statusOf (if d.kind = .missing then d.setKind .privateDirectory else d) =
        .missing := by
      rw [← hmissing]
      split <;> rfl
    rw [hstatus, if_pos rfl] at h
    by_cases hm : d.kind = .missing
    · have hfree := hdisk hm
      rw [if_pos hm] at h
      cases saveKeyFiles_noFailure hcrypto hpass (d := d.setKind .privateDirectory) hfree h
      rcases saveKeyFiles_outcome (run_of_noFailure h) with ⟨_, hboth⟩ | ⟨hr, _⟩
      · exact Or.inl ⟨rfl, ⟨hkind, hfree⟩, hboth.files⟩
      · cases hr
    · rw [if_neg hm] at h
      rcases saveKeyFiles_outcome (run_of_noFailure h) with ⟨rfl, hboth⟩ | ⟨rfl, hext, hentry⟩
      · exact Or.inl ⟨rfl, ⟨hkind, hboth.free⟩, hboth.files⟩
      · refine Or.inr ⟨rfl, ?_, ?_, ?_⟩
        · intro hsavable
          cases saveKeyFiles_noFailure hcrypto hpass hsavable.2 h
        · intro _
          rw [hentry, Dir.unlink_entry_self]
        · intro hlink
          have hacc := statusOf_missing.mp hmissing .dilithium2PrivateEnc
          rcases entry_of_not_accessible hacc with hfree | hl
          · exact ⟨hext, hentry.trans (unlink_entry_of_free hfree)⟩
          · exact (hlink ⟨hkind, hl⟩).elim

end HybridPqc
