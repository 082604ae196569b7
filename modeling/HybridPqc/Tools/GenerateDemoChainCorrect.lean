import HybridPqc.Store.NoFailure
import HybridPqc.Tools.GenerateDemoChain
import HybridPqc.X509.Toy

/-!
# Tools.GenerateDemoChainCorrect

What a run of the generator leaves when nothing fails and it refuses what it found.

The tool looks at the two status values, saves the CA pair, saves the server pair, and only then
looks at the encryption store. A run that loads its keys, or that refuses before the first save,
leaves everything as it was (`provideKeys_run`). A refusal that comes after a save leaves keys
behind, which the next run finds (`refusal_unchanged_iff`).
-/

namespace HybridPqc

open Conc Fs

variable {PKey : Type} {D : DemoLib PKey} {now : Int} {s s' : Disk} {p : CString}
  {args : DemoArgs}

theorem run_demo {α : Type} {op : DemoOp PKey} {f : op.Resp → Demo PKey α} {a : α} :
    Run (demoStep D now) (demo op >>= f) s a s' ↔
      ∃ r s1, demoStep D now op s r s1 ∧ Run (demoStep D now) (f r) s1 a s' := run_call

/-- The three key stores and all certificate files are as before. -/
structure DiskUnchanged (s s' : Disk) : Prop where
  store : ∀ w, Unchanged (s.store w) (s'.store w)
  file : s'.file = s.file

theorem DiskUnchanged.refl (s : Disk) : DiskUnchanged s s := ⟨fun w => .refl (s.store w), rfl⟩

@[simp] theorem storeLens_get (w : KeyDirectory) (s : Disk) : (storeLens w).get s = s.store w := rfl

@[simp] theorem storeLens_self (w : KeyDirectory) (s : Disk) (d : Dir Unit KeyFile) :
    ((storeLens w).set s d).store w = d := Function.update_self ..

theorem storeLens_ne {w w' : KeyDirectory} (h : w' ≠ w) (s : Disk) (d : Dir Unit KeyFile) :
    ((storeLens w).set s d).store w' = s.store w' := Function.update_of_ne h ..

/-- A store that is unchanged leaves the disk unchanged. -/
theorem diskUnchanged_set {w : KeyDirectory} {d : Dir Unit KeyFile}
    (h : Unchanged (s.store w) d) : DiskUnchanged s ((storeLens w).set s d) := by
  refine ⟨?_, rfl⟩
  intro w'
  by_cases hw : w' = w
  · rw [hw, storeLens_self]
    exact h
  · rw [storeLens_ne hw]
    exact .refl _

theorem inStore_run {α : Type} {w : KeyDirectory} {q : Prog (sig KeyFile) α} {a : α} :
    Run (demoStep D now) (inStore w q) s a s' ↔
      ∃ d', Run (stepNoFailure ()) q (s.store w) a d' ∧ s' = (storeLens w).set s d' := by
  unfold inStore
  refine run_embed _ _ (storeLens w) ?_ ?_
  · exact fun _ _ _ _ => Iff.rfl
  · exact fun _ r => ⟨r, rfl⟩

/-- The status is read and nothing else happens. -/
theorem inStore_status {w : KeyDirectory} {r : HybridKeyStoreStatus} :
    Run (demoStep D now) (inStore w hybridKeyStoreStatus) s r s' ↔
      r = statusOf (s.store w) ∧ s' = s := by
  rw [inStore_run]
  constructor
  · rintro ⟨d', hrun, rfl⟩
    rw [← Prog.bind_ret hybridKeyStoreStatus] at hrun
    have hrun := hybridKeyStoreStatus_noFailure hrun
    cases hrun
    exact ⟨rfl, (storeLens w).set_get s⟩
  · rintro ⟨rfl, rfl⟩
    refine ⟨s'.store w, ?_, ((storeLens w).set_get s').symm⟩
    exact .call ⟨⟨rfl, rfl⟩, trivial⟩ (.call ⟨⟨rfl, rfl⟩, trivial⟩ .ret)

theorem ensureKeyRoot_run {path : CString} {r : Bool}
    (h : Run (demoStep D now) (ensureKeyRoot path) s r s') :
    (r = true ↔ path.val ≠ [] ∧ s.keyRoot ≠ .other) ∧ ∃ kind, s' = { s with keyRoot := kind } := by
  unfold ensureKeyRoot at h
  split at h
  · rename_i hempty
    cases h
    exact ⟨⟨nofun, fun hr => (hr.1 hempty).elim⟩, s.keyRoot, rfl⟩
  · rename_i hpath
    obtain ⟨_, _, ⟨rfl, hs⟩, h⟩ := run_demo.mp h
    cases hs
    by_cases hkind : s.keyRoot = .missing
    · rw [if_pos hkind] at h
      obtain ⟨made, s2, ⟨rfl, _, rfl⟩, h⟩ := run_demo.mp h
      rw [if_pos rfl] at h
      obtain ⟨_, s3, ⟨rfl, rfl⟩, h⟩ := run_demo.mp h
      cases h
      refine ⟨⟨fun _ => ⟨hpath, ?_⟩, fun _ => rfl⟩, .privateDirectory, rfl⟩
      rw [hkind]
      nofun
    · rw [if_neg hkind] at h
      cases h
      refine ⟨?_, s.keyRoot, rfl⟩
      cases hk : s.keyRoot with
      | missing => exact (hkind hk).elim
      | privateDirectory => exact ⟨fun _ => ⟨hpath, nofun⟩, fun _ => rfl⟩
      | other => exact ⟨nofun, fun hr => (hr.2 rfl).elim⟩

/-! ## One save -/

theorem saveIn_run {w : KeyDirectory} {keys : KeyPair PKey} {r : Bool}
    (h : Run (demoStep D now) (saveIn D w keys p) s r s') :
    ∃ a d', CryptoSucceeds D.toStoreCrypto a ∧ a.passphrase = p ∧ s' = (storeLens w).set s d' ∧
      Run (stepNoFailure ()) (hybridKeyStoreSave D.toStoreCrypto a) (s.store w) r d' := by
  obtain ⟨a, _, ⟨⟨_, _, hpass, hcrypto⟩, rfl⟩, hsave⟩ := run_demo.mp h
  obtain ⟨d', hrun, rfl⟩ := inStore_run.mp hsave
  exact ⟨a, d', hcrypto, hpass, rfl, hrun⟩

/-- A passphrase that is too long is refused before the directory is looked at. -/
theorem saveIn_passphrase {w : KeyDirectory} {keys : KeyPair PKey} {r : Bool}
    (hpass : passphraseValid p = false) (h : Run (demoStep D now) (saveIn D w keys p) s r s') :
    r = false ∧ s' = s := by
  obtain ⟨a, d', _, rfl, rfl, hrun⟩ := saveIn_run h
  obtain ⟨rfl, rfl⟩ := hybridKeyStoreSave_passphrase hpass hrun
  exact ⟨rfl, (storeLens w).set_get s⟩

/-- The status is `MISSING` and the directory can be used. -/
def EncryptionSavable (s : Disk) : Prop :=
  hybridSm2KeyStoreStatus (s.noEntry .serverEncryption) (s.store .serverEncryption) = .missing ∧
    Sm2Savable (s.store .serverEncryption)

/-- A save of the encryption key refuses a bad passphrase and what it cannot write to, and then
changes nothing. -/
theorem hybridSm2KeyStoreSave_run {key : PKey} {r : Bool}
    (hdisk : OnDisk (s.store .serverEncryption)) (hkey : D.isSm2 key = true)
    (h : Run (demoStep D now) (hybridSm2KeyStoreSave D .serverEncryption key p) s r s') :
    (r = true ∧ EncryptionSavable s ∧ ∃ d', s' = (storeLens .serverEncryption).set s d') ∨
      (r = false ∧ DiskUnchanged s s' ∧ (passphraseValid p = true → ¬ EncryptionSavable s)) := by
  unfold hybridSm2KeyStoreSave at h
  cases hpass : passphraseValid p with
  | false =>
    rw [hpass, Bool.and_false, if_neg Bool.false_ne_true] at h
    cases h
    exact Or.inr ⟨rfl, .refl s, nofun⟩
  | true =>
    rw [hpass, hkey, Bool.and_self, if_pos rfl] at h
    obtain ⟨_, _, ⟨rfl, hs⟩, h⟩ := run_demo.mp h
    cases hs
    by_cases hmissing : hybridSm2KeyStoreStatus (s.noEntry .serverEncryption)
        (s.store .serverEncryption) = .missing
    swap
    · rw [if_neg hmissing] at h
      cases h
      exact Or.inr ⟨rfl, .refl s, fun _ hs => hmissing hs.1⟩
    rw [if_pos hmissing] at h
    obtain ⟨directoryOk, s2, hdir, h⟩ := run_bind.mp h
    obtain ⟨d2, hdir', rfl⟩ := inStore_run.mp hdir
    rw [← Prog.bind_ret ensurePrivateDirectory] at hdir'
    rcases ensurePrivateDirectory_noFailure hdir' with ⟨hkind, hret⟩ | ⟨hkind, hret⟩
    · cases hret
      rw [if_neg Bool.false_ne_true] at h
      cases h
      exact Or.inr ⟨rfl, diskUnchanged_set (.refl _), fun _ hs => hs.2.1 hkind⟩
    cases hret
    rw [if_pos rfl] at h
    obtain ⟨rnd, s3, ⟨⟨pem, hpem⟩, rfl⟩, h⟩ := run_demo.mp h
    obtain ⟨d3, hsave, rfl⟩ := inStore_run.mp h
    rw [(storeLens _).set_set]
    rw [storeLens_self] at hsave
    by_cases hfree : (s.store .serverEncryption).entry .sm2PrivatePem = none
    · have hr := saveSm2PrivateKey_noFailure hpass hpem (by split <;> exact hfree) hsave
      exact Or.inl ⟨hr, ⟨hmissing, hkind, hfree⟩, d3, rfl⟩
    · have hexists : (s.store .serverEncryption).kind ≠ .missing := by
        intro hm
        exact hfree (hdisk hm _)
      rw [if_neg hexists] at hsave
      rcases saveSm2PrivateKey_run (run_of_noFailure hsave) with ⟨_, _, hc⟩ | ⟨rfl, hu⟩
      · exact (hfree hc.free).elim
      · exact Or.inr ⟨rfl, diskUnchanged_set hu, fun _ hs => hfree hs.2.2⟩

/-! ## The CA and the server keys -/

/-- Both statuses are `MISSING`, and the saves accept the passphrase. -/
def Generates (p : CString) (s : Disk) : Prop :=
  passphraseValid p = true ∧ statusOf (s.store .ca) = .missing ∧
    statusOf (s.store .server) = .missing

/-- What `provideKeys` did. -/
inductive KeysOutcome (p : CString) (s : Disk) : Except Refusal (DemoKeys PKey) → Disk → Prop where
  | generated {keys : DemoKeys PKey} {ca server : Dir Unit KeyFile} :
      Generates p s → Savable (s.store .ca) → Savable (s.store .server) →
      keys.existingRoot = none → (∃ n, ca.entry .sm2PrivatePem = some (.file n)) →
      KeysOutcome p s (.ok keys) ((storeLens .server).set ((storeLens .ca).set s ca) server)
  | loaded {keys : DemoKeys PKey} : statusOf (s.store .ca) ≠ .missing → keys.existingRoot ≠ none →
      KeysOutcome p s (.ok keys) s
  | unchanged {refusal : Refusal} {s' : Disk} : DiskUnchanged s s' →
      ¬ (Generates p s ∧ (LosesLink (s.store .ca) ∨ Savable (s.store .ca))) →
      KeysOutcome p s (.error refusal) s'
  | changed {refusal : Refusal} {s' : Disk} : Generates p s →
      LosesLink (s.store .ca) ∨ Savable (s.store .ca) ∧ ¬ Savable (s.store .server) →
      ¬ DiskUnchanged s s' → KeysOutcome p s (.error refusal) s'

/-- A CA key file that was not there is a change. -/
theorem ca_changed {n : Nat} (hs : Savable (s.store .ca))
    (hn : (s'.store .ca).entry .sm2PrivatePem = some (.file n)) : ¬ DiskUnchanged s s' := by
  intro h
  have := congrFun (h.store .ca).entry .sm2PrivatePem
  rw [hn, hs.2] at this
  cases this

theorem generateKeys_run {r : Except Refusal (DemoKeys PKey)} (hdisk : ∀ w, OnDisk (s.store w))
    (hca : statusOf (s.store .ca) = .missing) (hserver : statusOf (s.store .server) = .missing)
    (h : Run (demoStep D now) (generateKeys D p) s r s') : KeysOutcome p s r s' := by
  obtain ⟨ca, _, ⟨hca', hs⟩, h⟩ := run_demo.mp h
  cases hs
  cases ca with
  | none => cases hca'
  | some ca =>
  dsimp only at h
  obtain ⟨server, _, ⟨hserver', hs⟩, h⟩ := run_demo.mp h
  cases hs
  cases server with
  | none => cases hserver'
  | some server =>
  dsimp only at h
  obtain ⟨caSaved, s1, hsave, h⟩ := run_bind.mp h
  cases hpass : passphraseValid p with
  | false =>
    obtain ⟨rfl, hs⟩ := saveIn_passphrase hpass hsave
    cases hs
    cases h
    refine .unchanged (.refl _) ?_
    rintro ⟨⟨hp, _⟩, _⟩
    rw [hpass] at hp
    cases hp
  | true =>
    have hgen : Generates p s := ⟨hpass, hca, hserver⟩
    obtain ⟨a, d1, hcrypto, rfl, rfl, hrun⟩ := saveIn_run hsave
    rcases hybridKeyStoreSave_noFailure (hdisk .ca) hcrypto hpass hca hrun with
      ⟨rfl, hsavable, hfiles⟩ | ⟨rfl, hno, hlost, hkept⟩
    · -- the CA pair is saved
      rw [if_pos rfl] at h
      obtain ⟨serverSaved, s2, hsave, h⟩ := run_bind.mp h
      obtain ⟨b, d2, hcrypto', hb, rfl, hrun'⟩ := saveIn_run hsave
      rw [storeLens_ne (by decide)] at hrun'
      rw [← hb] at hpass
      rcases hybridKeyStoreSave_noFailure (hdisk .server) hcrypto' hpass hserver hrun' with
        ⟨rfl, hsavable', _⟩ | ⟨rfl, hno', _⟩
      · cases h
        exact .generated hgen hsavable hsavable' rfl (hfiles _)
      · cases h
        obtain ⟨n, hn⟩ := hfiles .sm2PrivatePem
        refine .changed hgen (Or.inr ⟨hsavable, hno'⟩) (ca_changed hsavable (n := n) ?_)
        rw [storeLens_ne (by decide), storeLens_self]
        exact hn
    · cases h
      by_cases hlink : LosesLink (s.store .ca)
      · refine .changed hgen (Or.inl hlink) ?_
        intro hu
        have := congrFun (hu.store .ca).entry .dilithium2PrivateEnc
        rw [storeLens_self, hlost hlink, hlink.2] at this
        cases this
      · refine .unchanged (diskUnchanged_set (hkept hlink)) ?_
        rintro ⟨_, hl | hs⟩
        · exact hlink hl
        · exact hno hs

/-- A load from a store that is there leaves it as it is. -/
theorem hybridKeyStoreLoad_fst {K : StoreCrypto PKey} {d d' : Dir Unit KeyFile} {rnd : Bytes}
    {r : Option (KeyPair PKey)} (hkind : d.kind ≠ .missing)
    (h : hybridKeyStoreLoad K d p rnd = (d', r)) : d' = d := by
  have := congrArg Prod.fst h
  simp only [hybridKeyStoreLoad, if_neg hkind] at this
  rw [← this]
  split
  · split
    · split
      · rfl
      · split
        · rfl
        · split <;> rfl
    · rfl
  · rfl

theorem load_run {α : Type} {w : KeyDirectory} {a : α}
    {f : Option (KeyPair PKey) → Demo PKey α} (hkind : (s.store w).kind ≠ .missing)
    (h : Run (demoStep D now) (demo (.load w p) >>= f) s a s') :
    ∃ r, Run (demoStep D now) (f r) s a s' := by
  obtain ⟨r, _, ⟨rnd, d', hload, rfl⟩, h⟩ := run_demo.mp h
  cases hybridKeyStoreLoad_fst hkind hload
  rw [← storeLens_get, (storeLens w).set_get] at h
  exact ⟨r, h⟩

theorem loadKeys_run {r : Except Refusal (DemoKeys PKey)}
    (hca : (s.store .ca).kind ≠ .missing) (hserver : (s.store .server).kind ≠ .missing)
    (h : Run (demoStep D now) (loadKeys D now args p) s r s') :
    s' = s ∧ ∀ keys, r = .ok keys → keys.existingRoot ≠ none := by
  obtain ⟨ca, h⟩ := load_run hca h
  cases ca with
  | none =>
    cases h
    exact ⟨rfl, fun _ hk => nomatch hk⟩
  | some ca =>
  dsimp only at h
  obtain ⟨server, h⟩ := load_run hserver h
  cases server with
  | none =>
    cases h
    exact ⟨rfl, fun _ hk => nomatch hk⟩
  | some server =>
  dsimp only at h
  obtain ⟨root, _, ⟨_, hs⟩, h⟩ := run_demo.mp h
  cases hs
  obtain ⟨certificate, _, ⟨_, hs⟩, h⟩ := run_demo.mp h
  cases hs
  split at h
  · split at h
    · cases h
      refine ⟨rfl, ?_⟩
      rintro _ ⟨⟩
      exact Option.some_ne_none _
    · cases h
      exact ⟨rfl, fun _ hk => nomatch hk⟩
  · cases h
    exact ⟨rfl, fun _ hk => nomatch hk⟩

theorem kind_of_statusOf {ι : Type} {d : Dir ι KeyFile} (hdisk : OnDisk d)
    (h : statusOf d ≠ .missing) : d.kind ≠ .missing := by
  intro hk
  refine h (statusOf_missing.mpr ?_)
  intro name
  rw [Dir.accessible, hdisk hk]

theorem provideKeys_run {r : Except Refusal (DemoKeys PKey)} (hdisk : ∀ w, OnDisk (s.store w))
    (h : Run (demoStep D now) (provideKeys D now args p) s r s') : KeysOutcome p s r s' := by
  obtain ⟨_, _, hstatus, h⟩ := run_bind.mp h
  obtain ⟨rfl, hs⟩ := inStore_status.mp hstatus
  cases hs
  obtain ⟨_, _, hstatus, h⟩ := run_bind.mp h
  obtain ⟨rfl, hs⟩ := inStore_status.mp hstatus
  cases hs
  split at h
  · rename_i hmissing
    exact generateKeys_run hdisk hmissing.1 hmissing.2 h
  rename_i hmissing
  have hno : ¬ (Generates p s ∧ (LosesLink (s.store .ca) ∨ Savable (s.store .ca))) :=
    fun hg => hmissing hg.1.2
  split at h
  · rename_i hcomplete
    have hca : statusOf (s.store .ca) ≠ .missing := by
      rw [hcomplete.1]
      nofun
    have hserver : statusOf (s.store .server) ≠ .missing := by
      rw [hcomplete.2]
      nofun
    obtain ⟨rfl, hroot⟩ := loadKeys_run (kind_of_statusOf (hdisk .ca) hca)
      (kind_of_statusOf (hdisk .server) hserver) h
    cases r with
    | error refusal => exact .unchanged (.refl _) hno
    | ok keys => exact .loaded hca (hroot keys rfl)
  · cases h
    exact .unchanged (.refl _) hno

/-! ## The encryption key and the certificates -/

theorem provideEncryptionKey_run {keys : DemoKeys PKey} {r : Except Refusal (Option PKey)}
    (hdisk : OnDisk (s.store .serverEncryption))
    (h : Run (demoStep D now) (provideEncryptionKey D now args keys p) s r s') :
    (∃ key, r = .ok key ∧
      (keys.existingRoot = none → args.encryption ≠ none → EncryptionSavable s)) ∨
    (∃ refusal, r = .error refusal ∧ DiskUnchanged s s' ∧ args.encryption ≠ none ∧
      (keys.existingRoot = none → passphraseValid p = true → ¬ EncryptionSavable s)) := by
  unfold provideEncryptionKey at h
  cases henc : args.encryption with
  | none =>
    rw [henc] at h
    cases h
    exact Or.inl ⟨none, rfl, fun _ hne => (hne rfl).elim⟩
  | some paths =>
  rw [henc] at h
  obtain ⟨_, _, ⟨rfl, hs⟩, h⟩ := run_demo.mp h
  cases hs
  have hsome : some paths ≠ none := Option.some_ne_none _
  by_cases hmissing : hybridSm2KeyStoreStatus (s.noEntry .serverEncryption)
      (s.store .serverEncryption) = .missing
  · rw [if_pos hmissing] at h
    obtain ⟨key, _, ⟨⟨key, rfl, hkey⟩, hs⟩, h⟩ := run_demo.mp h
    cases hs
    obtain ⟨saved, s1, hsave, h⟩ := run_bind.mp h
    rcases hybridSm2KeyStoreSave_run hdisk hkey hsave with ⟨rfl, hok, _⟩ | ⟨rfl, hu, hno⟩
    · cases h
      exact Or.inl ⟨some key, rfl, fun _ _ => hok⟩
    · cases h
      exact Or.inr ⟨_, rfl, hu, hsome, fun _ => hno⟩
  · rw [if_neg hmissing] at h
    have hno : ¬ EncryptionSavable s := fun hs => hmissing hs.1
    split at h
    · rename_i root hstatus hroot
      have hroot' : keys.existingRoot ≠ none := by
        rw [hroot]
        exact Option.some_ne_none _
      obtain ⟨key, _, ⟨_, hs⟩, h⟩ := run_demo.mp h
      cases hs
      obtain ⟨existing, _, ⟨_, hs⟩, h⟩ := run_demo.mp h
      cases hs
      split at h
      · split at h
        · cases h
          exact Or.inl ⟨_, rfl, fun hnone => (hroot' hnone).elim⟩
        · cases h
          exact Or.inr ⟨_, rfl, .refl s, hsome, fun _ _ => hno⟩
      · cases h
        exact Or.inr ⟨_, rfl, .refl s, hsome, fun _ _ => hno⟩
    · cases h
      exact Or.inr ⟨_, rfl, .refl s, hsome, fun _ _ => hno⟩

theorem hybridX509WriteFiles_run {certificate : X509} {pemPath derPath : CString} {r : Bool}
    (h : Run (demoStep D now) (hybridX509WriteFiles certificate pemPath derPath) s r s') :
    r = true := by
  obtain ⟨_, _, ⟨rfl, _⟩, h⟩ := run_demo.mp h
  obtain ⟨_, _, ⟨rfl, _⟩, h⟩ := run_demo.mp h
  obtain ⟨_, _, ⟨rfl, _⟩, h⟩ := run_demo.mp h
  obtain ⟨_, _, ⟨rfl, _⟩, h⟩ := run_call.mp h
  cases h
  rfl

theorem createEncryption_run {keys : DemoKeys PKey} {root : X509} {key : Option PKey}
    {r : Option (Option X509)}
    (h : Run (demoStep D now) (createEncryption D now keys root key) s r s') : r ≠ none := by
  cases key with
  | none =>
    cases h
    nofun
  | some key =>
    obtain ⟨encryption, _, ⟨⟨_, hsome, _⟩, _⟩, h⟩ := run_demo.mp h
    cases encryption with
    | none => cases hsome
    | some certificate =>
      obtain ⟨_, _, ⟨⟨rfl, _⟩, _⟩, h⟩ := run_demo.mp h
      rw [if_pos rfl] at h
      obtain ⟨_, _, ⟨⟨rfl, _⟩, _⟩, h⟩ := run_demo.mp h
      cases h
      nofun

theorem writeEncryption_run {encryption : Option X509} {r : Bool}
    (h : Run (demoStep D now) (writeEncryption args encryption) s r s') : r = true := by
  unfold writeEncryption at h
  split at h
  · exact hybridX509WriteFiles_run h
  · cases h
    rfl

/-- What is left of `main` after the keys refuses nothing. -/
theorem writeChain_run {keys : DemoKeys PKey} {key : Option PKey} {exit : Exit}
    (h : Run (demoStep D now) (writeChain D now args keys key) s exit s') : exit = .success := by
  obtain ⟨root, _, ⟨⟨_, hsome, _⟩, _⟩, h⟩ := run_demo.mp h
  cases root with
  | none => cases hsome
  | some root =>
  obtain ⟨server, _, ⟨⟨_, hsome, _⟩, _⟩, h⟩ := run_demo.mp h
  cases server with
  | none => cases hsome
  | some server =>
  obtain ⟨_, _, ⟨⟨rfl, _⟩, _⟩, h⟩ := run_demo.mp h
  rw [if_pos rfl] at h
  obtain ⟨_, _, ⟨⟨rfl, _⟩, _⟩, h⟩ := run_demo.mp h
  rw [if_pos rfl] at h
  obtain ⟨encryption, _, hencryption, h⟩ := run_bind.mp h
  cases encryption with
  | none => exact (createEncryption_run hencryption rfl).elim
  | some encryption =>
  obtain ⟨_, _, hwritten, h⟩ := run_bind.mp h
  rw [hybridX509WriteFiles_run hwritten, if_pos rfl] at h
  obtain ⟨_, _, hwritten, h⟩ := run_bind.mp h
  rw [hybridX509WriteFiles_run hwritten, if_pos rfl] at h
  obtain ⟨_, _, hwritten, h⟩ := run_bind.mp h
  rw [writeEncryption_run hwritten, if_pos rfl] at h
  cases h
  rfl

/-! ## A whole run -/

/-- Keys are generated, and something is refused that is looked at only after the first save: the
CA directory has a link to nowhere, or the CA pair is saved and the server directory or the
encryption store is refused. -/
def RefusesLate (args : DemoArgs) (p : CString) (s : Disk) : Prop :=
  Generates p s ∧ (LosesLink (s.store .ca) ∨ Savable (s.store .ca) ∧
    (¬ Savable (s.store .server) ∨ args.encryption ≠ none ∧ ¬ EncryptionSavable s))

/-- The run gets to its keys, and refuses late. -/
def LeavesKeys (argv : List CString) (passphrase : Option CString) (s : Disk) : Prop :=
  ∃ args p, readArgv argv = some args ∧ passphrase = some p ∧ args.keyRoot.val ≠ [] ∧
    s.keyRoot ≠ .other ∧ RefusesLate args p s

/-- Behind the first checks of `main`. -/
theorem leavesKeys_iff {argv : List CString} (hargv : readArgv argv = some args)
    (hpath : args.keyRoot.val ≠ []) (hother : s.keyRoot ≠ .other) :
    LeavesKeys argv (some p) s ↔ RefusesLate args p s := by
  constructor
  · intro hleaves
    obtain ⟨_, _, hargs, hp, _, _, hlate⟩ := hleaves
    rw [hargv] at hargs
    cases hargs
    cases hp
    exact hlate
  · intro hlate
    exact ⟨args, p, hargv, rfl, hpath, hother, hlate⟩

theorem not_losesLink {ι : Type} {d : Dir ι KeyFile} (h : Savable d) : ¬ LosesLink d := by
  intro hl
  have := hl.2
  rw [h.2] at this
  cases this

theorem strlen_of_passphraseValid (h : passphraseValid p = true) : ¬ p.strlen < 12 := by
  simp only [passphraseValid, Bool.and_eq_true, decide_eq_true_eq] at h
  omega

/-- The rest of the run after the pair of stores has been generated. -/
theorem generated_unchanged_iff {keys : DemoKeys PKey} {ca server : Dir Unit KeyFile}
    {r : Except Refusal (Option PKey)} (hdisk : ∀ w, OnDisk (s.store w)) (hgen : Generates p s)
    (hca : Savable (s.store .ca)) (hserver : Savable (s.store .server))
    (hroot : keys.existingRoot = none) (hfile : ∃ n, ca.entry .sm2PrivatePem = some (.file n))
    (h : Run (demoStep D now) (provideEncryptionKey D now args keys p)
      ((storeLens .server).set ((storeLens .ca).set s ca) server) r s') :
    (∃ key, r = .ok key ∧ ¬ RefusesLate args p s) ∨
      (∃ refusal, r = .error refusal ∧ ¬ DiskUnchanged s s' ∧ RefusesLate args p s) := by
  have hstore : ((storeLens .server).set ((storeLens .ca).set s ca) server).store
      .serverEncryption = s.store .serverEncryption := by
    rw [storeLens_ne (by decide), storeLens_ne (by decide)]
  have hsavable : EncryptionSavable ((storeLens .server).set ((storeLens .ca).set s ca) server) ↔
      EncryptionSavable s := by
    rw [EncryptionSavable, EncryptionSavable, hstore]
    exact Iff.rfl
  have hdisk' := hdisk .serverEncryption
  rw [← hstore] at hdisk'
  rcases provideEncryptionKey_run hdisk' h with ⟨key, rfl, hok⟩ | ⟨refusal, rfl, hu, henc, hno⟩
  · refine Or.inl ⟨key, rfl, ?_⟩
    rintro ⟨_, hl | ⟨_, hs | ⟨henc, he⟩⟩⟩
    · exact not_losesLink hca hl
    · exact hs hserver
    · exact he (hsavable.mp (hok hroot henc))
  · refine Or.inr ⟨refusal, rfl, ?_, hgen, Or.inr ⟨hca, Or.inr ⟨henc, ?_⟩⟩⟩
    · obtain ⟨n, hn⟩ := hfile
      refine ca_changed hca (n := n) ?_
      rw [(hu.store .ca).entry, storeLens_ne (by decide), storeLens_self]
      exact hn
    · exact fun hs => hno hroot hgen.1 (hsavable.mpr hs)

/-- What `main` did: it refused before it looked at the stores, or it refused the stores, or it went
on to the encryption key, which it refused or used for the certificates. -/
theorem main_run {argv : List CString} {passphrase : Option CString} {exit : Exit}
    (h : Run (demoStep D now) (main D now argv passphrase) s exit s') :
    (DiskUnchanged s s' ∧ ¬ LeavesKeys argv passphrase s) ∨
    ∃ args p kind keys s1, (LeavesKeys argv passphrase s ↔ RefusesLate args p s) ∧
      Run (demoStep D now) (provideKeys D now args p) { s with keyRoot := kind } keys s1 ∧
      ((∃ refusal, keys = .error refusal ∧ exit = .failure refusal ∧ s' = s1) ∨
        ∃ k r s2, keys = .ok k ∧
          Run (demoStep D now) (provideEncryptionKey D now args k p) s1 r s2 ∧
          ((∃ key, r = .ok key ∧ exit = .success) ∨
            ∃ refusal, r = .error refusal ∧ exit = .failure refusal ∧ s' = s2)) := by
  unfold main at h
  cases hargv : readArgv argv with
  | none =>
    rw [hargv] at h
    cases h
    refine Or.inl ⟨.refl s, ?_⟩
    rintro ⟨args, _, hargs, _⟩
    rw [hargv] at hargs
    cases hargs
  | some args =>
  rw [hargv] at h
  cases passphrase with
  | none =>
    cases h
    refine Or.inl ⟨.refl s, ?_⟩
    rintro ⟨_, _, _, hp, _⟩
    cases hp
  | some p =>
  dsimp only at h
  split at h
  · rename_i hshort
    cases h
    refine Or.inl ⟨.refl s, ?_⟩
    rintro ⟨_, _, _, hp, _, _, ⟨hvalid, _⟩, _⟩
    cases hp
    exact strlen_of_passphraseValid hvalid hshort
  obtain ⟨rootOk, _, hroot, h⟩ := run_bind.mp h
  obtain ⟨hok, kind, rfl⟩ := ensureKeyRoot_run hroot
  cases rootOk with
  | false =>
    cases h
    refine Or.inl ⟨⟨fun w => .refl (s.store w), rfl⟩, ?_⟩
    rintro ⟨_, _, hargs, _, hpath, hother, _⟩
    rw [hargv] at hargs
    cases hargs
    exact Bool.false_ne_true (hok.mpr ⟨hpath, hother⟩)
  | true =>
  obtain ⟨hpath, hother⟩ := hok.mp rfl
  rw [if_pos rfl] at h
  obtain ⟨keys, s1, hkeys, h⟩ := run_bind.mp h
  refine Or.inr ⟨args, p, kind, keys, s1, leavesKeys_iff hargv hpath hother, hkeys, ?_⟩
  cases keys with
  | error refusal =>
    cases h
    exact Or.inl ⟨refusal, rfl, rfl, rfl⟩
  | ok keys =>
    obtain ⟨r, s2, hkey, h⟩ := run_bind.mp h
    refine Or.inr ⟨keys, r, s2, rfl, hkey, ?_⟩
    cases r with
    | error refusal =>
      cases h
      exact Or.inr ⟨refusal, rfl, rfl, rfl⟩
    | ok key => exact Or.inl ⟨key, rfl, writeChain_run h⟩

/-- **A run that refuses what it found leaves the stores and the certificates as they were**,
exactly when it does not refuse after it has saved keys. -/
theorem refusal_unchanged_iff {PKey : Type} (D : DemoLib PKey) (now : Int) (argv : List CString)
    (passphrase : Option CString) {s s' : Disk} {exit : Exit} (hdisk : ∀ w, OnDisk (s.store w))
    (h : Run (demoStep D now) (main D now argv passphrase) s exit s') :
    (exit ≠ .success → DiskUnchanged s s') ↔ ¬ LeavesKeys argv passphrase s := by
  rcases main_run h with ⟨hu, hno⟩ | ⟨args, p, kind, keys, s1, hleaves, hkeys, hrest⟩
  · exact ⟨fun _ => hno, fun _ _ => hu⟩
  have hunchanged : DiskUnchanged { s with keyRoot := kind } s' ↔ DiskUnchanged s s' :=
    ⟨fun hu => ⟨hu.store, hu.file⟩, fun hu => ⟨hu.store, hu.file⟩⟩
  rw [hleaves, ← hunchanged]
  cases provideKeys_run (s := { s with keyRoot := kind }) hdisk hkeys with
  | generated hgen hca hserver hnone hfile =>
    rcases hrest with ⟨_, hkeys, _⟩ | ⟨_, r, s2, hkeys, hkey, hrest⟩
    · cases hkeys
    cases hkeys
    rcases generated_unchanged_iff (s := { s with keyRoot := kind }) hdisk hgen hca hserver hnone
      hfile hkey with ⟨key, rfl, hno⟩ | ⟨refusal, rfl, hchanged, hlate⟩
    · rcases hrest with ⟨_, _, rfl⟩ | ⟨_, hr, _⟩
      · exact ⟨fun _ => hno, fun _ hne => (hne rfl).elim⟩
      · cases hr
    · rcases hrest with ⟨_, hr, _⟩ | ⟨_, _, rfl, rfl⟩
      · cases hr
      · exact ⟨fun hu => (hchanged (hu nofun)).elim, fun hno => (hno hlate).elim⟩
  | loaded hca hsome =>
    have hno : ¬ RefusesLate args p s := fun hlate => hca hlate.1.2.1
    rcases hrest with ⟨_, hkeys, _⟩ | ⟨_, r, s2, hkeys, hkey, hrest⟩
    · cases hkeys
    cases hkeys
    rcases hrest with ⟨_, _, rfl⟩ | ⟨_, rfl, _, rfl⟩
    · exact ⟨fun _ => hno, fun _ hne => (hne rfl).elim⟩
    · rcases provideEncryptionKey_run (s := { s with keyRoot := kind }) (hdisk _) hkey with
        ⟨key, hr, _⟩ | ⟨_, _, hu, _⟩
      · cases hr
      · exact ⟨fun _ => hno, fun _ _ => hu⟩
  | unchanged hu hno =>
    rcases hrest with ⟨_, _, _, rfl⟩ | ⟨_, _, _, hkeys, _⟩
    · refine ⟨fun _ hlate => hno ⟨hlate.1, ?_⟩, fun _ _ => hu⟩
      exact hlate.2.imp id And.left
    · cases hkeys
  | changed hgen hwhy hchanged =>
    rcases hrest with ⟨_, _, rfl, rfl⟩ | ⟨_, _, _, hkeys, _⟩
    · refine ⟨fun hu => (hchanged (hu nofun)).elim, fun hno => (hno ⟨hgen, ?_⟩).elim⟩
      exact hwhy.imp id fun hc => ⟨hc.1, Or.inl hc.2⟩
    · cases hkeys

namespace Toy

def demoLib : DemoLib Bytes where
  toIssueLib := issueLib
  pbkdf2Hmac := storeCrypto.pbkdf2Hmac
  gcmEncrypt := storeCrypto.gcmEncrypt
  gcmDecrypt := storeCrypto.gcmDecrypt
  pemWritePkcs8PrivateKey := storeCrypto.pemWritePkcs8PrivateKey
  pemReadPrivateKey := storeCrypto.pemReadPrivateKey
  pemReadX509 b := (d2iX509 b).map Prod.fst
  pemWriteX509 := i2dCompositeCertificate
  i2dX509 := i2dCompositeCertificate

def path : CString := ⟨Bytes.ofAscii "demo.crt", by decide⟩

/-- A private directory with an SM2 key file alone. -/
def sm2Only : Dir Unit KeyFile := (Dir.empty .privateDirectory).create () .sm2PrivatePem

/-- A disk with an empty CA store and no certificates. -/
def disk (server encryption : Dir Unit KeyFile) : Disk where
  keyRoot := .privateDirectory
  store
    | .ca => .empty .privateDirectory
    | .server => server
    | .serverEncryption => encryption
  noEntry _ := true
  file _ := none

theorem disk_onDisk {server encryption : Dir Unit KeyFile} (hs : server.kind = .privateDirectory)
    (he : encryption.kind = .privateDirectory) (w : KeyDirectory) :
    OnDisk ((disk server encryption).store w) := by
  intro hk
  cases w with
  | ca => cases hk
  | server => rw [show server.kind = .missing from hk] at hs; cases hs
  | serverEncryption => rw [show encryption.kind = .missing from hk] at he; cases he

/-- Where the key root is there, `main` goes on to the stores. -/
theorem ensureKeyRoot_disk (server encryption : Dir Unit KeyFile) :
    Run (demoStep demoLib 0) (ensureKeyRoot defaultKeyRoot) (disk server encryption) true
      (disk server encryption) :=
  run_demo.mpr ⟨.privateDirectory, _, ⟨rfl, rfl⟩, .ret⟩

theorem cryptoSucceeds (x : UInt8) : CryptoSucceeds storeCrypto (saveArgs x) where
  selfTest := keypairSelfTest_pair (keyPair x) []
  pem := ⟨_, _, rfl, rfl⟩
  container hp := encryptDilithiumPayload_eq (saveArgs x) hp rfl rfl

/-- A pair is saved in an empty store. -/
theorem saveIn_saves (x : UInt8) {w : KeyDirectory} {s : Disk}
    (hw : s.store w = .empty .privateDirectory) :
    ∃ d', (∃ n, d'.entry .sm2PrivatePem = some (.file n)) ∧
      Run (demoStep demoLib 0) (saveIn demoLib w (privateKey x, publicKey x) passphrase) s true
        ((storeLens w).set s d') := by
  obtain ⟨d', hrun⟩ := save_run (i := ()) (d := Dir.empty .privateDirectory) (saveArgs x)
    (keyPair x) passphrase_valid rfl rfl rfl fun _ => rfl
  have hsaved := hybridKeyStoreSave_noFailure (fun _ _ => rfl) (cryptoSucceeds x) passphrase_valid
    (statusOf_missing.mpr fun _ => rfl) hrun
  rw [← hw] at hrun
  refine ⟨d', ?_, run_demo.mpr ⟨saveArgs x, s, ⟨⟨rfl, rfl, rfl, cryptoSucceeds x⟩, rfl⟩, ?_⟩⟩
  · rcases hsaved with ⟨_, _, hfiles⟩ | ⟨hr, _⟩
    · exact hfiles _
    · cases hr
  · exact inStore_run.mpr ⟨d', hrun, rfl⟩

/-- Where the CA and the server store are empty, both pairs are saved. -/
theorem provideKeys_saves (args : DemoArgs) (encryption : Dir Unit KeyFile) :
    ∃ ca server, (∃ n, ca.entry .sm2PrivatePem = some (.file n)) ∧
      Run (demoStep demoLib 0) (provideKeys demoLib 0 args passphrase)
        (disk (.empty .privateDirectory) encryption)
        (.ok ⟨(privateKey 1, publicKey 1), (privateKey 2, publicKey 2), none⟩)
        ((storeLens .server).set ((storeLens .ca).set
          (disk (.empty .privateDirectory) encryption) ca) server) := by
  obtain ⟨ca, hfile, hca⟩ := saveIn_saves 1 (w := .ca)
    (s := disk (.empty .privateDirectory) encryption) rfl
  obtain ⟨server, _, hserver⟩ := saveIn_saves 2 (w := .server)
    (s := (storeLens .ca).set (disk (.empty .privateDirectory) encryption) ca) rfl
  refine ⟨ca, server, hfile, ?_⟩
  refine run_bind.mpr ⟨_, _, inStore_status.mpr ⟨rfl, rfl⟩, ?_⟩
  refine run_bind.mpr ⟨_, _, inStore_status.mpr ⟨rfl, rfl⟩, ?_⟩
  refine run_demo.mpr ⟨some (privateKey 1, publicKey 1), _, ⟨rfl, rfl⟩, ?_⟩
  refine run_demo.mpr ⟨some (privateKey 2, publicKey 2), _, ⟨rfl, rfl⟩, ?_⟩
  exact run_bind.mpr ⟨true, _, hca, run_bind.mpr ⟨true, _, hserver, .ret⟩⟩

end Toy

/-- The condition is met by a run that finds an incomplete server store. -/
theorem refusal_unchanged_toy :
    Run (demoStep Toy.demoLib 0)
        (main Toy.demoLib 0 [Toy.path, Toy.path, Toy.path, Toy.path] (some Toy.passphrase))
        (Toy.disk Toy.sm2Only (.empty .privateDirectory)) (.failure .incomplete)
        (Toy.disk Toy.sm2Only (.empty .privateDirectory)) ∧
      ((Exit.failure .incomplete ≠ .success →
        DiskUnchanged (Toy.disk Toy.sm2Only (.empty .privateDirectory))
          (Toy.disk Toy.sm2Only (.empty .privateDirectory))) ↔
        ¬ LeavesKeys [Toy.path, Toy.path, Toy.path, Toy.path] (some Toy.passphrase)
          (Toy.disk Toy.sm2Only (.empty .privateDirectory))) := by
  have hrun : Run (demoStep Toy.demoLib 0)
      (main Toy.demoLib 0 [Toy.path, Toy.path, Toy.path, Toy.path] (some Toy.passphrase))
      (Toy.disk Toy.sm2Only (.empty .privateDirectory)) (.failure .incomplete)
      (Toy.disk Toy.sm2Only (.empty .privateDirectory)) := by
    refine run_bind.mpr ⟨true, _, Toy.ensureKeyRoot_disk _ _, ?_⟩
    refine run_bind.mpr ⟨.error .incomplete, _, ?_, .ret⟩
    refine run_bind.mpr ⟨_, _, inStore_status.mpr ⟨rfl, rfl⟩, ?_⟩
    exact run_bind.mpr ⟨_, _, inStore_status.mpr ⟨rfl, rfl⟩, .ret⟩
  exact ⟨hrun, refusal_unchanged_iff Toy.demoLib 0 _ _ (Toy.disk_onDisk rfl rfl) hrun⟩

/-- The CA and the server pair are saved, and then the encryption store is refused. -/
theorem refusal_leaves_keys :
    ¬ ∀ (argv : List CString) (passphrase : CString) (s s' : Disk) (exit : Exit),
      12 ≤ passphrase.strlen → (∀ w, OnDisk (s.store w)) →
      Run (demoStep Toy.demoLib 0) (main Toy.demoLib 0 argv (some passphrase)) s exit s' →
      exit ≠ .success → DiskUnchanged s s' := by
  intro hclaim
  let argv := [Toy.path, Toy.path, Toy.path, Toy.path, Toy.path, Toy.path]
  obtain ⟨ca, server, ⟨n, hn⟩, hkeys⟩ := Toy.provideKeys_saves
    ⟨Toy.path, Toy.path, Toy.path, Toy.path, some (Toy.path, Toy.path), defaultKeyRoot⟩ Toy.sm2Only
  have hrun : Run (demoStep Toy.demoLib 0) (main Toy.demoLib 0 argv (some Toy.passphrase))
      (Toy.disk (.empty .privateDirectory) Toy.sm2Only) (.failure .inconsistentEncryption)
      ((storeLens .server).set ((storeLens .ca).set
        (Toy.disk (.empty .privateDirectory) Toy.sm2Only) ca) server) := by
    refine run_bind.mpr ⟨true, _, Toy.ensureKeyRoot_disk _ _, ?_⟩
    refine run_bind.mpr ⟨_, _, hkeys, ?_⟩
    refine run_bind.mpr ⟨.error .inconsistentEncryption, _, ?_, .ret⟩
    exact run_demo.mpr ⟨.complete, _, ⟨rfl, rfl⟩, .ret⟩
  have hca : (((storeLens .server).set ((storeLens .ca).set
      (Toy.disk (.empty .privateDirectory) Toy.sm2Only) ca) server).store .ca).entry
        .sm2PrivatePem = some (.file n) := by
    rw [storeLens_ne (by decide), storeLens_self]
    exact hn
  have hsavable : Savable ((Toy.disk (.empty .privateDirectory) Toy.sm2Only).store .ca) :=
    ⟨nofun, fun _ => rfl⟩
  refine ca_changed hsavable hca ?_
  exact hclaim argv Toy.passphrase _ _ _ (by decide) (Toy.disk_onDisk rfl rfl) hrun nofun

end HybridPqc
