import HybridPqc.Bytes
import HybridPqc.Conc.Prog

/-!
# Fs.Dir

One directory of a POSIX file system: names, inodes and the system calls on them, as the operations
of `Conc.Prog` programs. `Name` is the type of the file names in use, `ι` that of the threads.

A `Dir` carries what makes it a directory: numbers from `next` on are free, and a name that stands
for a file stands for one that exists. A file outlives its names: a descriptor keeps writing to an
unlinked inode.

Each file remembers which thread created it. No operation reads this; it is there to say what a
thread may touch. `Keeps P i` is the rely of thread `i`: its files, and those of its names that `P`
protects, stay as they are. `step_keeps` is the guarantee: an operation that writes only to own
files and unlinks no protected name of another thread's file is within every other thread's rely.
-/

namespace Fs

structure File (ι : Type) where
  data : Bytes
  /-- `(mode & 0077) == 0` -/
  isPrivate : Bool
  creator : Option ι
  deriving DecidableEq

inductive Entry where
  | file (ino : Nat)
  /-- A symbolic link to a place outside the directory that does or does not exist. -/
  | symlink (resolves : Bool)
  deriving DecidableEq

/-- What `lstat` says about the directory itself. -/
inductive DirKind where
  | missing
  | privateDirectory
  | other
  deriving DecidableEq

structure Dir (ι Name : Type) where
  kind : DirKind
  entry : Name → Option Entry
  file : Nat → Option (File ι)
  next : Nat
  fresh : ∀ {n}, next ≤ n → file n = none
  linked : ∀ {name n}, entry name = some (.file n) → ∃ f, file n = some f

namespace Dir

variable {ι Name : Type}

/-- A directory without files, of the given kind. -/
def empty (kind : DirKind) : Dir ι Name where
  kind
  entry _ := none
  file _ := none
  next := 0
  fresh _ := rfl
  linked h := by cases h

/-- `access(name, F_OK) == 0`, which follows links. -/
def accessible (d : Dir ι Name) (name : Name) : Bool :=
  match d.entry name with
  | none => false
  | some (.file _) => true
  | some (.symlink resolves) => resolves

/-- The regular file a name stands for, as `lstat` sees it. -/
def fileAt (d : Dir ι Name) (name : Name) : Option (File ι) :=
  match d.entry name with
  | some (.file n) => d.file n
  | _ => none

def setKind (d : Dir ι Name) (kind : DirKind) : Dir ι Name := { d with kind }

/-- The next bytes of a file that is written front to back. -/
def append (d : Dir ι Name) (ino : Nat) (data : Bytes) : Dir ι Name where
  kind := d.kind
  entry := d.entry
  file n := if n = ino then (d.file n).map fun f => { f with data := f.data ++ data } else d.file n
  next := d.next
  fresh {n} h := by simp [d.fresh h]
  linked {name n} h := by
    obtain ⟨f, hf⟩ := d.linked h
    split
    · exact ⟨_, by rw [hf]; rfl⟩
    · exact ⟨f, hf⟩

theorem fileAt_of_entry {d : Dir ι Name} {name : Name} {n : Nat}
    (h : d.entry name = some (.file n)) : d.fileAt name = d.file n := by
  simp [fileAt, h]

theorem fileAt_some {d : Dir ι Name} {name : Name} {f : File ι} (h : d.fileAt name = some f) :
    ∃ n, d.entry name = some (.file n) ∧ d.file n = some f := by
  simp only [fileAt] at h
  split at h
  · rename_i n hn; exact ⟨n, hn, h⟩
  · cases h

theorem append_file_self {d : Dir ι Name} {ino : Nat} {data : Bytes} {f : File ι}
    (h : d.file ino = some f) :
    (d.append ino data).file ino = some { f with data := f.data ++ data } := by
  simp [append, h]

theorem append_file_ne {d : Dir ι Name} {ino n : Nat} {data : Bytes} (h : n ≠ ino) :
    (d.append ino data).file n = d.file n := by
  simp [append, h]

section

variable [DecidableEq Name]

/-- `name` now stands for a new file. -/
def put (d : Dir ι Name) (name : Name) (f : File ι) : Dir ι Name where
  kind := d.kind
  entry := Function.update d.entry name (some (.file d.next))
  file := Function.update d.file d.next (some f)
  next := d.next + 1
  fresh {n} h := by
    rw [Function.update_of_ne (by omega)]
    exact d.fresh (by omega)
  linked {name' n} h := by
    by_cases hn : n = d.next
    · exact ⟨_, by rw [hn, Function.update_self]⟩
    · rw [Function.update_of_ne hn]
      by_cases hname : name' = name
      · rw [hname, Function.update_self] at h
        cases h; exact (hn rfl).elim
      · rw [Function.update_of_ne hname] at h
        exact d.linked h

/-- A new empty file of mode 0600 under `name`. -/
def create (d : Dir ι Name) (i : ι) (name : Name) : Dir ι Name := d.put name ⟨[], true, some i⟩

def unlink (d : Dir ι Name) (name : Name) : Dir ι Name where
  kind := d.kind
  entry := Function.update d.entry name none
  file := d.file
  next := d.next
  fresh := d.fresh
  linked {name' n} h := by
    by_cases hname : name' = name
    · rw [hname, Function.update_self] at h; cases h
    · rw [Function.update_of_ne hname] at h
      exact d.linked h

theorem put_entry_ne {d : Dir ι Name} {f : File ι} {name name' : Name} (h : name' ≠ name) :
    (d.put name f).entry name' = d.entry name' := Function.update_of_ne h ..

theorem put_file_of_some {d : Dir ι Name} {f f' : File ι} {name : Name} {n : Nat}
    (h : d.file n = some f') : (d.put name f).file n = some f' := by
  have hn : n ≠ d.next := by
    rintro rfl
    rw [d.fresh (Nat.le_refl _)] at h
    cases h
  exact (Function.update_of_ne hn ..).trans h

@[simp] theorem put_fileAt_self (d : Dir ι Name) (f : File ι) (name : Name) :
    (d.put name f).fileAt name = some f := by
  simp [fileAt, put]

theorem put_fileAt_ne {d : Dir ι Name} {f : File ι} {name name' : Name} (h : name' ≠ name) :
    (d.put name f).fileAt name' = d.fileAt name' := by
  simp only [fileAt, put_entry_ne h]
  split
  · rename_i n hn
    obtain ⟨f', hf'⟩ := d.linked hn
    rw [put_file_of_some hf', hf']
  · rfl

@[simp] theorem create_entry_self (d : Dir ι Name) (i : ι) (name : Name) :
    (d.create i name).entry name = some (.file d.next) := Function.update_self ..

theorem create_entry_ne {d : Dir ι Name} {i : ι} {name name' : Name} (h : name' ≠ name) :
    (d.create i name).entry name' = d.entry name' := put_entry_ne h

@[simp] theorem create_file_next (d : Dir ι Name) (i : ι) (name : Name) :
    (d.create i name).file d.next = some ⟨[], true, some i⟩ := Function.update_self ..

theorem create_file_of_some {d : Dir ι Name} {i : ι} {name : Name} {n : Nat} {f : File ι}
    (h : d.file n = some f) : (d.create i name).file n = some f := put_file_of_some h

@[simp] theorem unlink_entry_self (d : Dir ι Name) (name : Name) :
    (d.unlink name).entry name = none := Function.update_self ..

theorem unlink_entry_ne {d : Dir ι Name} {name name' : Name} (h : name' ≠ name) :
    (d.unlink name).entry name' = d.entry name' := Function.update_of_ne h ..

theorem unlink_fileAt_ne {d : Dir ι Name} {name name' : Name} (h : name' ≠ name) :
    (d.unlink name).fileAt name' = d.fileAt name' := by
  simp only [fileAt, unlink_entry_ne h]
  rfl

@[simp] theorem unlink_fileAt_self (d : Dir ι Name) (name : Name) :
    (d.unlink name).fileAt name = none := by
  simp [fileAt]

end

end Dir

/-! ## System calls -/

/-- Descriptors and streams are named by the inode they are open on. -/
inductive Op (Name : Type) where
  /-- `lstat` of the directory -/
  | lstatDir
  /-- `mkdir` of the directory with mode 0700 -/
  | mkdir
  /-- `access(name, F_OK)` -/
  | access (name : Name)
  /-- `open(name, O_WRONLY | O_CREAT | O_EXCL | O_NOFOLLOW, 0600)` -/
  | createExcl (name : Name)
  /-- `fdopen` -/
  | fdopen (ino : Nat)
  /-- One `write` -/
  | write (ino : Nat) (data : Bytes)
  | fsync (ino : Nat)
  /-- `close`, or `fclose` of a stream that still buffers `buffered` -/
  | close (ino : Nat) (buffered : Bytes)
  | unlink (name : Name)

/-- `none` is a failed `open`, a `write` that returned at most 0; `false` is any other failure. -/
abbrev Op.Resp {Name : Type} : Op Name → Type
  | .lstatDir => DirKind
  | .createExcl _ => Option Nat
  | .write _ _ => Option Nat
  | .unlink _ => Unit
  | .mkdir | .access _ | .fdopen _ | .fsync _ | .close _ _ => Bool

abbrev sig (Name : Type) : Conc.Sig := ⟨Op Name, Op.Resp⟩

section

variable {Name : Type}

def lstatDir : Conc.Prog (sig Name) DirKind := .perform (S := sig Name) Op.lstatDir
def mkdir : Conc.Prog (sig Name) Bool := .perform (S := sig Name) Op.mkdir
def access (name : Name) : Conc.Prog (sig Name) Bool := .perform (S := sig Name) (.access name)
def createExcl (name : Name) : Conc.Prog (sig Name) (Option Nat) :=
  .perform (S := sig Name) (.createExcl name)
def fdopen (ino : Nat) : Conc.Prog (sig Name) Bool := .perform (S := sig Name) (.fdopen ino)
def write (ino : Nat) (data : Bytes) : Conc.Prog (sig Name) (Option Nat) :=
  .perform (S := sig Name) (.write ino data)
def fsync (ino : Nat) : Conc.Prog (sig Name) Bool := .perform (S := sig Name) (.fsync ino)
def close (ino : Nat) (buffered : Bytes) : Conc.Prog (sig Name) Bool :=
  .perform (S := sig Name) (.close ino buffered)
def unlink (name : Name) : Conc.Prog (sig Name) Unit := .perform (S := sig Name) (.unlink name)

variable {α : Type}

@[simp] theorem lstatDir_bind (f : DirKind → Conc.Prog (sig Name) α) :
    (lstatDir >>= f) = .call (S := sig Name) Op.lstatDir f := rfl
@[simp] theorem mkdir_bind (f : Bool → Conc.Prog (sig Name) α) :
    (mkdir >>= f) = .call (S := sig Name) Op.mkdir f := rfl
@[simp] theorem access_bind (name : Name) (f : Bool → Conc.Prog (sig Name) α) :
    (access name >>= f) = .call (S := sig Name) (.access name) f := rfl
@[simp] theorem createExcl_bind (name : Name) (f : Option Nat → Conc.Prog (sig Name) α) :
    (createExcl name >>= f) = .call (S := sig Name) (.createExcl name) f := rfl
@[simp] theorem fdopen_bind (ino : Nat) (f : Bool → Conc.Prog (sig Name) α) :
    (fdopen ino >>= f) = .call (S := sig Name) (.fdopen ino) f := rfl
@[simp] theorem write_bind (ino : Nat) (data : Bytes) (f : Option Nat → Conc.Prog (sig Name) α) :
    (write ino data >>= f) = .call (S := sig Name) (.write ino data) f := rfl
@[simp] theorem fsync_bind (ino : Nat) (f : Bool → Conc.Prog (sig Name) α) :
    (fsync ino >>= f) = .call (S := sig Name) (.fsync ino) f := rfl
@[simp] theorem close_bind (ino : Nat) (buffered : Bytes) (f : Bool → Conc.Prog (sig Name) α) :
    (close ino buffered >>= f) = .call (S := sig Name) (.close ino buffered) f := rfl
@[simp] theorem unlink_bind (name : Name) (f : Unit → Conc.Prog (sig Name) α) :
    (unlink name >>= f) = .call (S := sig Name) (.unlink name) f := rfl

end

section

variable {ι Name : Type}

/-- What a system call of thread `i` may answer and do. `mkdir`, `open`, `fdopen`, `write`, `fsync`
and `close` may fail at any time, a `write` may be short, and closing a stream may lose the end of
what it buffers. -/
def step [DecidableEq Name] (i : ι) : Conc.Sem (sig Name) (Dir ι Name)
  | .lstatDir, d, r, d' => r = d.kind ∧ d' = d
  | .mkdir, d, r, d' =>
    (r = false ∧ d' = d) ∨ (r = true ∧ d.kind = .missing ∧ d' = d.setKind .privateDirectory)
  | .access name, d, r, d' => r = d.accessible name ∧ d' = d
  | .createExcl name, d, r, d' =>
    (r = none ∧ d' = d) ∨ (r = some d.next ∧ d.entry name = none ∧ d' = d.create i name)
  | .fdopen _, d, _, d' => d' = d
  | .write ino data, d, r, d' =>
    (r = none ∧ d' = d) ∨
      ∃ k, 0 < k ∧ k ≤ data.length ∧ r = some k ∧ d' = d.append ino (data.take k)
  | .fsync _, d, _, d' => d' = d
  | .close ino buffered, d, r, d' =>
    ∃ k, k ≤ buffered.length ∧ (r = true → k = buffered.length) ∧
      d' = d.append ino (buffered.take k)
  | .unlink name, d, _, d' => d' = d.unlink name

/-! ## Ownership -/

/-- The files of thread `i`, and the protected names that stand for them, stay as they are; so does
a private directory. -/
structure Keeps (P : Name → Prop) (i : ι) (d d' : Dir ι Name) : Prop where
  kind : d.kind = .privateDirectory → d'.kind = .privateDirectory
  file : ∀ {n f}, d.file n = some f → f.creator = some i → d'.file n = some f
  entry : ∀ {name n f}, P name → d.entry name = some (.file n) → d.file n = some f →
    f.creator = some i → d'.entry name = some (.file n)

/-- `name` does not stand for a file that another thread created. -/
def Spares (i : ι) (name : Name) (d : Dir ι Name) : Prop :=
  ∀ n f j, d.entry name = some (.file n) → d.file n = some f → f.creator = some j → j = i

variable {P : Name → Prop} {i j : ι} {d d' d'' : Dir ι Name}

theorem Keeps.refl : Keeps P i d d := ⟨id, fun h _ => h, fun _ h _ _ => h⟩

theorem Keeps.trans (h : Keeps P i d d') (h' : Keeps P i d' d'') : Keeps P i d d'' :=
  ⟨fun hk => h'.kind (h.kind hk), fun hf hc => h'.file (h.file hf hc) hc,
    fun hP he hf hc => h'.entry hP (h.entry hP he hf hc) (h.file hf hc) hc⟩

/-- The operation writes to no file of another thread, and unlinks no protected name of one. -/
def Respects (P : Name → Prop) (i : ι) (op : Op Name) (d : Dir ι Name) : Prop :=
  match op with
  | .write ino _ | .close ino _ => ∀ f, d.file ino = some f → f.creator = some i
  | .unlink name => P name → Spares i name d
  | _ => True

theorem keeps_append {ino : Nat} {data : Bytes}
    (h : ∀ f, d.file ino = some f → f.creator = some i) (hj : j ≠ i) :
    Keeps P j d (d.append ino data) := by
  refine ⟨id, fun {n f} hf hc => ?_, fun _ he _ _ => he⟩
  have hn : n ≠ ino := by
    rintro rfl
    have := (h f hf).symm.trans hc
    exact hj (Option.some.inj this).symm
  rw [Dir.append_file_ne hn]
  exact hf

/-- No file of the directory is another thread's. -/
def Alone (i : ι) (d : Dir ι Name) : Prop :=
  ∀ n f j, d.file n = some f → f.creator = some j → j = i

theorem alone_empty {kind : DirKind} : Alone i (.empty kind : Dir ι Name) := by
  intro n f j hf
  cases hf

theorem Alone.spares (h : Alone i d) (name : Name) : Spares i name d :=
  fun n f j _ hf hc => h n f j hf hc

theorem Alone.append (h : Alone i d) (ino : Nat) (data : Bytes) : Alone i (d.append ino data) := by
  intro n f j hf hc
  simp only [Dir.append] at hf
  split at hf
  · obtain ⟨f', hf', rfl⟩ := Option.map_eq_some_iff.mp hf
    exact h n f' j hf' hc
  · exact h n f j hf hc

theorem Alone.create [DecidableEq Name] (h : Alone i d) (name : Name) :
    Alone i (d.create i name) := by
  intro n f j hf hc
  by_cases hn : n = d.next
  · subst hn
    rw [Dir.create_file_next] at hf
    cases hf
    exact (Option.some.inj hc).symm
  · exact h n f j ((Function.update_of_ne hn ..).symm.trans hf) hc

/-- What a thread does on its own makes no other thread's file. -/
theorem Alone.step [DecidableEq Name] {op : Op Name} {r : op.Resp} (h : Alone i d)
    (hs : step i op d r d') : Alone i d' := by
  cases op with
  | lstatDir | access _ => obtain ⟨_, rfl⟩ := hs; exact h
  | mkdir =>
    obtain ⟨_, rfl⟩ | ⟨_, _, rfl⟩ := hs
    · exact h
    · exact h
  | createExcl name =>
    obtain ⟨_, rfl⟩ | ⟨_, _, rfl⟩ := hs
    · exact h
    · exact h.create name
  | fdopen _ | fsync _ | unlink _ => cases hs; exact h
  | write ino data =>
    obtain ⟨_, rfl⟩ | ⟨_, _, _, _, rfl⟩ := hs
    · exact h
    · exact h.append ino _
  | close ino buffered => obtain ⟨_, _, _, rfl⟩ := hs; exact h.append ino _

/-- No operation makes a private directory anything else. -/
theorem step_kind [DecidableEq Name] {op : Op Name} {r : op.Resp} (hs : step i op d r d')
    (hk : d.kind = .privateDirectory) : d'.kind = .privateDirectory := by
  cases op with
  | lstatDir | access _ => obtain ⟨_, rfl⟩ := hs; exact hk
  | mkdir =>
    obtain ⟨_, rfl⟩ | ⟨_, _, rfl⟩ := hs
    · exact hk
    · rfl
  | createExcl name =>
    obtain ⟨_, rfl⟩ | ⟨_, _, rfl⟩ := hs
    · exact hk
    · exact hk
  | fdopen _ | fsync _ | unlink _ => cases hs; exact hk
  | write ino data =>
    obtain ⟨_, rfl⟩ | ⟨_, _, _, _, rfl⟩ := hs
    · exact hk
    · exact hk
  | close ino buffered => obtain ⟨_, _, _, rfl⟩ := hs; exact hk

/-- A respectful operation is within every other thread's rely. -/
theorem step_keeps [DecidableEq Name] {op : Op Name} {r : op.Resp} (hs : step i op d r d')
    (h : Respects P i op d) (hj : j ≠ i) : Keeps P j d d' := by
  cases op with
  | lstatDir => obtain ⟨_, rfl⟩ := hs; exact .refl
  | mkdir =>
    obtain ⟨_, rfl⟩ | ⟨_, _, rfl⟩ := hs
    · exact .refl
    · exact ⟨fun _ => rfl, fun h _ => h, fun _ h _ _ => h⟩
  | access name => obtain ⟨_, rfl⟩ := hs; exact .refl
  | createExcl name =>
    obtain ⟨_, rfl⟩ | ⟨_, hnone, rfl⟩ := hs
    · exact .refl
    · refine ⟨id, fun hf _ => Dir.create_file_of_some hf, fun {name' n f} _ he _ _ => ?_⟩
      have hname : name' ≠ name := by rintro rfl; rw [hnone] at he; cases he
      rw [Dir.create_entry_ne hname]; exact he
  | fdopen ino => cases hs; exact .refl
  | write ino data =>
    obtain ⟨_, rfl⟩ | ⟨k, _, _, _, rfl⟩ := hs
    · exact .refl
    · exact keeps_append h hj
  | fsync ino => cases hs; exact .refl
  | close ino buffered =>
    obtain ⟨k, _, _, rfl⟩ := hs
    exact keeps_append h hj
  | unlink name =>
    cases hs
    refine ⟨id, fun hf _ => hf, fun {name' n f} hP he hf hc => ?_⟩
    have hname : name' ≠ name := by
      rintro rfl
      exact hj (h hP n f j he hf hc)
    rw [Dir.unlink_entry_ne hname]; exact he

end

end Fs
