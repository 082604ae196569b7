import HybridPqc.Fs.Dir

/-!
# Fs.Change

What a program alone on a directory has done to it.

* `Extends d d'`: the files of `d` are still there, with their data.
* `Unchanged d d'`: and every name stands for what it stood for.
* `Created name n d d'`: and so does every name but `name`, which was free and now stands for the
  new file `n`.

The `run_…` lemmas say what one system call can have done at the start of a run.
-/

namespace Fs

open Conc

variable {ι Name : Type}

structure Extends (d d' : Dir ι Name) : Prop where
  kind : d'.kind = d.kind
  file : ∀ {n f}, d.file n = some f → d'.file n = some f

structure Unchanged (d d' : Dir ι Name) : Prop extends Extends d d' where
  entry : d'.entry = d.entry

structure Created (name : Name) (n : Nat) (d d' : Dir ι Name) : Prop extends Extends d d' where
  free : d.entry name = none
  entry : d'.entry name = some (.file n)
  new : d.file n = none
  others : ∀ {name'}, name' ≠ name → d'.entry name' = d.entry name'

section

variable {d d' d'' : Dir ι Name} {name : Name} {n : Nat}

theorem Extends.refl (d : Dir ι Name) : Extends d d := ⟨rfl, id⟩

theorem Extends.trans (h : Extends d d') (h' : Extends d' d'') : Extends d d'' :=
  ⟨h'.kind.trans h.kind, fun hf => h'.file (h.file hf)⟩

theorem Unchanged.refl (d : Dir ι Name) : Unchanged d d := ⟨.refl d, rfl⟩

theorem Created.append (h : Created name n d d') (x : Bytes) :
    Created name n d (d'.append n x) where
  kind := h.kind
  file {m f} hf := by
    have hm : m ≠ n := by
      rintro rfl
      rw [h.new] at hf
      cases hf
    exact (Dir.append_file_ne hm).trans (h.file hf)
  free := h.free
  entry := h.entry
  new := h.new
  others := h.others

variable [DecidableEq Name]

theorem Extends.unlink (h : Extends d d') (name : Name) : Extends d (d'.unlink name) :=
  ⟨h.kind, h.file⟩

theorem created_create {i : ι} (h : d.entry name = none) :
    Created name d.next d (d.create i name) where
  kind := rfl
  file hf := Dir.create_file_of_some hf
  free := h
  entry := Dir.create_entry_self ..
  new := d.fresh (Nat.le_refl _)
  others hn := Dir.create_entry_ne hn

/-- Unlinking the new file undoes its creation. -/
theorem Created.unlink (h : Created name n d d') : Unchanged d (d'.unlink name) where
  kind := h.kind
  file := h.file
  entry := by
    funext name'
    by_cases hn : name' = name
    · rw [hn, Dir.unlink_entry_self, h.free]
    · rw [Dir.unlink_entry_ne hn, h.others hn]

end

/-- Unlinking a free name does nothing. -/
theorem unlink_entry_of_free [DecidableEq Name] {d : Dir ι Name} {name : Name}
    (h : d.entry name = none) : (d.unlink name).entry = d.entry := by
  funext name'
  by_cases hn : name' = name
  · rw [hn, Dir.unlink_entry_self, h]
  · rw [Dir.unlink_entry_ne hn]

/-- Only `open` puts a file under a free name. -/
theorem step_entry_none [DecidableEq Name] {i : ι} {d d' : Dir ι Name} {name : Name}
    {op : Op Name} {r : op.Resp} (hop : op ≠ .createExcl name) (hs : step i op d r d')
    (h : d.entry name = none) : d'.entry name = none := by
  cases op with
  | lstatDir | access _ => obtain ⟨_, rfl⟩ := hs; exact h
  | mkdir => obtain ⟨_, rfl⟩ | ⟨_, _, rfl⟩ := hs <;> exact h
  | createExcl name' =>
    obtain ⟨_, rfl⟩ | ⟨_, _, rfl⟩ := hs
    · exact h
    · have hn : name ≠ name' := by
        rintro rfl
        exact hop rfl
      rw [Dir.create_entry_ne hn, h]
  | fdopen _ | fsync _ => cases hs; exact h
  | write _ _ => obtain ⟨_, rfl⟩ | ⟨_, _, _, _, rfl⟩ := hs <;> exact h
  | close _ _ => obtain ⟨_, _, _, rfl⟩ := hs; exact h
  | unlink name' =>
    cases hs
    by_cases hn : name = name'
    · rw [hn, Dir.unlink_entry_self]
    · rw [Dir.unlink_entry_ne hn, h]

/-! ## The first call of a run -/

section

variable [DecidableEq Name] {α : Type} {i : ι} {d d' : Dir ι Name} {a : α} {name : Name} {n : Nat}

theorem run_lstatDir {k : DirKind → Prog (sig Name) α} :
    Run (step i) (.call (S := sig Name) Op.lstatDir k) d a d' ↔ Run (step i) (k d.kind) d a d' := by
  simp [run_call, step]

theorem run_access {k : Bool → Prog (sig Name) α} :
    Run (step i) (.call (S := sig Name) (.access name) k) d a d' ↔
      Run (step i) (k (d.accessible name)) d a d' := by
  simp [run_call, step]

theorem run_createExcl {k : Option Nat → Prog (sig Name) α} :
    Run (step i) (.call (S := sig Name) (.createExcl name) k) d a d' ↔
      Run (step i) (k none) d a d' ∨
        d.entry name = none ∧ Run (step i) (k (some d.next)) (d.create i name) a d' := by
  rw [run_call]
  constructor
  · rintro ⟨r, d1, ⟨rfl, rfl⟩ | ⟨rfl, hfree, rfl⟩, h⟩
    · exact Or.inl h
    · exact Or.inr ⟨hfree, h⟩
  · rintro (h | ⟨hfree, h⟩)
    · exact ⟨none, d, Or.inl ⟨rfl, rfl⟩, h⟩
    · exact ⟨some d.next, _, Or.inr ⟨rfl, hfree, rfl⟩, h⟩

theorem run_fdopen {k : Bool → Prog (sig Name) α} :
    Run (step i) (.call (S := sig Name) (.fdopen n) k) d a d' ↔ ∃ r, Run (step i) (k r) d a d' := by
  simp [run_call, step]

theorem run_fsync {k : Bool → Prog (sig Name) α} :
    Run (step i) (.call (S := sig Name) (.fsync n) k) d a d' ↔ ∃ r, Run (step i) (k r) d a d' := by
  simp [run_call, step]

theorem run_unlink {k : Unit → Prog (sig Name) α} :
    Run (step i) (.call (S := sig Name) (.unlink name) k) d a d' ↔
      Run (step i) (k ()) (d.unlink name) a d' := by
  rw [run_call]
  constructor
  · rintro ⟨_, _, rfl, h⟩
    exact h
  · intro h
    exact ⟨(), _, rfl, h⟩

/-- A write, and a close, append something. -/
theorem run_write {data : Bytes} {k : Option Nat → Prog (sig Name) α}
    (h : Run (step i) (.call (S := sig Name) (.write n data) k) d a d') :
    Run (step i) (k none) d a d' ∨
      ∃ l x, 0 < l ∧ Run (step i) (k (some l)) (d.append n x) a d' := by
  obtain ⟨r, d1, ⟨rfl, rfl⟩ | ⟨l, hl, _, rfl, rfl⟩, hr⟩ := run_call.mp h
  · exact Or.inl hr
  · exact Or.inr ⟨l, _, hl, hr⟩

theorem run_close {buffered : Bytes} {k : Bool → Prog (sig Name) α}
    (h : Run (step i) (.call (S := sig Name) (.close n buffered) k) d a d') :
    ∃ r x, Run (step i) (k r) (d.append n x) a d' := by
  obtain ⟨r, d1, ⟨l, _, _, rfl⟩, hr⟩ := run_call.mp h
  exact ⟨r, _, hr⟩

theorem run_ret {b : α} : Run (step i) (.ret b) d a d' ↔ a = b ∧ d' = d := by
  constructor
  · intro h
    cases h
    exact ⟨rfl, rfl⟩
  · rintro ⟨rfl, rfl⟩
    exact .ret

end

end Fs
