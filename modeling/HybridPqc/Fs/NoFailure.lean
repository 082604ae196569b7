import HybridPqc.Fs.Change

/-!
# Fs.NoFailure

Runs in which no system call fails by itself. `mkdir` and `open` still answer with an error when
they find that the name is taken.
-/

namespace Fs

open Conc

variable {ι Name α : Type}

def Succeeds (op : Op Name) (d : Dir ι Name) (r : op.Resp) : Prop :=
  match op, r with
  | .mkdir, r => r = true ∨ d.kind ≠ .missing
  | .createExcl name, r => r = none → d.entry name ≠ none
  | .write _ _, r => r ≠ none
  | .fdopen _, r | .fsync _, r | .close _ _, r => r = true
  | .lstatDir, _ | .access _, _ | .unlink _, _ => True

def stepNoFailure [DecidableEq Name] (i : ι) : Sem (sig Name) (Dir ι Name) :=
  fun op d r d' => step i op d r d' ∧ Succeeds op d r

variable [DecidableEq Name] {i : ι} {d d' : Dir ι Name} {a : α} {name : Name} {n : Nat}

theorem run_of_noFailure {p : Prog (sig Name) α} (h : Run (stepNoFailure i) p d a d') :
    Run (step i) p d a d' :=
  Run.mono (fun _ _ _ _ hs => hs.1) h

theorem noFailure_lstatDir {k : DirKind → Prog (sig Name) α}
    (h : Run (stepNoFailure i) (.call (S := sig Name) Op.lstatDir k) d a d') :
    Run (stepNoFailure i) (k d.kind) d a d' := by
  obtain ⟨_, _, ⟨⟨rfl, rfl⟩, _⟩, h⟩ := run_call.mp h
  exact h

theorem noFailure_mkdir {k : Bool → Prog (sig Name) α} (hkind : d.kind = .missing)
    (h : Run (stepNoFailure i) (.call (S := sig Name) Op.mkdir k) d a d') :
    Run (stepNoFailure i) (k true) (d.setKind .privateDirectory) a d' := by
  obtain ⟨r, d1, ⟨⟨rfl, rfl⟩ | ⟨rfl, _, rfl⟩, hr⟩, h⟩ := run_call.mp h
  · rcases hr with hr | hr
    · cases hr
    · exact (hr hkind).elim
  · exact h

theorem noFailure_access {k : Bool → Prog (sig Name) α}
    (h : Run (stepNoFailure i) (.call (S := sig Name) (.access name) k) d a d') :
    Run (stepNoFailure i) (k (d.accessible name)) d a d' := by
  obtain ⟨_, _, ⟨⟨rfl, rfl⟩, _⟩, h⟩ := run_call.mp h
  exact h

theorem noFailure_createExcl {k : Option Nat → Prog (sig Name) α} (hfree : d.entry name = none)
    (h : Run (stepNoFailure i) (.call (S := sig Name) (.createExcl name) k) d a d') :
    Run (stepNoFailure i) (k (some d.next)) (d.create i name) a d' := by
  obtain ⟨r, d1, ⟨⟨rfl, rfl⟩ | ⟨rfl, _, rfl⟩, hr⟩, h⟩ := run_call.mp h
  · exact (hr rfl hfree).elim
  · exact h

theorem noFailure_fdopen {k : Bool → Prog (sig Name) α}
    (h : Run (stepNoFailure i) (.call (S := sig Name) (.fdopen n) k) d a d') :
    Run (stepNoFailure i) (k true) d a d' := by
  obtain ⟨_, _, ⟨rfl, rfl⟩, h⟩ := run_call.mp h
  exact h

theorem noFailure_fsync {k : Bool → Prog (sig Name) α}
    (h : Run (stepNoFailure i) (.call (S := sig Name) (.fsync n) k) d a d') :
    Run (stepNoFailure i) (k true) d a d' := by
  obtain ⟨_, _, ⟨rfl, rfl⟩, h⟩ := run_call.mp h
  exact h

theorem noFailure_write {data : Bytes} {k : Option Nat → Prog (sig Name) α}
    (h : Run (stepNoFailure i) (.call (S := sig Name) (.write n data) k) d a d') :
    ∃ l x, 0 < l ∧ Run (stepNoFailure i) (k (some l)) (d.append n x) a d' := by
  obtain ⟨r, d1, ⟨⟨rfl, rfl⟩ | ⟨l, hl, _, rfl, rfl⟩, hr⟩, h⟩ := run_call.mp h
  · exact (hr rfl).elim
  · exact ⟨l, _, hl, h⟩

theorem noFailure_close {buffered : Bytes} {k : Bool → Prog (sig Name) α}
    (h : Run (stepNoFailure i) (.call (S := sig Name) (.close n buffered) k) d a d') :
    ∃ x, Run (stepNoFailure i) (k true) (d.append n x) a d' := by
  obtain ⟨_, _, ⟨⟨_, _, _, rfl⟩, rfl⟩, h⟩ := run_call.mp h
  exact ⟨_, h⟩

end Fs
