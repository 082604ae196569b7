import HybridPqc.Bytes
import Mathlib.Data.List.Infix
import Mathlib.Logic.Function.Basic

/-!
# Fs.Stdio

Output streams. What `fwrite` takes waits in a buffer, part of it goes on to the file, and `fclose`
writes the rest or loses it. A `Plan` fixes the outcome of each call on one stream.

* `Progress`: one stream without its path: what has reached the file and what waits.
  `writeAll_prefix` says that the two are what has been taken so far, in order.
* `fwriteAll_eq`: the calls on a path do to its file what they do to the stream's progress, and
  nothing to any other file.
* `Plan.leaves_eq`: a file is complete exactly when all is taken and `fclose` gets rid of all that
  waits.
-/

namespace Stdio

/-- `fwrite` takes `taken` bytes of its data (all, or it fails), then `spilled` bytes of what waits
go on to the file. -/
structure WriteOutcome where
  taken : Nat
  spilled : Nat
  deriving DecidableEq, Repr

/-- Whether `fopen` succeeds, the outcome of the `k`-th `fwrite`, and how many bytes `fclose` still
gets to the file. -/
structure Plan where
  opens : Bool
  write : Nat → WriteOutcome
  flushed : Nat

/-- Every call does all it is asked to. -/
def Plan.perfect (total : Nat) : Plan := ⟨true, fun _ => ⟨total, 0⟩, total⟩

/-! ## One stream -/

structure Progress where
  reached : Bytes
  pending : Bytes
  deriving DecidableEq, Repr

namespace Progress

def write (p : Progress) (data : Bytes) (o : WriteOutcome) : Progress :=
  let pending := p.pending ++ data.take o.taken
  ⟨p.reached ++ pending.take o.spilled, pending.drop o.spilled⟩

/-- What the file holds when `fclose` gets `flushed` bytes to it. -/
def close (p : Progress) (flushed : Nat) : Bytes := p.reached ++ p.pending.take flushed

/-- The pieces in order, up to the first that is not taken whole. -/
def writeAll (outcome : Nat → WriteOutcome) : Nat → List Bytes → Progress → Bool × Progress
  | _, [], p => (true, p)
  | n, data :: pieces, p =>
    let p := p.write data (outcome n)
    if data.length ≤ (outcome n).taken then writeAll outcome (n + 1) pieces p else (false, p)

theorem write_bytes (p : Progress) (data : Bytes) (o : WriteOutcome) :
    (p.write data o).reached ++ (p.write data o).pending =
      p.reached ++ p.pending ++ data.take o.taken := by
  simp [write, List.append_assoc, List.take_append_drop]

section

variable {outcome : Nat → WriteOutcome}

variable (outcome) in
/-- By induction on the pieces: file and buffer together are a prefix of what was to be written. -/
theorem writeAll_prefix (n : Nat) (pieces : List Bytes) (p : Progress) :
    (writeAll outcome n pieces p).2.reached ++ (writeAll outcome n pieces p).2.pending <+:
      p.reached ++ p.pending ++ pieces.flatten := by
  induction pieces generalizing n p with
  | nil => simp [writeAll]
  | cons data pieces ih =>
    simp only [writeAll]
    by_cases h : data.length ≤ (outcome n).taken
    · rw [if_pos h]
      have hstep := ih (n + 1) (p.write data (outcome n))
      rw [write_bytes, List.take_of_length_le h] at hstep
      simpa using hstep
    · rw [if_neg h, write_bytes, List.flatten_cons, ← List.append_assoc]
      exact ((List.prefix_append_right_inj _).mpr (List.take_prefix _ _)).trans
        (List.prefix_append _ _)

/-- When all pieces are taken, it is everything. -/
theorem writeAll_all {n : Nat} {pieces : List Bytes} {p : Progress}
    (h : (writeAll outcome n pieces p).1 = true) :
    (writeAll outcome n pieces p).2.reached ++ (writeAll outcome n pieces p).2.pending =
      p.reached ++ p.pending ++ pieces.flatten := by
  induction pieces generalizing n p with
  | nil => simp [writeAll]
  | cons data pieces ih =>
    simp only [writeAll] at h ⊢
    by_cases hle : data.length ≤ (outcome n).taken
    · rw [if_pos hle] at h ⊢
      rw [ih h, write_bytes, List.take_of_length_le hle]
      simp
    · rw [if_neg hle] at h
      cases h

end

end Progress

namespace Plan

/-- All pieces of a new file are taken. -/
def takes (plan : Plan) (pieces : List Bytes) : Bool :=
  (Progress.writeAll plan.write 0 pieces ⟨[], []⟩).1

/-- `fclose` gets all that waits behind these pieces to the file. -/
def flushes (plan : Plan) (pieces : List Bytes) : Prop :=
  (Progress.writeAll plan.write 0 pieces ⟨[], []⟩).2.pending.length ≤ plan.flushed

instance (plan : Plan) (pieces : List Bytes) : Decidable (plan.flushes pieces) :=
  inferInstanceAs (Decidable (_ ≤ _))

/-- What the file holds after `fclose`. -/
def leaves (plan : Plan) (pieces : List Bytes) : Bytes :=
  (Progress.writeAll plan.write 0 pieces ⟨[], []⟩).2.close plan.flushed

variable {plan : Plan} {pieces : List Bytes}

theorem leaves_eq (h : plan.takes pieces = true) :
    plan.leaves pieces = pieces.flatten ↔ plan.flushes pieces := by
  have hall := Progress.writeAll_all h
  rw [List.append_nil, List.nil_append] at hall
  rw [leaves, Progress.close, ← hall, List.append_right_inj, List.take_eq_self_iff]
  rfl

/-- With perfect calls, and no more than `total` bytes, all is taken and nothing is lost. -/
theorem perfect_takes {total : Nat} (h : pieces.flatten.length ≤ total) :
    (perfect total).takes pieces = true := by
  have htakes : ∀ n p, (Progress.writeAll (perfect total).write n pieces p).1 = true := by
    induction pieces with
    | nil =>
      intro n p
      rfl
    | cons data pieces ih =>
      intro n p
      rw [List.flatten_cons, List.length_append] at h
      have hdata : data.length ≤ ((perfect total).write n).taken :=
        Nat.le_trans (Nat.le_add_right ..) h
      rw [Progress.writeAll, if_pos hdata]
      exact ih (by omega) (n + 1) _
  exact htakes 0 _

theorem perfect_flushes {total : Nat} (h : pieces.flatten.length ≤ total) :
    (perfect total).flushes pieces := by
  have hle := (Progress.writeAll_prefix (perfect total).write 0 pieces ⟨[], []⟩).length_le
  rw [List.append_nil, List.nil_append, List.length_append] at hle
  exact Nat.le_trans (Nat.le_trans (Nat.le_add_left ..) hle) h

end Plan

/-! ## Streams over files -/

abbrev Files (Path : Type) := Path → Option Bytes

structure Stream (Path : Type) where
  path : Path
  pending : Bytes

section

variable {Path : Type} [DecidableEq Path]

/-- `fopen(path, "wb")`: an open that succeeds leaves the file empty. -/
def fopenWb (files : Files Path) (path : Path) (opens : Bool) : Option (Stream Path) × Files Path :=
  if opens then (some ⟨path, []⟩, Function.update files path (some [])) else (none, files)

/-- Bytes go on to the file. -/
def append (files : Files Path) (path : Path) (b : Bytes) : Files Path :=
  Function.update files path ((files path).map (· ++ b))

def fwrite (files : Files Path) (s : Stream Path) (data : Bytes) (o : WriteOutcome) :
    Bool × Stream Path × Files Path :=
  let pending := s.pending ++ data.take o.taken
  (decide (data.length ≤ o.taken), ⟨s.path, pending.drop o.spilled⟩,
    append files s.path (pending.take o.spilled))

/-- The pieces in order, up to the first `fwrite` that fails. -/
def fwriteAll (outcome : Nat → WriteOutcome) :
    Nat → List Bytes → Files Path → Stream Path → Bool × Stream Path × Files Path
  | _, [], files, s => (true, s, files)
  | n, data :: pieces, files, s =>
    let (written, s, files) := fwrite files s data (outcome n)
    if written then fwriteAll outcome (n + 1) pieces files s else (false, s, files)

/-- `fclose`: its result, and the files. -/
def fclose (files : Files Path) (s : Stream Path) (flushed : Nat) : Bool × Files Path :=
  (decide (s.pending.length ≤ flushed), append files s.path (s.pending.take flushed))

variable {files : Files Path} {s : Stream Path} {reached : Bytes}

theorem append_eq (h : files s.path = some reached) (b : Bytes) :
    append files s.path b = Function.update files s.path (some (reached ++ b)) := by
  rw [append, h, Option.map_some]

/-- The calls on a path do to its file what they do to the stream's progress. -/
theorem fwriteAll_eq {outcome : Nat → WriteOutcome} (n : Nat) (pieces : List Bytes)
    (h : files s.path = some reached) :
    fwriteAll outcome n pieces files s =
      ((Progress.writeAll outcome n pieces ⟨reached, s.pending⟩).1,
        ⟨s.path, (Progress.writeAll outcome n pieces ⟨reached, s.pending⟩).2.pending⟩,
        Function.update files s.path
          (some (Progress.writeAll outcome n pieces ⟨reached, s.pending⟩).2.reached)) := by
  induction pieces generalizing n files s reached with
  | nil =>
    simp only [fwriteAll, Progress.writeAll, ← h, Function.update_eq_self]
  | cons data pieces ih =>
    simp only [fwriteAll, fwrite, Progress.writeAll, append_eq h, decide_eq_true_eq]
    by_cases hle : data.length ≤ (outcome n).taken
    · rw [if_pos hle, if_pos hle]
      let p := Progress.write ⟨reached, s.pending⟩ data (outcome n)
      have hself : Function.update files s.path (some p.reached) s.path = some p.reached :=
        Function.update_self ..
      have hrest := ih (n + 1) (s := ⟨s.path, p.pending⟩) hself
      rw [Function.update_idem] at hrest
      exact hrest
    · rw [if_neg hle, if_neg hle]
      rfl

end

end Stdio
