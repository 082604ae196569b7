import Mathlib.Data.Multiset.AddSub

/-!
# Refs.Arena

An allocator and the log of what was released. A handle is a number, handles from `next` on have not
been given out.

`Owns R` accounts for all of them: each handle given out is in `R` once and not in the log, or in
the log once and not in `R`. `malloc` puts a handle into `R` and `free` takes one out, so a program
keeps the account as long as it knows which handles it still holds.
-/

namespace Refs

structure Arena where
  next : Nat
  freed : List Nat

namespace Arena

def empty : Arena := ⟨0, []⟩

/-- A new handle, or `NULL`. -/
def malloc (A : Arena) (ok : Bool) : Option Nat × Arena :=
  if ok then (some A.next, ⟨A.next + 1, A.freed⟩) else (none, A)

def free (A : Arena) (h : Nat) : Arena := ⟨A.next, h :: A.freed⟩

/-- `free` of a pointer that may be `NULL`. -/
def freeOpt (A : Arena) : Option Nat → Arena
  | none => A
  | some h => A.free h

/-- Every handle given out is held or released, once. -/
def Owns (A : Arena) (R : Multiset Nat) : Prop :=
  ∀ h, A.freed.count h + R.count h = if h < A.next then 1 else 0

/-- The handles behind a pointer. -/
def held : Option Nat → Multiset Nat
  | none => 0
  | some h => {h}

@[simp] theorem held_none : held none = 0 := rfl
@[simp] theorem held_some (h : Nat) : held (some h) = {h} := rfl

variable {A : Arena} {R : Multiset Nat} {h : Nat}

theorem next_le_malloc (A : Arena) (ok : Bool) : A.next ≤ (A.malloc ok).2.next := by
  cases ok with
  | false => exact Nat.le_refl _
  | true => exact Nat.le_succ _

@[simp] theorem freeOpt_next (A : Arena) (p : Option Nat) : (A.freeOpt p).next = A.next := by
  cases p with
  | none => rfl
  | some h => rfl

theorem owns_empty : empty.Owns 0 := by
  intro h
  simp [empty]

theorem Owns.malloc (hA : A.Owns R) (ok : Bool) :
    (A.malloc ok).2.Owns (held (A.malloc ok).1 + R) := by
  cases ok with
  | false => simpa [Arena.malloc] using hA
  | true =>
    intro h
    have hR := hA h
    simp only [Arena.malloc, if_true, held_some, Multiset.count_add, Multiset.count_singleton]
    by_cases hh : h = A.next
    · simp only [hh, Nat.lt_irrefl, if_false, if_true, Nat.lt_succ_self] at hR ⊢
      omega
    · simp only [hh, if_false, Nat.zero_add, hR]
      by_cases hlt : h < A.next
      · simp [hlt, Nat.lt_succ_of_lt hlt]
      · simp [hlt, show ¬ h < A.next + 1 by omega]

theorem Owns.free (hA : A.Owns ({h} + R)) : (A.free h).Owns R := by
  intro k
  have hR := hA k
  simp only [Multiset.count_add, Multiset.count_singleton] at hR
  simp only [Arena.free, List.count_cons, beq_iff_eq]
  by_cases hk : k = h
  · simp only [hk, if_true] at hR ⊢
    omega
  · have hk' : ¬ h = k := fun heq => hk heq.symm
    simp only [hk, hk', if_false, Nat.zero_add] at hR ⊢
    exact hR

theorem Owns.freeOpt {p : Option Nat} (hA : A.Owns (held p + R)) : (A.freeOpt p).Owns R := by
  cases p with
  | none => simpa [Arena.freeOpt] using hA
  | some h => exact Owns.free hA

/-- What is held has not been released. -/
theorem Owns.not_freed (hA : A.Owns R) (hh : h ∈ R) : h ∉ A.freed := by
  intro hf
  have hR := hA h
  have h1 := Multiset.count_pos.mpr hh
  have h2 := List.count_pos_iff.mpr hf
  split at hR <;> omega

/-- What was given out and is no longer held has been released once. -/
theorem Owns.freed_once (hA : A.Owns R) (hlt : h < A.next) (hh : h ∉ R) : A.freed.count h = 1 := by
  have hR := hA h
  rw [Multiset.count_eq_zero_of_notMem hh, if_pos hlt] at hR
  exact hR

/-- Each handle given out, by whether it is still held. -/
theorem Owns.count_freed (hA : A.Owns R) (hlt : h < A.next) :
    A.freed.count h = if h ∈ R then 0 else 1 := by
  by_cases hh : h ∈ R
  · rw [if_pos hh]
    exact List.count_eq_zero.mpr (hA.not_freed hh)
  · rw [if_neg hh]
    exact hA.freed_once hlt hh

/-- A handle that has not been given out is not held. -/
theorem Owns.notMem (hA : A.Owns R) (hle : A.next ≤ h) : h ∉ R := by
  intro hh
  have hR := hA h
  have h1 := Multiset.count_pos.mpr hh
  rw [if_neg (by omega)] at hR
  omega

/-- What a program has allocated and does not hold when it is done, it has released, once. -/
theorem Owns.released {A' : Arena} (hA : A.Owns R) (hA' : A'.Owns R) (hle : A.next ≤ h)
    (hlt : h < A'.next) : A'.freed.count h = 1 :=
  hA'.freed_once hlt (hA.notMem hle)

end Arena

end Refs
