import HybridPqc.Refs.Arena
import HybridPqc.Refs.Heap
import Mathlib.Algebra.BigOperators.Group.Finset.Basic

/-!
# Refs.Pool

Reference counts against the references a program holds.

A `Pool` is a heap of counted objects that remembers whether an operation was given a handle whose
object was gone. `Balanced R` says that this never happened and that each count is the number of
times the handle is in `R`. An operation that takes a reference puts it into `R` and one that drops
a reference takes it out of `R`, so a program that knows its references keeps the balance.

`Keeps` says that an object does not change its value as long as it lives. `slotRefs` are the
references that a table of pointers holds; `slotRefs_update` is what a store into one of them does.
-/

namespace Refs

open Arena (held)

structure Pool (α : Type) where
  heap : Heap α
  dangling : Bool

namespace Pool

variable {α : Type}

def empty : Pool α := ⟨.empty, false⟩

def live (P : Pool α) (h : Nat) : Bool := (P.heap.obj h).isSome

/-- A new object, with one reference. -/
def make (P : Pool α) (v : α) : Nat × Pool α := (P.heap.next, ⟨P.heap.alloc v, P.dangling⟩)

/-- The pointer a call leaves in an output argument: a new object or `NULL`. -/
def makeOpt (P : Pool α) : Option α → Option Nat × Pool α
  | none => (none, P)
  | some v => (some (P.make v).1, (P.make v).2)

def upRef (P : Pool α) (h : Nat) : Pool α := ⟨P.heap.upRef h, P.dangling || !P.live h⟩

def free (P : Pool α) (h : Nat) : Pool α := ⟨P.heap.release h, P.dangling || !P.live h⟩

/-- `free` of a pointer that may be `NULL`. -/
def freeOpt (P : Pool α) : Option Nat → Pool α
  | none => P
  | some h => P.free h

@[simp] theorem freeOpt_none (P : Pool α) : P.freeOpt none = P := rfl
@[simp] theorem freeOpt_some (P : Pool α) (h : Nat) : P.freeOpt (some h) = P.free h := rfl

/-! ## The balance -/

/-- Every count is the number of references in `R`. -/
structure Balanced (P : Pool α) (R : Multiset Nat) : Prop where
  sound : P.dangling = false
  count : ∀ h, P.heap.count h = R.count h

variable {P P' : Pool α} {R : Multiset Nat} {h : Nat} {v : α}

theorem mem_held_add (h : Nat) (R : Multiset Nat) : h ∈ held (some h) + R :=
  Multiset.mem_add.mpr (Or.inl (Multiset.mem_singleton_self h))

theorem balanced_empty : (empty : Pool α).Balanced 0 where
  sound := rfl
  count _ := rfl

theorem Balanced.live_iff (hP : P.Balanced R) : P.live h = true ↔ h ∈ R := by
  rw [live, ← Heap.count_pos, hP.count, Multiset.count_pos]

theorem Balanced.notMem_next (hP : P.Balanced R) : P.heap.next ∉ R := by
  rw [← hP.live_iff, live, P.heap.fresh (Nat.le_refl _)]
  exact Bool.false_ne_true

theorem Balanced.make (hP : P.Balanced R) (v : α) :
    (P.make v).2.Balanced ({(P.make v).1} + R) where
  sound := hP.sound
  count h := by
    simp only [Pool.make, Multiset.count_add, Multiset.count_singleton]
    by_cases hh : h = P.heap.next
    · rw [hh, if_pos rfl, Multiset.count_eq_zero_of_notMem hP.notMem_next]
      simp [Heap.count]
    · rw [if_neg hh, Nat.zero_add, ← hP.count]
      exact Heap.count_congr (Heap.alloc_obj_ne hh)

theorem Balanced.makeOpt (hP : P.Balanced R) (v : Option α) :
    (P.makeOpt v).2.Balanced (held (P.makeOpt v).1 + R) := by
  cases v with
  | none => simpa [Pool.makeOpt] using hP
  | some v => exact hP.make v

/-- A reference is taken through one that is held. -/
theorem Balanced.upRef (hP : P.Balanced R) (hh : h ∈ R) : (P.upRef h).Balanced ({h} + R) where
  sound := by
    simp [Pool.upRef, hP.sound, hP.live_iff.mpr hh]
  count k := by
    rw [Multiset.count_add, Multiset.count_singleton, ← hP.count]
    by_cases hk : k = h
    · rw [hk, if_pos rfl, Nat.add_comm]
      exact Heap.count_upRef (hP.live_iff.mpr hh)
    · rw [if_neg hk, Nat.zero_add]
      exact Heap.count_congr (Heap.upRef_obj_ne hk)

theorem Balanced.free (hP : P.Balanced ({h} + R)) : (P.free h).Balanced R where
  sound := by
    simp [Pool.free, hP.sound, hP.live_iff.mpr (mem_held_add h R)]
  count k := by
    have hk := hP.count k
    rw [Multiset.count_add, Multiset.count_singleton] at hk
    by_cases he : k = h
    · subst he
      rw [if_pos rfl] at hk
      simp only [Pool.free, Heap.count_release]
      omega
    · rw [if_neg he, Nat.zero_add] at hk
      rw [← hk]
      exact Heap.count_congr (Heap.release_obj_ne he)

theorem Balanced.freeOpt {p : Option Nat} (hP : P.Balanced (held p + R)) :
    (P.freeOpt p).Balanced R := by
  cases p with
  | none => simpa using hP
  | some h => exact hP.free

/-! ## Values -/

theorem Balanced.exists_deref (hP : P.Balanced R) (hh : h ∈ R) :
    ∃ v, P.heap.deref h = some v := by
  obtain ⟨p, hobj⟩ := Option.isSome_iff_exists.mp (hP.live_iff.mpr hh)
  exact ⟨p.1, by rw [Heap.deref, hobj, Option.map_some]⟩

/-- What lives on is the same object. -/
def Keeps (P P' : Pool α) : Prop :=
  P.heap.next ≤ P'.heap.next ∧
    ∀ h v, h < P.heap.next → P'.heap.deref h = some v → P.heap.deref h = some v

theorem Keeps.refl (P : Pool α) : P.Keeps P := ⟨Nat.le_refl _, fun _ _ _ hv => hv⟩

theorem Keeps.trans {P'' : Pool α} (h1 : P.Keeps P') (h2 : P'.Keeps P'') : P.Keeps P'' := by
  refine ⟨Nat.le_trans h1.1 h2.1, ?_⟩
  intro h v hlt hv
  exact h1.2 h v hlt (h2.2 h v (Nat.lt_of_lt_of_le hlt h1.1) hv)

theorem keeps_make (P : Pool α) (v : α) : P.Keeps (P.make v).2 := by
  refine ⟨Nat.le_succ _, ?_⟩
  intro h w hlt hw
  rw [Heap.deref, make, Heap.alloc_obj_ne (Nat.ne_of_lt hlt)] at hw
  exact hw

theorem keeps_makeOpt (P : Pool α) (v : Option α) : P.Keeps (P.makeOpt v).2 := by
  cases v with
  | none => exact .refl P
  | some v => exact keeps_make P v

@[simp] theorem make_deref (P : Pool α) (v : α) :
    (P.make v).2.heap.deref (P.make v).1 = some v := by
  simp [make, Heap.deref]

theorem keeps_upRef (P : Pool α) (h : Nat) : P.Keeps (P.upRef h) := by
  refine ⟨Nat.le_refl _, ?_⟩
  intro k v _ hv
  by_cases hk : k = h
  · subst hk
    simp only [upRef, Heap.deref, Heap.upRef, Function.update_self, Option.map_map] at hv
    exact hv
  · rw [Heap.deref, upRef, Heap.upRef_obj_ne hk] at hv
    exact hv

theorem keeps_free (P : Pool α) (h : Nat) : P.Keeps (P.free h) := by
  refine ⟨Nat.le_refl _, ?_⟩
  intro k v _ hv
  by_cases hk : k = h
  · subst hk
    simp only [free, Heap.deref, Heap.release, Function.update_self] at hv ⊢
    cases hobj : P.heap.obj k with
    | none =>
      rw [hobj] at hv
      cases hv
    | some p =>
      obtain ⟨w, n⟩ := p
      rw [hobj] at hv
      rcases n with _ | _ | n
      · cases hv
      · cases hv
      · exact hv
  · rw [Heap.deref, free, Heap.release_obj_ne hk] at hv
    exact hv

theorem keeps_freeOpt (P : Pool α) (p : Option Nat) : P.Keeps (P.freeOpt p) := by
  cases p with
  | none => exact Keeps.refl P
  | some h => exact keeps_free P h

/-- An object that is still referred to has the value it had. -/
theorem Keeps.deref (hk : P.Keeps P') (hP : P'.Balanced R) (hh : h ∈ R)
    (hv : P.heap.deref h = some v) : P'.heap.deref h = some v := by
  obtain ⟨w, hw⟩ := hP.exists_deref hh
  have hlt : h < P.heap.next := by
    by_contra hle
    rw [Heap.deref, P.heap.fresh (Nat.le_of_not_lt hle)] at hv
    cases hv
  rw [hw, ← hk.2 h w hlt hw, hv]

/-! ## Calls that return a pointer -/

/-- A call on `P` has returned `NULL`, or a pointer and the reference that goes with it. -/
structure Hands (P : Pool α) (R : Multiset Nat) (r : Option Nat × Pool α) : Prop where
  balanced : r.2.Balanced (held r.1 + R)
  keeps : P.Keeps r.2

theorem hands_null (hP : P.Balanced R) : P.Hands R (none, P) where
  balanced := by simpa using hP
  keeps := .refl P

theorem hands_makeOpt (hP : P.Balanced R) (v : Option α) : P.Hands R (P.makeOpt v) where
  balanced := hP.makeOpt v
  keeps := P.keeps_makeOpt v

/-- The pointer is given up again, and `NULL` returned. -/
theorem Hands.freeOpt {p : Option Nat} (h : P.Hands R (p, P')) :
    P.Hands R (none, P'.freeOpt p) where
  balanced := by simpa using h.balanced.freeOpt
  keeps := h.keeps.trans (P'.keeps_freeOpt p)

end Pool

/-! ## Tables of pointers -/

section

variable {σ : Type} [Fintype σ]

def slotRefs (f : σ → Option Nat) : Multiset Nat := ∑ s, held (f s)

variable {f : σ → Option Nat} {s : σ}

@[simp] theorem slotRefs_none : slotRefs (fun _ : σ => none) = 0 := by
  simp [slotRefs]

theorem mem_slotRefs {h : Nat} (hs : f s = some h) : h ∈ slotRefs f := by
  refine Multiset.mem_sum.mpr ⟨s, Finset.mem_univ s, ?_⟩
  rw [hs]
  exact Multiset.mem_singleton_self h

/-- A handle is there once for each slot that points to it. -/
theorem count_slotRefs (f : σ → Option Nat) (h : Nat) :
    (slotRefs f).count h = (Finset.univ.filter fun s => f s = some h).card := by
  rw [slotRefs, Multiset.count_sum', Finset.card_filter]
  refine Finset.sum_congr rfl ?_
  intro s _
  cases hs : f s with
  | none => rfl
  | some k => simp [Multiset.count_singleton, eq_comm]

variable [DecidableEq σ]

theorem slotRefs_update (f : σ → Option Nat) (s : σ) (p : Option Nat) :
    held (f s) + slotRefs (Function.update f s p) = held p + slotRefs f := by
  have hrest : ∀ g : σ → Option Nat,
      slotRefs g = held (g s) + ∑ t ∈ Finset.univ.erase s, held (g t) := by
    intro g
    exact (Finset.add_sum_erase Finset.univ (fun t => held (g t)) (Finset.mem_univ s)).symm
  have hsame : ∑ t ∈ Finset.univ.erase s, held (Function.update f s p t) =
      ∑ t ∈ Finset.univ.erase s, held (f t) := by
    refine Finset.sum_congr rfl ?_
    intro t ht
    rw [Function.update_of_ne (Finset.ne_of_mem_erase ht)]
  rw [hrest f, hrest (Function.update f s p), hsame, Function.update_self]
  exact add_left_comm ..

end

end Refs
