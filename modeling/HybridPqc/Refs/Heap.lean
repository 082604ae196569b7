import HybridPqc.Bytes

/-!
# Refs.Heap

Reference-counted objects. A handle is a number; the heap gives its value and how many references
there are. Handles from `next` on are free, and an object with no reference is gone.

`alloc_release` says that an object that is made and released at once leaves nothing behind.
-/

namespace Refs

structure Heap (α : Type) where
  obj : Nat → Option (α × Nat)
  next : Nat
  fresh : ∀ {h}, next ≤ h → obj h = none
  counted : ∀ {h v n}, obj h = some (v, n) → 0 < n

namespace Heap

variable {α : Type}

def empty : Heap α where
  obj _ := none
  next := 0
  fresh _ := rfl
  counted h := by cases h

/-- The value a handle refers to. -/
def deref (H : Heap α) (h : Nat) : Option α := (H.obj h).map (·.1)

/-- How many references to a handle there are. -/
def count (H : Heap α) (h : Nat) : Nat :=
  match H.obj h with
  | none => 0
  | some (_, n) => n

/-- A new object with one reference, under the handle `H.next`. -/
def alloc (H : Heap α) (v : α) : Heap α where
  obj := Function.update H.obj H.next (some (v, 1))
  next := H.next + 1
  fresh {h} hle := by
    rw [Function.update_of_ne (by omega)]
    exact H.fresh (by omega)
  counted {h w n} hw := by
    by_cases hh : h = H.next
    · rw [hh, Function.update_self] at hw
      cases hw
      exact Nat.one_pos
    · rw [Function.update_of_ne hh] at hw
      exact H.counted hw

/-- One reference less. -/
def release (H : Heap α) (h : Nat) : Heap α where
  obj := Function.update H.obj h <|
    match H.obj h with
    | some (v, n + 2) => some (v, n + 1)
    | _ => none
  next := H.next
  fresh {k} hle := by
    by_cases hk : k = h
    · rw [hk, Function.update_self, H.fresh (hk ▸ hle)]
    · rw [Function.update_of_ne hk]
      exact H.fresh hle
  counted {k w n} hw := by
    by_cases hk : k = h
    · rw [hk, Function.update_self] at hw
      split at hw
      · cases hw
        omega
      · cases hw
    · rw [Function.update_of_ne hk] at hw
      exact H.counted hw

/-- One reference more. -/
def upRef (H : Heap α) (h : Nat) : Heap α where
  obj := Function.update H.obj h ((H.obj h).map fun (v, n) => (v, n + 1))
  next := H.next
  fresh {k} hle := by
    by_cases hk : k = h
    · rw [hk, Function.update_self, H.fresh (hk ▸ hle), Option.map_none]
    · rw [Function.update_of_ne hk]
      exact H.fresh hle
  counted {k w n} hw := by
    by_cases hk : k = h
    · rw [hk, Function.update_self] at hw
      obtain ⟨p, _, hp⟩ := Option.map_eq_some_iff.mp hw
      cases hp
      exact Nat.succ_pos _
    · rw [Function.update_of_ne hk] at hw
      exact H.counted hw

/-- Releasing a pointer that may be `NULL`. -/
def releaseOpt (H : Heap α) : Option Nat → Heap α
  | none => H
  | some h => H.release h

variable {H : Heap α} {h k : Nat} {v : α}

@[simp] theorem alloc_obj_next : (H.alloc v).obj H.next = some (v, 1) := Function.update_self ..

theorem alloc_obj_ne (hne : k ≠ H.next) : (H.alloc v).obj k = H.obj k :=
  Function.update_of_ne hne ..

theorem release_obj_ne (hne : k ≠ h) : (H.release h).obj k = H.obj k :=
  Function.update_of_ne hne ..

theorem releaseOpt_obj_ne {p : Option Nat} (hne : p ≠ some k) :
    (H.releaseOpt p).obj k = H.obj k := by
  cases p with
  | none => rfl
  | some h =>
    refine release_obj_ne ?_
    rintro rfl
    exact hne rfl

theorem count_release : (H.release h).count h = H.count h - 1 := by
  simp only [count, release, Function.update_self]
  cases hobj : H.obj h with
  | none => rfl
  | some p =>
    obtain ⟨w, n⟩ := p
    match n with
    | 0 => rfl
    | 1 => rfl
    | n + 2 => rfl

theorem upRef_obj_ne (hne : k ≠ h) : (H.upRef h).obj k = H.obj k :=
  Function.update_of_ne hne ..

/-- There is an object exactly when there is a reference to it. -/
theorem count_pos : 0 < H.count h ↔ (H.obj h).isSome = true := by
  simp only [count]
  cases hobj : H.obj h with
  | none => simp
  | some p => simpa using H.counted hobj

theorem count_upRef (hlive : (H.obj h).isSome = true) : (H.upRef h).count h = H.count h + 1 := by
  obtain ⟨p, hobj⟩ := Option.isSome_iff_exists.mp hlive
  simp only [count, upRef, Function.update_self, hobj, Option.map_some]

theorem count_congr {H' : Heap α} (hobj : H'.obj k = H.obj k) : H'.count k = H.count k := by
  rw [count, hobj, count]

/-- An object that is made and released at once leaves nothing behind. -/
theorem alloc_release : ((H.alloc v).release H.next).obj = H.obj := by
  funext k
  by_cases hk : k = H.next
  · rw [hk, H.fresh (Nat.le_refl _)]
    simp only [release, Function.update_self, alloc_obj_next]
  · rw [release_obj_ne hk, alloc_obj_ne hk]

end Heap

end Refs
