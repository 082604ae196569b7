import HybridPqc.Tls.Wire

/-!
# Tls.Codec

Values written one after the other.

A `Codec` writes a value so that its reader finds it again in front of anything; the codecs here are
those of the TLS presentation language. `Stands` says that the elements of a list are in consecutive
places of an array.
-/

namespace Tls

/-- A writer and a reader that undo each other, on the values that fit. -/
structure Codec (α : Type) where
  put : α → Bytes
  get : Bytes → Option (α × Bytes)
  Fits : α → Prop
  get_put : ∀ a rest, Fits a → get (put a ++ rest) = some (a, rest)
  put_get : ∀ b a rest, get b = some (a, rest) → Fits a ∧ b = put a ++ rest

namespace Codec

variable {α β : Type}

/-- One value after another. -/
def pair (c : Codec α) (d : Codec β) : Codec (α × β) where
  put p := c.put p.1 ++ d.put p.2
  get b :=
    match c.get b with
    | none => none
    | some (x, b) =>
      match d.get b with
      | none => none
      | some (y, rest) => some ((x, y), rest)
  Fits p := c.Fits p.1 ∧ d.Fits p.2
  get_put p rest h := by
    rw [List.append_assoc, c.get_put _ _ h.1]
    dsimp only
    rw [d.get_put _ _ h.2]
  put_get b p rest h := by
    split at h
    · cases h
    rename_i x b' hx
    split at h
    · cases h
    rename_i y rest' hy
    cases h
    obtain ⟨hfit, rfl⟩ := c.put_get _ _ _ hx
    obtain ⟨hfit', rfl⟩ := d.put_get _ _ _ hy
    exact ⟨⟨hfit, hfit'⟩, (List.append_assoc _ _ _).symm⟩

/-- A byte string with two length octets. -/
def vector16 : Codec Bytes where
  put := putVector
  get := getVector
  Fits b := b.length < 65536
  get_put _ _ h := getVector_some_iff.mpr ⟨h, rfl⟩
  put_get _ _ _ h := getVector_some_iff.mp h

/-- A byte string with one length octet. -/
def vector8 : Codec Bytes where
  put b := UInt8.ofNat b.length :: b
  get b := b.head?.bind fun n =>
    if b.tail.length < n.toNat then none else some (b.tail.take n.toNat, b.tail.drop n.toNat)
  Fits b := b.length < 256
  get_put b rest h := by
    have hn : (UInt8.ofNat b.length).toNat = b.length := by
      rw [UInt8.toNat_ofNat']
      omega
    simp only [List.cons_append, List.head?_cons, List.tail_cons, Option.bind_some, hn,
      List.length_append, List.take_left, List.drop_left]
    rw [if_neg (by omega)]
  put_get b data rest h := by
    obtain ⟨n, hn, h⟩ := Option.bind_eq_some_iff.mp h
    obtain ⟨r, rfl⟩ := List.head?_eq_some_iff.mp hn
    rw [List.tail_cons] at h
    split at h
    · cases h
    · rename_i hl
      cases h
      have hlt := n.toNat_lt
      have hlen : (r.take n.toNat).length = n.toNat := by
        rw [List.length_take]
        omega
      refine ⟨by omega, ?_⟩
      rw [hlen, UInt8.ofNat_toNat, List.cons_append, List.take_append_drop]

/-- A 32-bit number, as two 16-bit ones. -/
def u32 : Codec UInt32 where
  put v := putU16 (UInt16.ofNat (v.toNat / 65536)) ++ putU16 (UInt16.ofNat (v.toNat % 65536))
  get b := (getU16 b).bind fun hi => (getU16 hi.2).bind fun lo =>
    some (UInt32.ofNat (65536 * hi.1.toNat + lo.1.toNat), lo.2)
  Fits _ := True
  get_put v rest _ := by
    have hv := v.toNat_lt
    have hhi : (UInt16.ofNat (v.toNat / 65536)).toNat = v.toNat / 65536 := by
      rw [UInt16.toNat_ofNat']
      omega
    have hlo : (UInt16.ofNat (v.toNat % 65536)).toNat = v.toNat % 65536 := by
      rw [UInt16.toNat_ofNat']
      omega
    rw [List.append_assoc, getU16_putU16, Option.bind_some, getU16_putU16, Option.bind_some]
    dsimp only
    rw [hhi, hlo, Nat.div_add_mod, UInt32.ofNat_toNat]
  put_get b v rest h := by
    obtain ⟨⟨hi, b'⟩, hhi, h⟩ := Option.bind_eq_some_iff.mp h
    obtain ⟨⟨lo, rest'⟩, hlo, h⟩ := Option.bind_eq_some_iff.mp h
    cases h
    have h1 := hi.toNat_lt
    have h2 := lo.toNat_lt
    have hv : (UInt32.ofNat (65536 * hi.toNat + lo.toNat)).toNat = 65536 * hi.toNat + lo.toNat := by
      rw [UInt32.toNat_ofNat']
      omega
    have hdiv : (65536 * hi.toNat + lo.toNat) / 65536 = hi.toNat := by omega
    have hmod : (65536 * hi.toNat + lo.toNat) % 65536 = lo.toNat := by omega
    refine ⟨trivial, ?_⟩
    dsimp only at hlo ⊢
    rw [hv, hdiv, hmod, UInt16.ofNat_toNat, UInt16.ofNat_toNat, List.append_assoc,
      ← putU16_getU16 hlo]
    exact putU16_getU16 hhi

end Codec

/-- The elements of `l` are in the places `i`, `i + 1`, … of `f`. -/
def Stands {α : Type} (f : Nat → α) (i : Nat) (l : List α) : Prop :=
  ∀ j a, l[j]? = some a → f (i + j) = a

section

variable {α : Type} {f : Nat → α} {i : Nat}

theorem stands_nil : Stands f i [] := by
  intro j a h
  cases h

theorem stands_cons {a : α} {l : List α} : Stands f i (a :: l) ↔ f i = a ∧ Stands f (i + 1) l := by
  constructor
  · intro h
    refine ⟨h 0 a rfl, ?_⟩
    intro j b hb
    have hj := h (j + 1) b (by rw [List.getElem?_cons_succ]; exact hb)
    rw [← hj]
    congr 1
    omega
  · intro h j b hb
    cases j with
    | zero =>
      cases hb
      exact h.1
    | succ j =>
      rw [List.getElem?_cons_succ] at hb
      rw [← h.2 j b hb]
      congr 1
      omega

/-- One more element, in the next place. -/
theorem Stands.snoc {l : List α} (h : Stands f i l) {a : α} (ha : f (i + l.length) = a) :
    Stands f i (l ++ [a]) := by
  intro j b hb
  by_cases hj : j < l.length
  · rw [List.getElem?_append_left hj] at hb
    exact h j b hb
  · rw [List.getElem?_append_right (by omega)] at hb
    have hlast : j = l.length := by
      by_contra hne
      rw [List.getElem?_eq_none (by rw [List.length_singleton]; omega)] at hb
      cases hb
    rw [hlast, Nat.sub_self] at hb
    cases hb
    rw [hlast]
    exact ha

/-- A write behind the elements does not touch them. -/
theorem Stands.update {l : List α} (h : Stands f i l) {k : Nat} (hk : i + l.length ≤ k) (x : α) :
    Stands (Function.update f k x) i l := by
  intro j a ha
  have hj : j < l.length := (List.getElem?_eq_some_iff.mp ha).1
  rw [Function.update_of_ne (by omega)]
  exact h j a ha

theorem Stands.congr {g : Nat → α} {l : List α} (h : Stands f i l)
    (hfg : ∀ j, j < l.length → g (i + j) = f (i + j)) : Stands g i l := by
  intro j a ha
  rw [hfg j (List.getElem?_eq_some_iff.mp ha).1]
  exact h j a ha

end

end Tls
