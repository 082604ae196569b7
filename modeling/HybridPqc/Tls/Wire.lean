import HybridPqc.Bytes

/-!
# Tls.Wire

The 16-bit numbers of the TLS presentation language and what has one of them as its length.

`getU16_putU16` and `putU16_getU16` say that reader and writer of a number undo each other;
`getVector_some_iff` says what a vector is. `words` takes a vector of even length apart.
-/

namespace Tls

def putU16 (v : UInt16) : Bytes := [UInt8.ofNat (v.toNat / 256), UInt8.ofNat (v.toNat % 256)]

def getU16 : Bytes → Option (UInt16 × Bytes)
  | x :: y :: r => some (UInt16.ofNat (256 * x.toNat + y.toNat), r)
  | _ => none

/-- A vector with two length octets; the length has to fit. -/
def putVector (data : Bytes) : Bytes := putU16 (UInt16.ofNat data.length) ++ data

/-- The first vector and the bytes after it. -/
def getVector (b : Bytes) : Option (Bytes × Bytes) :=
  match getU16 b with
  | none => none
  | some (n, r) => if r.length < n.toNat then none else some (r.take n.toNat, r.drop n.toNat)

theorem getU16_putU16 (v : UInt16) (r : Bytes) : getU16 (putU16 v ++ r) = some (v, r) := by
  have hv := v.toNat_lt
  have h1 : (UInt8.ofNat (v.toNat / 256)).toNat = v.toNat / 256 := by
    rw [UInt8.toNat_ofNat']
    omega
  have h2 : (UInt8.ofNat (v.toNat % 256)).toNat = v.toNat % 256 := by
    rw [UInt8.toNat_ofNat']
    omega
  simp only [putU16, List.cons_append, List.nil_append, getU16, h1, h2, Nat.div_add_mod,
    UInt16.ofNat_toNat]

theorem toNat_getU16 (x y : UInt8) :
    (UInt16.ofNat (256 * x.toNat + y.toNat)).toNat = 256 * x.toNat + y.toNat := by
  have hx := x.toNat_lt
  have hy := y.toNat_lt
  rw [UInt16.toNat_ofNat']
  omega

theorem putU16_getU16 {b r : Bytes} {v : UInt16} (h : getU16 b = some (v, r)) :
    b = putU16 v ++ r := by
  match b with
  | [] => cases h
  | [x] => cases h
  | x :: y :: b =>
    cases h
    have hy := y.toNat_lt
    rw [putU16, toNat_getU16]
    have h1 : (256 * x.toNat + y.toNat) / 256 = x.toNat := by omega
    have h2 : (256 * x.toNat + y.toNat) % 256 = y.toNat := by omega
    rw [h1, h2, UInt8.ofNat_toNat, UInt8.ofNat_toNat]
    rfl

theorem getVector_some_iff {b data r : Bytes} :
    getVector b = some (data, r) ↔ data.length < 65536 ∧ b = putVector data ++ r := by
  constructor
  · intro h
    simp only [getVector] at h
    split at h
    · cases h
    rename_i n rest hn
    split at h
    · cases h
    rename_i hl
    cases h
    have hlt := n.toNat_lt
    have hlen : (rest.take n.toNat).length = n.toNat := by
      rw [List.length_take]
      omega
    refine ⟨by omega, ?_⟩
    rw [putVector, hlen, UInt16.ofNat_toNat, List.append_assoc, List.take_append_drop]
    exact putU16_getU16 hn
  · rintro ⟨hl, rfl⟩
    have hn : (UInt16.ofNat data.length).toNat = data.length := by
      rw [UInt16.toNat_ofNat']
      omega
    rw [putVector, List.append_assoc, getVector, getU16_putU16]
    simp only [hn, List.length_append, List.take_left, List.drop_left]
    rw [if_neg (by omega)]

/-- An extension: its type and its data, which have to fit the length. -/
def putExt (e : UInt16 × Bytes) : Bytes := putU16 e.1 ++ putVector e.2

theorem putExt_length (e : UInt16 × Bytes) : (putExt e).length = 4 + e.2.length := by
  simp only [putExt, putVector, putU16, List.length_append, List.length_cons, List.length_nil]
  omega

/-- The 16-bit numbers that fill a byte string. -/
def words : Bytes → List UInt16
  | x :: y :: r => UInt16.ofNat (256 * x.toNat + y.toNat) :: words r
  | _ => []

theorem words_flatMap_putU16 (ks : List UInt16) : words (ks.flatMap putU16) = ks := by
  induction ks with
  | nil => rfl
  | cons k ks ih =>
    have hk := getU16_putU16 k (ks.flatMap putU16)
    simp only [putU16, List.cons_append, List.nil_append, getU16, Option.some.injEq,
      Prod.mk.injEq, and_true] at hk
    rw [List.flatMap_cons]
    simp only [putU16, List.cons_append, List.nil_append, words, hk]
    exact congrArg (k :: ·) ih

theorem flatMap_putU16_length (ks : List UInt16) : (ks.flatMap putU16).length = 2 * ks.length := by
  induction ks with
  | nil => rfl
  | cons k ks ih =>
    rw [List.flatMap_cons, List.length_append, ih, List.length_cons]
    simp only [putU16, List.length_cons, List.length_nil]
    omega

theorem flatMap_putU16_words : ∀ {n : Nat} {b : Bytes}, b.length = 2 * n →
    (words b).flatMap putU16 = b ∧ (words b).length = n
  | 0, b, h => by
    cases List.length_eq_zero_iff.mp h
    exact ⟨rfl, rfl⟩
  | n + 1, [], h => by cases h
  | n + 1, [x], h => by
    simp only [List.length_singleton] at h
    omega
  | n + 1, x :: y :: b, h => by
    have hb : b.length = 2 * n := by
      simp only [List.length_cons] at h
      omega
    obtain ⟨ih1, ih2⟩ := flatMap_putU16_words hb
    have hxy := putU16_getU16 (b := x :: y :: b) rfl
    refine ⟨?_, by rw [words, List.length_cons, ih2]⟩
    rw [words, List.flatMap_cons, ih1]
    exact hxy.symm

end Tls
