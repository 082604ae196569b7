import HybridPqc.Bytes

/-!
# Ber.Length

The length octets of a BER/DER element.

* `readLength strict`: the reader. With `strict = false` it takes everything BER allows below
  `maxLen`: long forms with leading zero octets, long forms of short lengths, the indefinite form.
  With `strict = true` only the one DER form.
* `encodeLength`: the DER writer.

`readLength_encodeLength` is the round trip, `encodeLength_of_readLength` says that the strict
reader accepts nothing but what the writer writes.
-/

namespace Ber

/-- The largest length a reader accepts: a signed 64-bit `long`. -/
def maxLen : Nat := 2 ^ 63 - 1

inductive Length where
  | definite (n : Nat)
  | indefinite
  deriving DecidableEq, Repr

def encodeLength (n : Nat) : Bytes :=
  if n < 128 then [UInt8.ofNat n]
  else UInt8.ofNat (128 + (beBytes n).length) :: beBytes n

def readLength (strict : Bool) : Bytes → Option (Length × Bytes)
  | [] => none
  | l :: r =>
    if l.toNat < 128 then some (.definite l.toNat, r)
    else if l.toNat = 128 then
      if strict then none else some (.indefinite, r)
    else if r.length < l.toNat - 128 then none
    else if maxLen < beNat (r.take (l.toNat - 128)) then none
    else if strict ∧ ((r.take (l.toNat - 128)).head? = some 0 ∨
        beNat (r.take (l.toNat - 128)) < 128) then none
    else some (.definite (beNat (r.take (l.toNat - 128))), r.drop (l.toNat - 128))

theorem encodeLength_pos (n : Nat) : 0 < (encodeLength n).length := by
  unfold encodeLength; split <;> simp

theorem beBytes_length_of_le_maxLen {n : Nat} (h : n ≤ maxLen) : (beBytes n).length ≤ 8 :=
  beBytes_length_le (by simp only [maxLen] at h; omega)

theorem readLength_encodeLength (strict : Bool) {n : Nat} (h : n ≤ maxLen) (r : Bytes) :
    readLength strict (encodeLength n ++ r) = some (.definite n, r) := by
  unfold encodeLength
  split
  · rename_i hn
    have : (UInt8.ofNat n).toNat = n := by simp; omega
    simp [readLength, this, hn]
  · rename_i hn
    have hk := beBytes_length_of_le_maxLen h
    have hk0 : 0 < (beBytes n).length := List.length_pos_iff.mpr (beBytes_ne_nil (by omega))
    have hl : (UInt8.ofNat (128 + (beBytes n).length)).toNat = 128 + (beBytes n).length := by
      simp; omega
    simp only [List.cons_append, readLength, hl, Nat.add_sub_cancel_left, List.take_left,
      List.drop_left, beNat_beBytes]
    rw [if_neg (by omega), if_neg (by omega), if_neg (by simp), if_neg (by omega), if_neg]
    rintro ⟨_, h0 | h0⟩
    · exact beBytes_head h0
    · exact hn h0

/-- Where the strict reader succeeds the length is definite and the octets are the writer's. -/
theorem encodeLength_of_readLength {b r : Bytes} {l : Length}
    (h : readLength true b = some (l, r)) :
    ∃ n, l = .definite n ∧ n ≤ maxLen ∧ b = encodeLength n ++ r := by
  cases b with
  | nil => cases h
  | cons x xs =>
    simp only [readLength] at h
    split at h
    · rename_i hx
      cases h
      refine ⟨x.toNat, rfl, by simp only [maxLen]; omega, ?_⟩
      simp [encodeLength, hx]
    split at h
    · simp at h
    rename_i hx1 hx2
    split at h
    · cases h
    split at h
    · cases h
    split at h
    · cases h
    rename_i hlen hmax hmin
    cases h
    simp only [true_and, not_or] at hmin
    refine ⟨_, rfl, by omega, ?_⟩
    have hb := beBytes_beNat hmin.1
    have hk : (xs.take (x.toNat - 128)).length = x.toNat - 128 := by simp; omega
    rw [encodeLength, if_neg hmin.2, hb, hk, List.cons_append, List.take_append_drop]
    have : UInt8.ofNat (128 + (x.toNat - 128)) = x := by
      rw [show 128 + (x.toNat - 128) = x.toNat by omega]; simp
    rw [this]

/-- A reader looks at the length octets only. -/
theorem readLength_local {strict : Bool} {b r : Bytes} {l : Length}
    (h : readLength strict b = some (l, r)) :
    ∃ p, b = p ++ r ∧ 0 < p.length ∧ ∀ r', readLength strict (p ++ r') = some (l, r') := by
  cases b with
  | nil => cases h
  | cons x xs =>
    simp only [readLength] at h
    split at h
    · cases h
      exact ⟨[x], rfl, by simp, fun r' => by simp [readLength, *]⟩
    split at h
    · split at h
      · cases h
      · cases h
        exact ⟨[x], rfl, by simp, fun r' => by simp [readLength, *]⟩
    split at h
    · cases h
    split at h
    · cases h
    split at h
    · cases h
    rename_i h1 h2 hlen hmax hmin
    cases h
    refine ⟨x :: xs.take (x.toNat - 128), by simp, by simp, fun r' => ?_⟩
    have hk : (xs.take (x.toNat - 128)).length = x.toNat - 128 := by simp; omega
    have ht : (xs.take (x.toNat - 128) ++ r').take (x.toNat - 128) = xs.take (x.toNat - 128) := by
      rw [List.take_append_of_le_length hk.ge, List.take_of_length_le hk.le]
    have hd : (xs.take (x.toNat - 128) ++ r').drop (x.toNat - 128) = r' := by
      rw [List.drop_append_of_le_length hk.ge, List.drop_eq_nil_of_le hk.le, List.nil_append]
    simp only [List.cons_append, readLength, ht, hd]
    rw [if_neg h1, if_neg h2, if_neg (by rw [List.length_append]; omega), if_neg hmax, if_neg hmin]

/-- What the strict reader accepts the lenient reader reads the same way. -/
theorem readLength_strict {b : Bytes} {x : Length × Bytes} (h : readLength true b = some x) :
    readLength false b = some x := by
  obtain ⟨l, r⟩ := x
  obtain ⟨n, rfl, hn, rfl⟩ := encodeLength_of_readLength h
  exact readLength_encodeLength false hn r

end Ber
