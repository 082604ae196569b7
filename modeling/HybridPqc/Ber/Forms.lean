import HybridPqc.Ber.Element

/-!
# Ber.Forms

The octets of an element as they stand in the input, and an element in another length form.

* `firstChildBytes b`: the octets of the first element inside `b`; a reader that takes `b` reads its
  first child from exactly these (`firstChildBytes_of_read`).
* `encodeLong e`: `e` with a length of eight octets, which the lenient reader takes for `e` and the
  strict one refuses.
-/

namespace Ber

/-! ## The first of several elements -/

/-- The octets of the first element of `b`, as they stand. -/
def elementBytes (b : Bytes) : Option Bytes :=
  match readElement false b with
  | none => none
  | some (_, r) => some (b.take (b.length - r.length))

theorem elementBytes_of_read {f : Nat} {b r : Bytes} {e : Element}
    (h : read false f b = some (e, r)) (s : Bytes) :
    ∃ p, elementBytes (b ++ s) = some p ∧ readElement false p = some (e, []) ∧
      p.length ≤ b.length := by
  obtain ⟨p, rfl, _, hloc⟩ := read_spec h
  have hp : readElement false (p ++ (r ++ s)) = some (e, r ++ s) := hloc _ _ (by simp)
  have hagain := hloc p.length [] (Nat.le_refl _)
  rw [List.append_nil] at hagain
  refine ⟨p, ?_, hagain, by simp⟩
  rw [List.append_assoc, elementBytes, hp]
  simp

theorem elementBytes_of_readAll {f : Nat} {b : Bytes} {e : Element} {es : List Element}
    (h : readAll false f b = some (e :: es)) (s : Bytes) :
    ∃ p, elementBytes (b ++ s) = some p ∧ readElement false p = some (e, []) ∧
      p.length ≤ b.length := by
  cases f with
  | zero => cases h
  | succ f =>
    cases b with
    | nil => cases h
    | cons x b =>
      simp only [readAll] at h
      split at h
      · cases h
      rename_i hread
      split at h
      · cases h
      cases h
      exact elementBytes_of_read hread s

theorem elementBytes_of_readUntilEoc {f : Nat} {b r : Bytes} {e : Element} {es : List Element}
    (h : readUntilEoc false f b = some (e :: es, r)) :
    ∃ p, elementBytes b = some p ∧ readElement false p = some (e, []) ∧ p.length ≤ b.length := by
  cases f with
  | zero => cases h
  | succ f =>
    simp only [readUntilEoc] at h
    split at h
    · cases h
    split at h
    · cases h
    rename_i hread
    split at h
    · cases h
    cases h
    have := elementBytes_of_read hread []
    rwa [List.append_nil] at this

/-- The octets of the first element inside the first element of `b`. -/
def firstChildBytes (b : Bytes) : Option Bytes :=
  match readHeader false b with
  | none => none
  | some (_, _, content) => elementBytes content

theorem firstChildBytes_of_read {b r : Bytes} {t : UInt8} {e : Element} {es : List Element}
    (h : readElement false b = some (.cons t (e :: es), r)) :
    ∃ p, firstChildBytes b = some p ∧ readElement false p = some (e, []) ∧
      p.length ≤ b.length := by
  unfold readElement at h
  cases hb : b.length with
  | zero =>
    rw [hb] at h
    cases h
  | succ f =>
    rw [hb] at h
    simp only [read] at h
    unfold firstChildBytes
    cases hh : readHeader false b with
    | none =>
      rw [hh] at h
      cases h
    | some x =>
      obtain ⟨t', l, content⟩ := x
      obtain ⟨_, q, hq, _⟩ := readHeader_local hh
      have hlen : content.length ≤ f + 1 := by
        rw [← hb, hq, List.length_cons, List.length_append]
        omega
      rw [hh] at h
      dsimp only
      cases l with
      | definite n =>
        dsimp only at h
        split at h
        · cases h
        split at h
        · split at h
          · cases h
          rename_i hall
          cases h
          obtain ⟨p, hbytes, hagain, hp⟩ := elementBytes_of_readAll hall (content.drop n)
          rw [List.take_append_drop] at hbytes
          rw [List.length_take] at hp
          exact ⟨p, hbytes, hagain, by omega⟩
        · cases h
      | indefinite =>
        dsimp only at h
        split at h
        · split at h
          · cases h
          rename_i hall
          cases h
          obtain ⟨p, hbytes, hagain, hp⟩ := elementBytes_of_readUntilEoc hall
          exact ⟨p, hbytes, hagain, by omega⟩
        · cases h

theorem firstChildBytes_encode {t : UInt8} {e : Element} {es : List Element}
    (h : Wf (.cons t (e :: es))) :
    firstChildBytes (encode (.cons t (e :: es))) = some (encode e) := by
  obtain ⟨ht, hl⟩ := h
  simp only [tagsOk, tagsOkAll, Bool.and_eq_true, Bool.not_eq_true'] at ht
  have hsize := hl
  simp only [encode, List.length_cons, List.length_append] at hsize
  have hlen : (encodeAll (e :: es)).length ≤ maxLen := by omega
  have hhead := readHeader_encode false ht.1.1 hlen (encodeAll (e :: es))
  rw [encodeAll, List.length_append] at hlen
  have hread := read_encode false (e := e) ⟨ht.2.1, by omega⟩ (encodeAll es)
  unfold firstChildBytes
  rw [encode, hhead, encodeAll]
  simp only [elementBytes, hread]
  simp

/-! ## Long lengths -/

/-- A length in eight octets. -/
def longLength (n : Nat) : Bytes :=
  0x88 :: (Bytes.zeros (8 - (beBytes n).length) ++ beBytes n)

theorem beNat_zeros_append (k : Nat) (b : Bytes) : beNat (Bytes.zeros k ++ b) = beNat b := by
  induction k with
  | zero => rfl
  | succ k ih =>
    rw [← ih]
    simp [beNat, Bytes.zeros, List.replicate_succ, Nat.ofDigits_append]

theorem longLength_length {n : Nat} (h : n ≤ maxLen) : (longLength n).length = 9 := by
  have := beBytes_length_of_le_maxLen h
  simp [longLength]
  omega

theorem readLength_longLength {n : Nat} (h : n ≤ maxLen) (r : Bytes) :
    readLength false (longLength n ++ r) = some (.definite n, r) := by
  have hk := beBytes_length_of_le_maxLen h
  obtain ⟨v, hv⟩ : ∃ v, v = Bytes.zeros (8 - (beBytes n).length) ++ beBytes n := ⟨_, rfl⟩
  have hlen : v.length = 8 := by
    rw [hv, List.length_append, Bytes.zeros_length]
    omega
  have hbe : beNat v = n := by rw [hv, beNat_zeros_append, beNat_beBytes]
  have htake : (v ++ r).take 8 = v := by rw [← hlen, List.take_left]
  have hdrop : (v ++ r).drop 8 = r := by rw [← hlen, List.drop_left]
  have h88 : (0x88 : UInt8).toNat = 136 := rfl
  rw [longLength, ← hv, List.cons_append]
  simp only [readLength, h88, Nat.reduceSub, htake, hdrop, hbe]
  rw [if_neg (by decide), if_neg (by decide), if_neg (by rw [List.length_append]; omega),
    if_neg (by omega), if_neg (by simp)]

/-- The strict reader refuses a long length with a leading zero. -/
theorem readLength_longLength_strict {n : Nat} (h : n < 256 ^ 7) (r : Bytes) :
    readLength true (longLength n ++ r) = none := by
  have hk := beBytes_length_le h
  obtain ⟨k, hk'⟩ : ∃ k, 8 - (beBytes n).length = k + 1 := ⟨7 - (beBytes n).length, by omega⟩
  obtain ⟨v, hv⟩ : ∃ v, v = Bytes.zeros k ++ beBytes n := ⟨_, rfl⟩
  have h88 : (0x88 : UInt8).toNat = 136 := rfl
  have hcons : Bytes.zeros (k + 1) = 0 :: Bytes.zeros k := rfl
  rw [longLength, hk', hcons]
  simp only [List.cons_append, ← hv]
  simp only [readLength, h88, Nat.reduceSub]
  rw [if_neg (by decide), if_neg (by decide)]
  simp

/-- `e` with the length of its outermost header in eight octets. -/
def encodeLong : Element → Bytes
  | .prim t c => t :: (longLength c.length ++ c)
  | .cons t es => t :: (longLength (encodeAll es).length ++ encodeAll es)

/-- The lenient reader takes the long form for the same element. -/
theorem read_encodeLong {t : UInt8} {es : List Element} {f : Nat} (ht : tagsOk (.cons t es) = true)
    (hl : (encodeAll es).length ≤ maxLen) (hf : (encodeAll es).length + 2 ≤ f) (r : Bytes) :
    read false f (encodeLong (.cons t es) ++ r) = some (.cons t es, r) := by
  obtain ⟨f, rfl⟩ : ∃ g, f = g + 1 := ⟨f - 1, by omega⟩
  simp only [tagsOk, Bool.and_eq_true, Bool.not_eq_true'] at ht
  have hall := (read_encode_aux false f).2 es ht.2 hl (by omega)
  have hhead : readHeader false (t :: (longLength (encodeAll es).length ++ (encodeAll es ++ r))) =
      some (t, .definite (encodeAll es).length, encodeAll es ++ r) := by
    simp [readHeader, ht.1.1, readLength_longLength hl]
  simp only [encodeLong, List.cons_append, List.append_assoc, read]
  rw [hhead]
  simp [ht.1.2, hall]

theorem read_encodeLong_strict (t : UInt8) {es : List Element}
    (hl : (encodeAll es).length < 256 ^ 7) (f : Nat) (r : Bytes) :
    read true f (encodeLong (.cons t es) ++ r) = none := by
  cases f with
  | zero => rfl
  | succ f =>
    have hhead : readHeader true (t :: (longLength (encodeAll es).length ++ (encodeAll es ++ r))) =
        none := by
      simp [readHeader, readLength_longLength_strict hl]
    simp only [encodeLong, List.cons_append, List.append_assoc, read, hhead]

/-- `e` with its first child in the long form. -/
def encodeLongChild : Element → Bytes
  | .cons t (e :: es) =>
    t :: (encodeLength (encodeLong e ++ encodeAll es).length ++ (encodeLong e ++ encodeAll es))
  | e => encode e

section LongChild

variable {t t' : UInt8} {es es' : List Element}

theorem encodeLong_length (t : UInt8) {es : List Element} (h : (encodeAll es).length ≤ maxLen) :
    (encodeLong (.cons t es)).length = (encodeAll es).length + 10 := by
  simp only [encodeLong, List.length_cons, List.length_append, longLength_length h]
  omega

theorem encodeLongChild_length_le
    (h : (encode (.cons t (.cons t' es' :: es))).length + 10 ≤ maxLen) :
    (encodeLongChild (.cons t (.cons t' es' :: es))).length ≤
      (encode (.cons t (.cons t' es' :: es))).length + 20 := by
  simp only [encode, encodeAll, List.length_cons, List.length_append] at h
  have hl := encodeLong_length t' (show (encodeAll es').length ≤ maxLen by omega)
  have h9 := encodeLength_length_le (n := (encodeLong (.cons t' es') ++ encodeAll es).length)
    (by rw [List.length_append]; omega)
  simp only [encodeLongChild, encode, encodeAll, List.length_cons, List.length_append] at h9 ⊢
  omega

theorem readHeader_encodeLongChild (ht : isHighTag t = false)
    (h : (encode (.cons t (.cons t' es' :: es))).length + 10 ≤ maxLen) :
    readHeader false (encodeLongChild (.cons t (.cons t' es' :: es))) =
      some (t, .definite (encodeLong (.cons t' es') ++ encodeAll es).length,
        encodeLong (.cons t' es') ++ encodeAll es) := by
  simp only [encode, encodeAll, List.length_cons, List.length_append] at h
  have hl := encodeLong_length t' (show (encodeAll es').length ≤ maxLen by omega)
  exact readHeader_encode false ht (by rw [List.length_append]; omega) _

theorem readElement_encodeLongChild (ht : tagsOk (.cons t (.cons t' es' :: es)) = true)
    (h : (encode (.cons t (.cons t' es' :: es))).length + 10 ≤ maxLen) :
    readElement false (encodeLongChild (.cons t (.cons t' es' :: es))) =
      some (.cons t (.cons t' es' :: es), []) := by
  have htags := ht
  simp only [tagsOk, tagsOkAll, Bool.and_eq_true, Bool.not_eq_true'] at htags
  obtain ⟨⟨hhigh, hcons⟩, htags', hall⟩ := htags
  have hhead := readHeader_encodeLongChild hhigh h
  simp only [encode, encodeAll, List.length_cons, List.length_append] at h
  have hl := encodeLong_length t' (show (encodeAll es').length ≤ maxLen by omega)
  obtain ⟨f, hf⟩ : ∃ f, (encodeLongChild (.cons t (.cons t' es' :: es))).length = f + 2 := by
    refine ⟨(encodeLongChild (.cons t (.cons t' es' :: es))).length - 2, ?_⟩
    simp only [encodeLongChild, List.length_cons, List.length_append]
    omega
  have hsize : (encodeAll es').length + (encodeAll es).length + 9 ≤ f := by
    have := encodeLength_pos (encodeLong (.cons t' es') ++ encodeAll es).length
    simp only [encodeLongChild, List.length_cons, List.length_append] at hf this
    omega
  have h1 : read false f (encodeLong (.cons t' es') ++ encodeAll es) =
      some (.cons t' es', encodeAll es) :=
    read_encodeLong (by simp [tagsOk, htags']) (by omega) (by omega) _
  have h2 := (read_encode_aux false f).2 es hall (by omega) (by omega)
  have hchildren : readAll false (f + 1) (encodeLong (.cons t' es') ++ encodeAll es) =
      some (.cons t' es' :: es) := by
    rw [encodeLong, List.cons_append] at h1 ⊢
    simp only [readAll, h1, h2]
  unfold readElement
  rw [hf]
  simp only [read, hhead, List.take_length, List.drop_length, Nat.lt_irrefl, if_false, hcons,
    if_true, hchildren]

theorem firstChildBytes_encodeLongChild (ht : tagsOk (.cons t (.cons t' es' :: es)) = true)
    (h : (encode (.cons t (.cons t' es' :: es))).length + 10 ≤ maxLen) :
    firstChildBytes (encodeLongChild (.cons t (.cons t' es' :: es))) =
      some (encodeLong (.cons t' es')) := by
  simp only [tagsOk, tagsOkAll, Bool.and_eq_true, Bool.not_eq_true'] at ht
  obtain ⟨⟨hhigh, hcons⟩, htags', _⟩ := ht
  have hhead := readHeader_encodeLongChild hhigh h
  simp only [encode, encodeAll, List.length_cons, List.length_append] at h
  have hl := encodeLong_length t' (show (encodeAll es').length ≤ maxLen by omega)
  have hread : read false (encodeLong (.cons t' es') ++ encodeAll es).length
      (encodeLong (.cons t' es') ++ encodeAll es) = some (.cons t' es', encodeAll es) :=
    read_encodeLong (by simp [tagsOk, htags']) (by omega) (by rw [List.length_append]; omega) _
  unfold firstChildBytes
  rw [hhead]
  simp only [elementBytes, readElement, hread]
  simp

end LongChild

end Ber
