import HybridPqc.Ber.Element

/-!
# Ber.Tlv

Elements as byte strings, with their contents left unread.

* `IsDerTlv limit t e`: `e` is one complete element with identifier `t`, the DER length octets and
  at most `limit` octets of contents.
* `StrictTlvReader limit t read`: `read` takes exactly such an element off the front.
* `splitTlv`: such a reader.
-/

namespace Ber

def IsDerTlv (limit : Nat) (t : UInt8) (e : Bytes) : Prop :=
  ∃ c, e = t :: (encodeLength c.length ++ c) ∧ c.length ≤ limit

/-- On inputs with identifier `t`, `read` returns the element at the front and what follows it, and
fails when there is none. -/
structure StrictTlvReader (limit : Nat) (t : UInt8) (read : Bytes → Option (Bytes × Bytes)) :
    Prop where
  read_iff : ∀ b e r, b.head? = some t →
    (read b = some (e, r) ↔ b = e ++ r ∧ IsDerTlv limit t e)

def splitTlv (limit : Nat) (b : Bytes) : Option (Bytes × Bytes) :=
  match readHeader true b with
  | some (_, .definite n, r) =>
    if n ≤ limit ∧ n ≤ r.length then
      some (b.take (b.length - r.length + n), r.drop n)
    else none
  | _ => none

theorem IsDerTlv.head? {limit : Nat} {t : UInt8} {e : Bytes} (h : IsDerTlv limit t e) (r : Bytes) :
    (e ++ r).head? = some t := by
  obtain ⟨c, rfl, _⟩ := h
  rfl

theorem IsDerTlv.ne_nil {limit : Nat} {t : UInt8} {e : Bytes} (h : IsDerTlv limit t e) :
    e ≠ [] := by
  obtain ⟨c, rfl, _⟩ := h
  simp

/-- What DER allows BER allows. -/
theorem IsDerTlv.isTlv {limit : Nat} {t : UInt8} {e : Bytes} (h : IsDerTlv limit t e)
    (ht : isHighTag t = false) (hl : limit ≤ maxLen) : IsTlv t e := by
  obtain ⟨c, rfl, hc⟩ := h
  exact ⟨c.length, c, readHeader_encode false ht (by omega) c, rfl⟩

/-- The strict header reader takes nothing but DER headers. -/
theorem readHeader_true_some {b r : Bytes} {t : UInt8} {l : Length}
    (h : readHeader true b = some (t, l, r)) :
    ∃ n, l = .definite n ∧ n ≤ maxLen ∧ b = t :: (encodeLength n ++ r) := by
  cases b with
  | nil => cases h
  | cons x xs =>
    simp only [readHeader] at h
    split at h
    · cases h
    · split at h
      · cases h
      · rename_i hl
        cases h
        obtain ⟨n, rfl, hn, rfl⟩ := encodeLength_of_readLength hl
        exact ⟨n, rfl, hn, rfl⟩

/-- Splitting off what stands at the front. -/
theorem splitTlv_append {limit : Nat} (hlimit : limit ≤ maxLen) {t : UInt8}
    (ht : isHighTag t = false) {e : Bytes} (he : IsDerTlv limit t e) (r : Bytes) :
    splitTlv limit (e ++ r) = some (e, r) := by
  obtain ⟨c, rfl, hc⟩ := he
  have hr := readHeader_encode true ht (Nat.le_trans hc hlimit) (c ++ r)
  have hb : (t :: (encodeLength c.length ++ c)) ++ r =
      t :: (encodeLength c.length ++ (c ++ r)) := by simp
  have hlen : (t :: (encodeLength c.length ++ c) ++ r).length - (c ++ r).length + c.length =
      (t :: (encodeLength c.length ++ c)).length := by
    simp only [List.length_cons, List.length_append]; omega
  rw [← hb] at hr
  simp only [splitTlv, hr]
  rw [if_pos ⟨hc, by simp⟩, hlen, List.take_left, List.drop_left]

/-- What is split off is an element, and it stands at the front. -/
theorem splitTlv_some {limit : Nat} {b e r : Bytes} (h : splitTlv limit b = some (e, r)) :
    b = e ++ r ∧ ∃ t, IsDerTlv limit t e := by
  unfold splitTlv at h
  split at h
  · rename_i t n r' hr
    obtain ⟨_, hn, _, rfl⟩ := readHeader_true_some hr
    cases hn
    split at h
    · rename_i hle
      cases h
      have hlen : (t :: (encodeLength n ++ r')).length - r'.length + n =
          (t :: encodeLength n).length + n := by
        simp only [List.length_cons, List.length_append]; omega
      have htake : (t :: (encodeLength n ++ r')).take ((t :: encodeLength n).length + n) =
          t :: (encodeLength n ++ r'.take n) := by
        rw [← List.cons_append, List.take_length_add_append, List.cons_append]
      have hn : (r'.take n).length = n := by rw [List.length_take, Nat.min_eq_left hle.2]
      rw [hlen, htake]
      exact ⟨by simp, t, r'.take n, by rw [hn], by omega⟩
    · cases h
  · cases h

theorem splitTlv_reader {limit : Nat} (hlimit : limit ≤ maxLen) {t : UInt8}
    (ht : isHighTag t = false) : StrictTlvReader limit t (splitTlv limit) := by
  refine ⟨fun b e r hb => ⟨fun h => ?_, fun ⟨hbe, he⟩ => ?_⟩⟩
  · obtain ⟨rfl, t', he⟩ := splitTlv_some h
    have ht' := he.head? r
    rw [hb] at ht'
    cases ht'
    exact ⟨rfl, he⟩
  · rw [hbe]
    exact splitTlv_append hlimit ht he r

end Ber
