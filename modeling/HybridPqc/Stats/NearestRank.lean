import Mathlib.Algebra.Order.Floor.Div
import Mathlib.Tactic.Ring

/-!
# Stats.NearestRank

Order statistics of an ascending list by rank, counted from 1. The nearest rank of the fraction
`p / q` among `n` samples is `⌈p * n / q⌉`: the first rank at or below which that share of the
samples lies (`rankOf_le_iff`).

* `rankOf_split`: the rank by quotient and remainder, which a program computes without the
  product `p * n`.
* `getElem?_rel_of_le`: a larger rank does not read a smaller sample.
-/

namespace Stats

def rankOf (p q n : Nat) : Nat := (p * n) ⌈/⌉ q

theorem rankOf_le_iff {p q n r : Nat} (hq : 0 < q) :
    rankOf p q n ≤ r ↔ p * n ≤ q * r := ceilDiv_le_iff_le_mul hq

theorem rankOf_pos {p q n : Nat} (hp : 0 < p) (hq : 0 < q) (hn : 0 < n) :
    0 < rankOf p q n := by
  rw [Nat.pos_iff_ne_zero]
  intro h
  have := (rankOf_le_iff hq).mp h.le
  rw [Nat.mul_zero] at this
  exact absurd (Nat.mul_pos hp hn) (by omega)

theorem rankOf_le {p q n : Nat} (hq : 0 < q) (hpq : p ≤ q) : rankOf p q n ≤ n :=
  (rankOf_le_iff hq).mpr (Nat.mul_le_mul_right n hpq)

theorem rankOf_mono {p p' q n : Nat} (hq : 0 < q) (hp : p ≤ p') :
    rankOf p q n ≤ rankOf p' q n := by
  rw [rankOf_le_iff hq]
  exact (Nat.mul_le_mul_right n hp).trans ((rankOf_le_iff hq).mp (Nat.le_refl _))

/-- Above a half, the rank lies behind the middle. -/
theorem half_lt_rankOf {p q n : Nat} (hq : 0 < q) (hpq : q < 2 * p) (hn : 0 < n) :
    n / 2 < rankOf p q n := by
  rw [← Nat.not_le, rankOf_le_iff hq]
  intro h
  have hhalf : 2 * (n / 2) ≤ n := Nat.mul_div_le n 2
  have hlt : q * n < 2 * p * n := Nat.mul_lt_mul_of_pos_right hpq hn
  have hle : q * (2 * (n / 2)) ≤ q * n := Nat.mul_le_mul_left q hhalf
  rw [Nat.mul_assoc] at hlt
  rw [Nat.mul_left_comm] at hle
  omega

/-- Whole blocks of `q` samples count `p` each. -/
theorem rankOf_split {p q n : Nat} (hq : 0 < q) :
    rankOf p q n = n / q * p + (n % q * p) ⌈/⌉ q := by
  have hn : p * n + q - 1 = n % q * p + q - 1 + q * (n / q * p) := by
    have h : p * n = n % q * p + q * (n / q * p) := by
      calc p * n = p * (n % q + q * (n / q)) := by rw [Nat.mod_add_div]
        _ = n % q * p + q * (n / q * p) := by ring
    omega
  rw [rankOf, Nat.ceilDiv_eq_add_pred_div, hn, Nat.add_mul_div_left _ _ hq,
    Nat.ceilDiv_eq_add_pred_div, Nat.add_comm]

theorem getElem?_rel_of_le {α : Type} {r : α → α → Prop} (hrefl : ∀ a, r a a) {s : List α}
    (hs : s.Pairwise r) {i j : Nat} {a b : α} (hij : i ≤ j) (ha : s[i]? = some a)
    (hb : s[j]? = some b) : r a b := by
  obtain ⟨hi, rfl⟩ := List.getElem?_eq_some_iff.mp ha
  obtain ⟨hj, rfl⟩ := List.getElem?_eq_some_iff.mp hb
  obtain hlt | rfl := Nat.lt_or_eq_of_le hij
  · exact List.pairwise_iff_getElem.mp hs i j hi hj hlt
  · exact hrefl _

end Stats
