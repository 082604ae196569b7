import HybridPqc.Openssl.Lib
import HybridPqc.Stats.NearestRank
import Mathlib.Data.List.Sort

/-!
# Tools.BenchmarkCompositeVerify

The order statistics of `benchmark_composite_verify.c`: `nearest_rank`, the median, and
`run_benchmark`, which takes the samples and sorts them. `size_t` and `uint64_t` are `UInt64`; a
read outside of the array gives `none`.

Mathematical meaning: `nearest_rank` reads the sample of rank `⌈n * p / q⌉` (`Stats.rankOf`), the
median is the middle sample or the rounded-down mean of the two. The code computes the first by
quotient and remainder, the second by halves and low bits; `RankWords.Exact` and
`AverageWords.Exact` say that none of its words wraps.

The conversions to milliseconds and the mean are `long double` arithmetic and stay a parameter.
-/

namespace HybridPqc

/-! ## Ranks and the median -/

/-- The values `nearest_rank` computes with: `count / denominator * numerator`, and from the
remainder `product`, `padded`, `dividend`, `part` and the sum with what there was. -/
structure RankWords where
  whole : UInt64
  product : UInt64
  padded : UInt64
  dividend : UInt64
  part : UInt64
  sum : UInt64

def rankWords (count numerator denominator : UInt64) : RankWords :=
  let whole := count / denominator * numerator
  let product := count % denominator * numerator
  let padded := product + denominator
  let dividend := padded - 1
  let part := dividend / denominator
  ⟨whole, product, padded, dividend, part, whole + part⟩

/-- The index `rank - 1` of the sample that is read. -/
def nearestRankIndex (count numerator denominator : UInt64) : UInt64 :=
  let w := rankWords count numerator denominator
  let rank := if count % denominator ≠ 0 then w.sum else w.whole
  let rank := if rank = 0 then 1 else rank
  rank - 1

def nearestRank (sorted : List UInt64) (count numerator denominator : UInt64) : Option UInt64 :=
  sorted[(nearestRankIndex count numerator denominator).toNat]?

/-- The values of the average of two samples: their halves, their low bits, and the sum. -/
structure AverageWords where
  halves : UInt64
  bits : UInt64
  sum : UInt64

def averageWords (a b : UInt64) : AverageWords :=
  let halves := a / 2 + b / 2
  let bits := (a &&& 1) + (b &&& 1)
  ⟨halves, bits, halves + bits / 2⟩

/-- `median_ns` -/
def medianNs (samples : List UInt64) (iterations : UInt64) : Option UInt64 :=
  if iterations &&& 1 ≠ 0 then samples[(iterations / 2).toNat]?
  else
    (samples[(iterations / 2 - 1).toNat]?).bind fun a =>
      (samples[(iterations / 2).toNat]?).map fun b => (averageWords a b).sum

/-! ## The benchmark -/

/-- `struct timespec` -/
structure Timespec where
  tvSec : Int
  tvNsec : Int

/-- `now_ns`; `none` when `clock_gettime` fails. -/
def nowNs : Option Timespec → UInt64
  | none => 0xffffffffffffffff
  | some timestamp =>
    if timestamp.tvSec < 0 ∨ timestamp.tvNsec < 0 then 0xffffffffffffffff
    else UInt64.ofNat timestamp.tvSec.toNat * 1000000000 + UInt64.ofNat timestamp.tvNsec.toNat

def compareU64 (a b : UInt64) : Int :=
  (if a > b then 1 else 0) - (if a < b then 1 else 0)

/-- `qsort(samples, …, compare_u64)` -/
def qsortU64 (samples : List UInt64) : List UInt64 :=
  samples.insertionSort fun a b => compareU64 a b ≤ 0

/-- The `long double` arithmetic: `ns_to_ms` of a sample, and of the mean of the samples in the
order they were taken. -/
structure LongDouble (D : Type) where
  nsToMs : UInt64 → D
  meanMs : List UInt64 → (iterations : UInt64) → D

/-- `BENCHMARK_RESULT` -/
structure BenchmarkResult (D : Type) where
  algorithm : Bytes
  count : UInt64
  meanMs : D
  medianMs : D
  p95Ms : D
  p99Ms : D
  minMs : D
  maxMs : D

/-- What `return 0` stands for: a rejected argument, or one of the `FAIL` lines with its number. -/
inductive BenchmarkFailure where
  | argument
  | allocation
  | warmup (number : Nat)
  | clock
  | timed (number : Nat)

/-- The arguments of `run_benchmark` and what it meets: the result of the `k`-th call of `verify`,
the `k`-th reading of the clock, and whether `malloc` succeeds. -/
structure BenchmarkCall where
  algorithm : Option Bytes
  verify : Option (Nat → Int)
  resultNull : Bool
  warmupIterations : UInt64
  iterations : UInt64
  clock : Nat → Option Timespec
  malloc : Bool

/-- One timed call: the `i`-th of the second loop. -/
def benchmarkSample (c : BenchmarkCall) (verify : Nat → Int) (i : Nat) :
    Except BenchmarkFailure UInt64 :=
  let start := nowNs (c.clock (2 * i))
  let verified := verify (c.warmupIterations.toNat + i)
  let stop := nowNs (c.clock (2 * i + 1))
  if start = 0xffffffffffffffff ∨ stop = 0xffffffffffffffff ∨ stop < start then .error .clock
  else if verified ≠ 1 then .error (.timed (i + 1))
  else .ok (stop - start)

/-- The second loop, with `n` passes left from `i` on. -/
def benchmarkSamples (c : BenchmarkCall) (verify : Nat → Int) :
    (n i : Nat) → Except BenchmarkFailure (List UInt64)
  | 0, _ => .ok []
  | n + 1, i =>
    match benchmarkSample c verify i with
    | .error e => .error e
    | .ok sample =>
      match benchmarkSamples c verify n (i + 1) with
      | .error e => .error e
      | .ok samples => .ok (sample :: samples)

section

variable {D : Type} (L : LongDouble D)

/-- The fields of the result; `none` when one of the reads leaves the array. -/
def benchmarkResult (algorithm : Bytes) (iterations : UInt64) (taken : List UInt64) :
    Option (BenchmarkResult D) :=
  let samples := qsortU64 taken
  (medianNs samples iterations).bind fun median =>
  (nearestRank samples iterations 95 100).bind fun p95 =>
  (nearestRank samples iterations 99 100).bind fun p99 =>
  (samples[0]?).bind fun first =>
  (samples[(iterations - 1).toNat]?).map fun last => {
    algorithm := algorithm
    count := iterations
    meanMs := L.meanMs taken iterations
    medianMs := L.nsToMs median
    p95Ms := L.nsToMs p95
    p99Ms := L.nsToMs p99
    minMs := L.nsToMs first
    maxMs := L.nsToMs last }

/-- `run_benchmark`; `samples` has elements of eight bytes. -/
def runBenchmark (c : BenchmarkCall) : Except BenchmarkFailure (Option (BenchmarkResult D)) :=
  match c.algorithm, c.verify with
  | some algorithm, some verify =>
    if c.resultNull ∨ c.iterations = 0 ∨ c.iterations > UInt64.ofNat sizeMax / 8 then
      .error .argument
    else if c.malloc = false then .error .allocation
    else
      match (List.range c.warmupIterations.toNat).find? fun i => verify i ≠ 1 with
      | some i => .error (.warmup (i + 1))
      | none =>
        match benchmarkSamples c verify c.iterations.toNat 0 with
        | .error e => .error e
        | .ok taken => .ok (benchmarkResult L algorithm c.iterations taken)
  | _, _ => .error .argument

end

/-! ## The words -/

theorem toNat_add_of_lt {a b : UInt64} (h : a.toNat + b.toNat < 2 ^ 64) :
    (a + b).toNat = a.toNat + b.toNat := by
  rw [UInt64.toNat_add]
  exact Nat.mod_eq_of_lt h

/-- No word of `nearest_rank` wraps: each is what the operation gives over the natural numbers. -/
structure RankWords.Exact (w : RankWords) (count numerator denominator : Nat) : Prop where
  whole : w.whole.toNat = count / denominator * numerator
  product : w.product.toNat = count % denominator * numerator
  padded : w.padded.toNat = count % denominator * numerator + denominator
  dividend : w.dividend.toNat + 1 = count % denominator * numerator + denominator
  part : w.part.toNat = (count % denominator * numerator + denominator - 1) / denominator
  sum : w.sum.toNat = w.whole.toNat + w.part.toNat

/-- No word of the average wraps. -/
structure AverageWords.Exact (w : AverageWords) (a b : Nat) : Prop where
  halves : w.halves.toNat = a / 2 + b / 2
  bits : w.bits.toNat = a % 2 + b % 2
  sum : w.sum.toNat = a / 2 + b / 2 + (a % 2 + b % 2) / 2

section

variable {count numerator denominator : UInt64}

variable (count) in
theorem rankWords_exact (hpos : 0 < denominator.toNat) (hle : numerator.toNat ≤ denominator.toNat)
    (hbound : denominator.toNat * numerator.toNat + denominator.toNat < 2 ^ 64) :
    (rankWords count numerator denominator).Exact count.toNat numerator.toNat denominator.toNat ∧
    (rankWords count numerator denominator).sum.toNat =
      Stats.rankOf numerator.toNat denominator.toNat count.toNat := by
  have hcount := count.toNat_lt
  have hrem : count.toNat % denominator.toNat < denominator.toNat := Nat.mod_lt _ hpos
  have hprod : count.toNat % denominator.toNat * numerator.toNat ≤
      denominator.toNat * numerator.toNat := Nat.mul_le_mul_right _ hrem.le
  have hwhole : (rankWords count numerator denominator).whole.toNat =
      count.toNat / denominator.toNat * numerator.toNat := by
    rw [rankWords, UInt64.toNat_mul, UInt64.toNat_div]
    apply Nat.mod_eq_of_lt
    have h1 := Nat.mul_le_mul_left (count.toNat / denominator.toNat) hle
    have h2 := Nat.div_mul_le_self count.toNat denominator.toNat
    omega
  have hproduct : (rankWords count numerator denominator).product.toNat =
      count.toNat % denominator.toNat * numerator.toNat := by
    rw [rankWords, UInt64.toNat_mul, UInt64.toNat_mod]
    exact Nat.mod_eq_of_lt (by omega)
  have hpadded : (rankWords count numerator denominator).padded.toNat =
      count.toNat % denominator.toNat * numerator.toNat + denominator.toNat := by
    change ((rankWords count numerator denominator).product + denominator).toNat = _
    rw [toNat_add_of_lt (by omega), hproduct]
  have hdividend : (rankWords count numerator denominator).dividend.toNat =
      count.toNat % denominator.toNat * numerator.toNat + denominator.toNat - 1 := by
    change ((rankWords count numerator denominator).padded - 1).toNat = _
    have hone : (1 : UInt64) ≤ (rankWords count numerator denominator).padded := by
      rw [UInt64.le_iff_toNat_le, hpadded]
      change 1 ≤ _
      omega
    rw [UInt64.toNat_sub_of_le _ _ hone, hpadded]
    rfl
  have hpart : (rankWords count numerator denominator).part.toNat =
      (count.toNat % denominator.toNat * numerator.toNat + denominator.toNat - 1) /
        denominator.toNat := by
    rw [← hdividend]
    exact UInt64.toNat_div _ _
  have hrank : Stats.rankOf numerator.toNat denominator.toNat count.toNat =
      (rankWords count numerator denominator).whole.toNat +
        (rankWords count numerator denominator).part.toNat := by
    rw [hwhole, hpart, Stats.rankOf_split hpos, Nat.ceilDiv_eq_add_pred_div]
  have hsum : (rankWords count numerator denominator).sum.toNat =
      (rankWords count numerator denominator).whole.toNat +
        (rankWords count numerator denominator).part.toNat := by
    have hle' := Stats.rankOf_le (n := count.toNat) hpos hle
    change ((rankWords count numerator denominator).whole +
      (rankWords count numerator denominator).part).toNat = _
    rw [toNat_add_of_lt (by omega)]
  exact ⟨⟨hwhole, hproduct, hpadded, by omega, hpart, hsum⟩, hsum.trans hrank.symm⟩

variable (denominator) in
/-- `nearest_rank` reads the sample of the nearest rank. -/
theorem nearestRankIndex_eq (hcount : 0 < count.toNat) (hnum : 0 < numerator.toNat)
    (hle : numerator.toNat ≤ denominator.toNat)
    (hbound : denominator.toNat * numerator.toNat + denominator.toNat < 2 ^ 64) :
    (nearestRankIndex count numerator denominator).toNat =
      Stats.rankOf numerator.toNat denominator.toNat count.toNat - 1 := by
  have hpos : 0 < denominator.toNat := by omega
  obtain ⟨hexact, hrank⟩ := rankWords_exact count hpos hle hbound
  have hge := Stats.rankOf_pos hnum hpos hcount
  have hword : (if count % denominator ≠ 0 then (rankWords count numerator denominator).sum
      else (rankWords count numerator denominator).whole) =
      (rankWords count numerator denominator).sum := by
    by_cases h : count % denominator ≠ 0
    · exact if_pos h
    · rw [if_neg h, ← UInt64.toNat_inj, hexact.sum, hexact.part]
      have hrem : count.toNat % denominator.toNat = 0 := by
        rw [← UInt64.toNat_mod, not_not.mp h]
        rfl
      rw [hrem, Nat.zero_mul, Nat.zero_add, Nat.div_eq_of_lt (by omega), Nat.add_zero]
  have hne : (rankWords count numerator denominator).sum ≠ 0 := by
    intro h
    rw [h] at hrank
    exact absurd hrank hge.ne
  have hone : (1 : UInt64) ≤ (rankWords count numerator denominator).sum := by
    rw [UInt64.le_iff_toNat_le, hrank]
    exact hge
  simp only [nearestRankIndex, hword, if_neg hne]
  rw [UInt64.toNat_sub_of_le _ _ hone, hrank]
  rfl

end

/-- The words of a percentile do not wrap, whatever the count. -/
theorem rankWords_percent (n : UInt64) {percent : UInt64} (hle : percent.toNat ≤ 100) :
    (rankWords n percent 100).Exact n.toNat percent.toNat 100 := by
  have hpos : 0 < (100 : UInt64).toNat := by decide
  refine (rankWords_exact n hpos hle ?_).1
  change 100 * percent.toNat + 100 < 2 ^ 64
  omega

/-- A percentile reads the sample of its nearest rank, inside the array. -/
theorem nearestRankIndex_percent {n : UInt64} (percent : UInt64) (hcount : 0 < n.toNat)
    (hnum : 0 < percent.toNat) (hle : percent.toNat ≤ 100) :
    (nearestRankIndex n percent 100).toNat = Stats.rankOf percent.toNat 100 n.toNat - 1 ∧
      (nearestRankIndex n percent 100).toNat < n.toNat := by
  have hindex : (nearestRankIndex n percent 100).toNat =
      Stats.rankOf percent.toNat 100 n.toNat - 1 := by
    refine nearestRankIndex_eq 100 hcount hnum hle ?_
    change 100 * percent.toNat + 100 < 2 ^ 64
    omega
  have hrank : Stats.rankOf percent.toNat 100 n.toNat ≤ n.toNat :=
    Stats.rankOf_le (n := n.toNat) (q := 100) (by decide) hle
  exact ⟨hindex, by omega⟩

theorem toNat_and_one (a : UInt64) : (a &&& 1).toNat = a.toNat % 2 := by
  rw [UInt64.toNat_and]
  exact Nat.and_one_is_mod _

theorem averageWords_exact (a b : UInt64) : (averageWords a b).Exact a.toNat b.toNat := by
  have ha := a.toNat_lt
  have hb := b.toNat_lt
  have hhalf : ∀ c : UInt64, (c / 2).toNat = c.toNat / 2 := fun c => UInt64.toNat_div c 2
  have hhalves : (averageWords a b).halves.toNat = a.toNat / 2 + b.toNat / 2 := by
    change (a / 2 + b / 2).toNat = _
    rw [toNat_add_of_lt (by rw [hhalf, hhalf]; omega), hhalf, hhalf]
  have hbits : (averageWords a b).bits.toNat = a.toNat % 2 + b.toNat % 2 := by
    change ((a &&& 1) + (b &&& 1)).toNat = _
    rw [toNat_add_of_lt (by rw [toNat_and_one, toNat_and_one]; omega), toNat_and_one, toNat_and_one]
  refine ⟨hhalves, hbits, ?_⟩
  change ((averageWords a b).halves + (averageWords a b).bits / 2).toNat = _
  rw [toNat_add_of_lt (by rw [hhalf, hhalves, hbits]; omega), hhalf, hhalves, hbits]

/-- The average is the mean, rounded down. -/
theorem averageWords_sum (a b : UInt64) :
    (averageWords a b).sum.toNat = (a.toNat + b.toNat) / 2 := by
  rw [(averageWords_exact a b).sum]
  omega

/-! ## The statistics -/

/-- What the plain formulas give for the ascending samples `s`. -/
structure OrderStatistics (s : List UInt64) (first median p95 p99 last : UInt64) : Prop where
  first : s[0]? = some first
  odd : s.length % 2 = 1 → s[s.length / 2]? = some median
  even : s.length % 2 = 0 → ∃ a b, s[s.length / 2 - 1]? = some a ∧ s[s.length / 2]? = some b ∧
    median.toNat = (a.toNat + b.toNat) / 2
  p95 : s[Stats.rankOf 95 100 s.length - 1]? = some p95
  p99 : s[Stats.rankOf 99 100 s.length - 1]? = some p99
  last : s[s.length - 1]? = some last

section

variable {s : List UInt64} {first median p95 p99 last : UInt64}

/-- The two samples of an even count enclose the median, the one of an odd count is it. -/
theorem OrderStatistics.median_between (h : OrderStatistics s first median p95 p99 last)
    (hs : s.Pairwise (· ≤ ·)) :
    ∃ b, s[s.length / 2]? = some b ∧ first ≤ median ∧ median ≤ b := by
  obtain heven | hodd := Nat.mod_two_eq_zero_or_one s.length
  · obtain ⟨a, b, ha, hb, hmedian⟩ := h.even heven
    have hfa := Stats.getElem?_rel_of_le UInt64.le_refl hs (Nat.zero_le _) h.first ha
    have hab := Stats.getElem?_rel_of_le UInt64.le_refl hs (Nat.sub_le _ 1) ha hb
    rw [UInt64.le_iff_toNat_le] at hfa hab
    refine ⟨b, hb, ?_, ?_⟩
    · rw [UInt64.le_iff_toNat_le]
      omega
    · rw [UInt64.le_iff_toNat_le]
      omega
  · have hmedian := h.odd hodd
    exact ⟨median, hmedian,
      Stats.getElem?_rel_of_le UInt64.le_refl hs (Nat.zero_le _) h.first hmedian, UInt64.le_refl _⟩

/-- The statistics come in their order. -/
theorem OrderStatistics.ordered (h : OrderStatistics s first median p95 p99 last)
    (hs : s.Pairwise (· ≤ ·)) (hpos : 0 < s.length) :
    first ≤ median ∧ median ≤ p95 ∧ p95 ≤ p99 ∧ p99 ≤ last := by
  obtain ⟨b, hb, hfirst, hmedian⟩ := h.median_between hs
  have hhalf := Stats.half_lt_rankOf (p := 95) (q := 100) (by decide) (by decide) hpos
  have hmono := Stats.rankOf_mono (n := s.length) (by decide : 0 < 100) (by decide : 95 ≤ 99)
  have hle := Stats.rankOf_le (p := 99) (q := 100) (n := s.length) (by decide) (by decide)
  refine ⟨hfirst, UInt64.le_trans hmedian ?_, ?_, ?_⟩
  · exact Stats.getElem?_rel_of_le UInt64.le_refl hs (by omega) hb h.p95
  · exact Stats.getElem?_rel_of_le UInt64.le_refl hs (by omega) h.p95 h.p99
  · exact Stats.getElem?_rel_of_le UInt64.le_refl hs (by omega) h.p99 h.last

end

section

variable {s : List UInt64} {n : UInt64} (hlen : s.length = n.toNat) (hpos : 0 < n.toNat)
include hlen hpos

/-- A percentile is read inside the array. -/
theorem nearestRank_spec (numerator : UInt64) (hnum : 0 < numerator.toNat)
    (hle : numerator.toNat ≤ 100) :
    ∃ v, nearestRank s n numerator 100 = some v ∧
      s[Stats.rankOf numerator.toNat 100 s.length - 1]? = some v := by
  obtain ⟨hindex, hlt⟩ := nearestRankIndex_percent numerator hpos hnum hle
  rw [← hlen] at hindex hlt
  have hread : s[(nearestRankIndex n numerator 100).toNat]? =
      some s[(nearestRankIndex n numerator 100).toNat] := List.getElem?_eq_getElem hlt
  refine ⟨_, hread, ?_⟩
  rw [← hindex]
  exact hread

/-- The median is the middle sample, or the mean of the two, rounded down. -/
theorem medianNs_spec :
    ∃ median, medianNs s n = some median ∧
      (s.length % 2 = 1 → s[s.length / 2]? = some median) ∧
      (s.length % 2 = 0 → ∃ a b, s[s.length / 2 - 1]? = some a ∧ s[s.length / 2]? = some b ∧
        median.toNat = (a.toNat + b.toNat) / 2) := by
  have hhalf : (n / 2).toNat = s.length / 2 := by
    rw [hlen]
    exact UInt64.toNat_div n 2
  have hparity : n &&& 1 ≠ 0 ↔ s.length % 2 = 1 := by
    rw [Ne, ← UInt64.toNat_inj, toNat_and_one, hlen]
    change ¬ n.toNat % 2 = 0 ↔ _
    omega
  obtain heven | hodd := Nat.mod_two_eq_zero_or_one s.length
  · have hone : (1 : UInt64) ≤ n / 2 := by
      rw [UInt64.le_iff_toNat_le, hhalf]
      change 1 ≤ _
      omega
    have hlow : (n / 2 - 1).toNat = s.length / 2 - 1 := by
      rw [UInt64.toNat_sub_of_le _ _ hone, hhalf]
      rfl
    have ha : s[s.length / 2 - 1]? = some s[s.length / 2 - 1] := List.getElem?_eq_getElem (by omega)
    have hb : s[s.length / 2]? = some s[s.length / 2] := List.getElem?_eq_getElem (by omega)
    refine ⟨(averageWords s[s.length / 2 - 1] s[s.length / 2]).sum, ?_, ?_, ?_⟩
    · rw [medianNs, if_neg (by rw [hparity]; omega), hlow, hhalf, ha, hb]
      rfl
    · intro h
      omega
    · intro _
      exact ⟨_, _, ha, hb, averageWords_sum _ _⟩
  · have ha : s[s.length / 2]? = some s[s.length / 2] := List.getElem?_eq_getElem (by omega)
    refine ⟨s[s.length / 2], ?_, fun _ => ha, ?_⟩
    · rw [medianNs, if_pos (hparity.mpr hodd), hhalf, ha]
    · intro h
      omega

end

/-- An ascending array of `n` samples has its statistics, and the code reads them. -/
theorem orderStatistics_exists {s : List UInt64} {n : UInt64} (hlen : s.length = n.toNat)
    (hpos : 0 < n.toNat) :
    ∃ first median p95 p99 last, OrderStatistics s first median p95 p99 last ∧
      medianNs s n = some median ∧ nearestRank s n 95 100 = some p95 ∧
      nearestRank s n 99 100 = some p99 := by
  obtain ⟨median, hmedian, hodd, heven⟩ := medianNs_spec hlen hpos
  obtain ⟨p95, h95, hr95⟩ := nearestRank_spec hlen hpos 95 (by decide) (by decide)
  obtain ⟨p99, h99, hr99⟩ := nearestRank_spec hlen hpos 99 (by decide) (by decide)
  have hfirst : s[0]? = some s[0] := List.getElem?_eq_getElem (by omega)
  have hlast : s[s.length - 1]? = some s[s.length - 1] := List.getElem?_eq_getElem (by omega)
  exact ⟨_, median, p95, p99, _, ⟨hfirst, hodd, heven, hr95, hr99, hlast⟩, hmedian, h95, h99⟩

/-! ## The run -/

theorem compareU64_le {a b : UInt64} : compareU64 a b ≤ 0 ↔ a ≤ b := by
  unfold compareU64
  by_cases hgt : a > b
  · have hlt : ¬ a < b := fun h => UInt64.lt_asymm h hgt
    simp [hgt, hlt]
  · by_cases hlt : a < b
    · simp [hgt, hlt, UInt64.le_of_lt hlt]
    · simp [hgt, hlt, UInt64.not_lt.mp hgt]

theorem qsortU64_perm (samples : List UInt64) : (qsortU64 samples).Perm samples :=
  List.perm_insertionSort _ _

theorem qsortU64_ascending (samples : List UInt64) : (qsortU64 samples).Pairwise (· ≤ ·) := by
  have hle : (fun a b => compareU64 a b ≤ 0) = fun a b : UInt64 => a ≤ b := by
    funext a b
    exact propext compareU64_le
  have htotal : Std.Total fun a b : UInt64 => a ≤ b := ⟨UInt64.le_total⟩
  have htrans : IsTrans UInt64 fun a b => a ≤ b := ⟨fun _ _ _ => UInt64.le_trans⟩
  simp only [qsortU64, hle]
  exact List.pairwise_insertionSort _ _

theorem benchmarkSamples_length {c : BenchmarkCall} {verify : Nat → Int} {n i : Nat}
    {taken : List UInt64} (h : benchmarkSamples c verify n i = .ok taken) : taken.length = n := by
  induction n generalizing i taken with
  | zero =>
    cases h
    rfl
  | succ n ih =>
    simp only [benchmarkSamples] at h
    split at h
    · cases h
    · split at h
      · cases h
      · rename_i samples hsamples
        cases h
        rw [List.length_cons, ih hsamples]

/-- A run that returns 1 has allocated `iterations` samples of eight bytes, taken them all, and
passed the test on the arguments. -/
theorem runBenchmark_ok {D : Type} {L : LongDouble D} {c : BenchmarkCall}
    {r : Option (BenchmarkResult D)} (h : runBenchmark L c = .ok r) :
    ∃ algorithm verify taken, c.algorithm = some algorithm ∧ c.verify = some verify ∧
      0 < c.iterations.toNat ∧ c.iterations.toNat ≤ sizeMax / 8 ∧
      benchmarkSamples c verify c.iterations.toNat 0 = .ok taken ∧
      r = benchmarkResult L algorithm c.iterations taken := by
  cases ha : c.algorithm with
  | none =>
    simp only [runBenchmark, ha] at h
    cases h
  | some algorithm =>
    cases hv : c.verify with
    | none =>
      simp only [runBenchmark, ha, hv] at h
      cases h
    | some verify =>
      simp only [runBenchmark, ha, hv] at h
      split at h
      · cases h
      · rename_i hargs
        split at h
        · cases h
        · split at h
          · cases h
          · split at h
            · cases h
            · rename_i taken htaken
              cases h
              obtain ⟨_, hargs⟩ := not_or.mp hargs
              obtain ⟨hzero, hmax⟩ := not_or.mp hargs
              rw [gt_iff_lt, UInt64.not_lt, UInt64.le_iff_toNat_le] at hmax
              rw [← UInt64.toNat_inj] at hzero
              exact ⟨algorithm, verify, taken, rfl, rfl, Nat.pos_of_ne_zero hzero, hmax, htaken,
                rfl⟩

/-- A run that returns 1 reports the order statistics of the samples it has taken. -/
theorem runBenchmark_statistics {D : Type} {L : LongDouble D} {c : BenchmarkCall}
    {r : Option (BenchmarkResult D)} (h : runBenchmark L c = .ok r) :
    ∃ algorithm verify taken first median p95 p99 last,
      c.algorithm = some algorithm ∧ c.verify = some verify ∧
      (c.iterations * 8).toNat = c.iterations.toNat * 8 ∧
      benchmarkSamples c verify c.iterations.toNat 0 = .ok taken ∧
      OrderStatistics (qsortU64 taken) first median p95 p99 last ∧
      r = some {
        algorithm := algorithm
        count := c.iterations
        meanMs := L.meanMs taken c.iterations
        medianMs := L.nsToMs median
        p95Ms := L.nsToMs p95
        p99Ms := L.nsToMs p99
        minMs := L.nsToMs first
        maxMs := L.nsToMs last } := by
  obtain ⟨algorithm, verify, taken, ha, hv, hpos, hmax, htaken, rfl⟩ := runBenchmark_ok h
  have hlen : (qsortU64 taken).length = c.iterations.toNat :=
    (qsortU64_perm taken).length_eq.trans (benchmarkSamples_length htaken)
  obtain ⟨first, median, p95, p99, last, hstat, hmedian, h95, h99⟩ :=
    orderStatistics_exists hlen hpos
  have hbytes : (c.iterations * 8).toNat = c.iterations.toNat * 8 := by
    rw [UInt64.toNat_mul]
    apply Nat.mod_eq_of_lt
    change c.iterations.toNat * 8 < 2 ^ 64
    simp only [sizeMax] at hmax
    omega
  have hlast : (qsortU64 taken)[(c.iterations - 1).toNat]? = some last := by
    have hone : (1 : UInt64) ≤ c.iterations := by
      rw [UInt64.le_iff_toNat_le]
      exact hpos
    rw [UInt64.toNat_sub_of_le _ _ hone, ← hlen]
    exact hstat.last
  refine ⟨algorithm, verify, taken, first, median, p95, p99, last, ha, hv, hbytes, htaken, hstat,
    ?_⟩
  simp only [benchmarkResult, hmedian, h95, h99, hstat.first, hlast, Option.bind_some,
    Option.map_some]

/-- **The order statistics are exact.** On ascending samples `nearest_rank` reads the samples of the
ranks `⌈95n/100⌉` and `⌈99n/100⌉`, inside the array; the median is the middle sample or the mean of
the two, rounded down; no word wraps and the statistics come in their order. A run that returns 1
reports exactly these of the samples it has taken. -/
theorem benchmark_statistics_exact :
    (∀ (s : List UInt64) (n : UInt64), s.length = n.toNat → 1 ≤ n.toNat → s.Pairwise (· ≤ ·) →
      (rankWords n 95 100).Exact s.length 95 100 ∧
      (rankWords n 99 100).Exact s.length 99 100 ∧
      (nearestRankIndex n 95 100).toNat = Stats.rankOf 95 100 s.length - 1 ∧
      (nearestRankIndex n 95 100).toNat < s.length ∧
      (nearestRankIndex n 99 100).toNat = Stats.rankOf 99 100 s.length - 1 ∧
      (nearestRankIndex n 99 100).toNat < s.length ∧
      ∃ first median p95 p99 last, OrderStatistics s first median p95 p99 last ∧
        medianNs s n = some median ∧ nearestRank s n 95 100 = some p95 ∧
        nearestRank s n 99 100 = some p99 ∧
        first ≤ median ∧ median ≤ p95 ∧ p95 ≤ p99 ∧ p99 ≤ last) ∧
    (∀ a b, (averageWords a b).Exact a.toNat b.toNat) ∧
    (∀ (D : Type) (L : LongDouble D) (c : BenchmarkCall) (r : Option (BenchmarkResult D)),
      runBenchmark L c = .ok r →
      ∃ algorithm verify taken first median p95 p99 last,
        c.algorithm = some algorithm ∧ c.verify = some verify ∧
        (c.iterations * 8).toNat = c.iterations.toNat * 8 ∧
        benchmarkSamples c verify c.iterations.toNat 0 = .ok taken ∧
        (qsortU64 taken).Perm taken ∧
        (qsortU64 taken).Pairwise (· ≤ ·) ∧
        OrderStatistics (qsortU64 taken) first median p95 p99 last ∧
        r = some {
          algorithm := algorithm
          count := c.iterations
          meanMs := L.meanMs taken c.iterations
          medianMs := L.nsToMs median
          p95Ms := L.nsToMs p95
          p99Ms := L.nsToMs p99
          minMs := L.nsToMs first
          maxMs := L.nsToMs last }) := by
  refine ⟨?_, averageWords_exact, ?_⟩
  · intro s n hlen hpos hs
    obtain ⟨h95, hlt95⟩ := nearestRankIndex_percent 95 hpos (by decide) (by decide)
    obtain ⟨h99, hlt99⟩ := nearestRankIndex_percent 99 hpos (by decide) (by decide)
    obtain ⟨first, median, p95, p99, last, hstat, hmedian, hr95, hr99⟩ :=
      orderStatistics_exists hlen hpos
    have hordered := hstat.ordered hs (by omega)
    rw [hlen]
    exact ⟨rankWords_percent n (by decide), rankWords_percent n (by decide), h95, hlt95, h99, hlt99,
      first, median, p95, p99, last, hstat, hmedian, hr95, hr99, hordered⟩
  · intro D L c r h
    obtain ⟨algorithm, verify, taken, first, median, p95, p99, last, ha, hv, hbytes, htaken, hstat,
      hr⟩ :=
      runBenchmark_statistics h
    exact ⟨algorithm, verify, taken, first, median, p95, p99, last, ha, hv, hbytes, htaken,
      qsortU64_perm taken, qsortU64_ascending taken, hstat, hr⟩

/-- Four samples: the median 6 is the mean of 5 and 8, rounded down, and both percentiles are the
last sample. -/
theorem benchmark_statistics_exact_four :
    (nearestRankIndex 4 95 100).toNat = 3 ∧ medianNs [3, 5, 8, 9] 4 = some 6 ∧
    ∃ p95 p99, OrderStatistics [3, 5, 8, 9] 3 6 p95 p99 9 ∧ 6 ≤ p95 ∧ p95 ≤ p99 ∧ p99 ≤ 9 := by
  obtain ⟨hall, _, _⟩ := benchmark_statistics_exact
  obtain ⟨_, _, h95, _, _, _, first, median, p95, p99, last, hstat, hmedian, _, _, _, hle⟩ :=
    hall [3, 5, 8, 9] 4 rfl (by decide) (by decide)
  have heval : medianNs [3, 5, 8, 9] 4 = some 6 := by decide
  rw [heval] at hmedian
  cases hmedian
  cases hstat.first
  cases hstat.last
  exact ⟨h95, heval, p95, p99, hstat, hle⟩

end HybridPqc
