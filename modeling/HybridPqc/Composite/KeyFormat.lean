import HybridPqc.Composite.Toy
import HybridPqc.Refs.Heap

/-!
# Composite.KeyFormat

The grammar of a composite public key, and `composite_parse_public_key` as it replaces a live key.

`compositeParsePublicKey_isSome_iff`: accepted are 1377 bytes with `0x04` at 1312 and the
coordinates of a point of the SM2 curve after it. `compositeParsePublicKeyInto` is the same function
on a caller's structure that owns one reference to its SM2 key: `compositeParsePublicKeyInto_failed`
says that a failed parse changes neither the structure nor any key object,
`compositeParsePublicKeyInto_parsed` that a successful one gives up the old reference and holds the
only one to the new key.
-/

/-! ## The SM2 curve -/

namespace Sm2Curve

/-- The field prime; the curve is `y² = x³ + a x + b`. -/
def p : Nat := 0xFFFFFFFEFFFFFFFFFFFFFFFFFFFFFFFFFFFFFFFF00000000FFFFFFFFFFFFFFFF
def a : Nat := 0xFFFFFFFEFFFFFFFFFFFFFFFFFFFFFFFFFFFFFFFF00000000FFFFFFFFFFFFFFFC
def b : Nat := 0x28E9FA9E9D9F5E344D5A9E4BCF6509A7F39789F515AB8F92DDBCBD414D940E93

def onCurve (x y : Nat) : Bool :=
  decide (x < p) && decide (y < p) && (y * y) % p == (x * x * x + a * x + b) % p

/-- The 64 octets are the coordinates of a point. -/
def isPoint (xy : Bytes) : Bool :=
  xy.length == 64 && onCurve (beNat (xy.take 32)) (beNat (xy.drop 32))

/-- The octets of the base point. -/
def generator : Bytes :=
  [0x32, 0xC4, 0xAE, 0x2C, 0x1F, 0x19, 0x81, 0x19, 0x5F, 0x99, 0x04, 0x46, 0x6A, 0x39, 0xC9, 0x94,
    0x8F, 0xE3, 0x0B, 0xBF, 0xF2, 0x66, 0x0B, 0xE1, 0x71, 0x5A, 0x45, 0x89, 0x33, 0x4C, 0x74, 0xC7,
    0xBC, 0x37, 0x36, 0xA2, 0xF4, 0xF6, 0x77, 0x9C, 0x59, 0xBD, 0xCE, 0xE3, 0x6B, 0x69, 0x21, 0x53,
    0xD0, 0xA9, 0x87, 0x7C, 0xC6, 0x2A, 0x47, 0x40, 0x02, 0xDF, 0x32, 0xE5, 0x21, 0x39, 0xF0, 0xA0]

theorem generator_isPoint : isPoint generator = true := by decide +kernel

end Sm2Curve

namespace HybridPqc

open Refs

section

variable {PKey : Type} {C : Crypto PKey}

/-- An import succeeds, and passes the key check, exactly for the uncompressed points of the curve;
an exported uncompressed encoding is one. -/
structure Sm2Points (C : Crypto PKey) : Prop where
  imports : ∀ o, o.length = 65 → o.head? = some 0x04 →
    ((∃ k, C.fromdata o = some k ∧ C.publicCheck k = true) ↔ Sm2Curve.isPoint o.tail = true)
  exports : ∀ k o, sm2Octets C k = some o → Sm2Curve.isPoint o.tail = true

theorem Sm2Points.sm2Imports (h : Sm2Points C) : Sm2Imports C := by
  intro k o ho
  obtain ⟨hl, hh⟩ := sm2Octets_form ho
  exact (h.imports o hl hh).mpr (h.exports k o ho)

theorem parseSm2PublicKey_isSome_iff (h : Sm2Points C) {o : Bytes} :
    (parseSm2PublicKey C o).isSome = true ↔
      o.length = 65 ∧ o.head? = some 0x04 ∧ Sm2Curve.isPoint o.tail = true := by
  simp only [parseSm2PublicKey]
  by_cases ho : o.length = sm2UncompressedPublicKeyBytes ∧ o.head? = some 0x04
  · have hl : o.length = 65 := ho.1
    rw [if_pos ho, ← h.imports o hl ho.2]
    cases hf : C.fromdata o with
    | none => simp
    | some k =>
      cases hc : C.publicCheck k with
      | false => simp [hc]
      | true => simp [hc, hl, ho.2]
  · rw [if_neg ho]
    simp only [Option.isSome_none, Bool.false_eq_true, false_iff]
    rintro ⟨hl, hh, _⟩
    exact ho ⟨hl, hh⟩

theorem compositeParsePublicKey_isSome {b : Bytes} :
    (compositeParsePublicKey C b).isSome = true ↔
      b.length = 1377 ∧ (parseSm2PublicKey C (b.drop 1312)).isSome = true := by
  constructor
  · intro h
    obtain ⟨key, hkey⟩ := Option.isSome_iff_exists.mp h
    obtain ⟨k, _, hl, _, hk⟩ := compositeParsePublicKey_some hkey
    rw [hk]
    exact ⟨hl, rfl⟩
  · rintro ⟨hl, hk⟩
    obtain ⟨k, hk⟩ := Option.isSome_iff_exists.mp hk
    have hs : b.slice 1312 65 = b.drop 1312 := by
      rw [Bytes.slice, List.take_of_length_le (by simp; omega)]
    have hd : (b.slice 0 1312).length = 1312 := by
      simp only [Bytes.slice, List.length_take, List.length_drop]
      omega
    have hdil : Block.ofBytes? 1312 (b.slice 0 1312) = some ⟨b.slice 0 1312, hd⟩ :=
      Block.ofBytes?_eq_some.mpr rfl
    have hparse : compositeParsePublicKey C b = some ⟨some k, ⟨b.slice 0 1312, hd⟩⟩ := by
      unfold compositeParsePublicKey
      rw [if_pos (show b.length = compositePublicKeyBytes from hl)]
      simp only [dilithiumPublicKeyBytes, sm2UncompressedPublicKeyBytes, hs, hk, hdil]
    rw [hparse]
    rfl

/-- Acceptance is the grammar. -/
theorem compositeParsePublicKey_isSome_iff (h : Sm2Points C) {b : Bytes} :
    (compositeParsePublicKey C b).isSome = true ↔
      b.length = 1377 ∧ b[1312]? = some 0x04 ∧ Sm2Curve.isPoint (b.drop 1313) = true := by
  rw [compositeParsePublicKey_isSome, parseSm2PublicKey_isSome_iff h, List.length_drop,
    List.head?_drop, List.tail_drop]
  constructor
  · rintro ⟨hl, _, hh, hp⟩
    exact ⟨hl, hh, hp⟩
  · rintro ⟨hl, hh, hp⟩
    exact ⟨hl, by omega, hh, hp⟩

/-- Serialising undoes parsing. -/
theorem compositeSerializePublicKey_parse {b : Bytes} {key : HybridPublicKey PKey}
    (h : compositeParsePublicKey C b = some key) : compositeSerializePublicKey C key = some b := by
  obtain ⟨k, hk, _, hd, hp⟩ := compositeParsePublicKey_some h
  rw [compositeSerializePublicKey_eq, hk, hd, Option.bind_some, sm2Octets_of_parse hp,
    Option.map_some, List.take_append_drop]

variable (C)

/-- The Dilithium2 bytes are the same and the SM2 keys export the same point. -/
def SameComponents (left right : HybridPublicKey PKey) : Prop :=
  left.dilithiumPublicKey = right.dilithiumPublicKey ∧
    ∃ s p o, left.sm2PublicKey = some s ∧ right.sm2PublicKey = some p ∧
      sm2Octets C s = some o ∧ sm2Octets C p = some o

/-! ## Replacing a live key -/

/-- A `HYBRID_PUBLIC_KEY` whose SM2 key is a pointer to a counted object. -/
structure PublicKeySlot where
  sm2PublicKey : Option Nat
  dilithiumPublicKey : Block dilithiumPublicKeyBytes
  deriving DecidableEq

/-- `parse_sm2_public_key` with its `EVP_PKEY_free`: the heap and the pointer it returns. -/
def parseSm2PublicKeyNew (H : Heap PKey) (encoded : Bytes) : Heap PKey × Option Nat :=
  if encoded.length = sm2UncompressedPublicKeyBytes ∧ encoded.head? = some 0x04 then
    match C.fromdata encoded with
    | none => (H, none)
    | some key =>
      if C.publicCheck key then (H.alloc key, some H.next)
      else ((H.alloc key).release H.next, none)
  else (H, none)

/-- `composite_parse_public_key` on the caller's `key`. -/
def compositeParsePublicKeyInto (H : Heap PKey) (serialized : CArg) (key : PublicKeySlot) :
    Bool × Heap PKey × PublicKeySlot :=
  match serialized with
  | .null _ => (false, H, key)
  | .buf serialized =>
    if serialized.length = compositePublicKeyBytes then
      match parseSm2PublicKeyNew C H
          (serialized.slice dilithiumPublicKeyBytes sm2UncompressedPublicKeyBytes) with
      | (H, none) => (false, H, key)
      | (H, some parsed) =>
        match Block.ofBytes? dilithiumPublicKeyBytes
            (serialized.slice 0 dilithiumPublicKeyBytes) with
        | none => (false, H, key)
        | some dil => (true, H.releaseOpt key.sm2PublicKey, ⟨some parsed, dil⟩)
    else (false, H, key)

variable {C}

theorem parseSm2PublicKeyNew_none {H H' : Heap PKey} {encoded : Bytes}
    (h : parseSm2PublicKeyNew C H encoded = (H', none)) :
    H'.obj = H.obj ∧ parseSm2PublicKey C encoded = none := by
  simp only [parseSm2PublicKeyNew] at h
  simp only [parseSm2PublicKey]
  split at h
  · rename_i he
    rw [if_pos he]
    cases hkey : C.fromdata encoded with
    | none =>
      rw [hkey] at h
      cases h
      exact ⟨rfl, rfl⟩
    | some key =>
      rw [hkey] at h
      dsimp only at h ⊢
      split at h
      · cases h
      · rename_i hc
        cases h
        exact ⟨Heap.alloc_release, if_neg hc⟩
  · rename_i he
    cases h
    rw [if_neg he]
    exact ⟨rfl, rfl⟩

theorem parseSm2PublicKeyNew_some {H H' : Heap PKey} {encoded : Bytes} {n : Nat}
    (h : parseSm2PublicKeyNew C H encoded = (H', some n)) :
    ∃ k, parseSm2PublicKey C encoded = some k ∧ H' = H.alloc k ∧ n = H.next := by
  simp only [parseSm2PublicKeyNew] at h
  split at h
  · rename_i he
    split at h
    · cases h
    · rename_i key hkey
      split at h
      · rename_i hc
        cases h
        exact ⟨key, by simp [parseSm2PublicKey, he, hkey, hc], rfl, rfl⟩
      · cases h
  · cases h

/-- The two versions accept the same bytes. -/
theorem compositeParsePublicKeyInto_fst {H : Heap PKey} {b : Bytes} {key : PublicKeySlot} :
    (compositeParsePublicKeyInto C H (.buf b) key).1 = (compositeParsePublicKey C b).isSome := by
  simp only [compositeParsePublicKeyInto, compositeParsePublicKey]
  split
  · cases hp : parseSm2PublicKeyNew C H
        (b.slice dilithiumPublicKeyBytes sm2UncompressedPublicKeyBytes) with
    | mk H' r =>
      cases r with
      | none => simp only [(parseSm2PublicKeyNew_none hp).2, Option.isSome_none]
      | some n =>
        obtain ⟨k, hk, _⟩ := parseSm2PublicKeyNew_some hp
        simp only [hk]
        cases Block.ofBytes? dilithiumPublicKeyBytes (b.slice 0 dilithiumPublicKeyBytes) with
        | none => rfl
        | some dil => rfl
  · rfl

/-- A failed parse leaves the caller's key and every key object as they were. -/
theorem compositeParsePublicKeyInto_failed {H : Heap PKey} {serialized : CArg}
    {key : PublicKeySlot}
    (h : (compositeParsePublicKeyInto C H serialized key).1 = false) :
    (compositeParsePublicKeyInto C H serialized key).2.2 = key ∧
      (compositeParsePublicKeyInto C H serialized key).2.1.obj = H.obj := by
  cases serialized with
  | null n => exact ⟨rfl, rfl⟩
  | buf b =>
    simp only [compositeParsePublicKeyInto] at h ⊢
    by_cases hl : b.length = compositePublicKeyBytes
    · rw [if_pos hl] at h ⊢
      cases hp : parseSm2PublicKeyNew C H
          (b.slice dilithiumPublicKeyBytes sm2UncompressedPublicKeyBytes) with
      | mk H' r =>
        cases r with
        | none => exact ⟨rfl, (parseSm2PublicKeyNew_none hp).1⟩
        | some n =>
          -- the first 1312 of 1377 bytes always fill the block
          have hd : (b.slice 0 dilithiumPublicKeyBytes).length = dilithiumPublicKeyBytes := by
            simp only [Bytes.slice, List.length_take, List.length_drop, hl,
              compositePublicKeyBytes]
            omega
          simp [hp, Block.ofBytes?, hd] at h
    · rw [if_neg hl]
      exact ⟨rfl, rfl⟩

/-- A successful parse stores the parsed key, holds the one reference to it, and gives up the
reference the caller's key held. -/
theorem compositeParsePublicKeyInto_parsed {H H' : Heap PKey} {b : Bytes}
    {key key' : PublicKeySlot} (hkey : ∀ n, key.sm2PublicKey = some n → 0 < H.count n)
    (h : compositeParsePublicKeyInto C H (.buf b) key = (true, H', key')) :
    ∃ n k, key'.sm2PublicKey = some n ∧ H'.obj n = some (k, 1) ∧ H.obj n = none ∧
      compositeParsePublicKey C b = some ⟨some k, key'.dilithiumPublicKey⟩ ∧
      ∀ m, m ≠ n → H'.count m = if key.sm2PublicKey = some m then H.count m - 1 else H.count m := by
  simp only [compositeParsePublicKeyInto] at h
  split at h
  · rename_i hl
    split at h
    · cases h
    · rename_i H1 n hp
      split at h
      · cases h
      · rename_i dil hdil
        cases h
        obtain ⟨k, hk, rfl, rfl⟩ := parseSm2PublicKeyNew_some hp
        have hnext : key.sm2PublicKey ≠ some H.next := by
          intro he
          have hpos := hkey _ he
          rw [Heap.count, H.fresh (Nat.le_refl _)] at hpos
          exact absurd hpos (Nat.lt_irrefl 0)
        refine ⟨H.next, k, rfl, ?_, H.fresh (Nat.le_refl _), ?_, fun m hm => ?_⟩
        · rw [Heap.releaseOpt_obj_ne hnext, Heap.alloc_obj_next]
        · simp only [compositeParsePublicKey, if_pos hl, hk, hdil]
        · have hcount : (H.alloc k).count m = H.count m := by
            rw [Heap.count, Heap.alloc_obj_ne hm, Heap.count]
          by_cases hold : key.sm2PublicKey = some m
          · rw [if_pos hold, hold, Heap.releaseOpt, Heap.count_release, hcount]
          · rw [if_neg hold, Heap.count, Heap.releaseOpt_obj_ne hold, ← Heap.count, hcount]
  · cases h

end

namespace Toy

def curveKey (b : Bytes) : Option Bytes :=
  if isPoint b && Sm2Curve.isPoint b.tail then some b else none

theorem curveKey_some {b k : Bytes} :
    curveKey b = some k ↔ k = b ∧ isPoint b = true ∧ Sm2Curve.isPoint b.tail = true := by
  unfold curveKey
  split
  · rename_i h
    rw [Bool.and_eq_true] at h
    simp [h, eq_comm]
  · rename_i h
    rw [Bool.and_eq_true] at h
    simp [h]

theorem curveKey_le {k o : Bytes} (h : curveKey k = some o) : o.length ≤ 65 := by
  obtain ⟨rfl, hk, _⟩ := curveKey_some.mp h
  simp only [isPoint, Bool.and_eq_true, beq_iff_eq] at hk
  omega

theorem curveKey_export {b k : Bytes} (h : curveKey b = some k) : curveKey k = some b := by
  obtain ⟨rfl, hk⟩ := curveKey_some.mp h
  exact curveKey_some.mpr ⟨rfl, hk⟩

/-- `crypto` with the points of the SM2 curve as its only keys. -/
def curveCrypto : Crypto Bytes := { crypto with
  getPubKey := curveKey
  getPubKey_le := curveKey_le
  fromdata := curveKey
  fromdata_export := fun _ _ h => ⟨rfl, curveKey_export h⟩ }

theorem sm2Points : Sm2Points curveCrypto where
  imports o hl hh := by
    have hp : isPoint o = true := by simp [isPoint, hl, hh]
    constructor
    · rintro ⟨k, hk, _⟩
      exact (curveKey_some.mp hk).2.2
    · intro h
      exact ⟨o, curveKey_some.mpr ⟨rfl, hp, h⟩, rfl⟩
  exports k o ho := by
    obtain ⟨rfl, _, h⟩ := curveKey_some.mp (HybridPqc.sm2Octets_some ho).2
    exact h

end Toy

end HybridPqc
