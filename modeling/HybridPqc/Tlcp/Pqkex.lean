import HybridPqc.Tls.Wire

/-!
# Tlcp.Pqkex

The PQKEX capability extension that `0001-add-experimental-tlcp-pqkex-capability.patch` adds to
GmSSL: its writer and its reader.

GmSSL's own byte readers and writers are the parameters `GmsslBytes`. Pointers to results are
non-`NULL`; `extData` may be `NULL`, as it is for an extension without data.

`pqkex_format`: the reader takes exactly a 16-bit length and that many bytes, in pairs, between one
pair and the caller's capacity; writer and reader undo each other; and the reader stays within the
capacity.
-/

namespace HybridPqc

open Tls

inductive TlsProtocol where
  | tlcp
  | other
  deriving DecidableEq, Repr

def tlsExtensionPqkex : UInt16 := 65282

def tlsPqkexMaxKems : Nat := 8

/-- GmSSL's byte helpers: a writer gives what it appends, a reader what it read and what is left. -/
structure GmsslBytes where
  tlsUint16ToBytes : UInt16 → Bytes
  tlsUint16FromBytes : Bytes → Option (UInt16 × Bytes)
  tlsUint16arrayFromBytes : Bytes → Option (Bytes × Bytes)
  tlsExtToBytes : UInt16 → Bytes → Option Bytes

/-- What `tls_pqkex_from_bytes` leaves in the caller's array and counter. -/
structure PqkexOutcome where
  ok : Bool
  kems : List UInt16
  kemsCnt : Nat
  deriving DecidableEq, Repr

section

variable (G : GmsslBytes)

/-- `tls_pqkex_ext_to_bytes`: what is appended to the output, `none` for -1. -/
def tlsPqkexExtToBytes (kems : List UInt16) : Option Bytes :=
  if kems.length = 0 ∨ tlsPqkexMaxKems < kems.length then none
  else
    let extData := G.tlsUint16ToBytes (UInt16.ofNat (kems.length * 2)) ++
      kems.flatMap G.tlsUint16ToBytes
    G.tlsExtToBytes tlsExtensionPqkex extData

/-- The reading loop, `count - i` steps before its end: the result, the rest of the list and the
array. -/
def pqkexReadLoop : Nat → Nat → Bytes → List UInt16 → Bool × Bytes × List UInt16
  | 0, _, list, kems => (true, list, kems)
  | n + 1, i, list, kems =>
    match G.tlsUint16FromBytes list with
    | none => (false, list, kems)
    | some (kem, list) => pqkexReadLoop n (i + 1) list (kems.set i kem)

def tlsPqkexFromBytes (kems : List UInt16) (kemsCnt maxKems : Nat) (extData : CArg) :
    PqkexOutcome :=
  match extData with
  | .null _ => ⟨false, kems, kemsCnt⟩
  | .buf extData =>
    if maxKems = 0 ∨ tlsPqkexMaxKems < maxKems then ⟨false, kems, kemsCnt⟩
    else
      match G.tlsUint16arrayFromBytes extData with
      | none => ⟨false, kems, 0⟩
      | some (list, extData) =>
        if extData.length ≠ 0 ∨ list.length < 2 ∨ list.length % 2 = 1 then ⟨false, kems, 0⟩
        else
          let count := list.length / 2
          if maxKems < count then ⟨false, kems, 0⟩
          else
            match pqkexReadLoop G count 0 list kems with
            | (false, _, kems) => ⟨false, kems, 0⟩
            | (true, list, kems) =>
              if list.length ≠ 0 then ⟨false, kems, 0⟩ else ⟨true, kems, count⟩

/-- The helpers read and write big-endian numbers and length-prefixed strings. -/
structure GmsslBytes.BigEndian : Prop where
  uint16To : ∀ v, G.tlsUint16ToBytes v = putU16 v
  uint16From : ∀ b, G.tlsUint16FromBytes b = getU16 b
  arrayFrom : ∀ b, G.tlsUint16arrayFromBytes b = getVector b
  extTo : ∀ type data, data.length < 65536 →
    G.tlsExtToBytes type data = some (putU16 type ++ putVector data)

/-- The extension data of a list of KEMs. -/
def pqkexData (kems : List UInt16) : Bytes := putVector (kems.flatMap putU16)

end

section

variable {G : GmsslBytes} (hG : G.BigEndian)

include hG

theorem tlsPqkexExtToBytes_eq {kems : List UInt16} (h1 : 0 < kems.length)
    (h8 : kems.length ≤ tlsPqkexMaxKems) :
    tlsPqkexExtToBytes G kems =
      some (putU16 tlsExtensionPqkex ++ putVector (pqkexData kems)) := by
  have hfun : G.tlsUint16ToBytes = putU16 := funext hG.uint16To
  have hlen := flatMap_putU16_length kems
  have hdata : putU16 (UInt16.ofNat (kems.length * 2)) ++ kems.flatMap putU16 =
      pqkexData kems := by
    rw [pqkexData, putVector, hlen, Nat.mul_comm]
  have hsmall : (pqkexData kems).length < 65536 := by
    simp only [pqkexData, putVector, putU16, List.length_append, List.length_cons,
      List.length_nil, hlen, tlsPqkexMaxKems] at h8 ⊢
    omega
  simp only [tlsPqkexExtToBytes, hfun, hdata]
  rw [if_neg (by omega)]
  exact hG.extTo _ _ hsmall

/-- The loop fills the array from `i` on with the numbers of the list; by induction on the steps
left. -/
theorem pqkexReadLoop_eq {n i : Nat} {list : Bytes} {kems : List UInt16}
    (hl : list.length = 2 * n) (hi : i + n ≤ kems.length) :
    pqkexReadLoop G n i list kems =
      (true, [], kems.take i ++ words list ++ kems.drop (i + n)) := by
  induction n generalizing i list kems with
  | zero =>
    cases List.length_eq_zero_iff.mp hl
    simp [pqkexReadLoop, words]
  | succ n ih =>
    obtain ⟨x, tail, rfl⟩ := List.exists_cons_of_length_pos (l := list) (by omega)
    rw [List.length_cons] at hl
    obtain ⟨y, list, rfl⟩ := List.exists_cons_of_length_pos (l := tail) (by omega)
    rw [List.length_cons] at hl
    have hlist : list.length = 2 * n := by omega
    have hstep : G.tlsUint16FromBytes (x :: y :: list) =
        some (UInt16.ofNat (256 * x.toNat + y.toNat), list) := hG.uint16From _
    have hset : i + 1 + n ≤
        (kems.set i (UInt16.ofNat (256 * x.toNat + y.toNat))).length := by
      rw [List.length_set]
      omega
    simp only [pqkexReadLoop, hstep, ih hlist hset, words]
    have htake : (kems.set i (UInt16.ofNat (256 * x.toNat + y.toNat))).take (i + 1) =
        kems.take i ++ [UInt16.ofNat (256 * x.toNat + y.toNat)] := by
      rw [List.take_add_one, List.take_set_of_le (Nat.le_refl i),
        List.getElem?_set_self (by omega)]
      rfl
    have hdrop : (kems.set i (UInt16.ofNat (256 * x.toNat + y.toNat))).drop (i + 1 + n) =
        kems.drop (i + (n + 1)) := by
      rw [List.drop_set_of_lt (by omega), Nat.add_right_comm, Nat.add_assoc]
    rw [htake, hdrop, List.append_assoc, List.append_assoc, List.append_assoc]
    rfl

/-- What the reader makes of any data, for a caller whose array has room for `maxKems`. -/
theorem tlsPqkexFromBytes_eq {kems : List UInt16} (kemsCnt : Nat) {maxKems : Nat} (b : Bytes)
    (h1 : 0 < maxKems) (h8 : maxKems ≤ tlsPqkexMaxKems) (hroom : maxKems ≤ kems.length) :
    (∃ list n, b = putVector list ∧ list.length = 2 * n ∧ 1 ≤ n ∧ n ≤ maxKems ∧
      tlsPqkexFromBytes G kems kemsCnt maxKems (.buf b) =
        ⟨true, words list ++ kems.drop n, n⟩) ∨
    ((¬ ∃ list, b = putVector list ∧ list.length % 2 = 0 ∧ 2 ≤ list.length ∧
        list.length ≤ 2 * maxKems) ∧
      tlsPqkexFromBytes G kems kemsCnt maxKems (.buf b) = ⟨false, kems, 0⟩) := by
  simp only [tlsPqkexFromBytes]
  rw [if_neg (by omega), hG.arrayFrom]
  -- a list that is short enough for the array is short enough for its length octets
  have hvec : ∀ list, b = putVector list → list.length ≤ 2 * maxKems →
      getVector b = some (list, []) := fun list hb hl => by
    refine getVector_some_iff.mpr ⟨?_, by rw [List.append_nil, hb]⟩
    simp only [tlsPqkexMaxKems] at h8
    omega
  cases hget : getVector b with
  | none =>
    refine Or.inr ⟨?_, rfl⟩
    rintro ⟨list, hb, _, _, hl⟩
    rw [hvec list hb hl] at hget
    cases hget
  | some p =>
    obtain ⟨list, rest⟩ := p
    obtain ⟨_, hb⟩ := getVector_some_iff.mp hget
    by_cases hshape : rest.length ≠ 0 ∨ list.length < 2 ∨ list.length % 2 = 1
    · refine Or.inr ⟨?_, by simp only [if_pos hshape]⟩
      rintro ⟨list', hb', heven, hmin, hmax⟩
      rw [hvec list' hb' hmax] at hget
      cases hget
      simp only [List.length_nil] at hshape
      omega
    · simp only [if_neg hshape]
      by_cases hcount : maxKems < list.length / 2
      · refine Or.inr ⟨?_, by rw [if_pos hcount]⟩
        rintro ⟨list', hb', heven, hmin, hmax⟩
        rw [hvec list' hb' hmax] at hget
        cases hget
        omega
      · have hlen : list.length = 2 * (list.length / 2) := by omega
        have hrest : rest = [] := List.length_eq_zero_iff.mp (by omega)
        rw [if_neg hcount, pqkexReadLoop_eq hG hlen (by omega)]
        refine Or.inl ⟨list, list.length / 2, ?_, hlen, by omega, by omega, ?_⟩
        · rw [hb, hrest, List.append_nil]
        · simp

/-- Acceptance is the grammar. -/
theorem tlsPqkexFromBytes_ok_iff {kems : List UInt16} {kemsCnt maxKems : Nat} {b : Bytes}
    (h1 : 0 < maxKems) (h8 : maxKems ≤ tlsPqkexMaxKems) (hroom : maxKems ≤ kems.length) :
    (tlsPqkexFromBytes G kems kemsCnt maxKems (.buf b)).ok = true ↔
      ∃ list, b = putVector list ∧ list.length % 2 = 0 ∧ 2 ≤ list.length ∧
        list.length ≤ 2 * maxKems := by
  obtain ⟨list, n, hb, hl, h1n, hn, heq⟩ | ⟨hno, heq⟩ :=
    tlsPqkexFromBytes_eq hG kemsCnt b h1 h8 hroom
  · rw [heq]
    exact ⟨fun _ => ⟨list, hb, by omega, by omega, by omega⟩, fun _ => rfl⟩
  · rw [heq]
    exact ⟨nofun, fun h => (hno h).elim⟩

/-- Encoding what was read gives the data back. -/
theorem tlsPqkexFromBytes_reencode {kems : List UInt16} {kemsCnt maxKems : Nat} {b : Bytes}
    (h1 : 0 < maxKems) (h8 : maxKems ≤ tlsPqkexMaxKems) (hroom : maxKems ≤ kems.length)
    (hok : (tlsPqkexFromBytes G kems kemsCnt maxKems (.buf b)).ok = true) :
    let out := tlsPqkexFromBytes G kems kemsCnt maxKems (.buf b)
    tlsPqkexExtToBytes G (out.kems.take out.kemsCnt) =
      some (putU16 tlsExtensionPqkex ++ putVector b) := by
  obtain ⟨list, n, rfl, hl, h1n, hn, heq⟩ | ⟨_, heq⟩ :=
    tlsPqkexFromBytes_eq hG kemsCnt b h1 h8 hroom
  · obtain ⟨hflat, hwords⟩ := flatMap_putU16_words hl
    have htake : (words list ++ kems.drop n).take n = words list := by
      rw [← hwords, List.take_left]
    rw [heq]
    dsimp only
    rw [htake, tlsPqkexExtToBytes_eq hG (by omega) (by omega), pqkexData, hflat]
  · rw [heq] at hok
    cases hok

/-- Reading the extension data of a list gives the list back. -/
theorem tlsPqkexFromBytes_pqkexData {kems list : List UInt16} {kemsCnt maxKems : Nat}
    (h1 : 0 < list.length) (hl : list.length ≤ maxKems) (h8 : maxKems ≤ tlsPqkexMaxKems)
    (hroom : maxKems ≤ kems.length) :
    tlsPqkexFromBytes G kems kemsCnt maxKems (.buf (pqkexData list)) =
      ⟨true, list ++ kems.drop list.length, list.length⟩ := by
  have hflat := flatMap_putU16_length list
  obtain ⟨data, n, hb, hn, h1n, _, heq⟩ | ⟨hno, _⟩ :=
    tlsPqkexFromBytes_eq hG kemsCnt (pqkexData list) (by omega) h8 hroom
  · simp only [tlsPqkexMaxKems] at h8
    have hget : getVector (pqkexData list) = some (list.flatMap putU16, []) :=
      getVector_some_iff.mpr ⟨by omega, by rw [List.append_nil, pqkexData]⟩
    have hget' : getVector (pqkexData list) = some (data, []) :=
      getVector_some_iff.mpr ⟨by omega, by rw [List.append_nil, hb]⟩
    rw [hget] at hget'
    cases hget'
    have hnl : n = list.length := by omega
    rw [heq, words_flatMap_putU16, hnl]
  · exact (hno ⟨list.flatMap putU16, rfl, by omega, by omega, by omega⟩).elim

/-- Nothing beyond the capacity is written, whatever the data. -/
theorem tlsPqkexFromBytes_capacity {kems : List UInt16} {kemsCnt maxKems : Nat} {extData : CArg}
    (h1 : 0 < maxKems) (h8 : maxKems ≤ tlsPqkexMaxKems) (hroom : maxKems ≤ kems.length) :
    let out := tlsPqkexFromBytes G kems kemsCnt maxKems extData
    out.kems.length = kems.length ∧ out.kems.drop maxKems = kems.drop maxKems ∧
      (out.ok = true → out.kemsCnt ≤ maxKems) := by
  cases extData with
  | null m => exact ⟨rfl, rfl, nofun⟩
  | buf b =>
    obtain ⟨list, n, _, hl, _, hn, heq⟩ | ⟨_, heq⟩ :=
      tlsPqkexFromBytes_eq hG kemsCnt b h1 h8 hroom
    · obtain ⟨_, hwords⟩ := flatMap_putU16_words hl
      rw [heq]
      refine ⟨?_, ?_, fun _ => hn⟩
      · rw [List.length_append, List.length_drop, hwords]
        omega
      · have hsplit : maxKems = n + (maxKems - n) := by omega
        rw [List.drop_append, List.drop_eq_nil_of_le (by omega), List.nil_append, List.drop_drop,
          hwords, ← hsplit]
    · rw [heq]
      exact ⟨rfl, rfl, nofun⟩

end

/-- **The PQKEX extension.** Lists of one to eight identifiers survive writing and reading; the
reader takes exactly its grammar, is undone by the writer, and writes no more than `maxKems`
entries. -/
theorem pqkex_format {G : GmsslBytes} (hG : G.BigEndian) :
    (∀ list kems kemsCnt maxKems, 1 ≤ list.length → list.length ≤ maxKems →
      maxKems ≤ tlsPqkexMaxKems → maxKems ≤ kems.length →
      ∃ data, tlsPqkexExtToBytes G list = some (putU16 tlsExtensionPqkex ++ putVector data) ∧
        tlsPqkexFromBytes G kems kemsCnt maxKems (.buf data) =
          ⟨true, list ++ kems.drop list.length, list.length⟩) ∧
    (∀ b kems kemsCnt maxKems, 1 ≤ maxKems → maxKems ≤ tlsPqkexMaxKems → maxKems ≤ kems.length →
      ((tlsPqkexFromBytes G kems kemsCnt maxKems (.buf b)).ok = true ↔
        ∃ list, b = putVector list ∧ list.length % 2 = 0 ∧ 2 ≤ list.length ∧
          list.length ≤ 2 * maxKems) ∧
      ((tlsPqkexFromBytes G kems kemsCnt maxKems (.buf b)).ok = true →
        let out := tlsPqkexFromBytes G kems kemsCnt maxKems (.buf b)
        tlsPqkexExtToBytes G (out.kems.take out.kemsCnt) =
          some (putU16 tlsExtensionPqkex ++ putVector b))) ∧
    (∀ extData kems kemsCnt maxKems, 1 ≤ maxKems → maxKems ≤ tlsPqkexMaxKems →
      maxKems ≤ kems.length →
      let out := tlsPqkexFromBytes G kems kemsCnt maxKems extData
      out.kems.length = kems.length ∧ out.kems.drop maxKems = kems.drop maxKems ∧
        (out.ok = true → out.kemsCnt ≤ maxKems)) := by
  refine ⟨?_, ?_, fun _ _ _ _ => tlsPqkexFromBytes_capacity hG⟩
  · intro list kems kemsCnt maxKems h1 hl h8 hroom
    exact ⟨pqkexData list, tlsPqkexExtToBytes_eq hG h1 (hl.trans h8),
      tlsPqkexFromBytes_pqkexData hG h1 hl h8 hroom⟩
  · intro b kems kemsCnt maxKems h1 h8 hroom
    exact ⟨tlsPqkexFromBytes_ok_iff hG h1 h8 hroom, tlsPqkexFromBytes_reencode hG h1 h8 hroom⟩

namespace Toy

def gmsslBytes : GmsslBytes where
  tlsUint16ToBytes := putU16
  tlsUint16FromBytes := getU16
  tlsUint16arrayFromBytes := getVector
  tlsExtToBytes type data :=
    if data.length < 65536 then some (putU16 type ++ putVector data) else none

theorem bigEndian : gmsslBytes.BigEndian where
  uint16To _ := rfl
  uint16From _ := rfl
  arrayFrom _ := rfl
  extTo _ _ h := if_pos h

end Toy

/-- The data `00 02 99 99`, one unknown KEM, is read with room for one. -/
theorem pqkex_format_unknown :
    (tlsPqkexFromBytes Toy.gmsslBytes [0] 0 1 (.buf [0x00, 0x02, 0x99, 0x99])).ok = true :=
  ((pqkex_format Toy.bigEndian).2.1 _ [0] 0 1 (by decide) (by decide) (by decide)).1.mpr
    ⟨[0x99, 0x99], by decide, by decide, by decide, by decide⟩

end HybridPqc
