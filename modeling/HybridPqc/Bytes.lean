import Mathlib.Data.Nat.Digits.Lemmas

/-!
# Bytes

Byte strings as the C code sees them: a buffer is a `List UInt8`, a fixed-size array is a `Block`,
a `char *` argument is a `CString`.

* `Bytes.write`: `memcpy` into a buffer at an offset. Writes inside the buffer keep its length and
  are read back by `Bytes.slice` (`slice_write`); a write elsewhere is not seen
  (`slice_write_of_le`, `slice_write_of_ge`).
* `beNat` / `beBytes`: big-endian numbers, as many octets as needed.
-/

abbrev Bytes := List UInt8

namespace Bytes

/-- The bytes of an ASCII string literal, without the terminating NUL. -/
def ofAscii (s : String) : Bytes := s.toList.map fun c => UInt8.ofNat c.toNat

/-- A buffer of zero bytes. -/
def zeros (n : Nat) : Bytes := List.replicate n 0

@[simp] theorem zeros_length (n : Nat) : (zeros n).length = n := List.length_replicate
@[simp] theorem drop_zeros (k n : Nat) : (zeros n).drop k = zeros (n - k) := List.drop_replicate

/-- `memcpy(buf + off, src, len)`. -/
def write (buf : Bytes) (off : Nat) (src : Bytes) : Bytes :=
  buf.take off ++ src ++ buf.drop (off + src.length)

/-- The `len` bytes of `buf` from `off` on. -/
def slice (buf : Bytes) (off len : Nat) : Bytes := (buf.drop off).take len

theorem write_length {buf src : Bytes} {off : Nat} (h : off + src.length ≤ buf.length) :
    (write buf off src).length = buf.length := by
  simp only [write, List.length_append, List.length_take, List.length_drop]
  omega

theorem slice_write {buf src : Bytes} {off : Nat} (h : off ≤ buf.length) :
    slice (write buf off src) off src.length = src := by
  have hl : (buf.take off).length = off := by simp [h]
  simp only [slice, write, List.append_assoc]
  rw [List.drop_append_of_le_length (by omega), List.drop_eq_nil_of_le (by omega)]
  simp

/-- Filling a buffer front to back is concatenation. -/
theorem write_append {done src : Bytes} {n off : Nat} (ho : off = done.length) :
    write (done ++ zeros n) off src = done ++ src ++ zeros (n - src.length) := by
  subst ho
  simp [write, List.drop_append]

theorem write_zeros (n : Nat) (src : Bytes) :
    write (zeros n) 0 src = src ++ zeros (n - src.length) := by
  simp [write]

@[simp] theorem write_nil (buf : Bytes) (off : Nat) : write buf off [] = buf := by
  simp [write]

/-- A slice that ends before the write is unchanged. -/
theorem slice_write_of_le {buf src : Bytes} {off o len : Nat} (h : o + len ≤ off)
    (hb : off ≤ buf.length) : slice (write buf off src) o len = slice buf o len := by
  have hl : (buf.take off).length = off := by simp [hb]
  simp only [slice, write, List.append_assoc]
  rw [List.drop_append_of_le_length (by omega), List.take_append_of_le_length (by simp; omega),
    List.drop_take, List.take_take, Nat.min_eq_left (by omega)]

/-- A slice that starts after the write is unchanged. -/
theorem slice_write_of_ge {buf src : Bytes} {off o len : Nat} (h : off + src.length ≤ o)
    (hb : off ≤ buf.length) : slice (write buf off src) o len = slice buf o len := by
  have hl : (buf.take off ++ src).length = off + src.length := by simp [hb]
  simp only [slice, write]
  rw [List.drop_append, List.drop_eq_nil_of_le (by omega), hl, List.drop_drop]
  congr 2
  simp; omega

theorem slice_append_slice (b : Bytes) (off m n : Nat) :
    slice b off m ++ slice b (off + m) n = slice b off (m + n) := by
  simp [slice, List.take_add, List.drop_drop]

theorem slice_all {b : Bytes} {n : Nat} (h : b.length = n) : slice b 0 n = b := by
  simp [slice, ← h]

end Bytes

/-! ## C arguments -/

/-- A fixed-size array `uint8_t a[n]`. -/
structure Block (n : Nat) where
  val : Bytes
  length_val : val.length = n
  deriving DecidableEq

namespace Block

attribute [simp] Block.length_val

/-- `memset(a, 0, n)`. -/
def zero (n : Nat) : Block n := ⟨Bytes.zeros n, Bytes.zeros_length n⟩

/-- The block with the given contents, if the length fits. -/
def ofBytes? (n : Nat) (b : Bytes) : Option (Block n) :=
  if h : b.length = n then some ⟨b, h⟩ else none

/-- `memcpy(a, src, len)` of at most `n` bytes. -/
def memcpy {n : Nat} (a : Block n) (src : Bytes) : Block n :=
  ⟨src.take n ++ a.val.drop src.length, by simp; omega⟩

/-- Copying a whole array leaves nothing of what was there. -/
theorem memcpy_of_length {n : Nat} {a : Block n} {src : Bytes} (h : src.length = n) :
    a.memcpy src = ⟨src, h⟩ := by
  subst h
  simp [memcpy]

theorem ofBytes?_eq_some {n : Nat} {b : Bytes} {a : Block n} :
    ofBytes? n b = some a ↔ a.val = b := by
  constructor
  · intro h
    simp only [ofBytes?] at h
    split at h
    · cases h; rfl
    · cases h
  · rintro rfl; simp [ofBytes?]

end Block

/-- A C string: the bytes before the terminating NUL. -/
structure CString where
  val : Bytes
  no_nul : (0 : UInt8) ∉ val
  deriving DecidableEq

namespace CString

def strlen (s : CString) : Nat := s.val.length

end CString

/-- A `(pointer, length)` argument: `NULL` with any length, or a buffer of that length. -/
inductive CArg where
  | null (len : Nat)
  | buf (b : Bytes)
  deriving DecidableEq, Repr

namespace CArg

def len : CArg → Nat
  | .null n => n
  | .buf b => b.length

/-- The bytes behind the pointer. -/
def bytes : CArg → Bytes
  | .null _ => []
  | .buf b => b

/-- `p == NULL && len != 0`. -/
def badNull : CArg → Bool
  | .null n => n != 0
  | .buf _ => false

theorem length_bytes {a : CArg} (h : a.badNull = false) : a.bytes.length = a.len := by
  cases a with
  | null n =>
    simp only [badNull, bne_eq_false_iff_eq] at h
    rw [h]
    rfl
  | buf b => rfl

end CArg

/-! ## Big-endian numbers -/

/-- The value of a big-endian octet string. -/
def beNat (b : Bytes) : Nat := Nat.ofDigits 256 (b.reverse.map UInt8.toNat)

/-- The shortest big-endian octet string of a number; empty for `0`. -/
def beBytes (n : Nat) : Bytes := ((Nat.digits 256 n).map UInt8.ofNat).reverse

theorem beNat_beBytes (n : Nat) : beNat (beBytes n) = n := by
  have hd : (Nat.digits 256 n).map (UInt8.toNat ∘ UInt8.ofNat) = Nat.digits 256 n := by
    refine (List.map_congr_left fun d hd => ?_).trans (List.map_id _)
    have := Nat.digits_lt_base (by decide : 1 < 256) hd
    simpa using Nat.mod_eq_of_lt this
  simp only [beNat, beBytes, List.reverse_reverse, List.map_map, hd, Nat.ofDigits_digits]

/-- Reading and writing back loses nothing when there is no leading zero octet. -/
theorem beBytes_beNat {b : Bytes} (h : b.head? ≠ some 0) : beBytes (beNat b) = b := by
  have hlt : ∀ l ∈ b.reverse.map UInt8.toNat, l < 256 := by
    intro l hl
    obtain ⟨x, _, rfl⟩ := List.mem_map.mp hl
    exact x.toNat_lt
  have hlast : ∀ hne : b.reverse.map UInt8.toNat ≠ [],
      (b.reverse.map UInt8.toNat).getLast hne ≠ 0 := by
    intro hne h0
    rw [List.getLast_map, List.getLast_reverse] at h0
    cases b with
    | nil => exact hne rfl
    | cons x xs =>
      apply h
      have : x = 0 := UInt8.toNat_inj.mp (by simpa using h0)
      simp [this]
  simp only [beBytes, beNat, Nat.digits_ofDigits 256 (by decide) _ hlt hlast, List.map_map]
  rw [show (UInt8.ofNat ∘ UInt8.toNat) = id from funext fun x => by simp, List.map_id,
    List.reverse_reverse]

theorem beBytes_head {n : Nat} : (beBytes n).head? ≠ some 0 := by
  intro h
  rw [beBytes, List.head?_reverse, List.getLast?_map] at h
  cases hl : (Nat.digits 256 n).getLast? with
  | none => rw [hl] at h; cases h
  | some d =>
    rw [hl] at h
    have hmem := List.mem_of_getLast? hl
    have hne : Nat.digits 256 n ≠ [] := List.ne_nil_of_mem hmem
    have hn : n ≠ 0 := Nat.digits_ne_nil_iff_ne_zero.mp hne
    have hd : d < 256 := Nat.digits_lt_base (by decide) hmem
    have h0 := Nat.getLast_digit_ne_zero 256 hn
    rw [List.getLast?_eq_getLast_of_ne_nil hne] at hl
    injection hl with hl
    rw [hl] at h0
    simp only [Option.map_some, Option.some.injEq] at h
    have := congrArg UInt8.toNat h
    simp [Nat.mod_eq_of_lt hd] at this
    exact h0 this

theorem beBytes_length_le {n k : Nat} (h : n < 256 ^ k) : (beBytes n).length ≤ k := by
  simpa [beBytes] using (Nat.digits_length_le_iff (by decide : 1 < 256) n).mpr h

theorem beBytes_ne_nil {n : Nat} (h : n ≠ 0) : beBytes n ≠ [] := by
  simpa [beBytes] using Nat.digits_ne_nil_iff_ne_zero.mpr h
