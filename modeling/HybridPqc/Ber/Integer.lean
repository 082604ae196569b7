import HybridPqc.Ber.Forms

/-!
# Ber.Integer

INTEGER contents octets and the DER of a SEQUENCE of natural numbers.

`readInt_natContent` is the round trip of one number. `readInts_encodeNats` reads a sequence back
whatever follows it, so no such encoding is a proper prefix of another (`encodeNats_prefix`).
-/

namespace Ber

/-- The sign bit of two's complement octets. -/
def topBit : Bytes → Bool
  | [] => false
  | x :: _ => decide (128 ≤ x.toNat)

/-- The DER contents octets of a natural number: as few as possible with the sign bit clear. -/
def natContent (n : Nat) : Bytes :=
  if n = 0 then [0]
  else if topBit (beBytes n) then 0 :: beBytes n
  else beBytes n

/-- The value of two's complement octets. -/
def readInt (b : Bytes) : Int :=
  if topBit b then (beNat b : Int) - 256 ^ b.length else beNat b

theorem topBit_natContent (n : Nat) : topBit (natContent n) = false := by
  unfold natContent
  split
  · rfl
  · split
    · rfl
    · rename_i h
      exact Bool.not_eq_true _ ▸ h

theorem beNat_natContent (n : Nat) : beNat (natContent n) = n := by
  unfold natContent
  split
  · rename_i h
    rw [h]
    rfl
  · split
    · have hz := beNat_zeros_append 1 (beBytes n)
      rw [beNat_beBytes] at hz
      exact hz
    · exact beNat_beBytes n

theorem readInt_natContent (n : Nat) : readInt (natContent n) = n := by
  rw [readInt, topBit_natContent, beNat_natContent]
  rfl

/-- `SEQUENCE { INTEGER, … }` -/
def natsElement (ns : List Nat) : Element :=
  .cons 0x30 (ns.map fun n => .prim 0x02 (natContent n))

def encodeNats (ns : List Nat) : Bytes := encode (natsElement ns)

/-- The contents octets of INTEGER elements. -/
def intContents : List Element → Option (List Bytes)
  | [] => some []
  | .prim 0x02 (x :: c) :: es => (intContents es).map ((x :: c) :: ·)
  | _ :: _ => none

/-- A SEQUENCE of INTEGERs at the front of `b`: their values and the number of octets read. -/
def readInts (strict : Bool) (b : Bytes) : Option (List Int × Nat) :=
  match readElement strict b with
  | some (.cons 0x30 es, r) => (intContents es).map fun cs => (cs.map readInt, b.length - r.length)
  | _ => none

theorem natContent_ne_nil (n : Nat) : natContent n ≠ [] := by
  intro h
  unfold natContent at h
  split at h
  · cases h
  · rename_i hn
    split at h
    · cases h
    · exact beBytes_ne_nil hn h

theorem natsElement_tagsOk (ns : List Nat) : tagsOk (natsElement ns) = true := by
  have hall : tagsOkAll (ns.map fun n => Element.prim 0x02 (natContent n)) = true := by
    induction ns with
    | nil => rfl
    | cons n ns ih =>
      rw [List.map_cons, tagsOkAll, ih]
      rfl
  rw [natsElement, tagsOk, hall]
  rfl

theorem intContents_nats (ns : List Nat) :
    intContents (ns.map fun n => Element.prim 0x02 (natContent n)) = some (ns.map natContent) := by
  induction ns with
  | nil => rfl
  | cons n ns ih =>
    obtain ⟨x, c, hc⟩ := List.exists_cons_of_ne_nil (natContent_ne_nil n)
    simp only [List.map_cons, hc, intContents, ih, Option.map_some]

/-- Reading back a written sequence, whatever follows it. -/
theorem readInts_encodeNats (strict : Bool) {ns : List Nat} (h : (encodeNats ns).length ≤ maxLen)
    (r : Bytes) :
    readInts strict (encodeNats ns ++ r) =
      some (ns.map Int.ofNat, (encodeNats ns).length) := by
  have hread : readElement strict (encodeNats ns ++ r) = some (natsElement ns, r) :=
    read_encode strict ⟨natsElement_tagsOk ns, h⟩ r
  simp only [readInts, hread, natsElement, intContents_nats, Option.map_some, List.map_map,
    List.length_append, Nat.add_sub_cancel]
  have hval : readInt ∘ natContent = Int.ofNat := funext readInt_natContent
  rw [hval]

/-- No encoding of a sequence is a proper prefix of another. -/
theorem encodeNats_prefix {ns ms : List Nat} {r : Bytes}
    (hn : (encodeNats ns).length ≤ maxLen) (hm : (encodeNats ms).length ≤ maxLen)
    (h : encodeNats ns ++ r = encodeNats ms) : r = [] := by
  have h1 := readInts_encodeNats false hn r
  have h2 := readInts_encodeNats false hm []
  rw [List.append_nil, ← h, h1] at h2
  simp only [Option.some.injEq, Prod.mk.injEq, List.length_append] at h2
  exact List.length_eq_zero_iff.mp (by omega)

end Ber
