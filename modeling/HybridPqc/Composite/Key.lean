import HybridPqc.Openssl.Lib

/-!
# Composite.Key

`composite_key.c`: the hybrid key structures and the 1377-byte public key
`Dilithium2 public key || uncompressed SM2 point`.

A key pointer inside a structure is an `Option`; `none` is `NULL`. A function that fills a
caller's buffer returns the buffer's new contents beside its result.
-/

namespace HybridPqc

def dilithiumPublicKeyBytes : Nat := 1312
def dilithiumSecretKeyBytes : Nat := 2560
def dilithiumSignatureBytes : Nat := 2420

def compositePublicKeyBytes : Nat := dilithiumPublicKeyBytes + sm2UncompressedPublicKeyBytes

structure HybridPrivateKey (PKey : Type) where
  sm2PrivateKey : Option PKey
  dilithiumSecretKey : Block dilithiumSecretKeyBytes

structure HybridPublicKey (PKey : Type) where
  sm2PublicKey : Option PKey
  dilithiumPublicKey : Block dilithiumPublicKeyBytes

section

variable {PKey : Type} (C : Crypto PKey)

/-- `serialize_sm2_public_key(key, output)`: the result and the new contents of `output`. -/
def serializeSm2PublicKey (key : Option PKey) (output : Bytes) : Bool × Bytes :=
  match key with
  | none => (false, output)
  | some k =>
    if C.isSm2 k then
      match C.getPubKey k with
      | none => (false, output)
      | some o =>
        let output := output.write 0 o
        (o.length == sm2UncompressedPublicKeyBytes && output.head? == some 0x04, output)
    else (false, output)

/-- `composite_serialize_public_key`; `none` is the result 0. -/
def compositeSerializePublicKey (key : HybridPublicKey PKey) : Option Bytes :=
  match key.sm2PublicKey with
  | none => none
  | some k =>
    let output := (Bytes.zeros compositePublicKeyBytes).write 0 key.dilithiumPublicKey.val
    -- the callee gets the pointer `output + DILITHIUM_PUBLIC_KEY_BYTES`
    match serializeSm2PublicKey C (some k)
        (output.slice dilithiumPublicKeyBytes sm2UncompressedPublicKeyBytes) with
    | (true, tail) => some (output.write dilithiumPublicKeyBytes tail)
    | (false, _) => none

def parseSm2PublicKey (encoded : Bytes) : Option PKey :=
  if encoded.length = sm2UncompressedPublicKeyBytes ∧ encoded.head? = some 0x04 then
    match C.fromdata encoded with
    | none => none
    | some key => if C.publicCheck key then some key else none
  else none

/-- `composite_parse_public_key`: the new key; on `none` the caller's key is left alone. -/
def compositeParsePublicKey (serialized : Bytes) : Option (HybridPublicKey PKey) :=
  if serialized.length = compositePublicKeyBytes then
    match parseSm2PublicKey C
        (serialized.slice dilithiumPublicKeyBytes sm2UncompressedPublicKeyBytes) with
    | none => none
    | some k =>
      match Block.ofBytes? dilithiumPublicKeyBytes (serialized.slice 0 dilithiumPublicKeyBytes) with
      | none => none
      | some dil => some ⟨some k, dil⟩
  else none

/-- `composite_get_sm2_public_key_octets(key, output)` with `output` non-`NULL`. -/
def compositeGetSm2PublicKeyOctets (key : HybridPublicKey PKey) (output : Bytes) : Bool × Bytes :=
  serializeSm2PublicKey C key.sm2PublicKey output

def compositePublicKeysEqual (left right : HybridPublicKey PKey) : Bool :=
  match compositeSerializePublicKey C left, compositeSerializePublicKey C right with
  | some l, some r => l == r
  | _, _ => false

end

section

variable {PKey : Type} {C : Crypto PKey}

/-- The 65 octets that `k` exports, when it is an SM2 key with an uncompressed encoding. -/
def sm2Octets (C : Crypto PKey) (k : PKey) : Option Bytes :=
  if C.isSm2 k then
    match C.getPubKey k with
    | none => none
    | some o =>
      if o.length = sm2UncompressedPublicKeyBytes ∧ o.head? = some 0x04 then some o else none
  else none

theorem sm2Octets_some {k : PKey} {o : Bytes} (h : sm2Octets C k = some o) :
    C.isSm2 k = true ∧ C.getPubKey k = some o := by
  unfold sm2Octets at h
  split at h
  · rename_i hs
    split at h
    · cases h
    · rename_i ho
      split at h
      · cases h
        exact ⟨hs, ho⟩
      · cases h
  · cases h

theorem sm2Octets_form {k : PKey} {o : Bytes} (h : sm2Octets C k = some o) :
    o.length = 65 ∧ o.head? = some 0x04 := by
  simp only [sm2Octets] at h
  split at h
  · split at h
    · cases h
    · split at h
      · rename_i ho; cases h; exact ho
      · cases h
  · cases h

theorem sm2Octets_length {k : PKey} {o : Bytes} (h : sm2Octets C k = some o) : o.length = 65 :=
  (sm2Octets_form h).1

/-- Into a 65-byte buffer the export succeeds exactly with `sm2Octets`, and then fills it. -/
theorem serializeSm2PublicKey_some {k : PKey} {output : Bytes} (hb : output.length = 65) :
    (serializeSm2PublicKey C (some k) output).1 = (sm2Octets C k).isSome ∧
    ∀ o, sm2Octets C k = some o → serializeSm2PublicKey C (some k) output = (true, o) := by
  simp only [serializeSm2PublicKey, sm2Octets]
  cases hk : C.isSm2 k with
  | false => simp
  | true =>
    cases ho : C.getPubKey k with
    | none => simp
    | some o =>
      by_cases hl : o.length = 65
      · have hw : output.write 0 o = o := by
          simp [Bytes.write, List.drop_eq_nil_of_le (show output.length ≤ o.length by omega)]
        by_cases hh : o.head? = some 0x04 <;>
          simp [hw, hl, hh, sm2UncompressedPublicKeyBytes]
      · simp [hl, sm2UncompressedPublicKeyBytes]

/-- The serialisation is the Dilithium2 key followed by the exported octets. -/
theorem compositeSerializePublicKey_eq (key : HybridPublicKey PKey) :
    compositeSerializePublicKey C key =
      (key.sm2PublicKey.bind (sm2Octets C)).map (key.dilithiumPublicKey.val ++ ·) := by
  simp only [compositeSerializePublicKey]
  cases key.sm2PublicKey with
  | none => rfl
  | some k =>
    have hd : key.dilithiumPublicKey.val.length = 1312 := key.dilithiumPublicKey.length_val
    have hout : (Bytes.zeros compositePublicKeyBytes).write 0 key.dilithiumPublicKey.val =
        key.dilithiumPublicKey.val ++ Bytes.zeros 65 := by
      simp [Bytes.write, compositePublicKeyBytes, hd, dilithiumPublicKeyBytes,
        sm2UncompressedPublicKeyBytes]
    have hsl : (key.dilithiumPublicKey.val ++ Bytes.zeros 65).slice dilithiumPublicKeyBytes
        sm2UncompressedPublicKeyBytes = Bytes.zeros 65 := by
      simp [Bytes.slice, hd, dilithiumPublicKeyBytes, sm2UncompressedPublicKeyBytes]
    obtain ⟨h1, h2⟩ := serializeSm2PublicKey_some (C := C) (k := k)
      (Bytes.zeros_length 65)
    simp only [Option.bind_some, hout, hsl]
    cases ho : sm2Octets C k with
    | none =>
      rw [ho, Option.isSome_none] at h1
      cases hs : serializeSm2PublicKey C (some k) (Bytes.zeros 65) with
      | mk ok tail => rw [hs] at h1; cases h1; rfl
    | some o =>
      simp [h2 o ho, Bytes.write, hd, dilithiumPublicKeyBytes, sm2Octets_length ho]

theorem compositePublicKeysEqual_iff {left right : HybridPublicKey PKey} :
    compositePublicKeysEqual C left right = true ↔
      left.dilithiumPublicKey = right.dilithiumPublicKey ∧
      ∃ s p o, left.sm2PublicKey = some s ∧ right.sm2PublicKey = some p ∧
        sm2Octets C s = some o ∧ sm2Octets C p = some o := by
  have hinj : ∀ {x y : Block dilithiumPublicKeyBytes} {o o' : Bytes},
      x.val ++ o = y.val ++ o' ↔ x = y ∧ o = o' := by
    intro x y o o'
    constructor
    · intro h
      obtain ⟨h1, h2⟩ := List.append_inj h (x.length_val.trans y.length_val.symm)
      exact ⟨by cases x; cases y; cases h1; rfl, h2⟩
    · rintro ⟨rfl, rfl⟩; rfl
  simp only [compositePublicKeysEqual, compositeSerializePublicKey_eq]
  cases left.sm2PublicKey with
  | none => simp
  | some s =>
    cases right.sm2PublicKey with
    | none => cases h : sm2Octets C s <;> simp [h]
    | some p =>
      cases hs : sm2Octets C s with
      | none => simp [hs]
      | some o =>
        cases hp : sm2Octets C p with
        | none => simp [hs, hp]
        | some o' => simp [hs, hp, hinj]

theorem compositeParsePublicKey_some {b : Bytes} {key : HybridPublicKey PKey}
    (h : compositeParsePublicKey C b = some key) :
    ∃ k, key.sm2PublicKey = some k ∧ b.length = 1377 ∧ key.dilithiumPublicKey.val = b.take 1312 ∧
      parseSm2PublicKey C (b.drop 1312) = some k := by
  simp only [compositeParsePublicKey] at h
  split at h
  · rename_i hl
    have hl' : b.length = 1377 := hl
    have hs : b.slice 1312 65 = b.drop 1312 := by
      rw [Bytes.slice, List.take_of_length_le (by simp; omega)]
    split at h
    · cases h
    · rename_i k hk
      split at h
      · cases h
      · rename_i dil hdil
        cases h
        refine ⟨k, rfl, hl', ?_, ?_⟩
        · exact Block.ofBytes?_eq_some.mp hdil
        · rw [← hs]; exact hk
  · cases h

/-- A parsed key exports the octets it was parsed from. -/
theorem sm2Octets_of_parse {b : Bytes} {k : PKey} (h : parseSm2PublicKey C b = some k) :
    sm2Octets C k = some b := by
  simp only [parseSm2PublicKey] at h
  split at h
  · rename_i hb
    split at h
    · cases h
    · rename_i k' hk
      split at h
      · cases h
        obtain ⟨hs, hg⟩ := C.fromdata_export hb.1 hb.2 hk
        simp [sm2Octets, hs, hg, hb]
      · cases h
  · cases h

variable (C)

/-- Every exported uncompressed point can be imported again and passes the key check. -/
def Sm2Imports : Prop :=
  ∀ k o, sm2Octets C k = some o → ∃ k', C.fromdata o = some k' ∧ C.publicCheck k' = true

variable {C}

/-- Parsing gives back a key with the same Dilithium2 bytes and the same SM2 octets. -/
theorem compositeParsePublicKey_serialize (himports : Sm2Imports C) {key : HybridPublicKey PKey}
    {b : Bytes} (h : compositeSerializePublicKey C key = some b) :
    ∃ k, compositeParsePublicKey C b = some k ∧ compositePublicKeysEqual C k key = true := by
  rw [compositeSerializePublicKey_eq] at h
  obtain ⟨o, ho, rfl⟩ := Option.map_eq_some_iff.mp h
  obtain ⟨p, hp, ho⟩ := Option.bind_eq_some_iff.mp ho
  obtain ⟨k, hk, hcheck⟩ := himports p o ho
  obtain ⟨hl, hh⟩ := sm2Octets_form ho
  have hd : key.dilithiumPublicKey.val.length = 1312 := key.dilithiumPublicKey.length_val
  have hdrop : (key.dilithiumPublicKey.val ++ o).slice dilithiumPublicKeyBytes
      sm2UncompressedPublicKeyBytes = o := by
    simp [Bytes.slice, hd, hl, dilithiumPublicKeyBytes, sm2UncompressedPublicKeyBytes]
  have htake : (key.dilithiumPublicKey.val ++ o).slice 0 dilithiumPublicKeyBytes =
      key.dilithiumPublicKey.val := by
    simp [Bytes.slice, hd, dilithiumPublicKeyBytes]
  have hparse : parseSm2PublicKey C o = some k := by
    simp [parseSm2PublicKey, hl, hh, hk, hcheck, sm2UncompressedPublicKeyBytes]
  refine ⟨⟨some k, key.dilithiumPublicKey⟩, ?_, ?_⟩
  · unfold compositeParsePublicKey
    rw [if_pos (by simp [hd, hl, compositePublicKeyBytes, dilithiumPublicKeyBytes,
      sm2UncompressedPublicKeyBytes]), hdrop, hparse, htake]
    simp only [Block.ofBytes?_eq_some.mpr rfl]
  · exact compositePublicKeysEqual_iff.mpr ⟨rfl, k, p, o, rfl, hp, sm2Octets_of_parse hparse, ho⟩

end

end HybridPqc
