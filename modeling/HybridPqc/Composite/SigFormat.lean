import HybridPqc.Ber.Integer
import HybridPqc.Composite.Toy

/-!
# Composite.SigFormat

The grammar of a composite signature: 2420 Dilithium2 bytes, then the one DER encoding of
`SEQUENCE { INTEGER r, INTEGER s }` with positive `r` and `s`.

The parser hands the second part to a decoder that may take more than DER, and compares what it
read, encoded again, with the bytes it was given; `sm2SignatureDerIsValid_iff` says that this leaves
exactly the DER encodings that the library reads. `composite_signature_format` is the grammar with
what follows from it: parsing and serialising undo each other, no signature is a proper prefix of
another, and two signatures never denote the same parts.
-/

namespace HybridPqc

/-- The DER of an ECDSA signature. -/
def ecdsaSigDer (r s : Nat) : Bytes := Ber.encodeNats [r, s]

section

variable {PKey : Type} {C : Crypto PKey} {limit : Nat}

/-- `d2i_ECDSA_SIG` reads at least DER and stops at its end; `i2d_ECDSA_SIG` writes DER. Both work
up to a length of the library's own, at most the `LONG_MAX` that the caller checks, and nothing
longer is read; OpenSSL takes two length octets, so that 65535 bytes of content are its limit. -/
structure EcdsaSigCodec (limit : Nat) (C : Crypto PKey) : Prop where
  limit_le : limit ≤ longMax
  decodes : ∀ (r s : Nat) (rest : Bytes), 0 < r → 0 < s → (ecdsaSigDer r s).length ≤ limit →
    C.d2iEcdsaSig (ecdsaSigDer r s ++ rest) =
      some (((r : Int), (s : Int)), (ecdsaSigDer r s).length)
  refuses : ∀ r s : Nat, 0 < r → 0 < s → limit < (ecdsaSigDer r s).length →
    (ecdsaSigDer r s).length ≤ longMax → C.d2iEcdsaSig (ecdsaSigDer r s) = none
  encoded : ∀ (r s : Nat) (der : Bytes), 0 < r → 0 < s →
    C.i2dEcdsaSig ((r : Int), (s : Int)) = some der → der = ecdsaSigDer r s
  encodes : ∀ r s : Nat, 0 < r → 0 < s → (ecdsaSigDer r s).length ≤ limit →
    ∃ der, C.i2dEcdsaSig ((r : Int), (s : Int)) = some der

/-- Decoding, the sign and length checks and the comparison leave the DER encodings. -/
theorem sm2SignatureDerIsValid_iff (hC : EcdsaSigCodec limit C) {der : Bytes} :
    sm2SignatureDerIsValid C der = true ↔
      ∃ r s : Nat, 0 < r ∧ 0 < s ∧ der = ecdsaSigDer r s ∧ der.length ≤ limit := by
  constructor
  · intro h
    simp only [sm2SignatureDerIsValid] at h
    split at h
    · cases h
    rename_i hlen
    split at h
    · cases h
    rename_i r s n hd2i
    split at h
    · cases h
    rename_i hn
    split at h
    · cases h
    rename_i hpos
    split at h
    · cases h
    rename_i canonical hi2d
    rw [beq_iff_eq] at h
    subst h
    obtain ⟨r, rfl⟩ := Int.eq_ofNat_of_zero_le (show 0 ≤ r by omega)
    obtain ⟨s, rfl⟩ := Int.eq_ofNat_of_zero_le (show 0 ≤ s by omega)
    have hr : 0 < r := by omega
    have hs : 0 < s := by omega
    have hder := hC.encoded r s canonical hr hs hi2d
    refine ⟨r, s, hr, hs, hder, ?_⟩
    by_contra hlong
    rw [hder] at hlong hlen hd2i
    rw [hC.refuses r s hr hs (by omega) (by omega)] at hd2i
    cases hd2i
  · rintro ⟨r, s, hr, hs, rfl, hl⟩
    have hd2i := hC.decodes r s [] hr hs hl
    rw [List.append_nil] at hd2i
    obtain ⟨der, hi2d⟩ := hC.encodes r s hr hs hl
    have hder := hC.encoded r s der hr hs hi2d
    subst hder
    have hne : 2 ≤ (ecdsaSigDer r s).length := Ber.encode_length_pos _
    have hmax := hC.limit_le
    simp only [sm2SignatureDerIsValid, hd2i, hi2d, beq_self_eq_true]
    rw [if_neg (by omega), if_neg (by omega), if_neg (by omega)]

/-- Which strings the decoder and the encoder agree on determines the numbers. -/
theorem d2iEcdsaSig_valid (hC : EcdsaSigCodec limit C) {der : Bytes} {r s : Int} {n : Nat}
    (hv : sm2SignatureDerIsValid C der = true) (hd : C.d2iEcdsaSig der = some ((r, s), n)) :
    0 < r ∧ 0 < s ∧ der = ecdsaSigDer r.toNat s.toNat := by
  obtain ⟨r', s', hr, hs, rfl, hl⟩ := (sm2SignatureDerIsValid_iff hC).mp hv
  have hd2i := hC.decodes r' s' [] hr hs hl
  rw [List.append_nil, hd] at hd2i
  cases hd2i
  exact ⟨by omega, by omega, rfl⟩

theorem compositeParseSignature_some_iff {x d der : Bytes} :
    compositeParseSignature C x = some (d, der) ↔
      d.length = dilithiumSignatureBytes ∧ sm2SignatureDerIsValid C der = true ∧ x = d ++ der := by
  constructor
  · intro h
    simp only [compositeParseSignature] at h
    split at h
    · cases h
    rename_i hl
    split at h
    · rename_i hv
      cases h
      refine ⟨?_, hv, (List.take_append_drop _ _).symm⟩
      rw [List.length_take]
      omega
    · cases h
  · rintro ⟨hd, hv, rfl⟩
    exact compositeParseSignature_serialize (compositeSerializeSignature_eq hd hv)

/-- Serialising undoes parsing. -/
theorem compositeSerializeSignature_parse {x d der : Bytes}
    (h : compositeParseSignature C x = some (d, der)) :
    compositeSerializeSignature C d der = some x := by
  obtain ⟨hd, hv, rfl⟩ := compositeParseSignature_some_iff.mp h
  exact compositeSerializeSignature_eq hd hv

/-- Acceptance is the grammar, up to the library's limit. -/
theorem compositeParseSignature_isSome_iff (hC : EcdsaSigCodec limit C) {x : Bytes} :
    (compositeParseSignature C x).isSome = true ↔
      ∃ d : Bytes, ∃ r s : Nat, d.length = dilithiumSignatureBytes ∧ 0 < r ∧ 0 < s ∧
        x = d ++ ecdsaSigDer r s ∧ x.length ≤ dilithiumSignatureBytes + limit := by
  constructor
  · intro h
    obtain ⟨⟨d, der⟩, hp⟩ := Option.isSome_iff_exists.mp h
    obtain ⟨hd, hv, rfl⟩ := compositeParseSignature_some_iff.mp hp
    obtain ⟨r, s, hr, hs, rfl, hl⟩ := (sm2SignatureDerIsValid_iff hC).mp hv
    refine ⟨d, r, s, hd, hr, hs, rfl, ?_⟩
    rw [List.length_append]
    omega
  · rintro ⟨d, r, s, hd, hr, hs, rfl, hl⟩
    rw [List.length_append] at hl
    have hv : sm2SignatureDerIsValid C (ecdsaSigDer r s) = true :=
      (sm2SignatureDerIsValid_iff hC).mpr ⟨r, s, hr, hs, rfl, by omega⟩
    rw [compositeParseSignature_some_iff.mpr ⟨hd, hv, rfl⟩]
    rfl

/-- No signature is a proper prefix of another. -/
theorem compositeParseSignature_prefix (hC : EcdsaSigCodec limit C) {x y : Bytes}
    (hx : (compositeParseSignature C x).isSome = true)
    (hy : (compositeParseSignature C y).isSome = true) (hxy : x <+: y) : x = y := by
  obtain ⟨d, r, s, hd, _, _, rfl, hl⟩ := (compositeParseSignature_isSome_iff hC).mp hx
  obtain ⟨d', r', s', hd', _, _, rfl, hl'⟩ := (compositeParseSignature_isSome_iff hC).mp hy
  rw [List.length_append] at hl hl'
  obtain ⟨t, ht⟩ := hxy
  rw [List.append_assoc] at ht
  obtain ⟨rfl, hder⟩ := List.append_inj ht (hd.trans hd'.symm)
  have hmax := hC.limit_le
  have h1 : (ecdsaSigDer r s).length ≤ longMax := by omega
  have h2 : (ecdsaSigDer r' s').length ≤ longMax := by omega
  have hnil : t = [] := Ber.encodeNats_prefix h1 h2 hder
  rw [← hder, hnil, List.append_nil]

variable (C)

/-- The signature `x` parses into the Dilithium2 bytes `d` and the numbers `r` and `s`. -/
def Denotes (x d : Bytes) (r s : Int) : Prop :=
  ∃ der n, compositeParseSignature C x = some (d, der) ∧ C.d2iEcdsaSig der = some ((r, s), n)

variable {C}

theorem Denotes.unique (hC : EcdsaSigCodec limit C) {x y d : Bytes} {r s : Int}
    (hx : Denotes C x d r s) (hy : Denotes C y d r s) : x = y := by
  obtain ⟨der, n, hp, hd⟩ := hx
  obtain ⟨der', n', hp', hd'⟩ := hy
  obtain ⟨_, hv, rfl⟩ := compositeParseSignature_some_iff.mp hp
  obtain ⟨_, hv', rfl⟩ := compositeParseSignature_some_iff.mp hp'
  obtain ⟨_, _, rfl⟩ := d2iEcdsaSig_valid hC hv hd
  obtain ⟨_, _, rfl⟩ := d2iEcdsaSig_valid hC hv' hd'
  rfl

end

namespace Toy

/-- 65535 bytes of content after a tag and three length octets -/
def ecdsaSigMax : Nat := 65539

/-- `crypto` with a BER reader and the DER writer of ECDSA signatures. -/
def derCrypto : Crypto Bytes := { crypto with
  d2iEcdsaSig := fun b =>
    match Ber.readInts false b with
    | some ([r, s], n) => if n ≤ ecdsaSigMax then some ((r, s), n) else none
    | _ => none
  i2dEcdsaSig := fun rs => some (ecdsaSigDer rs.1.toNat rs.2.toNat) }

theorem ecdsaSigMax_le : ecdsaSigMax ≤ longMax := by decide

theorem derCrypto_reads (r s : Nat) (rest : Bytes) (hl : (ecdsaSigDer r s).length ≤ longMax) :
    derCrypto.d2iEcdsaSig (ecdsaSigDer r s ++ rest) =
      if (ecdsaSigDer r s).length ≤ ecdsaSigMax then
        some (((r : Int), (s : Int)), (ecdsaSigDer r s).length)
      else none := by
  have hread := Ber.readInts_encodeNats false (show (Ber.encodeNats [r, s]).length ≤ _ from hl) rest
  simp only [derCrypto, ecdsaSigDer, hread]
  rfl

theorem ecdsaSigCodec : EcdsaSigCodec ecdsaSigMax derCrypto where
  limit_le := ecdsaSigMax_le
  decodes r s rest _ _ hl := by
    rw [derCrypto_reads r s rest (hl.trans ecdsaSigMax_le), if_pos hl]
  refuses r s _ _ hlong hl := by
    rw [← List.append_nil (ecdsaSigDer r s), derCrypto_reads r s [] hl, if_neg (by omega)]
  encoded r s der _ _ h := by
    cases h
    rfl
  encodes r s _ _ _ := ⟨_, rfl⟩

end Toy

/-- **Composite signatures.** The parser accepts exactly the grammar, parsing and serialising undo
each other, and a signature is determined by its parts and by any string it starts. -/
theorem composite_signature_format {PKey : Type} {C : Crypto PKey} {limit : Nat}
    (hC : EcdsaSigCodec limit C) :
    (∀ x, (compositeParseSignature C x).isSome = true ↔
      ∃ d : Bytes, ∃ r s : Nat, d.length = dilithiumSignatureBytes ∧ 0 < r ∧ 0 < s ∧
        x = d ++ ecdsaSigDer r s ∧ x.length ≤ dilithiumSignatureBytes + limit) ∧
    (∀ x d der, compositeParseSignature C x = some (d, der) →
      compositeSerializeSignature C d der = some x) ∧
    (∀ d der x, compositeSerializeSignature C d der = some x →
      compositeParseSignature C x = some (d, der)) ∧
    (∀ x y, (compositeParseSignature C x).isSome = true →
      (compositeParseSignature C y).isSome = true → x <+: y → x = y) ∧
    (∀ x y d r s, Denotes C x d r s → Denotes C y d r s → x = y) :=
  ⟨fun _ => compositeParseSignature_isSome_iff hC,
    fun _ _ _ => compositeSerializeSignature_parse,
    fun _ _ _ => compositeParseSignature_serialize,
    fun _ _ => compositeParseSignature_prefix hC,
    fun _ _ _ _ _ => Denotes.unique hC⟩

/-- The shortest signature there is. -/
theorem composite_signature_format_shortest :
    (compositeParseSignature Toy.derCrypto
      (Bytes.zeros dilithiumSignatureBytes ++ ecdsaSigDer 1 1)).isSome = true := by
  refine ((composite_signature_format Toy.ecdsaSigCodec).1 _).mpr
    ⟨_, 1, 1, Bytes.zeros_length _, Nat.one_pos, Nat.one_pos, rfl, ?_⟩
  have hc : Ber.natContent 1 = [1] := by simp [Ber.natContent, beBytes, Ber.topBit]
  have hw : Ber.weight (Ber.natsElement [1, 1]) = 32 := by
    simp [Ber.natsElement, Ber.weight, Ber.weightAll, hc]
  have hl : (ecdsaSigDer 1 1).length ≤ Ber.weight (Ber.natsElement [1, 1]) :=
    Ber.encode_length_le _ (by rw [hw, Ber.maxLen]; omega)
  rw [List.length_append, Bytes.zeros_length, Toy.ecdsaSigMax]
  omega

end HybridPqc
