import HybridPqc.Composite.KeyFormat
import HybridPqc.X509.Toy

/-!
# X509.PublicKey

Composite public keys on their own and in certificates: the format and the two comparisons,
`composite_public_keys_equal` and `hybrid_x509_public_key_matches`.
-/

namespace HybridPqc

open Refs

section

variable {PKey : Type} {E : Openssl PKey}

/-- The certificate's key is the given one exactly when it can be read and both components agree. -/
theorem hybridX509PublicKeyMatches_iff {certificate : X509} {key : HybridPublicKey PKey} :
    hybridX509PublicKeyMatches E certificate key = true ↔
      ∃ certificateKey, hybridX509GetCompositePublicKey E certificate = some certificateKey ∧
        SameComponents E.toCrypto certificateKey key := by
  simp only [hybridX509PublicKeyMatches]
  cases hybridX509GetCompositePublicKey E certificate with
  | none => simp
  | some certificateKey => simp [compositePublicKeysEqual_iff, SameComponents]

end

/-- **Composite public keys.** The parser accepts exactly the grammar, parsing and serialising undo
each other, the comparisons compare both components, and a failed parse changes nothing. -/
theorem composite_public_key_format {PKey : Type} {E : Openssl PKey}
    (hpoints : Sm2Points E.toCrypto) :
    (∀ b, (compositeParsePublicKey E.toCrypto b).isSome = true ↔
      b.length = 1377 ∧ b[1312]? = some 0x04 ∧ Sm2Curve.isPoint (b.drop 1313) = true) ∧
    (∀ b key, compositeParsePublicKey E.toCrypto b = some key →
      compositeSerializePublicKey E.toCrypto key = some b) ∧
    (∀ key b, compositeSerializePublicKey E.toCrypto key = some b →
      ∃ parsed, compositeParsePublicKey E.toCrypto b = some parsed ∧
        SameComponents E.toCrypto parsed key) ∧
    (∀ left right, compositePublicKeysEqual E.toCrypto left right = true ↔
      SameComponents E.toCrypto left right) ∧
    (∀ certificate key, hybridX509PublicKeyMatches E certificate key = true ↔
      ∃ certificateKey, hybridX509GetCompositePublicKey E certificate = some certificateKey ∧
        SameComponents E.toCrypto certificateKey key) ∧
    (∀ (H : Heap PKey) b key,
      (compositeParsePublicKeyInto E.toCrypto H (.buf b) key).1 =
        (compositeParsePublicKey E.toCrypto b).isSome) ∧
    (∀ (H : Heap PKey) serialized key,
      (compositeParsePublicKeyInto E.toCrypto H serialized key).1 = false →
      (compositeParsePublicKeyInto E.toCrypto H serialized key).2.2 = key ∧
        (compositeParsePublicKeyInto E.toCrypto H serialized key).2.1.obj = H.obj) := by
  refine ⟨fun _ => compositeParsePublicKey_isSome_iff hpoints,
    fun _ _ => compositeSerializePublicKey_parse, ?_, fun _ _ => compositePublicKeysEqual_iff,
    fun _ _ => hybridX509PublicKeyMatches_iff, fun _ _ _ => compositeParsePublicKeyInto_fst,
    fun _ _ _ => compositeParsePublicKeyInto_failed⟩
  intro key b h
  obtain ⟨parsed, hparse, heq⟩ := compositeParsePublicKey_serialize hpoints.sm2Imports h
  exact ⟨parsed, hparse, compositePublicKeysEqual_iff.mp heq⟩

/-- A key of zero Dilithium2 bytes and the base point is accepted. -/
theorem composite_public_key_format_generator :
    (compositeParsePublicKey Toy.curveCrypto
      (Bytes.zeros 1312 ++ 0x04 :: Sm2Curve.generator)).isSome = true := by
  let E : Openssl Bytes := { Toy.issueLib.toOpenssl with toCrypto := Toy.curveCrypto }
  refine ((composite_public_key_format (E := E) Toy.sm2Points).1 _).mpr ⟨?_, ?_, ?_⟩
  · rw [List.length_append, Bytes.zeros_length]
    rfl
  · rw [List.getElem?_append_right (by rw [Bytes.zeros_length]), Bytes.zeros_length]
    rfl
  · have hdrop : (Bytes.zeros 1312 ++ 0x04 :: Sm2Curve.generator).drop 1313 =
        Sm2Curve.generator := by
      rw [List.drop_append, Bytes.drop_zeros, Bytes.zeros_length]
      rfl
    rw [hdrop]
    exact Sm2Curve.generator_isPoint

end HybridPqc
