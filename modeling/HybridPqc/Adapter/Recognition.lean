import HybridPqc.Adapter.CallbackCorrect

/-!
# Adapter.Recognition

Which signing certificates the adapter takes for Composite.

A certificate that decodes is recognised by its two signature AlgorithmIdentifiers, one that does
not by a scan for the OID's twelve bytes. `recognition_agrees_iff`: the two agree about every byte
string but those that decode to a certificate with the Composite OID in its SubjectPublicKeyInfo
alone.
-/

namespace HybridPqc

/-- The AlgorithmIdentifier names the Composite OID, whatever its parameters. -/
def NamesComposite (a : X509Algor) : Prop := a.algorithm = compositeSm2DilithiumExperimentalOid

instance (a : X509Algor) : Decidable (NamesComposite a) := inferInstanceAs (Decidable (_ = _))

/-- One of the three AlgorithmIdentifiers of a certificate names it. -/
def UsesComposite (c : X509) : Prop :=
  NamesComposite c.tbsCertificate.signature ∨ NamesComposite c.signatureAlgorithm ∨
    NamesComposite c.tbsCertificate.subjectPublicKeyInfo.algor

theorem certificateMentionsComposite_iff {c : X509} :
    certificateMentionsComposite c = true ↔
      NamesComposite c.signatureAlgorithm ∨ NamesComposite c.tbsCertificate.signature := by
  simp only [certificateMentionsComposite, Bool.or_eq_true, beq_iff_eq, NamesComposite]

/-- The scan finds the OID element wherever it stands. -/
theorem containsCompositeOid_iff {der : Bytes} :
    containsCompositeOid (.buf der) = true ↔ compositeOidDer <:+: der := by
  simp only [containsCompositeOid]
  constructor
  · intro h
    by_cases hl : der.length < compositeOidDer.length
    · rw [if_pos hl] at h
      cases h
    · rw [if_neg hl, List.any_eq_true] at h
      obtain ⟨i, _, hi⟩ := h
      rw [beq_iff_eq] at hi
      refine ⟨der.take i, der.drop (i + compositeOidDer.length), ?_⟩
      calc der.take i ++ compositeOidDer ++ der.drop (i + compositeOidDer.length)
          = der.take i ++ ((der.drop i).take compositeOidDer.length ++
              (der.drop i).drop compositeOidDer.length) := by
            rw [List.append_assoc, List.drop_drop, show (der.drop i).take compositeOidDer.length =
              compositeOidDer from hi]
        _ = der := by rw [List.take_append_drop, List.take_append_drop]
  · intro h
    obtain ⟨a, b, rfl⟩ := h
    have hl : ¬ (a ++ compositeOidDer ++ b).length < compositeOidDer.length := by
      simp only [List.length_append]
      omega
    rw [if_neg hl, List.any_eq_true]
    refine ⟨a.length, List.mem_range.mpr ?_, ?_⟩
    · simp only [List.length_append]
      omega
    · simp [Bytes.slice]

section

variable {PKey : Type}

/-- What the adapter should make of the signing certificate `der`: not `NOT_APPLICABLE` when it
decodes and uses Composite, `NOT_APPLICABLE` when it decodes and does not, or does not decode and
holds no Composite OID. -/
def RecognitionAgrees (E : Openssl PKey) (der : CArg) (result : TlcpHybridCertResult) : Prop :=
  (∀ c, decodeDerStrict E der = some c → UsesComposite c → result ≠ .notApplicable) ∧
  (∀ c, decodeDerStrict E der = some c → ¬ UsesComposite c → result = .notApplicable) ∧
  (decodeDerStrict E der = none → ¬ compositeOidDer <:+: der.bytes → result = .notApplicable)

/-- A Composite subject key comes with a Composite signature algorithm. -/
def SpkiNotAlone (c : X509) : Prop :=
  NamesComposite c.tbsCertificate.subjectPublicKeyInfo.algor →
    NamesComposite c.signatureAlgorithm ∨ NamesComposite c.tbsCertificate.signature

/-- **Recognition.** The adapter treats a byte string as it should exactly when it is not a
certificate whose SubjectPublicKeyInfo alone names Composite. -/
theorem recognition_agrees_iff {PKey : Type} (E : Openssl PKey) (now : Int) (der anchor : CArg)
    (host : Option CString) (output : Option Bytes) :
    RecognitionAgrees E der (tlcpHybridCertVerifyDer E now der anchor host output).result ↔
      ∀ c, decodeDerStrict E der = some c → SpkiNotAlone c := by
  have hna : (tlcpHybridCertVerifyDer E now der anchor host output).result = .notApplicable ↔ _ :=
    tlcpHybridCertVerifyDer_notApplicable_iff
  unfold RecognitionAgrees
  cases hd : decodeDerStrict E der with
  | none =>
    rw [hd] at hna
    refine ⟨fun _ c h => (by cases h), fun _ => ⟨fun c h => (by cases h), fun c h => (by cases h),
      ?_⟩⟩
    intro _ hscan
    rw [hna, ← Bool.not_eq_true]
    intro hfound
    cases der with
    | null n => cases hfound
    | buf b => exact hscan (containsCompositeOid_iff.mp hfound)
  | some c =>
    rw [hd] at hna
    have hmention : (tlcpHybridCertVerifyDer E now der anchor host output).result =
        .notApplicable ↔
        ¬ (NamesComposite c.signatureAlgorithm ∨ NamesComposite c.tbsCertificate.signature) := by
      rw [hna, ← certificateMentionsComposite_iff, Bool.not_eq_true]
    simp only [Option.some.injEq, forall_eq', reduceCtorEq, false_implies, and_true, ne_eq,
      hmention, not_not, UsesComposite, SpkiNotAlone]
    constructor
    · intro h hspki
      exact h.1 (Or.inr (Or.inr hspki))
    · intro h
      refine ⟨?_, ?_⟩
      · intro huse
        obtain hinner | houter | hspki := huse
        · exact Or.inr hinner
        · exact Or.inl houter
        · exact h hspki
      · intro hno hsig
        exact hno (hsig.elim (fun ho => Or.inr (Or.inl ho)) Or.inl)

end

/-! ## A Composite key under an SM2 signature -/

namespace Toy

open Ber

/-- `sm2sign-with-sm3` -/
def sm2SignWithSm3 : X509Algor := ⟨objTxt2obj [1, 2, 156, 10197, 1, 501], none⟩

/-- An ordinary SM2 signature over a certificate for a Composite key. -/
def sm2Signed : X509 where
  tbsCertificate :=
    { version := none
      serialNumber := [1]
      signature := sm2SignWithSm3
      issuer := []
      validity := ⟨utcTime 1750000000, utcTime 1760000000⟩
      subject := []
      subjectPublicKeyInfo :=
        ⟨compositeAlgorithm, .ofOctets ((publicKey 1).dilithiumPublicKey.val ++ sm2Key 1)⟩
      issuerUid := none
      subjectUid := none
      extensions := none }
  signatureAlgorithm := sm2SignWithSm3
  signatureValue := .ofOctets (sigDer 1 (sm2Key 1))

theorem sm2Signed_decodes : ∃ c, decodeDerStrict issueLib.toOpenssl
    (.buf (encode sm2Signed.toBer)) = some c ∧
    c.tbsCertificate.subjectPublicKeyInfo.algor = compositeAlgorithm ∧
    c.tbsCertificate.signature = sm2SignWithSm3 ∧ c.signatureAlgorithm = sm2SignWithSm3 := by
  have htags : tagsOk sm2Signed.toBer = true := by decide +kernel
  have hweight : weight sm2Signed.toBer ≤ 2 ^ 20 := by decide +kernel
  have hlen := encode_length_le sm2Signed.toBer (by simp only [maxLen]; omega)
  have hpos := encode_length_pos sm2Signed.toBer
  have hi : i2dCompositeCertificate sm2Signed = some (encode sm2Signed.toBer) :=
    i2d_of_weight htags (by omega)
  generalize encode sm2Signed.toBer = der at hlen hpos hi
  refine ⟨sm2Signed.reencode, decodeDerStrict_some.mpr ⟨by omega, ?_, d2iX509_i2d hi⟩, rfl, rfl,
    rfl⟩
  simp only [longMax]
  omega

end Toy

/-- The certificate decodes and its subject key is Composite, and the adapter answers
`NOT_APPLICABLE`. -/
theorem composite_spki_not_recognized :
    (∃ c, decodeDerStrict Toy.issueLib.toOpenssl (.buf (Ber.encode Toy.sm2Signed.toBer)) = some c ∧
      NamesComposite c.tbsCertificate.subjectPublicKeyInfo.algor) ∧
    (tlcpHybridCertVerifyDer Toy.issueLib.toOpenssl Toy.issueTime
      (.buf (Ber.encode Toy.sm2Signed.toBer)) (.null 0) none none).result = .notApplicable := by
  obtain ⟨c, hd, hspki, hinner, houter⟩ := Toy.sm2Signed_decodes
  refine ⟨⟨c, hd, by rw [hspki]; rfl⟩, ?_⟩
  rw [tlcpHybridCertVerifyDer_notApplicable_iff, hd]
  dsimp only
  rw [← Bool.not_eq_true, certificateMentionsComposite_iff, hinner, houter, or_self]
  decide

end HybridPqc
