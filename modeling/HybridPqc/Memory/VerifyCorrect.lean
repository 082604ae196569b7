import HybridPqc.Memory.Verify

/-!
# Memory.VerifyCorrect

What the verifiers of `hybrid_chain.c` say when memory runs out.

Each of them leaves what is held as it was and sets a flag only where the verifier without memory
sets it, so no failing request turns a rejected certificate into an accepted one
(`hybridVerifyChain_spec`).
-/

namespace HybridPqc

namespace Memory

open Refs
open Refs.Act

section

variable {plan : Nat → Bool} {B R : Multiset Nat}

theorem looking_spec {α : Type} {p : Option (Obj α)} {o : Option α} (hp : Yields plan o p R)
    (f : α → Bool) : Spec plan R (looking p f) (Beside R (Decides plan (o.any f))) := by
  cases hp with
  | null h =>
    refine .ret ⟨0, .no (h.imp_left ?_), rfl⟩
    rintro rfl
    rfl
  | object p h =>
    rw [h]
    refine (touch_spec p).bind ?_
    rintro _ _ rfl
    exact pure_spec (f p.val)

variable {certificate : Obj X509} (hc : certificate.owned ≤ B)

include hc

theorem x509GetExtD2i_spec {α : Type} (nid : Oid) (d2i : Bytes → Option α) :
    Spec plan B (x509GetExtD2i certificate nid d2i)
      (Beside B (Yields plan (certificate.val.getExtD2i nid d2i))) := by
  refine (touch_spec_of_le hc).bind ?_
  rintro _ _ rfl
  exact ((make_spec _).frame _).pre (zero_add _).symm

theorem extensionCheck_spec {α : Type} (nid : Oid) (d2i : Bytes → Option α)
    {check : α × Bool → Bool} {b : Bool} (hb : (certificate.val.getExtD2i nid d2i).any check = b) :
    Spec plan B (extensionCheck certificate nid d2i check) (Beside B (Decides plan b)) := by
  subst hb
  refine (x509GetExtD2i_spec hc nid d2i).look ?_
  intro value R hvalue
  refine (looking_spec hvalue check).step B rfl ?_
  rintro valid _ ⟨R', hvalid, rfl⟩
  rw [hvalue.owned]
  refine (free_spec value).release (R' + B) (by ac_rfl) ?_
  exact .ret ⟨R', hvalid, rfl⟩

theorem hybridX509HasPqcExtension_spec :
    Spec plan B (hybridX509HasPqcExtension certificate)
      (Beside B (Decides plan (HybridPqc.hybridX509HasPqcExtension certificate.val))) := by
  refine (alloc_spec hybridPqcExtensionOid).step B (zero_add _).symm ?_
  rintro _ _ (⟨object, h⟩ | ⟨h⟩)
  swap
  · exact .ret ⟨0, .no (Or.inr (fails_of_some h)), rfl⟩
  have hoid := (Option.some.inj h).symm
  refine (touch_spec_of_le (hc.trans (Multiset.le_add_left _ _))).bind ?_
  rintro _ _ rfl
  refine (freeObj_spec object).release B rfl ?_
  rw [hoid]
  simp only [HybridPqc.hybridX509HasPqcExtension]
  cases certificate.val.getExtByObj hybridPqcExtensionOid 0 with
  | none => exact pure_spec false
  | some first =>
    simp only [Option.bind_some]
    cases certificate.val.getExtByObj hybridPqcExtensionOid (first + 1) with
    | some second => exact pure_spec false
    | none =>
      simp only
      cases certificate.val.extensionList[first]? with
      | none => exact pure_spec false
      | some extension => exact pure_spec _

end

section

variable {plan : Nat → Bool} {B : Multiset Nat} {PKey : Type} (E : Openssl PKey) (now : Int)
  {certificate : Obj X509}

section

variable (hc : certificate.owned ≤ B)

include hc

/-! ## Readers -/

theorem hybridX509GetTbsDer_spec :
    Spec plan B (hybridX509GetTbsDer E certificate)
      (Beside B (Yields plan (HybridPqc.hybridX509GetTbsDer E certificate.val))) := by
  refine (touch_spec_of_le hc).bind ?_
  rintro _ _ rfl
  refine (make_spec (E.i2dReX509Tbs certificate.val.tbsCertificate)).step _ (zero_add _).symm ?_
  simp only [HybridPqc.hybridX509GetTbsDer]
  rintro _ _ (⟨output, h⟩ | ⟨h⟩)
  · rw [h]
    dsimp only
    split
    · refine (freeObj_spec output).step _ rfl ?_
      rintro _ _ rfl
      exact .ret ⟨0, .null (Or.inl rfl), rfl⟩
    · exact (object_spec rfl rfl).frame _
  · refine .ret ⟨0, .null (h.imp_left ?_), rfl⟩
    intro h0
    rw [h0]

theorem hybridX509SubjectPublicKeyIsSm2_spec :
    Spec plan B (hybridX509SubjectPublicKeyIsSm2 E certificate)
      (Beside B (Decides plan (HybridPqc.hybridX509SubjectPublicKeyIsSm2 E certificate.val))) := by
  have hval : HybridPqc.hybridX509SubjectPublicKeyIsSm2 E certificate.val =
      (E.getPubkey certificate.val.tbsCertificate.subjectPublicKeyInfo).any E.isSm2 := by
    simp only [HybridPqc.hybridX509SubjectPublicKeyIsSm2]
    cases E.getPubkey certificate.val.tbsCertificate.subjectPublicKeyInfo with
    | none => rfl
    | some key => rfl
  rw [hval]
  refine (touch_spec_of_le hc).bind ?_
  rintro _ V rfl
  refine (make_spec _).step V (zero_add _).symm ?_
  intro key R hkey
  refine (looking_spec hkey E.isSm2).step V rfl ?_
  rintro valid _ ⟨R', hvalid, rfl⟩
  rw [hkey.owned]
  refine (free_spec key).release (R' + V) (by ac_rfl) ?_
  exact .ret ⟨R', hvalid, rfl⟩

theorem hybridX509GetCompositePublicKey_spec :
    Spec plan B (hybridX509GetCompositePublicKey E certificate)
      (Beside B (Yields plan (HybridPqc.hybridX509GetCompositePublicKey E certificate.val))) := by
  refine (touch_spec_of_le hc).bind ?_
  rintro _ _ rfl
  simp only [HybridPqc.hybridX509GetCompositePublicKey]
  split
  · exact .ret ⟨0, .null (Or.inl rfl), (zero_add _).symm⟩
  · exact ((compositeParsePublicKey_spec E.toCrypto _).frame _).pre (zero_add _).symm

end

/-! ## Single checks -/

theorem and_spec {x y : Act plan Bool} {b c : Bool}
    (hx : Spec plan B x (Beside B (Decides plan b)))
    (hy : Spec plan B y (Beside B (Decides plan c))) :
    Spec plan B (x >>= fun p => y >>= fun q => pure (p && q))
      (Beside B (Decides plan (b && c))) := by
  refine hx.ask fun p hp hpfull => hy.ask fun q hq hqfull => .ret ⟨0, ?_, (zero_add _).symm⟩
  cases hpq : p && q with
  | true =>
    rw [Bool.and_eq_true] at hpq
    refine .yes ?_
    rw [hp hpq.1, hq hpq.2]
    rfl
  | false =>
    refine .no ?_
    rcases hpfull with rfl | hfail
    · rcases hqfull with rfl | hfail
      · exact Or.inl hpq
      · exact Or.inr hfail
    · exact Or.inr hfail

section

variable (hc : certificate.owned ≤ B)

include hc

theorem certificateConstraintsValid_spec (isCa : Bool) :
    Spec plan B (certificateConstraintsValid E certificate isCa)
      (Beside B (Decides plan (HybridPqc.certificateConstraintsValid E certificate.val isCa))) := by
  refine and_spec (extensionCheck_spec hc _ _ ?_) (extensionCheck_spec hc _ _ ?_)
  · cases certificate.val.getExtD2i nidBasicConstraints E.d2iBasicConstraints with
    | none => rfl
    | some value => rfl
  · cases certificate.val.getExtD2i nidKeyUsage E.d2iKeyUsage with
    | none => rfl
    | some value => rfl

theorem encryptionCertificateConstraintsValid_spec :
    Spec plan B (encryptionCertificateConstraintsValid E certificate)
      (Beside B (Decides plan
        (HybridPqc.encryptionCertificateConstraintsValid E certificate.val))) := by
  refine and_spec (extensionCheck_spec hc _ _ ?_) (extensionCheck_spec hc _ _ ?_)
  · cases certificate.val.getExtD2i nidBasicConstraints E.d2iBasicConstraints with
    | none => rfl
    | some value => rfl
  · cases certificate.val.getExtD2i nidKeyUsage E.d2iKeyUsage with
    | none => rfl
    | some value => rfl

theorem serverEkuValid_spec :
    Spec plan B (serverEkuValid E certificate)
      (Beside B (Decides plan (HybridPqc.serverEkuValid E certificate.val))) := by
  refine extensionCheck_spec hc _ _ ?_
  simp only [HybridPqc.serverEkuValid]
  cases certificate.val.getExtD2i nidExtKeyUsage E.d2iExtKeyUsage with
  | none => rfl
  | some value => rfl

theorem serverSanValid_spec :
    Spec plan B (serverSanValid E certificate)
      (Beside B (Decides plan (HybridPqc.serverSanValid E certificate.val))) := by
  refine extensionCheck_spec hc _ _ ?_
  simp only [HybridPqc.serverSanValid]
  cases certificate.val.getExtD2i nidSubjectAltName E.d2iSubjectAltName with
  | none => rfl
  | some value => rfl

theorem subjectKeyIdentifierPresent_spec :
    Spec plan B (subjectKeyIdentifierPresent E certificate)
      (Beside B (Decides plan (HybridPqc.subjectKeyIdentifierPresent E certificate.val))) := by
  refine extensionCheck_spec hc _ _ ?_
  simp only [HybridPqc.subjectKeyIdentifierPresent]
  cases certificate.val.getExtD2i nidSubjectKeyIdentifier E.d2iSubjectKeyIdentifier with
  | none => rfl
  | some value => rfl

omit hc in
theorem serverKeyIdentifiersValid_eq (certificate issuer : X509) :
    HybridPqc.serverKeyIdentifiersValid E certificate issuer =
      (certificate.getExtD2i nidSubjectKeyIdentifier E.d2iSubjectKeyIdentifier).any fun s =>
      (issuer.getExtD2i nidSubjectKeyIdentifier E.d2iSubjectKeyIdentifier).any fun i =>
      (certificate.getExtD2i nidAuthorityKeyIdentifier E.d2iAuthorityKeyid).any fun a =>
        keyIdentifiersMatch s.1 i.1 a.1 := by
  simp only [HybridPqc.serverKeyIdentifiersValid]
  cases certificate.getExtD2i nidSubjectKeyIdentifier E.d2iSubjectKeyIdentifier with
  | none => rfl
  | some s =>
    cases issuer.getExtD2i nidSubjectKeyIdentifier E.d2iSubjectKeyIdentifier with
    | none => rfl
    | some i =>
      cases certificate.getExtD2i nidAuthorityKeyIdentifier E.d2iAuthorityKeyid with
      | none => rfl
      | some a => rfl

/-- The three identifiers are read before any of them is tested. -/
theorem serverKeyIdentifiersValid_spec {issuer : Obj X509} (hi : issuer.owned ≤ B) :
    Spec plan B (serverKeyIdentifiersValid E certificate issuer)
      (Beside B (Decides plan
        (HybridPqc.serverKeyIdentifiersValid E certificate.val issuer.val))) := by
  refine (x509GetExtD2i_spec hc _ _).look ?_
  intro subjectIdentifier R₁ hsubject
  have hle : B ≤ R₁ + B := Multiset.le_add_left _ _
  refine (x509GetExtD2i_spec (hi.trans hle) _ _).look ?_
  intro issuerIdentifier R₂ hissuer
  have hle₂ : B ≤ R₂ + (R₁ + B) := hle.trans (Multiset.le_add_left _ _)
  refine (x509GetExtD2i_spec (hc.trans hle₂) _ _).look ?_
  intro authority R₃ hauthority
  rw [hsubject.owned, hissuer.owned, hauthority.owned]
  split
  · rename_i subjectIdentifier issuerIdentifier authority
    have hval : HybridPqc.serverKeyIdentifiersValid E certificate.val issuer.val =
        keyIdentifiersMatch subjectIdentifier.val.1 issuerIdentifier.val.1 authority.val.1 := by
      rw [serverKeyIdentifiersValid_eq, hsubject.val_eq rfl, hissuer.val_eq rfl,
        hauthority.val_eq rfl]
      rfl
    rw [hval]
    refine (freeObj_spec authority).release (issuerIdentifier.owned + (subjectIdentifier.owned + B))
      rfl ?_
    refine (freeObj_spec issuerIdentifier).release (subjectIdentifier.owned + B) rfl ?_
    refine (freeObj_spec subjectIdentifier).release B rfl ?_
    exact pure_spec _
  · rename_i hnot
    have hfalse : HybridPqc.serverKeyIdentifiersValid E certificate.val issuer.val = false ∨
        Fails plan := by
      by_contra hno
      rw [not_or, serverKeyIdentifiersValid_eq] at hno
      cases hsubject with
      | null h =>
        refine h.elim (fun h0 => hno.1 ?_) hno.2
        simp [h0]
      | object subjectIdentifier hs =>
        cases hissuer with
        | null h =>
          refine h.elim (fun h0 => hno.1 ?_) hno.2
          simp [h0]
        | object issuerIdentifier hi =>
          cases hauthority with
          | null h =>
            refine h.elim (fun h0 => hno.1 ?_) hno.2
            simp [h0]
          | object authority ha =>
            exact hnot subjectIdentifier issuerIdentifier authority rfl rfl rfl
    refine (free_spec authority).release (Obj.ownedOpt issuerIdentifier +
      (Obj.ownedOpt subjectIdentifier + B)) rfl ?_
    refine (free_spec issuerIdentifier).release (Obj.ownedOpt subjectIdentifier + B) rfl ?_
    refine (free_spec subjectIdentifier).release B rfl ?_
    exact .ret ⟨0, .no hfalse, (zero_add _).symm⟩

end

/-! ## Results -/

def certFlags : List (HybridCertVerifyResult → Bool) :=
  [(·.issuerSubjectLinkValid), (·.validityValid), (·.issuerCaConstraintsValid),
    (·.subjectConstraintsValid), (·.ekuValid), (·.sanValid), (·.keyIdentifiersValid),
    (·.pqcExtensionPresent), (·.compositeOidsValid), (·.subjectPublicKeyComposite),
    (·.subjectPublicKeySm2), (·.compositePublicKeyValid), (·.signatureFormatValid),
    (·.dilithiumValid), (·.sm2Valid), (·.compositeValid), (·.certificateValid)]

/-- Every flag that is set is set in `v` too. -/
def CertResultBelow (r v : HybridCertVerifyResult) : Prop :=
  ∀ flag ∈ certFlags, flag r = true → flag v = true

theorem CertResultBelow.refl (v : HybridCertVerifyResult) : CertResultBelow v v := fun _ _ => id

theorem CertResultBelow.trans {a b c : HybridCertVerifyResult} (h : CertResultBelow a b)
    (h' : CertResultBelow b c) : CertResultBelow a c := fun flag hf ha => h' flag hf (h flag hf ha)

/-- A result without a flag is below every result. -/
theorem CertResultBelow.empty (v : HybridCertVerifyResult) : CertResultBelow {} v := by
  simp [CertResultBelow, certFlags]

/-- No flag of the signature is set. -/
structure SignatureUnseen (v : HybridCertVerifyResult) : Prop where
  signatureFormatValid : v.signatureFormatValid = false
  dilithiumValid : v.dilithiumValid = false
  sm2Valid : v.sm2Valid = false
  compositeValid : v.compositeValid = false

def withSignature (v : HybridCertVerifyResult) (r : CompositeVerifyResult) :
    HybridCertVerifyResult :=
  { v with
    signatureFormatValid := r.formatValid
    dilithiumValid := r.dilithiumValid
    sm2Valid := r.sm2Valid
    compositeValid := r.compositeValid }

theorem withSignature_below {r v : HybridCertVerifyResult} {a b : CompositeVerifyResult}
    (h : CertResultBelow r v) (hab : VerifyResultBelow a b) :
    CertResultBelow (withSignature r a) (withSignature v b) := by
  obtain ⟨h₁, h₂, h₃, h₄⟩ := hab
  simp only [CertResultBelow, certFlags, List.forall_mem_cons] at h ⊢
  simp_all [withSignature]

/-- A result without a signature is below the one with it. -/
theorem below_withSignature {r v : HybridCertVerifyResult} (h : CertResultBelow r v)
    (hu : SignatureUnseen v) (b : CompositeVerifyResult) :
    CertResultBelow r (withSignature v b) := by
  obtain ⟨h₁, h₂, h₃, h₄⟩ := hu
  simp only [CertResultBelow, certFlags, List.forall_mem_cons] at h ⊢
  simp_all [withSignature]

/-- What `verify_certificate_signature` writes when the octets and the signature are there. -/
theorem verifyCertificateSignature_eq (certificate : X509) (issuerKey : HybridPublicKey PKey)
    (v : HybridCertVerifyResult) :
    HybridPqc.verifyCertificateSignature E certificate issuerKey v =
      match HybridPqc.hybridX509GetTbsDer E certificate, hybridX509GetSignature certificate with
      | some tbsDer, some signature => withSignature v
          (HybridPqc.compositeVerifyDetailed E.toCrypto issuerKey (.buf tbsDer) (.null 0) signature)
      | _, _ => v := rfl

theorem below_verifyCertificateSignature (certificate : X509) (issuerKey : HybridPublicKey PKey)
    {r v : HybridCertVerifyResult} (hrv : CertResultBelow r v) (hu : SignatureUnseen v) :
    CertResultBelow r (HybridPqc.verifyCertificateSignature E certificate issuerKey v) := by
  rw [verifyCertificateSignature_eq]
  split
  · exact below_withSignature hrv hu _
  · exact hrv

theorem verifyCertificateSignature_spec (hc : certificate.owned ≤ B)
    (issuerKey : HybridPublicKey PKey) {r v : HybridCertVerifyResult} (hrv : CertResultBelow r v)
    (hu : SignatureUnseen v) (hfull : r = v ∨ Fails plan) :
    Spec plan B (verifyCertificateSignature E certificate issuerKey r)
      (Beside B (Reports plan CertResultBelow
        (HybridPqc.verifyCertificateSignature E certificate.val issuerKey v))) := by
  refine (hybridX509GetTbsDer_spec E hc).look ?_
  rw [verifyCertificateSignature_eq]
  rintro _ _ (⟨tbsDer, h⟩ | ⟨h⟩)
  · rw [h]
    refine (touch_spec_of_le (hc.trans (Multiset.le_add_left _ _))).bind ?_
    rintro _ _ rfl
    cases hybridX509GetSignature certificate.val with
    | none =>
      refine (freeObj_spec tbsDer).release B rfl ?_
      exact .ret ⟨0, ⟨rfl, hrv, hfull⟩, (zero_add _).symm⟩
    | some signature =>
      refine (touch_spec tbsDer).step B rfl ?_
      rintro _ _ rfl
      refine (compositeVerifyDetailed_spec E.toCrypto issuerKey _ _ signature).step
        (tbsDer.owned + B) (zero_add _).symm ?_
      rintro compositeResult _ ⟨rfl, hle, hres⟩
      refine (freeObj_spec tbsDer).release B (zero_add _) ?_
      refine .ret ⟨0, ⟨rfl, withSignature_below hrv hle, ?_⟩, (zero_add _).symm⟩
      rcases hfull with rfl | hfail
      · exact hres.imp_left (congrArg (withSignature r))
      · exact Or.inr hfail
  · refine .ret ⟨0, ⟨rfl, below_verifyCertificateSignature E _ _ hrv hu, ?_⟩, rfl⟩
    rcases h with h0 | hfail
    · rw [h0]
      exact hfull
    · exact Or.inr hfail

def withKey (v : HybridCertVerifyResult) : HybridCertVerifyResult :=
  { v with compositePublicKeyValid := true }

theorem withKey_below {r v : HybridCertVerifyResult} (h : CertResultBelow r v) :
    CertResultBelow (withKey r) (withKey v) := by
  simp only [CertResultBelow, certFlags, List.forall_mem_cons] at h ⊢
  simp_all [withKey]

theorem below_withKey {r v : HybridCertVerifyResult} (h : CertResultBelow r v) :
    CertResultBelow r (withKey v) := by
  simp only [CertResultBelow, certFlags, List.forall_mem_cons] at h ⊢
  simp_all [withKey]

theorem SignatureUnseen.withKey {v : HybridCertVerifyResult} (h : SignatureUnseen v) :
    SignatureUnseen (withKey v) := ⟨h.1, h.2, h.3, h.4⟩

/-- `v`, with what the signature under the key of `issuer` says. -/
def signatureChecked (certificate issuer : X509) (v : HybridCertVerifyResult) :
    HybridCertVerifyResult :=
  match HybridPqc.hybridX509GetCompositePublicKey E issuer with
  | none => v
  | some issuerKey =>
    HybridPqc.verifyCertificateSignature E certificate issuerKey
      { v with compositePublicKeyValid := true }

theorem checkSignature_spec {issuer : Obj X509} (hc : certificate.owned ≤ B)
    (hi : issuer.owned ≤ B) {r v : HybridCertVerifyResult} (hrv : CertResultBelow r v)
    (hu : SignatureUnseen v) (hfull : r = v ∨ Fails plan) :
    Spec plan B (checkSignature E certificate issuer r)
      (Beside B (Reports plan CertResultBelow
        (signatureChecked E certificate.val issuer.val v))) := by
  refine (hybridX509GetCompositePublicKey_spec E hi).look ?_
  simp only [signatureChecked]
  rintro _ _ (⟨issuerKey, h⟩ | ⟨h⟩)
  · rw [h]
    refine (touch_spec issuerKey).step B rfl ?_
    rintro _ _ rfl
    refine (verifyCertificateSignature_spec E (hc.trans (Multiset.le_add_left _ _)) issuerKey.val
      (withKey_below hrv) hu.withKey (hfull.imp_left (congrArg withKey))).bind ?_
    rintro local_ _ ⟨R, ⟨rfl, hle, hres⟩, rfl⟩
    rw [zero_add]
    refine (freeObj_spec issuerKey).release B rfl ?_
    exact .ret ⟨0, ⟨rfl, hle, hres⟩, (zero_add _).symm⟩
  · refine .ret ⟨0, ⟨rfl, ?_, ?_⟩, rfl⟩
    · split
      · exact hrv
      · exact below_verifyCertificateSignature E _ _ (below_withKey hrv) hu.withKey
    · rcases h with h0 | hfail
      · rw [h0]
        exact hfull
      · exact Or.inr hfail

/-! ## Verifiers -/

/-- The last flag says that all those that matter are set. -/
theorem settle_spec {issuer : Obj X509} (hc : certificate.owned ≤ B) (hi : issuer.owned ≤ B)
    {r v : HybridCertVerifyResult} {f : HybridCertVerifyResult → Bool}
    (hf : ∀ {r v}, CertResultBelow r v → f r = true → f v = true) (hrv : CertResultBelow r v)
    (hu : SignatureUnseen v) (hfull : r = v ∨ Fails plan) :
    Spec plan B (checkSignature E certificate issuer r >>= fun l =>
        pure { l with certificateValid := f l })
      (Beside B (Reports plan CertResultBelow
        { signatureChecked E certificate.val issuer.val v with
          certificateValid := f (signatureChecked E certificate.val issuer.val v) })) := by
  refine (checkSignature_spec E hc hi hrv hu hfull).bind ?_
  rintro l _ ⟨_, ⟨rfl, hle, hres⟩, rfl⟩
  refine .ret ⟨0, ⟨rfl, ?_, hres.imp_left fun h => by rw [h]⟩, rfl⟩
  have hvalid := hf hle
  simp only [CertResultBelow, certFlags, List.forall_mem_cons] at hle ⊢
  simp_all

/-- The checks of the root before its signature. -/
def rootChecks (root : X509) (ca ski pqc : Bool) : HybridCertVerifyResult where
  issuerSubjectLinkValid :=
    E.x509NameCmp root.tbsCertificate.issuer root.tbsCertificate.subject == 0
  validityValid := certificateTimeValid E now root
  issuerCaConstraintsValid := ca
  subjectConstraintsValid := ca
  ekuValid := true
  sanValid := true
  keyIdentifiersValid := ski
  pqcExtensionPresent := pqc
  compositeOidsValid := hybridX509CompositeSignatureAlgorithmsValid root
  subjectPublicKeyComposite := hybridX509SubjectPublicKeyIsComposite root

theorem hybridVerifyRootSelfSignature_spec {root : Option (Obj X509)}
    (hr : Obj.ownedOpt root ≤ B) :
    Spec plan B (hybridVerifyRootSelfSignature E now root)
      (Beside B (Reports plan CertResultBelow
        (HybridPqc.hybridVerifyRootSelfSignature E now (root.map Obj.val)))) := by
  cases root with
  | none => exact .ret ⟨0, ⟨rfl, .refl _, Or.inl rfl⟩, (zero_add _).symm⟩
  | some root =>
    rw [Obj.ownedOpt_some] at hr
    refine (touch_spec_of_le hr).bind ?_
    rintro _ B rfl
    refine (certificateConstraintsValid_spec E hr true).ask fun ca hca hca' => ?_
    refine (subjectKeyIdentifierPresent_spec E hr).ask fun ski hski hski' => ?_
    refine (hybridX509HasPqcExtension_spec hr).ask fun pqc hpqc hpqc' => ?_
    refine settle_spec E hr hr (r := rootChecks E now root.val ca ski pqc)
      (v := rootChecks E now root.val (HybridPqc.certificateConstraintsValid E root.val true)
        (HybridPqc.subjectKeyIdentifierPresent E root.val)
        (HybridPqc.hybridX509HasPqcExtension root.val)) ?_ ?_ ⟨rfl, rfl, rfl, rfl⟩ ?_
    · intro r v h
      simp only [CertResultBelow, certFlags, List.forall_mem_cons] at h
      simp_all
    · simp only [CertResultBelow, certFlags, List.forall_mem_cons, rootChecks]
      simp_all
    · by_contra hno
      simp_all

/-- The checks of a server certificate before its signature. -/
def serverChecks (certificate issuer : X509) (ca subject eku san ids pqc : Bool) :
    HybridCertVerifyResult where
  issuerSubjectLinkValid :=
    E.x509NameCmp certificate.tbsCertificate.issuer issuer.tbsCertificate.subject == 0
  validityValid := certificateTimeValid E now certificate
  issuerCaConstraintsValid := ca
  subjectConstraintsValid := subject
  ekuValid := eku
  sanValid := san
  keyIdentifiersValid := ids
  pqcExtensionPresent := pqc
  compositeOidsValid := hybridX509CompositeSignatureAlgorithmsValid certificate
  subjectPublicKeyComposite := hybridX509SubjectPublicKeyIsComposite certificate

theorem hybridVerifyCertificate_spec {certificate issuer : Option (Obj X509)}
    (hc : Obj.ownedOpt certificate ≤ B) (hi : Obj.ownedOpt issuer ≤ B) :
    Spec plan B (hybridVerifyCertificate E now certificate issuer)
      (Beside B (Reports plan CertResultBelow (HybridPqc.hybridVerifyCertificate E now
        (certificate.map Obj.val) (issuer.map Obj.val)))) := by
  have hnull : Beside B (Reports plan CertResultBelow ({} : HybridCertVerifyResult)) {} B :=
    ⟨0, ⟨rfl, .refl _, Or.inl rfl⟩, (zero_add _).symm⟩
  cases certificate with
  | none => exact .ret hnull
  | some certificate =>
    cases issuer with
    | none => exact .ret hnull
    | some issuer =>
      rw [Obj.ownedOpt_some] at hc hi
      refine (touch_spec_of_le hc).bind ?_
      rintro _ B rfl
      refine (touch_spec_of_le hi).bind ?_
      rintro _ B rfl
      refine (certificateConstraintsValid_spec E hi true).ask fun ca hca hca' => ?_
      refine (certificateConstraintsValid_spec E hc false).ask fun subject hsub hsub' => ?_
      refine (serverEkuValid_spec E hc).ask fun eku heku heku' => ?_
      refine (serverSanValid_spec E hc).ask fun san hsan hsan' => ?_
      refine (serverKeyIdentifiersValid_spec E hc hi).ask fun ids hids hids' => ?_
      refine (hybridX509HasPqcExtension_spec hc).ask fun pqc hpqc hpqc' => ?_
      refine settle_spec E hc hi
        (r := serverChecks E now certificate.val issuer.val ca subject eku san ids pqc)
        (v := serverChecks E now certificate.val issuer.val
          (HybridPqc.certificateConstraintsValid E issuer.val true)
          (HybridPqc.certificateConstraintsValid E certificate.val false)
          (HybridPqc.serverEkuValid E certificate.val)
          (HybridPqc.serverSanValid E certificate.val)
          (HybridPqc.serverKeyIdentifiersValid E certificate.val issuer.val)
          (HybridPqc.hybridX509HasPqcExtension certificate.val)) ?_ ?_ ⟨rfl, rfl, rfl, rfl⟩ ?_
      · intro r v h
        simp only [CertResultBelow, certFlags, List.forall_mem_cons] at h
        simp_all
      · simp only [CertResultBelow, certFlags, List.forall_mem_cons, serverChecks]
        simp_all
      · by_contra hno
        simp_all

/-- The checks of an encryption certificate before its signature. -/
def encryptionChecks (certificate issuer : X509) (ca subject ids pqc sm2 : Bool) :
    HybridCertVerifyResult where
  issuerSubjectLinkValid :=
    E.x509NameCmp certificate.tbsCertificate.issuer issuer.tbsCertificate.subject == 0
  validityValid := certificateTimeValid E now certificate
  issuerCaConstraintsValid := ca
  subjectConstraintsValid := subject
  ekuValid := true
  sanValid := true
  keyIdentifiersValid := ids
  pqcExtensionPresent := pqc
  compositeOidsValid := hybridX509CompositeSignatureAlgorithmsValid certificate
  subjectPublicKeySm2 := sm2

theorem hybridVerifyEncryptionCertificate_spec {certificate issuer : Option (Obj X509)}
    (hc : Obj.ownedOpt certificate ≤ B) (hi : Obj.ownedOpt issuer ≤ B) :
    Spec plan B (hybridVerifyEncryptionCertificate E now certificate issuer)
      (Beside B (Reports plan CertResultBelow (HybridPqc.hybridVerifyEncryptionCertificate E now
        (certificate.map Obj.val) (issuer.map Obj.val)))) := by
  have hnull : Beside B (Reports plan CertResultBelow ({} : HybridCertVerifyResult)) {} B :=
    ⟨0, ⟨rfl, .refl _, Or.inl rfl⟩, (zero_add _).symm⟩
  cases certificate with
  | none => exact .ret hnull
  | some certificate =>
    cases issuer with
    | none => exact .ret hnull
    | some issuer =>
      rw [Obj.ownedOpt_some] at hc hi
      refine (touch_spec_of_le hc).bind ?_
      rintro _ B rfl
      refine (touch_spec_of_le hi).bind ?_
      rintro _ B rfl
      refine (certificateConstraintsValid_spec E hi true).ask fun ca hca hca' => ?_
      refine (encryptionCertificateConstraintsValid_spec E hc).ask fun subject hsub hsub' => ?_
      refine (serverKeyIdentifiersValid_spec E hc hi).ask fun ids hids hids' => ?_
      refine (hybridX509HasPqcExtension_spec hc).ask fun pqc hpqc hpqc' => ?_
      refine (hybridX509SubjectPublicKeyIsSm2_spec E hc).ask fun sm2 hsm hsm' => ?_
      refine settle_spec E hc hi
        (r := encryptionChecks E now certificate.val issuer.val ca subject ids pqc sm2)
        (v := encryptionChecks E now certificate.val issuer.val
          (HybridPqc.certificateConstraintsValid E issuer.val true)
          (HybridPqc.encryptionCertificateConstraintsValid E certificate.val)
          (HybridPqc.serverKeyIdentifiersValid E certificate.val issuer.val)
          (HybridPqc.hybridX509HasPqcExtension certificate.val)
          (HybridPqc.hybridX509SubjectPublicKeyIsSm2 E certificate.val))
        ?_ ?_ ⟨rfl, rfl, rfl, rfl⟩ ?_
      · intro r v h
        simp only [CertResultBelow, certFlags, List.forall_mem_cons] at h
        simp_all
      · simp only [CertResultBelow, certFlags, List.forall_mem_cons, encryptionChecks]
        simp_all
      · by_contra hno
        simp_all

structure ChainResultBelow (r v : HybridChainVerifyResult) : Prop where
  trustAnchorConfigured : r.trustAnchorConfigured = true → v.trustAnchorConfigured = true
  root : CertResultBelow r.root v.root
  server : CertResultBelow r.server v.server
  chainValid : r.chainValid = true → v.chainValid = true

theorem ChainResultBelow.trans {a b c : HybridChainVerifyResult} (h : ChainResultBelow a b)
    (h' : ChainResultBelow b c) : ChainResultBelow a c :=
  ⟨h'.1 ∘ h.1, h.2.trans h'.2, h.3.trans h'.3, h'.4 ∘ h.4⟩

theorem ChainResultBelow.empty (v : HybridChainVerifyResult) : ChainResultBelow {} v :=
  ⟨by simp, .empty _, .empty _, by simp⟩

theorem ChainResultBelow.refl (v : HybridChainVerifyResult) : ChainResultBelow v v :=
  ⟨id, .refl _, .refl _, id⟩

theorem hybridVerifyChain_spec {root server : Option (Obj X509)}
    (hr : Obj.ownedOpt root ≤ B) (hs : Obj.ownedOpt server ≤ B) :
    Spec plan B (hybridVerifyChain E now root server)
      (Beside B (Reports plan ChainResultBelow (HybridPqc.hybridVerifyChain E now
        (root.map Obj.val) (server.map Obj.val)))) := by
  refine (hybridVerifyRootSelfSignature_spec E now hr).look ?_
  rintro rootResult _ ⟨rfl, hroot, hrootFull⟩
  rw [zero_add]
  refine (hybridVerifyCertificate_spec E now hs hr).look ?_
  rintro serverResult _ ⟨rfl, hserver, hserverFull⟩
  rw [zero_add]
  have hvalid {r v : HybridCertVerifyResult} (h : CertResultBelow r v) :
      r.certificateValid = true → v.certificateValid = true :=
    h (·.certificateValid) (by simp [certFlags])
  refine .ret ⟨0, ⟨rfl, ⟨by simp [HybridPqc.hybridVerifyChain], hroot, hserver, ?_⟩, ?_⟩,
    (zero_add _).symm⟩
  · simp only [HybridPqc.hybridVerifyChain, Option.isSome_map, Bool.and_eq_true]
    rintro ⟨⟨hanchor, hr⟩, hs⟩
    exact ⟨⟨hanchor, hvalid hroot hr⟩, hvalid hserver hs⟩
  · rcases hrootFull with h | hfail
    · rcases hserverFull with h' | hfail
      · refine Or.inl ?_
        rw [h, h']
        simp [HybridPqc.hybridVerifyChain]
      · exact Or.inr hfail
    · exact Or.inr hfail

end

end Memory

end HybridPqc
