import HybridPqc.Memory.Issue

/-!
# Memory.IssueCorrect

What `hybrid_x509.c` holds when it creates certificates.

Each function gives what the function without memory computes, or fails, and it fails only when that
function does or when a request for memory does. Whatever fails, it holds no more than what it
returns; `Memory.Session` draws the account over whole runs of a caller.
-/

namespace HybridPqc

namespace Memory

open Refs
open Refs.Act

section

variable {plan : Nat → Bool} {R V : Multiset Nat}

theorem setCompositeAlgorithm_spec {α : Type} (owner : Obj α) (set : X509Algor → α → α) :
    Spec plan owner.owned (setCompositeAlgorithm owner set)
      (Changes plan (some (set compositeAlgorithm owner.val))) := by
  refine (alloc_spec _).step owner.owned (zero_add _).symm ?_
  rintro _ _ (⟨object, h⟩ | ⟨h⟩)
  · have hval : (⟨object.val, none⟩ : X509Algor) = compositeAlgorithm := by
      rw [← Option.some.inj h, compositeAlgorithm]
    refine (touch_spec owner).step object.owned (add_comm _ _) ?_
    rintro _ _ rfl
    rw [← Obj.owned_adopt owner object (set ⟨object.val, none⟩ owner.val), ← hval]
    exact .ret (.done _ rfl)
  · rw [zero_add]
    exact .ret (.failed owner (Or.inr (fails_of_some h)))

/-! ## Extensions -/

theorem skX509ExtensionPush_spec (xs : Extensions) (x : Obj X509Extension) :
    Spec plan (xs.owned + x.owned) (skX509ExtensionPush xs x) fun r R =>
      R = xs.owned + x.owned ∧
        (r = (true, xs.adopt x (xs.val ++ [x.val])) ∨ r = (false, xs) ∧ Fails plan) := by
  refine (touch_spec xs).step x.owned rfl ?_
  rintro _ _ rfl
  refine (touch_spec x).step xs.owned (add_comm _ _) ?_
  rintro _ _ rfl
  refine (test_spec true).step (x.owned + xs.owned) (zero_add _).symm ?_
  rintro _ _ (h | h)
  · exact .ret ⟨by ac_rfl, Or.inl rfl⟩
  · exact .ret ⟨by ac_rfl, Or.inr ⟨rfl, fails_of_true h⟩⟩

theorem pushExtension_spec (xs : Extensions) {x : Option (Obj X509Extension)}
    {o : Option X509Extension} (hx : Yields plan o x R) :
    Spec plan (xs.owned + R) (pushExtension xs x)
      (Changes plan (o.map fun e => xs.val ++ [e])) := by
  cases hx with
  | null h =>
    rw [add_zero]
    refine .ret (.failed xs (h.imp_left ?_))
    rintro rfl
    rfl
  | object x h =>
    rw [h]
    refine (skX509ExtensionPush_spec xs x).bind ?_
    rintro _ _ ⟨rfl, (rfl | ⟨rfl, hfail⟩)⟩
    · rw [← Obj.owned_adopt xs x (xs.val ++ [x.val])]
      exact .ret (.done _ rfl)
    · refine (freeObj_spec x).step xs.owned (add_comm _ _) ?_
      rintro _ _ rfl
      rw [zero_add]
      exact .ret (.failed xs (Or.inr hfail))

theorem newOctetString_spec (data : Bytes) :
    Spec plan 0 (newOctetString data) (Builds plan (some data)) := by
  refine (alloc_spec _).bind ?_
  rintro _ _ (⟨value, _⟩ | ⟨h⟩)
  · refine (change_spec value _).bind ?_
    rintro _ _ (⟨value, h⟩ | ⟨value, h⟩)
    · exact .ret (.built value h)
    · exact .ret (.failed (some value) h)
  · exact .ret (.failed none (Or.inr (fails_of_some h)))

theorem addEncoded_spec {β : Type} (xs : Extensions) {value : Bool × Option (Obj β)}
    {o : Option β} (hv : Builds plan o value V) (encode : β → Option X509Extension) :
    Spec plan (xs.owned + V) (addEncoded xs value encode)
      (Changes plan ((o.bind encode).map fun e => xs.val ++ [e])) := by
  cases hv with
  | built v h =>
    rw [h, Option.bind_some]
    refine (touch_spec v).step xs.owned (add_comm _ _) ?_
    rintro _ _ rfl
    refine (make_spec (encode v.val)).step (v.owned + xs.owned) (zero_add _).symm ?_
    intro extension R hx
    refine (pushExtension_spec xs hx).step v.owned (by ac_rfl) ?_
    intro r R hr
    refine (freeObj_spec v).release R (add_comm _ _) ?_
    exact .ret hr
  | failed v h =>
    have hfree : Spec plan (xs.owned + Obj.ownedOpt v)
        (do free v; return (false, xs))
        (Changes plan ((o.bind encode).map fun e => xs.val ++ [e])) := by
      refine (free_spec v).release xs.owned (add_comm _ _) ?_
      refine .ret (.failed xs (h.imp_left ?_))
      rintro rfl
      rfl
    cases v with
    | none => exact hfree
    | some v => exact hfree

theorem addPqcMarker_spec (xs : Extensions) :
    Spec plan xs.owned (addPqcMarker xs)
      (Changes plan (some (HybridPqc.addPqcMarker xs.val))) := by
  refine (alloc_spec hybridPqcExtensionOid).step xs.owned (zero_add _).symm ?_
  intro object R₁ hobject
  refine (alloc_spec ([] : Bytes)).step (R₁ + xs.owned) (zero_add _).symm ?_
  intro value R₂ hvalue
  split
  · rename_i object value
    cases hobject with
    | object _ hobject =>
      cases hvalue with
      | object _ _ =>
        have hoid := Option.some.inj hobject
        refine (change_spec value (some derNull)).step (object.owned + xs.owned) rfl ?_
        intro r R hr
        have hbuilds : Builds plan (some derNull) (r.1, some r.2) R := by
          cases hr with
          | done p h => exact .built p h
          | failed p h => exact .failed (some p) h
        refine (addEncoded_spec xs hbuilds _).step object.owned (by ac_rfl) ?_
        intro r R hr
        refine (freeObj_spec object).release R (add_comm _ _) ?_
        refine .ret ?_
        rw [← hoid] at hr
        exact hr
  · rename_i object value hnot
    have hfail : Fails plan := by
      by_contra hno
      obtain ⟨p, rfl⟩ := hobject.exists_some hno
      obtain ⟨q, rfl⟩ := hvalue.exists_some hno
      exact hnot p q rfl rfl
    rw [hobject.owned, hvalue.owned]
    refine (free_spec _).release (Obj.ownedOpt _ + xs.owned) rfl ?_
    refine (free_spec _).release xs.owned rfl ?_
    exact .ret (.failed xs (Or.inr hfail))

end

section

variable {plan : Nat → Bool} {PKey : Type} (L : IssueLib PKey) {R : Multiset Nat}

theorem addConfExtension_spec (xs : Extensions) (nid : Oid) (value : Bytes) :
    Spec plan xs.owned (addConfExtension L xs nid value)
      (Changes plan (HybridPqc.addConfExtension L xs.val nid value)) := by
  refine (make_spec (L.x509v3ExtConfNid nid value)).step xs.owned (zero_add _).symm ?_
  intro extension R hx
  refine ((pushExtension_spec xs hx).pre (add_comm _ _)).mono ?_
  intro r R hr
  revert hr
  simp only [HybridPqc.addConfExtension]
  cases L.x509v3ExtConfNid nid value with
  | none => exact id
  | some e => exact id

theorem digestIdentifier_spec (bytes : Bytes) :
    Spec plan 0 (digestIdentifier L bytes)
      (Answers plan (HybridPqc.digestIdentifier L bytes)) := by
  simp only [digestIdentifier, HybridPqc.digestIdentifier]
  refine (call_spec (L.sha256 bytes)).bind ?_
  rintro _ _ (⟨digest, h⟩ | ⟨h⟩)
  · rw [h]
    dsimp only
    split
    · exact .ret (.value digest rfl)
    · exact .ret (.failed (Or.inl rfl))
  · refine .ret (.failed (h.imp_left ?_))
    intro h0
    rw [h0]

theorem computeKeyIdentifier_spec (key : HybridPublicKey PKey) :
    Spec plan 0 (computeKeyIdentifier L key)
      (Answers plan (HybridPqc.computeKeyIdentifier L key)) := by
  refine (compositeSerializePublicKey_spec L.toCrypto key).bind ?_
  simp only [HybridPqc.computeKeyIdentifier]
  generalize HybridPqc.compositeSerializePublicKey L.toCrypto key = o
  intro serialized R hs
  refine Spec.bind (Q := Beside R (Answers plan (o.bind (HybridPqc.digestIdentifier L)))) ?_ ?_
  · refine (reading_spec hs ?_ ?_).pre (add_zero _).symm
    · exact fun h => .failed (h.imp_left fun h0 => by rw [h0]; rfl)
    · rintro v rfl
      exact digestIdentifier_spec L v
  rintro digest _ ⟨R', hdigest, rfl⟩
  refine (free_spec serialized).release R' (by rw [hs.owned, add_comm]) ?_
  exact .ret hdigest

theorem computeSm2KeyIdentifier_spec (key : PKey) :
    Spec plan 0 (computeSm2KeyIdentifier L key)
      (Answers plan (HybridPqc.computeSm2KeyIdentifier L key)) := by
  refine (call_spec (sm2Octets L.toCrypto key)).bind ?_
  simp only [HybridPqc.computeSm2KeyIdentifier]
  rintro _ _ (⟨publicKey, h⟩ | ⟨h⟩)
  · rw [h]
    exact digestIdentifier_spec L publicKey
  · refine .ret (.failed (h.imp_left ?_))
    intro h0
    rw [h0]
    rfl

theorem addIdentifier_spec (xs : Extensions) {digest : Option Bytes} {o : Option Bytes}
    (hd : Answers plan o digest R) :
    Spec plan (xs.owned + R) (addIdentifier L xs digest)
      (Changes plan ((o.bind L.x509v3ExtI2dSki).map fun e => xs.val ++ [e])) := by
  cases hd with
  | value digest h =>
    rw [h, add_zero]
    refine (newOctetString_spec digest).step xs.owned (zero_add _).symm ?_
    intro identifier R hi
    exact (addEncoded_spec xs hi L.x509v3ExtI2dSki).pre (add_comm _ _)
  | failed h =>
    rw [add_zero]
    refine .ret (.failed xs (h.imp_left ?_))
    rintro rfl
    rfl

theorem addSubjectKeyIdentifier_spec (xs : Extensions) (key : HybridPublicKey PKey) :
    Spec plan xs.owned (addSubjectKeyIdentifier L xs key)
      (Changes plan (HybridPqc.addSubjectKeyIdentifier L xs.val key)) := by
  refine (computeKeyIdentifier_spec L key).step xs.owned (zero_add _).symm ?_
  intro digest R hd
  refine ((addIdentifier_spec L xs hd).pre (add_comm _ _)).mono ?_
  intro r R hr
  revert hr
  simp only [HybridPqc.addSubjectKeyIdentifier]
  cases HybridPqc.computeKeyIdentifier L key with
  | none => exact id
  | some digest =>
    simp only [Option.bind_some, Option.bind_eq_bind]
    cases L.x509v3ExtI2dSki digest with
    | none => exact id
    | some e => exact id

theorem addSm2SubjectKeyIdentifier_spec (xs : Extensions) (key : PKey) :
    Spec plan xs.owned (addSm2SubjectKeyIdentifier L xs key)
      (Changes plan (HybridPqc.addSm2SubjectKeyIdentifier L xs.val key)) := by
  refine (computeSm2KeyIdentifier_spec L key).step xs.owned (zero_add _).symm ?_
  intro digest R hd
  refine ((addIdentifier_spec L xs hd).pre (add_comm _ _)).mono ?_
  intro r R hr
  revert hr
  simp only [HybridPqc.addSm2SubjectKeyIdentifier]
  cases HybridPqc.computeSm2KeyIdentifier L key with
  | none => exact id
  | some digest =>
    simp only [Option.bind_some, Option.bind_eq_bind]
    cases L.x509v3ExtI2dSki digest with
    | none => exact id
    | some e => exact id

theorem newAuthority_spec (digest : Bytes) :
    Spec plan 0 (newAuthority digest) (Builds plan (some ⟨some digest⟩)) := by
  refine (alloc_spec _).bind ?_
  rintro _ _ (⟨authority, _⟩ | ⟨h⟩)
  · refine (newOctetString_spec digest).step authority.owned (zero_add _).symm ?_
    rintro _ _ (⟨keyid, h⟩ | ⟨keyid, h⟩)
    · rw [Option.some.inj h, add_comm,
        ← Obj.owned_adopt authority keyid (⟨some keyid.val⟩ : AuthorityKeyid)]
      exact .ret (.built _ rfl)
    · cases keyid with
      | none =>
        rw [Obj.ownedOpt_none, zero_add]
        exact .ret (.failed (some authority) (Or.inr (fails_of_some h)))
      | some keyid =>
        rw [Obj.ownedOpt_some, add_comm,
          ← Obj.owned_adopt authority keyid (⟨some keyid.val⟩ : AuthorityKeyid)]
        exact .ret (.failed (some _) (Or.inr (fails_of_some h)))
  · exact .ret (.failed none (Or.inr (fails_of_some h)))

theorem addAuthorityKeyIdentifier_spec (xs : Extensions) (issuerKey : HybridPublicKey PKey) :
    Spec plan xs.owned (addAuthorityKeyIdentifier L xs issuerKey)
      (Changes plan (HybridPqc.addAuthorityKeyIdentifier L xs.val issuerKey)) := by
  refine (computeKeyIdentifier_spec L issuerKey).step xs.owned (zero_add _).symm ?_
  simp only [HybridPqc.addAuthorityKeyIdentifier]
  rintro _ _ (⟨digest, h⟩ | ⟨h⟩)
  · rw [h, zero_add]
    refine (newAuthority_spec digest).step xs.owned (zero_add _).symm ?_
    intro authority R ha
    refine ((addEncoded_spec xs ha L.x509v3ExtI2dAki).pre (add_comm _ _)).mono ?_
    intro r R hr
    revert hr
    simp only [Option.bind_some, Option.bind_eq_bind]
    cases L.x509v3ExtI2dAki ⟨some digest⟩ with
    | none => exact id
    | some e => exact id
  · rw [zero_add]
    refine .ret (.failed xs (h.imp_left ?_))
    intro h0
    rw [h0]
    rfl

theorem newExtensions_spec {add : Extensions → Act plan (Bool × Extensions)}
    {o : Option (List X509Extension)}
    (hadd : ∀ xs : Extensions, xs.val = [] → Spec plan xs.owned (add xs) (Changes plan o)) :
    Spec plan 0 (newExtensions add) (Builds plan o) := by
  refine (alloc_spec ([] : List X509Extension)).bind ?_
  rintro _ _ (⟨xs, h⟩ | ⟨h⟩)
  · refine (hadd xs (Option.some.inj h).symm).bind ?_
    rintro _ _ (⟨xs, h⟩ | ⟨xs, h⟩)
    · exact .ret (.built xs h)
    · exact .ret (.failed (some xs) h)
  · exact .ret (.failed none (Or.inr (fails_of_some h)))

theorem buildRootExtensions_spec (caPublicKey : HybridPublicKey PKey) :
    Spec plan 0 (buildRootExtensions L caPublicKey)
      (Builds plan (HybridPqc.buildRootExtensions L caPublicKey)) := by
  refine newExtensions_spec ?_
  rintro ⟨hs, _⟩ rfl
  refine both_spec (addConfExtension_spec L ⟨hs, []⟩ _ _) fun xs _ => ?_
  refine both_spec (addConfExtension_spec L xs _ _) fun xs _ => ?_
  exact both_spec (addSubjectKeyIdentifier_spec L xs _) fun xs _ => addPqcMarker_spec xs

theorem buildServerExtensions_spec (caPublicKey serverPublicKey : HybridPublicKey PKey)
    (dnsName : Option CString) :
    Spec plan 0 (buildServerExtensions L caPublicKey serverPublicKey dnsName)
      (Builds plan (HybridPqc.buildServerExtensions L caPublicKey serverPublicKey dnsName)) := by
  cases dnsName with
  | none => exact .ret (.failed none (Or.inl rfl))
  | some dnsName =>
    simp only [buildServerExtensions, HybridPqc.buildServerExtensions]
    by_cases hnil : dnsName.val = []
    · rw [if_pos hnil, if_pos hnil]
      exact .ret (.failed none (Or.inl rfl))
    rw [if_neg hnil, if_neg hnil]
    cases sanValue dnsName with
    | none => exact .ret (.failed none (Or.inl rfl))
    | some value =>
      refine newExtensions_spec ?_
      rintro ⟨hs, _⟩ rfl
      refine both_spec (addConfExtension_spec L ⟨hs, []⟩ _ _) fun xs _ => ?_
      refine both_spec (addConfExtension_spec L xs _ _) fun xs _ => ?_
      refine both_spec (addConfExtension_spec L xs _ _) fun xs _ => ?_
      refine both_spec (addConfExtension_spec L xs _ _) fun xs _ => ?_
      refine both_spec (addSubjectKeyIdentifier_spec L xs _) fun xs _ => ?_
      exact both_spec (addAuthorityKeyIdentifier_spec L xs _) fun xs _ => addPqcMarker_spec xs

theorem buildEncryptionServerExtensions_spec (caPublicKey : HybridPublicKey PKey)
    (serverSm2PublicKey : PKey) :
    Spec plan 0 (buildEncryptionServerExtensions L caPublicKey serverSm2PublicKey)
      (Builds plan (HybridPqc.buildEncryptionServerExtensions L caPublicKey
        serverSm2PublicKey)) := by
  refine newExtensions_spec ?_
  rintro ⟨hs, _⟩ rfl
  refine both_spec (addConfExtension_spec L ⟨hs, []⟩ _ _) fun xs _ => ?_
  refine both_spec (addConfExtension_spec L xs _ _) fun xs _ => ?_
  refine both_spec (addSm2SubjectKeyIdentifier_spec L xs _) fun xs _ => ?_
  exact both_spec (addAuthorityKeyIdentifier_spec L xs _) fun xs _ => addPqcMarker_spec xs

/-! ## Names and keys -/

theorem makeName_spec (commonName : CString) :
    Spec plan 0 (makeName L commonName) (Yields plan (HybridPqc.makeName L commonName)) := by
  simp only [makeName, HybridPqc.makeName]
  by_cases hnil : commonName.val = []
  · rw [if_pos hnil, if_pos hnil]
    exact .ret (.null (Or.inl rfl))
  rw [if_neg hnil, if_neg hnil]
  refine (alloc_spec emptyName).bind ?_
  rintro _ _ (⟨⟨hs, _⟩, h⟩ | ⟨h⟩)
  · cases h
    refine keep_spec (both_spec (change_spec ⟨hs, []⟩ _) fun name _ => ?_)
    exact both_spec (change_spec name _) fun name _ => change_spec name _
  · exact .ret (.null (Or.inr (fails_of_some h)))

theorem x509NameDup_spec (name : Obj X509Name) :
    Spec plan name.owned (x509NameDup name)
      (Beside name.owned (Yields plan (some name.val))) := by
  refine (touch_spec name).bind ?_
  rintro _ _ rfl
  exact ((alloc_spec name.val).frame name.owned).pre (zero_add _).symm

theorem makeCompositeSpki_spec (key : HybridPublicKey PKey) :
    Spec plan 0 (makeCompositeSpki L key)
      (Yields plan (HybridPqc.makeCompositeSpki L key)) := by
  refine (compositeSerializePublicKey_spec L.toCrypto key).bind ?_
  simp only [HybridPqc.makeCompositeSpki]
  rintro _ _ (⟨serialized, h⟩ | ⟨h⟩)
  swap
  · refine .ret (.null (h.imp_left ?_))
    intro h0
    rw [h0]
    rfl
  rw [h]
  refine (alloc_spec emptySpki).step serialized.owned (zero_add _).symm ?_
  intro spki R₁ hspki
  refine (alloc_spec compositeSm2DilithiumExperimentalOid).step (R₁ + serialized.owned)
    (zero_add _).symm ?_
  intro algorithm R₂ halgorithm
  split
  · rename_i spki algorithm
    cases hspki with
    | object _ _ =>
      cases halgorithm with
      | object _ h =>
        refine (touch_spec spki).step (algorithm.owned + serialized.owned) (by ac_rfl) ?_
        rintro _ _ rfl
        refine object_spec ?_ ?_
        · rw [Obj.owned_adopt, Obj.owned_adopt]
          ac_rfl
        · rw [Obj.val_adopt, ← Option.some.inj h]
          rfl
  · rename_i hnot
    have hfail : Fails plan := by
      by_contra hno
      obtain ⟨p, rfl⟩ := hspki.exists_some hno
      obtain ⟨q, rfl⟩ := halgorithm.exists_some hno
      exact hnot p q rfl rfl
    rw [hspki.owned, halgorithm.owned]
    refine (free_spec _).release _ rfl ?_
    refine (freeObj_spec serialized).release (Obj.ownedOpt _) (add_comm _ _) ?_
    refine (free_spec _).bind ?_
    rintro _ _ rfl
    exact .ret (.null (Or.inr hfail))

theorem makeSm2Spki_spec (key : PKey) :
    Spec plan 0 (makeSm2Spki L key) (Yields plan (HybridPqc.makeSm2Spki L key)) := by
  simp only [makeSm2Spki]
  by_cases hsm2 : L.isSm2 key = true
  swap
  · rw [if_neg hsm2]
    refine .ret (.null (Or.inl ?_))
    simp [HybridPqc.makeSm2Spki, sm2Octets, hsm2]
  rw [if_pos hsm2]
  refine (alloc_spec emptySpki).bind ?_
  intro spki R₁ hspki
  refine (alloc_spec oidEcPublicKey).step R₁ (zero_add _).symm ?_
  intro algorithm R₂ halgorithm
  refine (alloc_spec oidSm2Curve).step (R₂ + R₁) (zero_add _).symm ?_
  intro curve R₃ hcurve
  refine (alloc_spec (Bytes.zeros sm2UncompressedPublicKeyBytes)).step (R₃ + (R₂ + R₁))
    (zero_add _).symm ?_
  intro publicKey R₄ hpublicKey
  split
  · rename_i spki algorithm curve publicKey
    cases hspki with
    | object _ _ =>
      cases halgorithm with
      | object _ ha =>
        cases hcurve with
        | object _ hc =>
          cases hpublicKey with
          | object _ _ =>
            have ha := Option.some.inj ha
            have hc := Option.some.inj hc
            -- the four pieces, when one of the calls on them fails
            have hfree : ∀ pk : Obj Bytes, sm2Octets L.toCrypto key = none ∨ Fails plan →
                Spec plan (pk.owned + (curve.owned + (algorithm.owned + spki.owned)))
                  (do freeObj pk; freeObj curve; freeObj algorithm; freeObj spki; return none)
                  (Yields plan (HybridPqc.makeSm2Spki L key)) := by
              intro pk h
              refine (freeObj_spec pk).release _ rfl ?_
              refine (freeObj_spec curve).release _ rfl ?_
              refine (freeObj_spec algorithm).release _ rfl ?_
              refine (freeObj_spec spki).bind ?_
              rintro _ _ rfl
              refine .ret (.null (h.imp_left ?_))
              intro h0
              simp [HybridPqc.makeSm2Spki, h0]
            refine (change_spec publicKey (sm2Octets L.toCrypto key)).step _ rfl ?_
            rintro _ _ (⟨publicKey, h⟩ | ⟨publicKey, h⟩)
            · refine (test_spec true).step _ (zero_add _).symm ?_
              rintro _ _ (ht | ht)
              · refine (touch_spec spki).step
                  (publicKey.owned + (curve.owned + algorithm.owned)) (by rw [zero_add]; ac_rfl) ?_
                rintro _ _ rfl
                refine object_spec ?_ ?_
                · simp only [Obj.owned_adopt]
                  ac_rfl
                · simp [HybridPqc.makeSm2Spki, h, sm2Spki, ← ha, ← hc]
              · rw [zero_add]
                exact hfree publicKey (Or.inr (fails_of_true ht))
            · exact hfree publicKey h
  · rename_i hnot
    have hfail : Fails plan := by
      by_contra hno
      obtain ⟨p, rfl⟩ := hspki.exists_some hno
      obtain ⟨q, rfl⟩ := halgorithm.exists_some hno
      obtain ⟨r, rfl⟩ := hcurve.exists_some hno
      obtain ⟨s, rfl⟩ := hpublicKey.exists_some hno
      exact hnot p q r s rfl rfl rfl rfl
    rw [hspki.owned, halgorithm.owned, hcurve.owned, hpublicKey.owned]
    refine (free_spec _).release _ rfl ?_
    refine (free_spec _).release _ rfl ?_
    refine (free_spec _).release _ rfl ?_
    refine (free_spec _).bind ?_
    rintro _ _ rfl
    exact .ret (.null (Or.inr hfail))

/-! ## The TBS structure -/

theorem FreshTbs.free_spec (tbs : FreshTbs) :
    Spec plan tbs.owned (tbs.free : Act plan Unit) fun _ R => R = 0 := by
  refine (freeObj_spec tbs.issuer).release
    (tbs.self.owned + (tbs.subject.owned + tbs.subjectPublicKeyInfo.owned)) ?_ ?_
  · rw [FreshTbs.owned]
    ac_rfl
  refine (freeObj_spec tbs.subject).release (tbs.self.owned + tbs.subjectPublicKeyInfo.owned)
    (by ac_rfl) ?_
  refine (freeObj_spec tbs.subjectPublicKeyInfo).release tbs.self.owned (add_comm _ _) ?_
  exact freeObj_spec tbs.self

def FreshTbs.ownedOpt : Option FreshTbs → Multiset Nat
  | none => 0
  | some tbs => tbs.owned

theorem FreshTbs.freeOpt_spec (tbs : Option FreshTbs) :
    Spec plan (FreshTbs.ownedOpt tbs) (FreshTbs.freeOpt tbs : Act plan Unit) fun _ R => R = 0 := by
  cases tbs with
  | none => exact .ret rfl
  | some tbs => exact tbs.free_spec

theorem FreshTbs.new_spec : Spec plan 0 (FreshTbs.new : Act plan (Option FreshTbs)) fun tbs R =>
    R = FreshTbs.ownedOpt tbs ∧ (tbs = none → Fails plan) ∧
      ∀ t, tbs = some t → t.self.val = emptyTbs := by
  refine (alloc_spec emptyTbs).bind ?_
  intro self R₁ hself
  refine (alloc_spec emptyName).step R₁ (zero_add _).symm ?_
  intro issuer R₂ hissuer
  refine (alloc_spec emptyName).step (R₂ + R₁) (zero_add _).symm ?_
  intro subject R₃ hsubject
  refine (alloc_spec emptySpki).step (R₃ + (R₂ + R₁)) (zero_add _).symm ?_
  intro spki R₄ hspki
  rw [hself.owned, hissuer.owned, hsubject.owned, hspki.owned]
  split
  · rename_i self issuer subject spki
    refine .ret ⟨?_, ?_, ?_⟩
    · simp only [FreshTbs.ownedOpt, FreshTbs.owned, Obj.ownedOpt_some]
      ac_rfl
    · intro h0
      cases h0
    · intro t ht
      cases ht
      exact (Option.some.inj (hself.val_eq rfl)).symm
  · rename_i hnot
    have hfail : Fails plan := by
      by_contra hno
      obtain ⟨p, rfl⟩ := hself.exists_some hno
      obtain ⟨q, rfl⟩ := hissuer.exists_some hno
      obtain ⟨r, rfl⟩ := hsubject.exists_some hno
      obtain ⟨s, rfl⟩ := hspki.exists_some hno
      exact hnot p q r s rfl rfl rfl rfl
    refine (Refs.free_spec issuer).release
      (Obj.ownedOpt self + (Obj.ownedOpt subject + Obj.ownedOpt spki)) (by ac_rfl) ?_
    refine (Refs.free_spec subject).release (Obj.ownedOpt self + Obj.ownedOpt spki)
      (by ac_rfl) ?_
    refine (Refs.free_spec spki).release (Obj.ownedOpt self) (add_comm _ _) ?_
    refine (Refs.free_spec self).bind ?_
    rintro _ _ rfl
    refine .ret ⟨rfl, fun _ => hfail, ?_⟩
    intro t ht
    cases ht

theorem setVersion_spec (tbs : Obj CompositeTbsCertificate) (v : UInt8) :
    Spec plan tbs.owned (setVersion tbs v)
      (Changes plan (some { tbs.val with version := some (asn1IntegerSet v) })) := by
  refine (alloc_spec ([] : Bytes)).step tbs.owned (zero_add _).symm ?_
  rintro _ _ (⟨version, _⟩ | ⟨h⟩)
  · refine (change_spec version (some (asn1IntegerSet v))).step tbs.owned rfl ?_
    rintro _ _ (⟨version, h⟩ | ⟨version, h⟩)
    · rw [Option.some.inj h]
      exact done_spec (by rw [Obj.owned_adopt, add_comm]) rfl
    · rw [add_comm, ← Obj.owned_adopt tbs version
        { tbs.val with version := some version.val }]
      exact .ret (.failed _ (Or.inr (fails_of_some h)))
  · rw [zero_add]
    exact .ret (.failed tbs (Or.inr (fails_of_some h)))

theorem setExtensions_spec (tbs : Obj CompositeTbsCertificate)
    {build : Act plan (Bool × Option Extensions)} {o : Option (List X509Extension)}
    (hb : Spec plan 0 build (Builds plan o)) :
    Spec plan tbs.owned (setExtensions tbs build)
      (Changes plan (o.map fun xs => { tbs.val with extensions := some xs })) := by
  refine hb.step tbs.owned (zero_add _).symm ?_
  rintro _ _ (⟨xs, h⟩ | ⟨xs, h⟩)
  · rw [h]
    exact done_spec (by rw [Obj.owned_adopt, add_comm]) rfl
  · have h' : (o.map fun xs => { tbs.val with extensions := some xs }) = none ∨ Fails plan :=
      h.imp_left (by rintro rfl; rfl)
    cases xs with
    | none =>
      rw [Obj.ownedOpt_none, zero_add]
      exact .ret (.failed tbs h')
    | some xs =>
      rw [Obj.ownedOpt_some, add_comm, ← Obj.owned_adopt tbs xs
        { tbs.val with extensions := some xs.val }]
      exact .ret (.failed _ h')

/-- The members that are set, by value. -/
def withMembers (now : Int) (tbs : CompositeTbsCertificate) (serialNumber : UInt8)
    (extensions : Option (List X509Extension)) : Option CompositeTbsCertificate := do
  let notBefore ← L.x509GmtimeAdj now (-60)
  let notAfter ← L.x509GmtimeAdj now 31536000
  let extensions ← extensions
  return { tbs with
    version := some (asn1IntegerSet 2)
    serialNumber := asn1IntegerSet serialNumber
    signature := compositeAlgorithm
    validity := ⟨notBefore, notAfter⟩
    extensions := some extensions }

theorem setMembers_spec (now : Int) (tbs : Obj CompositeTbsCertificate) (serialNumber : UInt8)
    {build : Act plan (Bool × Option Extensions)} {o : Option (List X509Extension)}
    (hb : Spec plan 0 build (Builds plan o)) :
    Spec plan tbs.owned (setMembers L now tbs serialNumber build)
      (Changes plan (withMembers L now tbs.val serialNumber o)) := by
  -- the members in the order in which they are set
  have hval : withMembers L now tbs.val serialNumber o =
      (some { tbs.val with version := some (asn1IntegerSet 2) }).bind fun t =>
      (some { t with serialNumber := asn1IntegerSet serialNumber }).bind fun t =>
      (some { t with signature := compositeAlgorithm }).bind fun t =>
      ((L.x509GmtimeAdj now (-60)).map fun time =>
        { t with validity := { t.validity with notBefore := time } }).bind fun t =>
      ((L.x509GmtimeAdj now 31536000).map fun time =>
        { t with validity := { t.validity with notAfter := time } }).bind fun t =>
      o.map fun xs => { t with extensions := some xs } := by
    simp only [withMembers, Option.bind_some]
    cases L.x509GmtimeAdj now (-60) with
    | none => rfl
    | some notBefore =>
      cases L.x509GmtimeAdj now 31536000 with
      | none => rfl
      | some notAfter =>
        cases o with
        | none => rfl
        | some xs => rfl
  rw [hval]
  refine both_spec (setVersion_spec tbs 2) fun tbs _ => ?_
  refine both_spec (change_spec tbs _) fun tbs _ => ?_
  refine both_spec (setCompositeAlgorithm_spec tbs _) fun tbs _ => ?_
  refine both_spec (change_spec tbs _) fun tbs _ => ?_
  exact both_spec (change_spec tbs _) fun tbs _ => setExtensions_spec tbs hb

theorem fillTbs_spec (now : Int) {makeSpki : Act plan (Option (Obj X509Pubkey))}
    {spki : Option X509Pubkey} (hspki : Spec plan 0 makeSpki (Yields plan spki))
    (issuer : Obj X509Name) (subjectCommonName : CString) (serialNumber : UInt8)
    {build : Act plan (Bool × Option Extensions)} {o : Option (List X509Extension)}
    (hb : Spec plan 0 build (Builds plan o)) :
    Spec plan issuer.owned (fillTbs L now makeSpki issuer subjectCommonName serialNumber build)
      (Beside issuer.owned
        (Yields plan
          (HybridPqc.fillTbs L now spki issuer.val subjectCommonName serialNumber o))) := by
  refine FreshTbs.new_spec.step issuer.owned (zero_add _).symm ?_
  rintro tbs _ ⟨rfl, htbs, hval⟩
  refine (x509NameDup_spec issuer).step (FreshTbs.ownedOpt tbs) (add_comm _ _) ?_
  rintro issuerCopy _ ⟨R₁, hissuer, rfl⟩
  refine (makeName_spec L subjectCommonName).step (R₁ + issuer.owned + FreshTbs.ownedOpt tbs)
    (zero_add _).symm ?_
  intro subject R₂ hsubject
  refine hspki.step (R₂ + (R₁ + issuer.owned + FreshTbs.ownedOpt tbs)) (zero_add _).symm ?_
  intro key R₃ hkey
  rw [hissuer.owned, hsubject.owned, hkey.owned]
  split
  · rename_i tbs issuerCopy subject key
    -- the parts that the constructor made are released, ours are adopted
    refine (freeObj_spec tbs.issuer).release (key.owned + (subject.owned + (issuerCopy.owned +
      issuer.owned)) + (tbs.self.owned + (tbs.subject.owned + tbs.subjectPublicKeyInfo.owned)))
      (by simp only [FreshTbs.ownedOpt, FreshTbs.owned, Obj.ownedOpt_some]; ac_rfl) ?_
    refine (freeObj_spec tbs.subject).release (key.owned + (subject.owned + (issuerCopy.owned +
      issuer.owned)) + (tbs.self.owned + tbs.subjectPublicKeyInfo.owned))
      (by ac_rfl) ?_
    refine (freeObj_spec tbs.subjectPublicKeyInfo).release (key.owned + (subject.owned +
      (issuerCopy.owned + issuer.owned)) + tbs.self.owned) (by ac_rfl) ?_
    have hfilled : HybridPqc.fillTbs L now spki issuer.val subjectCommonName serialNumber o =
        withMembers L now { tbs.self.val with
          issuer := issuerCopy.val
          subject := subject.val
          subjectPublicKeyInfo := key.val } serialNumber o := by
      rw [hval tbs rfl, ← Option.some.inj (hissuer.val_eq rfl)]
      simp only [HybridPqc.fillTbs, hsubject.val_eq rfl, hkey.val_eq rfl, withMembers, emptyTbs]
      rfl
    rw [hfilled]
    refine (setMembers_spec L now _ serialNumber hb).step issuer.owned ?_ ?_
    · simp only [Obj.owned_adopt]
      ac_rfl
    intro r R hr
    exact (keepIf_spec hr).frame issuer.owned
  · rename_i hnot
    have hnone : HybridPqc.fillTbs L now spki issuer.val subjectCommonName serialNumber o = none ∨
        Fails plan := by
      by_contra hno
      rw [not_or] at hno
      cases tbs with
      | none => exact hno.2 (htbs rfl)
      | some tbs =>
        obtain ⟨q, rfl⟩ := hissuer.exists_some hno.2
        cases hsubject with
        | null h =>
          refine h.elim (fun h0 => hno.1 ?_) hno.2
          simp [HybridPqc.fillTbs, h0]
        | object subject hs =>
          cases hkey with
          | null h =>
            refine h.elim (fun h0 => hno.1 ?_) hno.2
            simp [HybridPqc.fillTbs, h0]
          | object key hk => exact hnot tbs q subject key rfl rfl rfl rfl
    refine (free_spec key).release (Obj.ownedOpt subject + (Obj.ownedOpt issuerCopy + issuer.owned +
      FreshTbs.ownedOpt tbs)) rfl ?_
    refine (free_spec subject).release _ rfl ?_
    refine (free_spec issuerCopy).release (FreshTbs.ownedOpt tbs + issuer.owned)
      (by ac_rfl) ?_
    refine (FreshTbs.freeOpt_spec tbs).release issuer.owned rfl ?_
    exact .ret ⟨0, .null hnone, (zero_add _).symm⟩

theorem makeTbs_spec (now : Int) (subjectKey : HybridPublicKey PKey) (issuer : Obj X509Name)
    (subjectCommonName : CString) (serialNumber : UInt8) (isCa : Bool)
    (caPublicKey : HybridPublicKey PKey) (dnsName : Option CString) :
    Spec plan issuer.owned
      (makeTbs L now subjectKey issuer subjectCommonName serialNumber isCa caPublicKey dnsName)
      (Beside issuer.owned (Yields plan (HybridPqc.makeTbs L now subjectKey issuer.val
        subjectCommonName serialNumber isCa caPublicKey dnsName))) := by
  refine fillTbs_spec L now (makeCompositeSpki_spec L subjectKey) issuer subjectCommonName
    serialNumber ?_
  cases isCa with
  | false => exact buildServerExtensions_spec L caPublicKey subjectKey dnsName
  | true => exact buildRootExtensions_spec L subjectKey

theorem makeSm2EncryptionTbs_spec (now : Int) (subjectKey : PKey) (issuer : Obj X509Name)
    (subjectCommonName : CString) (caPublicKey : HybridPublicKey PKey) :
    Spec plan issuer.owned
      (makeSm2EncryptionTbs L now subjectKey issuer subjectCommonName caPublicKey)
      (Beside issuer.owned (Yields plan (HybridPqc.makeSm2EncryptionTbs L now subjectKey issuer.val
        subjectCommonName caPublicKey))) :=
  fillTbs_spec L now (makeSm2Spki_spec L subjectKey) issuer subjectCommonName 3
    (buildEncryptionServerExtensions_spec L caPublicKey subjectKey)

/-! ## Signing -/

/-- The certificate in a buffer that it fills. -/
def wholeCertificate (E : Openssl PKey) (der : Bytes) : Option X509 :=
  (E.d2iX509 der).bind fun r => if r.2 = der.length then some r.1 else none

theorem d2iWhole_spec (E : Openssl PKey) (der : Bytes) :
    Spec plan 0 (d2iWhole E der) (Yields plan (wholeCertificate E der)) := by
  refine (make_spec (E.d2iX509 der)).bind ?_
  simp only [wholeCertificate]
  rintro _ _ (⟨parsed, h⟩ | ⟨h⟩)
  · rw [h, Option.bind_some]
    dsimp only
    split
    · exact object_spec rfl rfl
    · refine (freeObj_spec parsed).bind ?_
      rintro _ _ rfl
      exact .ret (.null (Or.inl rfl))
  · refine .ret (.null (h.imp_left ?_))
    intro h0
    rw [h0]
    rfl

theorem assemble_spec (tbs : Obj CompositeTbsCertificate) (signature : Bytes) :
    Spec plan tbs.owned (assemble tbs signature)
      (Changes plan (some ⟨tbs.val, compositeAlgorithm, .ofOctets signature⟩)) := by
  refine (alloc_spec ()).step tbs.owned (zero_add _).symm ?_
  intro certificate R hcertificate
  refine FreshTbs.new_spec.step (R + tbs.owned) (zero_add _).symm ?_
  rintro own _ ⟨rfl, hown, hval⟩
  rw [hcertificate.owned]
  split
  · rename_i certificate own
    refine own.free_spec.step (certificate.owned + tbs.owned) rfl ?_
    rintro _ _ rfl
    rw [zero_add, ← Obj.owned_adopt certificate tbs (unsigned tbs.val)]
    have hval : some (⟨tbs.val, compositeAlgorithm, .ofOctets signature⟩ : X509) =
        (some { unsigned tbs.val with signatureAlgorithm := compositeAlgorithm }).bind fun c =>
          some { c with signatureValue := .ofOctets signature } := rfl
    rw [hval]
    exact both_spec (setCompositeAlgorithm_spec _ _) fun c _ => change_spec c _
  · rename_i hnot
    have hfail : Fails plan := by
      by_contra hno
      obtain ⟨p, rfl⟩ := hcertificate.exists_some hno
      cases own with
      | none => exact hno (hown rfl)
      | some own => exact hnot p own rfl rfl
    refine (free_spec certificate).release (FreshTbs.ownedOpt own + tbs.owned) (by ac_rfl) ?_
    refine (FreshTbs.freeOpt_spec own).release tbs.owned rfl ?_
    exact .ret (.failed ⟨tbs.handles, unsigned tbs.val⟩ (Or.inr hfail))

/-- What `done` releases as `certificate` or `tbs` belongs to the caller of `certificateOf`. -/
theorem certificateOf_spec (tbs : Obj CompositeTbsCertificate) {signature : Option (Obj Bytes)}
    {o : Option Bytes} (hs : Yields plan o signature R) :
    Spec plan (R + tbs.owned) (certificateOf tbs signature)
      (Beside R (Changes plan (o.bind fun s => if intMax < s.length then none else
        some ⟨tbs.val, compositeAlgorithm, .ofOctets s⟩))) := by
  have hstop : ∀ {v : Option X509}, v = none ∨ Fails plan →
      Changes plan v (false, (⟨tbs.handles, unsigned tbs.val⟩ : Obj X509)) tbs.owned := fun h =>
    .failed ⟨tbs.handles, unsigned tbs.val⟩ h
  cases hs with
  | null h =>
    refine .ret ⟨tbs.owned, hstop (h.imp_left ?_), add_comm _ _⟩
    rintro rfl
    rfl
  | object signature h =>
    rw [h, Option.bind_some]
    simp only [certificateOf]
    by_cases hmax : intMax < signature.val.length
    · rw [if_pos hmax, if_pos hmax]
      exact .ret ⟨tbs.owned, hstop (Or.inl rfl), add_comm _ _⟩
    · rw [if_neg hmax, if_neg hmax]
      refine (touch_spec signature).step tbs.owned rfl ?_
      rintro _ _ rfl
      exact ((assemble_spec tbs signature.val).frame signature.owned).pre (add_comm _ _)

/-- The steps of `sign_tbs` in order. -/
theorem signTbs_eq (tbs : CompositeTbsCertificate) (signingKey : HybridPrivateKey PKey)
    (rnd : Bytes) :
    HybridPqc.signTbs L (some tbs) signingKey rnd =
      (((i2dCompositeTbsCertificate tbs).bind fun tbsDer =>
        HybridPqc.compositeSign L.toCrypto signingKey (.buf tbsDer) (.null 0) rnd).bind fun s =>
          if intMax < s.length then none
          else some (⟨tbs, compositeAlgorithm, .ofOctets s⟩ : X509)).bind fun c =>
        (i2dCompositeCertificate c).bind (wholeCertificate L.toOpenssl) := by
  simp only [HybridPqc.signTbs]
  cases i2dCompositeTbsCertificate tbs with
  | none => rfl
  | some tbsDer =>
    simp only [Option.bind_some]
    cases HybridPqc.compositeSign L.toCrypto signingKey (.buf tbsDer) (.null 0) rnd with
    | none => rfl
    | some signature =>
      simp only [Option.bind_some]
      by_cases hmax : intMax < signature.length
      · rw [if_pos hmax, if_pos hmax]
        rfl
      · rw [if_neg hmax, if_neg hmax, Option.bind_some]
        cases i2dCompositeCertificate ⟨tbs, compositeAlgorithm, .ofOctets signature⟩ with
        | none => rfl
        | some certificateDer =>
          simp only [Option.bind_some, wholeCertificate]
          cases L.d2iX509 certificateDer with
          | none => rfl
          | some r => rfl

theorem signTbs_spec {tbs : Option (Obj CompositeTbsCertificate)}
    {o : Option CompositeTbsCertificate} (ht : Yields plan o tbs R)
    (signingKey : HybridPrivateKey PKey) (rnd : Bytes) :
    Spec plan R (signTbs L tbs signingKey rnd)
      (Yields plan (HybridPqc.signTbs L o signingKey rnd)) := by
  cases ht with
  | null h =>
    refine .ret (.null (h.imp_left ?_))
    rintro rfl
    rfl
  | object tbs h =>
    rw [h, signTbs_eq]
    refine (touch_spec tbs).bind ?_
    rintro _ _ rfl
    refine (make_spec (i2dCompositeTbsCertificate tbs.val)).step tbs.owned (zero_add _).symm ?_
    generalize i2dCompositeTbsCertificate tbs.val = od
    intro tbsDer Rd hd
    -- the signature over the TBS octets
    refine Spec.step (Q := Beside Rd (Yields plan (od.bind fun tbsDer =>
      HybridPqc.compositeSign L.toCrypto signingKey (.buf tbsDer) (.null 0) rnd))) (P := Rd)
      tbs.owned ?_ rfl ?_
    · refine (reading_spec hd ?_ ?_).pre (add_zero _).symm
      · exact fun h => .null (h.imp_left fun h0 => by rw [h0]; rfl)
      · rintro v rfl
        exact compositeSign_spec L.toCrypto signingKey _ _ rnd
    generalize (od.bind fun tbsDer => HybridPqc.compositeSign L.toCrypto signingKey (.buf tbsDer)
      (.null 0) rnd) = os
    rintro signature _ ⟨Rs, hs, rfl⟩
    -- the certificate around it
    refine (certificateOf_spec tbs hs).step Rd (by ac_rfl) ?_
    generalize (os.bind fun s => if intMax < s.length then none else
      some (⟨tbs.val, compositeAlgorithm, .ofOctets s⟩ : X509)) = oc
    rintro ⟨signed, certificate⟩ _ ⟨Rc, hc, rfl⟩
    obtain rfl := hc.owned
    refine Spec.step (Q := Yields plan (oc.bind i2dCompositeCertificate)) (P := 0)
      (certificate.owned + Rs + Rd) ?_ (zero_add _).symm ?_
    · cases hc with
      | done c h =>
        rw [h]
        exact make_spec _
      | failed c h => exact .ret (.null (h.imp_left fun h0 => by rw [h0]; rfl))
    rw [← Option.bind_assoc]
    generalize oc.bind i2dCompositeCertificate = ok
    intro certificateDer Rk hk
    refine Spec.step (Q := Beside Rk (Yields plan (ok.bind (wholeCertificate L.toOpenssl))))
      (P := Rk) (certificate.owned + Rs + Rd) ?_ rfl ?_
    · refine (reading_spec hk ?_ ?_).pre (add_zero _).symm
      · exact fun h => .null (h.imp_left fun h0 => by rw [h0]; rfl)
      · rintro v rfl
        exact d2iWhole_spec L.toOpenssl v
    rintro parsed _ ⟨R, hparsed, rfl⟩
    rw [hk.owned, hs.owned, hd.owned]
    refine (free_spec certificateDer).release (R + (certificate.owned + Obj.ownedOpt signature +
      Obj.ownedOpt tbsDer)) (by ac_rfl) ?_
    refine (free_spec signature).release (R + (certificate.owned + Obj.ownedOpt tbsDer))
      (by ac_rfl) ?_
    refine (free_spec tbsDer).release (R + certificate.owned) (by ac_rfl) ?_
    refine (freeObj_spec certificate).release R (add_comm _ _) ?_
    exact .ret hparsed

/-! ## Certificates -/

theorem hybridX509CreateRoot_spec (now : Int) (caPrivateKey : HybridPrivateKey PKey)
    (caPublicKey : HybridPublicKey PKey) (commonName : CString) (rnd : Bytes) :
    Spec plan 0 (hybridX509CreateRoot L now caPrivateKey caPublicKey commonName rnd)
      (Yields plan (HybridPqc.hybridX509CreateRoot L now caPrivateKey caPublicKey commonName
        rnd)) := by
  refine (makeName_spec L commonName).bind ?_
  simp only [HybridPqc.hybridX509CreateRoot]
  rintro _ _ (⟨name, h⟩ | ⟨h⟩)
  · rw [h]
    refine (makeTbs_spec L now caPublicKey name commonName 1 true caPublicKey none).bind ?_
    rintro tbs _ ⟨R, ht, rfl⟩
    refine (freeObj_spec name).release R (add_comm _ _) ?_
    exact signTbs_spec L ht caPrivateKey rnd
  · refine .ret (.null (h.imp_left ?_))
    intro h0
    rw [h0]

theorem hybridX509CreateServer_spec (now : Int) (caPrivateKey : HybridPrivateKey PKey)
    (caPublicKey serverPublicKey : HybridPublicKey PKey) (issuerCertificate : Obj X509)
    (commonName : CString) (dnsName : Option CString) (rnd : Bytes) :
    Spec plan issuerCertificate.owned
      (hybridX509CreateServer L now caPrivateKey caPublicKey serverPublicKey issuerCertificate
        commonName dnsName rnd)
      (Beside issuerCertificate.owned (Yields plan (HybridPqc.hybridX509CreateServer L now
        caPrivateKey caPublicKey serverPublicKey issuerCertificate.val commonName dnsName
        rnd))) := by
  refine (makeTbs_spec L now serverPublicKey (x509GetSubjectName issuerCertificate) commonName 2
    false caPublicKey dnsName).bind ?_
  rintro tbs _ ⟨R, ht, rfl⟩
  exact (signTbs_spec L ht caPrivateKey rnd).frame issuerCertificate.owned

theorem hybridX509CreateSm2Encryption_spec (now : Int) (caPrivateKey : HybridPrivateKey PKey)
    (caPublicKey : HybridPublicKey PKey) (serverSm2PublicKey : PKey)
    (issuerCertificate : Obj X509) (commonName : CString) (rnd : Bytes) :
    Spec plan issuerCertificate.owned
      (hybridX509CreateSm2Encryption L now caPrivateKey caPublicKey serverSm2PublicKey
        issuerCertificate commonName rnd)
      (Beside issuerCertificate.owned (Yields plan (HybridPqc.hybridX509CreateSm2Encryption L now
        caPrivateKey caPublicKey serverSm2PublicKey issuerCertificate.val commonName rnd))) := by
  simp only [hybridX509CreateSm2Encryption, HybridPqc.hybridX509CreateSm2Encryption]
  by_cases hnil : commonName.val = []
  · rw [if_pos hnil, if_pos hnil]
    exact .ret ⟨0, .null (Or.inl rfl), (zero_add _).symm⟩
  rw [if_neg hnil, if_neg hnil]
  refine (makeSm2EncryptionTbs_spec L now serverSm2PublicKey
    (x509GetSubjectName issuerCertificate) commonName caPublicKey).bind ?_
  rintro tbs _ ⟨R, ht, rfl⟩
  exact (signTbs_spec L ht caPrivateKey rnd).frame issuerCertificate.owned

end

end Memory

end HybridPqc
