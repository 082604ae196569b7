import HybridPqc.Adapter.CallbackCorrect

/-!
# Adapter.Release

What is in the caller's key buffer after a verdict.

`tlcp_hybrid_cert_verify_der` clears the buffer first and fills it last, so it holds a key exactly
after `VALID`. The callback looks at the encryption certificate after that, and returns before any
of it when it has no configuration: `key_released_only_on_valid_iff` says for which inputs it still
keeps to the same contract.
-/

namespace HybridPqc

section

variable {PKey : Type} {E : Openssl PKey} {now : Int}

variable (E) in
/-- The buffer holds the SM2 component of the first certificate's Composite key after `VALID`, and
65 zero bytes after any other result. -/
def ReleasesOnlyOnValid (first : Option X509) (result : TlcpHybridCertResult)
    (buffer : Option Bytes) : Prop :=
  (result ≠ .valid → buffer = some (Bytes.zeros sm2UncompressedPublicKeyBytes)) ∧
  (result = .valid → ∃ c octets, first = some c ∧ sm2Component E c = some octets ∧
    octets.head? = some 0x04 ∧ buffer = some octets)

theorem sm2Component_form {c : X509} {octets : Bytes} (h : sm2Component E c = some octets) :
    octets.length = 65 ∧ octets.head? = some 0x04 := by
  obtain ⟨k, _, ho⟩ := Option.bind_eq_some_iff.mp h
  exact sm2Octets_form ho

/-- No key is all zeros. -/
theorem sm2Component_ne_zeros {c : X509} {octets : Bytes} (h : sm2Component E c = some octets) :
    octets ≠ Bytes.zeros sm2UncompressedPublicKeyBytes := by
  intro h0
  have hhead := (sm2Component_form h).2
  rw [h0] at hhead
  revert hhead
  decide

/-- Taking out the key either succeeds or leaves the buffer: a key that was parsed is exported. -/
theorem tlcpHybridCertGetSm2SignPublicKey_false {der : CArg} {output output' : Bytes}
    (hb : output.length = 65)
    (h : tlcpHybridCertGetSm2SignPublicKey E der output = (false, output')) : output' = output := by
  simp only [tlcpHybridCertGetSm2SignPublicKey] at h
  cases hd : decodeDerStrict E der with
  | none =>
    rw [hd] at h
    cases h
    rfl
  | some c =>
    simp only [hd] at h
    by_cases hv : hybridX509CompositeAlgorithmsValid c = true
    · rw [if_pos hv] at h
      cases hk : hybridX509GetCompositePublicKey E c with
      | none =>
        rw [hk] at h
        cases h
        rfl
      | some key =>
        simp only [hk, compositeGetSm2PublicKeyOctets_of_get hb hk] at h
        cases h
    · rw [if_neg hv] at h
      cases h
      rfl

/-- Whatever stops the verifier, the buffer stays cleared. -/
theorem tlcpHybridCertVerifyDer_cleared {der anchor : CArg} {host : Option CString} {output : Bytes}
    (h : (tlcpHybridCertVerifyDer E now der anchor host (some output)).result ≠ .valid) :
    (tlcpHybridCertVerifyDer E now der anchor host (some output)).sm2PublicKey =
      some (Bytes.zeros sm2UncompressedPublicKeyBytes) := by
  revert h
  simp only [tlcpHybridCertVerifyDer, Option.map_some]
  cases decodeDerStrict E der with
  | none =>
    intro _
    rfl
  | some signing =>
    by_cases hm : certificateMentionsComposite signing = true
    · simp only [hm, if_true]
      -- the two cases differ in the report alone
      cases decodeDerStrict E anchor
      all_goals
        dsimp only
        split
        · intro _
          rfl
        · cases hget : tlcpHybridCertGetSm2SignPublicKey E der
            (Bytes.zeros sm2UncompressedPublicKeyBytes) with
          | mk ok output' =>
            cases ok with
            | true =>
              intro hne
              exact (hne rfl).elim
            | false =>
              intro _
              exact congrArg some (tlcpHybridCertGetSm2SignPublicKey_false
                (Bytes.zeros_length _) hget)
    · simp only [hm]
      intro _
      rfl

theorem SigningAccepted.sm2Component_eq {root s : X509} {host : Option CString}
    (h : SigningAccepted E now root s host) :
    sm2Component E s = some (s.tbsCertificate.subjectPublicKeyInfo.publicKey.data.drop 1312) := by
  obtain ⟨key, hkey⟩ := h.leaf_key
  exact (sm2Component_of_get hkey).2

/-- The verifier of one certificate keeps to the contract on every input. -/
theorem tlcpHybridCertVerifyDer_releases (der anchor : CArg) (host : Option CString)
    (output : Bytes) :
    ReleasesOnlyOnValid E (decodeDerStrict E der)
      (tlcpHybridCertVerifyDer E now der anchor host (some output)).result
      (tlcpHybridCertVerifyDer E now der anchor host (some output)).sm2PublicKey := by
  constructor
  · intro h
    exact tlcpHybridCertVerifyDer_cleared h
  · intro h
    obtain ⟨root, s, hs, hr, hacc⟩ := tlcpHybridCertVerifyDer_valid_iff.mp h
    have hcomp := hacc.sm2Component_eq
    exact ⟨s, _, hs, hcomp, (sm2Component_form hcomp).2,
      (tlcpHybridCertVerifyDer_of_accepted output hs hr hacc).2.2⟩

variable (E now) in
/-- Without a configuration the buffer is already zero; with one, a first certificate that is
accepted on its own comes with an encryption certificate that makes the message acceptable. -/
def BufferSafe (chain : CArg) (output : Bytes) : Option TlcpHybridCertAdapterConfig → Prop
  | none => output = Bytes.zeros sm2UncompressedPublicKeyBytes
  | some config => ∀ root s a rest, decodeNextCertificate E chain = some (s, a, rest) →
      DecodesTo E config.trustAnchorDer root →
      SigningAccepted E now root s config.expectedHostname →
      ∃ e, DualAccepted E now config chain root s e

/-- The callback when the first certificate is accepted on its own: it hands out that certificate's
key whatever the rest of the message is. -/
theorem callback_of_signing {chain : CArg} (output : Bytes) {config : TlcpHybridCertAdapterConfig}
    {root s : X509} {a rest : Bytes} (hn : decodeNextCertificate E chain = some (s, a, rest))
    (hroot : decodeDerStrict E config.trustAnchorDer = some root)
    (hacc : SigningAccepted E now root s config.expectedHostname) :
    (tlcpHybridCertGmsslVerifyCallback E now chain (some output) (some config)).sm2PublicKey =
      sm2Component E s := by
  obtain ⟨hv, _, hkey⟩ := tlcpHybridCertVerifyDer_of_accepted output (decodeDerStrict_of_next hn)
    hroot hacc
  simp only [tlcpHybridCertGmsslVerifyCallback, hn]
  rw [(finishCallback_of_valid E now config (some s) _ hv).2.1, hkey, hacc.sm2Component_eq]

/-- The callback when it is not: not `VALID`, and a cleared buffer. -/
theorem callback_of_not_signing {chain : CArg} (output : Bytes)
    {config : TlcpHybridCertAdapterConfig}
    (h : ∀ root s a rest, decodeNextCertificate E chain = some (s, a, rest) →
      decodeDerStrict E config.trustAnchorDer = some root →
      ¬ SigningAccepted E now root s config.expectedHostname) :
    (tlcpHybridCertGmsslVerifyCallback E now chain (some output) (some config)).result ≠ .valid ∧
    (tlcpHybridCertGmsslVerifyCallback E now chain (some output) (some config)).sm2PublicKey =
      some (Bytes.zeros sm2UncompressedPublicKeyBytes) := by
  have hfin : ∀ signing encryption der,
      (tlcpHybridCertVerifyDer E now der config.trustAnchorDer config.expectedHostname
        (some output)).result ≠ .valid →
      let fin := finishCallback E now config signing encryption
        (tlcpHybridCertVerifyDer E now der config.trustAnchorDer config.expectedHostname
          (some output))
      fin.result ≠ .valid ∧
        fin.sm2PublicKey = some (Bytes.zeros sm2UncompressedPublicKeyBytes) := by
    intro signing encryption der hv
    simp only [finishCallback_of_not_valid hv]
    exact ⟨hv, tlcpHybridCertVerifyDer_cleared hv⟩
  simp only [tlcpHybridCertGmsslVerifyCallback]
  cases hn : decodeNextCertificate E chain with
  | none =>
    refine hfin none _ _ ?_
    rw [tlcpHybridCertVerifyDer_empty (by cases chain <;> simp)]
    intro h0
    cases h0
  | some p =>
    obtain ⟨s, a, rest⟩ := p
    refine hfin (some s) _ _ ?_
    intro hv
    obtain ⟨root, s', hs, hr, hacc⟩ := tlcpHybridCertVerifyDer_valid_iff.mp hv
    rw [decodeDerStrict_of_next hn] at hs
    cases hs
    exact h root s a rest hn hr hacc

/-- With the key in the buffer, the contract forces `VALID`. -/
theorem bufferSafe_of_releases {chain : CArg} {output : Bytes}
    {config : TlcpHybridCertAdapterConfig}
    (h : ReleasesOnlyOnValid E ((decodeNextCertificate E chain).map (·.1))
      (tlcpHybridCertGmsslVerifyCallback E now chain (some output) (some config)).result
      (tlcpHybridCertGmsslVerifyCallback E now chain (some output) (some config)).sm2PublicKey) :
    BufferSafe E now chain output (some config) := by
  intro root s a rest hn hroot hacc
  have hroot := decodesTo_iff.mp hroot
  have hcomp := hacc.sm2Component_eq
  have hdual : ∃ root s e, DualAccepted E now config chain root s e := by
    by_contra hno
    have hne : (tlcpHybridCertGmsslVerifyCallback E now chain (some output)
        (some config)).result ≠ .valid :=
      (callback_of_not_accepted output fun root s e hd => hno ⟨root, s, e, hd⟩).1
    have hzero := h.1 hne
    rw [callback_of_signing output hn hroot hacc, hcomp] at hzero
    exact sm2Component_ne_zeros hcomp (Option.some.inj hzero)
  obtain ⟨root', s', e, hd⟩ := hdual
  have hroot' := decodesTo_iff.mp hd.anchor
  rw [hroot] at hroot'
  cases hroot'
  obtain ⟨a', r', b, t, hs', _⟩ := startsWith_iff.mp hd.certificates
  rw [hn] at hs'
  cases hs'
  exact ⟨e, hd⟩

theorem callback_releases_of_safe {chain : CArg} {output : Bytes}
    {config : TlcpHybridCertAdapterConfig} (h : BufferSafe E now chain output (some config)) :
    ReleasesOnlyOnValid E ((decodeNextCertificate E chain).map (·.1))
      (tlcpHybridCertGmsslVerifyCallback E now chain (some output) (some config)).result
      (tlcpHybridCertGmsslVerifyCallback E now chain (some output) (some config)).sm2PublicKey := by
  by_cases hacc : ∃ root s a rest, decodeNextCertificate E chain = some (s, a, rest) ∧
      decodeDerStrict E config.trustAnchorDer = some root ∧
      SigningAccepted E now root s config.expectedHostname
  · obtain ⟨root, s, a, rest, hn, hroot, hacc⟩ := hacc
    obtain ⟨e, hd⟩ := h root s a rest hn (decodesTo_iff.mpr hroot) hacc
    have hcomp := hacc.sm2Component_eq
    refine ⟨fun hne => (hne (callback_of_accepted output hd).1).elim, fun _ => ?_⟩
    refine ⟨s, _, by rw [hn]; rfl, hcomp, (sm2Component_form hcomp).2, ?_⟩
    rw [callback_of_signing output hn hroot hacc, hcomp]
  · obtain ⟨hne, hzero⟩ := callback_of_not_signing output
      fun root s a rest hn hr ha => hacc ⟨root, s, a, rest, hn, hr, ha⟩
    exact ⟨fun _ => hzero, fun hv => (hne hv).elim⟩

/-- **Only `VALID` releases a key.** The verifier of one certificate keeps to it on every input, the
callback exactly on the inputs that are `BufferSafe`. -/
theorem key_released_only_on_valid_iff {PKey : Type} (E : Openssl PKey) (now : Int) :
    (∀ der anchor host output, ReleasesOnlyOnValid E (decodeDerStrict E der)
      (tlcpHybridCertVerifyDer E now der anchor host (some output)).result
      (tlcpHybridCertVerifyDer E now der anchor host (some output)).sm2PublicKey) ∧
    ∀ chain output arg,
      ReleasesOnlyOnValid E ((decodeNextCertificate E chain).map (·.1))
        (tlcpHybridCertGmsslVerifyCallback E now chain (some output) arg).result
        (tlcpHybridCertGmsslVerifyCallback E now chain (some output) arg).sm2PublicKey ↔
      BufferSafe E now chain output arg := by
  refine ⟨tlcpHybridCertVerifyDer_releases, ?_⟩
  intro chain output arg
  cases arg with
  | none =>
    constructor
    · intro h
      exact Option.some.inj (h.1 (by intro h0; cases h0))
    · intro h
      exact ⟨fun _ => congrArg some h, fun hv => by cases hv⟩
  | some config => exact ⟨bufferSafe_of_releases, callback_releases_of_safe⟩

end

/-- A signing certificate alone, accepted under its anchor: `INVALID` for want of an encryption
certificate, with its key in the buffer. Without a configuration the buffer is not touched. -/
theorem key_released_on_invalid :
    (∃ root server, Toy.Reread root ∧ Toy.Reread server ∧
      let config : TlcpHybridCertAdapterConfig := ⟨.buf (Ber.encode root.toBer), none, false⟩
      let out := tlcpHybridCertGmsslVerifyCallback Toy.issueLib.toOpenssl Toy.issueTime
        (.buf (Ber.encode server.toBer)) (some (Bytes.zeros 65)) (some config)
      out.result = .invalid ∧ out.sm2PublicKey ≠ some (Bytes.zeros 65)) ∧
    (let out := tlcpHybridCertGmsslVerifyCallback Toy.issueLib.toOpenssl Toy.issueTime (.null 0)
      (some (List.replicate 65 0xff)) none
    out.result = .invalid ∧ out.sm2PublicKey ≠ some (Bytes.zeros 65)) := by
  refine ⟨?_, rfl, by decide⟩
  obtain ⟨root, server, hrr, hrs, hacc⟩ := Toy.signing_exists
  refine ⟨root, server, hrr, hrs, ?_⟩
  have hd := Toy.decodeDerStrict_eq hrs
  have hr := Toy.decodeDerStrict_eq hrr
  have hn : decodeNextCertificate Toy.issueLib.toOpenssl (.buf (Ber.encode server.toBer)) =
      some (server, Ber.encode server.toBer, []) := by
    have hl := hrs.length_le
    have htlv := decodeNextCertificate_tlv (E := Toy.issueLib.toOpenssl) (r := [])
      (Toy.isTlv_encode hrs)
    rw [List.append_nil, if_pos (by simp only [longMax]; omega), hd] at htlv
    exact htlv
  have hkey : (tlcpHybridCertGmsslVerifyCallback Toy.issueLib.toOpenssl Toy.issueTime
      (.buf (Ber.encode server.toBer)) (some (Bytes.zeros 65))
      (some ⟨.buf (Ber.encode root.toBer), none, false⟩)).sm2PublicKey = _ :=
    callback_of_signing (Bytes.zeros 65) hn hr hacc
  have hcomp := hacc.sm2Component_eq
  refine ⟨?_, ?_⟩
  · have hv := (tlcpHybridCertVerifyDer_of_accepted (Bytes.zeros 65) hd hr hacc).1
    simp only [tlcpHybridCertGmsslVerifyCallback, hn]
    rw [(finishCallback_of_valid _ _ _ _ _ hv).1]
    simp [decodeNextCertificate, dualIdentityOk]
  · rw [hkey, hcomp]
    intro h0
    exact sm2Component_ne_zeros hcomp (Option.some.inj h0)

end HybridPqc
