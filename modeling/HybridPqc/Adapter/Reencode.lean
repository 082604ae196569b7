import HybridPqc.Adapter.CallbackCorrect
import HybridPqc.Ber.Forms

/-!
# Adapter.Reencode

Which octets the issuer signature is verified over.

`hybrid_x509_get_tbs_der` encodes the decoded TBSCertificate afresh. `Checked` names the octets that
were verified and the ones that were received; they are the same exactly when the received ones are
DER (`Checked.message_eq_iff`), and `encodeLong` gives a certificate where they are not.
-/

namespace HybridPqc

open Ber

section

variable {PKey : Type} (E : Openssl PKey)

/-- `d2i_X509` reads the TBSCertificate with `d2i` from the first element inside, in whatever BER it
tolerates; on DER that is what the template says. `i2d_re_X509_tbs` writes fresh DER. Two fields are
idealised: OpenSSL keeps the octets that a name was read from and the octet of a `critical` flag,
and writes them back also where they are not DER. -/
structure TbsDecoder (d2i : Bytes → Option CompositeTbsCertificate) : Prop where
  d2iX509 : ∀ {b c n}, E.d2iX509 b = some (c, n) →
    ∃ received, firstChildBytes b = some received ∧ d2i received = some c.tbsCertificate
  der : ∀ {b e t}, readElement true b = some (e, []) → CompositeTbsCertificate.ofBer e = some t →
    d2i b = some t
  i2dReX509Tbs : ∀ t, E.i2dReX509Tbs t = i2dCompositeTbsCertificate t

/-- `b` is the DER of a TBSCertificate: a DER element that comes out the same when its fields are
written. -/
def IsTbsDer (b : Bytes) : Prop :=
  ∃ e t, readElement true b = some (e, []) ∧ CompositeTbsCertificate.ofBer e = some t ∧ t.toBer = e

/-- The issuer signature `signature` of the certificate `der` verifies over `message` under the
trust anchor's `key`; `received` is the TBSCertificate element as it stands in `der`. -/
structure Checked (anchor : CArg) (der : Bytes) (key : HybridPublicKey PKey)
    (signature message received : Bytes) : Prop where
  anchor : ∃ root, decodeDerStrict E anchor = some root ∧
    hybridX509GetCompositePublicKey E root = some key
  certificate : ∃ c, decodeDerStrict E (.buf der) = some c ∧
    hybridX509GetTbsDer E c = some message ∧ hybridX509GetSignature c = some signature
  verified : compositeVerify E.toCrypto key (.buf message) (.null 0) signature = true
  element : firstChildBytes der = some received

/-- No Dilithium2 signature fits what is signed for both messages unless that is the same. -/
def MessageBound (C : Crypto PKey) (publicKey : Block dilithiumPublicKeyBytes)
    (message message' : Bytes) : Prop :=
  ∀ m m' d, compositeBuildMessage C (.buf message) (.null 0) = some m →
    compositeBuildMessage C (.buf message') (.null 0) = some m' →
    dilithiumVerify C publicKey m d = true → dilithiumVerify C publicKey m' d = true → m = m'

variable {E}

/-- Written again, the fields of a TBS give back the octets exactly when these were DER. -/
theorem TbsDecoder.i2d_eq_iff {d2i : Bytes → Option CompositeTbsCertificate}
    (hD : TbsDecoder E d2i) {received message : Bytes} {t : CompositeTbsCertificate}
    (ht : d2i received = some t) (hm : i2dCompositeTbsCertificate t = some message) :
    message = received ↔ IsTbsDer received := by
  unfold i2dCompositeTbsCertificate i2d at hm
  split at hm
  · rename_i hw
    cases hm
    constructor
    · intro h
      have hread := read_encode true (e := t.toBer) ⟨hw.1, by simp only [maxLen]; omega⟩ []
      rw [List.append_nil, h] at hread
      exact ⟨t.toBer, t.reencode, hread, CompositeTbsCertificate.ofBer_toBer t,
        CompositeTbsCertificate.toBer_reencode t⟩
    · intro h
      obtain ⟨e, t', hread, ht', rfl⟩ := h
      have hd := hD.der hread ht'
      rw [ht] at hd
      cases hd
      obtain ⟨henc, _⟩ := encode_of_read hread
      rw [henc, List.append_nil]
  · cases hm

variable {d2i : Bytes → Option CompositeTbsCertificate}

theorem Checked.message_eq_iff (hD : TbsDecoder E d2i) {anchor : CArg} {der : Bytes}
    {key : HybridPublicKey PKey} {signature message received : Bytes}
    (h : Checked E anchor der key signature message received) :
    message = received ↔ IsTbsDer received := by
  obtain ⟨c, hc, hm, _⟩ := h.certificate
  obtain ⟨_, _, hd⟩ := decodeDerStrict_some.mp hc
  obtain ⟨received', hrec, ht⟩ := hD.d2iX509 hd
  rw [h.element] at hrec
  cases hrec
  have hi := hybridX509GetTbsDer_some hm
  rw [hD.i2dReX509Tbs] at hi
  exact hD.i2d_eq_iff ht hi

/-- One signature value verifies over one message. -/
theorem Checked.message_unique {anchor : CArg} {der der' : Bytes} {key : HybridPublicKey PKey}
    {signature message message' received received' : Bytes}
    (h : Checked E anchor der key signature message received)
    (h' : Checked E anchor der' key signature message' received')
    (hbound : MessageBound E.toCrypto key.dilithiumPublicKey message message')
    (hsm3 : E.sm3 message = E.sm3 message' → message = message') : message = message' := by
  obtain ⟨_, d, s, m, _, hp, hm, hd, _⟩ := compositeVerifyDetailed_valid_iff.mp h.verified
  obtain ⟨_, d', s', m', _, hp', hm', hd', _⟩ := compositeVerifyDetailed_valid_iff.mp h'.verified
  rw [hp] at hp'
  cases hp'
  obtain rfl := hbound _ _ _ hm hm' hd hd'
  obtain ⟨_, _, _, digest, hdig, hlen, rfl⟩ := compositeBuildMessage_some_iff.mp hm
  obtain ⟨_, _, _, digest', hdig', hlen', heq⟩ := compositeBuildMessage_some_iff.mp hm'
  have hdd : digest = digest' := (List.append_inj' heq (by rw [hlen, hlen'])).2
  subst hdd
  exact hsm3 (hdig.trans hdig'.symm)

theorem tlcpHybridCertVerifyDer_valid_output {now : Int} {der anchor : CArg}
    {host : Option CString} {output : Option Bytes}
    (h : (tlcpHybridCertVerifyDer E now der anchor host output).result = .valid) :
    ∃ b, output = some b := by
  cases output with
  | some b => exact ⟨b, rfl⟩
  | none =>
    simp only [tlcpHybridCertVerifyDer, Option.map_none] at h
    repeat' split at h
    all_goals cases h

theorem checked_of_valid {now : Int} (hD : TbsDecoder E d2i) {der : Bytes} {anchor : CArg}
    {host : Option CString} {output : Option Bytes}
    (h : (tlcpHybridCertVerifyDer E now (.buf der) anchor host output).result = .valid) :
    ∃ key signature message received, Checked E anchor der key signature message received := by
  obtain ⟨b, rfl⟩ := tlcpHybridCertVerifyDer_valid_output h
  obtain ⟨root, c, hc, hroot, hacc⟩ := tlcpHybridCertVerifyDer_valid_iff.mp h
  obtain ⟨key, _, hserver⟩ := hacc.chain
  obtain ⟨d, s, m, hparts, hd⟩ := hserver.dilithium
  obtain ⟨d', s', m', sm2, hparts', hk, hs⟩ := hserver.sm2
  obtain ⟨rfl, rfl, rfl⟩ := hparts.unique hparts'
  obtain ⟨message, hm, hne, hbits, hparse, hbuild⟩ := hparts
  obtain ⟨_, _, hd2i⟩ := decodeDerStrict_some.mp hc
  obtain ⟨received, hrec, _⟩ := hD.d2iX509 hd2i
  have hlen : c.signatureValue.data.length ≠ 0 := by
    intro h0
    simp [compositeParseSignature, h0] at hparse
  refine ⟨key, c.signatureValue.data, message, received, ?_⟩
  exact {
    anchor := ⟨root, hroot, hserver.key_parsed⟩
    certificate := ⟨c, hc, hybridX509GetTbsDer_eq.mpr ⟨hm, hne⟩,
      hybridX509GetSignature_eq.mpr ⟨hbits, hlen, rfl⟩⟩
    verified := compositeVerifyDetailed_valid_iff.mpr ⟨sm2, d, s, m, hk, hparse, hbuild, hd, hs⟩
    element := hrec }

theorem Checked.key_unique {anchor : CArg} {der der' : Bytes} {key key' : HybridPublicKey PKey}
    {signature signature' message message' received received' : Bytes}
    (h : Checked E anchor der key signature message received)
    (h' : Checked E anchor der' key' signature' message' received') : key = key' := by
  obtain ⟨root, hr, hk⟩ := h.anchor
  obtain ⟨root', hr', hk'⟩ := h'.anchor
  rw [hr] at hr'
  cases hr'
  rw [hk] at hk'
  cases hk'
  rfl

end

/-- **What is verified.** The issuer signature of a `VALID` certificate is verified over its
TBSCertificate written afresh, which is the received element exactly when that is DER. Two `VALID`
certificates with one signature value were verified over one message, so they have the same TBS
element when both are DER. -/
theorem verified_message_eq_received_iff {PKey : Type} (E : Openssl PKey)
    {d2i : Bytes → Option CompositeTbsCertificate} (hD : TbsDecoder E d2i) (now : Int)
    {der : Bytes} {anchor : CArg} {host : Option CString} {output : Option Bytes}
    (h : (tlcpHybridCertVerifyDer E now (.buf der) anchor host output).result = .valid) :
    ∃ key signature message received,
      Checked E anchor der key signature message received ∧
      (message = received ↔ IsTbsDer received) ∧
      ∀ der' host' output',
        (tlcpHybridCertVerifyDer E now (.buf der') anchor host' output').result = .valid →
        ∃ signature' message' received',
          Checked E anchor der' key signature' message' received' ∧
          (signature' = signature →
            MessageBound E.toCrypto key.dilithiumPublicKey message message' →
            (E.sm3 message = E.sm3 message' → message = message') →
            message = message' ∧
              (IsTbsDer received → IsTbsDer received' → received = received')) := by
  obtain ⟨key, signature, message, received, hc⟩ := checked_of_valid hD h
  refine ⟨key, signature, message, received, hc, hc.message_eq_iff hD, ?_⟩
  intro der' host' output' h'
  obtain ⟨key', signature', message', received', hc'⟩ := checked_of_valid hD h'
  obtain rfl := hc.key_unique hc'
  refine ⟨signature', message', received', hc', ?_⟩
  intro hsig hbound hsm3
  subst hsig
  have hm := hc.message_unique hc' hbound hsm3
  refine ⟨hm, ?_⟩
  intro hder hder'
  rw [← (hc.message_eq_iff hD).mpr hder, ← (hc'.message_eq_iff hD).mpr hder']
  exact hm

namespace Toy

/-- The TBSCertificate as the lenient reader takes it. -/
def d2iTbs (b : Bytes) : Option CompositeTbsCertificate :=
  match readElement false b with
  | some (e, []) => CompositeTbsCertificate.ofBer e
  | _ => none

theorem X509.ofBer_some {e : Element} {c : X509} (h : X509.ofBer e = some c) :
    ∃ tbs algorithm signature, e = .cons 0x30 [tbs, algorithm, signature] ∧
      CompositeTbsCertificate.ofBer tbs = some c.tbsCertificate := by
  unfold X509.ofBer at h
  split at h
  · rename_i tbs algorithm signature
    simp only [Option.bind_eq_bind, Option.bind_eq_some_iff, Option.some.injEq] at h
    obtain ⟨t, ht, _, _, _, _, rfl⟩ := h
    exact ⟨tbs, algorithm, signature, rfl, ht⟩
  · cases h

theorem tbsDecoder : TbsDecoder issueLib.toOpenssl d2iTbs where
  d2iX509 h := by
    obtain ⟨e, r, hread, hc, _⟩ := d2iX509_some h
    obtain ⟨tbs, algorithm, signature, rfl, ht⟩ := X509.ofBer_some hc
    obtain ⟨received, hrec, hagain, _⟩ := firstChildBytes_of_read hread
    exact ⟨received, hrec, by rw [d2iTbs, hagain]; exact ht⟩
  der {b e t} hread ht := by
    have hl : readElement false b = some (e, []) := readElement_strict hread
    rw [d2iTbs, hl]
    exact ht
  i2dReX509Tbs _ := rfl

theorem messageBound (publicKey : Block dilithiumPublicKeyBytes) (message message' : Bytes) :
    MessageBound crypto publicKey message message' := by
  intro m m' d _ _ h h'
  simp only [dilithiumVerify, crypto, Bool.and_eq_true, beq_iff_eq] at h h'
  exact pad_injective (h.2.2.symm.trans h'.2.2)

/-- The certificate with its TBSCertificate in the long form. -/
def longForm (c : X509) : Bytes := encodeLongChild c.toBer

theorem tbs_toBer (c : X509) : ∃ es, c.tbsCertificate.toBer = .cons 0x30 es := ⟨_, rfl⟩

theorem Reread.tagsOk {c : X509} (h : Reread c) : Ber.tagsOk c.toBer = true := by
  have h1 := h.1
  unfold i2dCompositeCertificate i2d at h1
  split at h1
  · rename_i hw
    exact hw.1
  · cases h1

/-- It decodes to the same certificate, and its TBS element is the long form. -/
theorem longForm_decodes {c : X509} (h : Reread c) :
    decodeDerStrict issueLib.toOpenssl (.buf (longForm c)) = some c ∧
      firstChildBytes (longForm c) = some (encodeLong c.tbsCertificate.toBer) := by
  obtain ⟨es, hes⟩ := tbs_toBer c
  have hc : c.toBer = .cons 0x30 (.cons 0x30 es :: [c.signatureAlgorithm.toBer,
      .prim 0x03 c.signatureValue.content]) := by rw [X509.toBer, hes]
  have hlen := h.length_le
  have htags := h.tagsOk
  have hread := X509.ofBer_toBer c
  rw [h.2] at hread
  unfold longForm
  rw [hc] at hlen htags hread ⊢
  rw [hes]
  have hmax : (encode (.cons 0x30 (.cons 0x30 es :: [c.signatureAlgorithm.toBer,
      .prim 0x03 c.signatureValue.content]))).length + 10 ≤ maxLen := by
    simp only [maxLen]
    omega
  have hsize := encodeLongChild_length_le hmax
  obtain ⟨b, hb⟩ : ∃ b, b = encodeLongChild (.cons 0x30 (.cons 0x30 es ::
      [c.signatureAlgorithm.toBer, .prim 0x03 c.signatureValue.content])) := ⟨_, rfl⟩
  have hd : d2iX509 b = some (c, b.length) := by
    simp [d2iX509, hb, readElement_encodeLongChild htags hmax, hread]
  have hpos : 0 < b.length := by simp [hb, encodeLongChild]
  rw [← hb] at hsize ⊢
  refine ⟨decodeDerStrict_some.mpr ⟨hpos, by simp only [longMax]; omega, hd⟩, ?_⟩
  rw [hb]
  exact firstChildBytes_encodeLongChild htags hmax

theorem longForm_not_der {c : X509} (h : Reread c) :
    ¬ IsTbsDer (encodeLong c.tbsCertificate.toBer) := by
  obtain ⟨es, hes⟩ := tbs_toBer c
  have hlen := h.length_le
  rw [X509.toBer, hes] at hlen
  simp only [encode, encodeAll, List.length_cons, List.length_append] at hlen
  rintro ⟨e, t, hread, _⟩
  rw [hes] at hread
  have hsmall : (encodeAll es).length < 256 ^ 7 := by omega
  have hnone := read_encodeLong_strict 0x30 hsmall (encodeLong (.cons 0x30 es)).length []
  rw [List.append_nil] at hnone
  rw [readElement, hnone] at hread
  cases hread

theorem encode_isDer {c : X509} (h : Reread c) :
    firstChildBytes (encode c.toBer) = some (encode c.tbsCertificate.toBer) ∧
      IsTbsDer (encode c.tbsCertificate.toBer) := by
  have hlen := h.length_le
  have htags := h.tagsOk
  have hwf : Wf c.toBer := ⟨htags, by simp only [maxLen]; omega⟩
  rw [X509.toBer] at hwf htags hlen
  simp only [Ber.tagsOk, tagsOkAll, Bool.and_eq_true] at htags
  simp only [encode, encodeAll, List.length_cons, List.length_append] at hlen
  have hread := read_encode true (e := c.tbsCertificate.toBer)
    ⟨htags.2.1, by simp only [maxLen]; omega⟩ []
  rw [List.append_nil] at hread
  exact ⟨firstChildBytes_encode hwf, _, _, hread, CompositeTbsCertificate.ofBer_toBer _,
    CompositeTbsCertificate.toBer_reencode _⟩

/-- A certificate and its long form are both `VALID`. -/
theorem valid_exists : ∃ (root server : X509), Reread server ∧
    ∀ der ∈ [encode server.toBer, longForm server],
      decodeDerStrict issueLib.toOpenssl (.buf der) = some server ∧
      (tlcpHybridCertVerifyDer issueLib.toOpenssl issueTime (.buf der)
        (.buf (encode root.toBer)) none (some [])).result = .valid := by
  obtain ⟨root, server, hrr, hrs, hacc⟩ := signing_exists
  refine ⟨root, server, hrs, ?_⟩
  intro der hder
  have hd : decodeDerStrict issueLib.toOpenssl (.buf der) = some server := by
    rcases List.mem_pair.mp hder with rfl | rfl
    · exact decodeDerStrict_eq hrs
    · exact (longForm_decodes hrs).1
  exact ⟨hd, tlcpHybridCertVerifyDer_valid_iff.mpr
    ⟨root, server, hd, decodeDerStrict_eq hrr, hacc⟩⟩

end Toy

/-- An issued certificate is verified over what was received. -/
theorem verified_message_eq_received_issued : ∃ (anchor : CArg) (der : Bytes)
    (key : HybridPublicKey Bytes) (signature message : Bytes),
    (tlcpHybridCertVerifyDer Toy.issueLib.toOpenssl Toy.issueTime (.buf der) anchor none
      (some [])).result = .valid ∧
    Checked Toy.issueLib.toOpenssl anchor der key signature message message := by
  obtain ⟨root, server, hs, hvalid⟩ := Toy.valid_exists
  obtain ⟨_, hv⟩ := hvalid (encode server.toBer) List.mem_cons_self
  obtain ⟨key, signature, message, received, hc, hiff, _⟩ :=
    verified_message_eq_received_iff Toy.issueLib.toOpenssl Toy.tbsDecoder Toy.issueTime hv
  obtain ⟨hfirst, hder⟩ := Toy.encode_isDer hs
  have hrec := hc.element
  rw [hfirst] at hrec
  cases hrec
  obtain rfl := hiff.mpr hder
  exact ⟨_, _, key, signature, _, hv, hc⟩

/-- A certificate and the same certificate with its TBS in the long form are both `VALID`, with one
signature value verified over one message, and the TBS elements differ. -/
theorem verified_message_not_received :
    TbsDecoder Toy.issueLib.toOpenssl Toy.d2iTbs ∧
    (∀ publicKey message message', MessageBound Toy.crypto publicKey message message') ∧
    ∃ (anchor : CArg) (der der' : Bytes) (key : HybridPublicKey Bytes)
      (signature message received received' : Bytes),
      (tlcpHybridCertVerifyDer Toy.issueLib.toOpenssl Toy.issueTime (.buf der) anchor none
        (some [])).result = .valid ∧
      (tlcpHybridCertVerifyDer Toy.issueLib.toOpenssl Toy.issueTime (.buf der') anchor none
        (some [])).result = .valid ∧
      Checked Toy.issueLib.toOpenssl anchor der key signature message received ∧
      Checked Toy.issueLib.toOpenssl anchor der' key signature message received' ∧
      received ≠ received' ∧ message ≠ received' := by
  refine ⟨Toy.tbsDecoder, Toy.messageBound, ?_⟩
  obtain ⟨root, server, hs, hvalid⟩ := Toy.valid_exists
  obtain ⟨hd, hv⟩ := hvalid (encode server.toBer) List.mem_cons_self
  obtain ⟨hd', hv'⟩ := hvalid (Toy.longForm server) (by simp)
  obtain ⟨key, signature, message, received, hc⟩ := checked_of_valid Toy.tbsDecoder hv
  obtain ⟨key', signature', message', received', hc'⟩ := checked_of_valid Toy.tbsDecoder hv'
  obtain rfl := hc.key_unique hc'
  -- both decode to `server`, so what is verified is the same
  obtain ⟨c, h1, hm, hsig⟩ := hc.certificate
  obtain ⟨c', h1', hm', hsig'⟩ := hc'.certificate
  rw [hd] at h1
  cases h1
  rw [hd'] at h1'
  cases h1'
  rw [hm] at hm'
  cases hm'
  rw [hsig] at hsig'
  cases hsig'
  obtain ⟨hfirst, hder⟩ := Toy.encode_isDer hs
  have hrec := hc.element
  rw [hfirst] at hrec
  cases hrec
  have hrec' := hc'.element
  rw [(Toy.longForm_decodes hs).2] at hrec'
  cases hrec'
  have hne : message ≠ encodeLong server.tbsCertificate.toBer := by
    intro heq
    exact Toy.longForm_not_der hs ((hc'.message_eq_iff Toy.tbsDecoder).mp heq)
  have hmessage := (hc.message_eq_iff Toy.tbsDecoder).mpr hder
  exact ⟨_, _, _, key, signature, message, _, _, hv, hv', hc, hc', by rwa [← hmessage], hne⟩

end HybridPqc
