import HybridPqc.Adapter.CallbackCorrect
import HybridPqc.Tlcp.Pqkex

/-!
# Tlcp.Client

The certificate gate that `0002-integrate-tlcp-composite-certificate-verification.patch` puts into
GmSSL's `tlcp_recv_server_certificate`, and the raw splitter it uses.

The unmodified first part of the function either fails or leaves the received chain in
`peer_cert_chain`; the model starts from its result. It ends where the patched part is done and
the unmodified last part takes over. GmSSL's own functions are the parameters `Gmssl`.

`certificate_gate_iff`: the gate holds exactly when the registered callback keeps to its three
values. Of the two tests on the callback's value one names the values that end the handshake, the
other the value that runs GmSSL's verifier, and any other value passes between them. The adapter of
this repository keeps to the three values (`adapter_gate`).
-/

namespace HybridPqc

/-- `GMSSL_TLCP_HYBRID_CERT_INVALID`, `…_NOT_APPLICABLE`, `…_VALID` -/
def gmsslTlcpHybridCertInvalid : Int := -1
def gmsslTlcpHybridCertNotApplicable : Int := 0
def gmsslTlcpHybridCertValid : Int := 1

def tlcpHybridCertSm2PublicKeySize : Nat := 65

inductive X509VerifyResult where
  | ok
  | errCertificate
  deriving DecidableEq, Repr

inductive TlsAlert where
  | badCertificate
  deriving DecidableEq, Repr

inductive TlsSigAlg where
  | none
  | sm2sigSm3
  | other (id : Nat)
  deriving DecidableEq, Repr

/-- A registered `TLS_TLCP_HYBRID_CERT_VERIFY_CB` with its `arg`: from the chain and the contents of
the key buffer to the returned integer and the new contents. -/
abbrev TlsTlcpHybridCertVerifyCb := Bytes → Bytes → Int × Bytes

structure TlsCtx where
  protocol : TlsProtocol
  tlcpHybridCertExpected : Bool
  tlcpHybridCertVerifyCb : Option TlsTlcpHybridCertVerifyCb

/-- The fields of `TLS_CONNECT` the patch reads and writes, and the alerts sent so far. -/
structure TlsConnect where
  peerCertChain : Bytes
  tlcpHybridSignCert : Bool
  tlcpHybridSm2PublicKey : Bytes
  verifyResult : X509VerifyResult
  alerts : List TlsAlert
  deriving DecidableEq, Repr

/-- The local variables `verify_result` and `sig_alg` that the last part of the handler uses. -/
structure Verified where
  verifyResult : X509VerifyResult
  sigAlg : TlsSigAlg
  deriving DecidableEq, Repr

/-- GmSSL code that the patch calls and does not change. -/
structure Gmssl where
  /-- `asn1_any_from_der`: the first element and the bytes after it. -/
  asn1AnyFromDer : Bytes → Option (Bytes × Bytes)
  /-- `tls_cert_chain_verify` on the chain: what it stores through its pointers on success. -/
  tlsCertChainVerify : TlsCtx → Bytes → Option Verified

section

variable (G : Gmssl)

/-- `tls_raw_certificate_from_der` -/
def tlsRawCertificateFromDer (input : Bytes) : Option (Bytes × Bytes) :=
  if input.head? = some 0x30 then G.asn1AnyFromDer input else none

/-- The three results of the splitter: 1 with a certificate, 0 with `NULL`, -1. -/
inductive RawCertificate where
  | found (cert : Bytes)
  | absent
  | error
  deriving DecidableEq, Repr

/-- The `while` loop of the splitter; the number is `index - current`. -/
def rawCertificateLoop : Nat → Bytes → RawCertificate
  | _, [] => .absent
  | n, x :: certs =>
    match tlsRawCertificateFromDer G (x :: certs) with
    | none => .error
    | some (cert, rest) =>
      match n with
      | 0 => .found cert
      | n + 1 => rawCertificateLoop n rest

def tlsCertChainGetCertByIndexRaw (certs : Bytes) (index : Int) : RawCertificate :=
  if certs = [] ∨ index < 0 then .error else rawCertificateLoop G index.toNat certs

/-- `tls_ctx_set_tlcp_hybrid_cert_verify`; `none` is the result -1. -/
def tlsCtxSetTlcpHybridCertVerify (ctx : TlsCtx) (expectedHybridCert : Int)
    (verifyCb : Option TlsTlcpHybridCertVerifyCb) : Option TlsCtx :=
  match verifyCb with
  | none => none
  | some cb =>
    if ctx.protocol ≠ .tlcp then none
    else some { ctx with
      tlcpHybridCertExpected := expectedHybridCert != 0
      tlcpHybridCertVerifyCb := some cb }

/-- How the patched part of the handler ends: `return -1`, or on to the last part. -/
inductive Handler where
  | fails (conn : TlsConnect)
  | continues (conn : TlsConnect) (verified : Verified)

/-- The connection after `tls_send_alert(conn, TLS_alert_bad_certificate)`. -/
def sendBadCertificate (conn : TlsConnect) : TlsConnect :=
  { conn with alerts := conn.alerts ++ [.badCertificate] }

/-- The test `tls_cert_chain_verify(…) != 1`. -/
def gmsslVerifies (ctx : TlsCtx) (conn : TlsConnect) : Handler :=
  match G.tlsCertChainVerify ctx conn.peerCertChain with
  | none => .fails conn
  | some verified => .continues conn verified

/-- `tlcp_recv_server_certificate` up to the end of the patched part. `received` is the chain the
unmodified first part stores, `none` when it fails. -/
def tlcpRecvServerCertificate (ctx : TlsCtx) (conn : TlsConnect) (received : Option Bytes) :
    Handler :=
  match received with
  | none => .fails conn
  | some chain =>
    let conn := { conn with
      peerCertChain := chain
      tlcpHybridSignCert := false
      tlcpHybridSm2PublicKey := Bytes.zeros tlcpHybridCertSm2PublicKeySize }
    match ctx.tlcpHybridCertVerifyCb with
    | none => gmsslVerifies G ctx conn
    | some cb =>
      match tlsCertChainGetCertByIndexRaw G conn.peerCertChain 0 with
      | .absent => .fails (sendBadCertificate conn)
      | .error => .fails (sendBadCertificate conn)
      | .found _ =>
        let (hybridRet, key) := cb conn.peerCertChain conn.tlcpHybridSm2PublicKey
        let conn := { conn with tlcpHybridSm2PublicKey := key }
        if hybridRet = gmsslTlcpHybridCertInvalid ∨
            (hybridRet = gmsslTlcpHybridCertNotApplicable ∧ ctx.tlcpHybridCertExpected) then
          .fails (sendBadCertificate { conn with verifyResult := .errCertificate })
        else
          let (conn, verified) : TlsConnect × Verified :=
            if hybridRet = gmsslTlcpHybridCertValid then
              ({ conn with tlcpHybridSignCert := true }, ⟨.ok, .sm2sigSm3⟩)
            else (conn, ⟨.ok, .none⟩)
          if hybridRet = gmsslTlcpHybridCertNotApplicable then gmsslVerifies G ctx conn
          else .continues conn verified

end

/-! ## The gate -/

/-- The value the registered callback returns on a chain it is asked about. -/
def TlsCtx.callbackValue (ctx : TlsCtx) (chain : Bytes) : Option Int :=
  ctx.tlcpHybridCertVerifyCb.map fun cb =>
    (cb chain (Bytes.zeros tlcpHybridCertSm2PublicKeySize)).1

/-- The chain was accepted by the callback, or by GmSSL's verifier where the policy lets that one
decide. -/
def VerifierAccepted (G : Gmssl) (ctx : TlsCtx) (chain : Bytes) : Prop :=
  ctx.callbackValue chain = some gmsslTlcpHybridCertValid ∨
  (ctx.callbackValue chain = some gmsslTlcpHybridCertNotApplicable ∧
    ctx.tlcpHybridCertExpected = false ∧ (G.tlsCertChainVerify ctx chain).isSome) ∨
  (ctx.callbackValue chain = none ∧ (G.tlsCertChainVerify ctx chain).isSome)

/-- The certificate gate: a handshake that goes on has a chain that a verifier accepted. -/
def CertificateGate (G : Gmssl) (ctx : TlsCtx) (conn : TlsConnect) (received : Option Bytes) :
    Prop :=
  ∀ conn' verified, tlcpRecvServerCertificate G ctx conn received = .continues conn' verified →
    ∃ chain, received = some chain ∧ conn'.peerCertChain = chain ∧ VerifierAccepted G ctx chain

/-- On a chain it is asked about, the callback returns one of its three values. -/
def CallbackKeepsValues (G : Gmssl) (ctx : TlsCtx) (received : Option Bytes) : Prop :=
  ∀ chain cert value, received = some chain →
    tlsCertChainGetCertByIndexRaw G chain 0 = .found cert →
    ctx.callbackValue chain = some value →
      value = gmsslTlcpHybridCertInvalid ∨ value = gmsslTlcpHybridCertNotApplicable ∨
        value = gmsslTlcpHybridCertValid

theorem gmsslVerifies_continues {G : Gmssl} {ctx : TlsCtx} {conn conn' : TlsConnect}
    {verified : Verified} :
    gmsslVerifies G ctx conn = .continues conn' verified ↔
      conn' = conn ∧ G.tlsCertChainVerify ctx conn.peerCertChain = some verified := by
  simp only [gmsslVerifies]
  cases G.tlsCertChainVerify ctx conn.peerCertChain with
  | none => simp
  | some v => simp [eq_comm (a := conn)]

section

variable {G : Gmssl} {ctx : TlsCtx} {conn conn' : TlsConnect} {verified : Verified}

/-- Without a callback the handshake goes on when GmSSL's verifier accepts. -/
theorem tlcpRecvServerCertificate_without {chain : Bytes} (hcb : ctx.tlcpHybridCertVerifyCb = none)
    (h : tlcpRecvServerCertificate G ctx conn (some chain) = .continues conn' verified) :
    conn'.peerCertChain = chain ∧ conn'.tlcpHybridSignCert = false ∧
      G.tlsCertChainVerify ctx chain = some verified := by
  simp only [tlcpRecvServerCertificate, hcb, gmsslVerifies_continues] at h
  obtain ⟨rfl, hv⟩ := h
  exact ⟨rfl, rfl, hv⟩

/-- Where a handshake with a callback goes on: on its value 1, on its value 0 with GmSSL's verifier
and without the strict policy, and on every value but -1, 0 and 1. -/
theorem tlcpRecvServerCertificate_with {chain : Bytes} {cb : TlsTlcpHybridCertVerifyCb}
    (hcb : ctx.tlcpHybridCertVerifyCb = some cb)
    (h : tlcpRecvServerCertificate G ctx conn (some chain) = .continues conn' verified) :
    let value := (cb chain (Bytes.zeros tlcpHybridCertSm2PublicKeySize)).1
    conn'.peerCertChain = chain ∧
      (∃ cert, tlsCertChainGetCertByIndexRaw G chain 0 = .found cert) ∧
      conn'.tlcpHybridSm2PublicKey = (cb chain (Bytes.zeros tlcpHybridCertSm2PublicKeySize)).2 ∧
      (conn'.tlcpHybridSignCert = true ↔ value = gmsslTlcpHybridCertValid) ∧
      value ≠ gmsslTlcpHybridCertInvalid ∧
      (value = gmsslTlcpHybridCertNotApplicable →
        ctx.tlcpHybridCertExpected = false ∧ G.tlsCertChainVerify ctx chain = some verified) := by
  simp only [tlcpRecvServerCertificate, hcb] at h
  split at h
  · cases h
  · cases h
  rename_i cert hcert
  split at h
  · cases h
  rename_i hne
  simp only [not_or, not_and, Bool.not_eq_true] at hne
  by_cases h1 : (cb chain (Bytes.zeros tlcpHybridCertSm2PublicKeySize)).1 = gmsslTlcpHybridCertValid
  · have h0 : gmsslTlcpHybridCertValid ≠ gmsslTlcpHybridCertNotApplicable := by decide
    simp only [h1, h0, if_true, if_false] at h
    cases h
    exact ⟨rfl, ⟨cert, hcert⟩, rfl, by simp [h1], hne.1, fun h => (h0 (h1.symm.trans h)).elim⟩
  · simp only [h1, if_false] at h
    split at h
    · rename_i h0
      obtain ⟨rfl, hv⟩ := gmsslVerifies_continues.mp h
      exact ⟨rfl, ⟨cert, hcert⟩, rfl, by simp [h1], hne.1, fun _ => ⟨hne.2 h0, hv⟩⟩
    · rename_i h0
      cases h
      exact ⟨rfl, ⟨cert, hcert⟩, rfl, by simp [h1], hne.1, fun h => (h0 h).elim⟩

/-- A value outside the three lets any chain pass, under either policy. -/
theorem tlcpRecvServerCertificate_other {chain cert : Bytes} {value : Int}
    (hcert : tlsCertChainGetCertByIndexRaw G chain 0 = .found cert)
    (hval : ctx.callbackValue chain = some value) (h1 : value ≠ gmsslTlcpHybridCertInvalid)
    (h2 : value ≠ gmsslTlcpHybridCertNotApplicable) (h3 : value ≠ gmsslTlcpHybridCertValid) :
    ∃ conn', tlcpRecvServerCertificate G ctx conn (some chain) =
      .continues conn' ⟨.ok, .none⟩ := by
  cases hcb : ctx.tlcpHybridCertVerifyCb with
  | none => simp [TlsCtx.callbackValue, hcb] at hval
  | some cb =>
    simp only [TlsCtx.callbackValue, hcb, Option.map_some, Option.some.injEq] at hval
    simp [tlcpRecvServerCertificate, hcb, hcert, hval, h1, h2, h3]

end

theorem certificateGate_of_keepsValues {G : Gmssl} {ctx : TlsCtx} {conn : TlsConnect}
    {received : Option Bytes} (hkeep : CallbackKeepsValues G ctx received) :
    CertificateGate G ctx conn received := by
  intro conn' verified hc
  cases received with
  | none => cases hc
  | some chain =>
    cases hcb : ctx.tlcpHybridCertVerifyCb with
    | none =>
      obtain ⟨hp, _, hv⟩ := tlcpRecvServerCertificate_without hcb hc
      exact ⟨chain, rfl, hp, Or.inr (Or.inr ⟨by simp [TlsCtx.callbackValue, hcb], by simp [hv]⟩)⟩
    | some cb =>
      obtain ⟨hp, ⟨cert, hcert⟩, _, _, hinv, hna⟩ := tlcpRecvServerCertificate_with hcb hc
      have hval : ctx.callbackValue chain =
          some (cb chain (Bytes.zeros tlcpHybridCertSm2PublicKeySize)).1 := by
        simp [TlsCtx.callbackValue, hcb]
      refine ⟨chain, rfl, hp, ?_⟩
      rcases hkeep chain cert _ rfl hcert hval with h | h | h
      · exact (hinv h).elim
      · obtain ⟨hexp, hv⟩ := hna h
        exact Or.inr (Or.inl ⟨by rw [hval, h], hexp, by simp [hv]⟩)
      · exact Or.inl (by rw [hval, h])

/-- **The certificate gate.** It holds exactly when the callback keeps to its three values on the
chain received. -/
theorem certificate_gate_iff (G : Gmssl) (ctx : TlsCtx) (conn : TlsConnect)
    (received : Option Bytes) :
    CertificateGate G ctx conn received ↔ CallbackKeepsValues G ctx received := by
  refine ⟨fun hgate chain cert value hr hcert hval => ?_, certificateGate_of_keepsValues⟩
  by_contra hne
  simp only [not_or] at hne
  obtain ⟨hinv, hna, hvalid⟩ := hne
  subst hr
  obtain ⟨conn', hc⟩ : ∃ conn', tlcpRecvServerCertificate G ctx conn (some chain) =
      .continues conn' ⟨.ok, .none⟩ := tlcpRecvServerCertificate_other hcert hval hinv hna hvalid
  obtain ⟨chain', hr, _, hacc⟩ := hgate conn' _ hc
  cases hr
  rcases hacc with h | ⟨h, _⟩ | ⟨h, _⟩ <;> rw [hval] at h <;> cases h
  · exact hvalid rfl
  · exact hna rfl

/-- A callback that returns 2 lets an unverified chain through, under the strict policy. -/
theorem certificate_gate_open_on_two :
    ¬ ∀ (G : Gmssl) (ctx : TlsCtx) (conn : TlsConnect) (received : Option Bytes),
      CertificateGate G ctx conn received := by
  intro h
  obtain ⟨_, _, _, hacc⟩ := h ⟨fun b => some (b, []), fun _ _ => none⟩
    ⟨.tlcp, true, some fun _ key => (2, key)⟩ ⟨[], false, [], .ok, []⟩ (some [0x30, 0x00]) _ _ rfl
  rcases hacc with h | ⟨h, _⟩ | ⟨h, _⟩ <;> cases h

/-! ## The repository's callback -/

/-- `tlcp_hybrid_cert_gmssl_verify_callback` as a registered callback. -/
def adapterCallback {PKey : Type} (E : Openssl PKey) (now : Int)
    (config : Option TlcpHybridCertAdapterConfig) : TlsTlcpHybridCertVerifyCb := fun chain key =>
  let out := tlcpHybridCertGmsslVerifyCallback E now (.buf chain) (some key) config
  (out.result.toInt, out.sm2PublicKey.getD key)

/-- A context set up with the adapter has a gate that holds on every chain. -/
theorem adapter_gate {PKey : Type} {E : Openssl PKey} {now : Int}
    {config : Option TlcpHybridCertAdapterConfig} {G : Gmssl} {ctx ctx' : TlsCtx} {expected : Int}
    (hset : tlsCtxSetTlcpHybridCertVerify ctx expected (some (adapterCallback E now config)) =
      some ctx') (conn : TlsConnect) (received : Option Bytes) :
    CertificateGate G ctx' conn received := by
  simp only [tlsCtxSetTlcpHybridCertVerify] at hset
  split at hset
  · cases hset
  cases hset
  refine certificateGate_of_keepsValues fun chain cert value _ _ hval => ?_
  simp only [TlsCtx.callbackValue, Option.map_some, Option.some.injEq, adapterCallback] at hval
  subst hval
  cases (tlcpHybridCertGmsslVerifyCallback E now (.buf chain) _ config).result
  · exact Or.inl rfl
  · exact Or.inr (Or.inl rfl)
  · exact Or.inr (Or.inr rfl)

end HybridPqc
