import HybridPqc.Tlcp.Chain
import HybridPqc.Tlcp.KeyExchange

/-!
# Tlcp.ClientRun

A TLCP client with this repository's adapter, in a run against any peer. The peer chooses the
entries of every Certificate message and the signature of every ServerKeyExchange, in any order, and
the clock may show any time; the client's last step is the ClientKeyExchange, whose key it takes out
of the stored chain.

`TlcpClientRun` is the client with the keys it has used since its last Certificate message.

* `Authenticated`: what the adapter has accepted, for the chain that is held.
* `Downgraded`: what is known of a chain that GmSSL's verifier accepted in its place.
* `TlcpClientRun.Inv`: the invariant, one of the two with the keys that follow from it.
* `client_run_authenticated`: the invariant holds in every run, and a strict client is never in the
  second case.
-/

namespace HybridPqc

section

variable {Key : Type} (G : Gmssl) (K : GmsslKeys Key)

/-- The key of `tlcp_send_client_key_exchange`: the subject key of certificate 1. -/
def clientKeyExchangePublicKey (conn : TlsConnect) : Option Key :=
  match tlsCertChainGetCertByIndexRaw G conn.peerCertChain 1 with
  | .absent => none
  | .error => none
  | .found encCert => K.x509CertGetSubjectPublicKey encCert

end

/-- A client in a run. `verified` is the key under which a ServerKeyExchange was accepted since the
last Certificate message, `encrypted` the key of the ClientKeyExchange. -/
structure TlcpClientRun (Key : Type) where
  conn : TlsConnect
  message : Option CertificateMessage
  verified : Option Key
  encrypted : Option Key

def TlcpClientRun.init (Key : Type) : TlcpClientRun Key := ⟨.init, none, none, none⟩

section

variable {PKey Key : Type} (E : Openssl PKey) (config : TlcpHybridCertAdapterConfig) (G : Gmssl)
  (K : GmsslKeys Key) (ctx : TlsCtx)

/-- A Certificate message that the adapter answers at the time `now`. -/
def adapterMessage (now : Int) (chain : Bytes) : CertificateMessage :=
  ⟨chain, adapterCallback E now (some config)⟩

inductive TlcpClientStep : TlcpClientRun Key → TlcpClientRun Key → Prop where
  | certificate {r : TlcpClientRun Key} {conn : TlsConnect} {verified : Verified} (now : Int)
      (entries : List Bytes) (chain : Bytes) :
      tlsRecordGetHandshakeCertificate G entries = some chain →
      tlcpRecvServerCertificate G (ctx.answering (adapterMessage E config now chain)) r.conn
        (some chain) = .continues conn verified →
      TlcpClientStep r ⟨conn, some (adapterMessage E config now chain), none, none⟩
  | serverKeyExchange {r : TlcpClientRun Key} {key : Key} (signature : Bytes) :
      tlcpRecvServerKeyExchange G K r.conn (some signature) = .checked key true →
      TlcpClientStep r { r with verified := some key }
  | clientKeyExchange {r : TlcpClientRun Key} {key : Key} :
      clientKeyExchangePublicKey G K r.conn = some key →
      TlcpClientStep r { r with encrypted := some key }
  | frame {r : TlcpClientRun Key} {conn : TlsConnect} : SameFields r.conn conn →
      TlcpClientStep r { r with conn := conn }

/-- A client that has taken any steps. -/
inductive TlcpClientReaches : TlcpClientRun Key → Prop where
  | init : TlcpClientReaches (.init Key)
  | step {r r' : TlcpClientRun Key} : TlcpClientReaches r → TlcpClientStep E config G K ctx r r' →
      TlcpClientReaches r'

/-! ## What a run has established -/

/-- The adapter has accepted the held chain: `a` and `b` are its first two certificates, as the key
exchange reads them, `s` and `e` what they decode to, and `octets` the key that was released. -/
structure Authenticated (conn : TlsConnect) (root s e : X509) (a b octets : Bytes) : Prop where
  dual : ∃ now, DualAccepted E now config (.buf conn.peerCertChain) root s e
  signing : tlsCertChainGetCertByIndexRaw G conn.peerCertChain 0 = .found a
  encryption : tlsCertChainGetCertByIndexRaw G conn.peerCertChain 1 = .found b
  decodes : DecodesTo E (.buf a) s ∧ DecodesTo E (.buf b) e
  key : sm2Component E s = some octets ∧ conn.tlcpHybridSm2PublicKey = octets

/-- GmSSL's verifier has accepted the held chain, and the adapter sees nothing Composite in its
first certificate, which is not one or names another algorithm. -/
structure Downgraded (conn : TlsConnect) (a : Bytes) : Prop where
  compatible : ctx.tlcpHybridCertExpected = false
  accepted : ∃ now, (G.tlsCertChainVerify (ctx.answering (adapterMessage E config now
    conn.peerCertChain)) conn.peerCertChain).isSome
  signing : tlsCertChainGetCertByIndexRaw G conn.peerCertChain 0 = .found a
  ordinary : ∀ s b r, decodeNextCertificate E (.buf conn.peerCertChain) = some (s, b, r) →
    certificateMentionsComposite s = false

/-- The keys that were used are those of certificate 0 and certificate 1. -/
structure UsesKeys (r : TlcpClientRun Key) (signKey : Key → Prop) : Prop where
  verified : ∀ key, r.verified = some key → signKey key
  encrypted : ∀ key, r.encrypted = some key → ∃ b,
    tlsCertChainGetCertByIndexRaw G r.conn.peerCertChain 1 = .found b ∧
      K.x509CertGetSubjectPublicKey b = some key

/-- The invariant of a run. -/
inductive TlcpClientRun.Inv (r : TlcpClientRun Key) : Prop where
  | start : r.message = none → r.conn.peerCertChain = [] → r.verified = none →
      r.encrypted = none → Inv r
  | hybrid {m : CertificateMessage} {root s e : X509} {a b octets : Bytes} : r.message = some m →
      r.conn.tlcpHybridSignCert = true → Authenticated E config G r.conn root s e a b octets →
      UsesKeys G K r (fun key => K.x509PublicKeyFromBytes octets = some (key, [])) → Inv r
  | ordinary {m : CertificateMessage} {a : Bytes} : r.message = some m →
      r.conn.tlcpHybridSignCert = false → Downgraded E config G ctx r.conn a →
      UsesKeys G K r (fun key => K.x509CertGetSubjectPublicKey a = some key) → Inv r

end

/-! ## One step -/

section

variable {PKey Key : Type} {E : Openssl PKey} {config : TlcpHybridCertAdapterConfig} {G : Gmssl}
  {K : GmsslKeys Key} {ctx : TlsCtx}

theorem adapterCallback_valid {now : Int} {chain key : Bytes}
    (h : (adapterCallback E now (some config) chain key).1 = gmsslTlcpHybridCertValid) :
    ∃ root s e octets, DualAccepted E now config (.buf chain) root s e ∧
      sm2Component E s = some octets ∧
      (adapterCallback E now (some config) chain key).2 = octets := by
  have hvalid : (tlcpHybridCertGmsslVerifyCallback E now (.buf chain) (some key)
      (some config)).result = .valid := by
    simp only [adapterCallback] at h
    cases hr : (tlcpHybridCertGmsslVerifyCallback E now (.buf chain) (some key)
        (some config)).result with
    | valid => rfl
    | invalid =>
      rw [hr] at h
      cases h
    | notApplicable =>
      rw [hr] at h
      cases h
  have hdual : ∃ root s e, DualAccepted E now config (.buf chain) root s e := by
    by_contra hno
    exact (callback_of_not_accepted key fun root s e hd => hno ⟨root, s, e, hd⟩).1 hvalid
  obtain ⟨root, s, e, hd⟩ := hdual
  obtain ⟨leaf, hleaf⟩ := hd.signing.leaf_key
  obtain ⟨_, hkey, _⟩ := callback_of_accepted key hd
  refine ⟨root, s, e, _, hd, (sm2Component_of_get hleaf).2, ?_⟩
  rw [adapterCallback, hkey]
  rfl

theorem adapterCallback_notApplicable {now : Int} {chain key b r : Bytes} {c : X509}
    (h : (adapterCallback E now (some config) chain key).1 = gmsslTlcpHybridCertNotApplicable)
    (hn : decodeNextCertificate E (.buf chain) = some (c, b, r)) :
    certificateMentionsComposite c = false := by
  have hiff : (tlcpHybridCertGmsslVerifyCallback E now (.buf chain) (some key)
      (some config)).result = .notApplicable ↔ certificateMentionsComposite c = false :=
    callback_notApplicable_iff hn
  refine hiff.mp ?_
  simp only [adapterCallback] at h
  cases hr : (tlcpHybridCertGmsslVerifyCallback E now (.buf chain) (some key)
      (some config)).result with
  | notApplicable => rfl
  | invalid =>
    rw [hr] at h
    cases h
  | valid =>
    rw [hr] at h
    cases h

/-- The adapter keeps to the three values. -/
theorem adapterCallback_values (now : Int) (chain key : Bytes) :
    (adapterCallback E now (some config) chain key).1 = gmsslTlcpHybridCertInvalid ∨
      (adapterCallback E now (some config) chain key).1 = gmsslTlcpHybridCertNotApplicable ∨
      (adapterCallback E now (some config) chain key).1 = gmsslTlcpHybridCertValid := by
  simp only [adapterCallback]
  cases (tlcpHybridCertGmsslVerifyCallback E now (.buf chain) (some key) (some config)).result with
  | invalid => exact .inl rfl
  | notApplicable => exact .inr (.inl rfl)
  | valid => exact .inr (.inr rfl)

/-- The two certificates that the adapter has read are those of the indices 0 and 1. -/
theorem startsWith_found {limit : Nat} (hlimit : limit ≤ Ber.maxLen)
    (hread : Ber.StrictTlvReader limit 0x30 G.asn1AnyFromDer) {entries : List Bytes} {chain : Bytes}
    {s e : X509} (hstored : tlsRecordGetHandshakeCertificate G entries = some chain)
    (h : StartsWith E (.buf chain) s e) :
    ∃ a b, tlsCertChainGetCertByIndexRaw G chain 0 = .found a ∧
      tlsCertChainGetCertByIndexRaw G chain 1 = .found b ∧
      DecodesTo E (.buf a) s ∧ DecodesTo E (.buf b) e := by
  obtain ⟨rfl, hes⟩ := (tlsRecordGetHandshakeCertificate_iff hread).mp hstored
  obtain ⟨a, r, b, r', hs, he⟩ := startsWith_iff.mp h
  obtain ⟨es, rfl, rfl⟩ := decodeNextCertificate_flatten hlimit hes hs
  obtain ⟨es', rfl, rfl⟩ := decodeNextCertificate_flatten hlimit (List.forall_mem_cons.mp hes).2 he
  refine ⟨a, b, ?_, ?_, ?_, ?_⟩
  · exact tlsCertChainGetCertByIndexRaw_flatten hread hes (by simp) 0
  · exact tlsCertChainGetCertByIndexRaw_flatten hread hes (by simp) 1
  · exact decodesTo_iff.mpr (decodeDerStrict_of_next hs)
  · exact decodesTo_iff.mpr (decodeDerStrict_of_next he)

theorem clientKeyExchangePublicKey_some {conn : TlsConnect} {key : Key}
    (h : clientKeyExchangePublicKey G K conn = some key) :
    ∃ b, tlsCertChainGetCertByIndexRaw G conn.peerCertChain 1 = .found b ∧
      K.x509CertGetSubjectPublicKey b = some key := by
  simp only [clientKeyExchangePublicKey] at h
  cases hraw : tlsCertChainGetCertByIndexRaw G conn.peerCertChain 1 with
  | absent =>
    rw [hraw] at h
    cases h
  | error =>
    rw [hraw] at h
    cases h
  | found b =>
    rw [hraw] at h
    exact ⟨b, rfl, h⟩

theorem UsesKeys.none {conn : TlsConnect} {m : Option CertificateMessage} {signKey : Key → Prop} :
    UsesKeys G K ⟨conn, m, none, none⟩ signKey where
  verified _ h := by cases h
  encrypted _ h := by cases h

theorem UsesKeys.verify {r : TlcpClientRun Key} {signKey : Key → Prop} {key : Key}
    (h : UsesKeys G K r signKey) (hkey : signKey key) :
    UsesKeys G K { r with verified := some key } signKey where
  verified _ hv := by
    cases hv
    exact hkey
  encrypted := h.encrypted

theorem UsesKeys.encrypt {r : TlcpClientRun Key} {signKey : Key → Prop} {key : Key}
    (h : UsesKeys G K r signKey) (hkey : clientKeyExchangePublicKey G K r.conn = some key) :
    UsesKeys G K { r with encrypted := some key } signKey where
  verified := h.verified
  encrypted _ he := by
    cases he
    exact clientKeyExchangePublicKey_some hkey

theorem UsesKeys.frame {r : TlcpClientRun Key} {conn : TlsConnect} {signKey : Key → Prop}
    (h : UsesKeys G K r signKey) (hs : SameFields r.conn conn) :
    UsesKeys G K { r with conn := conn } signKey where
  verified := h.verified
  encrypted key he := by
    obtain ⟨b, hraw, hkey⟩ := h.encrypted key he
    refine ⟨b, ?_, hkey⟩
    change tlsCertChainGetCertByIndexRaw G conn.peerCertChain 1 = _
    rw [hs.chain, hraw]

theorem Authenticated.frame {conn conn' : TlsConnect} {root s e : X509} {a b octets : Bytes}
    (h : Authenticated E config G conn root s e a b octets) (hs : SameFields conn conn') :
    Authenticated E config G conn' root s e a b octets where
  dual := by rw [hs.chain]; exact h.dual
  signing := by rw [hs.chain]; exact h.signing
  encryption := by rw [hs.chain]; exact h.encryption
  decodes := h.decodes
  key := ⟨h.key.1, hs.key.trans h.key.2⟩

theorem Downgraded.frame {conn conn' : TlsConnect} {a : Bytes}
    (h : Downgraded E config G ctx conn a) (hs : SameFields conn conn') :
    Downgraded E config G ctx conn' a where
  compatible := h.compatible
  accepted := by rw [hs.chain]; exact h.accepted
  signing := by rw [hs.chain]; exact h.signing
  ordinary := by rw [hs.chain]; exact h.ordinary

/-- The handshake goes on where the adapter accepts, under either policy. -/
theorem tlcpRecvServerCertificate_accepted {limit : Nat} (hlimit : limit ≤ Ber.maxLen)
    (hread : Ber.StrictTlvReader limit 0x30 G.asn1AnyFromDer)
    (hcb : ctx.tlcpHybridCertVerifyCb.isSome = true) {now : Int} {entries : List Bytes}
    {chain : Bytes} {root s e : X509}
    (hstored : tlsRecordGetHandshakeCertificate G entries = some chain)
    (hdual : DualAccepted E now config (.buf chain) root s e) (conn : TlsConnect) :
    ∃ conn', tlcpRecvServerCertificate G (ctx.answering (adapterMessage E config now chain)) conn
        (some chain) = .continues conn' ⟨.ok, .sm2sigSm3⟩ ∧
      conn'.peerCertChain = chain ∧ conn'.tlcpHybridSignCert = true := by
  obtain ⟨cb, hcb⟩ := Option.isSome_iff_exists.mp hcb
  obtain ⟨a, b, h0, _⟩ := startsWith_found hlimit hread hstored hdual.certificates
  have hvalid := (callback_of_accepted (Bytes.zeros tlcpHybridCertSm2PublicKeySize) hdual).1
  have hret : (adapterCallback E now (some config) chain
      (Bytes.zeros tlcpHybridCertSm2PublicKeySize)).1 = gmsslTlcpHybridCertValid := by
    rw [adapterCallback, hvalid]
    rfl
  have h1 : gmsslTlcpHybridCertValid ≠ gmsslTlcpHybridCertInvalid := by decide
  have h2 : gmsslTlcpHybridCertValid ≠ gmsslTlcpHybridCertNotApplicable := by decide
  simp only [tlcpRecvServerCertificate, answering_callback hcb, h0, adapterMessage, hret, h1, h2,
    false_and, or_self, if_false, if_true]
  exact ⟨_, rfl, rfl, rfl⟩

variable {limit : Nat} (hlimit : limit ≤ Ber.maxLen)
  (hread : Ber.StrictTlvReader limit 0x30 G.asn1AnyFromDer)
  (hcb : ctx.tlcpHybridCertVerifyCb.isSome = true)

include hlimit hread hcb in
/-- What the flag says where the handshake goes on. -/
theorem authenticated_of_continues {conn conn' : TlsConnect} {verified : Verified} {now : Int}
    {entries : List Bytes} {chain : Bytes}
    (hstored : tlsRecordGetHandshakeCertificate G entries = some chain)
    (h : tlcpRecvServerCertificate G (ctx.answering (adapterMessage E config now chain)) conn
      (some chain) = .continues conn' verified) (hflag : conn'.tlcpHybridSignCert = true) :
    ∃ root s e a b octets, Authenticated E config G conn' root s e a b octets := by
  obtain ⟨cb, hcb⟩ := Option.isSome_iff_exists.mp hcb
  obtain ⟨hchain, _, hkey, hvalid, _, _⟩ :=
    tlcpRecvServerCertificate_with (answering_callback hcb) h
  subst hchain
  obtain ⟨root, s, e, octets, hdual, hoctets, hout⟩ := adapterCallback_valid (hvalid.mp hflag)
  obtain ⟨a, b, h0, h1, hs, he⟩ := startsWith_found hlimit hread hstored hdual.certificates
  exact ⟨root, s, e, a, b, octets, ⟨now, hdual⟩, h0, h1, ⟨hs, he⟩, hoctets, hkey.trans hout⟩

include hlimit hread hcb in
/-- A Certificate message after which the handshake goes on, whatever was before it. -/
theorem inv_certificate {conn conn' : TlsConnect} {verified : Verified} {now : Int}
    {entries : List Bytes} {chain : Bytes}
    (hstored : tlsRecordGetHandshakeCertificate G entries = some chain)
    (h : tlcpRecvServerCertificate G (ctx.answering (adapterMessage E config now chain)) conn
      (some chain) = .continues conn' verified) :
    TlcpClientRun.Inv E config G K ctx
      ⟨conn', some (adapterMessage E config now chain), none, none⟩ := by
  obtain ⟨cb, hcb'⟩ := Option.isSome_iff_exists.mp hcb
  obtain ⟨hchain, ⟨cert, hcert⟩, _, hflag, hinv, hna⟩ :=
    tlcpRecvServerCertificate_with (answering_callback hcb') h
  subst hchain
  cases hf : conn'.tlcpHybridSignCert with
  | true =>
    obtain ⟨root, s, e, a, b, octets, hauth⟩ :=
      authenticated_of_continues hlimit hread hcb hstored h hf
    exact .hybrid rfl hf hauth .none
  | false =>
    have hne : ¬ (adapterCallback E now (some config) conn'.peerCertChain
        (Bytes.zeros tlcpHybridCertSm2PublicKeySize)).1 = gmsslTlcpHybridCertValid := by
      intro hv
      rw [hflag.mpr hv] at hf
      cases hf
    have hvalue := (adapterCallback_values now conn'.peerCertChain _).resolve_left hinv
    have hvalue := hvalue.resolve_right hne
    obtain ⟨hexp, hacc⟩ := hna hvalue
    refine .ordinary rfl hf ⟨hexp, ⟨now, ?_⟩, hcert, ?_⟩ .none
    · rw [hacc]
      rfl
    · intro s b r hn
      exact adapterCallback_notApplicable hvalue hn

/-- A ServerKeyExchange is checked with the key of the invariant. -/
theorem inv_serverKeyExchange {r : TlcpClientRun Key} {key : Key} {signature : Bytes}
    (hr : r.Inv E config G K ctx)
    (h : tlcpRecvServerKeyExchange G K r.conn (some signature) = .checked key true) :
    TlcpClientRun.Inv E config G K ctx { r with verified := some key } := by
  obtain ⟨_, _, _, hchoice⟩ := tlcpRecvServerKeyExchange_checked h
  obtain ⟨_, cert, hraw, hset, hunset⟩ := serverKeyExchangeSignKey_some hchoice
  cases hr with
  | start _ hempty _ _ =>
    rw [hempty] at hraw
    cases hraw
  | hybrid hm hf hauth hkeys =>
    refine .hybrid hm hf hauth (hkeys.verify ?_)
    rw [← hauth.key.2]
    exact hset hf
  | ordinary hm hf hdown hkeys =>
    refine .ordinary hm hf hdown (hkeys.verify ?_)
    have hcert := hdown.signing
    rw [hraw] at hcert
    cases hcert
    exact hunset hf

theorem inv_clientKeyExchange {r : TlcpClientRun Key} {key : Key} (hr : r.Inv E config G K ctx)
    (h : clientKeyExchangePublicKey G K r.conn = some key) :
    TlcpClientRun.Inv E config G K ctx { r with encrypted := some key } := by
  cases hr with
  | start _ hempty _ _ =>
    obtain ⟨b, hraw, _⟩ := clientKeyExchangePublicKey_some h
    rw [hempty] at hraw
    cases hraw
  | hybrid hm hf hauth hkeys => exact .hybrid hm hf hauth (hkeys.encrypt h)
  | ordinary hm hf hdown hkeys => exact .ordinary hm hf hdown (hkeys.encrypt h)

theorem inv_frame {r : TlcpClientRun Key} {conn : TlsConnect} (hr : r.Inv E config G K ctx)
    (hs : SameFields r.conn conn) : TlcpClientRun.Inv E config G K ctx { r with conn := conn } := by
  cases hr with
  | start hm hempty hv he => exact .start hm (hs.chain.trans hempty) hv he
  | hybrid hm hf hauth hkeys =>
    exact .hybrid hm (hs.flag.trans hf) (hauth.frame hs) (hkeys.frame hs)
  | ordinary hm hf hdown hkeys =>
    exact .ordinary hm (hs.flag.trans hf) (hdown.frame hs) (hkeys.frame hs)

include hlimit hread hcb in
theorem TlcpClientReaches.inv {r : TlcpClientRun Key} (h : TlcpClientReaches E config G K ctx r) :
    r.Inv E config G K ctx := by
  induction h with
  | init => exact .start rfl rfl rfl rfl
  | step _ hstep ih =>
    cases hstep with
    | certificate now entries chain hstored hc =>
      exact inv_certificate hlimit hread hcb hstored hc
    | serverKeyExchange signature hc => exact inv_serverKeyExchange ih hc
    | clientKeyExchange hc => exact inv_clientKeyExchange ih hc
    | frame hs => exact inv_frame ih hs

end

/-- **A client authenticates its peer.** Whatever a peer sends, in any order and at any times, a
client that was set up with the adapter and has gone on after a Certificate message is in one of two
cases. Its flag is set: then the adapter accepted the two certificates at the front of the held
chain under the trust anchor, all four issuer signatures verify under the anchor's Composite key,
a ServerKeyExchange was accepted under the SM2 component of the first, and the premaster secret was
encrypted for the second. Or its flag is off: then the strict policy is off, GmSSL's verifier
accepted, the first certificate is not a Composite one, and its own key was used. -/
theorem client_run_authenticated {PKey Key : Type} (E : Openssl PKey)
    (config : TlcpHybridCertAdapterConfig) (G : Gmssl) (K : GmsslKeys Key) {limit : Nat}
    (hlimit : limit ≤ Ber.maxLen) (hread : Ber.StrictTlvReader limit 0x30 G.asn1AnyFromDer)
    {ctx₀ ctx : TlsCtx} {now₀ expected : Int}
    (hset : tlsCtxSetTlcpHybridCertVerify ctx₀ expected
      (some (adapterCallback E now₀ (some config))) = some ctx)
    {r : TlcpClientRun Key} (h : TlcpClientReaches E config G K ctx r) {m : CertificateMessage}
    (hm : r.message = some m) :
    (r.conn.tlcpHybridSignCert = true ∧ ∃ root s e a b octets,
      Authenticated E config G r.conn root s e a b octets ∧
      (∀ key, hybridX509GetCompositePublicKey E root = some key →
        (DilithiumVerifies E key s ∧ Sm2Verifies E key s) ∧
          DilithiumVerifies E key e ∧ Sm2Verifies E key e) ∧
      (∀ key, r.verified = some key → K.x509PublicKeyFromBytes octets = some (key, [])) ∧
      ∀ key, r.encrypted = some key → K.x509CertGetSubjectPublicKey b = some key) ∨
    (r.conn.tlcpHybridSignCert = false ∧ expected = 0 ∧ ∃ a, Downgraded E config G ctx r.conn a ∧
      ∀ key, r.verified = some key → K.x509CertGetSubjectPublicKey a = some key) := by
  simp only [tlsCtxSetTlcpHybridCertVerify] at hset
  split at hset
  · cases hset
  cases hset
  cases h.inv hlimit hread rfl with
  | start hno _ _ _ =>
    rw [hno] at hm
    cases hm
  | @hybrid _ root s e a b octets _ hf hauth hkeys =>
    refine .inl ⟨hf, root, s, e, a, b, octets, hauth, ?_, hkeys.verified, ?_⟩
    · intro key hkey
      obtain ⟨now, hdual⟩ := hauth.dual
      exact hdual.verifies hkey
    · intro key he
      obtain ⟨b', hraw, hkey⟩ := hkeys.encrypted key he
      rw [hauth.encryption] at hraw
      cases hraw
      exact hkey
  | @ordinary _ a _ hf hdown hkeys =>
    refine .inr ⟨hf, ?_, a, hdown, hkeys.verified⟩
    have hexp := hdown.compatible
    simpa using hexp

/-- A strict client takes the sample message. -/
theorem client_run_authenticated_strict : ∃ config ctx, ∃ r : TlcpClientRun Bytes,
    TlcpClientReaches Toy.issueLib.toOpenssl config Toy.gmssl Toy.octetKeys ctx r ∧
    ∃ root s e a b octets,
      Authenticated Toy.issueLib.toOpenssl config Toy.gmssl r.conn root s e a b octets := by
  obtain ⟨root, s, e, hrs, hre, hdual⟩ := Toy.dual_exists
  have hstored : tlsRecordGetHandshakeCertificate Toy.gmssl
      [Ber.encode s.toBer, Ber.encode e.toBer] =
        some (Ber.encode s.toBer ++ Ber.encode e.toBer) :=
    (tlsRecordGetHandshakeCertificate_iff Toy.gmssl_reader).mpr
      ⟨by simp, by simp [Toy.isDerTlv_encode hrs, Toy.isDerTlv_encode hre]⟩
  let config : TlcpHybridCertAdapterConfig := ⟨.buf (Ber.encode root.toBer), none, false⟩
  let cb := adapterCallback Toy.issueLib.toOpenssl Toy.issueTime (some config)
  let ctx : TlsCtx := ⟨.tlcp, true, some cb⟩
  have hset : tlsCtxSetTlcpHybridCertVerify ⟨.tlcp, false, none⟩ 1 (some cb) = some ctx := rfl
  have hcb : ctx.tlcpHybridCertVerifyCb.isSome = true := rfl
  obtain ⟨conn, hc, _, hflag⟩ := tlcpRecvServerCertificate_accepted
    (Nat.le_refl Ber.maxLen) Toy.gmssl_reader hcb hstored hdual .init
  have hreach := TlcpClientReaches.init.step
    (.certificate (K := Toy.octetKeys) Toy.issueTime _ _ hstored hc)
  refine ⟨config, _, _, hreach, ?_⟩
  obtain ⟨_, root, s, e, a, b, octets, hauth, _⟩ | ⟨hoff, _⟩ :=
    client_run_authenticated Toy.issueLib.toOpenssl config Toy.gmssl Toy.octetKeys
      (Nat.le_refl Ber.maxLen) Toy.gmssl_reader hset hreach rfl
  · exact ⟨root, s, e, a, b, octets, hauth⟩
  · rw [hflag] at hoff
    cases hoff

end HybridPqc
