import HybridPqc.Tlcp.ClientRun
import HybridPqc.Tlcp.PemLoader

/-!
# Tlcp.ServerContext

The server's side of the hybrid chain in `tls_cert.c` and `tls.c`: a chain file becomes the identity
of a context, and the chain goes into a Certificate message.

The patches show parts of `tlcp_ctx_add_certificate_and_keys`. What GmSSL does between these parts
is in `GmsslServer`: it goes on or it ends the function. The model ends where the last patched part
does, with what the function has taken out of the chain by then.

* `hybrid_server_iff`: which chain files make an identity, with the adapter as the callback.
* `hybrid_server_and_client_agree`: the chain survives the Certificate message, and a client that
  goes on in hybrid mode uses the two keys that the server has taken out of its chain.
-/

namespace HybridPqc

/-- GmSSL's own functions for an ordinary chain, and the unmodified stretches behind the chain, the
signing key and the encryption key. -/
structure GmsslServer (Key Stream : Type) where
  x509CertsFromPem : Bytes → UInt64 → Stream → PemLoaded
  tlcpCertChainCheckOrder : Bytes → Bool
  x509CertsGetCertByIndex : Bytes → Int → Option Bytes
  behindChain : Bytes → Bool
  behindSignKey : Bytes → Key → Bool
  behindEncKey : Bytes → Key → Key → Bool

/-- The fields of `TLS_CTX` that the server's side uses besides the callback. -/
structure TlcpServerCtx extends TlsCtx where
  isClient : Bool
  certChains : Bytes
  certChainsLen : UInt64
  x509KeysCnt : UInt64

def tlsUint24Size : Nat := 3

/-- What the function has taken out of the chain when it ends. -/
structure ServerIdentity (Key : Type) where
  certs : Bytes
  signKey : Key
  encKey : Key

/-- The test `… == 1` on the splitter. -/
def RawCertificate.toOption : RawCertificate → Option Bytes
  | .found cert => some cert
  | .absent => none
  | .error => none

section

variable {Key Stream : Type} (G : Gmssl) (P : GmsslPem Stream) (K : GmsslKeys Key)
  (S : GmsslServer Key Stream)

/-- The signing key under `if (hybrid_sign_cert)`; `stack` is what is in `hybrid_sm2_public_key`
before. -/
def hybridSignPublicKey (ctx : TlsCtx) (stack certs : Bytes) : Option Key :=
  match ctx.tlcpHybridCertVerifyCb with
  | none => none
  | some cb =>
    let (ret, hybridSm2PublicKey) := cb certs stack
    if ret ≠ gmsslTlcpHybridCertValid then none
    else
      match K.x509PublicKeyFromBytes hybridSm2PublicKey with
      | none => none
      | some (publicKey, rest) => if rest.length ≠ 0 then none else some publicKey

/-- The certificate of an index, by the splitter for a hybrid chain. -/
def serverCertByIndex (certs : Bytes) (index : Int) (hybridSignCert : Bool) : Option Bytes :=
  if hybridSignCert then (tlsCertChainGetCertByIndexRaw G certs index).toOption
  else S.x509CertsGetCertByIndex certs index

/-- `tlcp_ctx_add_certificate_and_keys` behind the loader. -/
def tlcpCtxAddKeys (ctx : TlsCtx) (stack certs : Bytes) (hybridSignCert : Bool) :
    Option (ServerIdentity Key) := do
  guard (hybridSignCert || S.tlcpCertChainCheckOrder certs)
  guard (S.behindChain certs)
  let cert ← serverCertByIndex G S certs 0 hybridSignCert
  let signKey ←
    if hybridSignCert then hybridSignPublicKey K ctx stack certs
    else K.x509CertGetSubjectPublicKey cert
  guard (S.behindSignKey certs signKey)
  let cert ← serverCertByIndex G S certs 1 hybridSignCert
  let encKey ← K.x509CertGetSubjectPublicKey cert
  guard (S.behindEncKey certs signKey encKey)
  return ⟨certs, signKey, encKey⟩

/-- `tlcp_ctx_add_certificate_and_keys`: `some none` is -1, and `none` says that the fuel of the
loader has run out. -/
def tlcpCtxAddCertificateAndKeys (fuel : Nat) (ctx : TlcpServerCtx) (stack : Bytes) (fp : Stream)
    (hybridSignCert : Bool) : Option (Option (ServerIdentity Key)) :=
  let certs := ctx.certChains.drop (ctx.certChainsLen.toNat + tlsUint24Size)
  let maxlen := UInt64.ofNat ctx.certChains.length - ctx.certChainsLen - UInt64.ofNat tlsUint24Size
  let loaded :=
    if hybridSignCert then tlcpHybridCertsFromPem G P fuel certs maxlen fp
    else some (S.x509CertsFromPem certs maxlen fp)
  loaded.map fun loaded =>
    if loaded.ret ≠ 1 then none
    else tlcpCtxAddKeys G K S ctx.toTlsCtx stack (loaded.buffer.take loaded.certslen.toNat)
      hybridSignCert

def tlsCtxSetTlcpHybridServerCertificateAndKeys (fuel : Nat) (ctx : TlcpServerCtx) (stack : Bytes)
    (fp : Stream) : Option (Option (ServerIdentity Key)) :=
  if ctx.isClient ∨ ctx.certChainsLen ≠ 0 ∨ ctx.x509KeysCnt ≠ 0 ∨
      ctx.tlcpHybridCertVerifyCb.isNone then some none
  else tlcpCtxAddCertificateAndKeys G P K S fuel ctx stack fp true

/-- The loop of `tls_record_set_handshake_certificate`: the entries of the message. `some none` is
-1, and `none` says that the fuel has run out. -/
def tlsRecordSetHandshakeCertificate : Nat → Bytes → Option (Option (List Bytes))
  | _, [] => some (some [])
  | 0, _ :: _ => none
  | fuel + 1, x :: certs =>
    match tlsRawCertificateFromDer G (x :: certs) with
    | none => some none
    | some (cert, rest) =>
      (tlsRecordSetHandshakeCertificate fuel rest).map fun entries => entries.map (cert :: ·)

end

/-! ## The Certificate message -/

section

variable {G : Gmssl} {limit : Nat} (hread : Ber.StrictTlvReader limit 0x30 G.asn1AnyFromDer)
include hread

/-- A chain of elements is split into these elements. -/
theorem tlsRecordSetHandshakeCertificate_flatten {es : List Bytes}
    (hes : ∀ e ∈ es, Ber.IsDerTlv limit 0x30 e) {fuel : Nat} (hfuel : es.length ≤ fuel) :
    tlsRecordSetHandshakeCertificate G fuel es.flatten = some (some es) := by
  induction es generalizing fuel with
  | nil =>
    cases fuel with
    | zero => rfl
    | succ fuel => rfl
  | cons e es ih =>
    obtain ⟨he, hes⟩ := List.forall_mem_cons.mp hes
    rw [List.length_cons] at hfuel
    obtain ⟨fuel, rfl⟩ := Nat.exists_eq_add_one_of_ne_zero (Nat.ne_zero_of_lt hfuel)
    have hraw : tlsRawCertificateFromDer G (e ++ es.flatten) = some (e, es.flatten) :=
      (tlsRawCertificateFromDer_iff hread).mpr ⟨rfl, he⟩
    obtain ⟨x, xs, hx⟩ :=
      List.exists_cons_of_ne_nil (List.append_ne_nil_of_left_ne_nil he.ne_nil es.flatten)
    rw [List.flatten_cons, hx]
    rw [hx] at hraw
    have hrest := ih hes (Nat.le_of_succ_le_succ hfuel)
    simp only [tlsRecordSetHandshakeCertificate, hraw, hrest, Option.map_some]

end

/-! ## The identity of a server -/

section

variable {PKey Key Stream : Type} (E : Openssl PKey) (config : TlcpHybridCertAdapterConfig)
  (K : GmsslKeys Key) (S : GmsslServer Key Stream) (limit : Nat)

/-- The chain `bodies` makes the identity `identity`, at the time `now`. -/
structure MakesIdentity (now : Int) (bodies : List Bytes) (identity : ServerIdentity Key) :
    Prop where
  certs : identity.certs = bodies.flatten
  tlvs : ∀ e ∈ bodies, Ber.IsDerTlv limit 0x30 e
  signing : ∃ root s e octets, DualAccepted E now config (.buf identity.certs) root s e ∧
    sm2Component E s = some octets ∧
    K.x509PublicKeyFromBytes octets = some (identity.signKey, [])
  encryption : ∃ b, bodies[1]? = some b ∧ K.x509CertGetSubjectPublicKey b = some identity.encKey
  goesOn : S.behindChain identity.certs = true ∧
    S.behindSignKey identity.certs identity.signKey = true ∧
    S.behindEncKey identity.certs identity.signKey identity.encKey = true

end

section

variable {PKey Key Stream : Type} {E : Openssl PKey} {config : TlcpHybridCertAdapterConfig}
  {G : Gmssl} {P : GmsslPem Stream} {K : GmsslKeys Key} {S : GmsslServer Key Stream}
  {limit : Nat}

/-- What the loader leaves, for any stream. -/
theorem tlcpHybridCertsFromPem_cases {blocks : Stream → List (Option Bytes)}
    (hread : Ber.StrictTlvReader limit 0x30 G.asn1AnyFromDer)
    (hP : P.Reads pemNameCertificate blocks) (certs : Bytes) (maxlen : UInt64)
    (fp : Stream) :
    ∃ loaded, (∀ fuel, (blocks fp).length < fuel →
        tlcpHybridCertsFromPem G P fuel certs maxlen fp = some loaded) ∧
      ((∃ bodies : List Bytes, blocks fp = bodies.map some ∧
          (∀ e ∈ bodies, Ber.IsDerTlv limit 0x30 e) ∧ bodies.flatten.length ≤ maxlen.toNat ∧
          loaded.buffer.take loaded.certslen.toNat = bodies.flatten ∧
          (loaded.ret = 1 ↔ bodies ≠ [])) ∨
        loaded.ret ≠ 1 ∧ PemRejected limit maxlen.toNat (blocks fp)) := by
  obtain ⟨bodies, s, hblocks, hs, hrun⟩ | ⟨bodies, b, rest, r, hblocks, hrej, hret, hrun⟩ :=
    pemLoop_runs hread hP (.start limit certs maxlen fp) (s := pemStart certs maxlen fp) rfl
  · rw [List.nil_append] at hs
    refine ⟨s.loaded, hrun, .inl ⟨bodies, hblocks, hs.tlvs, ?_, ?_, hs.loaded_ret_one⟩⟩
    · have hspace := hs.space
      omega
    · change s.buffer.take s.certslen.toNat = _
      rw [hs.certslen, hs.buffer, List.take_left]
  · refine ⟨r, hrun, .inr ⟨?_, bodies, b, rest, hblocks, hrej⟩⟩
    rw [hret]
    decide

/-- The signing key, with the adapter as the callback. -/
theorem hybridSignPublicKey_iff {ctx : TlsCtx} {now : Int} {stack certs : Bytes} {key : Key}
    (hcb : ctx.tlcpHybridCertVerifyCb = some (adapterCallback E now (some config))) :
    hybridSignPublicKey K ctx stack certs = some key ↔
      ∃ root s e octets, DualAccepted E now config (.buf certs) root s e ∧
        sm2Component E s = some octets ∧ K.x509PublicKeyFromBytes octets = some (key, []) := by
  simp only [hybridSignPublicKey, hcb]
  constructor
  · intro h
    split at h
    · cases h
    rename_i hret
    obtain ⟨root, s, e, octets, hdual, hoctets, hout⟩ := adapterCallback_valid (not_not.mp hret)
    rw [hout] at h
    split at h
    · cases h
    rename_i publicKey rest hparse
    split at h
    · cases h
    rename_i hrest
    cases h
    cases List.eq_nil_of_length_eq_zero (not_not.mp hrest)
    exact ⟨root, s, e, octets, hdual, hoctets, hparse⟩
  · rintro ⟨root, s, e, octets, hdual, hoctets, hparse⟩
    obtain ⟨leaf, hleaf⟩ := hdual.signing.leaf_key
    have hlast := (sm2Component_of_get hleaf).2
    rw [hoctets] at hlast
    cases hlast
    obtain ⟨hvalid, hkey, _⟩ := callback_of_accepted stack hdual
    have hret : adapterCallback E now (some config) certs stack =
        (gmsslTlcpHybridCertValid,
          s.tbsCertificate.subjectPublicKeyInfo.publicKey.data.drop 1312) := by
      rw [adapterCallback, hvalid, hkey]
      rfl
    simp [hret, hparse]

theorem toOption_found {raw : RawCertificate} {cert : Bytes} :
    raw.toOption = some cert ↔ raw = .found cert := by
  cases raw with
  | found c => simp [RawCertificate.toOption]
  | absent => simp [RawCertificate.toOption]
  | error => simp [RawCertificate.toOption]

/-- The identity that a loaded chain makes. -/
theorem tlcpCtxAddKeys_iff (hread : Ber.StrictTlvReader limit 0x30 G.asn1AnyFromDer) {ctx : TlsCtx}
    {now : Int} (hcb : ctx.tlcpHybridCertVerifyCb = some (adapterCallback E now (some config)))
    {stack : Bytes} {bodies : List Bytes} (hne : bodies ≠ [])
    (htlvs : ∀ e ∈ bodies, Ber.IsDerTlv limit 0x30 e) {identity : ServerIdentity Key} :
    tlcpCtxAddKeys G K S ctx stack bodies.flatten true = some identity ↔
      MakesIdentity E config K S limit now bodies identity := by
  have hraw (i : Nat) (cert : Bytes) : serverCertByIndex G S bodies.flatten i true = some cert ↔
      bodies[i]? = some cert := by
    rw [serverCertByIndex, if_pos rfl, toOption_found,
      tlsCertChainGetCertByIndexRaw_flatten hread htlvs hne]
    cases bodies[i]? with
    | none => simp
    | some e => simp
  have hraw0 := hraw 0
  have hraw1 := hraw 1
  rw [Nat.cast_zero] at hraw0
  rw [Nat.cast_one] at hraw1
  simp only [tlcpCtxAddKeys, Bool.true_or, if_true, Option.bind_eq_bind, Option.bind_eq_some_iff,
    Option.guard_eq_some', hraw0, hraw1]
  constructor
  · rintro ⟨_, _, _, hb, _, _, signKey, hsign, _, hbs, b, h1, encKey, henc, _, hbe, hret⟩
    cases hret
    exact ⟨rfl, htlvs, (hybridSignPublicKey_iff hcb).mp hsign, ⟨b, h1, henc⟩, hb, hbs, hbe⟩
  · intro h
    obtain ⟨certs, signKey, encKey⟩ := identity
    obtain rfl : certs = bodies.flatten := h.certs
    obtain ⟨b, h1, henc⟩ := h.encryption
    obtain ⟨a, bodies', rfl⟩ := List.exists_cons_of_ne_nil hne
    exact ⟨(), trivial, (), h.goesOn.1, a, rfl, signKey,
      (hybridSignPublicKey_iff hcb).mpr h.signing, (), h.goesOn.2.1, b, h1, encKey, henc, (),
      h.goesOn.2.2, rfl⟩

end

/-! ## Server and client -/

/-- A server's context without certificates, whose buffer holds the three length octets. -/
structure TlcpServerCtx.Fresh (ctx : TlcpServerCtx) : Prop where
  isServer : ctx.isClient = false
  noCerts : ctx.certChainsLen = 0
  noKeys : ctx.x509KeysCnt = 0

section

variable {PKey Key Stream : Type} {E : Openssl PKey} {config : TlcpHybridCertAdapterConfig}
  {G : Gmssl} {P : GmsslPem Stream} {K : GmsslKeys Key} {S : GmsslServer Key Stream}
  {limit : Nat}

theorem MakesIdentity.ne_nil {now : Int} {bodies : List Bytes} {identity : ServerIdentity Key}
    (h : MakesIdentity E config K S limit now bodies identity) : bodies ≠ [] := by
  obtain ⟨b, hb, _⟩ := h.encryption
  intro hnil
  rw [hnil] at hb
  cases hb

/-- The certificates of the identity, as the splitter finds them. -/
theorem MakesIdentity.found (hread : Ber.StrictTlvReader limit 0x30 G.asn1AnyFromDer) {now : Int}
    {bodies : List Bytes} {identity : ServerIdentity Key}
    (h : MakesIdentity E config K S limit now bodies identity) (i : Nat) {e : Bytes}
    (he : bodies[i]? = some e) :
    tlsCertChainGetCertByIndexRaw G identity.certs i = .found e := by
  rw [h.certs, tlsCertChainGetCertByIndexRaw_flatten hread h.tlvs h.ne_nil, he]

/-- A client in hybrid mode that holds the server's chain has used the server's keys. -/
theorem MakesIdentity.agrees (hread : Ber.StrictTlvReader limit 0x30 G.asn1AnyFromDer) {now : Int}
    {bodies : List Bytes} {identity : ServerIdentity Key}
    (h : MakesIdentity E config K S limit now bodies identity)
    {config' : TlcpHybridCertAdapterConfig} {r : TlcpClientRun Key} {root s e : X509}
    {a b octets : Bytes} (hchain : r.conn.peerCertChain = identity.certs)
    (hauth : Authenticated E config' G r.conn root s e a b octets) :
    K.x509PublicKeyFromBytes octets = some (identity.signKey, []) ∧
      K.x509CertGetSubjectPublicKey b = some identity.encKey := by
  obtain ⟨root', s', e', octets', hdual', hoctets', hparse⟩ := h.signing
  obtain ⟨_, hdual⟩ := hauth.dual
  rw [hchain] at hdual
  obtain ⟨rfl, rfl⟩ := startsWith_unique hdual'.certificates hdual.certificates
  obtain ⟨b', hb', henc⟩ := h.encryption
  have hfound := h.found hread 1 hb'
  have hraw := hauth.encryption
  rw [hchain] at hraw
  rw [Nat.cast_one, hraw] at hfound
  cases hfound
  have hoctets := hauth.key.1
  rw [hoctets'] at hoctets
  cases hoctets
  exact ⟨hparse, henc⟩

end

/-- What the buffer has room for behind its length octets. -/
theorem certChains_space {certChains : Bytes} (hmin : tlsUint24Size ≤ certChains.length)
    (hmax : certChains.length ≤ sizeMax) :
    (UInt64.ofNat certChains.length - 0 - UInt64.ofNat tlsUint24Size).toNat =
      certChains.length - tlsUint24Size := by
  have hlen : (UInt64.ofNat certChains.length).toNat = certChains.length := by
    rw [UInt64.toNat_ofNat']
    simp only [sizeMax] at hmax
    exact Nat.mod_eq_of_lt (by omega)
  have hthree : (UInt64.ofNat tlsUint24Size).toNat = tlsUint24Size := rfl
  have hle : UInt64.ofNat tlsUint24Size ≤ UInt64.ofNat certChains.length := by
    rw [UInt64.le_iff_toNat_le, hlen, hthree]
    exact hmin
  rw [UInt64.sub_zero, UInt64.toNat_sub_of_le _ _ hle, hlen, hthree]

/-- On a fresh context the setter loads the file and takes the keys out of the chain. -/
theorem tlsCtxSetTlcpHybridServer_fresh {Key Stream : Type} {G : Gmssl} {P : GmsslPem Stream}
    {K : GmsslKeys Key} {S : GmsslServer Key Stream} {ctx : TlcpServerCtx} (hfresh : ctx.Fresh)
    (hcb : ctx.tlcpHybridCertVerifyCb.isSome = true) (fuel : Nat) (stack : Bytes) (fp : Stream) :
    tlsCtxSetTlcpHybridServerCertificateAndKeys G P K S fuel ctx stack fp =
      (tlcpHybridCertsFromPem G P fuel (ctx.certChains.drop tlsUint24Size)
        (UInt64.ofNat ctx.certChains.length - 0 - UInt64.ofNat tlsUint24Size) fp).map
      fun loaded => if loaded.ret ≠ 1 then none else tlcpCtxAddKeys G K S ctx.toTlsCtx stack
        (loaded.buffer.take loaded.certslen.toNat) true := by
  have hguard : ¬ (ctx.isClient ∨ ctx.certChainsLen ≠ 0 ∨ ctx.x509KeysCnt ≠ 0 ∨
      ctx.tlcpHybridCertVerifyCb.isNone) := by
    obtain ⟨cb, hcb⟩ := Option.isSome_iff_exists.mp hcb
    simp [hfresh.isServer, hfresh.noCerts, hfresh.noKeys, hcb]
  rw [tlsCtxSetTlcpHybridServerCertificateAndKeys, if_neg hguard, tlcpCtxAddCertificateAndKeys,
    hfresh.noCerts, if_pos rfl]
  simp only [UInt64.toNat_zero, Nat.zero_add]

/-- On any other it fails before it opens the file. -/
theorem tlsCtxSetTlcpHybridServer_notFresh {Key Stream : Type} {G : Gmssl} {P : GmsslPem Stream}
    {K : GmsslKeys Key} {S : GmsslServer Key Stream} {ctx : TlcpServerCtx} (hfresh : ¬ ctx.Fresh)
    (fuel : Nat) (stack : Bytes) (fp : Stream) :
    tlsCtxSetTlcpHybridServerCertificateAndKeys G P K S fuel ctx stack fp = some none := by
  rw [tlsCtxSetTlcpHybridServerCertificateAndKeys, if_pos]
  by_contra hguard
  simp only [not_or, not_not, Bool.not_eq_true] at hguard
  exact hfresh ⟨hguard.1, hguard.2.1, hguard.2.2.1⟩

/-- A hybrid client that holds the chain and is authenticated chooses the server's keys. -/
theorem MakesIdentity.keys_of_authenticated {PKey Key Stream : Type} {E : Openssl PKey}
    {config config' : TlcpHybridCertAdapterConfig} {G : Gmssl} {K : GmsslKeys Key}
    {S : GmsslServer Key Stream} {limit : Nat}
    (hread : Ber.StrictTlvReader limit 0x30 G.asn1AnyFromDer) {now : Int} {bodies : List Bytes}
    {identity : ServerIdentity Key} (h : MakesIdentity E config K S limit now bodies identity)
    {conn : TlsConnect} (hchain : conn.peerCertChain = identity.certs)
    (hflag : conn.tlcpHybridSignCert = true)
    (hauth : ∃ root s e a b octets, Authenticated E config' G conn root s e a b octets) :
    serverKeyExchangeSignKey G K conn = (conn, some identity.signKey) ∧
      clientKeyExchangePublicKey G K conn = some identity.encKey := by
  obtain ⟨root, s, e, a, b, octets, hauth⟩ := hauth
  obtain ⟨hsign, henc⟩ := h.agrees hread (r := ⟨conn, none, none, none⟩) hchain hauth
  constructor
  · simp [serverKeyExchangeSignKey, hauth.signing, hflag, hauth.key.2, hsign]
  · simp [clientKeyExchangePublicKey, hauth.encryption, henc]

/-- **What makes a hybrid server.** With the adapter registered, the setter ends on every chain file
and makes an identity exactly where the context is a fresh server context, the file is a list of
DER elements that fits into the buffer, the adapter accepts the list, GmSSL reads the SM2 component
and the key of the second certificate, and its own stretches go on. -/
theorem hybrid_server_iff {PKey Key Stream : Type} (E : Openssl PKey)
    (config : TlcpHybridCertAdapterConfig) (G : Gmssl) (P : GmsslPem Stream) (K : GmsslKeys Key)
    (S : GmsslServer Key Stream) {limit : Nat}
    (hread : Ber.StrictTlvReader limit 0x30 G.asn1AnyFromDer)
    {blocks : Stream → List (Option Bytes)} (hP : P.Reads pemNameCertificate blocks) {now : Int}
    {ctx : TlcpServerCtx}
    (hcb : ctx.tlcpHybridCertVerifyCb = some (adapterCallback E now (some config)))
    (hmin : tlsUint24Size ≤ ctx.certChains.length) (hmax : ctx.certChains.length ≤ sizeMax)
    (stack : Bytes) (fp : Stream) :
    ∃ result, (∀ fuel, (blocks fp).length < fuel →
        tlsCtxSetTlcpHybridServerCertificateAndKeys G P K S fuel ctx stack fp = some result) ∧
      ∀ identity, result = some identity ↔
        ctx.Fresh ∧ ∃ bodies : List Bytes, blocks fp = bodies.map some ∧
          tlsUint24Size + bodies.flatten.length ≤ ctx.certChains.length ∧
          MakesIdentity E config K S limit now bodies identity := by
  by_cases hfresh : ctx.Fresh
  swap
  · refine ⟨none, fun fuel _ => tlsCtxSetTlcpHybridServer_notFresh hfresh fuel stack fp, ?_⟩
    simp [hfresh]
  have hspace := certChains_space hmin hmax
  obtain ⟨loaded, hrun, hcases⟩ := tlcpHybridCertsFromPem_cases hread hP
    (ctx.certChains.drop tlsUint24Size)
    (UInt64.ofNat ctx.certChains.length - 0 - UInt64.ofNat tlsUint24Size) fp
  rw [hspace] at hcases
  have hset : ctx.tlcpHybridCertVerifyCb.isSome = true := by rw [hcb]; rfl
  refine ⟨if loaded.ret ≠ 1 then none else tlcpCtxAddKeys G K S ctx.toTlsCtx stack
    (loaded.buffer.take loaded.certslen.toNat) true, fun fuel hfuel => ?_, fun identity => ?_⟩
  · rw [tlsCtxSetTlcpHybridServer_fresh hfresh hset, hrun fuel hfuel]
    rfl
  obtain ⟨bodies, hblocks, htlvs, hfit, hbuffer, hone⟩ | ⟨hret, hrej⟩ := hcases
  · by_cases hne : bodies = []
    · rw [if_pos (fun hret => hone.mp hret hne)]
      constructor
      · intro h
        cases h
      · rintro ⟨_, bodies', hblocks', _, hid⟩
        rw [hblocks, hne, List.map_nil, eq_comm, List.map_eq_nil_iff] at hblocks'
        exact (hid.ne_nil hblocks').elim
    · rw [if_neg (not_not.mpr (hone.mpr hne)), hbuffer, tlcpCtxAddKeys_iff hread hcb hne htlvs]
      constructor
      · exact fun hid => ⟨hfresh, bodies, hblocks, by omega, hid⟩
      · rintro ⟨_, bodies', hblocks', _, hid⟩
        rw [hblocks] at hblocks'
        obtain rfl := List.map_injective_iff.mpr (Option.some_injective _) hblocks'
        exact hid
  · rw [if_pos hret]
    constructor
    · intro h
      cases h
    · rintro ⟨_, bodies, hblocks, hfit, hid⟩
      rw [hblocks] at hrej
      exact (not_pemRejected hid.tlvs (by omega) hrej).elim

section

variable {PKey Key Stream : Type} {E : Openssl PKey} {config : TlcpHybridCertAdapterConfig}
  {G : Gmssl} {K : GmsslKeys Key} {S : GmsslServer Key Stream} {limit : Nat} {now : Int}
  {bodies : List Bytes} {identity : ServerIdentity Key}

/-- The chain of an identity survives the Certificate message. -/
theorem MakesIdentity.roundTrip (h : MakesIdentity E config K S limit now bodies identity)
    (hread : Ber.StrictTlvReader limit 0x30 G.asn1AnyFromDer) :
    (∀ fuel, bodies.length ≤ fuel →
      tlsRecordSetHandshakeCertificate G fuel identity.certs = some (some bodies)) ∧
    tlsRecordGetHandshakeCertificate G bodies = some identity.certs := by
  constructor
  · intro fuel hfuel
    rw [h.certs]
    exact tlsRecordSetHandshakeCertificate_flatten hread h.tlvs hfuel
  · exact (tlsRecordGetHandshakeCertificate_iff hread).mpr ⟨h.certs, h.tlvs⟩

variable (h : MakesIdentity E config K S limit now bodies identity) (hlimit : limit ≤ Ber.maxLen)
  (hread : Ber.StrictTlvReader limit 0x30 G.asn1AnyFromDer) {config' : TlcpHybridCertAdapterConfig}
  {ctx : TlsCtx} (hcb : ctx.tlcpHybridCertVerifyCb.isSome = true)
include h hlimit hread hcb

/-- In every run in which a client holds the chain in hybrid mode, the keys it has used are the
server's. -/
theorem MakesIdentity.agrees_run {r : TlcpClientRun Key}
    (hreach : TlcpClientReaches E config' G K ctx r)
    (hchain : r.conn.peerCertChain = identity.certs) (hflag : r.conn.tlcpHybridSignCert = true) :
    (∀ key, r.verified = some key → key = identity.signKey) ∧
      ∀ key, r.encrypted = some key → key = identity.encKey := by
  cases hreach.inv hlimit hread hcb with
  | start _ hempty _ _ =>
    obtain ⟨b, hb, _⟩ := h.encryption
    have hfound := h.found hread 1 hb
    rw [← hchain, hempty] at hfound
    cases hfound
  | ordinary _ hoff _ _ =>
    rw [hflag] at hoff
    cases hoff
  | @hybrid _ root s e a b octets _ _ hauth hkeys =>
    obtain ⟨hsign, henc⟩ := h.agrees hread hchain hauth
    constructor
    · intro key hv
      have hkey := hkeys.verified key hv
      rw [hsign] at hkey
      cases hkey
      rfl
    · intro key he
      obtain ⟨b', hraw, hkey⟩ := hkeys.encrypted key he
      rw [hauth.encryption] at hraw
      cases hraw
      rw [henc] at hkey
      cases hkey
      rfl

/-- Where the adapter accepts the chain the client goes on in hybrid mode, with these keys. -/
theorem MakesIdentity.goes_on {now' : Int} {root s e : X509}
    (hdual : DualAccepted E now' config' (.buf identity.certs) root s e) (conn : TlsConnect) :
    ∃ conn', tlcpRecvServerCertificate G
        (ctx.answering (adapterMessage E config' now' identity.certs)) conn
        (some identity.certs) = .continues conn' ⟨.ok, .sm2sigSm3⟩ ∧
      conn'.peerCertChain = identity.certs ∧ conn'.tlcpHybridSignCert = true ∧
      serverKeyExchangeSignKey G K conn' = (conn', some identity.signKey) ∧
      clientKeyExchangePublicKey G K conn' = some identity.encKey := by
  have hstored := (h.roundTrip hread).2
  obtain ⟨conn', hc, hchain, hflag⟩ :=
    tlcpRecvServerCertificate_accepted hlimit hread hcb hstored hdual conn
  exact ⟨conn', hc, hchain, hflag, h.keys_of_authenticated hread hchain hflag
    (authenticated_of_continues hlimit hread hcb hstored hc hflag)⟩

end

/-- **Server and client agree.** Where the setter makes an identity of a chain file, the chain
survives the Certificate message. In every run of a client with the adapter, under any configuration
and at any times, that holds the chain in hybrid mode, the key that verified a ServerKeyExchange and
the key that encrypted the premaster secret are those of the server. Wherever the adapter accepts
the chain, as it does in the server's configuration at the server's time, a client goes on in hybrid
mode. -/
theorem hybrid_server_and_client_agree {PKey Key Stream : Type} (E : Openssl PKey)
    (config : TlcpHybridCertAdapterConfig) (G : Gmssl) (P : GmsslPem Stream) (K : GmsslKeys Key)
    (S : GmsslServer Key Stream) {limit : Nat} (hlimit : limit ≤ Ber.maxLen)
    (hread : Ber.StrictTlvReader limit 0x30 G.asn1AnyFromDer)
    {blocks : Stream → List (Option Bytes)} (hP : P.Reads pemNameCertificate blocks) {now : Int}
    {server : TlcpServerCtx}
    (hserver : server.tlcpHybridCertVerifyCb = some (adapterCallback E now (some config)))
    (hmin : tlsUint24Size ≤ server.certChains.length)
    (hmax : server.certChains.length ≤ sizeMax) {fuel : Nat} {stack : Bytes} {fp : Stream}
    (hfuel : (blocks fp).length < fuel) {identity : ServerIdentity Key}
    (hset : tlsCtxSetTlcpHybridServerCertificateAndKeys G P K S fuel server stack fp =
      some (some identity)) :
    (∃ entries, (∀ fuel, entries.length ≤ fuel →
        tlsRecordSetHandshakeCertificate G fuel identity.certs = some (some entries)) ∧
      tlsRecordGetHandshakeCertificate G entries = some identity.certs) ∧
    (∃ root s e, DualAccepted E now config (.buf identity.certs) root s e) ∧
    ∀ (config' : TlcpHybridCertAdapterConfig) (ctx : TlsCtx),
      ctx.tlcpHybridCertVerifyCb.isSome = true →
      (∀ r, TlcpClientReaches E config' G K ctx r → r.conn.peerCertChain = identity.certs →
        r.conn.tlcpHybridSignCert = true →
        (∀ key, r.verified = some key → key = identity.signKey) ∧
          ∀ key, r.encrypted = some key → key = identity.encKey) ∧
      ∀ conn now', (∃ root s e, DualAccepted E now' config' (.buf identity.certs) root s e) →
        ∃ conn', tlcpRecvServerCertificate G
            (ctx.answering (adapterMessage E config' now' identity.certs)) conn
            (some identity.certs) = .continues conn' ⟨.ok, .sm2sigSm3⟩ ∧
          conn'.peerCertChain = identity.certs ∧ conn'.tlcpHybridSignCert = true ∧
          serverKeyExchangeSignKey G K conn' = (conn', some identity.signKey) ∧
          clientKeyExchangePublicKey G K conn' = some identity.encKey := by
  obtain ⟨result, hrun, hiff⟩ :=
    hybrid_server_iff E config G P K S hread hP hserver hmin hmax stack fp
  rw [hrun fuel hfuel, Option.some.injEq] at hset
  obtain ⟨_, bodies, _, _, hid⟩ := (hiff identity).mp hset
  refine ⟨⟨bodies, hid.roundTrip hread⟩, ?_, fun config' ctx hcb => ⟨?_, ?_⟩⟩
  · obtain ⟨root, s, e, _, hdual, _⟩ := hid.signing
    exact ⟨root, s, e, hdual⟩
  · intro r hreach hchain hflag
    exact hid.agrees_run hlimit hread hcb hreach hchain hflag
  · rintro conn now' ⟨root, s, e, hdual⟩
    exact hid.goes_on hlimit hread hcb hdual conn

namespace Toy

/-- GmSSL's key functions on octets: a point is its 65 octets, and the subject key of a certificate
is what its bit string holds. -/
def pointKeys : GmsslKeys Bytes where
  x509PublicKeyFromBytes b :=
    if b.head? = some 0x04 ∧ 65 ≤ b.length then some (b.take 65, b.drop 65) else none
  x509CertGetSubjectPublicKey b :=
    (issueLib.d2iX509 b).map fun p => p.1.tbsCertificate.subjectPublicKeyInfo.publicKey.data
  verifies key conn signature := issueLib.digestVerify key [] signature conn.peerCertChain

theorem pointKeys_point {o : Bytes} (hlen : o.length = 65) (hhead : o.head? = some 0x04) :
    pointKeys.x509PublicKeyFromBytes o = some (o, []) := by
  simp only [pointKeys]
  rw [if_pos ⟨hhead, by omega⟩, List.take_of_length_le (by omega),
    List.drop_eq_nil_of_le (by omega)]

def goesOn : GmsslServer Bytes (List (Option Bytes)) where
  x509CertsFromPem _ _ _ := ⟨-1, [], 0⟩
  tlcpCertChainCheckOrder _ := false
  x509CertsGetCertByIndex _ _ := none
  behindChain _ := true
  behindSignKey _ _ := true
  behindEncKey _ _ _ := true

/-- A fresh server whose buffer holds exactly one chain of `n` octets. -/
def freshServer (config : TlcpHybridCertAdapterConfig) (n : Nat) : TlcpServerCtx :=
  ⟨⟨.tlcp, true, some (adapterCallback issueLib.toOpenssl issueTime (some config))⟩, false,
    Bytes.zeros (tlsUint24Size + n), 0, 0⟩

theorem freshServer_fits (config : TlcpHybridCertAdapterConfig) {n : Nat} (hn : n ≤ 2 ^ 32) :
    tlsUint24Size + n ≤ (freshServer config n).certChains.length ∧
      (freshServer config n).certChains.length ≤ sizeMax := by
  have hsize : (freshServer config n).certChains.length = tlsUint24Size + n :=
    Bytes.zeros_length _
  rw [hsize]
  simp only [tlsUint24Size, sizeMax]
  omega

/-- A server that has loaded the sample certificates. -/
theorem server_exists_loaded : ∃ config n fp identity,
    (id fp : List (Option Bytes)).length < 3 ∧ n ≤ 2 ^ 32 ∧
    tlsCtxSetTlcpHybridServerCertificateAndKeys gmssl pem pointKeys goesOn 3 (freshServer config n)
      (Bytes.zeros 65) fp = some (some identity) := by
  obtain ⟨root, s, e, hrs, hre, hdual⟩ := dual_exists
  obtain ⟨leaf, hleaf⟩ := hdual.signing.leaf_key
  obtain ⟨hlen, hcomp⟩ := sm2Component_of_get hleaf
  obtain ⟨k, _, ho⟩ := Option.bind_eq_some_iff.mp hcomp
  have henc : pointKeys.x509CertGetSubjectPublicKey (Ber.encode e.toBer) =
      some e.tbsCertificate.subjectPublicKeyInfo.publicKey.data := by
    simp [pointKeys, hre.d2iX509_eq]
  have ha := isDerTlv_encode hrs
  have hb := isDerTlv_encode hre
  have hla := hrs.length_le
  have hlb := hre.length_le
  generalize Ber.encode s.toBer = a at ha hla hdual
  generalize Ber.encode e.toBer = b at hb hlb hdual henc
  have hab : (a ++ b).length ≤ 2 ^ 32 := by
    rw [List.length_append]
    omega
  let config : TlcpHybridCertAdapterConfig := ⟨.buf (Ber.encode root.toBer), none, false⟩
  obtain ⟨hfit, hmax⟩ := freshServer_fits config hab
  have hcb : (freshServer config (a ++ b).length).tlcpHybridCertVerifyCb =
      some (adapterCallback issueLib.toOpenssl issueTime (some config)) := rfl
  obtain ⟨result, hrun, hiff⟩ := hybrid_server_iff issueLib.toOpenssl config gmssl pem pointKeys
    goesOn gmssl_reader (pem_reads _) hcb
    (Nat.le_trans (Nat.le_add_right _ _) hfit) hmax (Bytes.zeros 65) [some a, some b]
  let identity : ServerIdentity Bytes :=
    ⟨a ++ b, s.tbsCertificate.subjectPublicKeyInfo.publicKey.data.drop 1312,
      e.tbsCertificate.subjectPublicKeyInfo.publicKey.data⟩
  refine ⟨config, (a ++ b).length, [some a, some b], identity, Nat.lt_succ_self 2, hab, ?_⟩
  rw [hrun 3 (Nat.lt_succ_self 2), Option.some.injEq]
  exact (hiff _).mpr ⟨⟨rfl, rfl, rfl⟩, [a, b], rfl, by simpa using hfit, {
    certs := by simp [identity]
    tlvs := by simp [ha, hb]
    signing := ⟨root, s, e, _, hdual, hcomp, pointKeys_point hlen (sm2Octets_form ho).2⟩
    encryption := ⟨b, rfl, henc⟩
    goesOn := ⟨rfl, rfl, rfl⟩ }⟩

end Toy

/-- The chain of that server in the Certificate message. -/
theorem hybrid_server_and_client_agree_loaded : ∃ identity : ServerIdentity Bytes, ∃ entries,
    tlsRecordSetHandshakeCertificate Toy.gmssl entries.length identity.certs =
      some (some entries) ∧
    tlsRecordGetHandshakeCertificate Toy.gmssl entries = some identity.certs := by
  obtain ⟨config, n, fp, identity, hfuel, hn, hset⟩ := Toy.server_exists_loaded
  obtain ⟨hfit, hmax⟩ := Toy.freshServer_fits config hn
  obtain ⟨⟨entries, hentries, hstored⟩, _⟩ := hybrid_server_and_client_agree
    Toy.issueLib.toOpenssl config Toy.gmssl Toy.pem Toy.pointKeys Toy.goesOn
    (Nat.le_refl Ber.maxLen) Toy.gmssl_reader (Toy.pem_reads _) rfl
    (Nat.le_trans (Nat.le_add_right _ _) hfit) hmax hfuel hset
  exact ⟨identity, entries, hentries _ (Nat.le_refl _), hstored⟩

end HybridPqc
