import HybridPqc.Conc.Trace
import HybridPqc.Tls13.PqPsk

/-!
# Tls13.Client

The client side of `0xFF03`: the configuration check before each ClientHello, the offer,
`tls13_recv_server_hello`, and the states of `tls13_do_client_handshake` after it.

`Offering` are the connections that have sent their ClientHello, again after a HelloRetryRequest
or not; they are what `tls13_recv_server_hello` is called on.
-/

namespace HybridPqc

open Conc

/-- `TLS13_PSK_IDENTITY_EXTERNAL`, `TLS13_PSK_IDENTITY_RESUMPTION` -/
inductive PskIdentityType where
  | external
  | resumption
  deriving DecidableEq

structure ClientConn where
  psk : PskState
  isClient : Bool
  earlyData : Bool
  preSharedKey : Bool
  keyShare : Bool
  keyExchangeModes : KeyExchangeModes
  pskCipherSuitesCnt : Nat
  pskIdentityTypes : Nat → PskIdentityType
  /-- Records that a Certificate was received; the code does not have it. -/
  certificateReceived : Bool := false

/-- The local variables that the extension loop fills. -/
structure ServerHelloExts where
  pointer : ExtType → Option Bytes := fun _ => none
  postQuantumPreSharedKey : Bool := false

/-- What the patch leaves alone. A helper that may return an error gives `none` then. -/
structure ClientHelpers where
  /-- The parts of `tls13_send_client_hello` and `…_again` around the flag. -/
  sendClientHello : ClientConn → Option ClientConn
  /-- A HelloRetryRequest and `tls13_client_hello_again_psk_update`. -/
  recvHelloRetryRequest : ClientConn → Option ClientConn
  /-- The other cases of the two `switch` statements of the extension loop. -/
  rejects : ServerHelloExts → Ext → Bool
  /-- Version, cipher suite and key share, with `server_key_exchange_mode`. -/
  keyExchange : ServerHelloExts → ClientConn → Option (ClientConn × KeyExchangeModes)
  /-- `selected_identity` where a PSK is used, and an error where there is no key for it. -/
  selectedIdentity : ServerHelloExts → ClientConn → KeyExchangeModes → Option (Option Nat)
  /-- The rest of `tls13_recv_server_hello`. -/
  finish : ClientConn → Option ClientConn

/-- `c'` differs from `c` in nothing that the check below reads. -/
structure SameConfig (c c' : ClientConn) : Prop where
  earlyData : c'.earlyData = c.earlyData
  pskDhe : c'.keyExchangeModes.pskDhe = c.keyExchangeModes.pskDhe
  count : c'.pskCipherSuitesCnt = c.pskCipherSuitesCnt
  types : c'.pskIdentityTypes = c.pskIdentityTypes

/-- The unmodified code does not have the new fields; building a ClientHello and ending the handler
leave the configured PSKs alone. A ServerHello's `pre_shared_key` holds two octets. -/
structure ClientHelpers.Correct (H : ClientHelpers) : Prop where
  sendClientHello : ∀ {c c'}, H.sendClientHello c = some c' → c'.psk = c.psk ∧ SameConfig c c'
  recvHelloRetryRequest : ∀ {c c'}, H.recvHelloRetryRequest c = some c' → c'.psk = c.psk
  rejects : ∀ {x e}, e.type = .preSharedKey → e.data = [] → H.rejects x e = true
  keyExchange : ∀ {x c c' m}, H.keyExchange x c = some (c', m) → c'.psk = c.psk
  finish : ∀ {c c'}, H.finish c = some c' → c'.psk = c.psk ∧ SameConfig c c'

section

variable (H : ClientHelpers) (ctx : Tls13Ctx)

/-! ## The offer -/

def tls13PostQuantumPskClientConfigCheck (c : ClientConn) : Bool :=
  if !ctx.postQuantumPreSharedKey then true
  else if !c.isClient || c.earlyData || !c.preSharedKey || ctx.supportedGroupsCnt = 0 ||
      !c.keyShare || !c.keyExchangeModes.pskDhe || c.pskCipherSuitesCnt = 0 then false
  else (List.range c.pskCipherSuitesCnt).all fun i => c.pskIdentityTypes i = .external

/-- The check, and the extension in the message. -/
def tls13SendClientHello (c : ClientConn) : Option ClientConn :=
  if tls13PostQuantumPskClientConfigCheck ctx c then do
    let c ← H.sendClientHello c
    if ctx.postQuantumPreSharedKey then some { c with psk.postQuantumPskOffered := true }
    else some c
  else none

/-- The ClientHello after a HelloRetryRequest, which also gives up `TLS_KE_PSK`. -/
def tls13SendClientHelloAgain (c : ClientConn) : Option ClientConn :=
  if tls13PostQuantumPskClientConfigCheck ctx c &&
      !(ctx.postQuantumPreSharedKey && !c.psk.postQuantumPskOffered) then
    H.sendClientHello { c with keyExchangeModes.psk := false }
  else none

/-- A connection that waits for the ServerHello. -/
inductive Offering : ClientConn → Prop where
  | clientHello {c c' : ClientConn} : c.psk = {} → tls13SendClientHello H ctx c = some c' →
      Offering c'
  | again {c c1 c2 : ClientConn} : Offering c → H.recvHelloRetryRequest c = some c1 →
      tls13SendClientHelloAgain H ctx c1 = some c2 → Offering c2

/-! ## `tls13_recv_server_hello` -/

def recvServerHelloExt (c : ClientConn) (x : ServerHelloExts) (e : Ext) (_isLast : Bool) :
    Option ServerHelloExts :=
  match e.type with
  | .postQuantumPreSharedKey =>
    if tls13PostQuantumPreSharedKeyFromBytes e then
      if !c.psk.postQuantumPskOffered || x.postQuantumPreSharedKey then none
      else some { x with postQuantumPreSharedKey := true }
    else none
  | .supportedVersions | .keyShare | .preSharedKey =>
    if H.rejects x e then none
    else some { x with pointer := Function.update x.pointer e.type e.pointer }
  | _ => none

/-- The checks after the loop. -/
def checkServerHelloExts (x : ServerHelloExts) (c : ClientConn) : Bool :=
  if x.postQuantumPreSharedKey &&
      (x.pointer .keyShare = none || x.pointer .preSharedKey = none) then
    false
  else if c.psk.postQuantumPskOffered && x.pointer .preSharedKey ≠ none &&
      !x.postQuantumPreSharedKey then false
  else !(ctx.requirePostQuantumPreSharedKey && !x.postQuantumPreSharedKey)

/-- The identity that the server selected, where there is one. -/
def useSelectedIdentity (x : ServerHelloExts) (c : ClientConn) : Option Nat → Option ClientConn
  | none => some c
  | some identity =>
    if x.postQuantumPreSharedKey then
      if c.pskCipherSuitesCnt ≤ identity ∨ c.pskIdentityTypes identity ≠ .external then none
      else some { c with
        psk.selectedExternalPsk := true
        psk.selectedPskIdentity := identity + 1 }
    else some c

def negotiatePsk (x : ServerHelloExts) (c : ClientConn) (serverMode : KeyExchangeModes) :
    Option ClientConn :=
  if x.postQuantumPreSharedKey then
    if serverMode ≠ .ofPskDhe ∨ c.psk.selectedExternalPsk = false then none
    else some { c with psk.postQuantumPskNegotiated := true }
  else some c

/-- The connection and `server_key_exchange_mode`. -/
def tls13RecvServerHello (c : ClientConn) (exts : List Ext) :
    Option (ClientConn × KeyExchangeModes) := do
  let x ← forExts (recvServerHelloExt H c) exts {}
  if checkServerHelloExts ctx x c then
    let (c, serverMode) ← H.keyExchange x c
    let identity ← H.selectedIdentity x c serverMode
    let c ← useSelectedIdentity x c identity
    let c ← negotiatePsk x c serverMode
    let c ← H.finish c
    return (c, serverMode)
  else none

end

/-! ## `tls13_do_client_handshake` -/

/-- `other` is a state whose case the patch leaves alone. -/
inductive ClientState where
  | certificateRequest
  | serverCertificate
  | serverFinished
  | other (code : Nat)
  deriving DecidableEq

def afterCertificateRequest (c : ClientConn) : ClientState :=
  if c.keyExchangeModes = .ofCertDhe ∨ c.psk.postQuantumPskNegotiated = true then .serverCertificate
  else .serverFinished

/-- The first checks of `tls13_recv_server_certificate` on what its parser returned: a message that
is not a Certificate, `ret == 0`, is an error. -/
def tls13RecvServerCertificate (ret : Int) : Int :=
  if ret < 0 then -1
  else if ret = 0 then -1
  else 1

/-- The parts of a connection that no unmodified case writes. -/
def SamePq (c c' : ClientConn) : Prop :=
  c'.psk.postQuantumPskNegotiated = c.psk.postQuantumPskNegotiated ∧
    c'.certificateReceived = c.certificateReceived

/-- One case of the `switch`. What it receives may change the rest of the connection, and the other
cases may go anywhere. -/
inductive ClientStep : ClientState × ClientConn → ClientState × ClientConn → Prop where
  | certificateRequest {c c' : ClientConn} : SamePq c c' →
      ClientStep (.certificateRequest, c) (afterCertificateRequest c', c')
  | serverCertificate {s' : ClientState} {c c' : ClientConn} {ret : Int} :
      tls13RecvServerCertificate ret = 1 → SamePq c c' →
      ClientStep (.serverCertificate, c) (s', { c' with certificateReceived := decide (0 < ret) })
  | other {s s' : ClientState} {c c' : ClientConn} : s ≠ .certificateRequest →
      s ≠ .serverCertificate → SamePq c c' → ClientStep (s, c) (s', c')

/-- A handshake that gets from `CertificateRequest` to the server's `Finished` has received the
server's `Certificate`. -/
def RequiresCertificate (c : ClientConn) : Prop :=
  ∀ s passed c', Trace ClientStep (s, c) passed (.serverFinished, c') →
    (∃ c1, (.certificateRequest, c1) ∈ passed) → c'.certificateReceived = true

end HybridPqc
