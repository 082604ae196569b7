import HybridPqc.Tls13.Client

/-!
# Tls13.ClientCorrect

What a client has checked when it accepts a ServerHello.

`offering_offered` is the invariant of the connections that wait for a ServerHello.
`ParsedServerHello` is the invariant of the extension loop. The selection of the identity and the
check of the mode then leave one way to accept a flag (`negotiatePsk_flag`).
-/

namespace HybridPqc

open Conc

variable {H : ClientHelpers} {ctx : Tls13Ctx} {c c' : ClientConn} {x : ServerHelloExts}

/-! ## The offer -/

/-- What holds of the configuration where the flag is offered. -/
structure ExternalOnly (c : ClientConn) : Prop where
  types : ∀ i, i < c.pskCipherSuitesCnt → c.pskIdentityTypes i = .external
  pskDhe : c.keyExchangeModes.pskDhe = true
  earlyData : c.earlyData = false

theorem ExternalOnly.same (h : ExternalOnly c) (hs : SameConfig c c') : ExternalOnly c' where
  types i hi := by
    rw [hs.count] at hi
    rw [hs.types]
    exact h.types i hi
  pskDhe := hs.pskDhe.trans h.pskDhe
  earlyData := hs.earlyData.trans h.earlyData

theorem configCheck_externalOnly (hctx : ctx.postQuantumPreSharedKey = true)
    (h : tls13PostQuantumPskClientConfigCheck ctx c = true) : ExternalOnly c := by
  simp only [tls13PostQuantumPskClientConfigCheck, hctx, Bool.not_true, Bool.false_eq_true,
    if_false] at h
  split at h
  · cases h
  rename_i hcheck
  simp only [Bool.or_eq_true, not_or, Bool.not_eq_true', Bool.not_eq_false,
    Bool.not_eq_true] at hcheck
  refine ⟨?_, hcheck.1.2, hcheck.1.1.1.1.1.2⟩
  intro i hi
  exact of_decide_eq_true (List.all_eq_true.mp h i (List.mem_range.mpr hi))

/-- The state in which a client waits for the ServerHello. -/
structure Offered (ctx : Tls13Ctx) (c : ClientConn) : Prop where
  offered : c.psk.postQuantumPskOffered = ctx.postQuantumPreSharedKey
  config : ctx.postQuantumPreSharedKey = true → ExternalOnly c
  negotiated : c.psk.postQuantumPskNegotiated = false
  external : c.psk.selectedExternalPsk = false

theorem sendClientHello_offered (hH : H.Correct) (hc : c.psk = {})
    (h : tls13SendClientHello H ctx c = some c') : Offered ctx c' := by
  unfold tls13SendClientHello at h
  split at h
  swap
  · cases h
  rename_i hcheck
  simp only [Option.bind_eq_bind, Option.bind_eq_some_iff] at h
  obtain ⟨c1, hsend, h⟩ := h
  obtain ⟨hpsk, hsame⟩ := hH.sendClientHello hsend
  rw [hc] at hpsk
  split at h
  · rename_i hctx
    cases h
    have hconf := (configCheck_externalOnly hctx hcheck).same hsame
    refine ⟨hctx.symm, fun _ => ⟨hconf.types, hconf.pskDhe, hconf.earlyData⟩, ?_, ?_⟩ <;>
      rw [hpsk]
  · rename_i hctx
    cases h
    refine ⟨?_, fun hr => (hctx hr).elim, ?_, ?_⟩ <;> rw [hpsk]
    exact (Bool.eq_false_iff.mpr hctx).symm

/-- The second ClientHello is checked again, whatever the HelloRetryRequest did to the PSKs. -/
theorem sendClientHelloAgain_offered (hH : H.Correct) {c1 : ClientConn} (hc : Offered ctx c)
    (hpsk : c1.psk = c.psk) (h : tls13SendClientHelloAgain H ctx c1 = some c') :
    Offered ctx c' := by
  unfold tls13SendClientHelloAgain at h
  split at h
  swap
  · cases h
  rename_i hcheck
  rw [Bool.and_eq_true] at hcheck
  obtain ⟨hpsk', hsame⟩ := hH.sendClientHello h
  have hpsk' : c'.psk = c.psk := hpsk'.trans hpsk
  refine ⟨?_, ?_, ?_, ?_⟩
  · rw [hpsk']
    exact hc.offered
  · intro hctx
    have hconf := configCheck_externalOnly hctx hcheck.1
    have hconf' : ExternalOnly { c1 with keyExchangeModes.psk := false } :=
      ⟨hconf.types, hconf.pskDhe, hconf.earlyData⟩
    exact hconf'.same hsame
  · rw [hpsk']
    exact hc.negotiated
  · rw [hpsk']
    exact hc.external

/-- By induction on the number of ClientHellos. -/
theorem offering_offered (hH : H.Correct) (h : Offering H ctx c) : Offered ctx c := by
  induction h with
  | clientHello hc hsend => exact sendClientHello_offered hH hc hsend
  | again _ hretry hsend ih =>
    exact sendClientHelloAgain_offered hH ih (hH.recvHelloRetryRequest hretry) hsend

/-! ## The extension loop -/

structure ParsedServerHello (c : ClientConn) (done : List Ext) (x : ServerHelloExts) : Prop where
  flag : FlagSeen done x.postQuantumPreSharedKey
  pointers : PointersSeen done x.pointer
  noPsk : x.pointer .preSharedKey = none → ∀ e ∈ done, e.type ≠ .preSharedKey
  solicited : x.postQuantumPreSharedKey = true → c.psk.postQuantumPskOffered = true

theorem recvServerHelloExt_parsed (hH : H.Correct) {done : List Ext} {e : Ext} {isLast : Bool}
    {x' : ServerHelloExts} (h : ParsedServerHello c done x)
    (hx : recvServerHelloExt H c x e isLast = some x') : ParsedServerHello c (done ++ [e]) x' := by
  unfold recvServerHelloExt at hx
  cases ht : e.type with
  | postQuantumPreSharedKey =>
    simp only [ht, tls13PostQuantumPreSharedKeyFromBytes, decide_eq_true_eq] at hx
    split at hx
    swap
    · cases hx
    rename_i hdata
    split at hx
    · cases hx
    rename_i hfirst
    rw [Bool.or_eq_true, not_or, Bool.not_eq_true', Bool.not_eq_false] at hfirst
    cases hx
    have hflag := h.flag
    rw [Bool.eq_false_iff.mpr hfirst.2] at hflag
    refine ⟨hflag.flag ht hdata, h.pointers.append, ?_, fun _ => hfirst.1⟩
    intro hnone
    refine absent_append (h.noPsk hnone) ?_
    rw [ht]
    nofun
  | preSharedKey =>
    simp only [ht] at hx
    split at hx
    · cases hx
    rename_i haccepted
    cases hx
    have hptr := h.pointers.set (e := e)
    rw [ht] at hptr
    refine ⟨h.flag.other ?_, hptr, ?_, h.solicited⟩
    · rw [ht]
      nofun
    · intro hnone
      dsimp only at hnone
      rw [Function.update_self, Ext.pointer] at hnone
      split at hnone
      · rename_i hdata
        exact (haccepted (hH.rejects ht hdata)).elim
      · cases hnone
  | supportedVersions | keyShare =>
    simp only [ht] at hx
    split at hx
    · cases hx
    cases hx
    have hptr := h.pointers.set (e := e)
    rw [ht] at hptr
    refine ⟨h.flag.other ?_, hptr, ?_, h.solicited⟩
    · rw [ht]
      nofun
    · intro hnone
      dsimp only at hnone
      rw [Function.update_of_ne (by decide)] at hnone
      refine absent_append (h.noPsk hnone) ?_
      rw [ht]
      nofun
  | supportedGroups | signatureAlgorithms | pskKeyExchangeModes | earlyData | other _ =>
    simp only [ht] at hx
    cases hx

theorem parsedServerHello_nil (c : ClientConn) : ParsedServerHello c [] {} where
  flag := flagSeen_nil
  pointers _ h := (h rfl).elim
  noPsk _ _ h := nomatch h
  solicited := nofun

/-- The induction over the extensions. -/
theorem parsedServerHello_of_forExts (hH : H.Correct) {exts : List Ext}
    (h : forExts (recvServerHelloExt H c) exts {} = some x) : ParsedServerHello c exts x :=
  forExts_invariant (I := fun done _ x => ParsedServerHello c done x)
    (fun _ _ _ _ _ => recvServerHelloExt_parsed hH)
    (parsedServerHello_nil c) h

/-! ## The Certificate -/

theorem clientStep_negotiated {s s' : ClientState × ClientConn} (h : ClientStep s s')
    (hs : s.2.psk.postQuantumPskNegotiated = true) :
    s'.2.psk.postQuantumPskNegotiated = true := by
  cases h with
  | certificateRequest hc => exact hc.1.trans hs
  | serverCertificate _ hc => exact hc.1.trans hs
  | other _ _ hc => exact hc.1.trans hs

/-- Only a Certificate message takes a client past the state. -/
theorem recvServerCertificate_one {ret : Int} (h : tls13RecvServerCertificate ret = 1) :
    0 < ret := by
  unfold tls13RecvServerCertificate at h
  split at h
  · cases h
  split at h
  · cases h
  omega

theorem requiresCertificate_of_negotiated (hc : c.psk.postQuantumPskNegotiated = true) :
    RequiresCertificate c := by
  intro s passed c' htrace hvisits
  have hinv : (∀ y ∈ passed, y.2.psk.postQuantumPskNegotiated = true) ∧
      c'.psk.postQuantumPskNegotiated = true :=
    htrace.invariant (I := fun y => y.2.psk.postQuantumPskNegotiated = true)
      (fun _ _ => clientStep_negotiated) hc
  obtain ⟨c1, hc1⟩ := hvisits
  have hrequest : ∀ y z, y.1 = .certificateRequest ∧ y.2.psk.postQuantumPskNegotiated = true →
      ClientStep y z → z.1 = .serverCertificate := by
    rintro y z ⟨hy, hneg⟩ hs
    cases hs with
    | certificateRequest h => exact if_pos (Or.inr (h.1.trans hneg))
    | serverCertificate _ _ => cases hy
    | other hne _ _ => exact (hne hy).elim
  have hreceived : ∀ y z, y.1 = .serverCertificate → ClientStep y z →
      z.2.certificateReceived = true := by
    intro y z hy hs
    cases hs with
    | certificateRequest _ => cases hy
    | serverCertificate hret _ => exact decide_eq_true (recvServerCertificate_one hret)
    | other _ hne _ => exact (hne hy).elim
  have hkeep : ∀ y z, ClientStep y z → y.2.certificateReceived = true →
      z.2.certificateReceived = true := by
    intro y z hs hy
    cases hs with
    | certificateRequest h => exact h.2.trans hy
    | serverCertificate hret _ => exact decide_eq_true (recvServerCertificate_one hret)
    | other _ _ h => exact h.2.trans hy
  rcases htrace.leads hrequest ⟨_, hc1, rfl, hinv.1 _ hc1⟩ with hpassed | hend
  · exact htrace.ends (Q := fun y => y.2.certificateReceived = true) hreceived hkeep hpassed
  · cases hend

/-! ## `tls13_recv_server_hello` -/

/-- The flag is accepted: an external PSK, (EC)DHE and the Certificate. -/
structure PskAccepted (exts : List Ext) (c : ClientConn) (serverMode : KeyExchangeModes) :
    Prop where
  once : exts.countP (·.type = .postQuantumPreSharedKey) = 1
  empty : ∀ e ∈ exts, e.type = .postQuantumPreSharedKey → e.data = []
  preSharedKey : Present .preSharedKey exts
  keyShare : Present .keyShare exts
  identity : ∃ i, i < c.pskCipherSuitesCnt ∧ c.pskIdentityTypes i = .external ∧
    c.psk.selectedPskIdentity = i + 1
  mode : serverMode = .ofPskDhe
  negotiated : c.psk.postQuantumPskNegotiated = true
  certificate : RequiresCertificate c

/-- The server uses no PSK. -/
structure PskDeclined (exts : List Ext) (c : ClientConn) : Prop where
  flag : ¬ HasFlag exts
  preSharedKey : ∀ e ∈ exts, e.type ≠ .preSharedKey
  negotiated : c.psk.postQuantumPskNegotiated = false

theorem checkServerHelloExts_spec (h : checkServerHelloExts ctx x c = true) :
    (x.postQuantumPreSharedKey = true →
      x.pointer .keyShare ≠ none ∧ x.pointer .preSharedKey ≠ none) ∧
    (c.psk.postQuantumPskOffered = true → x.postQuantumPreSharedKey = false →
      x.pointer .preSharedKey = none) ∧
    (ctx.requirePostQuantumPreSharedKey = true → x.postQuantumPreSharedKey = true) := by
  unfold checkServerHelloExts at h
  split at h
  · cases h
  rename_i hcompanions
  split at h
  · cases h
  rename_i hplain
  simp only [Bool.and_eq_true, Bool.or_eq_true, decide_eq_true_eq, not_and, not_or] at hcompanions
  simp only [Bool.and_eq_true, decide_eq_true_eq, Bool.not_eq_true', not_and, ne_eq] at hplain
  refine ⟨hcompanions, ?_, ?_⟩
  · intro hoffered hflag
    by_contra hpsk
    exact hplain ⟨hoffered, hpsk⟩ hflag
  · intro hrequire
    rw [hrequire, Bool.true_and, Bool.not_not] at h
    exact h

/-- With the flag an identity is selected by `useSelectedIdentity`, or none is. -/
theorem useSelectedIdentity_flag {identity : Option Nat} (hflag : x.postQuantumPreSharedKey = true)
    (hc : c.psk.selectedExternalPsk = false) (h : useSelectedIdentity x c identity = some c')
    (hselected : c'.psk.selectedExternalPsk = true) :
    ∃ i, i < c'.pskCipherSuitesCnt ∧ c'.pskIdentityTypes i = .external ∧
      c'.psk.selectedPskIdentity = i + 1 := by
  cases identity with
  | none =>
    cases h
    rw [hc] at hselected
    cases hselected
  | some i =>
    simp only [useSelectedIdentity, hflag, if_true] at h
    split at h
    · cases h
    rename_i hrange
    rw [not_or, Nat.not_le, not_not] at hrange
    cases h
    exact ⟨i, hrange.1, hrange.2, rfl⟩

/-- An accepted flag is negotiated, with the mode and the identity checked. -/
theorem negotiatePsk_flag {serverMode : KeyExchangeModes}
    (hflag : x.postQuantumPreSharedKey = true) (h : negotiatePsk x c serverMode = some c') :
    serverMode = .ofPskDhe ∧ c.psk.selectedExternalPsk = true ∧
      c' = { c with psk.postQuantumPskNegotiated := true } := by
  simp only [negotiatePsk, hflag, if_true] at h
  split at h
  · cases h
  rename_i hmode
  rw [not_or, not_not, Bool.not_eq_false] at hmode
  cases h
  exact ⟨hmode.1, hmode.2, rfl⟩

/-- Without the flag nothing about it changes. -/
theorem negotiatePsk_noFlag {identity : Option Nat} {c1 : ClientConn}
    {serverMode : KeyExchangeModes} (hflag : x.postQuantumPreSharedKey = false)
    (h1 : useSelectedIdentity x c identity = some c1)
    (h : negotiatePsk x c1 serverMode = some c') : c'.psk = c.psk := by
  simp only [negotiatePsk, hflag, Bool.false_eq_true, if_false] at h
  cases h
  cases identity with
  | none =>
    cases h1
    rfl
  | some i =>
    simp only [useSelectedIdentity, hflag, Bool.false_eq_true, if_false] at h1
    cases h1
    rfl

/-- **No ServerHello is accepted that uses a PSK without the flag and the Certificate.** On a
connection that has sent its ClientHello: where the flag was offered the configuration has external
PSKs only, and whatever the extensions of the ServerHello and the answers of the helpers, an
accepted one either has the flag and is checked in full, or uses no PSK. Where the flag is required
only the first is left, and a flag that was not offered is not accepted. -/
theorem recvServerHello_keeps_certificate (hH : H.Correct) (hc : Offering H ctx c) :
    (c.psk.postQuantumPskOffered = true → ExternalOnly c) ∧
    ∀ exts c' serverMode, tls13RecvServerHello H ctx c exts = some (c', serverMode) →
      (c.psk.postQuantumPskOffered = true →
        PskAccepted exts c' serverMode ∨ PskDeclined exts c') ∧
      (ctx.requirePostQuantumPreSharedKey = true → PskAccepted exts c' serverMode) ∧
      (c.psk.postQuantumPskOffered = false → ¬ HasFlag exts) := by
  have hoffered := offering_offered hH hc
  refine ⟨?_, ?_⟩
  · intro ho
    rw [hoffered.offered] at ho
    exact hoffered.config ho
  intro exts c' serverMode h
  simp only [tls13RecvServerHello, Option.bind_eq_bind, Option.bind_eq_some_iff] at h
  obtain ⟨x, hx, h⟩ := h
  split at h
  swap
  · cases h
  rename_i hcheck
  simp only [Option.bind_eq_some_iff, Prod.exists] at h
  obtain ⟨c1, mode, hkey, identity, hidentity, c2, huse, c3, hnegotiate, c4, hfinish, h⟩ := h
  cases h
  have hparsed := parsedServerHello_of_forExts hH hx
  obtain ⟨hcompanions, hplain, hrequire⟩ := checkServerHelloExts_spec hcheck
  have hpsk1 := hH.keyExchange hkey
  obtain ⟨hpsk4, hsame4⟩ := hH.finish hfinish
  have hflagged : x.postQuantumPreSharedKey = true → PskAccepted exts c' serverMode := by
    intro hflag
    have hseen := hparsed.flag
    rw [hflag] at hseen
    obtain ⟨hkeyShare, hpsk⟩ := hcompanions hflag
    obtain ⟨hmode, hselected, hc3⟩ := negotiatePsk_flag hflag hnegotiate
    have hexternal : c1.psk.selectedExternalPsk = false := by
      rw [hpsk1]
      exact hoffered.external
    obtain ⟨i, hi, htype, hid⟩ := useSelectedIdentity_flag hflag hexternal huse hselected
    have hneg : c'.psk.postQuantumPskNegotiated = true := by
      rw [hpsk4, hc3]
    refine ⟨hseen.count, hseen.empty, hparsed.pointers _ hpsk, hparsed.pointers _ hkeyShare,
      ⟨i, ?_, ?_, ?_⟩, hmode, hneg, requiresCertificate_of_negotiated hneg⟩
    · rw [hsame4.count, hc3]
      exact hi
    · rw [hsame4.types, hc3]
      exact htype
    · rw [hpsk4, hc3]
      exact hid
  refine ⟨?_, fun hr => hflagged (hrequire hr), ?_⟩
  · intro ho
    cases hflag : x.postQuantumPreSharedKey with
    | true => exact Or.inl (hflagged hflag)
    | false =>
      refine Or.inr ⟨?_, hparsed.noPsk (hplain ho hflag), ?_⟩
      · intro hhas
        rw [hparsed.flag.seen.mpr hhas] at hflag
        cases hflag
      · rw [hpsk4, negotiatePsk_noFlag hflag huse hnegotiate, hpsk1]
        exact hoffered.negotiated
  · intro ho hhas
    rw [hparsed.solicited (hparsed.flag.seen.mpr hhas)] at ho
    cases ho

namespace Toy

/-- Helpers that accept every extension with data and take the first identity. -/
def clientHelpers : ClientHelpers where
  sendClientHello c := some c
  recvHelloRetryRequest c := some c
  rejects _ e := decide (e.data = [])
  keyExchange x c :=
    some (c, if x.pointer .preSharedKey = none then .ofCertDhe else .ofPskDhe)
  selectedIdentity x _ _ := some (if x.pointer .preSharedKey = none then none else some 0)
  finish c := some c

theorem clientHelpers_correct : clientHelpers.Correct where
  sendClientHello h := by
    cases h
    exact ⟨rfl, rfl, rfl, rfl, rfl⟩
  recvHelloRetryRequest h := by
    cases h
    rfl
  rejects _ hdata := decide_eq_true hdata
  keyExchange h := by
    cases h
    rfl
  finish h := by
    cases h
    exact ⟨rfl, rfl, rfl, rfl, rfl⟩

/-- One external PSK for PSK with (EC)DHE. -/
def clientConn : ClientConn where
  psk := {}
  isClient := true
  earlyData := false
  preSharedKey := true
  keyShare := true
  keyExchangeModes := ⟨true, true, false⟩
  pskCipherSuitesCnt := 1
  pskIdentityTypes _ := .external

def serverHello : List Ext :=
  [⟨.supportedVersions, [3, 4]⟩, ⟨.keyShare, [5]⟩, ⟨.postQuantumPreSharedKey, []⟩,
    ⟨.preSharedKey, [0, 0]⟩]

end Toy

/-- A ServerHello with the flag and the first identity, where the flag is required. -/
theorem recvServerHello_keeps_certificate_toy : ∃ c c' serverMode,
    Offering Toy.clientHelpers ⟨true, true, 1⟩ c ∧
      tls13RecvServerHello Toy.clientHelpers ⟨true, true, 1⟩ c Toy.serverHello =
        some (c', serverMode) ∧
      c.psk.postQuantumPskOffered = true ∧ ExternalOnly c ∧
      PskAccepted Toy.serverHello c' serverMode := by
  let c : ClientConn := { Toy.clientConn with psk.postQuantumPskOffered := true }
  have hc : Offering Toy.clientHelpers ⟨true, true, 1⟩ c :=
    .clientHello (c := Toy.clientConn) rfl rfl
  have hrun : (tls13RecvServerHello Toy.clientHelpers ⟨true, true, 1⟩ c
      Toy.serverHello).isSome = true := by decide +kernel
  obtain ⟨⟨c', serverMode⟩, h⟩ := Option.isSome_iff_exists.mp hrun
  obtain ⟨hexternal, haccepts⟩ :=
    recvServerHello_keeps_certificate Toy.clientHelpers_correct hc
  exact ⟨c, c', serverMode, hc, h, rfl, hexternal rfl, (haccepts _ _ _ h).2.1 rfl⟩

end HybridPqc
