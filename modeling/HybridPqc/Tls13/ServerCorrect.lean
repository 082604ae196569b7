import HybridPqc.Tls13.Server

/-!
# Tls13.ServerCorrect

What the server has done when `tls13_recv_client_hello` returns without an error.

`ParsedClientHello` is the invariant of the extension loop. After it, the PSK state is either
untouched or holds an external PSK whose binder verified (`selectPsk_spec`), and the second case
ends in the first branch of the mode choice (`chooseKeyExchangeMode_selected`).
-/

namespace HybridPqc

open Conc

variable {H : ServerHelpers} {ctx : Tls13Ctx} {x : ClientHelloExts} {c c' : ServerConn}
  {common common' : KeyExchangeModes} {eligible : Bool}

/-! ## The extension loop -/

structure ParsedClientHello (done rest : List Ext) (x : ClientHelloExts) : Prop where
  flag : FlagSeen done x.postQuantumPreSharedKey
  pointers : PointersSeen done x.pointer
  last : x.preSharedKeyIsLast = true →
    rest = [] ∧ ∃ e, done.getLast? = some e ∧ e.type = .preSharedKey
  early : x.earlyData = false → ∀ e ∈ done, e.type ≠ .earlyData

theorem parsedClientHello_nil (exts : List Ext) : ParsedClientHello [] exts {} where
  flag := flagSeen_nil
  pointers _ h := (h rfl).elim
  last := nofun
  early _ := nofun

theorem recvClientHelloExt_parsed {done rest : List Ext} {e : Ext} {x' : ClientHelloExts}
    (h : ParsedClientHello done (e :: rest) x)
    (hx : recvClientHelloExt H x e rest.isEmpty = some x') :
    ParsedClientHello (done ++ [e]) rest x' := by
  have hlast : x.preSharedKeyIsLast = true → rest = [] ∧
      ∃ y, (done ++ [e]).getLast? = some y ∧ y.type = .preSharedKey := by
    intro hl
    cases (h.last hl).1
  have hnoEarly : e.type ≠ .earlyData → x.earlyData = false →
      ∀ y ∈ done ++ [e], y.type ≠ .earlyData := by
    intro he hearly
    exact absent_append (h.early hearly) he
  have hplain : ∀ p, e.type ≠ .postQuantumPreSharedKey → e.type ≠ .earlyData →
      x' = { x with pointer := p } → PointersSeen (done ++ [e]) p →
      ParsedClientHello (done ++ [e]) rest x' := by
    rintro p hflag hearly rfl hp
    exact ⟨h.flag.other hflag, hp, hlast, hnoEarly hearly⟩
  unfold recvClientHelloExt at hx
  cases ht : e.type with
  | postQuantumPreSharedKey =>
    simp only [ht, tls13PostQuantumPreSharedKeyFromBytes, decide_eq_true_eq] at hx
    split at hx
    swap
    · cases hx
    rename_i hdata
    split at hx
    · cases hx
    rename_i hfirst
    cases hx
    have hflag := h.flag
    rw [Bool.eq_false_iff.mpr hfirst] at hflag
    refine ⟨hflag.flag ht hdata, h.pointers.append, hlast, hnoEarly ?_⟩
    rw [ht]
    nofun
  | preSharedKey =>
    simp only [ht] at hx
    split at hx
    · cases hx
    cases hx
    have hptr := h.pointers.set (e := e)
    rw [ht] at hptr
    refine ⟨h.flag.other ?_, hptr, ?_, hnoEarly ?_⟩
    · rw [ht]
      nofun
    · intro hl
      exact ⟨List.isEmpty_iff.mp hl, e, List.getLast?_concat .., ht⟩
    · rw [ht]
      nofun
  | earlyData =>
    simp only [ht] at hx
    split at hx
    · cases hx
    cases hx
    refine ⟨h.flag.other ?_, h.pointers.append, hlast, nofun⟩
    rw [ht]
    nofun
  | supportedVersions | supportedGroups | signatureAlgorithms | keyShare | pskKeyExchangeModes
  | other _ =>
    simp only [ht] at hx
    split at hx
    · cases hx
    cases hx
    have hptr := h.pointers.set (e := e)
    rw [ht] at hptr
    refine hplain _ ?_ ?_ rfl hptr <;> rw [ht] <;> nofun

/-- The induction over the extensions. -/
theorem parsedClientHello_of_forExts {exts : List Ext}
    (h : forExts (recvClientHelloExt H) exts {} = some x) : ParsedClientHello exts [] x :=
  forExts_invariant (fun _ _ _ _ _ => recvClientHelloExt_parsed) (parsedClientHello_nil exts) h

/-- A flag that is accepted: once, empty, with its companions, before a last `pre_shared_key`, and
without `early_data`. -/
structure FlagAccepted (exts : List Ext) : Prop where
  once : exts.countP (·.type = .postQuantumPreSharedKey) = 1
  empty : ∀ e ∈ exts, e.type = .postQuantumPreSharedKey → e.data = []
  companions : ∀ t ∈ [ExtType.supportedGroups, .keyShare, .pskKeyExchangeModes, .preSharedKey,
    .signatureAlgorithms], Present t exts
  last : ∃ e, exts.getLast? = some e ∧ e.type = .preSharedKey
  noEarlyData : ∀ e ∈ exts, e.type ≠ .earlyData

/-! ## The decisions -/

theorem checkCompanions_spec {exts : List Ext} (hx : ParsedClientHello exts [] x)
    (h : checkCompanions ctx x c = some c') :
    (x.postQuantumPreSharedKey = true → FlagAccepted exts) ∧
      (ctx.requirePostQuantumPreSharedKey = true → x.postQuantumPreSharedKey = true) ∧
      c'.psk = { c.psk with postQuantumPskOffered := c'.psk.postQuantumPskOffered } := by
  unfold checkCompanions at h
  split at h
  · cases h
  rename_i hrequire
  have hrequire' : ctx.requirePostQuantumPreSharedKey = true →
      x.postQuantumPreSharedKey = true := by
    intro hr
    rw [hr, Bool.true_and, Bool.not_eq_true', Bool.not_eq_false] at hrequire
    exact hrequire
  split at h
  · rename_i hflag
    split at h
    · cases h
    rename_i hpointers
    simp only [not_or] at hpointers
    obtain ⟨hgroups, hshare, hmodes, hpsk, hsig⟩ := hpointers
    split at h
    · cases h
    rename_i hlast
    rw [Bool.or_eq_true, not_or, Bool.not_eq_true', Bool.not_eq_false, Bool.not_eq_true] at hlast
    cases h
    refine ⟨fun _ => ⟨?_, hx.flag.empty, ?_, (hx.last hlast.1).2, hx.early hlast.2⟩, hrequire', rfl⟩
    · have hseen := hx.flag
      rw [hflag] at hseen
      exact hseen.count
    · intro t ht
      refine hx.pointers t ?_
      simp only [List.mem_cons, List.not_mem_nil, or_false] at ht
      rcases ht with rfl | rfl | rfl | rfl | rfl
      · exact hgroups
      · exact hshare
      · exact hmodes
      · exact hpsk
      · exact hsig
  · rename_i hflag
    cases h
    exact ⟨fun hf => (hflag hf).elim, hrequire', rfl⟩

/-- No PSK is selected, and no ticket was looked at. -/
structure NoPsk (psk : ServerPsk) : Prop where
  negotiated : psk.postQuantumPskNegotiated = false
  external : psk.selectedExternalPsk = false
  identity : psk.selectedPskIdentity = 0
  ticket : .ticket ∉ psk.lookups

/-- The PSK of an identity whose binder verified is selected. -/
structure ExternalPsk (H : ServerHelpers) (psk : ServerPsk) : Prop where
  external : psk.selectedExternalPsk = true
  binder : ∃ c1 offered, ∃ candidate ∈ H.candidates c1 offered,
    candidate.localBinder = some candidate.binder ∧
      psk.selectedPskIdentity = candidate.identity + 1
  ticket : .ticket ∉ psk.lookups

/-- Only a binder that verifies gives an identity. -/
theorem processExternal_some {candidates : List PskCandidate} {identity : Nat}
    (h : tls13ProcessClientPreSharedKeyExternal candidates = some (some identity)) :
    ∃ candidate ∈ candidates, candidate.localBinder = some candidate.binder ∧
      identity = candidate.identity := by
  cases candidates with
  | nil => cases h
  | cons candidate rest =>
    refine ⟨candidate, List.mem_cons_self, ?_⟩
    simp only [tls13ProcessClientPreSharedKeyExternal, tls13PskBinderVerifyWithLabel] at h
    cases hl : candidate.localBinder with
    | none =>
      rw [hl] at h
      cases h
    | some localBinder =>
      rw [hl] at h
      by_cases hb : candidate.binder.length ≠ localBinder.length ∨ localBinder ≠ candidate.binder
      · simp only [if_pos hb] at h
        cases h
      · simp only [if_neg hb] at h
        cases h
        rw [not_or, not_not, not_not] at hb
        exact ⟨congrArg some hb.2, rfl⟩

/-- With the flag: the PSK state is as it was but for the lookup, or an external PSK is selected and
the modes are as they were. -/
theorem selectPsk_spec (hflag : x.postQuantumPreSharedKey = true) (hc : NoPsk c.psk)
    (h : selectPsk H x eligible c common = some (c', common')) :
    NoPsk c'.psk ∨ (eligible = true ∧ ExternalPsk H c'.psk ∧ common' = common ∧
      (common.pskDhe || common.psk) = true) := by
  have hnew : .ticket ∉ PskLookup.external :: c.psk.lookups := by
    intro hmem
    rcases List.mem_cons.mp hmem with heq | hmem
    · cases heq
    · exact hc.ticket hmem
  unfold selectPsk at h
  split at h
  · cases h
    exact Or.inl hc
  rename_i offered hoffered
  split at h
  swap
  · cases h
    exact Or.inl hc
  rename_i hmodes
  simp only [hflag, Bool.true_and] at h
  split at h
  · cases h
    exact Or.inl hc
  rename_i heligible
  split at h
  · split at h
    · cases h
    · cases h
      exact Or.inl ⟨hc.negotiated, hc.external, hc.identity, hnew⟩
    · rename_i identity hexternal
      cases h
      obtain ⟨candidate, hmem, hbinder, rfl⟩ := processExternal_some hexternal
      rw [Bool.not_eq_true', Bool.not_eq_false] at heligible
      exact Or.inr ⟨heligible, ⟨rfl, ⟨c, offered, candidate, hmem, hbinder, rfl⟩, hnew⟩, rfl,
        hmodes⟩
  · cases h
    exact Or.inl hc

/-- The flag is negotiated: an external PSK with (EC)DHE, and a certificate to send. -/
structure PskWithCertificate (H : ServerHelpers) (c : ServerConn) : Prop where
  negotiated : c.psk.postQuantumPskNegotiated = true
  psk : ExternalPsk H c.psk
  mode : c.keyExchangeModes = .ofPskDhe
  certChain : c.certChain = true
  group : c.keyExchangeGroup ≠ 0

/-- A selected PSK that both sides may use with a key share ends in the first branch. -/
theorem chooseKeyExchangeMode_selected (hc : ExternalPsk H c.psk) (hpskDhe : common.pskDhe = true)
    (h : chooseKeyExchangeMode H true c common = some c') : PskWithCertificate H c' := by
  simp only [chooseKeyExchangeMode, hc.external, hpskDhe, Bool.and_self, if_true] at h
  split at h
  · cases h
  rename_i hcheck
  simp only [Bool.or_eq_true, not_or, Bool.not_eq_true', Bool.not_eq_false,
    decide_eq_true_eq] at hcheck
  cases h
  exact ⟨rfl, ⟨rfl, hc.binder, hc.ticket⟩, rfl, hcheck.1.1, hcheck.2⟩

/-- Without a selected external PSK the first branch is not taken. -/
theorem chooseKeyExchangeMode_noPsk (hH : H.Correct) (hc : NoPsk c.psk)
    (h : chooseKeyExchangeMode H eligible c common = some c') : NoPsk c'.psk := by
  simp only [chooseKeyExchangeMode, hc.external, Bool.and_false, Bool.false_and,
    Bool.false_eq_true, if_false] at h
  rw [hH.chooseMode_psk h]
  exact hc

theorem pskEligible_true (h : pskEligible ctx x common = some true) : common.pskDhe = true := by
  unfold pskEligible at h
  split at h
  · split at h
    · split at h <;> cases h
    · rename_i hdhe
      rw [Bool.not_eq_true', Bool.not_eq_false] at hdhe
      exact hdhe
  · cases h

@[simp] theorem addCertDhe_pskDhe (x : ClientHelloExts) (common : KeyExchangeModes) :
    (addCertDhe x common).pskDhe = common.pskDhe := by
  unfold addCertDhe
  split <;> rfl

theorem PskWithCertificate.finish (hH : H.Correct) (hc : PskWithCertificate H c)
    (h : H.finish c = some c') : PskWithCertificate H c' := by
  obtain ⟨hmode, hchain, hgroup⟩ := hH.finish_mode h
  have hpsk := hH.finish_psk h
  refine ⟨?_, ?_, ?_, ?_, ?_⟩
  · rw [hpsk]
    exact hc.negotiated
  · rw [hpsk]
    exact hc.psk
  · rw [hmode]
    exact hc.mode
  · rw [hchain]
    exact hc.certChain
  · rw [hgroup]
    exact hc.group

namespace Toy

def clientHello : List Ext :=
  [⟨.supportedVersions, [3, 4]⟩, ⟨.supportedGroups, [0, 41]⟩, ⟨.signatureAlgorithms, [7, 8]⟩,
    ⟨.keyShare, [5]⟩, ⟨.pskKeyExchangeModes, [1]⟩, ⟨.postQuantumPreSharedKey, []⟩,
    ⟨.preSharedKey, [1]⟩]

end Toy

end HybridPqc
