import HybridPqc.Bytes

/-!
# Tls13.PqPsk

The private TLS 1.3 extension `post_quantum_pre_shared_key` (`0xFF03`): what the patched client and
server handlers share.

A handler reads its extensions in one loop (`forExts`) into local variables. `forExts_invariant` is
the induction for it; `FlagSeen` and `PointersSeen` are what the loop has found out about the
extensions before the current one. The patch changes functions of a library that is not here; what
it leaves alone is a parameter of each handler.
-/

namespace HybridPqc

/-- `TLS_KE_CERT_DHE`, `TLS_KE_PSK_DHE`, `TLS_KE_PSK` -/
structure KeyExchangeModes where
  certDhe : Bool
  pskDhe : Bool
  psk : Bool
  deriving DecidableEq, Repr

namespace KeyExchangeModes

def ofCertDhe : KeyExchangeModes := ⟨true, false, false⟩
def ofPskDhe : KeyExchangeModes := ⟨false, true, false⟩

/-- `modes &= ~(TLS_KE_PSK_DHE|TLS_KE_PSK)` -/
def clearPsk (m : KeyExchangeModes) : KeyExchangeModes := { m with pskDhe := false, psk := false }

end KeyExchangeModes

/-- The extension types that the modelled code names; `other` is any type without a case. -/
inductive ExtType where
  | supportedVersions
  | supportedGroups
  | signatureAlgorithms
  | keyShare
  | pskKeyExchangeModes
  | preSharedKey
  | earlyData
  | postQuantumPreSharedKey
  | other (code : Nat)
  deriving DecidableEq, Repr

structure Ext where
  type : ExtType
  data : Bytes
  deriving DecidableEq

/-- `ext_data`, which is `NULL` for an extension without data. -/
def Ext.pointer (e : Ext) : Option Bytes := if e.data = [] then none else some e.data

def tls13PostQuantumPreSharedKeyFromBytes (e : Ext) : Bool := e.data = []

structure Tls13Ctx where
  postQuantumPreSharedKey : Bool
  requirePostQuantumPreSharedKey : Bool
  supportedGroupsCnt : Nat

def tls13CtxEnablePostQuantumPreSharedKey (ctx : Tls13Ctx) (enable : Bool) : Tls13Ctx :=
  { ctx with
    postQuantumPreSharedKey := enable
    requirePostQuantumPreSharedKey := if enable then ctx.requirePostQuantumPreSharedKey else false }

def tls13CtxRequirePostQuantumPreSharedKey (ctx : Tls13Ctx) (require : Bool) : Tls13Ctx :=
  { ctx with
    requirePostQuantumPreSharedKey := require
    postQuantumPreSharedKey := if require then true else ctx.postQuantumPreSharedKey }

/-- What is required is enabled; each setter leaves it so. -/
def Tls13Ctx.Consistent (ctx : Tls13Ctx) : Prop :=
  ctx.requirePostQuantumPreSharedKey = true → ctx.postQuantumPreSharedKey = true

theorem ctxEnable_consistent (ctx : Tls13Ctx) (enable : Bool) :
    (tls13CtxEnablePostQuantumPreSharedKey ctx enable).Consistent := by
  intro hr
  cases enable with
  | true => rfl
  | false => cases hr

theorem ctxRequire_consistent (ctx : Tls13Ctx) (require : Bool) :
    (tls13CtxRequirePostQuantumPreSharedKey ctx require).Consistent := by
  intro hr
  cases require with
  | true => rfl
  | false => cases hr

/-- The fields of a connection that decide about a PSK. -/
structure PskState where
  postQuantumPskOffered : Bool := false
  postQuantumPskNegotiated : Bool := false
  selectedExternalPsk : Bool := false
  /-- One more than the index of the identity, or 0. -/
  selectedPskIdentity : Nat := 0
  deriving DecidableEq

/-! ## The extension loop -/

section

variable {χ : Type}

/-- `while (extslen)`; `step` is also told whether `extslen == 0` after this extension. -/
def forExts (step : χ → Ext → Bool → Option χ) : List Ext → χ → Option χ
  | [], x => some x
  | e :: rest, x => (step x e rest.isEmpty).bind (forExts step rest)

/-- An invariant over the extensions that are done and those that are left. -/
theorem forExts_invariant {step : χ → Ext → Bool → Option χ} {I : List Ext → List Ext → χ → Prop}
    (hstep : ∀ done e rest x x', I done (e :: rest) x → step x e rest.isEmpty = some x' →
      I (done ++ [e]) rest x') {done exts : List Ext} {x x' : χ} (hx : I done exts x)
    (h : forExts step exts x = some x') : I (done ++ exts) [] x' := by
  induction exts generalizing done x with
  | nil =>
    cases h
    rw [List.append_nil]
    exact hx
  | cons e rest ih =>
    obtain ⟨x1, hx1, h⟩ := Option.bind_eq_some_iff.mp h
    have := ih (hstep _ _ _ _ _ hx hx1) h
    rw [List.append_assoc] at this
    exact this

end

def HasFlag (exts : List Ext) : Prop := ∃ e ∈ exts, e.type = .postQuantumPreSharedKey

/-- The extension is there, with data. -/
def Present (t : ExtType) (exts : List Ext) : Prop := ∃ e ∈ exts, e.type = t ∧ e.data ≠ []

/-- `post_quantum_pre_shared_key` says whether the flag is there, and then it is there once and
empty. -/
structure FlagSeen (exts : List Ext) (flag : Bool) : Prop where
  seen : flag = true ↔ HasFlag exts
  once : exts.countP (·.type = .postQuantumPreSharedKey) ≤ 1
  empty : ∀ e ∈ exts, e.type = .postQuantumPreSharedKey → e.data = []

/-- A pointer that is not `NULL` points to data of an extension. -/
def PointersSeen (exts : List Ext) (pointer : ExtType → Option Bytes) : Prop :=
  ∀ t, pointer t ≠ none → Present t exts

section

variable {done : List Ext} {e : Ext} {seen : Bool} {pointer : ExtType → Option Bytes}

theorem hasFlag_append : HasFlag (done ++ [e]) ↔
    HasFlag done ∨ e.type = .postQuantumPreSharedKey := by
  simp [HasFlag, or_and_right, exists_or]

theorem flagSeen_nil : FlagSeen [] false where
  seen := ⟨nofun, fun ⟨_, h, _⟩ => nomatch h⟩
  once := Nat.zero_le _
  empty := nofun

theorem FlagSeen.other (h : FlagSeen done seen) (he : e.type ≠ .postQuantumPreSharedKey) :
    FlagSeen (done ++ [e]) seen where
  seen := by
    rw [hasFlag_append, h.seen]
    exact ⟨Or.inl, fun hf => hf.resolve_right he⟩
  once := by
    rw [List.countP_append, List.countP_singleton, decide_eq_false he]
    exact h.once
  empty := by
    intro x hx hxt
    rcases List.mem_append.mp hx with hx | hx
    · exact h.empty x hx hxt
    · rw [List.mem_singleton.mp hx] at hxt
      exact (he hxt).elim

/-- The first flag. -/
theorem FlagSeen.flag (h : FlagSeen done false) (he : e.type = .postQuantumPreSharedKey)
    (hdata : e.data = []) : FlagSeen (done ++ [e]) true where
  seen := ⟨fun _ => hasFlag_append.mpr (Or.inr he), fun _ => rfl⟩
  once := by
    have hnone : ∀ x ∈ done, ¬ x.type = .postQuantumPreSharedKey := by
      intro x hx hxt
      exact Bool.false_ne_true (h.seen.mpr ⟨x, hx, hxt⟩)
    rw [List.countP_append, List.countP_singleton, decide_eq_true he]
    simpa using hnone
  empty := by
    intro x hx hxt
    rcases List.mem_append.mp hx with hx | hx
    · exact h.empty x hx hxt
    · rw [List.mem_singleton.mp hx]
      exact hdata

theorem FlagSeen.count (h : FlagSeen done true) :
    done.countP (·.type = .postQuantumPreSharedKey) = 1 := by
  obtain ⟨e, he, ht⟩ := h.seen.mp rfl
  have hpos : 0 < done.countP (·.type = .postQuantumPreSharedKey) :=
    List.countP_pos_iff.mpr ⟨e, he, decide_eq_true ht⟩
  have := h.once
  omega

/-- What an extension of another type leaves of an absence. -/
theorem absent_append {t : ExtType} (h : ∀ x ∈ done, x.type ≠ t) (he : e.type ≠ t) :
    ∀ x ∈ done ++ [e], x.type ≠ t := by
  intro x hx
  rcases List.mem_append.mp hx with hx | hx
  · exact h x hx
  · rw [List.mem_singleton.mp hx]
    exact he

theorem Present.append {t : ExtType} (h : Present t done) : Present t (done ++ [e]) := by
  obtain ⟨x, hx, ht⟩ := h
  exact ⟨x, List.mem_append_left _ hx, ht⟩

theorem PointersSeen.append (h : PointersSeen done pointer) : PointersSeen (done ++ [e]) pointer :=
  fun t ht => (h t ht).append

theorem PointersSeen.set (h : PointersSeen done pointer) :
    PointersSeen (done ++ [e]) (Function.update pointer e.type e.pointer) := by
  intro t ht
  by_cases hte : t = e.type
  · rw [hte, Function.update_self] at ht
    refine ⟨e, List.mem_append_right _ List.mem_cons_self, hte.symm, ?_⟩
    intro hdata
    exact ht (if_pos hdata)
  · rw [Function.update_of_ne hte] at ht
    exact (h t ht).append

end

end HybridPqc
