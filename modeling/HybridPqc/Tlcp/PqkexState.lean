import HybridPqc.Tlcp.Pqkex

/-!
# Tlcp.PqkexState

The server's side of the PQKEX extension in `0001-add-experimental-tlcp-pqkex-capability.patch`: the
list of KEMs a context is given, the choice among those a client offers, and the fields of a
connection that record it.

A context only ever lists ML-KEM-768 (`PqkexCtx.Inv`, kept by every call of the setter), so the
choice is the first offered KEM the context lists (`tlsPqkexSelectKem_eq`) and never the number that
stands for none. `PqkexOp.run_frozen` says that a connection is decided once.
-/

namespace HybridPqc

open Tls

def tlsPqkexKemNone : UInt16 := 0x0000
def tlsPqkexKemMlkem768 : UInt16 := 0x0001

/-- `uint16_t kems[TLS_PQKEX_MAX_KEMS]` -/
structure KemArray where
  val : List UInt16
  length_val : val.length = tlsPqkexMaxKems
  deriving DecidableEq

namespace KemArray

/-- The first `cnt` entries. -/
def first (a : KemArray) (cnt : Nat) : List UInt16 := a.val.take cnt

/-- `memcpy` of a list to the start of the array. -/
def copy (a : KemArray) (kems : List UInt16) (h : kems.length ≤ tlsPqkexMaxKems) : KemArray where
  val := kems ++ a.val.drop kems.length
  length_val := by
    rw [List.length_append, List.length_drop, a.length_val]
    omega

theorem first_copy (a : KemArray) {kems : List UInt16} (h : kems.length ≤ tlsPqkexMaxKems) :
    (a.copy kems h).first kems.length = kems := List.take_left

end KemArray

/-- The fields of `TLS_CTX` that the extension uses. -/
structure PqkexCtx where
  protocol : TlsProtocol
  pqkexKems : KemArray
  pqkexKemsCnt : Nat
  deriving DecidableEq

/-- The fields of `TLS_CONNECT` that the extension uses. -/
structure PqkexConnect where
  protocol : TlsProtocol
  pqkexOffered : Bool
  pqkexNegotiated : Bool
  pqkexSelectedKem : UInt16
  deriving DecidableEq

/-- The argument `(kems, kems_cnt)`: `NULL` with any count, or an array of that many. -/
inductive KemsArg where
  | null (cnt : Nat)
  | array (kems : List UInt16)

/-- The loop of `tls_ctx_set_pqkex_kems`; `false` is its `return -1`. -/
def kemsAllowed : List UInt16 → Bool
  | [] => true
  | kem :: kems => if kem ≠ tlsPqkexKemMlkem768 then false else kemsAllowed kems

/-- `tls_ctx_set_pqkex_kems`: whether it returns 1, and the context. -/
def tlsCtxSetPqkexKems (ctx : PqkexCtx) (arg : KemsArg) : Bool × PqkexCtx :=
  if ctx.protocol ≠ .tlcp then (false, ctx)
  else
    match arg with
    | .null _ => (false, ctx)
    | .array kems =>
      if h : kems.length = 0 ∨ tlsPqkexMaxKems < kems.length then (false, ctx)
      else if kemsAllowed kems then
        (true, { ctx with
          pqkexKems := ctx.pqkexKems.copy kems (by omega)
          pqkexKemsCnt := kems.length })
      else (false, ctx)

/-- The inner loop of `tls_pqkex_select_kem`. -/
def serverLists (kem : UInt16) : List UInt16 → Bool
  | [] => false
  | s :: server => if kem = s then true else serverLists kem server

/-- The outer loop of `tls_pqkex_select_kem`. -/
def firstListed (server : List UInt16) : List UInt16 → Option UInt16
  | [] => none
  | kem :: client => if serverLists kem server then some kem else firstListed server client

/-- `tls_pqkex_select_kem` of arrays: its result and `*selected_kem`. -/
def tlsPqkexSelectKem (clientKems : List UInt16) (clientKemsCnt : Nat) (serverKems : List UInt16)
    (serverKemsCnt : Nat) (selectedKem : UInt16) : Int × UInt16 :=
  if clientKemsCnt = 0 ∨ tlsPqkexMaxKems < clientKemsCnt ∨ tlsPqkexMaxKems < serverKemsCnt then
    (-1, selectedKem)
  else
    match firstListed (serverKems.take serverKemsCnt) (clientKems.take clientKemsCnt) with
    | some kem => (1, kem)
    | none => (0, tlsPqkexKemNone)

section

variable (G : GmsslBytes)

/-- `tlcp_process_client_pqkex`: whether it returns 1, and the connection, whose context is `ctx`;
`stack` is what is in `client_kems` before. -/
def tlcpProcessClientPqkex (stack : KemArray) (ctx : Option PqkexCtx) (conn : PqkexConnect)
    (extData : CArg) : Bool × PqkexConnect :=
  match ctx with
  | none => (false, conn)
  | some ctx =>
    if conn.protocol ≠ .tlcp ∨ conn.pqkexOffered then (false, conn)
    else
      let client := tlsPqkexFromBytes G stack.val 0 tlsPqkexMaxKems extData
      if client.ok = false then (false, conn)
      else
        let ret := tlsPqkexSelectKem client.kems client.kemsCnt ctx.pqkexKems.val
          ctx.pqkexKemsCnt conn.pqkexSelectedKem
        -- the callee writes through a pointer into the connection
        let conn := { conn with pqkexSelectedKem := ret.2 }
        if ret.1 < 0 then (false, conn)
        else (true, { conn with pqkexOffered := true, pqkexNegotiated := ret.1 = 1 })

/-- A call that concerns a context and a connection that belongs to it. -/
inductive PqkexOp where
  | set (arg : KemsArg)
  | process (stack : KemArray) (extData : CArg)

namespace PqkexOp

def step (s : PqkexCtx × PqkexConnect) : PqkexOp → PqkexCtx × PqkexConnect
  | .set arg => ((tlsCtxSetPqkexKems s.1 arg).2, s.2)
  | .process stack extData => (s.1, (tlcpProcessClientPqkex G stack (some s.1) s.2 extData).2)

def run (ops : List PqkexOp) (s : PqkexCtx × PqkexConnect) : PqkexCtx × PqkexConnect :=
  ops.foldl (step G) s

end PqkexOp

end

/-- A context without a list, whatever is in its array. -/
def PqkexCtx.unset (protocol : TlsProtocol) (kems : KemArray) : PqkexCtx := ⟨protocol, kems, 0⟩

/-- The KEMs a context lists. -/
def PqkexCtx.kems (ctx : PqkexCtx) : List UInt16 := ctx.pqkexKems.first ctx.pqkexKemsCnt

/-- The extension data of the one to eight identifiers `kems`. -/
def PqkexParses (extData : CArg) (kems : List UInt16) : Prop :=
  1 ≤ kems.length ∧ kems.length ≤ tlsPqkexMaxKems ∧ extData = .buf (pqkexData kems)

/-! ## The setter -/

/-- A context lists no more than eight KEMs, all of them ML-KEM-768. -/
structure PqkexCtx.Inv (ctx : PqkexCtx) : Prop where
  count : ctx.pqkexKemsCnt ≤ tlsPqkexMaxKems
  only : ∀ kem ∈ ctx.kems, kem = tlsPqkexKemMlkem768

theorem kemsAllowed_iff (kems : List UInt16) :
    kemsAllowed kems = true ↔ ∀ kem ∈ kems, kem = tlsPqkexKemMlkem768 := by
  induction kems with
  | nil => simp [kemsAllowed]
  | cons kem kems ih =>
    by_cases hk : kem = tlsPqkexKemMlkem768
    · simp [kemsAllowed, hk, ih]
    · simp [kemsAllowed, hk]

/-- What the setter does: nothing, or the given list takes the place of the old one. -/
theorem tlsCtxSetPqkexKems_cases (ctx : PqkexCtx) (arg : KemsArg) :
    tlsCtxSetPqkexKems ctx arg = (false, ctx) ∨
      ∃ kems, arg = .array kems ∧ kems.length ≤ tlsPqkexMaxKems ∧
        (∀ kem ∈ kems, kem = tlsPqkexKemMlkem768) ∧ (tlsCtxSetPqkexKems ctx arg).1 = true ∧
        (tlsCtxSetPqkexKems ctx arg).2.pqkexKemsCnt = kems.length ∧
        (tlsCtxSetPqkexKems ctx arg).2.kems = kems := by
  simp only [tlsCtxSetPqkexKems]
  by_cases hp : ctx.protocol = .tlcp
  · rw [if_neg (by simpa using hp)]
    cases arg with
    | null cnt => exact Or.inl rfl
    | array kems =>
      dsimp only
      by_cases hl : kems.length = 0 ∨ tlsPqkexMaxKems < kems.length
      · rw [dif_pos hl]
        exact Or.inl rfl
      · rw [dif_neg hl]
        by_cases hk : kemsAllowed kems = true
        · rw [if_pos hk]
          exact Or.inr ⟨kems, rfl, by omega, (kemsAllowed_iff kems).mp hk, rfl, rfl,
            KemArray.first_copy _ (by omega)⟩
        · rw [if_neg hk]
          exact Or.inl rfl
  · rw [if_pos hp]
    exact Or.inl rfl

theorem tlsCtxSetPqkexKems_failed {ctx : PqkexCtx} {arg : KemsArg}
    (h : (tlsCtxSetPqkexKems ctx arg).1 = false) : (tlsCtxSetPqkexKems ctx arg).2 = ctx := by
  obtain heq | ⟨_, _, _, _, htrue, _⟩ := tlsCtxSetPqkexKems_cases ctx arg
  · rw [heq]
  · rw [htrue] at h
    cases h

theorem PqkexCtx.Inv.set {ctx : PqkexCtx} (h : ctx.Inv) (arg : KemsArg) :
    (tlsCtxSetPqkexKems ctx arg).2.Inv := by
  obtain heq | ⟨kems, _, hl, honly, _, hcnt, hkems⟩ := tlsCtxSetPqkexKems_cases ctx arg
  · rw [heq]
    exact h
  · constructor
    · rw [hcnt]
      exact hl
    · rw [hkems]
      exact honly

theorem PqkexCtx.inv_unset (protocol : TlsProtocol) (kems : KemArray) :
    (PqkexCtx.unset protocol kems).Inv := by
  constructor
  · exact Nat.zero_le _
  · intro kem hkem
    cases hkem

/-- `tls_ctx_set_pqkex_kems` called again and again, whatever it returns. -/
def tlsCtxSetAll (ctx : PqkexCtx) (args : List KemsArg) : PqkexCtx :=
  args.foldl (fun ctx arg => (tlsCtxSetPqkexKems ctx arg).2) ctx

theorem PqkexCtx.Inv.setAll {ctx : PqkexCtx} (h : ctx.Inv) (args : List KemsArg) :
    (tlsCtxSetAll ctx args).Inv := by
  induction args generalizing ctx with
  | nil => exact h
  | cons arg args ih => exact ih (h.set arg)

theorem PqkexCtx.Inv.none_not_listed {ctx : PqkexCtx} (h : ctx.Inv) :
    tlsPqkexKemNone ∉ ctx.kems := by
  intro hmem
  have hne := h.only _ hmem
  cases hne

/-! ## The choice -/

theorem serverLists_iff (kem : UInt16) (server : List UInt16) :
    serverLists kem server = true ↔ kem ∈ server := by
  induction server with
  | nil => simp [serverLists]
  | cons s server ih =>
    by_cases hk : kem = s
    · simp [serverLists, hk]
    · simp [serverLists, hk, ih]

theorem firstListed_eq (server client : List UInt16) :
    firstListed server client = client.find? fun kem => kem ∈ server := by
  induction client with
  | nil => rfl
  | cons kem client ih =>
    by_cases hk : kem ∈ server
    · simp [firstListed, (serverLists_iff kem server).mpr hk, hk]
    · have hno : serverLists kem server = false := by
        rw [← Bool.not_eq_true, serverLists_iff]
        exact hk
      simp [firstListed, hno, hk, ih]

/-- The first of the client's KEMs that the server lists. -/
theorem tlsPqkexSelectKem_eq {client rest server : List UInt16} {serverCnt : Nat}
    (h1 : 1 ≤ client.length) (h8 : client.length ≤ tlsPqkexMaxKems)
    (hs : serverCnt ≤ tlsPqkexMaxKems) (selected : UInt16) :
    tlsPqkexSelectKem (client ++ rest) client.length server serverCnt selected =
      match client.find? fun kem => kem ∈ server.take serverCnt with
      | some kem => (1, kem)
      | none => (0, tlsPqkexKemNone) := by
  rw [tlsPqkexSelectKem, if_neg (by omega), List.take_left, firstListed_eq]

/-- The choice fails before it writes. -/
theorem tlsPqkexSelectKem_failed {client server : List UInt16} {clientCnt serverCnt : Nat}
    {selected : UInt16}
    (h : (tlsPqkexSelectKem client clientCnt server serverCnt selected).1 < 0) :
    (tlsPqkexSelectKem client clientCnt server serverCnt selected).2 = selected := by
  simp only [tlsPqkexSelectKem] at h ⊢
  split
  · rfl
  · rename_i hbounds
    rw [if_neg hbounds] at h
    split at h
    · cases h
    · cases h

section

variable {G : GmsslBytes}

/-! ## The connection -/

/-- What a call does: nothing, or it decides a TLCP connection that was not offered the extension,
over data that parses. -/
theorem tlcpProcessClientPqkex_cases (stack : KemArray) (ctx : Option PqkexCtx)
    (conn : PqkexConnect) (extData : CArg) :
    tlcpProcessClientPqkex G stack ctx conn extData = (false, conn) ∨
      conn.protocol = .tlcp ∧ conn.pqkexOffered = false ∧
        (tlsPqkexFromBytes G stack.val 0 tlsPqkexMaxKems extData).ok = true ∧
        (tlcpProcessClientPqkex G stack ctx conn extData).1 = true ∧
        (tlcpProcessClientPqkex G stack ctx conn extData).2.pqkexOffered = true := by
  cases ctx with
  | none => exact Or.inl rfl
  | some ctx =>
    simp only [tlcpProcessClientPqkex]
    split
    · exact Or.inl rfl
    rename_i hguard
    split
    · exact Or.inl rfl
    rename_i hok
    split
    · rename_i hret
      refine Or.inl ?_
      rw [tlsPqkexSelectKem_failed hret]
    · simp only [not_or, not_not, Bool.not_eq_true] at hguard
      exact Or.inr ⟨hguard.1, hguard.2, by simpa using hok, rfl, rfl⟩

/-- A call that fails leaves the connection as it was. -/
theorem tlcpProcessClientPqkex_failed {stack : KemArray} {ctx : Option PqkexCtx}
    {conn : PqkexConnect} {extData : CArg}
    (h : (tlcpProcessClientPqkex G stack ctx conn extData).1 = false) :
    (tlcpProcessClientPqkex G stack ctx conn extData).2 = conn := by
  obtain heq | ⟨_, _, _, htrue, _⟩ := tlcpProcessClientPqkex_cases stack ctx conn extData
  · rw [heq]
  · rw [htrue] at h
    cases h

/-- Data that does not parse changes nothing. -/
theorem tlcpProcessClientPqkex_unparsed {stack : KemArray} {conn : PqkexConnect} {extData : CArg}
    (h : (tlsPqkexFromBytes G stack.val 0 tlsPqkexMaxKems extData).ok = false)
    (ctx : Option PqkexCtx) : tlcpProcessClientPqkex G stack ctx conn extData = (false, conn) := by
  obtain heq | ⟨_, _, hok, _⟩ := tlcpProcessClientPqkex_cases stack ctx conn extData
  · exact heq
  · rw [h] at hok
    cases hok

theorem tlcpProcessClientPqkex_marks {stack : KemArray} {ctx : Option PqkexCtx}
    {conn : PqkexConnect} {extData : CArg}
    (h : (tlcpProcessClientPqkex G stack ctx conn extData).1 = true) :
    (tlcpProcessClientPqkex G stack ctx conn extData).2.pqkexOffered = true := by
  obtain heq | ⟨_, _, _, _, hoffered⟩ := tlcpProcessClientPqkex_cases stack ctx conn extData
  · rw [heq] at h
    cases h
  · exact hoffered

theorem tlcpProcessClientPqkex_offered {conn : PqkexConnect} (h : conn.pqkexOffered = true)
    (stack : KemArray) (ctx : Option PqkexCtx) (extData : CArg) :
    tlcpProcessClientPqkex G stack ctx conn extData = (false, conn) := by
  obtain heq | ⟨_, hno, _⟩ := tlcpProcessClientPqkex_cases stack ctx conn extData
  · exact heq
  · rw [h] at hno
    cases hno

variable (hG : G.BigEndian)

include hG

theorem tlsPqkexFromBytes_of_parses (stack : KemArray) {extData : CArg} {client : List UInt16}
    (h : PqkexParses extData client) :
    tlsPqkexFromBytes G stack.val 0 tlsPqkexMaxKems extData =
      ⟨true, client ++ stack.val.drop client.length, client.length⟩ := by
  obtain ⟨h1, h8, rfl⟩ := h
  exact tlsPqkexFromBytes_pqkexData hG h1 h8 (Nat.le_refl _) (Nat.le_of_eq stack.length_val.symm)

/-- What parses is a list of one to eight identifiers. -/
theorem tlsPqkexFromBytes_ok_iff_parses (stack : KemArray) (extData : CArg) :
    (tlsPqkexFromBytes G stack.val 0 tlsPqkexMaxKems extData).ok = true ↔
      ∃ client, PqkexParses extData client := by
  constructor
  · intro hok
    cases extData with
    | null n => cases hok
    | buf b =>
      obtain ⟨list, hb, heven, hmin, hmax⟩ := (tlsPqkexFromBytes_ok_iff hG (by decide)
        (Nat.le_refl _) (Nat.le_of_eq stack.length_val.symm)).mp hok
      have hlen : list.length = 2 * (list.length / 2) := by omega
      obtain ⟨hflat, hwords⟩ := flatMap_putU16_words hlen
      refine ⟨words list, by omega, by omega, ?_⟩
      rw [pqkexData, hflat, hb]
  · intro hex
    obtain ⟨client, hparse⟩ := hex
    rw [tlsPqkexFromBytes_of_parses hG stack hparse]

/-- The connection after an offer that parses. -/
theorem tlcpProcessClientPqkex_parses {ctx : PqkexCtx} (hctx : ctx.Inv) {conn : PqkexConnect}
    (hp : conn.protocol = .tlcp) (ho : conn.pqkexOffered = false) (stack : KemArray)
    {extData : CArg} {client : List UInt16} (hparse : PqkexParses extData client) :
    tlcpProcessClientPqkex G stack (some ctx) conn extData =
      (true, { conn with
        pqkexOffered := true
        pqkexNegotiated := (client.find? fun kem => kem ∈ ctx.kems).isSome
        pqkexSelectedKem := (client.find? fun kem => kem ∈ ctx.kems).getD tlsPqkexKemNone }) := by
  have hguard : ¬ (conn.protocol ≠ .tlcp ∨ conn.pqkexOffered = true) := by simp [hp, ho]
  simp only [tlcpProcessClientPqkex, if_neg hguard, tlsPqkexFromBytes_of_parses hG stack hparse,
    tlsPqkexSelectKem_eq hparse.1 hparse.2.1 hctx.count]
  have hkems : ctx.pqkexKems.val.take ctx.pqkexKemsCnt = ctx.kems := rfl
  rw [hkems]
  cases client.find? fun kem => kem ∈ ctx.kems with
  | none => rfl
  | some kem => rfl

theorem tlcpProcessClientPqkex_true_iff {ctx : PqkexCtx} (hctx : ctx.Inv) {conn : PqkexConnect}
    (stack : KemArray) (extData : CArg) :
    (tlcpProcessClientPqkex G stack (some ctx) conn extData).1 = true ↔
      conn.protocol = .tlcp ∧ conn.pqkexOffered = false ∧
        (tlsPqkexFromBytes G stack.val 0 tlsPqkexMaxKems extData).ok = true := by
  constructor
  · intro h
    obtain heq | ⟨hp, ho, hok, _⟩ := tlcpProcessClientPqkex_cases stack (some ctx) conn extData
    · rw [heq] at h
      cases h
    · exact ⟨hp, ho, hok⟩
  · intro h
    obtain ⟨hp, ho, hok⟩ := h
    obtain ⟨client, hparse⟩ := (tlsPqkexFromBytes_ok_iff_parses hG stack extData).mp hok
    rw [tlcpProcessClientPqkex_parses hG hctx hp ho stack hparse]

omit hG in
/-- The fields of a decided connection: the first identifier that both lists have. -/
theorem PqkexCtx.Inv.chosen {ctx : PqkexCtx} (h : ctx.Inv) {client : List UInt16}
    (hsome : (client.find? fun kem => kem ∈ ctx.kems).isSome = true) :
    (client.find? fun kem => kem ∈ ctx.kems).getD tlsPqkexKemNone ≠ tlsPqkexKemNone := by
  obtain ⟨kem, hfind⟩ := Option.isSome_iff_exists.mp hsome
  have hmem : kem ∈ ctx.kems := by simpa using List.find?_some hfind
  rw [hfind, Option.getD_some]
  intro heq
  rw [heq] at hmem
  exact h.none_not_listed hmem

/-- What holds of a context and a connection between calls. -/
structure PqkexOp.Inv (conn : PqkexConnect) (s : PqkexCtx × PqkexConnect) : Prop where
  ctx : s.1.Inv
  fresh : s.2.pqkexOffered = false → s.2 = conn
  chosen : s.2.pqkexOffered = true → s.2.pqkexNegotiated = true →
    s.2.pqkexSelectedKem ≠ tlsPqkexKemNone

theorem PqkexOp.step_inv {conn : PqkexConnect} {s : PqkexCtx × PqkexConnect}
    (h : PqkexOp.Inv conn s) (op : PqkexOp) : PqkexOp.Inv conn (PqkexOp.step G s op) := by
  cases op with
  | set arg => exact ⟨h.ctx.set arg, h.fresh, h.chosen⟩
  | process stack extData =>
    by_cases hret : (tlcpProcessClientPqkex G stack (some s.1) s.2 extData).1 = true
    · obtain ⟨hp, ho, hok⟩ := (tlcpProcessClientPqkex_true_iff hG h.ctx stack extData).mp hret
      obtain ⟨client, hparse⟩ := (tlsPqkexFromBytes_ok_iff_parses hG stack extData).mp hok
      have hconn := tlcpProcessClientPqkex_parses hG h.ctx hp ho stack hparse
      refine ⟨h.ctx, ?_, ?_⟩
      · intro hno
        rw [PqkexOp.step, hconn] at hno
        cases hno
      · intro _ hneg
        rw [PqkexOp.step, hconn] at hneg ⊢
        exact h.ctx.chosen hneg
    · have hsame := tlcpProcessClientPqkex_failed (Bool.not_eq_true _ ▸ hret)
      rw [PqkexOp.step, hsame]
      exact h

theorem PqkexOp.run_inv {conn : PqkexConnect} {s : PqkexCtx × PqkexConnect}
    (h : PqkexOp.Inv conn s) (ops : List PqkexOp) : PqkexOp.Inv conn (PqkexOp.run G ops s) := by
  induction ops generalizing s with
  | nil => exact h
  | cons op ops ih => exact ih (PqkexOp.step_inv hG h op)

omit hG in
/-- A connection that has been offered the extension keeps its fields through any calls. -/
theorem PqkexOp.run_frozen {s : PqkexCtx × PqkexConnect} (h : s.2.pqkexOffered = true)
    (ops : List PqkexOp) : (PqkexOp.run G ops s).2 = s.2 := by
  induction ops generalizing s with
  | nil => rfl
  | cons op ops ih =>
    have hstep : (PqkexOp.step G s op).2 = s.2 := by
      cases op with
      | set arg => rfl
      | process stack extData =>
        rw [PqkexOp.step, tlcpProcessClientPqkex_offered h]
    have hrest := ih (s := PqkexOp.step G s op) (by rw [hstep]; exact h)
    rw [hstep] at hrest
    exact hrest

end

/-- **Selection.** On a TLCP connection not yet offered the extension, a call returns 1 exactly when
the data parses, and then records the first identifier of the client that the context lists; a call
that fails changes nothing, as does every call after one that returned 1; a setter that fails leaves
the list. In any run, what is negotiated is never the number for none. -/
theorem pqkex_selection {G : GmsslBytes} (hG : G.BigEndian) :
    (∀ protocol kems args stack conn extData,
      let ctx := tlsCtxSetAll (.unset protocol kems) args
      let r := tlcpProcessClientPqkex G stack (some ctx) conn extData
      conn.protocol = .tlcp → conn.pqkexOffered = false →
      (r.1 = true ↔ (tlsPqkexFromBytes G stack.val 0 tlsPqkexMaxKems extData).ok = true) ∧
      (r.1 = true ↔ ∃ client, PqkexParses extData client) ∧
      (∀ client, PqkexParses extData client →
        r.2.protocol = conn.protocol ∧ r.2.pqkexOffered = true ∧
        (r.2.pqkexNegotiated = true ↔ ∃ kem ∈ client, kem ∈ ctx.kems) ∧
        r.2.pqkexSelectedKem = (client.find? fun kem => kem ∈ ctx.kems).getD tlsPqkexKemNone ∧
        (r.2.pqkexNegotiated = true → r.2.pqkexSelectedKem ≠ tlsPqkexKemNone)) ∧
      (r.1 = false → r.2 = conn)) ∧
    (∀ stack ctx conn extData,
      (tlcpProcessClientPqkex G stack ctx conn extData).1 = false →
      (tlcpProcessClientPqkex G stack ctx conn extData).2 = conn) ∧
    (∀ stack ctx conn extData stack' ctx' extData',
      (tlcpProcessClientPqkex G stack ctx conn extData).1 = true →
      let conn' := (tlcpProcessClientPqkex G stack ctx conn extData).2
      tlcpProcessClientPqkex G stack' ctx' conn' extData' = (false, conn')) ∧
    (∀ ctx arg, (tlsCtxSetPqkexKems ctx arg).1 = false → (tlsCtxSetPqkexKems ctx arg).2 = ctx) ∧
    (∀ protocol kems conn ops₁ ops₂, conn.pqkexOffered = false →
      let s := PqkexOp.run G ops₁ (.unset protocol kems, conn)
      (s.2.pqkexOffered = false → s.2 = conn) ∧
      (s.2.pqkexOffered = true → (PqkexOp.run G ops₂ s).2 = s.2 ∧
        (s.2.pqkexNegotiated = true → s.2.pqkexSelectedKem ≠ tlsPqkexKemNone))) := by
  refine ⟨?_, fun _ _ _ _ => tlcpProcessClientPqkex_failed, ?_,
    fun _ _ => tlsCtxSetPqkexKems_failed, ?_⟩
  · intro protocol kems args stack conn extData ctx r hp ho
    have hctx : ctx.Inv := (PqkexCtx.inv_unset protocol kems).setAll args
    have hok : r.1 = true ↔
        (tlsPqkexFromBytes G stack.val 0 tlsPqkexMaxKems extData).ok = true := by
      rw [tlcpProcessClientPqkex_true_iff hG hctx]
      exact ⟨fun h => h.2.2, fun h => ⟨hp, ho, h⟩⟩
    refine ⟨hok, hok.trans (tlsPqkexFromBytes_ok_iff_parses hG stack extData), ?_,
      tlcpProcessClientPqkex_failed⟩
    intro client hparse
    have hr := tlcpProcessClientPqkex_parses hG hctx hp ho stack hparse
    simp only [r, hr]
    refine ⟨trivial, trivial, ?_, trivial, hctx.chosen⟩
    rw [List.find?_isSome]
    simp only [decide_eq_true_eq]
  · intro stack ctx conn extData stack' ctx' extData' h conn'
    exact tlcpProcessClientPqkex_offered (tlcpProcessClientPqkex_marks h) _ _ _
  · intro protocol kems conn ops₁ ops₂ ho s
    have hstart : PqkexOp.Inv conn (.unset protocol kems, conn) := by
      refine ⟨PqkexCtx.inv_unset protocol kems, fun _ => rfl, ?_⟩
      intro h
      rw [ho] at h
      cases h
    have hs := PqkexOp.run_inv hG hstart ops₁
    exact ⟨hs.fresh, fun h => ⟨PqkexOp.run_frozen h ops₂, hs.chosen h⟩⟩

namespace Toy

/-- An array of zeros. -/
def kemArray : KemArray := ⟨[0, 0, 0, 0, 0, 0, 0, 0], rfl⟩

/-- The data `00 02 00 01`, one identifier. -/
def pqkexOffer : CArg := .buf [0x00, 0x02, 0x00, 0x01]

theorem pqkexOffer_parses : PqkexParses pqkexOffer [tlsPqkexKemMlkem768] :=
  ⟨by decide, by decide, by decide⟩

end Toy

/-- A connection to a context that lists ML-KEM-768 selects it. -/
theorem pqkex_selection_mlkem768 :
    let ctx := tlsCtxSetAll (.unset .tlcp Toy.kemArray) [.array [tlsPqkexKemMlkem768]]
    let r := tlcpProcessClientPqkex Toy.gmsslBytes Toy.kemArray (some ctx)
      ⟨.tlcp, false, false, 7⟩ Toy.pqkexOffer
    r.1 = true ∧ r.2.pqkexSelectedKem = tlsPqkexKemMlkem768 := by
  obtain ⟨_, hiff, hfields, _⟩ := (pqkex_selection Toy.bigEndian).1 .tlcp Toy.kemArray
    [.array [tlsPqkexKemMlkem768]] Toy.kemArray ⟨.tlcp, false, false, 7⟩ Toy.pqkexOffer rfl rfl
  exact ⟨hiff.mpr ⟨_, Toy.pqkexOffer_parses⟩, (hfields _ Toy.pqkexOffer_parses).2.2.2.1⟩

/-- Data that parses is refused on a connection of another protocol; and a call that comes after one
that failed may return 1 and change the connection. -/
theorem pqkex_selection_guarded :
    let ctx := PqkexCtx.unset .tlcp Toy.kemArray
    let conn : PqkexConnect := ⟨.tlcp, false, false, 7⟩
    (tlsPqkexFromBytes Toy.gmsslBytes Toy.kemArray.val 0 tlsPqkexMaxKems Toy.pqkexOffer).ok = true ∧
    tlcpProcessClientPqkex Toy.gmsslBytes Toy.kemArray (some ctx) ⟨.other, false, false, 7⟩
      Toy.pqkexOffer = (false, ⟨.other, false, false, 7⟩) ∧
    tlcpProcessClientPqkex Toy.gmsslBytes Toy.kemArray (some ctx) conn (.null 0) = (false, conn) ∧
    tlcpProcessClientPqkex Toy.gmsslBytes Toy.kemArray (some ctx) conn Toy.pqkexOffer =
      (true, ⟨.tlcp, true, false, tlsPqkexKemNone⟩) := by
  decide

end HybridPqc
