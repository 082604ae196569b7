import HybridPqc.Tools.PqkexCaptureDemo

/-!
# Tlcp.PqkexHello

The PQKEX extension in a TLCP ClientHello: `tlcp_send_client_hello` appends it where the context
lists KEMs, and the loop of `tlcp_recv_client_hello` takes it among the others. Those are left to
the unmodified code, which keeps what it reads of them in a state of its own.

* `recvExtensions`: the loop over the bytes; `helloExts` is the same over a list of extensions.
* `recvExtensions_total`: the loop ends on every block, and accepts sequences of extensions only.
* `helloExts_accepted`, `recvExtensions_refused`: what each of the two results says.
* `pqkex_hello_negotiates`: a client and a server configured by any calls.
-/

namespace HybridPqc

open Tls

/-- The alerts that the case of the extension sends. -/
inductive PqkexAlert where
  | illegalParameter
  | decodeError
  deriving DecidableEq

/-- How the loop over the extensions ends: with the state of the other cases and the connection, in
the new case, or in another error. -/
inductive HelloLoop (σ : Type) where
  | accepted (x : σ) (conn : PqkexConnect)
  | refused (alert : PqkexAlert) (conn : PqkexConnect)
  | failed
  deriving DecidableEq

section

variable {σ : Type} (G : GmsslBytes) (E : GmsslExt) (otherExt : σ → UInt16 → Bytes → Option σ)

/-- The extensions of `tlcp_send_client_hello` after those in `exts`. -/
def tlcpSendClientHelloExts (ctx : PqkexCtx) (conn : PqkexConnect) (exts : Bytes) :
    Option (Bytes × PqkexConnect) :=
  if ctx.pqkexKemsCnt ≠ 0 then do
    let ext ← tlsPqkexExtToBytes G ctx.kems
    return (exts ++ ext, { conn with pqkexOffered := true })
  else some (exts, conn)

/-- The case of the extension: the connection, or the alert with it. -/
def recvPqkex (stack : KemArray) (ctx : PqkexCtx) (conn : PqkexConnect) (extData : CArg) :
    Except (PqkexAlert × PqkexConnect) PqkexConnect :=
  let r := tlcpProcessClientPqkex G stack (some ctx) conn extData
  if r.1 = false then
    .error (if r.2.pqkexOffered then .illegalParameter else .decodeError, r.2)
  else .ok r.2

/-- The loop of `tlcp_recv_client_hello`; `none` is without fuel. `otherExt` has the error of the
`default` case too. -/
def recvExtensions (stack : KemArray) (ctx : PqkexCtx) :
    Nat → Bytes → σ → PqkexConnect → Option (HelloLoop σ)
  | _, [], x, conn => some (.accepted x conn)
  | 0, _ :: _, _, _ => none
  | fuel + 1, b :: exts, x, conn =>
    match E.tlsExtFromBytes (b :: exts) with
    | none => some .failed
    | some (type, data, exts) =>
      if type = tlsExtensionPqkex then
        match recvPqkex G stack ctx conn data with
        | .error (alert, conn) => some (.refused alert conn)
        | .ok conn => recvExtensions stack ctx fuel exts x conn
      else
        match otherExt x type data.bytes with
        | none => some .failed
        | some x => recvExtensions stack ctx fuel exts x conn

/-- The loop over a list of extensions. -/
def helloExts (stack : KemArray) (ctx : PqkexCtx) :
    List (UInt16 × Bytes) → σ → PqkexConnect → HelloLoop σ
  | [], x, conn => .accepted x conn
  | (type, data) :: exts, x, conn =>
    if type = tlsExtensionPqkex then
      match recvPqkex G stack ctx conn (.buf data) with
      | .error (alert, conn) => .refused alert conn
      | .ok conn => helloExts stack ctx exts x conn
    else
      match otherExt x type data with
      | none => .failed
      | some x => helloExts stack ctx exts x conn

/-- The other cases alone. -/
def otherExts : List (UInt16 × Bytes) → σ → Option σ
  | [], x => some x
  | (type, data) :: exts, x =>
    if type = tlsExtensionPqkex then otherExts exts x
    else (otherExt x type data).bind (otherExts exts)

end

section

variable {σ : Type} {G : GmsslBytes} {E : GmsslExt} {otherExt : σ → UInt16 → Bytes → Option σ}
  {stack : KemArray} {ctx : PqkexCtx}

theorem otherExts_append (exts exts' : List (UInt16 × Bytes)) (x : σ) :
    otherExts otherExt (exts ++ exts') x =
      (otherExts otherExt exts x).bind (otherExts otherExt exts') := by
  induction exts generalizing x with
  | nil => rfl
  | cons e exts ih =>
    obtain ⟨type, data⟩ := e
    by_cases htype : type = tlsExtensionPqkex
    · simp [otherExts, htype, ih]
    · cases hother : otherExt x type data with
      | none => simp [otherExts, htype, hother]
      | some x1 => simp [otherExts, htype, hother, ih]

theorem pqkexData_length {kems : List UInt16} (h : kems.length ≤ tlsPqkexMaxKems) :
    (pqkexData kems).length < 65536 := by
  have hlen := flatMap_putU16_length kems
  simp only [pqkexData, putVector, putU16, List.length_append, List.length_cons, List.length_nil,
    hlen, tlsPqkexMaxKems] at h ⊢
  omega

/-! ## The bytes and the list -/

theorem recvPqkex_bytes (hG : G.BigEndian) (conn : PqkexConnect) (arg : CArg) :
    recvPqkex G stack ctx conn arg = recvPqkex G stack ctx conn (.buf arg.bytes) := by
  simp only [recvPqkex, tlcpProcessClientPqkex_bytes hG arg]

/-- One extension of the loop. -/
def recvExt (G : GmsslBytes) (otherExt : σ → UInt16 → Bytes → Option σ) (stack : KemArray)
    (ctx : PqkexCtx) (type : UInt16) (data : CArg) (x : σ) (conn : PqkexConnect) : HelloLoop σ :=
  if type = tlsExtensionPqkex then
    match recvPqkex G stack ctx conn data with
    | .error (alert, conn) => .refused alert conn
    | .ok conn => .accepted x conn
  else
    match otherExt x type data.bytes with
    | none => .failed
    | some x => .accepted x conn

/-- The rest of the loop, where it gets to one. -/
def HelloLoop.andThen (r : HelloLoop σ) (rest : σ → PqkexConnect → Option (HelloLoop σ)) :
    Option (HelloLoop σ) :=
  match r with
  | .accepted x conn => rest x conn
  | .refused alert conn => some (.refused alert conn)
  | .failed => some .failed

theorem recvExt_bytes (hG : G.BigEndian) (type : UInt16) (arg : CArg) (x : σ)
    (conn : PqkexConnect) :
    recvExt G otherExt stack ctx type arg x conn =
      recvExt G otherExt stack ctx type (.buf arg.bytes) x conn := by
  rw [recvExt, recvExt, recvPqkex_bytes hG]
  rfl

theorem recvExtensions_step {fuel : Nat} {b rest : Bytes} {b0 : UInt8} {type : UInt16}
    {arg : CArg} (hread : E.tlsExtFromBytes (b0 :: b) = some (type, arg, rest)) (x : σ)
    (conn : PqkexConnect) :
    recvExtensions G E otherExt stack ctx (fuel + 1) (b0 :: b) x conn =
      (recvExt G otherExt stack ctx type arg x conn).andThen
        (recvExtensions G E otherExt stack ctx fuel rest) := by
  rw [recvExtensions, hread, recvExt]
  dsimp only
  split
  · cases recvPqkex G stack ctx conn arg with
    | error p => rfl
    | ok conn' => rfl
  · cases otherExt x type arg.bytes with
    | none => rfl
    | some x' => rfl

theorem helloExts_step (type : UInt16) (data : Bytes) (exts : List (UInt16 × Bytes)) (x : σ)
    (conn : PqkexConnect) :
    some (helloExts G otherExt stack ctx ((type, data) :: exts) x conn) =
      (recvExt G otherExt stack ctx type (.buf data) x conn).andThen fun x conn =>
        some (helloExts G otherExt stack ctx exts x conn) := by
  rw [helloExts, recvExt]
  dsimp only [CArg.bytes]
  split
  · cases recvPqkex G stack ctx conn (.buf data) with
    | error p => rfl
    | ok conn' => rfl
  · cases otherExt x type data with
    | none => rfl
    | some x' => rfl

/-- With fuel for every byte; by induction on the extensions. -/
theorem recvExtensions_flatMap (hG : G.BigEndian) (hE : E.Tlv) {exts : List (UInt16 × Bytes)}
    (hfit : ExtsFit exts) {fuel : Nat} (hfuel : (exts.flatMap putExt).length ≤ fuel) (x : σ)
    (conn : PqkexConnect) :
    recvExtensions G E otherExt stack ctx fuel (exts.flatMap putExt) x conn =
      some (helloExts G otherExt stack ctx exts x conn) := by
  induction exts generalizing fuel x conn with
  | nil =>
    cases fuel with
    | zero => rfl
    | succ fuel => rfl
  | cons e exts ih =>
    obtain ⟨type, data⟩ := e
    rw [List.flatMap_cons, List.length_append, putExt_length] at hfuel
    obtain ⟨f, rfl⟩ : ∃ f, fuel = f + 1 := ⟨fuel - 1, by omega⟩
    have he : data.length < 65536 := hfit _ List.mem_cons_self
    have hfit' : ExtsFit exts := fun e' he' => hfit e' (List.mem_cons_of_mem _ he')
    obtain ⟨arg, _, hbytes, hread⟩ := hE.reads type data (exts.flatMap putExt) he
    obtain ⟨b, tail, hcons⟩ := List.exists_cons_of_length_pos
      (l := putExt (type, data) ++ exts.flatMap putExt) (by
        rw [List.length_append, putExt_length]
        omega)
    rw [hcons] at hread
    rw [List.flatMap_cons, hcons, recvExtensions_step hread, recvExt_bytes hG, hbytes,
      helloExts_step]
    cases recvExt G otherExt stack ctx type (.buf data) x conn with
    | accepted x' conn' => exact ih hfit' (by omega) x' conn'
    | refused alert conn' => rfl
    | failed => rfl

/-- The loop ends, and gets through nothing but a sequence of extensions. -/
theorem recvExtensions_total (hE : E.Tlv) {fuel : Nat} {b : Bytes} (h : b.length ≤ fuel) (x : σ)
    (conn : PqkexConnect) :
    ∃ r, recvExtensions G E otherExt stack ctx fuel b x conn = some r ∧
      ∀ x' conn', r = .accepted x' conn' → ∃ exts, ExtsFit exts ∧ b = exts.flatMap putExt := by
  induction fuel generalizing b x conn with
  | zero =>
    cases List.length_eq_zero_iff.mp (Nat.le_zero.mp h)
    exact ⟨_, rfl, fun _ _ _ => ⟨[], by simp [ExtsFit], rfl⟩⟩
  | succ fuel ih =>
    cases b with
    | nil => exact ⟨_, rfl, fun _ _ _ => ⟨[], by simp [ExtsFit], rfl⟩⟩
    | cons b0 b =>
      cases hread : E.tlsExtFromBytes (b0 :: b) with
      | none =>
        rw [recvExtensions, hread]
        refine ⟨.failed, rfl, ?_⟩
        intro x' conn' hacc
        cases hacc
      | some p =>
        obtain ⟨type, arg, rest⟩ := p
        obtain ⟨_, hl, hb⟩ := hE.only _ _ _ _ hread
        have hrest : rest.length ≤ fuel := by
          have hlen := congrArg List.length hb
          rw [List.length_append, putExt_length] at hlen
          omega
        rw [recvExtensions_step hread]
        cases recvExt G otherExt stack ctx type arg x conn with
        | accepted x1 conn1 =>
          obtain ⟨r, hr, hwf⟩ := ih hrest x1 conn1
          refine ⟨r, hr, ?_⟩
          intro x' conn' hacc
          obtain ⟨exts, hfit, heq⟩ := hwf x' conn' hacc
          refine ⟨(type, arg.bytes) :: exts, ?_, by rw [hb, heq, List.flatMap_cons]⟩
          intro e he
          rcases List.mem_cons.mp he with rfl | he
          · exact hl
          · exact hfit e he
        | refused alert conn1 =>
          refine ⟨.refused alert conn1, rfl, ?_⟩
          intro x' conn' hacc
          cases hacc
        | failed =>
          refine ⟨.failed, rfl, ?_⟩
          intro x' conn' hacc
          cases hacc

/-! ## The case of the extension -/

/-- The connection after an offer of `client`. -/
def decided (ctx : PqkexCtx) (conn : PqkexConnect) (client : List UInt16) : PqkexConnect :=
  { conn with
    pqkexOffered := true
    pqkexNegotiated := (client.find? fun kem => kem ∈ ctx.kems).isSome
    pqkexSelectedKem := (client.find? fun kem => kem ∈ ctx.kems).getD tlsPqkexKemNone }

theorem recvPqkex_offered {conn : PqkexConnect} (h : conn.pqkexOffered = true) (arg : CArg) :
    recvPqkex G stack ctx conn arg = .error (.illegalParameter, conn) := by
  simp [recvPqkex, tlcpProcessClientPqkex_offered h, h]

theorem recvPqkex_parses (hG : G.BigEndian) (hctx : ctx.Inv) {conn : PqkexConnect}
    (hp : conn.protocol = .tlcp) (ho : conn.pqkexOffered = false) {arg : CArg}
    {client : List UInt16} (hparse : PqkexParses arg client) :
    recvPqkex G stack ctx conn arg = .ok (decided ctx conn client) := by
  simp [recvPqkex, tlcpProcessClientPqkex_parses hG hctx hp ho stack hparse, decided]

theorem recvPqkex_unparsed (hG : G.BigEndian) {conn : PqkexConnect}
    (ho : conn.pqkexOffered = false) {arg : CArg} (h : ¬ ∃ client, PqkexParses arg client) :
    recvPqkex G stack ctx conn arg = .error (.decodeError, conn) := by
  have hok : (tlsPqkexFromBytes G stack.val 0 tlsPqkexMaxKems arg).ok = false := by
    rw [← Bool.not_eq_true, tlsPqkexFromBytes_ok_iff_parses hG]
    exact h
  simp [recvPqkex, tlcpProcessClientPqkex_unparsed hok, ho]

theorem PqkexParses.unique (hG : G.BigEndian) (stack : KemArray) {arg : CArg}
    {client client' : List UInt16} (h : PqkexParses arg client) (h' : PqkexParses arg client') :
    client = client' := by
  have heq := (tlsPqkexFromBytes_of_parses hG stack h).symm.trans
    (tlsPqkexFromBytes_of_parses hG stack h')
  simp only [PqkexOutcome.mk.injEq, true_and] at heq
  exact (List.append_inj heq.1 heq.2).1

/-! ## What the loop makes of the PQKEX extensions -/

/-- The case of the extension on one after the other. -/
def recvOffers (G : GmsslBytes) (stack : KemArray) (ctx : PqkexCtx) :
    List Bytes → PqkexConnect → Except (PqkexAlert × PqkexConnect) PqkexConnect
  | [], conn => .ok conn
  | data :: offers, conn =>
    (recvPqkex G stack ctx conn (.buf data)).bind (recvOffers G stack ctx offers)

theorem recvExt_accepted {type : UInt16} {data : Bytes} {x x' : σ} {conn conn' : PqkexConnect}
    (h : recvExt G otherExt stack ctx type (.buf data) x conn = .accepted x' conn')
    (exts : List (UInt16 × Bytes)) :
    recvOffers G stack ctx (pqkexOffers ((type, data) :: exts)) conn =
      recvOffers G stack ctx (pqkexOffers exts) conn' := by
  rw [recvExt] at h
  split at h
  · rename_i htype
    rw [pqkexOffers_cons_pqkex htype, recvOffers]
    cases hrecv : recvPqkex G stack ctx conn (.buf data) with
    | error p =>
      rw [hrecv] at h
      cases h
    | ok conn1 =>
      rw [hrecv] at h
      cases h
      rfl
  · rename_i htype
    rw [pqkexOffers_cons_other htype]
    split at h
    · cases h
    · cases h
      rfl

theorem recvExt_refused {type : UInt16} {data : Bytes} {x : σ} {conn conn' : PqkexConnect}
    {alert : PqkexAlert}
    (h : recvExt G otherExt stack ctx type (.buf data) x conn = .refused alert conn') :
    type = tlsExtensionPqkex ∧
      recvPqkex G stack ctx conn (.buf data) = .error (alert, conn') := by
  rw [recvExt] at h
  split at h
  · rename_i htype
    refine ⟨htype, ?_⟩
    cases hrecv : recvPqkex G stack ctx conn (.buf data) with
    | error p =>
      rw [hrecv] at h
      cases h
      rfl
    | ok conn1 =>
      rw [hrecv] at h
      cases h
  · split at h
    · cases h
    · cases h

/-- The two kinds of extensions do not meet. -/
theorem helloExts_accepted {exts : List (UInt16 × Bytes)} {x x' : σ} {conn conn' : PqkexConnect} :
    helloExts G otherExt stack ctx exts x conn = .accepted x' conn' ↔
      otherExts otherExt exts x = some x' ∧
        recvOffers G stack ctx (pqkexOffers exts) conn = .ok conn' := by
  induction exts generalizing x conn with
  | nil => simp [helloExts, otherExts, pqkexOffers, recvOffers]
  | cons e exts ih =>
    obtain ⟨type, data⟩ := e
    by_cases htype : type = tlsExtensionPqkex
    · rw [pqkexOffers_cons_pqkex htype, helloExts, otherExts, if_pos htype, if_pos htype,
        recvOffers]
      cases recvPqkex G stack ctx conn (.buf data) with
      | error p => simp [Except.bind]
      | ok conn1 => exact ih
    · rw [pqkexOffers_cons_other htype, helloExts, otherExts, if_neg htype, if_neg htype]
      cases otherExt x type data with
      | none => simp
      | some x1 => exact ih

/-- The loop is refused at an extension that comes after others it got through. -/
theorem recvExtensions_refused (hG : G.BigEndian) (hE : E.Tlv) {fuel : Nat} {b : Bytes} {x : σ}
    {conn conn' : PqkexConnect} {alert : PqkexAlert}
    (h : recvExtensions G E otherExt stack ctx fuel b x conn = some (.refused alert conn')) :
    ∃ before data rest conn1, b = before.flatMap putExt ++
        (putExt (tlsExtensionPqkex, data) ++ rest) ∧
      recvOffers G stack ctx (pqkexOffers before) conn = .ok conn1 ∧
      recvPqkex G stack ctx conn1 (.buf data) = .error (alert, conn') := by
  induction fuel generalizing b x conn with
  | zero =>
    cases b with
    | nil => cases h
    | cons b0 b => cases h
  | succ fuel ih =>
    cases b with
    | nil => cases h
    | cons b0 b =>
      cases hread : E.tlsExtFromBytes (b0 :: b) with
      | none =>
        rw [recvExtensions, hread] at h
        cases h
      | some p =>
        obtain ⟨type, arg, rest⟩ := p
        obtain ⟨_, _, hb⟩ := hE.only _ _ _ _ hread
        rw [recvExtensions_step hread, recvExt_bytes hG] at h
        cases hext : recvExt G otherExt stack ctx type (.buf arg.bytes) x conn with
        | accepted x1 conn1 =>
          rw [hext] at h
          obtain ⟨before, data, rest', conn2, hrest, hoffers, herror⟩ := ih h
          refine ⟨(type, arg.bytes) :: before, data, rest', conn2, ?_, ?_, herror⟩
          · rw [hb, hrest, List.flatMap_cons, List.append_assoc]
          · rw [recvExt_accepted hext]
            exact hoffers
        | refused alert' conn1 =>
          rw [hext] at h
          cases h
          obtain ⟨htype, herror⟩ := recvExt_refused hext
          exact ⟨[], arg.bytes, rest, conn, by rw [hb, htype]; rfl, rfl, herror⟩
        | failed =>
          rw [hext] at h
          cases h

/-- What the PQKEX extensions make of a connection that was not offered any. -/
inductive OffersDecide (ctx : PqkexCtx) (conn : PqkexConnect) : List Bytes → PqkexConnect → Prop
  | none : OffersDecide ctx conn [] conn
  | one {data : Bytes} {client : List UInt16} : PqkexParses (.buf data) client →
      OffersDecide ctx conn [data] (decided ctx conn client)

theorem recvOffers_iff (hG : G.BigEndian) (hctx : ctx.Inv) {conn conn' : PqkexConnect}
    (hp : conn.protocol = .tlcp) (ho : conn.pqkexOffered = false) (offers : List Bytes) :
    recvOffers G stack ctx offers conn = .ok conn' ↔ OffersDecide ctx conn offers conn' := by
  cases offers with
  | nil =>
    constructor
    · intro h
      cases h
      exact .none
    · intro h
      cases h
      rfl
  | cons data offers =>
    rw [recvOffers]
    by_cases hparse : ∃ client, PqkexParses (.buf data) client
    · obtain ⟨client, hparse⟩ := hparse
      rw [recvPqkex_parses hG hctx hp ho hparse]
      cases offers with
      | nil =>
        constructor
        · intro h
          cases h
          exact .one hparse
        · intro h
          cases h with
          | one hparse' =>
            rw [hparse.unique hG stack hparse']
            rfl
      | cons data' offers =>
        have hagain : recvPqkex G stack ctx (decided ctx conn client) (.buf data') =
            .error (.illegalParameter, decided ctx conn client) := recvPqkex_offered rfl _
        constructor
        · intro h
          simp [Except.bind, recvOffers, hagain] at h
        · intro h
          cases h
    · rw [recvPqkex_unparsed hG ho hparse]
      constructor
      · intro h
        cases h
      · intro h
        cases h with
        | one hparse' => exact (hparse ⟨_, hparse'⟩).elim

/-- Why a new connection is refused, `before` being the PQKEX extensions before the one at fault. -/
inductive OfferRefused (ctx : PqkexCtx) (conn : PqkexConnect) (before : List Bytes) (data : Bytes) :
    PqkexAlert → PqkexConnect → Prop
  | malformed : before = [] → (¬ ∃ client, PqkexParses (.buf data) client) →
      OfferRefused ctx conn before data .decodeError conn
  | second {first : Bytes} {client : List UInt16} : before = [first] →
      PqkexParses (.buf first) client →
      OfferRefused ctx conn before data .illegalParameter (decided ctx conn client)

theorem offerRefused_of_error (hG : G.BigEndian) (hctx : ctx.Inv)
    {conn conn1 conn' : PqkexConnect} (hp : conn.protocol = .tlcp)
    (ho : conn.pqkexOffered = false) {before : List Bytes} {data : Bytes} {alert : PqkexAlert}
    (hbefore : recvOffers G stack ctx before conn = .ok conn1)
    (h : recvPqkex G stack ctx conn1 (.buf data) = .error (alert, conn')) :
    OfferRefused ctx conn before data alert conn' := by
  cases (recvOffers_iff hG hctx hp ho before).mp hbefore with
  | none =>
    by_cases hparse : ∃ client, PqkexParses (.buf data) client
    · obtain ⟨client, hparse⟩ := hparse
      rw [recvPqkex_parses hG hctx hp ho hparse] at h
      cases h
    · rw [recvPqkex_unparsed hG ho hparse] at h
      cases h
      exact .malformed rfl hparse
  | one hparse =>
    rw [recvPqkex_offered rfl] at h
    cases h
    exact .second rfl hparse

/-! ## The client -/

theorem PqkexCtx.Inv.kems_length {ctx : PqkexCtx} (h : ctx.Inv) :
    ctx.kems.length = ctx.pqkexKemsCnt := by
  have hlen := ctx.pqkexKems.length_val
  have hcnt := h.count
  rw [PqkexCtx.kems, KemArray.first, List.length_take]
  omega

/-- The client appends one extension, with its own list, or none. -/
theorem sendClientHelloExts_eq (hG : G.BigEndian) (hctx : ctx.Inv) (conn : PqkexConnect)
    (exts : Bytes) :
    tlcpSendClientHelloExts G ctx conn exts =
      if ctx.kems = [] then some (exts, conn)
      else some (exts ++ putExt (tlsExtensionPqkex, pqkexData ctx.kems),
        { conn with pqkexOffered := true }) := by
  have hlen := hctx.kems_length
  have hcnt := hctx.count
  unfold tlcpSendClientHelloExts
  by_cases hkems : ctx.kems = []
  · have hzero : ctx.pqkexKemsCnt = 0 := by
      rw [← hlen, hkems]
      rfl
    rw [if_neg (not_not.mpr hzero), if_pos hkems]
  · have hpos : 0 < ctx.kems.length := List.length_pos_iff.mpr hkems
    rw [if_pos (by omega), if_neg hkems, tlsPqkexExtToBytes_eq hG hpos (by omega)]
    rfl

theorem PqkexCtx.Inv.parses {ctx : PqkexCtx} (h : ctx.Inv) (hkems : ctx.kems ≠ []) :
    PqkexParses (.buf (pqkexData ctx.kems)) ctx.kems := by
  have hcnt := h.count
  refine ⟨List.length_pos_iff.mpr hkems, ?_, rfl⟩
  rw [h.kems_length]
  exact hcnt

/-- Two contexts choose ML-KEM-768 where both list something. -/
theorem PqkexCtx.Inv.find {client server : PqkexCtx} (hc : client.Inv) (hs : server.Inv)
    (hkems : client.kems ≠ []) :
    (client.kems.find? fun kem => kem ∈ server.kems) =
      if server.kems = [] then none else some tlsPqkexKemMlkem768 := by
  obtain ⟨kem, rest, hcons⟩ := List.exists_cons_of_ne_nil hkems
  have hkem : kem = tlsPqkexKemMlkem768 := by
    refine hc.only kem ?_
    rw [hcons]
    exact List.mem_cons_self
  by_cases hserver : server.kems = []
  · simp [hserver]
  · obtain ⟨kem', rest', hcons'⟩ := List.exists_cons_of_ne_nil hserver
    have hkem' : kem' = tlsPqkexKemMlkem768 := by
      refine hs.only kem' ?_
      rw [hcons']
      exact List.mem_cons_self
    rw [if_neg hserver, hcons, hcons', hkem, hkem', List.find?_cons_of_pos]
    simp

/-- The server's connection after the hello of a client, and the client's own. -/
structure PqkexAgreed (client server : PqkexCtx) (cconn cconn' conn conn' : PqkexConnect) :
    Prop where
  silent : client.kems = [] → cconn' = cconn ∧ conn' = conn
  offered : client.kems ≠ [] → cconn'.pqkexOffered = true ∧ conn'.pqkexOffered = true
  negotiated : client.kems ≠ [] → (conn'.pqkexNegotiated = true ↔ server.kems ≠ [])
  selected : client.kems ≠ [] → conn'.pqkexSelectedKem =
    if server.kems = [] then tlsPqkexKemNone else tlsPqkexKemMlkem768

theorem recvExtensions_sent (hG : G.BigEndian) (hE : E.Tlv) {client server : PqkexCtx}
    (hc : client.Inv) (hs : server.Inv) {conn cconn : PqkexConnect} (hp : conn.protocol = .tlcp)
    (ho : conn.pqkexOffered = false) {exts : List (UInt16 × Bytes)} (hfit : ExtsFit exts)
    (hoffers : pqkexOffers exts = []) {x x' : σ} (hx : otherExts otherExt exts x = some x') :
    ∃ block cconn', tlcpSendClientHelloExts G client cconn (exts.flatMap putExt) =
        some (block, cconn') ∧
      ∀ fuel, block.length ≤ fuel → ∃ conn',
        recvExtensions G E otherExt stack server fuel block x conn =
          some (.accepted x' conn') ∧ PqkexAgreed client server cconn cconn' conn conn' := by
  rw [sendClientHelloExts_eq hG hc]
  by_cases hkems : client.kems = []
  · rw [if_pos hkems]
    refine ⟨_, _, rfl, ?_⟩
    intro fuel hfuel
    refine ⟨conn, ?_, fun _ => ⟨rfl, rfl⟩, fun h => (h hkems).elim, fun h => (h hkems).elim,
      fun h => (h hkems).elim⟩
    rw [recvExtensions_flatMap hG hE hfit hfuel, Option.some.injEq, helloExts_accepted]
    exact ⟨hx, (recvOffers_iff hG hs hp ho _).mpr (hoffers ▸ .none)⟩
  · rw [if_neg hkems]
    refine ⟨_, _, rfl, ?_⟩
    intro fuel hfuel
    have hparse := hc.parses hkems
    have hsmall : (pqkexData client.kems).length < 65536 := pqkexData_length hparse.2.1
    have hblock : exts.flatMap putExt ++ putExt (tlsExtensionPqkex, pqkexData client.kems) =
        (exts ++ [(tlsExtensionPqkex, pqkexData client.kems)]).flatMap putExt := by
      simp
    have hfit' : ExtsFit (exts ++ [(tlsExtensionPqkex, pqkexData client.kems)]) := by
      intro e he
      rcases List.mem_append.mp he with he | he
      · exact hfit e he
      · rw [List.mem_singleton.mp he]
        exact hsmall
    have hoffers' : pqkexOffers (exts ++ [(tlsExtensionPqkex, pqkexData client.kems)]) =
        [pqkexData client.kems] := by
      have hmap : pqkexOffers (exts ++ [(tlsExtensionPqkex, pqkexData client.kems)]) =
          pqkexOffers exts ++ [pqkexData client.kems] := by
        simp [pqkexOffers]
      rw [hmap, hoffers, List.nil_append]
    have hfind := hc.find hs hkems
    rw [hblock] at hfuel ⊢
    refine ⟨decided server conn client.kems, ?_, fun h => (hkems h).elim, fun _ => ⟨rfl, rfl⟩, ?_,
      ?_⟩
    · rw [recvExtensions_flatMap hG hE hfit' hfuel, Option.some.injEq, helloExts_accepted,
        hoffers', recvOffers_iff hG hs hp ho]
      refine ⟨?_, .one hparse⟩
      rw [otherExts_append, hx]
      simp [otherExts]
    · intro _
      by_cases hserver : server.kems = []
      · simp [decided, hserver]
      · simp [decided, hfind, hserver]
    · intro _
      simp only [decided, hfind]
      split
      · rfl
      · rfl

end

/-- **PQKEX in the ClientHello.** The server and the client have been configured by any calls, and
the server's connection was not offered the extension. The loop of the server ends on every block of
extensions, accepts it exactly when it is a sequence of extensions that the other cases accept with
at most one PQKEX extension among them, which parses, and records the choice; a refusal leaves the
connection as it was before the extension at fault, with `decode_error` for a first one that does
not parse and `illegal_parameter` for a second one. A hello of the client is accepted if its other
extensions are, and ML-KEM-768 is negotiated exactly where both list it. -/
theorem pqkex_hello_negotiates {σ : Type} {G : GmsslBytes} {E : GmsslExt} (hG : G.BigEndian)
    (hE : E.Tlv) (otherExt : σ → UInt16 → Bytes → Option σ) (stack skems ckems : KemArray)
    (sargs cargs : List KemsArg) {conn : PqkexConnect} (hp : conn.protocol = .tlcp)
    (ho : conn.pqkexOffered = false) :
    let server := tlsCtxSetAll (.unset .tlcp skems) sargs
    let client := tlsCtxSetAll (.unset .tlcp ckems) cargs
    (∀ fuel block x, block.length ≤ fuel → ∃ r,
      recvExtensions G E otherExt stack server fuel block x conn = some r ∧
      (∀ x' conn', r = .accepted x' conn' ↔ ∃ exts, ExtsFit exts ∧ block = exts.flatMap putExt ∧
        otherExts otherExt exts x = some x' ∧ OffersDecide server conn (pqkexOffers exts) conn') ∧
      (∀ alert conn', r = .refused alert conn' → ∃ before data rest,
        block = before.flatMap putExt ++ (putExt (tlsExtensionPqkex, data) ++ rest) ∧
        OfferRefused server conn (pqkexOffers before) data alert conn')) ∧
    (∀ exts x x' cconn, ExtsFit exts → pqkexOffers exts = [] →
      otherExts otherExt exts x = some x' →
      ∃ block cconn', tlcpSendClientHelloExts G client cconn (exts.flatMap putExt) =
          some (block, cconn') ∧
        ∀ fuel, block.length ≤ fuel → ∃ conn',
          recvExtensions G E otherExt stack server fuel block x conn =
            some (.accepted x' conn') ∧ PqkexAgreed client server cconn cconn' conn conn') := by
  intro server client
  have hs : server.Inv := (PqkexCtx.inv_unset .tlcp skems).setAll sargs
  have hc : client.Inv := (PqkexCtx.inv_unset .tlcp ckems).setAll cargs
  constructor
  · intro fuel block x hfuel
    have htotal : ∃ r, recvExtensions G E otherExt stack server fuel block x conn = some r ∧
        ∀ x' conn', r = .accepted x' conn' → ∃ exts, ExtsFit exts ∧ block = exts.flatMap putExt :=
      recvExtensions_total hE hfuel x conn
    obtain ⟨r, hr, hwf⟩ := htotal
    refine ⟨r, hr, ?_, ?_⟩
    · intro x' conn'
      constructor
      · intro hacc
        obtain ⟨exts, hfit, rfl⟩ := hwf x' conn' hacc
        rw [recvExtensions_flatMap hG hE hfit hfuel, hacc, Option.some.injEq,
          helloExts_accepted, recvOffers_iff hG hs hp ho] at hr
        exact ⟨exts, hfit, rfl, hr⟩
      · intro h
        obtain ⟨exts, hfit, rfl, hx, hdecide⟩ := h
        rw [recvExtensions_flatMap hG hE hfit hfuel, Option.some.injEq] at hr
        rw [← hr, helloExts_accepted, recvOffers_iff hG hs hp ho]
        exact ⟨hx, hdecide⟩
    · intro alert conn' hrefused
      rw [hrefused] at hr
      obtain ⟨before, data, rest, conn1, hblock, hbefore, herror⟩ :=
        recvExtensions_refused hG hE hr
      exact ⟨before, data, rest, hblock, offerRefused_of_error hG hs hp ho hbefore herror⟩
  · intro exts x x' cconn hfit hoffers hx
    exact recvExtensions_sent hG hE hc hs hp ho hfit hoffers hx

/-- A client and a server that list ML-KEM-768, and a `server_name` before the extension. -/
theorem pqkex_hello_negotiates_toy : ∃ block cconn conn',
    tlcpSendClientHelloExts Toy.gmsslBytes
      (tlsCtxSetAll (.unset .tlcp Toy.kemArray) [.array [tlsPqkexKemMlkem768]])
      ⟨.tlcp, false, false, 0⟩ (putExt (0, [0x61])) = some (block, cconn) ∧
    recvExtensions Toy.gmsslBytes Toy.gmsslExt (fun n _ _ => some (n + 1)) Toy.kemArray
      (tlsCtxSetAll (.unset .tlcp Toy.kemArray) [.null 1, .array [tlsPqkexKemMlkem768]])
      block.length block 0 ⟨.tlcp, false, false, 0⟩ = some (.accepted 1 conn') ∧
    conn'.pqkexSelectedKem = tlsPqkexKemMlkem768 := by
  obtain ⟨_, hagree⟩ := pqkex_hello_negotiates Toy.bigEndian Toy.gmsslExt_tlv
    (fun (n : Nat) _ _ => some (n + 1)) Toy.kemArray Toy.kemArray Toy.kemArray
    [.null 1, .array [tlsPqkexKemMlkem768]] [.array [tlsPqkexKemMlkem768]]
    (rfl : (⟨.tlcp, false, false, 0⟩ : PqkexConnect).protocol = .tlcp) rfl
  obtain ⟨block, cconn, hsend, hrecv⟩ := hagree [(0, [0x61])] 0 1 ⟨.tlcp, false, false, 0⟩
    (by simp [ExtsFit]) (by decide) rfl
  obtain ⟨conn', haccepted, hagreed⟩ := hrecv block.length (Nat.le_refl _)
  exact ⟨block, cconn, conn', hsend, haccepted, hagreed.selected (by decide)⟩

end HybridPqc
