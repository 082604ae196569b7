import HybridPqc.Tlcp.PqkexState

/-!
# Tools.PqkexCaptureDemo

The server of `pqkex_capture_demo.c`: `process_client_hello_record`, which walks through the
extensions of a ClientHello and accepts an offer of ML-KEM-768.

GmSSL's receiving functions are a parameter, as far as they get: the protocol and the extensions of
a ClientHello, or nothing. The loop has fuel; `extensionLoop_ends` says that the length of the block
is enough.

What the loop leaves depends on the PQKEX extensions alone (`extensionLoop_fresh`), so
`capture_accepts_iff` needs no order and no neighbours.
-/

namespace HybridPqc

open Tls

/-- The readers of GmSSL this program calls; an extension's data may come as `NULL`. -/
structure GmsslExt where
  tlsExtFromBytes : Bytes → Option (UInt16 × CArg × Bytes)

/-- `tls_ext_from_bytes` reads a type, a length and that many bytes, and fails where they end
early. -/
structure GmsslExt.Tlv (E : GmsslExt) : Prop where
  reads : ∀ type data rest, data.length < 65536 →
    ∃ arg, arg.badNull = false ∧ arg.bytes = data ∧
      E.tlsExtFromBytes (putExt (type, data) ++ rest) = some (type, arg, rest)
  only : ∀ b type arg rest, E.tlsExtFromBytes b = some (type, arg, rest) →
    arg.badNull = false ∧ arg.bytes.length < 65536 ∧ b = putExt (type, arg.bytes) ++ rest

/-- `configure_pqkex_context`, once GmSSL has initialised the context. -/
def configurePqkexContext (kems : KemArray) : Bool × PqkexCtx :=
  tlsCtxSetPqkexKems (.unset .tlcp kems) (.array [tlsPqkexKemMlkem768])

/-- The connection of `process_client_hello_record` before it receives. -/
def captureConnection : PqkexConnect := ⟨.tlcp, false, false, 0⟩

section

variable (G : GmsslBytes) (E : GmsslExt)

/-- The loop over the extensions: `none` without fuel, `some none` for `return 0`, else
`pqkex_count` and the connection after it. -/
def extensionLoop (stack : KemArray) (ctx : PqkexCtx) :
    Nat → Bytes → Nat → PqkexConnect → Option (Option (Nat × PqkexConnect))
  | _, [], pqkexCount, connection => some (some (pqkexCount, connection))
  | 0, _ :: _, _, _ => none
  | fuel + 1, b :: extensions, pqkexCount, connection =>
    match E.tlsExtFromBytes (b :: extensions) with
    | none => some none
    | some (extensionType, extensionData, extensions) =>
      if extensionType = tlsExtensionPqkex then
        let pqkexCount := pqkexCount + 1
        if pqkexCount ≠ 1 then some none
        else
          let r := tlcpProcessClientPqkex G stack (some ctx) connection extensionData
          if r.1 = false then some none
          else extensionLoop stack ctx fuel extensions pqkexCount r.2
      else extensionLoop stack ctx fuel extensions pqkexCount connection

/-- `process_client_hello_record`; `hello` is what was received. -/
def processClientHelloRecord (fuel : Nat) (stack : KemArray) (ctx : PqkexCtx)
    (hello : Option (TlsProtocol × Bytes)) : Option Bool :=
  match hello with
  | none => some false
  | some (protocol, extensions) =>
    if protocol ≠ .tlcp then some false
    else
      match extensionLoop G E stack ctx fuel extensions 0 captureConnection with
      | none => none
      | some none => some false
      | some (some (pqkexCount, connection)) =>
        if pqkexCount ≠ 1 ∨ connection.pqkexOffered = false ∨ connection.pqkexNegotiated = false ∨
            connection.pqkexSelectedKem ≠ tlsPqkexKemMlkem768 then some false
        else some true

end

/-- Extensions whose data fits its length. -/
def ExtsFit (exts : List (UInt16 × Bytes)) : Prop := ∀ e ∈ exts, e.2.length < 65536

/-- The data of the PQKEX extensions. -/
def pqkexOffers (exts : List (UInt16 × Bytes)) : List Bytes :=
  (exts.filter fun e => e.1 = tlsExtensionPqkex).map Prod.snd

/-- A valid list of KEMs with ML-KEM-768 in it. -/
def OffersMlkem768 (data : Bytes) : Prop :=
  ∃ client, PqkexParses (.buf data) client ∧ tlsPqkexKemMlkem768 ∈ client

section

variable {G : GmsslBytes} {E : GmsslExt} {stack : KemArray} {ctx : PqkexCtx}

/-! ## The loop -/

/-- Empty data is refused whether or not it comes with a pointer. -/
theorem tlcpProcessClientPqkex_bytes (hG : G.BigEndian) {conn : PqkexConnect} (arg : CArg) :
    tlcpProcessClientPqkex G stack (some ctx) conn arg =
      tlcpProcessClientPqkex G stack (some ctx) conn (.buf arg.bytes) := by
  cases arg with
  | buf b => rfl
  | null n =>
    have hempty : (tlsPqkexFromBytes G stack.val 0 tlsPqkexMaxKems (.buf [])).ok = false := by
      rw [← Bool.not_eq_true, tlsPqkexFromBytes_ok_iff_parses hG]
      intro hex
      obtain ⟨client, _, _, heq⟩ := hex
      simp [pqkexData, putVector, putU16] at heq
    rw [CArg.bytes, tlcpProcessClientPqkex_unparsed hempty, tlcpProcessClientPqkex_unparsed rfl]

/-- One extension. -/
theorem extensionLoop_putExt (hG : G.BigEndian) (hE : E.Tlv) {e : UInt16 × Bytes}
    (he : e.2.length < 65536) (fuel : Nat) (rest : Bytes) (count : Nat) (conn : PqkexConnect) :
    extensionLoop G E stack ctx (fuel + 1) (putExt e ++ rest) count conn =
      if e.1 = tlsExtensionPqkex then
        if count + 1 ≠ 1 then some none
        else
          let r := tlcpProcessClientPqkex G stack (some ctx) conn (.buf e.2)
          if r.1 = false then some none else extensionLoop G E stack ctx fuel rest (count + 1) r.2
      else extensionLoop G E stack ctx fuel rest count conn := by
  obtain ⟨arg, _, hbytes, hread⟩ := hE.reads e.1 e.2 rest he
  obtain ⟨x, tail, hcons⟩ := List.exists_cons_of_length_pos (l := putExt (e.1, e.2) ++ rest) (by
    rw [List.length_append, putExt_length]
    omega)
  rw [show putExt e = putExt (e.1, e.2) from rfl, hcons, extensionLoop, ← hcons, hread, ← hbytes,
    ← tlcpProcessClientPqkex_bytes hG]

/-- Fuel for every byte is enough: an extension takes four bytes at least. -/
theorem extensionLoop_ends (hE : E.Tlv) (stack : KemArray) (ctx : PqkexCtx) {fuel : Nat} {b : Bytes}
    (h : b.length ≤ fuel) (count : Nat) (conn : PqkexConnect) :
    ∃ r, extensionLoop G E stack ctx fuel b count conn = some r := by
  induction fuel generalizing b count conn with
  | zero =>
    cases List.length_eq_zero_iff.mp (Nat.le_zero.mp h)
    exact ⟨_, rfl⟩
  | succ fuel ih =>
    cases b with
    | nil => exact ⟨_, rfl⟩
    | cons x b =>
      rw [extensionLoop]
      cases hread : E.tlsExtFromBytes (x :: b) with
      | none => exact ⟨none, rfl⟩
      | some p =>
        obtain ⟨type, arg, rest⟩ := p
        obtain ⟨_, _, hb⟩ := hE.only _ _ _ _ hread
        have hrest : rest.length ≤ fuel := by
          have hlen := congrArg List.length hb
          rw [List.length_append, putExt_length] at hlen
          omega
        dsimp only
        split
        · split
          · exact ⟨none, rfl⟩
          · split
            · exact ⟨none, rfl⟩
            · exact ih hrest _ _
        · exact ih hrest _ _

/-- A block the loop gets through is a sequence of extensions. -/
theorem extensionLoop_wellFormed (hE : E.Tlv) {fuel : Nat} {b : Bytes} {count : Nat}
    {conn : PqkexConnect} {x : Nat × PqkexConnect}
    (h : extensionLoop G E stack ctx fuel b count conn = some (some x)) :
    ∃ exts, ExtsFit exts ∧ b = exts.flatMap putExt := by
  induction fuel generalizing b count conn with
  | zero =>
    cases b with
    | nil => exact ⟨[], (by simp [ExtsFit]), rfl⟩
    | cons x b => cases h
  | succ fuel ih =>
    cases b with
    | nil => exact ⟨[], (by simp [ExtsFit]), rfl⟩
    | cons x b =>
      rw [extensionLoop] at h
      cases hread : E.tlsExtFromBytes (x :: b) with
      | none =>
        rw [hread] at h
        cases h
      | some p =>
        obtain ⟨type, arg, rest⟩ := p
        obtain ⟨_, hl, hb⟩ := hE.only _ _ _ _ hread
        have hrest : ∃ exts, ExtsFit exts ∧ rest = exts.flatMap putExt := by
          rw [hread] at h
          dsimp only at h
          split at h
          · split at h
            · cases h
            · split at h
              · cases h
              · exact ih h
          · exact ih h
        obtain ⟨exts, hfit, rfl⟩ := hrest
        refine ⟨(type, arg.bytes) :: exts, ?_, by rw [hb, List.flatMap_cons]⟩
        intro e he
        rcases List.mem_cons.mp he with rfl | he
        · exact hl
        · exact hfit e he

theorem pqkexOffers_cons_pqkex {e : UInt16 × Bytes} (h : e.1 = tlsExtensionPqkex)
    (exts : List (UInt16 × Bytes)) : pqkexOffers (e :: exts) = e.2 :: pqkexOffers exts := by
  simp [pqkexOffers, h]

theorem pqkexOffers_cons_other {e : UInt16 × Bytes} (h : e.1 ≠ tlsExtensionPqkex)
    (exts : List (UInt16 × Bytes)) : pqkexOffers (e :: exts) = pqkexOffers exts := by
  simp [pqkexOffers, h]

/-- After a first PQKEX extension the loop only gets through without another. -/
theorem extensionLoop_seen (hG : G.BigEndian) (hE : E.Tlv) {exts : List (UInt16 × Bytes)}
    (hfit : ExtsFit exts) {fuel : Nat} (hfuel : (exts.flatMap putExt).length ≤ fuel) {count : Nat}
    (hcount : count ≠ 0) (conn : PqkexConnect) :
    extensionLoop G E stack ctx fuel (exts.flatMap putExt) count conn =
      some (if pqkexOffers exts = [] then some (count, conn) else none) := by
  induction exts generalizing fuel with
  | nil =>
    cases fuel with
    | zero => rfl
    | succ fuel => rfl
  | cons e exts ih =>
    rw [List.flatMap_cons, List.length_append, putExt_length] at hfuel
    obtain ⟨f, rfl⟩ : ∃ f, fuel = f + 1 := ⟨fuel - 1, by omega⟩
    have he : e.2.length < 65536 := hfit e List.mem_cons_self
    rw [List.flatMap_cons, extensionLoop_putExt hG hE he]
    by_cases htype : e.1 = tlsExtensionPqkex
    · rw [if_pos htype, if_pos (by omega), pqkexOffers_cons_pqkex htype,
        if_neg (List.cons_ne_nil _ _)]
    · rw [if_neg htype, pqkexOffers_cons_other htype,
        ih (fun e' he' => hfit e' (List.mem_cons_of_mem _ he')) (by omega)]

/-- What the loop leaves is decided by the PQKEX extensions, wherever they are. -/
theorem extensionLoop_fresh (hG : G.BigEndian) (hE : E.Tlv) {exts : List (UInt16 × Bytes)}
    (hfit : ExtsFit exts) {fuel : Nat} (hfuel : (exts.flatMap putExt).length ≤ fuel)
    (conn : PqkexConnect) :
    extensionLoop G E stack ctx fuel (exts.flatMap putExt) 0 conn =
      match pqkexOffers exts with
      | [] => some (some (0, conn))
      | data :: others =>
        let r := tlcpProcessClientPqkex G stack (some ctx) conn (.buf data)
        some (if r.1 = true ∧ others = [] then some (1, r.2) else none) := by
  induction exts generalizing fuel with
  | nil =>
    cases fuel with
    | zero => rfl
    | succ fuel => rfl
  | cons e exts ih =>
    rw [List.flatMap_cons, List.length_append, putExt_length] at hfuel
    obtain ⟨f, rfl⟩ : ∃ f, fuel = f + 1 := ⟨fuel - 1, by omega⟩
    have he : e.2.length < 65536 := hfit e List.mem_cons_self
    have hfit' : ExtsFit exts := fun e' he' => hfit e' (List.mem_cons_of_mem _ he')
    rw [List.flatMap_cons, extensionLoop_putExt hG hE he]
    by_cases htype : e.1 = tlsExtensionPqkex
    · rw [if_pos htype, if_neg (by omega), pqkexOffers_cons_pqkex htype]
      dsimp only
      by_cases hret : (tlcpProcessClientPqkex G stack (some ctx) conn (.buf e.2)).1 = true
      · rw [if_neg (by rw [hret]; decide), extensionLoop_seen hG hE hfit' (by omega) (by decide)]
        simp only [hret, true_and]
      · rw [if_pos (by simpa using hret), if_neg (fun h => hret h.1)]
    · rw [if_neg htype, pqkexOffers_cons_other htype, ih hfit' (by omega)]

/-! ## The verdict -/

theorem configurePqkexContext_kems (kems : KemArray) :
    (configurePqkexContext kems).2.kems = [tlsPqkexKemMlkem768] :=
  KemArray.first_copy kems (by decide)

theorem configurePqkexContext_inv (kems : KemArray) : (configurePqkexContext kems).2.Inv :=
  (PqkexCtx.inv_unset .tlcp kems).set _

/-- Of the KEMs offered, only ML-KEM-768 can be selected. -/
theorem find_configured (kems : KemArray) (client : List UInt16) :
    client.find? (fun kem => kem ∈ (configurePqkexContext kems).2.kems) =
      if tlsPqkexKemMlkem768 ∈ client then some tlsPqkexKemMlkem768 else none := by
  rw [configurePqkexContext_kems]
  simp only [List.mem_singleton]
  induction client with
  | nil => rfl
  | cons kem client ih =>
    by_cases hk : kem = tlsPqkexKemMlkem768
    · simp [hk]
    · simp [hk, Ne.symm hk, ih]

/-- The verdict over one offer. -/
theorem offer_accepted_iff (hG : G.BigEndian) (stack kems : KemArray) (data : Bytes) :
    let r := tlcpProcessClientPqkex G stack (some (configurePqkexContext kems).2)
      captureConnection (.buf data)
    (r.1 = true ∧ r.2.pqkexOffered = true ∧ r.2.pqkexNegotiated = true ∧
      r.2.pqkexSelectedKem = tlsPqkexKemMlkem768) ↔ OffersMlkem768 data := by
  intro r
  have hctx := configurePqkexContext_inv kems
  have hdecided : ∀ client, PqkexParses (.buf data) client →
      r = (true, { captureConnection with
        pqkexOffered := true
        pqkexNegotiated := decide (tlsPqkexKemMlkem768 ∈ client)
        pqkexSelectedKem :=
          if tlsPqkexKemMlkem768 ∈ client then tlsPqkexKemMlkem768 else tlsPqkexKemNone }) := by
    intro client hparse
    have hr := tlcpProcessClientPqkex_parses hG hctx
      (show captureConnection.protocol = .tlcp from rfl)
      (show captureConnection.pqkexOffered = false from rfl) stack hparse
    rw [find_configured] at hr
    by_cases hmem : tlsPqkexKemMlkem768 ∈ client
    · simp only [r, hr, hmem, decide_true]
      rfl
    · simp only [r, hr, hmem, decide_false]
      rfl
  constructor
  · intro h
    obtain ⟨hret, _, hneg, _⟩ := h
    obtain ⟨_, _, hok⟩ := (tlcpProcessClientPqkex_true_iff hG hctx stack _).mp hret
    obtain ⟨client, hparse⟩ := (tlsPqkexFromBytes_ok_iff_parses hG stack _).mp hok
    refine ⟨client, hparse, ?_⟩
    rw [hdecided client hparse] at hneg
    simpa using hneg
  · intro h
    obtain ⟨client, hparse, hmem⟩ := h
    rw [hdecided client hparse]
    simp [hmem]

theorem processClientHelloRecord_flatMap (hG : G.BigEndian) (hE : E.Tlv) (stack kems : KemArray)
    {exts : List (UInt16 × Bytes)} (hfit : ExtsFit exts) {fuel : Nat}
    (hfuel : (exts.flatMap putExt).length ≤ fuel) :
    ∃ accepted, processClientHelloRecord G E fuel stack (configurePqkexContext kems).2
        (some (.tlcp, exts.flatMap putExt)) = some accepted ∧
      (accepted = true ↔ ∃ data, pqkexOffers exts = [data] ∧ OffersMlkem768 data) := by
  simp only [processClientHelloRecord, ne_eq, not_true_eq_false, if_false,
    extensionLoop_fresh hG hE hfit hfuel]
  cases hoffers : pqkexOffers exts with
  | nil => simp
  | cons data others =>
    have hverdict := offer_accepted_iff hG stack kems data
    dsimp only at hverdict ⊢
    by_cases hone : (tlcpProcessClientPqkex G stack (some (configurePqkexContext kems).2)
        captureConnection (.buf data)).1 = true ∧ others = []
    · obtain ⟨hret, rfl⟩ := hone
      rw [if_pos ⟨hret, rfl⟩]
      by_cases hoffer : OffersMlkem768 data
      · obtain ⟨_, ho, hn, hs⟩ := hverdict.mpr hoffer
        refine ⟨true, ?_, iff_of_true rfl ⟨data, rfl, hoffer⟩⟩
        simp [ho, hn, hs]
      · refine ⟨false, ?_, ?_⟩
        · dsimp only
          rw [if_pos]
          by_contra hno
          simp only [not_or, not_not, Bool.not_eq_false] at hno
          exact hoffer (hverdict.mp ⟨hret, hno.2⟩)
        · refine iff_of_false (by decide) ?_
          rintro ⟨data', heq, h⟩
          cases heq
          exact hoffer h
    · rw [if_neg hone]
      refine ⟨false, rfl, ?_⟩
      simp only [Bool.false_eq_true, false_iff, not_exists, not_and]
      intro data' heq hoffer
      cases heq
      exact hone ⟨(hverdict.mpr hoffer).1, rfl⟩

/-- Two blocks with the same PQKEX extensions, up to their order, get the same verdict. -/
theorem processClientHelloRecord_congr (hG : G.BigEndian) (hE : E.Tlv) (stack kems : KemArray)
    {exts exts' : List (UInt16 × Bytes)} (hfit : ExtsFit exts) (hfit' : ExtsFit exts')
    (hoffers : (pqkexOffers exts).Perm (pqkexOffers exts')) {fuel fuel' : Nat}
    (hfuel : (exts.flatMap putExt).length ≤ fuel) (hfuel' : (exts'.flatMap putExt).length ≤ fuel') :
    processClientHelloRecord G E fuel stack (configurePqkexContext kems).2
        (some (.tlcp, exts.flatMap putExt)) =
      processClientHelloRecord G E fuel' stack (configurePqkexContext kems).2
        (some (.tlcp, exts'.flatMap putExt)) := by
  obtain ⟨a, ha, hiff⟩ := processClientHelloRecord_flatMap hG hE stack kems hfit hfuel
  obtain ⟨a', ha', hiff'⟩ := processClientHelloRecord_flatMap hG hE stack kems hfit' hfuel'
  rw [ha, ha', Option.some.injEq, Bool.eq_iff_iff, hiff, hiff']
  constructor
  · rintro ⟨data, heq, h⟩
    rw [heq, List.singleton_perm] at hoffers
    exact ⟨data, hoffers.symm, h⟩
  · rintro ⟨data, heq, h⟩
    rw [heq, List.perm_singleton] at hoffers
    exact ⟨data, hoffers, h⟩

/-- The verdict over any block. -/
theorem processClientHelloRecord_total (hG : G.BigEndian) (hE : E.Tlv) (stack kems : KemArray)
    (block : Bytes) :
    ∃ accepted, (∀ fuel, block.length ≤ fuel →
        processClientHelloRecord G E fuel stack (configurePqkexContext kems).2
          (some (.tlcp, block)) = some accepted) ∧
      (accepted = true ↔ ∃ exts data, ExtsFit exts ∧ block = exts.flatMap putExt ∧
        pqkexOffers exts = [data] ∧ OffersMlkem768 data) := by
  by_cases hwf : ∃ exts, ExtsFit exts ∧ block = exts.flatMap putExt
  · obtain ⟨exts, hfit, rfl⟩ := hwf
    obtain ⟨accepted, heq, hiff⟩ :=
      processClientHelloRecord_flatMap hG hE stack kems hfit (Nat.le_refl _)
    refine ⟨accepted, ?_, ?_⟩
    · intro fuel hfuel
      rw [← heq]
      exact processClientHelloRecord_congr hG hE stack kems hfit hfit (List.Perm.refl _) hfuel
        (Nat.le_refl _)
    · constructor
      · intro h
        obtain ⟨data, hdata, hoffer⟩ := hiff.mp h
        exact ⟨exts, data, hfit, rfl, hdata, hoffer⟩
      · rintro ⟨exts', data, hfit', hblock, hdata, hoffer⟩
        -- the same block, so the same verdict
        obtain ⟨accepted', heq', hiff'⟩ :=
          processClientHelloRecord_flatMap hG hE stack kems hfit' (Nat.le_refl _)
        rw [← hblock, heq, Option.some.injEq] at heq'
        rw [heq']
        exact hiff'.mpr ⟨data, hdata, hoffer⟩
  · refine ⟨false, ?_, ?_⟩
    · intro fuel hfuel
      obtain ⟨r, hr⟩ := extensionLoop_ends (G := G) hE stack (configurePqkexContext kems).2 hfuel 0
        captureConnection
      cases r with
      | none => simp [processClientHelloRecord, hr]
      | some x => exact (hwf (extensionLoop_wellFormed hE hr)).elim
    · refine iff_of_false (by decide) ?_
      rintro ⟨exts, _, hfit, hblock, _⟩
      exact hwf ⟨exts, hfit, hblock⟩

end

/-- **The capture server.** It accepts a block exactly when the block is a sequence of extensions
with one PQKEX extension among them, whose valid list has ML-KEM-768; the order of the extensions
and extensions of other types make no difference; and the loop ends on every block. -/
theorem capture_accepts_iff {G : GmsslBytes} {E : GmsslExt} (hG : G.BigEndian) (hE : E.Tlv)
    (stack kems : KemArray) :
    let ctx := (configurePqkexContext kems).2
    (configurePqkexContext kems).1 = true ∧
    (∀ block, ∃ accepted,
      (∀ fuel, block.length ≤ fuel →
        processClientHelloRecord G E fuel stack ctx (some (.tlcp, block)) = some accepted) ∧
      (accepted = true ↔ ∃ exts data, ExtsFit exts ∧ block = exts.flatMap putExt ∧
        pqkexOffers exts = [data] ∧ OffersMlkem768 data)) ∧
    (∀ exts exts' fuel fuel', ExtsFit exts → exts.Perm exts' →
      (exts.flatMap putExt).length ≤ fuel → (exts'.flatMap putExt).length ≤ fuel' →
      processClientHelloRecord G E fuel stack ctx (some (.tlcp, exts.flatMap putExt)) =
        processClientHelloRecord G E fuel' stack ctx (some (.tlcp, exts'.flatMap putExt))) ∧
    (∀ before e after fuel fuel', ExtsFit (before ++ e :: after) → e.1 ≠ tlsExtensionPqkex →
      ((before ++ e :: after).flatMap putExt).length ≤ fuel →
      ((before ++ after).flatMap putExt).length ≤ fuel' →
      processClientHelloRecord G E fuel stack ctx
          (some (.tlcp, (before ++ e :: after).flatMap putExt)) =
        processClientHelloRecord G E fuel' stack ctx
          (some (.tlcp, (before ++ after).flatMap putExt))) := by
  intro ctx
  refine ⟨rfl, processClientHelloRecord_total hG hE stack kems, ?_, ?_⟩
  · intro exts exts' fuel fuel' hfit hperm hfuel hfuel'
    have hfit' : ExtsFit exts' := fun e he => hfit e (hperm.mem_iff.mpr he)
    exact processClientHelloRecord_congr hG hE stack kems hfit hfit' ((hperm.filter _).map _) hfuel
      hfuel'
  · intro before e after fuel fuel' hfit htype hfuel hfuel'
    have hfit' : ExtsFit (before ++ after) := by
      intro e' he'
      refine hfit e' ?_
      rw [List.mem_append, List.mem_cons]
      rcases List.mem_append.mp he' with h | h
      · exact Or.inl h
      · exact Or.inr (Or.inr h)
    have hoffers : pqkexOffers (before ++ e :: after) = pqkexOffers (before ++ after) := by
      simp [pqkexOffers, htype]
    refine processClientHelloRecord_congr hG hE stack kems hfit hfit' ?_ hfuel hfuel'
    rw [hoffers]

namespace Toy

/-- The reader, with `NULL` for empty data. -/
def gmsslExt : GmsslExt where
  tlsExtFromBytes b :=
    match getU16 b with
    | none => none
    | some (type, b) =>
      match getVector b with
      | none => none
      | some (data, rest) => some (type, if data = [] then .null 0 else .buf data, rest)

theorem gmsslExt_tlv : gmsslExt.Tlv where
  reads type data rest h := by
    have hvec : getVector (putVector data ++ rest) = some (data, rest) :=
      getVector_some_iff.mpr ⟨h, rfl⟩
    have hread : gmsslExt.tlsExtFromBytes (putExt (type, data) ++ rest) =
        some (type, if data = [] then .null 0 else .buf data, rest) := by
      simp only [gmsslExt, putExt, List.append_assoc, getU16_putU16, hvec]
    refine ⟨_, ?_, ?_, hread⟩
    · split
      · rfl
      · rfl
    · split
      · rename_i hnil
        rw [hnil]
        rfl
      · rfl
  only b type arg rest h := by
    simp only [gmsslExt] at h
    split at h
    · cases h
    rename_i t r hu16
    split at h
    · cases h
    rename_i data rest' hvec
    obtain ⟨hl, rfl⟩ := getVector_some_iff.mp hvec
    have hb := putU16_getU16 hu16
    by_cases hnil : data = []
    · rw [if_pos hnil] at h
      cases h
      subst hnil
      exact ⟨rfl, hl, by rw [hb, putExt, List.append_assoc]; rfl⟩
    · rw [if_neg hnil] at h
      cases h
      exact ⟨rfl, hl, by rw [hb, putExt, List.append_assoc]; rfl⟩

end Toy

/-- The block `FF 02 00 04 00 02 00 01` is accepted. -/
theorem capture_accepts_mlkem768 :
    processClientHelloRecord Toy.gmsslBytes Toy.gmsslExt 8 Toy.kemArray
      (configurePqkexContext Toy.kemArray).2
      (some (.tlcp, [0xff, 0x02, 0x00, 0x04, 0x00, 0x02, 0x00, 0x01])) = some true := by
  obtain ⟨_, hblock, _⟩ :=
    capture_accepts_iff Toy.bigEndian Toy.gmsslExt_tlv Toy.kemArray Toy.kemArray
  obtain ⟨accepted, hrun, hiff⟩ := hblock [0xff, 0x02, 0x00, 0x04, 0x00, 0x02, 0x00, 0x01]
  have hok : accepted = true := by
    refine hiff.mpr ⟨[(tlsExtensionPqkex, [0x00, 0x02, 0x00, 0x01])], _, ?_, by decide, rfl,
      [tlsPqkexKemMlkem768], Toy.pqkexOffer_parses, List.mem_singleton.mpr rfl⟩
    intro e he
    rw [List.mem_singleton.mp he]
    decide
  rw [hrun 8 (Nat.le_refl _), hok]

end HybridPqc
