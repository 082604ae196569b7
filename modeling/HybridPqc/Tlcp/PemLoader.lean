import HybridPqc.Tlcp.Chain
import Mathlib.Logic.Relation

/-!
# Tlcp.PemLoader

The loader of `tls_cert.c` that takes a hybrid chain file into the context, and the raw splitter
that takes the chain apart again. The loader advances a write pointer, a total and the space left,
block by block; the splitter sees nothing but the bytes.

GmSSL's `pem_read` is the parameter `GmsslPem`. What it makes of a stream is the list `blocks`, with
`none` for a block that does not decode.

* `PemLoad.Holds`: the loop invariant. After the blocks `bodies`, the buffer holds them back to
  back, pointer and total stand behind the last one and the space left is what remains.
* `pemPass_cases`: one pass, by the block at the front of the stream.
* `pem_loader_inverts_splitter`: the two are inverse.
-/

namespace HybridPqc

/-- `return -1`, `return 0` and `return 1` of `pem_read`; what is written has gone to `data`, and
`*datalen` is its length. -/
inductive PemRead (Stream : Type) where
  | fails (written : Bytes)
  | done
  | block (data : Bytes) (fp : Stream)

/-- `pem_read(fp, name, data, datalen, maxlen)` -/
structure GmsslPem (Stream : Type) where
  pemRead : Stream → (name : Bytes) → (maxlen : UInt64) → PemRead Stream

def pemNameCertificate : Bytes := Bytes.ofAscii "CERTIFICATE"

/-- `pem_read` goes through the blocks of that name in order, and writes at most `maxlen` bytes. -/
structure GmsslPem.Reads {Stream : Type} (P : GmsslPem Stream) (name : Bytes)
    (blocks : Stream → List (Option Bytes)) : Prop where
  ends : ∀ fp maxlen, blocks fp = [] → P.pemRead fp name maxlen = .done
  reads : ∀ fp maxlen der rest, blocks fp = some der :: rest → der.length ≤ maxlen.toNat →
    ∃ fp', P.pemRead fp name maxlen = .block der fp' ∧ blocks fp' = rest
  tooLarge : ∀ fp maxlen der rest, blocks fp = some der :: rest → maxlen.toNat < der.length →
    ∃ written, P.pemRead fp name maxlen = .fails written ∧ written.length ≤ maxlen.toNat
  malformed : ∀ fp maxlen rest, blocks fp = none :: rest →
    ∃ written, P.pemRead fp name maxlen = .fails written ∧ written.length ≤ maxlen.toNat

/-- The locals of the loader. `buffer` is what `certs` pointed to on entry, `certs` how far the
pointer has moved. -/
structure PemLoad (Stream : Type) where
  fp : Stream
  buffer : Bytes
  certs : Nat
  certslen : UInt64
  maxlen : UInt64

inductive PemPass (Stream : Type) where
  | fails (s : PemLoad Stream)
  | ends (s : PemLoad Stream)
  | next (s : PemLoad Stream)

/-- What the loader leaves: its result, the buffer and `*certslen`. -/
structure PemLoaded where
  ret : Int
  buffer : Bytes
  certslen : UInt64
  deriving DecidableEq, Repr

section

variable {Stream : Type} (G : Gmssl) (P : GmsslPem Stream)

/-- The test on a block: it starts with `ASN1_TAG_SEQUENCE`, `asn1_any_from_der` takes an element
off it and nothing remains. -/
def pemBlockAccepted (cursor : Bytes) : Bool :=
  if cursor.head? = some 0x30 then
    (G.asn1AnyFromDer cursor).any fun (_, remaining) => remaining.isEmpty
  else false

/-- One pass of `for (;;)`. -/
def pemPass (s : PemLoad Stream) : PemPass Stream :=
  match P.pemRead s.fp pemNameCertificate s.maxlen with
  | .fails written => .fails { s with buffer := s.buffer.write s.certs written }
  | .done => .ends s
  | .block data fp =>
    let buffer := s.buffer.write s.certs data
    let certlen := UInt64.ofNat data.length
    if pemBlockAccepted G (buffer.slice s.certs data.length) then
      .next {
        fp := fp
        buffer := buffer
        certs := s.certs + data.length
        certslen := s.certslen + certlen
        maxlen := s.maxlen - certlen }
    else .fails { s with fp := fp, buffer := buffer }

/-- `return *certslen ? 1 : 0` -/
def PemLoad.loaded (s : PemLoad Stream) : PemLoaded :=
  ⟨if s.certslen ≠ 0 then 1 else 0, s.buffer, s.certslen⟩

/-- The loop; `none` when the fuel runs out. -/
def pemLoop : Nat → PemLoad Stream → Option PemLoaded
  | 0, _ => none
  | fuel + 1, s =>
    match pemPass G P s with
    | .fails s => some ⟨-1, s.buffer, s.certslen⟩
    | .ends s => some s.loaded
    | .next s => pemLoop fuel s

def pemStart (certs : Bytes) (maxlen : UInt64) (fp : Stream) : PemLoad Stream :=
  ⟨fp, certs, 0, 0, maxlen⟩

def tlcpHybridCertsFromPem (fuel : Nat) (certs : Bytes) (maxlen : UInt64) (fp : Stream) :
    Option PemLoaded :=
  pemLoop G P fuel (pemStart certs maxlen fp)

/-- One pass leads to the next. -/
def PemStep (s s' : PemLoad Stream) : Prop := pemPass G P s = .next s'

/-- More than `n` passes are enough for the result `r`. -/
def PemRuns (n : Nat) (s : PemLoad Stream) (r : PemLoaded) : Prop :=
  ∀ fuel, n < fuel → pemLoop G P fuel s = some r

end

/-- A block the loader stops at: it does not decode, is not exactly one `SEQUENCE`, or is too large
for what is left of the `maxlen` bytes behind `bodies`. -/
def PemBlockRejected (limit maxlen : Nat) (bodies : List Bytes) : Option Bytes → Prop
  | none => True
  | some der => ¬ Ber.IsDerTlv limit 0x30 der ∨ maxlen < bodies.flatten.length + der.length

/-- The blocks up to the first one that is rejected. -/
def PemRejected (limit maxlen : Nat) (blocks : List (Option Bytes)) : Prop :=
  ∃ (bodies : List Bytes) (b : Option Bytes) (rest : List (Option Bytes)),
    blocks = bodies.map some ++ b :: rest ∧ PemBlockRejected limit maxlen bodies b

/-! ## The invariant -/

/-- The blocks `bodies` are loaded into a buffer that held `buffer₀`. -/
structure PemLoad.Holds {Stream : Type} (limit : Nat) (buffer₀ : Bytes) (maxlen₀ : UInt64)
    (bodies : List Bytes) (s : PemLoad Stream) : Prop where
  buffer : s.buffer = bodies.flatten ++ buffer₀.drop bodies.flatten.length
  certs : s.certs = bodies.flatten.length
  certslen : s.certslen.toNat = bodies.flatten.length
  space : bodies.flatten.length + s.maxlen.toNat = maxlen₀.toNat
  tlvs : ∀ e ∈ bodies, Ber.IsDerTlv limit 0x30 e

namespace PemLoad.Holds

variable {Stream : Type} {limit : Nat} {buffer₀ : Bytes} {maxlen₀ : UInt64} {bodies : List Bytes}
  {s : PemLoad Stream}

theorem start (limit : Nat) (buffer₀ : Bytes) (maxlen₀ : UInt64) (fp : Stream) :
    (pemStart buffer₀ maxlen₀ fp).Holds limit buffer₀ maxlen₀ [] where
  buffer := by simp [pemStart]
  certs := rfl
  certslen := rfl
  space := by simp [pemStart]
  tlvs := by simp

/-- What is written behind the bodies is one body more. -/
theorem write (hs : s.Holds limit buffer₀ maxlen₀ bodies) (der : Bytes) :
    s.buffer.write s.certs der =
      (bodies ++ [der]).flatten ++ buffer₀.drop (bodies ++ [der]).flatten.length := by
  simp [hs.buffer, hs.certs, Bytes.write, List.drop_append, List.drop_drop]

/-- The test sees the bytes that have just been written. -/
theorem slice_write (hs : s.Holds limit buffer₀ maxlen₀ bodies) (der : Bytes) :
    (s.buffer.write s.certs der).slice s.certs der.length = der := by
  apply Bytes.slice_write
  rw [hs.buffer, hs.certs, List.length_append]
  omega

/-- Pointer, total and space move together, and the space does not underflow. -/
theorem snoc (hs : s.Holds limit buffer₀ maxlen₀ bodies) {der : Bytes} {fp : Stream}
    (hder : Ber.IsDerTlv limit 0x30 der) (hfit : der.length ≤ s.maxlen.toNat) :
    PemLoad.Holds limit buffer₀ maxlen₀ (bodies ++ [der])
      { fp := fp
        buffer := s.buffer.write s.certs der
        certs := s.certs + der.length
        certslen := s.certslen + UInt64.ofNat der.length
        maxlen := s.maxlen - UInt64.ofNat der.length } := by
  have hmax := maxlen₀.toNat_lt
  have hspace := hs.space
  have hcertslen := hs.certslen
  have hlen : (UInt64.ofNat der.length).toNat = der.length := by
    rw [UInt64.toNat_ofNat']
    exact Nat.mod_eq_of_lt (by omega)
  have hflat : (bodies ++ [der]).flatten.length = bodies.flatten.length + der.length := by simp
  refine ⟨hs.write der, ?_, ?_, ?_, ?_⟩
  · rw [hflat, ← hs.certs]
  · rw [hflat, UInt64.toNat_add, hlen, hcertslen]
    exact Nat.mod_eq_of_lt (by omega)
  · have hle : UInt64.ofNat der.length ≤ s.maxlen := by
      rw [UInt64.le_iff_toNat_le, hlen]
      exact hfit
    rw [hflat, UInt64.toNat_sub_of_le _ _ hle, hlen]
    omega
  · simp only [List.forall_mem_append, List.forall_mem_singleton]
    exact ⟨hs.tlvs, hder⟩

theorem certslen_eq_zero (hs : s.Holds limit buffer₀ maxlen₀ bodies) :
    s.certslen = 0 ↔ bodies = [] := by
  rw [← UInt64.toNat_inj, hs.certslen]
  constructor
  · intro h
    cases bodies with
    | nil => rfl
    | cons e es =>
      have hflat : (e :: es).flatten = [] := List.eq_nil_of_length_eq_zero h
      exact ((hs.tlvs e (by simp)).ne_nil (List.append_eq_nil_iff.mp hflat).1).elim
  · intro h
    rw [h]
    rfl

theorem loaded_ret_zero (hs : s.Holds limit buffer₀ maxlen₀ bodies) :
    s.loaded.ret = 0 ↔ bodies = [] := by
  rw [← hs.certslen_eq_zero]
  simp [PemLoad.loaded]

theorem loaded_ret_one (hs : s.Holds limit buffer₀ maxlen₀ bodies) :
    s.loaded.ret = 1 ↔ bodies ≠ [] := by
  rw [Ne, ← hs.certslen_eq_zero]
  simp [PemLoad.loaded]

end PemLoad.Holds

theorem PemLoad.loaded_ret_ne {Stream : Type} (s : PemLoad Stream) : s.loaded.ret ≠ -1 := by
  unfold PemLoad.loaded
  by_cases h : s.certslen ≠ 0
  · simp [h]
  · simp [h]

/-- What is returned as a block fits. -/
theorem GmsslPem.Reads.length_le {Stream : Type} {P : GmsslPem Stream} {name : Bytes}
    {blocks : Stream → List (Option Bytes)} (hP : P.Reads name blocks) {fp fp' : Stream}
    {maxlen : UInt64} {data : Bytes} (h : P.pemRead fp name maxlen = .block data fp') :
    data.length ≤ maxlen.toNat := by
  cases hb : blocks fp with
  | nil =>
    rw [hP.ends fp maxlen hb] at h
    cases h
  | cons b rest =>
    cases b with
    | none =>
      obtain ⟨_, hw, _⟩ := hP.malformed fp maxlen rest hb
      rw [hw] at h
      cases h
    | some der =>
      by_cases hfit : der.length ≤ maxlen.toNat
      · obtain ⟨fp', hr, _⟩ := hP.reads fp maxlen der rest hb hfit
        rw [hr] at h
        cases h
        exact hfit
      · obtain ⟨_, hw, _⟩ := hP.tooLarge fp maxlen der rest hb (by omega)
        rw [hw] at h
        cases h

/-! ## The passes -/

section

variable {Stream : Type} {G : Gmssl} {P : GmsslPem Stream} {limit : Nat}
  {blocks : Stream → List (Option Bytes)}

theorem pemBlockAccepted_iff (hread : Ber.StrictTlvReader limit 0x30 G.asn1AnyFromDer) {b : Bytes} :
    pemBlockAccepted G b = true ↔ Ber.IsDerTlv limit 0x30 b := by
  unfold pemBlockAccepted
  split
  · rename_i hb
    simp only [Option.any_eq_true, Prod.exists, List.isEmpty_iff]
    constructor
    · rintro ⟨e, r, h, rfl⟩
      obtain ⟨hbe, he⟩ := (hread.read_iff b e [] hb).mp h
      rw [List.append_nil] at hbe
      rw [hbe]
      exact he
    · intro h
      exact ⟨b, [], (hread.read_iff b b [] hb).mpr ⟨by simp, h⟩, rfl⟩
  · rename_i hb
    simp only [Bool.false_eq_true, false_iff]
    intro h
    have := h.head? []
    rw [List.append_nil] at this
    exact hb this

theorem pemPass_of_fails {s : PemLoad Stream} {written : Bytes}
    (h : P.pemRead s.fp pemNameCertificate s.maxlen = .fails written) :
    pemPass G P s = .fails { s with buffer := s.buffer.write s.certs written } := by
  simp only [pemPass, h]

variable (G) in
theorem pemPass_of_block {buffer₀ : Bytes} {maxlen₀ : UInt64} {bodies : List Bytes}
    {s : PemLoad Stream} (hs : s.Holds limit buffer₀ maxlen₀ bodies) {der : Bytes} {fp : Stream}
    (h : P.pemRead s.fp pemNameCertificate s.maxlen = .block der fp) :
    pemPass G P s =
      if pemBlockAccepted G der then
        .next {
          fp := fp
          buffer := s.buffer.write s.certs der
          certs := s.certs + der.length
          certslen := s.certslen + UInt64.ofNat der.length
          maxlen := s.maxlen - UInt64.ofNat der.length }
      else .fails { s with fp := fp, buffer := s.buffer.write s.certs der } := by
  simp only [pemPass, h, hs.slice_write der]

theorem PemRuns.next {n : Nat} {s s' : PemLoad Stream} {r : PemLoaded} (h : PemRuns G P n s' r)
    (hp : pemPass G P s = .next s') : PemRuns G P (n + 1) s r := by
  intro fuel hfuel
  obtain ⟨fuel, rfl⟩ := Nat.exists_eq_add_one_of_ne_zero (Nat.ne_zero_of_lt hfuel)
  simp only [pemLoop, hp]
  exact h fuel (by omega)

variable (hread : Ber.StrictTlvReader limit 0x30 G.asn1AnyFromDer)
  (hP : P.Reads pemNameCertificate blocks) {buffer₀ : Bytes} {maxlen₀ : UInt64}
  {bodies : List Bytes} {s : PemLoad Stream}
include hread hP

/-- A pass behind `bodies`: it ends with the stream, goes on with one body more, or fails at a block
that is rejected. -/
theorem pemPass_cases (hs : s.Holds limit buffer₀ maxlen₀ bodies) :
    (blocks s.fp = [] ∧ pemPass G P s = .ends s) ∨
    (∃ der rest s', blocks s.fp = some der :: rest ∧ blocks s'.fp = rest ∧
      s'.Holds limit buffer₀ maxlen₀ (bodies ++ [der]) ∧ pemPass G P s = .next s') ∨
    (∃ b rest s', blocks s.fp = b :: rest ∧ PemBlockRejected limit maxlen₀.toNat bodies b ∧
      pemPass G P s = .fails s') := by
  cases hb : blocks s.fp with
  | nil => exact .inl ⟨rfl, by simp [pemPass, hP.ends _ s.maxlen hb]⟩
  | cons b rest =>
    right
    cases b with
    | none =>
      obtain ⟨written, hw, _⟩ := hP.malformed _ s.maxlen _ hb
      exact .inr ⟨none, rest, _, rfl, trivial, pemPass_of_fails hw⟩
    | some der =>
      have hspace := hs.space
      by_cases hfit : der.length ≤ s.maxlen.toNat
      · obtain ⟨fp', hr, hrest⟩ := hP.reads _ s.maxlen _ _ hb hfit
        by_cases hder : Ber.IsDerTlv limit 0x30 der
        · have hp := (pemPass_of_block G hs hr).trans
            (if_pos ((pemBlockAccepted_iff hread).mpr hder))
          exact .inl ⟨der, rest, _, rfl, hrest, hs.snoc hder hfit, hp⟩
        · have hp := (pemPass_of_block G hs hr).trans
            (if_neg (mt (pemBlockAccepted_iff hread).mp hder))
          exact .inr ⟨some der, rest, _, rfl, .inl hder, hp⟩
      · obtain ⟨written, hw, _⟩ := hP.tooLarge _ s.maxlen _ _ hb (by omega)
        exact .inr ⟨some der, rest, _, rfl, .inr (by omega), pemPass_of_fails hw⟩

/-- The loop, by induction on the blocks that are left. Either it takes all of them, or it stops at
one that is rejected. -/
theorem pemLoop_runs {left : List (Option Bytes)} (hs : s.Holds limit buffer₀ maxlen₀ bodies)
    (hleft : blocks s.fp = left) :
    (∃ (more : List Bytes) (s' : PemLoad Stream), left = more.map some ∧
      s'.Holds limit buffer₀ maxlen₀ (bodies ++ more) ∧ PemRuns G P left.length s s'.loaded) ∨
    (∃ (more : List Bytes) (b : Option Bytes) (rest : List (Option Bytes)) (r : PemLoaded),
      left = more.map some ++ b :: rest ∧ PemBlockRejected limit maxlen₀.toNat (bodies ++ more) b ∧
      r.ret = -1 ∧ PemRuns G P left.length s r) := by
  induction left generalizing s bodies with
  | nil =>
    obtain ⟨_, hp⟩ | ⟨der, rest, s', hb, _⟩ | ⟨b, rest, s', hb, _⟩ := pemPass_cases hread hP hs
    · refine .inl ⟨[], s, rfl, by simpa using hs, ?_⟩
      intro fuel hfuel
      obtain ⟨fuel, rfl⟩ := Nat.exists_eq_add_one_of_ne_zero (Nat.ne_zero_of_lt hfuel)
      simp only [pemLoop, hp]
    · rw [hleft] at hb
      cases hb
    · rw [hleft] at hb
      cases hb
  | cons b₀ left ih =>
    obtain ⟨hb, _⟩ | ⟨der, rest, s', hb, hrest, hs', hp⟩ | ⟨b, rest, s', hb, hrej, hp⟩ :=
      pemPass_cases hread hP hs
    · rw [hleft] at hb
      cases hb
    · rw [hleft] at hb
      obtain ⟨rfl, rfl⟩ := List.cons.inj hb
      obtain ⟨more, s'', hmore, hs'', hrun⟩ | ⟨more, b, rest, r, hsplit, hrej, hret, hrun⟩ :=
        ih hs' hrest
      · exact .inl ⟨der :: more, s'', by simp [hmore], by simpa using hs'', hrun.next hp⟩
      · exact .inr ⟨der :: more, b, rest, r, by simp [hsplit], by simpa using hrej, hret,
          hrun.next hp⟩
    · rw [hleft] at hb
      obtain ⟨rfl, rfl⟩ := List.cons.inj hb
      refine .inr ⟨[], b₀, left, ⟨-1, s'.buffer, s'.certslen⟩, rfl, by simpa using hrej, rfl, ?_⟩
      intro fuel hfuel
      obtain ⟨fuel, rfl⟩ := Nat.exists_eq_add_one_of_ne_zero (Nat.ne_zero_of_lt hfuel)
      simp only [pemLoop, hp]

/-- Every pass the loop gets to. -/
theorem holds_of_reaches {fp : Stream}
    (h : Relation.ReflTransGen (PemStep G P) (pemStart buffer₀ maxlen₀ fp) s) :
    ∃ bodies, s.Holds limit buffer₀ maxlen₀ bodies := by
  induction h with
  | refl => exact ⟨[], .start limit buffer₀ maxlen₀ fp⟩
  | tail _ hstep ih =>
    obtain ⟨bodies, hs⟩ := ih
    rw [PemStep] at hstep
    obtain ⟨_, hp⟩ | ⟨der, _, s', _, _, hs', hp⟩ | ⟨_, _, _, _, _, hp⟩ := pemPass_cases hread hP hs
    · rw [hp] at hstep
      cases hstep
    · rw [hp] at hstep
      cases hstep
      exact ⟨_, hs'⟩
    · rw [hp] at hstep
      cases hstep

end

/-- A stream of acceptable blocks that fit has none that is rejected. -/
theorem not_pemRejected {limit maxlen : Nat} {bodies : List Bytes}
    (htlvs : ∀ e ∈ bodies, Ber.IsDerTlv limit 0x30 e) (hfit : bodies.flatten.length ≤ maxlen) :
    ¬ PemRejected limit maxlen (bodies.map some) := by
  rintro ⟨front, b, rest, hsplit, hrej⟩
  obtain ⟨front', back, rfl, hfront, hback⟩ := List.map_eq_append_iff.mp hsplit
  obtain ⟨der, back, rfl, rfl, rfl⟩ := List.map_eq_cons_iff.mp hback
  have hinj : front' = front := List.map_injective_iff.mpr (Option.some_injective _) hfront
  subst hinj
  simp only [List.flatten_append, List.flatten_cons, List.length_append] at hfit
  obtain hrej | hrej := hrej
  · exact hrej (htlvs der (by simp))
  · omega

/-- **The loader and the raw splitter are inverse.** The loader returns 1 when the stream has blocks
and each decodes, is exactly one `SEQUENCE` and fits: the buffer then begins with their bodies, back
to back, and the splitter returns the `i`-th of them for the index `i`, and nothing behind the last.
It returns 0 when there is no block and -1 at a block that is rejected. In every pass it gets to,
total and space add up to the size of the buffer, and what `pem_read` returns fits into the
space. -/
theorem pem_loader_inverts_splitter {Stream : Type} (G : Gmssl) (P : GmsslPem Stream) {limit : Nat}
    (hread : Ber.StrictTlvReader limit 0x30 G.asn1AnyFromDer)
    {blocks : Stream → List (Option Bytes)}
    (hP : P.Reads pemNameCertificate blocks) (certs : Bytes) (maxlen : UInt64)
    (hsize : maxlen.toNat ≤ certs.length) (fp : Stream) :
    (∃ r : PemLoaded,
      (∀ fuel, (blocks fp).length < fuel →
        tlcpHybridCertsFromPem G P fuel certs maxlen fp = some r) ∧
      (r.ret = 1 ∨ r.ret = 0 ∨ r.ret = -1) ∧
      (r.ret = 1 → ∃ bodies : List Bytes,
        blocks fp = bodies.map some ∧
        (∀ e ∈ bodies, Ber.IsDerTlv limit 0x30 e) ∧
        r.certslen.toNat = (bodies.map List.length).sum ∧
        r.certslen.toNat ≤ maxlen.toNat ∧
        r.buffer = bodies.flatten ++ certs.drop r.certslen.toNat ∧
        r.buffer.length = certs.length ∧
        ∀ i : Nat, tlsCertChainGetCertByIndexRaw G (r.buffer.take r.certslen.toNat) i =
          match bodies[i]? with
          | some e => .found e
          | none => .absent) ∧
      (r.ret = 0 ↔ blocks fp = []) ∧
      (r.ret = -1 ↔ PemRejected limit maxlen.toNat (blocks fp))) ∧
    ∀ s, Relation.ReflTransGen (PemStep G P) (pemStart certs maxlen fp) s →
      s.certslen.toNat + s.maxlen.toNat = maxlen.toNat ∧
      ∀ der fp', P.pemRead s.fp pemNameCertificate s.maxlen = .block der fp' →
        der.length ≤ s.maxlen.toNat := by
  constructor
  · obtain ⟨bodies, s, hblocks, hs, hrun⟩ | ⟨bodies, b, rest, r, hblocks, hrej, hret, hrun⟩ :=
      pemLoop_runs hread hP (.start limit certs maxlen fp) (s := pemStart certs maxlen fp) rfl
    · rw [List.nil_append] at hs
      change blocks fp = bodies.map some at hblocks
      have hspace := hs.space
      have hcertslen := hs.certslen
      have hrej : ¬ PemRejected limit maxlen.toNat (blocks fp) := by
        rw [hblocks]
        exact not_pemRejected hs.tlvs (by omega)
      refine ⟨s.loaded, hrun, ?_, ?_, ?_, ?_⟩
      · by_cases h : bodies = []
        · exact .inr (.inl (hs.loaded_ret_zero.mpr h))
        · exact .inl (hs.loaded_ret_one.mpr h)
      · intro hret
        have hne := hs.loaded_ret_one.mp hret
        refine ⟨bodies, hblocks, hs.tlvs, ?_, ?_, ?_, ?_, ?_⟩
        · change s.certslen.toNat = _
          rw [hcertslen, List.length_flatten]
        · change s.certslen.toNat ≤ _
          omega
        · change s.buffer = _ ++ certs.drop s.certslen.toNat
          rw [hcertslen, hs.buffer]
        · change s.buffer.length = _
          rw [hs.buffer, List.length_append, List.length_drop]
          omega
        · intro i
          change tlsCertChainGetCertByIndexRaw G (s.buffer.take s.certslen.toNat) i = _
          rw [hcertslen, hs.buffer, List.take_left]
          exact tlsCertChainGetCertByIndexRaw_flatten hread hs.tlvs hne i
      · rw [hs.loaded_ret_zero, hblocks, List.map_eq_nil_iff]
      · simp only [hrej, iff_false]
        exact s.loaded_ret_ne
    · have hrej' : PemRejected limit maxlen.toNat (blocks fp) := ⟨bodies, b, rest, hblocks, hrej⟩
      change blocks fp = bodies.map some ++ b :: rest at hblocks
      refine ⟨r, hrun, .inr (.inr hret), ?_, ?_, ?_⟩
      · intro h
        rw [hret] at h
        cases h
      · simp [hret, hblocks]
      · simp [hret, hrej']
  · intro s hs
    obtain ⟨bodies, hs⟩ := holds_of_reaches hread hP hs
    have hspace := hs.space
    have hcertslen := hs.certslen
    refine ⟨by omega, ?_⟩
    intro der fp' hr
    exact hP.length_le hr

namespace Toy

/-- A file that stands for the blocks it still holds. -/
def pem : GmsslPem (List (Option Bytes)) where
  pemRead fp _ maxlen :=
    match fp with
    | [] => .done
    | none :: _ => .fails []
    | some der :: rest => if der.length ≤ maxlen.toNat then .block der rest else .fails []

theorem pem_reads (name : Bytes) : pem.Reads name id where
  ends := by
    intro fp maxlen h
    rw [id] at h
    rw [h]
    rfl
  reads := by
    intro fp maxlen der rest h hfit
    rw [id] at h
    rw [h]
    exact ⟨rest, if_pos hfit, rfl⟩
  tooLarge := by
    intro fp maxlen der rest h hfit
    rw [id] at h
    rw [h]
    exact ⟨[], if_neg (by omega), Nat.zero_le _⟩
  malformed := by
    intro fp maxlen rest h
    rw [id] at h
    rw [h]
    exact ⟨[], rfl, Nat.zero_le _⟩

end Toy

/-- Two blocks in a buffer of eight bytes. -/
theorem pem_loader_inverts_splitter_two :
    tlcpHybridCertsFromPem Toy.gmssl Toy.pem 3 (Bytes.zeros 8) 8
        [some [0x30, 1, 7], some [0x30, 0]] = some ⟨1, [0x30, 1, 7, 0x30, 0, 0, 0, 0], 5⟩ ∧
      tlsCertChainGetCertByIndexRaw Toy.gmssl [0x30, 1, 7, 0x30, 0] (1 : Nat) =
        .found [0x30, 0] := by
  have heval : tlcpHybridCertsFromPem Toy.gmssl Toy.pem 3 (Bytes.zeros 8) 8
      [some [0x30, 1, 7], some [0x30, 0]] =
        some ⟨1, [0x30, 1, 7, 0x30, 0, 0, 0, 0], 5⟩ := by decide +kernel
  obtain ⟨⟨r, hrun, _, hone, _⟩, _⟩ :=
    pem_loader_inverts_splitter Toy.gmssl Toy.pem Toy.gmssl_reader (Toy.pem_reads _)
      (Bytes.zeros 8) 8
      (by decide) [some [0x30, 1, 7], some [0x30, 0]]
  have hr := hrun 3 (by decide)
  rw [heval] at hr
  cases hr
  obtain ⟨bodies, hblocks, _, _, _, _, _, hsplit⟩ := hone rfl
  obtain rfl : [[0x30, 1, 7], [0x30, 0]] = bodies :=
    List.map_injective_iff.mpr (Option.some_injective _) hblocks
  exact ⟨heval, hsplit 1⟩

end HybridPqc
