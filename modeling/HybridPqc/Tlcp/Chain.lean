import HybridPqc.Ber.Tlv
import HybridPqc.Tlcp.Client

/-!
# Tlcp.Chain

The certificate that was verified is the certificate that is used. The callback walks the stored
chain with `d2i_X509`, the key exchange walks it again with the raw splitter; both stop at the same
places because the chain is a concatenation of complete elements.

The elements of the Certificate message are the list `entries`, as the unmodified part of
`tls_record_get_handshake_certificate` finds them.
-/

namespace HybridPqc

section

variable (G : Gmssl)

/-- The loop of `tls_record_get_handshake_certificate` over the entries of the message: what it
stores in `certs`. `asn1_any_to_der` copies the element behind those already there. -/
def tlsRecordGetHandshakeCertificate : List Bytes → Option Bytes
  | [] => some []
  | a :: entries =>
    match tlsRawCertificateFromDer G a with
    | some (cert, []) => (tlsRecordGetHandshakeCertificate entries).map (cert ++ ·)
    | _ => none

end

/-- An element at or before `index` is malformed: behind at most `index` elements there is
something that does not start with one. -/
def MalformedUpTo (limit : Nat) (chain : Bytes) (index : Nat) : Prop :=
  ∃ (es : List Bytes) (r : Bytes), chain = es.flatten ++ r ∧ es.length ≤ index ∧
    (∀ e ∈ es, Ber.IsDerTlv limit 0x30 e) ∧
    r ≠ [] ∧ ∀ e r', r = e ++ r' → ¬ Ber.IsDerTlv limit 0x30 e

/-! ## The raw splitter -/

section

variable {G : Gmssl} {limit : Nat} (hread : Ber.StrictTlvReader limit 0x30 G.asn1AnyFromDer)
include hread

theorem tlsRawCertificateFromDer_iff {b e r : Bytes} :
    tlsRawCertificateFromDer G b = some (e, r) ↔ b = e ++ r ∧ Ber.IsDerTlv limit 0x30 e := by
  unfold tlsRawCertificateFromDer
  split
  · rename_i hb
    exact hread.read_iff b e r hb
  · rename_i hb
    constructor
    · intro h
      cases h
    · rintro ⟨rfl, he⟩
      exact (hb (he.head? r)).elim

/-- What is stored is the concatenation of the entries, each one complete element. -/
theorem tlsRecordGetHandshakeCertificate_iff {entries : List Bytes} {chain : Bytes} :
    tlsRecordGetHandshakeCertificate G entries = some chain ↔
      chain = entries.flatten ∧ ∀ e ∈ entries, Ber.IsDerTlv limit 0x30 e := by
  induction entries generalizing chain with
  | nil => simp [tlsRecordGetHandshakeCertificate, eq_comm]
  | cons a entries ih =>
    simp only [tlsRecordGetHandshakeCertificate, List.flatten_cons, List.forall_mem_cons]
    constructor
    · intro h
      split at h
      · rename_i cert hcert
        obtain ⟨ha, he⟩ := (tlsRawCertificateFromDer_iff hread).mp hcert
        rw [List.append_nil] at ha
        subst ha
        obtain ⟨stored, hs, rfl⟩ := Option.map_eq_some_iff.mp h
        obtain ⟨rfl, hes⟩ := ih.mp hs
        exact ⟨rfl, he, hes⟩
      · cases h
    · rintro ⟨rfl, he, hes⟩
      have ha : tlsRawCertificateFromDer G a = some (a, []) :=
        (tlsRawCertificateFromDer_iff hread).mpr ⟨by simp, he⟩
      simp only [ha, ih.mpr ⟨rfl, hes⟩, Option.map_some]

theorem rawCertificateLoop_append {e : Bytes} (he : Ber.IsDerTlv limit 0x30 e) (n : Nat)
    (r : Bytes) :
    rawCertificateLoop G n (e ++ r) =
      match n with
      | 0 => .found e
      | n + 1 => rawCertificateLoop G n r := by
  have hraw : tlsRawCertificateFromDer G (e ++ r) = some (e, r) :=
    (tlsRawCertificateFromDer_iff hread).mpr ⟨rfl, he⟩
  obtain ⟨x, xs, hx⟩ := List.exists_cons_of_ne_nil (List.append_ne_nil_of_left_ne_nil he.ne_nil r)
  rw [hx] at hraw ⊢
  cases n <;> simp only [rawCertificateLoop, hraw]

/-- On a concatenation of elements the loop finds the element of the index, or the end. -/
theorem rawCertificateLoop_flatten {es : List Bytes} (hes : ∀ e ∈ es, Ber.IsDerTlv limit 0x30 e)
    (n : Nat) :
    rawCertificateLoop G n es.flatten =
      match es[n]? with
      | some e => .found e
      | none => .absent := by
  induction es generalizing n with
  | nil => simp [rawCertificateLoop]
  | cons e es ih =>
    obtain ⟨he, hes⟩ := List.forall_mem_cons.mp hes
    rw [List.flatten_cons, rawCertificateLoop_append hread he]
    cases n with
    | zero => rfl
    | succ n => exact ih hes n

theorem malformedUpTo_front {x : UInt8} {xs : Bytes} {n : Nat}
    (hraw : tlsRawCertificateFromDer G (x :: xs) = none) : MalformedUpTo limit (x :: xs) n := by
  refine ⟨[], x :: xs, rfl, Nat.zero_le n, nofun, by simp, ?_⟩
  intro e r' hb he
  have := (tlsRawCertificateFromDer_iff hread).mpr ⟨hb, he⟩
  rw [hraw] at this
  cases this

/-- The loop fails exactly on a malformed element. -/
theorem rawCertificateLoop_error {n : Nat} {b : Bytes} :
    rawCertificateLoop G n b = .error ↔ MalformedUpTo limit b n := by
  constructor
  · intro h
    induction n generalizing b with
    | zero =>
      cases b with
      | nil => cases h
      | cons x xs =>
        cases hraw : tlsRawCertificateFromDer G (x :: xs) with
        | some p => simp [rawCertificateLoop, hraw] at h
        | none => exact malformedUpTo_front hread hraw
    | succ n ih =>
      cases b with
      | nil => cases h
      | cons x xs =>
        cases hraw : tlsRawCertificateFromDer G (x :: xs) with
        | some p =>
          obtain ⟨e, rest⟩ := p
          obtain ⟨hb, he⟩ := (tlsRawCertificateFromDer_iff hread).mp hraw
          simp only [rawCertificateLoop, hraw] at h
          obtain ⟨es, r, rfl, hlen, hes, hr⟩ := ih h
          refine ⟨e :: es, r, by simpa using hb, by simpa using hlen, ?_, hr⟩
          exact List.forall_mem_cons.mpr ⟨he, hes⟩
        | none => exact malformedUpTo_front hread hraw
  · rintro ⟨es, r, rfl, hlen, hes, hne, hbad⟩
    induction es generalizing n with
    | nil =>
      obtain ⟨x, xs, rfl⟩ := List.exists_cons_of_ne_nil hne
      cases hraw : tlsRawCertificateFromDer G (x :: xs) with
      | some p =>
        obtain ⟨hb, he⟩ := (tlsRawCertificateFromDer_iff hread).mp hraw
        exact (hbad _ _ hb he).elim
      | none => simp [rawCertificateLoop, hraw]
    | cons e es ih =>
      obtain ⟨he, hes⟩ := List.forall_mem_cons.mp hes
      rw [List.flatten_cons, List.append_assoc, rawCertificateLoop_append hread he]
      cases n with
      | zero => simp at hlen
      | succ n => exact ih (by simpa using hlen) hes

end

section

variable {G : Gmssl} {limit : Nat} (hread : Ber.StrictTlvReader limit 0x30 G.asn1AnyFromDer)
include hread

theorem tlsCertChainGetCertByIndexRaw_flatten {es : List Bytes}
    (hes : ∀ e ∈ es, Ber.IsDerTlv limit 0x30 e) (hne : es ≠ []) (i : Nat) :
    tlsCertChainGetCertByIndexRaw G es.flatten i =
      match es[i]? with
      | some e => .found e
      | none => .absent := by
  have hflat : es.flatten ≠ [] := by
    obtain ⟨e, es, rfl⟩ := List.exists_cons_of_ne_nil hne
    rw [List.flatten_cons]
    exact List.append_ne_nil_of_left_ne_nil (hes e (by simp)).ne_nil _
  unfold tlsCertChainGetCertByIndexRaw
  rw [if_neg (by simp only [hflat, false_or]; omega), Int.toNat_natCast]
  exact rawCertificateLoop_flatten hread hes i

theorem tlsCertChainGetCertByIndexRaw_error {b : Bytes} {index : Int} :
    tlsCertChainGetCertByIndexRaw G b index = .error ↔
      (b = [] ∨ index < 0) ∨ MalformedUpTo limit b index.toNat := by
  unfold tlsCertChainGetCertByIndexRaw
  split
  · rename_i h
    exact ⟨fun _ => Or.inl h, fun _ => rfl⟩
  · rename_i h
    rw [rawCertificateLoop_error hread]
    exact ⟨Or.inr, fun h' => h'.resolve_left h⟩

end

/-- `decode_next_certificate` stops where the element at the front of the chain stops. -/
theorem decodeNextCertificate_flatten {PKey : Type} {E : Openssl PKey} {limit : Nat}
    (hlimit : limit ≤ Ber.maxLen) {es : List Bytes} (hes : ∀ e ∈ es, Ber.IsDerTlv limit 0x30 e)
    {c : X509} {a r : Bytes}
    (h : decodeNextCertificate E (.buf es.flatten) = some (c, a, r)) :
    ∃ es', es = a :: es' ∧ r = es'.flatten := by
  cases es with
  | nil => simp [decodeNextCertificate] at h
  | cons e es =>
    have he := (hes e (by simp)).isTlv (by decide) hlimit
    rw [List.flatten_cons, decodeNextCertificate_tlv he] at h
    split at h
    · obtain ⟨c', _, hc⟩ := Option.map_eq_some_iff.mp h
      cases hc
      exact ⟨es, rfl, rfl⟩
    · cases h

/-- **The certificate that was verified is the certificate that is used.** On a stored chain the
callback accepts, the splitter returns for the indices 0 and 1 what the callback has read. On a
concatenation of elements it returns the element of the index, and `NULL` behind the last one; -1 is
left for its argument check and for a malformed element at or before the index. -/
theorem verified_certificate_is_used {PKey : Type} (E : Openssl PKey) (now : Int) (G : Gmssl)
    {limit : Nat} (hlimit : limit ≤ Ber.maxLen)
    (hread : Ber.StrictTlvReader limit 0x30 G.asn1AnyFromDer) :
    (∀ entries chain output arg, tlsRecordGetHandshakeCertificate G entries = some chain →
      (tlcpHybridCertGmsslVerifyCallback E now (.buf chain) output arg).result = .valid →
      ∃ signing encryption a b rest rest',
        decodeNextCertificate E (.buf chain) = some (signing, a, rest) ∧
        decodeNextCertificate E (.buf rest) = some (encryption, b, rest') ∧
        tlsCertChainGetCertByIndexRaw G chain 0 = .found a ∧
        tlsCertChainGetCertByIndexRaw G chain 1 = .found b) ∧
    (∀ es : List Bytes, es ≠ [] → (∀ e ∈ es, Ber.IsDerTlv limit 0x30 e) →
      (∀ (i : Nat) (hi : i < es.length),
        tlsCertChainGetCertByIndexRaw G es.flatten i = .found es[i]) ∧
      ∀ i : Nat, es.length ≤ i → tlsCertChainGetCertByIndexRaw G es.flatten i = .absent) ∧
    ∀ chain (index : Int), chain ≠ [] → 0 ≤ index →
      (tlsCertChainGetCertByIndexRaw G chain index = .error ↔
        MalformedUpTo limit chain index.toNat) := by
  refine ⟨?_, ?_, ?_⟩
  · intro entries chain output arg hstored hvalid
    obtain ⟨rfl, hes⟩ := (tlsRecordGetHandshakeCertificate_iff hread).mp hstored
    obtain ⟨s, a, r, e, b, r', hs, he⟩ := callback_valid_decodes hvalid
    obtain ⟨es, rfl, rfl⟩ := decodeNextCertificate_flatten hlimit hes hs
    obtain ⟨es', rfl, rfl⟩ := decodeNextCertificate_flatten hlimit
      (List.forall_mem_cons.mp hes).2 he
    refine ⟨s, e, a, b, _, _, hs, he, ?_, ?_⟩
    · exact tlsCertChainGetCertByIndexRaw_flatten hread hes (by simp) 0
    · exact tlsCertChainGetCertByIndexRaw_flatten hread hes (by simp) 1
  · intro es hne hes
    refine ⟨?_, ?_⟩
    · intro i hi
      rw [tlsCertChainGetCertByIndexRaw_flatten hread hes hne, List.getElem?_eq_getElem hi]
    · intro i hi
      rw [tlsCertChainGetCertByIndexRaw_flatten hread hes hne, List.getElem?_eq_none hi]
  · intro chain index hne hpos
    rw [tlsCertChainGetCertByIndexRaw_error hread]
    exact ⟨fun h => h.resolve_left (by simp only [hne, false_or]; omega), Or.inr⟩

namespace Toy

open Ber

/-- GmSSL with a strict reader; its verifier takes nothing. -/
def gmssl : Gmssl := ⟨splitTlv maxLen, fun _ _ => none⟩

theorem gmssl_reader : StrictTlvReader maxLen 0x30 gmssl.asn1AnyFromDer :=
  splitTlv_reader (Nat.le_refl _) (by decide)

theorem isDerTlv_encode {c : X509} (h : Reread c) : IsDerTlv maxLen 0x30 (encode c.toBer) := by
  have hl := h.length_le
  obtain ⟨es, hes⟩ : ∃ es, c.toBer = .cons 0x30 es := ⟨_, rfl⟩
  rw [hes] at hl ⊢
  simp only [encode, List.length_cons, List.length_append] at hl
  exact ⟨encodeAll es, rfl, by simp only [maxLen]; omega⟩

end Toy

theorem verified_certificate_is_used_issued : ∃ a b config,
    tlsRecordGetHandshakeCertificate Toy.gmssl [a, b] = some (a ++ b) ∧
    (tlcpHybridCertGmsslVerifyCallback Toy.issueLib.toOpenssl Toy.issueTime (.buf (a ++ b))
      (some []) (some config)).result = .valid ∧
    tlsCertChainGetCertByIndexRaw Toy.gmssl (a ++ b) 0 = .found a ∧
    tlsCertChainGetCertByIndexRaw Toy.gmssl (a ++ b) 1 = .found b := by
  obtain ⟨root, s, e, hrs, hre, hdual⟩ := Toy.dual_exists
  have htlv : ∀ x ∈ [Ber.encode s.toBer, Ber.encode e.toBer], Ber.IsDerTlv Ber.maxLen 0x30 x := by
    simp [Toy.isDerTlv_encode hrs, Toy.isDerTlv_encode hre]
  have hflat : [Ber.encode s.toBer, Ber.encode e.toBer].flatten =
      Ber.encode s.toBer ++ Ber.encode e.toBer := by simp
  have hstored := (tlsRecordGetHandshakeCertificate_iff Toy.gmssl_reader).mpr ⟨hflat.symm, htlv⟩
  have hvalid := (callback_of_accepted [] hdual).1
  obtain ⟨hused, hfound, _⟩ := verified_certificate_is_used Toy.issueLib.toOpenssl Toy.issueTime
    Toy.gmssl (Nat.le_refl Ber.maxLen) Toy.gmssl_reader
  obtain ⟨_, _, a, b, _, _, _, _, h0, h1⟩ := hused _ _ _ _ hstored hvalid
  obtain ⟨hfound, _⟩ := hfound _ (by simp) htlv
  have h0' := hfound 0 (by simp)
  have h1' := hfound 1 (by simp)
  rw [hflat] at h0' h1'
  exact ⟨_, _, _, hstored, hvalid, h0', h1'⟩

/-- A Certificate message without entries stores the empty chain, and there the splitter returns
-1. -/
theorem raw_splitter_empty_chain :
    ¬ ∀ (G : Gmssl) (limit : Nat), limit ≤ Ber.maxLen →
      Ber.StrictTlvReader limit 0x30 G.asn1AnyFromDer →
      ∀ entries chain, tlsRecordGetHandshakeCertificate G entries = some chain →
        ∀ i : Nat, entries.length ≤ i → tlsCertChainGetCertByIndexRaw G chain i = .absent := by
  intro h
  have := h Toy.gmssl Ber.maxLen (Nat.le_refl _) Toy.gmssl_reader [] [] rfl 0 (Nat.le_refl _)
  cases this

end HybridPqc
