import HybridPqc.Composite.Toy
import HybridPqc.X509.IssueCorrect

/-!
# X509.Toy

A concrete `IssueLib` over `Composite.Toy`: certificates and extension values in real BER, UTC
times, names and extensions limited to what the issuer asks for. An encoder returns its octets only
when the matching decoder reads them back, so the laws hold by construction; that issuing succeeds
is what has to be shown.
-/

namespace HybridPqc

namespace Toy

open Ber

/-! ## Times -/

def digits2 (n : Nat) : Bytes := [UInt8.ofNat (48 + n / 10), UInt8.ofNat (48 + n % 10)]

/-- Year, month and day of a day counted from 1970-01-01. -/
def civil (days : Nat) : Nat × Nat × Nat :=
  let z := days + 719468
  let doe := z % 146097
  let yoe := (doe - doe / 1460 + doe / 36524 - doe / 146096) / 365
  let doy := doe - (365 * yoe + yoe / 4 - yoe / 100)
  let mp := (5 * doy + 2) / 153
  let m := if mp < 10 then mp + 3 else mp - 9
  (yoe + z / 146097 * 400 + (if m ≤ 2 then 1 else 0), m, doy - (153 * mp + 2) / 5 + 1)

def daysOf (y m d : Nat) : Nat :=
  let y := if m ≤ 2 then y - 1 else y
  let yoe := y % 400
  let doy := (153 * (if 2 < m then m - 3 else m + 9) + 2) / 5 + d - 1
  y / 400 * 146097 + (yoe * 365 + yoe / 4 - yoe / 100 + doy) - 719468

/-- `YYMMDDHHMMSSZ` -/
def utcTime (t : Nat) : Asn1Time :=
  let (y, m, d) := civil (t / 86400)
  let s := t % 86400
  ⟨0x17, digits2 (y % 100) ++ digits2 m ++ digits2 d ++ digits2 (s / 3600) ++
    digits2 (s / 60 % 60) ++ digits2 (s % 60) ++ [0x5a]⟩

def pairs : Bytes → List Nat
  | a :: b :: r => (10 * (a.toNat - 48) + (b.toNat - 48)) :: pairs r
  | _ => []

/-- Two-digit years below 50 are in the 21st century. -/
def readTime (t : Asn1Time) : Option Int :=
  match t.type, pairs t.data with
  | 0x17, [y, m, d, h, min, s] =>
    some (daysOf (if y < 50 then 2000 + y else 1900 + y) m d * 86400 + h * 3600 + min * 60 + s :
      Nat)
  | _, _ => none

def gmtimeAdj (now adj : Int) : Option Asn1Time :=
  let t := utcTime (now + adj).toNat
  if readTime t = some (now + adj) then some t else none

def cmpTime (t : Asn1Time) (now : Int) : Int :=
  match readTime t with
  | none => 0
  | some s => if s ≤ now then -1 else 1

/-! ## Extension values -/

def d2iBasicConstraints (b : Bytes) : Option BasicConstraints :=
  match readElement false b with
  | some (.cons 0x30 [], _) => some ⟨false⟩
  | some (.cons 0x30 [.prim 0x01 [x]], _) => some ⟨x != 0⟩
  | _ => none

def d2iKeyUsage (b : Bytes) : Option Asn1BitString :=
  match readElement false b with
  | some (.prim 0x03 content, _) => Asn1BitString.c2i content
  | _ => none

def oidOfBer : Element → Option Oid
  | .prim 0x06 oid => some oid
  | _ => none

def d2iExtKeyUsage (b : Bytes) : Option (List Oid) :=
  match readElement false b with
  | some (.cons 0x30 es, _) => es.mapM oidOfBer
  | _ => none

def generalNameOfBer : Element → Option GeneralName
  | .prim 0x81 value => some ⟨.email, value⟩
  | .prim 0x82 value => some ⟨.dns, value⟩
  | .prim 0x86 value => some ⟨.uri, value⟩
  | .prim 0x87 value => some ⟨.ipAdd, value⟩
  | _ => none

def d2iSubjectAltName (b : Bytes) : Option (List GeneralName) :=
  match readElement false b with
  | some (.cons 0x30 es, _) => es.mapM generalNameOfBer
  | _ => none

def d2iSubjectKeyIdentifier (b : Bytes) : Option Bytes :=
  match readElement false b with
  | some (.prim 0x04 identifier, _) => some identifier
  | _ => none

def d2iAuthorityKeyid (b : Bytes) : Option AuthorityKeyid :=
  match readElement false b with
  | some (.cons 0x30 [.prim 0x80 keyid], _) => some ⟨some keyid⟩
  | some (.cons 0x30 [], _) => some ⟨none⟩
  | _ => none

/-- The DER of `e` as an extension value, when it decodes to `a`. -/
def valueOf {α : Type} [DecidableEq α] (d2i : Bytes → Option α) (a : α) (e : Element) :
    Option Bytes :=
  if d2i (encode e) = some a then some (encode e) else none

def bitsByte (bits : List Nat) : UInt8 :=
  UInt8.ofNat ((bits.map fun n => 2 ^ (7 - n)).sum)

/-- The names that the issuer writes: every item is a DNS name. -/
def dnsNames (items : List Conf.Item) : Option (List GeneralName) :=
  items.mapM fun
    | (type, some value) => if type = Conf.dns then some ⟨.dns, value⟩ else none
    | _ => none

def confValue (nid : Oid) (value : Bytes) : Option Bytes :=
  if nid = nidBasicConstraints then do
    let ca ← Conf.basicConstraints value
    valueOf d2iBasicConstraints ⟨ca⟩ (.cons 0x30 (if ca then [.prim 0x01 [0xff]] else []))
  else if nid = nidKeyUsage then do
    let bits ← Conf.keyUsage value
    let usage : Asn1BitString := (⟨[bitsByte bits], none⟩ : Asn1BitString).reencode
    if usage.data.length ≤ 1 ∧ (∀ n ∈ bits, n < 8) ∧
        ∀ n ∈ List.range 8, usage.getBit n = decide (n ∈ bits) then
      valueOf d2iKeyUsage usage (.prim 0x03 usage.content)
    else none
  else if nid = nidExtKeyUsage then
    if Conf.x509v3ParseList value = some [(Bytes.ofAscii "serverAuth", none)] then
      valueOf d2iExtKeyUsage [nidServerAuth] (.cons 0x30 [.prim 0x06 nidServerAuth])
    else none
  else if nid = nidSubjectAltName then do
    let items ← Conf.x509v3ParseList value
    let names ← dnsNames items
    valueOf d2iSubjectAltName names (.cons 0x30 (names.map fun name => .prim 0x82 name.value))
  else none

def extConfNid (nid : Oid) (value : Bytes) : Option X509Extension :=
  (confValue nid (Conf.checkCritical value).2).map fun v => ⟨nid, (Conf.checkCritical value).1, v⟩

def extI2dSki (identifier : Bytes) : Option X509Extension :=
  (valueOf d2iSubjectKeyIdentifier identifier (.prim 0x04 identifier)).map fun v =>
    ⟨nidSubjectKeyIdentifier, false, v⟩

def extI2dAki (authority : AuthorityKeyid) : Option X509Extension :=
  (valueOf d2iAuthorityKeyid authority
    (.cons 0x30 (authority.keyid.map (Element.prim 0x80)).toList)).map fun v =>
    ⟨nidAuthorityKeyIdentifier, false, v⟩

/-! ## Names, keys and certificates -/

/-- Country names are PrintableStrings of two letters, the other fields UTF8Strings. -/
def nameAddEntry (name : X509Name) (field : NameField) (_ : MbstringType) (bytes : Bytes) :
    Option X509Name :=
  if bytes = [] ∨ 64 < bytes.length then none
  else match field with
    | .c => if bytes.length = 2 then some (name ++ [[⟨objTxt2obj [2, 5, 4, 6], 0x13, bytes⟩]])
      else none
    | .o => some (name ++ [[⟨objTxt2obj [2, 5, 4, 10], 0x0c, bytes⟩]])
    | .cn => some (name ++ [[⟨objTxt2obj [2, 5, 4, 3], 0x0c, bytes⟩]])

def getPubkey (k : X509Pubkey) : Option Bytes :=
  match k.algor.parameter with
  | some (.prim 0x06 curve) =>
    if k.algor.algorithm = oidEcPublicKey ∧ curve = oidSm2Curve ∧ isPoint k.publicKey.data then
      some k.publicKey.data
    else none
  | _ => none

def d2iX509 (b : Bytes) : Option (X509 × Nat) :=
  match readElement false b with
  | none => none
  | some (e, r) => (X509.ofBer e).map fun c => (c, b.length - r.length)

theorem d2iX509_some {b : Bytes} {c : X509} {n : Nat} (h : d2iX509 b = some (c, n)) :
    ∃ e r, readElement false b = some (e, r) ∧ X509.ofBer e = some c ∧
      n = b.length - r.length := by
  unfold d2iX509 at h
  split at h
  · cases h
  rename_i e r he
  obtain ⟨c', hc, heq⟩ := Option.map_eq_some_iff.mp h
  cases heq
  exact ⟨e, r, he, hc, rfl⟩

def issueLib : IssueLib Bytes where
  toCrypto := crypto
  d2iX509 := d2iX509
  d2iX509_pos {b c n} h := by
    obtain ⟨e, r, he, _, rfl⟩ := d2iX509_some h
    obtain ⟨p, rfl, hp, _⟩ := readElement_spec he
    simp
    omega
  d2iX509_local {b c n} h r' := by
    obtain ⟨e, r, he, hc, rfl⟩ := d2iX509_some h
    obtain ⟨p, rfl, hp, hloc⟩ := readElement_spec he
    simp [d2iX509, hloc, hc]
  d2iX509_tlv {e r c n} h hd := by
    obtain ⟨e', r', he, _, rfl⟩ := d2iX509_some hd
    rw [h.read_append he]
    simp
  i2dReX509Tbs := i2dCompositeTbsCertificate
  nameCanon name := encode (X509Name.toBer name)
  cmpTime := cmpTime
  checkHost c host :=
    match c.getExtD2i nidSubjectAltName d2iSubjectAltName with
    | some (names, _) => if ⟨.dns, host⟩ ∈ names then 1 else 0
    | none => 0
  getPubkey := getPubkey
  d2iBasicConstraints := d2iBasicConstraints
  d2iKeyUsage := d2iKeyUsage
  d2iExtKeyUsage := d2iExtKeyUsage
  d2iSubjectAltName := d2iSubjectAltName
  d2iSubjectKeyIdentifier := d2iSubjectKeyIdentifier
  d2iAuthorityKeyid := d2iAuthorityKeyid
  x509NameAddEntryByTxt := nameAddEntry
  x509v3ExtConfNid := extConfNid
  x509v3ExtI2dSki := extI2dSki
  x509v3ExtI2dAki := extI2dAki
  x509GmtimeAdj := gmtimeAdj

/-! ## The laws -/

theorem valueOf_some {α : Type} [DecidableEq α] {d2i : Bytes → Option α} {a : α} {e : Element}
    {v : Bytes} (h : valueOf d2i a e = some v) : d2i v = some a ∧ v = encode e := by
  unfold valueOf at h
  split at h
  · cases h
    exact ⟨‹_›, rfl⟩
  · cases h

theorem d2iX509_i2d {c : X509} {der : Bytes} (h : i2dCompositeCertificate c = some der) :
    issueLib.d2iX509 der = some (c.reencode, der.length) := by
  have hread : d2iX509 der = some (c.reencode, der.length) := by
    simp [d2iX509, i2d_read h, X509.ofBer_toBer]
  exact hread

theorem cmpTime_iff {t : Asn1Time} {s : Int} (h : readTime t = some s) (n : Int) :
    (cmpTime t n < 0 ↔ s ≤ n) ∧ (0 < cmpTime t n ↔ n < s) := by
  unfold cmpTime
  rw [h]
  dsimp only
  split <;> constructor <;> omega

/-- A time that is written reads back. -/
theorem gmtimeAdj_some {now adj : Int} {t : Asn1Time} (h : gmtimeAdj now adj = some t) :
    readTime t = some (now + adj) := by
  simp only [gmtimeAdj] at h
  split at h
  · rename_i hread
    cases h
    exact hread
  · cases h

theorem asn1Correct : Asn1Correct issueLib where
  d2iX509 {c der c' n} h hd := by
    rw [d2iX509_i2d h] at hd
    cases hd
    rfl
  i2dReX509Tbs t := rfl
  ski {identifier e} h := by
    obtain ⟨v, hv, rfl⟩ := Option.map_eq_some_iff.mp h
    exact ⟨rfl, rfl, (valueOf_some hv).1⟩
  aki {authority e} h := by
    obtain ⟨v, hv, rfl⟩ := Option.map_eq_some_iff.mp h
    exact ⟨rfl, rfl, (valueOf_some hv).1⟩
  gmtime h n := cmpTime_iff (gmtimeAdj_some h) n

theorem getBit_of_short {s : Asn1BitString} {n : Nat} (hl : s.data.length ≤ 1) (hn : 8 ≤ n) :
    s.getBit n = false := by
  unfold Asn1BitString.getBit
  rw [List.getElem?_eq_none (by omega)]

theorem dnsNames_forall₂ {items : List Conf.Item} {names : List GeneralName}
    (h : dnsNames items = some names) :
    items.Forall₂ (fun item name => ∀ v, item = (Conf.dns, some v) → name = ⟨.dns, v⟩) names := by
  induction items generalizing names with
  | nil =>
    cases h
    exact .nil
  | cons item items ih =>
    simp only [dnsNames, List.mapM_cons, Option.bind_eq_bind, Option.bind_eq_some_iff,
      Option.pure_def, Option.some.injEq] at h
    obtain ⟨name, hname, names, hnames, rfl⟩ := h
    refine .cons ?_ (ih hnames)
    intro v hv
    subst hv
    simp only [if_true, Option.some.injEq] at hname
    exact hname.symm

theorem extConfNid_some {nid : Oid} {value : Bytes} {e : X509Extension}
    (h : extConfNid nid value = some e) :
    e.object = nid ∧ e.critical = (Conf.checkCritical value).1 ∧
      confValue nid (Conf.checkCritical value).2 = some e.value := by
  obtain ⟨v, hv, rfl⟩ := Option.map_eq_some_iff.mp h
  exact ⟨rfl, rfl, hv⟩

theorem sanReads : SanReads issueLib Conf.x509v3ParseList := by
  intro b e h
  have hv := (extConfNid_some h).2.2
  rw [Conf.checkCritical_dns, confValue, if_neg (by decide), if_neg (by decide),
    if_neg (by decide), if_pos rfl] at hv
  simp only [Option.bind_eq_bind, Option.bind_eq_some_iff] at hv
  obtain ⟨items, hitems, names, hnames, hv⟩ := hv
  exact ⟨items, names, hitems, (valueOf_some hv).1, dnsNames_forall₂ hnames⟩

theorem confCorrect : ConfCorrect issueLib where
  object h := (extConfNid_some h).1
  critical h := (extConfNid_some h).2.1
  basicConstraints {value e ca} h hca := by
    have hv := (extConfNid_some h).2.2
    rw [confValue, if_pos rfl, hca] at hv
    exact (valueOf_some hv).1
  keyUsage {value e bits} h hbits := by
    have hv := (extConfNid_some h).2.2
    rw [confValue, if_neg (by decide), if_pos rfl, hbits] at hv
    simp only [Option.bind_eq_bind, Option.bind_some] at hv
    split at hv
    · rename_i hcheck
      obtain ⟨hl, hb, hget⟩ := hcheck
      refine ⟨_, (valueOf_some hv).1, ?_⟩
      intro n
      by_cases hn : n < 8
      · exact hget n (List.mem_range.mpr hn)
      · rw [getBit_of_short hl (by omega), decide_eq_false]
        intro hmem
        exact hn (hb n hmem)
    · cases hv
  extKeyUsage {e} h := by
    have h : extConfNid nidExtKeyUsage (Bytes.ofAscii "serverAuth") = some e := h
    have hv := (extConfNid_some h).2.2
    rw [confValue, if_neg (by decide), if_neg (by decide), if_pos rfl] at hv
    split at hv
    · exact ⟨_, (valueOf_some hv).1, List.mem_cons_self⟩
    · cases hv
  subjectAltName h := by
    obtain ⟨v, _, names, _, hd, hv, _⟩ := sanReads.names Conf.parseList_readsDns h
    exact ⟨v, names, hd, hv⟩

theorem sm2Imports : Sm2Imports crypto := by
  intro k o h
  obtain ⟨hk, rfl⟩ := sm2Octets_some h
  simp only [isPoint, Bool.and_eq_true, beq_iff_eq] at hk
  exact ⟨o, by simp [crypto, hk.1], rfl⟩

theorem sm2SpkiCorrect : Sm2SpkiCorrect issueLib := by
  intro k o h
  obtain ⟨hk, rfl⟩ := sm2Octets_some h
  refine ⟨o, ?_, h⟩
  have : getPubkey (sm2Spki o) = some o := by simp [getPubkey, sm2Spki, hk]
  exact this

end Toy

end HybridPqc
