import HybridPqc.Openssl.Types

/-!
# X509.Conf

The list syntax that `X509V3_EXT_conf_nid` reads its value in: items separated by commas up to the
first line break, each a type and, after a colon, a value, with blanks around both dropped.

`parseList_dns` says what becomes of `DNS:` followed by any string; `parseList_dns_eq_iff` that the
string comes out as it is, alone, exactly when it is `Clean`.

This reading is idealised in two places, which `scanList` has as OpenSSL has them: a line break ends
only the search for separators, and the last item goes on to the end of the string; and blanks after
a single byte stay. `scanList_dns_eq_iff` is the same result for it, with `ScanClean`.
-/

namespace HybridPqc

namespace Conf

def comma : UInt8 := 0x2c
def colon : UInt8 := 0x3a

def isLineBreak (c : UInt8) : Bool := c == 0x0d || c == 0x0a

/-- `ossl_isspace` -/
def isBlank (c : UInt8) : Bool := c == 0x20 || decide (0x09 ≤ c) && decide (c ≤ 0x0d)

/-- Without the blanks at both ends. -/
def strip (b : Bytes) : Bytes := ((b.dropWhile isBlank).reverse.dropWhile isBlank).reverse

/-- `strip_spaces`: `none` when nothing is left. -/
def stripSpaces (b : Bytes) : Option Bytes := if strip b = [] then none else some (strip b)

abbrev Item := Bytes × Option Bytes

def parseItem (b : Bytes) : Option Item :=
  match b.span (· != colon) with
  | (type, []) => do
    let type ← stripSpaces type
    return (type, none)
  | (type, _ :: value) => do
    let type ← stripSpaces type
    let value ← stripSpaces value
    return (type, some value)

/-- `X509V3_parse_list`, with nothing read from the first line break on -/
def x509v3ParseList (line : Bytes) : Option (List Item) :=
  ((line.takeWhile fun c => !isLineBreak c).splitOn comma).mapM parseItem

/-- `v3_check_critical`: whether the value is marked critical, and the rest of it. -/
def checkCritical (value : Bytes) : Bool × Bytes :=
  if (Bytes.ofAscii "critical,").isPrefixOf value then (true, (value.drop 9).dropWhile isBlank)
  else (false, value)

/-- `X509V3_get_value_bool` -/
def getValueBool (b : Bytes) : Option Bool :=
  if b ∈ ["TRUE", "true", "Y", "y", "YES", "yes"].map Bytes.ofAscii then some true
  else if b ∈ ["FALSE", "false", "N", "n", "NO", "no"].map Bytes.ofAscii then some false
  else none

/-- The short names of the KeyUsage bits. -/
def keyUsageBit (name : Bytes) : Option Nat :=
  (["digitalSignature", "nonRepudiation", "keyEncipherment", "dataEncipherment", "keyAgreement",
    "keyCertSign", "cRLSign", "encipherOnly", "decipherOnly"].map Bytes.ofAscii).idxOf? name

/-- The CA flag that a BasicConstraints value of one item asks for. -/
def basicConstraints (value : Bytes) : Option Bool :=
  match x509v3ParseList value with
  | some [(name, some v)] => if name = Bytes.ofAscii "CA" then getValueBool v else none
  | _ => none

/-- The bits that a KeyUsage value asks for. -/
def keyUsage (value : Bytes) : Option (List Nat) := do
  let items ← x509v3ParseList value
  items.mapM fun item => keyUsageBit item.1

def dns : Bytes := Bytes.ofAscii "DNS"

/-! ## Blanks -/

theorem dropWhile_length_le {p : UInt8 → Bool} (b : Bytes) : (b.dropWhile p).length ≤ b.length :=
  (List.dropWhile_suffix p).length_le

theorem strip_length_le (b : Bytes) : (strip b).length ≤ b.length := by
  unfold strip
  have h1 := dropWhile_length_le (p := isBlank) (b.dropWhile isBlank).reverse
  have h2 := dropWhile_length_le (p := isBlank) b
  simp only [List.length_reverse] at h1 ⊢
  omega

/-- No blank at either end. -/
def Trimmed (b : Bytes) : Prop :=
  (∀ c ∈ b.head?, isBlank c = false) ∧ ∀ c ∈ b.getLast?, isBlank c = false

instance (b : Bytes) : Decidable (Trimmed b) := inferInstanceAs (Decidable (_ ∧ _))

theorem dropWhile_eq_self_iff {p : UInt8 → Bool} {b : Bytes} :
    b.dropWhile p = b ↔ ∀ c ∈ b.head?, p c = false := by
  cases b with
  | nil => simp
  | cons x b =>
    simp only [List.head?_cons, Option.mem_def, Option.some.injEq, forall_eq']
    cases h : p x with
    | false => simp [h]
    | true =>
      simp only [List.dropWhile_cons, h, if_true, Bool.true_eq_false, iff_false]
      intro heq
      have hl := dropWhile_length_le (p := p) b
      rw [heq] at hl
      simp at hl

theorem strip_eq_self_iff {b : Bytes} : strip b = b ↔ Trimmed b := by
  unfold strip Trimmed
  constructor
  · intro h
    have hlen := strip_length_le b
    have h1 : b.dropWhile isBlank = b := by
      refine (List.dropWhile_suffix isBlank).eq_of_length_le ?_
      have := dropWhile_length_le (p := isBlank) (b.dropWhile isBlank).reverse
      have hl := congrArg List.length h
      simp only [List.length_reverse] at this hl
      omega
    rw [h1] at h
    have h2 : b.reverse.dropWhile isBlank = b.reverse := by
      rw [← List.reverse_eq_iff]; exact h
    exact ⟨dropWhile_eq_self_iff.mp h1, by simpa using dropWhile_eq_self_iff.mp h2⟩
  · rintro ⟨h1, h2⟩
    rw [dropWhile_eq_self_iff.mpr h1, dropWhile_eq_self_iff.mpr (by simpa using h2),
      List.reverse_reverse]

/-! ## `DNS:` and a string -/

/-- The string goes through unchanged: no separator, no line break, no blank at an end. -/
structure Clean (b : Bytes) : Prop where
  no_comma : comma ∉ b
  no_break : ∀ c ∈ b, isLineBreak c = false
  trimmed : Trimmed b

theorem parseItem_dns (b : Bytes) :
    parseItem (dns ++ colon :: b) = (stripSpaces b).map fun value => (dns, some value) := by
  have hspan : (dns ++ colon :: b).span (· != colon) = (dns, colon :: b) := by
    rw [List.span_eq_takeWhile_dropWhile]
    simp [dns, Bytes.ofAscii, colon]
  have hdns : stripSpaces dns = some dns := by decide
  simp only [parseItem, hspan, hdns]
  cases stripSpaces b <;> rfl

theorem checkCritical_dns (b : Bytes) :
    checkCritical (dns ++ colon :: b) = (false, dns ++ colon :: b) := by
  simp [checkCritical, dns, Bytes.ofAscii]

theorem takeWhile_dns (b : Bytes) :
    ((dns ++ colon :: b).takeWhile fun c => !isLineBreak c) =
      dns ++ colon :: b.takeWhile fun c => !isLineBreak c := by
  simp [dns, Bytes.ofAscii, colon, isLineBreak]

/-- A prefix without the separator stays in front of the first piece. -/
theorem splitOn_append {p b q : Bytes} {qs : List Bytes} (h : comma ∉ p)
    (hb : b.splitOn comma = q :: qs) : (p ++ b).splitOn comma = (p ++ q) :: qs := by
  induction p with
  | nil => exact hb
  | cons x p ih =>
    have hx : (x == comma) = false := by
      rw [beq_eq_false_iff_ne]
      rintro rfl
      exact h List.mem_cons_self
    have hp : comma ∉ p := fun hm => h (List.mem_cons_of_mem _ hm)
    rw [List.cons_append, List.splitOn_cons_eq_if_modifyHead, ih hp, hx]
    rfl

theorem splitOn_dns {b q : Bytes} {qs : List Bytes} (h : b.splitOn comma = q :: qs) :
    (dns ++ colon :: b).splitOn comma = (dns ++ colon :: q) :: qs := by
  have hsplit := splitOn_append (p := dns ++ [colon]) (by decide) h
  rwa [List.append_assoc, List.append_assoc, List.singleton_append, List.singleton_append]
    at hsplit

theorem mapM_length {b : List Bytes} {items : List Item} (h : b.mapM parseItem = some items) :
    items.length = b.length := by
  induction b generalizing items with
  | nil =>
    cases h
    rfl
  | cons x b ih =>
    simp only [List.mapM_cons, Option.bind_eq_bind, Option.bind_eq_some_iff, Option.pure_def,
      Option.some.injEq] at h
    obtain ⟨item, _, rest, hrest, rfl⟩ := h
    rw [List.length_cons, List.length_cons, ih hrest]

/-- The first item is a DNS name; how many follow depends on the commas before the line break. -/
theorem parseList_dns {b : Bytes} {items : List Item}
    (h : x509v3ParseList (dns ++ colon :: b) = some items) :
    ∃ q qs value rest, (b.takeWhile fun c => !isLineBreak c).splitOn comma = q :: qs ∧
      stripSpaces q = some value ∧ items = (dns, some value) :: rest ∧
      rest.length = qs.length := by
  cases hq : (b.takeWhile fun c => !isLineBreak c).splitOn comma with
  | nil => exact absurd hq (List.splitOn_ne_nil _ _)
  | cons q qs =>
    rw [x509v3ParseList, takeWhile_dns, splitOn_dns hq, List.mapM_cons, parseItem_dns] at h
    cases hv : stripSpaces q with
    | none => simp [hv] at h
    | some value =>
      cases hrest : qs.mapM parseItem with
      | none => simp [hv, hrest] at h
      | some rest =>
        simp only [hv, hrest, Option.map_some, Option.bind_eq_bind, Option.bind_some,
          Option.pure_def, Option.some.injEq] at h
        exact ⟨q, qs, value, rest, rfl, hv, h.symm, mapM_length hrest⟩

theorem takeWhile_eq_self_iff {b : Bytes} :
    (b.takeWhile fun c => !isLineBreak c) = b ↔ ∀ c ∈ b, isLineBreak c = false := by
  induction b with
  | nil => simp
  | cons x b ih => cases h : isLineBreak x <;> simp [h, ih]

/-- A comma makes a second piece. -/
theorem comma_not_mem {b q : Bytes} (h : b.splitOn comma = [q]) : comma ∉ b := by
  intro hm
  obtain ⟨x, y, hxy⟩ := List.append_of_mem hm
  rw [hxy, List.splitOn_append_cons_self] at h
  have hl := congrArg List.length h
  have h1 := List.length_pos_iff.mpr (List.splitOn_ne_nil comma x)
  have h2 := List.length_pos_iff.mpr (List.splitOn_ne_nil comma y)
  rw [List.length_append, List.length_singleton] at hl
  omega

theorem stripSpaces_some {b value : Bytes} (h : stripSpaces b = some value) :
    value = strip b ∧ value ≠ [] := by
  unfold stripSpaces at h
  split at h
  · cases h
  · rename_i hne
    cases h
    exact ⟨rfl, hne⟩

/-- A reading that finds a DNS name, and not an empty one, behind `DNS:`. -/
def ReadsDns (parse : Bytes → Option (List Item)) : Prop :=
  ∀ {b items}, parse (dns ++ colon :: b) = some items →
    ∃ value rest, items = (dns, some value) :: rest ∧ value ≠ []

theorem parseList_readsDns : ReadsDns x509v3ParseList := by
  intro b items h
  obtain ⟨_, _, value, rest, _, hv, rfl, _⟩ := parseList_dns h
  exact ⟨value, rest, rfl, (stripSpaces_some hv).2⟩

/-- **The list says what was asked for** exactly when the string is clean. -/
theorem parseList_dns_eq_iff {b : Bytes} {items : List Item}
    (h : x509v3ParseList (dns ++ colon :: b) = some items) :
    items = [(dns, some b)] ↔ Clean b := by
  obtain ⟨q, qs, value, rest, hq, hv, rfl, hlen⟩ := parseList_dns h
  obtain ⟨rfl, _⟩ := stripSpaces_some hv
  constructor
  · intro heq
    simp only [List.cons.injEq, Prod.mk.injEq, Option.some.injEq, true_and] at heq
    obtain ⟨hstrip, rfl⟩ := heq
    have hqs : qs = [] := List.eq_nil_of_length_eq_zero hlen.symm
    subst hqs
    have hcomma := comma_not_mem hq
    rw [List.splitOn_eq_singleton hcomma] at hq
    simp only [List.cons.injEq, and_true] at hq
    -- nothing was cut off, by length
    have hwhole : (b.takeWhile fun c => !isLineBreak c) = b := by
      have h1 := strip_length_le q
      rw [hstrip, ← hq] at h1
      exact (List.takeWhile_prefix _).eq_of_length_le h1
    rw [hwhole] at hq hcomma
    subst hq
    exact ⟨hcomma, takeWhile_eq_self_iff.mp hwhole, strip_eq_self_iff.mp hstrip⟩
  · intro hc
    rw [takeWhile_eq_self_iff.mpr hc.no_break, List.splitOn_eq_singleton hc.no_comma] at hq
    cases hq
    rw [List.length_nil, List.length_eq_zero_iff] at hlen
    rw [hlen, strip_eq_self_iff.mpr hc.trimmed]

/-! ## The search for separators alone ends at a line break -/

/-- `strip_spaces`, which leaves a single byte as it found it. -/
def stripEnds (b : Bytes) : Option Bytes :=
  if strip b = [] then none
  else if (strip b).length = 1 then some (b.dropWhile isBlank)
  else some (strip b)

/-- An item, and what follows it from the line break on. -/
def scanItem (item rest : Bytes) : Option Item :=
  match item.span (· != colon) with
  | (type, []) => do
    let type ← stripEnds (type ++ rest)
    return (type, none)
  | (type, _ :: value) => do
    let type ← stripEnds type
    let value ← stripEnds (value ++ rest)
    return (type, some value)

def scanItems (rest : Bytes) : List Bytes → Option (List Item)
  | [] => some []
  | [item] => do
    let item ← scanItem item rest
    return [item]
  | item :: items => do
    let item ← scanItem item []
    let items ← scanItems rest items
    return item :: items

def scanList (line : Bytes) : Option (List Item) :=
  scanItems (line.dropWhile fun c => !isLineBreak c)
    ((line.takeWhile fun c => !isLineBreak c).splitOn comma)

theorem stripEnds_ne_nil {b value : Bytes} (h : stripEnds b = some value) : value ≠ [] := by
  unfold stripEnds at h
  split at h
  · cases h
  rename_i hne
  split at h
  · cases h
    intro hnil
    rw [strip, hnil] at hne
    exact hne rfl
  · cases h
    exact hne

theorem scanItem_dns (b rest : Bytes) :
    scanItem (dns ++ colon :: b) rest =
      (stripEnds (b ++ rest)).map fun value => (dns, some value) := by
  have hspan : (dns ++ colon :: b).span (· != colon) = (dns, colon :: b) := by
    rw [List.span_eq_takeWhile_dropWhile]
    simp [dns, Bytes.ofAscii, colon]
  have hdns : stripEnds dns = some dns := by decide
  simp only [scanItem, hspan, hdns]
  cases stripEnds (b ++ rest) <;> rfl

theorem scanItems_length {rest : Bytes} {pieces : List Bytes} {items : List Item}
    (h : scanItems rest pieces = some items) : items.length = pieces.length := by
  induction pieces using scanItems.induct generalizing items with
  | case1 =>
    cases h
    rfl
  | case2 item =>
    simp only [scanItems, Option.bind_eq_bind, Option.bind_eq_some_iff, Option.pure_def,
      Option.some.injEq] at h
    obtain ⟨_, _, rfl⟩ := h
    rfl
  | case3 item pieces hne ih =>
    rw [scanItems] at h
    · simp only [Option.bind_eq_bind, Option.bind_eq_some_iff, Option.pure_def,
        Option.some.injEq] at h
      obtain ⟨_, _, _, hrest, rfl⟩ := h
      rw [List.length_cons, List.length_cons, ih hrest]
    · exact hne

/-- The string goes through that scan unchanged. -/
structure ScanClean (b : Bytes) : Prop where
  no_comma : comma ∉ b.takeWhile fun c => !isLineBreak c
  kept : stripEnds b = some b

theorem dropWhile_dns (b : Bytes) :
    ((dns ++ colon :: b).dropWhile fun c => !isLineBreak c) =
      b.dropWhile fun c => !isLineBreak c := by
  simp [dns, Bytes.ofAscii, colon, isLineBreak]

theorem scanItems_cons {item : Bytes} {rest : Bytes} {pieces : List Bytes} {items : List Item}
    (h : scanItems rest (item :: pieces) = some items) :
    ∃ first others, items = first :: others ∧ others.length = pieces.length ∧
      scanItem item (if pieces = [] then rest else []) = some first := by
  cases pieces with
  | nil =>
    simp only [scanItems, Option.bind_eq_bind, Option.bind_eq_some_iff, Option.pure_def,
      Option.some.injEq] at h
    obtain ⟨first, hfirst, rfl⟩ := h
    exact ⟨first, [], rfl, rfl, hfirst⟩
  | cons piece pieces =>
    simp only [scanItems, Option.bind_eq_bind, Option.bind_eq_some_iff, Option.pure_def,
      Option.some.injEq] at h
    obtain ⟨first, hfirst, others, hothers, rfl⟩ := h
    exact ⟨first, others, rfl, scanItems_length hothers, hfirst⟩

/-- The first item is a DNS name, and the last one goes on to the end. -/
theorem scanList_dns {b : Bytes} {items : List Item}
    (h : scanList (dns ++ colon :: b) = some items) :
    ∃ q qs value rest, (b.takeWhile fun c => !isLineBreak c).splitOn comma = q :: qs ∧
      items = (dns, some value) :: rest ∧ rest.length = qs.length ∧
      stripEnds (q ++ if qs = [] then b.dropWhile fun c => !isLineBreak c else []) =
        some value := by
  cases hq : (b.takeWhile fun c => !isLineBreak c).splitOn comma with
  | nil => exact absurd hq (List.splitOn_ne_nil _ _)
  | cons q qs =>
    rw [scanList, takeWhile_dns, dropWhile_dns, splitOn_dns hq] at h
    obtain ⟨first, rest, rfl, hlen, hfirst⟩ := scanItems_cons h
    rw [scanItem_dns, Option.map_eq_some_iff] at hfirst
    obtain ⟨value, hvalue, rfl⟩ := hfirst
    exact ⟨q, qs, value, rest, rfl, rfl, hlen, hvalue⟩

theorem scanList_readsDns : ReadsDns scanList := by
  intro b items h
  obtain ⟨_, _, value, rest, _, rfl, _, hv⟩ := scanList_dns h
  exact ⟨value, rest, rfl, stripEnds_ne_nil hv⟩

theorem scanList_dns_eq_iff {b : Bytes} {items : List Item}
    (h : scanList (dns ++ colon :: b) = some items) :
    items = [(dns, some b)] ↔ ScanClean b := by
  obtain ⟨q, qs, value, rest, hq, rfl, hlen, hv⟩ := scanList_dns h
  constructor
  · intro heq
    simp only [List.cons.injEq, Prod.mk.injEq, Option.some.injEq, true_and] at heq
    obtain ⟨rfl, rfl⟩ := heq
    have hqs : qs = [] := List.eq_nil_of_length_eq_zero hlen.symm
    subst hqs
    have hcomma := comma_not_mem hq
    rw [List.splitOn_eq_singleton hcomma] at hq
    cases hq
    rw [if_pos rfl, List.takeWhile_append_dropWhile] at hv
    exact ⟨hcomma, hv⟩
  · intro hc
    rw [List.splitOn_eq_singleton hc.no_comma] at hq
    cases hq
    rw [List.length_nil, List.length_eq_zero_iff] at hlen
    rw [if_pos rfl, List.takeWhile_append_dropWhile, hc.kept] at hv
    cases hv
    rw [hlen]

end Conf

end HybridPqc
