import HybridPqc.Openssl.Lib

/-!
# X509.Template

The two ASN.1 templates of `hybrid_x509.c` as a writer and a reader of BER trees.

* `toBer` / `ofBer`: a certificate and its tree. The values of a relative distinguished name are
  taken to be in DER order.
* `i2dCompositeTbsCertificate`, `i2dCompositeCertificate`: the DER encoders.

A BIT STRING does not survive unchanged: without `ASN1_STRING_FLAG_BITS_LEFT` the encoder drops
trailing zero bits, and the decoder always sets the flag. `reencode` is what comes back;
`X509.ofBer_toBer` is the round trip.
-/

namespace HybridPqc

open Ber

namespace Asn1BitString

/-- The octets up to the last that is not zero. -/
def trim (data : Bytes) : Bytes := (data.reverse.dropWhile (· == 0)).reverse

/-- The number of zero bits below the lowest bit that is set. -/
def lowZeros (x : UInt8) : Fin 8 :=
  if x &&& 0x01 ≠ 0 then 0 else if x &&& 0x02 ≠ 0 then 1 else if x &&& 0x04 ≠ 0 then 2
  else if x &&& 0x08 ≠ 0 then 3 else if x &&& 0x10 ≠ 0 then 4 else if x &&& 0x20 ≠ 0 then 5
  else if x &&& 0x40 ≠ 0 then 6 else 7

def bitMask (n : Fin 8) : UInt8 := 0xff <<< UInt8.ofNat n

/-- The last octet with its `n` unused bits cleared. -/
def maskLast (n : Fin 8) (data : Bytes) : Bytes :=
  match data.getLast? with
  | none => []
  | some x => data.dropLast ++ [x &&& bitMask n]

/-- `i2c_ASN1_BIT_STRING`: the number of unused bits and the octets. -/
def i2c (s : Asn1BitString) : Fin 8 × Bytes :=
  match s.bitsLeft with
  | some n => if s.data = [] then (0, []) else (n, maskLast n s.data)
  | none =>
    let data := trim s.data
    match data.getLast? with
    | none => (0, [])
    | some x => (lowZeros x, maskLast (lowZeros x) data)

/-- `c2i_ASN1_BIT_STRING` on content octets. -/
def c2i : Bytes → Option Asn1BitString
  | [] => none
  | x :: data =>
    if h : x.toNat < 8 then some ⟨maskLast ⟨x.toNat, h⟩ data, some ⟨x.toNat, h⟩⟩ else none

def content (s : Asn1BitString) : Bytes := UInt8.ofNat s.i2c.1 :: s.i2c.2

/-- Whole octets: `ASN1_STRING_FLAG_BITS_LEFT` with no unused bits. -/
def ofOctets (data : Bytes) : Asn1BitString := ⟨data, some 0⟩

def reencode (s : Asn1BitString) : Asn1BitString := ⟨s.i2c.2, some s.i2c.1⟩

@[simp] theorem ofOctets_data (data : Bytes) : (ofOctets data).data = data := rfl
@[simp] theorem ofOctets_unusedBits (data : Bytes) : (ofOctets data).unusedBits = 0 := rfl

theorem maskLast_maskLast (n : Fin 8) (data : Bytes) :
    maskLast n (maskLast n data) = maskLast n data := by
  unfold maskLast
  cases h : data.getLast? with
  | none => rfl
  | some x => simp [UInt8.and_assoc]

theorem maskLast_i2c (s : Asn1BitString) : maskLast s.i2c.1 s.i2c.2 = s.i2c.2 := by
  unfold i2c
  split
  · split
    · rfl
    · exact maskLast_maskLast _ _
  · dsimp only
    split
    · rfl
    · exact maskLast_maskLast _ _

theorem c2i_content (s : Asn1BitString) : c2i s.content = some s.reencode := by
  have hn : (UInt8.ofNat s.i2c.1).toNat = s.i2c.1 := by simp; omega
  simp [c2i, content, hn, maskLast_i2c, reencode]

/-- With the flag set and no unused bits nothing is lost, whatever the last octets are. -/
theorem i2c_ofOctets (data : Bytes) : i2c (ofOctets data) = (0, data) := by
  have hmask : bitMask 0 = 0xff := by decide
  unfold ofOctets i2c maskLast
  dsimp only
  split
  · rename_i h; rw [h]
  · rename_i h
    rw [List.getLast?_eq_some_getLast h, hmask]
    dsimp only
    rw [show ∀ x : UInt8, x &&& 0xff = x from fun x => UInt8.and_neg_one,
      List.dropLast_append_getLast]

theorem reencode_ofOctets (data : Bytes) : reencode (ofOctets data) = ofOctets data := by
  rw [reencode, i2c_ofOctets, ofOctets]

theorem maskLast_ne_nil {n : Fin 8} {data : Bytes} (h : data ≠ []) : maskLast n data ≠ [] := by
  unfold maskLast
  rw [List.getLast?_eq_some_getLast h]
  simp

theorem i2c_of_nil {s : Asn1BitString} (h : s.i2c.2 = []) : s.i2c = (0, []) := by
  unfold i2c at h ⊢
  split
  · rename_i n hn
    simp only [hn] at h
    split
    · rfl
    · rename_i hd
      rw [if_neg hd] at h
      exact absurd h (maskLast_ne_nil hd)
  · rename_i hn
    simp only [hn] at h
    dsimp only
    split
    · rfl
    · rename_i x hx
      simp only [hx] at h
      refine absurd h (maskLast_ne_nil fun hd => ?_)
      rw [hd] at hx
      cases hx

/-- What was decoded encodes to the same octets. -/
theorem i2c_reencode (s : Asn1BitString) : s.reencode.i2c = s.i2c := by
  have hflag : s.reencode.i2c =
      if s.i2c.2 = [] then (0, []) else (s.i2c.1, maskLast s.i2c.1 s.i2c.2) := rfl
  rw [hflag]
  by_cases h : s.i2c.2 = []
  · rw [if_pos h, i2c_of_nil h]
  · rw [if_neg h, maskLast_i2c]

theorem reencode_reencode (s : Asn1BitString) : s.reencode.reencode = s.reencode := by
  rw [reencode, i2c_reencode, ← reencode]

theorem content_reencode (s : Asn1BitString) : s.reencode.content = s.content := by
  rw [content, i2c_reencode, content]

end Asn1BitString

/-! ## The writer -/

def X509Algor.toBer (a : X509Algor) : Element :=
  .cons 0x30 (.prim 0x06 a.algorithm :: a.parameter.toList)

def X509NameEntry.toBer (e : X509NameEntry) : Element :=
  .cons 0x30 [.prim 0x06 e.object, .prim e.type e.value]

def X509Name.toBer (name : X509Name) : Element :=
  .cons 0x30 (name.map fun rdn => .cons 0x31 (rdn.map X509NameEntry.toBer))

def Asn1Time.toBer (t : Asn1Time) : Element := .prim t.type t.data

def X509Val.toBer (v : X509Val) : Element := .cons 0x30 [v.notBefore.toBer, v.notAfter.toBer]

def X509Pubkey.toBer (k : X509Pubkey) : Element :=
  .cons 0x30 [k.algor.toBer, .prim 0x03 k.publicKey.content]

def X509Extension.toBer (x : X509Extension) : Element :=
  .cons 0x30 (.prim 0x06 x.object :: ((if x.critical then [.prim 0x01 [0xff]] else []) ++
    [.prim 0x04 x.value]))

/-- `COMPOSITE_TBS_CERTIFICATE` -/
def CompositeTbsCertificate.toBer (t : CompositeTbsCertificate) : Element :=
  .cons 0x30 ((t.version.map fun v => .cons 0xa0 [.prim 0x02 v]).toList ++
    .prim 0x02 t.serialNumber :: t.signature.toBer :: X509Name.toBer t.issuer ::
    t.validity.toBer :: X509Name.toBer t.subject :: t.subjectPublicKeyInfo.toBer ::
    ((t.issuerUid.map fun u => .prim 0x81 u.content).toList ++
      ((t.subjectUid.map fun u => .prim 0x82 u.content).toList ++
        (t.extensions.map fun xs => .cons 0xa3 [.cons 0x30 (xs.map X509Extension.toBer)]).toList)))

/-- `COMPOSITE_CERTIFICATE` -/
def X509.toBer (c : X509) : Element :=
  .cons 0x30 [c.tbsCertificate.toBer, c.signatureAlgorithm.toBer,
    .prim 0x03 c.signatureValue.content]

/-- The DER octets of a tree; a length has to fit an `int`. -/
def i2d (e : Element) : Option Bytes :=
  if tagsOk e ∧ (encode e).length ≤ 2 ^ 31 - 1 then some (encode e) else none

def i2dCompositeTbsCertificate (t : CompositeTbsCertificate) : Option Bytes := i2d t.toBer

def i2dCompositeCertificate (c : X509) : Option Bytes := i2d c.toBer

/-! ## The reader -/

def X509Algor.ofBer : Element → Option X509Algor
  | .cons 0x30 [.prim 0x06 algorithm] => some ⟨algorithm, none⟩
  | .cons 0x30 [.prim 0x06 algorithm, parameter] => some ⟨algorithm, some parameter⟩
  | _ => none

def X509NameEntry.ofBer : Element → Option X509NameEntry
  | .cons 0x30 [.prim 0x06 object, .prim type value] => some ⟨object, type, value⟩
  | _ => none

def rdnOfBer : Element → Option (List X509NameEntry)
  | .cons 0x31 entries => entries.mapM X509NameEntry.ofBer
  | _ => none

def X509Name.ofBer : Element → Option X509Name
  | .cons 0x30 rdns => rdns.mapM rdnOfBer
  | _ => none

def X509Val.ofBer : Element → Option X509Val
  | .cons 0x30 [.prim type data, .prim type' data'] => some ⟨⟨type, data⟩, ⟨type', data'⟩⟩
  | _ => none

def bitsOfBer (tag : UInt8) : Element → Option Asn1BitString
  | .prim t content => if t = tag then Asn1BitString.c2i content else none
  | _ => none

def X509Pubkey.ofBer : Element → Option X509Pubkey
  | .cons 0x30 [algor, bits] =>
    match X509Algor.ofBer algor, bitsOfBer 0x03 bits with
    | some algor, some publicKey => some ⟨algor, publicKey⟩
    | _, _ => none
  | _ => none

def X509Extension.ofBer : Element → Option X509Extension
  | .cons 0x30 [.prim 0x06 object, .prim 0x04 value] => some ⟨object, false, value⟩
  | .cons 0x30 [.prim 0x06 object, .prim 0x01 [b], .prim 0x04 value] => some ⟨object, b != 0, value⟩
  | _ => none

/-- An optional field: what `f` makes of the next element, or nothing when it is not the field. -/
def optional {α : Type} (isField : Element → Bool) (f : Element → Option α) :
    List Element → Option (Option α × List Element)
  | [] => some (none, [])
  | e :: es => if isField e then (f e).map fun a => (some a, es) else some (none, e :: es)

def hasTag (tag : UInt8) : Element → Bool
  | .prim t _ => t == tag
  | .cons t _ => t == tag

def versionOfBer : Element → Option Bytes
  | .cons _ [.prim 0x02 version] => some version
  | _ => none

def extensionsOfBer : Element → Option (List X509Extension)
  | .cons _ [.cons 0x30 xs] => xs.mapM X509Extension.ofBer
  | _ => none

def CompositeTbsCertificate.ofBer : Element → Option CompositeTbsCertificate
  | .cons 0x30 es => do
    let (version, es) ← optional (hasTag 0xa0) versionOfBer es
    match es with
    | .prim 0x02 serialNumber :: signature :: issuer :: validity :: subject :: key :: es => do
      let signature ← X509Algor.ofBer signature
      let issuer ← X509Name.ofBer issuer
      let validity ← X509Val.ofBer validity
      let subject ← X509Name.ofBer subject
      let subjectPublicKeyInfo ← X509Pubkey.ofBer key
      let (issuerUid, es) ← optional (hasTag 0x81) (bitsOfBer 0x81) es
      let (subjectUid, es) ← optional (hasTag 0x82) (bitsOfBer 0x82) es
      let (extensions, es) ← optional (hasTag 0xa3) extensionsOfBer es
      match es with
      | [] => some { version, serialNumber, signature, issuer, validity, subject,
                     subjectPublicKeyInfo, issuerUid, subjectUid, extensions }
      | _ => none
    | _ => none
  | _ => none

def X509.ofBer : Element → Option X509
  | .cons 0x30 [tbs, algorithm, signature] => do
    let tbsCertificate ← CompositeTbsCertificate.ofBer tbs
    let signatureAlgorithm ← X509Algor.ofBer algorithm
    let signatureValue ← bitsOfBer 0x03 signature
    some ⟨tbsCertificate, signatureAlgorithm, signatureValue⟩
  | _ => none

/-! ## Round trip -/

theorem i2d_read {e : Element} {der : Bytes} (h : i2d e = some der) :
    readElement false der = some (e, []) := by
  unfold i2d at h
  split at h
  · rename_i hw
    cases h
    have hwf : Wf e := ⟨hw.1, by have := hw.2; simp only [maxLen]; omega⟩
    simpa using read_encode false hwf []
  · cases h

def X509Pubkey.reencode (k : X509Pubkey) : X509Pubkey :=
  { k with publicKey := k.publicKey.reencode }

def CompositeTbsCertificate.reencode (t : CompositeTbsCertificate) : CompositeTbsCertificate :=
  { t with
    subjectPublicKeyInfo := t.subjectPublicKeyInfo.reencode
    issuerUid := t.issuerUid.map Asn1BitString.reencode
    subjectUid := t.subjectUid.map Asn1BitString.reencode }

def X509.reencode (c : X509) : X509 :=
  { c with
    tbsCertificate := c.tbsCertificate.reencode
    signatureValue := c.signatureValue.reencode }

theorem X509Algor.ofBer_toBer (a : X509Algor) : X509Algor.ofBer a.toBer = some a := by
  obtain ⟨oid, p⟩ := a
  cases p <;> rfl

theorem mapM_map_some {α β : Type} {f : α → Element} {g : Element → Option β} {h : α → β}
    (hfg : ∀ a, g (f a) = some (h a)) (l : List α) : (l.map f).mapM g = some (l.map h) := by
  induction l with
  | nil => rfl
  | cons a l ih => simp [hfg, ih]

theorem X509Name.ofBer_toBer (name : X509Name) :
    X509Name.ofBer (X509Name.toBer name) = some name := by
  have hrdn : ∀ rdn : List X509NameEntry,
      rdnOfBer (.cons 0x31 (rdn.map X509NameEntry.toBer)) = some (id rdn) := by
    intro rdn
    have h := mapM_map_some (f := X509NameEntry.toBer) (g := X509NameEntry.ofBer) (h := id)
      (fun _ => rfl) rdn
    rw [List.map_id] at h
    exact h
  have h := mapM_map_some hrdn name
  rw [List.map_id] at h
  exact h

theorem bitsOfBer_content (tag : UInt8) (s : Asn1BitString) :
    bitsOfBer tag (.prim tag s.content) = some s.reencode := by
  simp [bitsOfBer, Asn1BitString.c2i_content]

theorem X509Pubkey.ofBer_toBer (k : X509Pubkey) : X509Pubkey.ofBer k.toBer = some k.reencode := by
  simp [X509Pubkey.ofBer, X509Pubkey.toBer, X509Algor.ofBer_toBer, bitsOfBer_content, reencode]

theorem X509Extension.ofBer_toBer (x : X509Extension) : X509Extension.ofBer x.toBer = some x := by
  obtain ⟨object, critical, value⟩ := x
  cases critical <;> rfl

theorem optional_toList {α β : Type} {p : Element → Bool} {f : Element → Option α}
    {g : β → Element} {h : β → α} (hg : ∀ b, p (g b) = true ∧ f (g b) = some (h b))
    (x : Option β) (es : List Element) (hes : ∀ e ∈ es.head?, p e = false) :
    optional p f ((x.map g).toList ++ es) = some (x.map h, es) := by
  cases x with
  | some b => simp [optional, hg]
  | none =>
    cases es with
    | nil => rfl
    | cons e es => simp [optional, hes e (by simp)]

theorem extensionsOfBer_toBer (xs : List X509Extension) :
    extensionsOfBer (.cons 0xa3 [.cons 0x30 (xs.map X509Extension.toBer)]) = some xs := by
  have h := mapM_map_some (h := id) X509Extension.ofBer_toBer xs
  rw [List.map_id] at h
  exact h

theorem CompositeTbsCertificate.ofBer_toBer (t : CompositeTbsCertificate) :
    CompositeTbsCertificate.ofBer t.toBer = some t.reencode := by
  obtain ⟨version, serialNumber, signature, issuer, validity, subject, key, issuerUid, subjectUid,
    extensions⟩ := t
  have hver := fun es hes => optional_toList (f := versionOfBer)
    (p := hasTag 0xa0) (g := fun v => .cons 0xa0 [.prim 0x02 v]) (h := id)
    (fun _ => ⟨rfl, rfl⟩) version es hes
  have hiu := fun es hes => optional_toList
    (p := hasTag 0x81) (fun u => ⟨rfl, bitsOfBer_content 0x81 u⟩) issuerUid es hes
  have hsu := fun es hes => optional_toList
    (p := hasTag 0x82) (fun u => ⟨rfl, bitsOfBer_content 0x82 u⟩) subjectUid es hes
  have hex := optional_toList (p := hasTag 0xa3) (h := id)
    (fun xs => ⟨rfl, extensionsOfBer_toBer xs⟩) extensions [] (by simp)
  rw [List.append_nil] at hex
  have hval : X509Val.ofBer validity.toBer = some validity := rfl
  -- the fields in the order in which they are read
  change (optional (hasTag 0xa0) versionOfBer (_ ++ _) >>= _) = _
  rw [hver _ (by simp [hasTag])]
  change (X509Algor.ofBer signature.toBer >>= _) = _
  rw [X509Algor.ofBer_toBer, Option.bind_eq_bind, Option.bind_some,
    X509Name.ofBer_toBer, Option.bind_eq_bind, Option.bind_some,
    hval, Option.bind_eq_bind, Option.bind_some,
    X509Name.ofBer_toBer, Option.bind_eq_bind, Option.bind_some,
    X509Pubkey.ofBer_toBer, Option.bind_eq_bind, Option.bind_some]
  rw [hiu _ (by cases subjectUid <;> cases extensions <;> simp [hasTag])]
  dsimp only [Option.bind_eq_bind, Option.bind_some]
  rw [hsu _ (by cases extensions <;> simp [hasTag])]
  dsimp only [Option.bind_some]
  rw [hex]
  simp [reencode]

theorem X509.ofBer_toBer (c : X509) : X509.ofBer c.toBer = some c.reencode := by
  simp [X509.ofBer, X509.toBer, CompositeTbsCertificate.ofBer_toBer, X509Algor.ofBer_toBer,
    bitsOfBer_content, X509.reencode]

theorem CompositeTbsCertificate.toBer_reencode (t : CompositeTbsCertificate) :
    t.reencode.toBer = t.toBer := by
  simp [toBer, reencode, X509Pubkey.toBer, X509Pubkey.reencode, Asn1BitString.content_reencode,
    Function.comp_def]

theorem X509.toBer_reencode (c : X509) : c.reencode.toBer = c.toBer := by
  simp [X509.toBer, X509.reencode, CompositeTbsCertificate.toBer_reencode,
    Asn1BitString.content_reencode]

theorem X509.reencode_reencode (c : X509) : c.reencode.reencode = c.reencode := by
  simp [X509.reencode, CompositeTbsCertificate.reencode, X509Pubkey.reencode,
    Asn1BitString.reencode_reencode, Function.comp_def]

end HybridPqc
