import HybridPqc.Ber.Length

/-!
# Ber.Element

BER elements with one-octet identifiers: the reader and the DER writer.

* `read strict fuel b`: the first element of `b` and the bytes after it. `strict = false` is BER
  (any length form, indefinite lengths), `strict = true` is DER.
* `encode`: the DER encoding.

`read_spec` is the one fact about where a reader stops: a successful read consumes a prefix, and
what it returns depends on that prefix alone. `read_encode` is the round trip, `encode_of_read`
the uniqueness of DER: the strict reader takes nothing but what the writer writes.
-/

namespace Ber

inductive Element where
  | prim (tag : UInt8) (content : Bytes)
  | cons (tag : UInt8) (children : List Element)

def isConstructed (t : UInt8) : Bool := t &&& 0x20 != 0

/-- Identifiers of more than one octet are not read. -/
def isHighTag (t : UInt8) : Bool := t &&& 0x1f == 0x1f

/-! ## The writer -/

mutual

def encode : Element → Bytes
  | .prim t c => t :: (encodeLength c.length ++ c)
  | .cons t es => t :: (encodeLength (encodeAll es).length ++ encodeAll es)

def encodeAll : List Element → Bytes
  | [] => []
  | e :: es => encode e ++ encodeAll es

end

mutual

/-- The constructed bit of every identifier agrees with the element it stands on. -/
def tagsOk : Element → Bool
  | .prim t _ => !isHighTag t && !isConstructed t
  | .cons t es => !isHighTag t && isConstructed t && tagsOkAll es

def tagsOkAll : List Element → Bool
  | [] => true
  | e :: es => tagsOk e && tagsOkAll es

end

/-- An element that has a DER encoding a reader takes. -/
def Wf (e : Element) : Prop := tagsOk e = true ∧ (encode e).length ≤ maxLen

instance (e : Element) : Decidable (Wf e) := inferInstanceAs (Decidable (_ ∧ _))

/-! ## The readers -/

def readHeader (strict : Bool) : Bytes → Option (UInt8 × Length × Bytes)
  | [] => none
  | t :: r =>
    if isHighTag t then none
    else match readLength strict r with
      | none => none
      | some (l, r') => some (t, l, r')

mutual

/-- The first element of the input. Fuel bounds the nesting; the input's length is enough
(`read_spec`). -/
def read (strict : Bool) : Nat → Bytes → Option (Element × Bytes)
  | 0, _ => none
  | f + 1, b =>
    match readHeader strict b with
    | none => none
    | some (t, .definite n, r) =>
      if r.length < n then none
      else if isConstructed t then
        match readAll strict f (r.take n) with
        | none => none
        | some es => some (.cons t es, r.drop n)
      else some (.prim t (r.take n), r.drop n)
    | some (t, .indefinite, r) =>
      if isConstructed t then
        match readUntilEoc strict f r with
        | none => none
        | some (es, r') => some (.cons t es, r')
      else none

/-- Elements up to the end of the input. -/
def readAll (strict : Bool) : Nat → Bytes → Option (List Element)
  | 0, _ => none
  | _ + 1, [] => some []
  | f + 1, x :: b =>
    match read strict f (x :: b) with
    | none => none
    | some (e, r) =>
      match readAll strict f r with
      | none => none
      | some es => some (e :: es)

/-- Elements up to the end-of-contents octets. -/
def readUntilEoc (strict : Bool) : Nat → Bytes → Option (List Element × Bytes)
  | 0, _ => none
  | f + 1, b =>
    if b.take 2 = [0, 0] then some ([], b.drop 2)
    else
      match read strict f b with
      | none => none
      | some (e, r) =>
        match readUntilEoc strict f r with
        | none => none
        | some (es, r') => some (e :: es, r')

end

/-- The first element of `b` with all the fuel it can need. -/
def readElement (strict : Bool) (b : Bytes) : Option (Element × Bytes) := read strict b.length b

/-- `b` is one complete element with identifier `t` and a definite length. -/
def IsTlv (t : UInt8) (b : Bytes) : Prop :=
  ∃ n r, readHeader false b = some (t, .definite n, r) ∧ r.length = n

/-! ## Where a reader stops -/

theorem readHeader_local {strict : Bool} {b r : Bytes} {t : UInt8} {l : Length}
    (h : readHeader strict b = some (t, l, r)) :
    isHighTag t = false ∧ ∃ p, b = t :: (p ++ r) ∧ 0 < p.length ∧
      ∀ r', readHeader strict (t :: (p ++ r')) = some (t, l, r') := by
  cases b with
  | nil => cases h
  | cons x xs =>
    simp only [readHeader] at h
    split at h
    · cases h
    · rename_i hx
      split at h
      · cases h
      · rename_i hl
        cases h
        obtain ⟨p, rfl, hp, hloc⟩ := readLength_local hl
        refine ⟨by simpa using hx, p, rfl, hp, fun r' => ?_⟩
        simp [readHeader, hx, hloc r']

/-- A successful read consumes a prefix `p` of at least two octets, and with fuel `p.length` it
returns the same element whatever follows `p`. -/
def ReadLocal (strict : Bool) (f : Nat) : Prop :=
  ∀ b e r, read strict f b = some (e, r) →
    ∃ p, b = p ++ r ∧ 2 ≤ p.length ∧
      ∀ f' r', p.length ≤ f' → read strict f' (p ++ r') = some (e, r')

def ReadAllLocal (strict : Bool) (f : Nat) : Prop :=
  ∀ b es, readAll strict f b = some es →
    ∀ f', b.length + 1 ≤ f' → readAll strict f' b = some es

def ReadUntilEocLocal (strict : Bool) (f : Nat) : Prop :=
  ∀ b es r, readUntilEoc strict f b = some (es, r) →
    ∃ p, b = p ++ r ∧ 2 ≤ p.length ∧
      ∀ f' r', p.length ≤ f' → readUntilEoc strict f' (p ++ r') = some (es, r')

section Local

variable {strict : Bool} {f : Nat}

theorem read_succ_local (ihA : ReadAllLocal strict f) (ihU : ReadUntilEocLocal strict f) :
    ReadLocal strict (f + 1) := by
  intro b e r h
  simp only [read] at h
  split at h
  · cases h
  · rename_i t n r0 hh
    obtain ⟨_, p, rfl, hp, hloc⟩ := readHeader_local hh
    split at h
    · cases h
    rename_i hn
    have hlen : (r0.take n).length = n := by rw [List.length_take]; omega
    have htake : ∀ r', (r0.take n ++ r').take n = r0.take n := fun r' => by
      rw [List.take_append_of_le_length hlen.ge, List.take_of_length_le hlen.le]
    have hdrop : ∀ r', (r0.take n ++ r').drop n = r' := fun r' => by
      rw [List.drop_append_of_le_length hlen.ge, List.drop_eq_nil_of_le hlen.le, List.nil_append]
    split at h
    · rename_i hc
      split at h
      · cases h
      rename_i es hes
      cases h
      refine ⟨t :: (p ++ r0.take n), by simp, by simp; omega, fun f' r' hf => ?_⟩
      obtain ⟨g, rfl⟩ : ∃ g, f' = g + 1 := ⟨f' - 1, by simp at hf; omega⟩
      have hg := ihA _ _ hes g (by simp at hf ⊢; omega)
      simp only [List.cons_append, List.append_assoc, read, hloc, htake, hdrop, hc, hg, if_true]
      rw [if_neg (by rw [List.length_append]; omega)]
    · rename_i hc
      cases h
      refine ⟨t :: (p ++ r0.take n), by simp, by simp; omega, fun f' r' hf => ?_⟩
      obtain ⟨g, rfl⟩ : ∃ g, f' = g + 1 := ⟨f' - 1, by simp at hf; omega⟩
      simp only [List.cons_append, List.append_assoc, read, hloc, htake, hdrop, hc]
      rw [if_neg (by rw [List.length_append]; omega)]
      rfl
  · rename_i t r0 hh
    obtain ⟨_, p, rfl, hp, hloc⟩ := readHeader_local hh
    split at h
    · rename_i hc
      split at h
      · cases h
      rename_i es r1 hes
      cases h
      obtain ⟨q, rfl, hq, hU⟩ := ihU _ _ _ hes
      refine ⟨t :: (p ++ q), by simp, by simp; omega, fun f' r' hf => ?_⟩
      obtain ⟨g, rfl⟩ : ∃ g, f' = g + 1 := ⟨f' - 1, by simp at hf; omega⟩
      have hg := hU g r' (by simp at hf; omega)
      simp only [List.cons_append, List.append_assoc, read, hloc, hc, hg, if_true]
    · cases h

theorem readAll_succ_local (ihR : ReadLocal strict f) (ihA : ReadAllLocal strict f) :
    ReadAllLocal strict (f + 1) := by
  intro b es h f' hf
  obtain ⟨g, rfl⟩ : ∃ g, f' = g + 1 := ⟨f' - 1, by omega⟩
  cases b with
  | nil => simpa [readAll] using h
  | cons x b =>
    simp only [readAll] at h
    split at h
    · cases h
    rename_i e r he
    split at h
    · cases h
    rename_i es' hes
    cases h
    obtain ⟨p, hb, hp, hR⟩ := ihR _ _ _ he
    have hl : (x :: b).length = p.length + r.length := by rw [hb, List.length_append]
    have h1 : read strict g (x :: b) = some (e, r) := by
      rw [hb]; exact hR g r (by omega)
    have h2 : readAll strict g r = some es' := ihA _ _ hes g (by omega)
    simp only [readAll, h1, h2]

theorem readUntilEoc_succ_local (ihR : ReadLocal strict f) (ihU : ReadUntilEocLocal strict f) :
    ReadUntilEocLocal strict (f + 1) := by
  intro b es r h
  simp only [readUntilEoc] at h
  split at h
  · rename_i hz
    cases h
    refine ⟨b.take 2, by simp, by rw [hz]; simp, fun f' r' hf => ?_⟩
    obtain ⟨g, rfl⟩ : ∃ g, f' = g + 1 := ⟨f' - 1, by rw [hz] at hf; simp at hf; omega⟩
    simp [readUntilEoc, hz]
  · rename_i hz
    split at h
    · cases h
    rename_i e r0 he
    split at h
    · cases h
    rename_i es' r1 hes
    cases h
    obtain ⟨p, rfl, hp, hR⟩ := ihR _ _ _ he
    obtain ⟨q, rfl, hq, hU⟩ := ihU _ _ _ hes
    refine ⟨p ++ q, by simp, by simp; omega, fun f' r' hf => ?_⟩
    obtain ⟨g, rfl⟩ : ∃ g, f' = g + 1 := ⟨f' - 1, by simp at hf; omega⟩
    simp only [List.length_append] at hf
    rw [List.take_append_of_le_length hp] at hz
    have h1 := hR g (q ++ r') (by omega)
    have h2 := hU g r' (by omega)
    simp only [readUntilEoc, List.append_assoc]
    rw [List.take_append_of_le_length hp, if_neg hz, h1]
    simp only [h2]

end Local

/-- The three readers go together, by induction on the fuel. -/
theorem read_local (strict : Bool) (f : Nat) :
    ReadLocal strict f ∧ ReadAllLocal strict f ∧ ReadUntilEocLocal strict f := by
  induction f with
  | zero =>
    refine ⟨fun b e r h => ?_, fun b es h => ?_, fun b es r h => ?_⟩
    · simp [read] at h
    · simp [readAll] at h
    · simp [readUntilEoc] at h
  | succ f ih =>
    obtain ⟨ihR, ihA, ihU⟩ := ih
    exact ⟨read_succ_local ihA ihU, readAll_succ_local ihR ihA, readUntilEoc_succ_local ihR ihU⟩

theorem read_spec {strict : Bool} {f : Nat} {b r : Bytes} {e : Element}
    (h : read strict f b = some (e, r)) :
    ∃ p, b = p ++ r ∧ 2 ≤ p.length ∧
      ∀ f' r', p.length ≤ f' → read strict f' (p ++ r') = some (e, r') :=
  (read_local strict f).1 b e r h

theorem readElement_spec {strict : Bool} {b r : Bytes} {e : Element}
    (h : readElement strict b = some (e, r)) :
    ∃ p, b = p ++ r ∧ 2 ≤ p.length ∧ ∀ r', readElement strict (p ++ r') = some (e, r') := by
  obtain ⟨p, hb, hp, hR⟩ := read_spec h
  exact ⟨p, hb, hp, fun r' => hR _ r' (by simp)⟩

/-- Whatever follows a complete definite-length element, a reader that succeeds stops at its end. -/
theorem IsTlv.read_append {t : UInt8} {b r s : Bytes} {e : Element} (h : IsTlv t b)
    (hr : readElement false (b ++ s) = some (e, r)) : r = s := by
  obtain ⟨n, x, hh, hn⟩ := h
  obtain ⟨_, p, rfl, hp, hloc⟩ := readHeader_local hh
  obtain ⟨f, hf⟩ : ∃ f, (t :: (p ++ x) ++ s).length = f + 1 := ⟨_, by simp; rfl⟩
  rw [readElement, hf, List.cons_append, List.append_assoc] at hr
  simp only [read, hloc] at hr
  have hd : (x ++ s).drop n = s := by rw [← hn]; simp
  split at hr
  · cases hr
  · split at hr
    · split at hr
      · cases hr
      · cases hr; exact hd
    · cases hr; exact hd

/-! ## DER: round trip and uniqueness -/

theorem encode_length_pos (e : Element) : 2 ≤ (encode e).length := by
  cases e with
  | prim t c => have := encodeLength_pos c.length; simp [encode]; omega
  | cons t es => have := encodeLength_pos (encodeAll es).length; simp [encode]; omega

theorem readHeader_encode (strict : Bool) {t : UInt8} {n : Nat} (ht : isHighTag t = false)
    (hn : n ≤ maxLen) (r : Bytes) :
    readHeader strict (t :: (encodeLength n ++ r)) = some (t, .definite n, r) := by
  simp [readHeader, ht, readLength_encodeLength strict hn r]

/-- Reading back what was written, for elements and lists of elements, by induction on the fuel. -/
theorem read_encode_aux (strict : Bool) (f : Nat) :
    (∀ e r, tagsOk e = true → (encode e).length ≤ maxLen → (encode e).length ≤ f →
      read strict f (encode e ++ r) = some (e, r)) ∧
    (∀ es, tagsOkAll es = true → (encodeAll es).length ≤ maxLen → (encodeAll es).length + 1 ≤ f →
      readAll strict f (encodeAll es) = some es) := by
  induction f with
  | zero =>
    refine ⟨fun e r _ _ hf => ?_, fun es _ _ hf => ?_⟩
    · have := encode_length_pos e; omega
    · omega
  | succ f ih =>
    obtain ⟨ihR, ihA⟩ := ih
    refine ⟨fun e r ht hm hf => ?_, fun es ht hm hf => ?_⟩
    · cases e with
      | prim t c =>
        simp only [tagsOk, Bool.and_eq_true, Bool.not_eq_true'] at ht
        simp only [encode, List.length_cons, List.length_append] at hm hf
        simp only [encode, List.cons_append, List.append_assoc, read]
        rw [readHeader_encode strict ht.1 (by omega)]
        simp [ht.2]
      | cons t es =>
        simp only [tagsOk, Bool.and_eq_true, Bool.not_eq_true'] at ht
        simp only [encode, List.length_cons, List.length_append] at hm hf
        have hpos := encodeLength_pos (encodeAll es).length
        have hall := ihA es ht.2 (by omega) (by omega)
        simp only [encode, List.cons_append, List.append_assoc, read]
        rw [readHeader_encode strict ht.1.1 (by omega)]
        simp [ht.1.2, hall]
    · cases es with
      | nil => rfl
      | cons e es =>
        simp only [tagsOkAll, Bool.and_eq_true] at ht
        simp only [encodeAll, List.length_append] at hm hf
        have hpos := encode_length_pos e
        have h1 := ihR e (encodeAll es) ht.1 (by omega) (by omega)
        have h2 := ihA es ht.2 (by omega) (by omega)
        obtain ⟨x, xs, hx⟩ : ∃ x xs, encode e ++ encodeAll es = x :: xs :=
          List.exists_cons_of_length_pos (by simp; omega)
        simp only [encodeAll, hx, readAll]
        rw [← hx, h1]
        simp only [h2]

theorem read_encode (strict : Bool) {e : Element} (h : Wf e) (r : Bytes) :
    readElement strict (encode e ++ r) = some (e, r) :=
  (read_encode_aux strict _).1 e r h.1 h.2 (by simp)

mutual

/-- A bound on the size of an encoding that leaves ten octets for each header. -/
def weight : Element → Nat
  | .prim _ c => c.length + 10
  | .cons _ es => weightAll es + 10

def weightAll : List Element → Nat
  | [] => 0
  | e :: es => weight e + weightAll es

end

theorem encodeLength_length_le {n : Nat} (h : n ≤ maxLen) : (encodeLength n).length ≤ 9 := by
  have := beBytes_length_of_le_maxLen h
  unfold encodeLength
  split
  · simp
  · rw [List.length_cons]
    omega

mutual

theorem encode_length_le : ∀ e : Element, weight e ≤ maxLen → (encode e).length ≤ weight e
  | .prim t c, h => by
    simp only [weight] at h
    have := encodeLength_length_le (n := c.length) (by omega)
    simp only [encode, weight, List.length_cons, List.length_append]
    omega
  | .cons t es, h => by
    simp only [weight] at h
    have hall := encodeAll_length_le es (by omega)
    have := encodeLength_length_le (n := (encodeAll es).length) (by omega)
    simp only [encode, weight, List.length_cons, List.length_append]
    omega

theorem encodeAll_length_le :
    ∀ es : List Element, weightAll es ≤ maxLen → (encodeAll es).length ≤ weightAll es
  | [], _ => by simp [encodeAll]
  | e :: es, h => by
    simp only [weightAll] at h
    have h1 := encode_length_le e (by omega)
    have h2 := encodeAll_length_le es (by omega)
    simp only [encodeAll, weightAll, List.length_append]
    omega

end

/-- What the strict reader takes is the DER encoding of what it returns, with well-placed tags. -/
theorem encode_of_read_aux (f : Nat) :
    (∀ b e r, read true f b = some (e, r) → b = encode e ++ r ∧ tagsOk e = true) ∧
    (∀ b es, readAll true f b = some es → b = encodeAll es ∧ tagsOkAll es = true) := by
  induction f with
  | zero =>
    refine ⟨fun b e r h => ?_, fun b es h => ?_⟩
    · simp [read] at h
    · simp [readAll] at h
  | succ f ih =>
    obtain ⟨ihR, ihA⟩ := ih
    refine ⟨fun b e r h => ?_, fun b es h => ?_⟩
    · cases b with
      | nil => simp [read, readHeader] at h
      | cons t b =>
        cases hl : readLength true b with
        | none => simp [read, readHeader, hl] at h
        | some x =>
          obtain ⟨l, r0⟩ := x
          obtain ⟨n, rfl, hn, rfl⟩ := encodeLength_of_readLength hl
          cases ht : isHighTag t with
          | true => simp [read, readHeader, ht] at h
          | false =>
            simp only [read, readHeader_encode true ht hn] at h
            split at h
            · cases h
            rename_i hlen
            have hk : (r0.take n).length = n := by rw [List.length_take]; omega
            split at h
            · rename_i hc
              split at h
              · cases h
              rename_i es hes
              cases h
              obtain ⟨henc, htag⟩ := ihA _ _ hes
              have hk' : (encodeAll es).length = n := by rw [← henc, hk]
              refine ⟨?_, by simp [tagsOk, ht, hc, htag]⟩
              rw [encode, hk', ← henc]
              simp
            · rename_i hc
              cases h
              refine ⟨?_, by simp [tagsOk, ht, hc]⟩
              rw [encode, hk]
              simp
    · cases b with
      | nil => simp only [readAll] at h; cases h; simp [encodeAll, tagsOkAll]
      | cons x b =>
        simp only [readAll] at h
        split at h
        · cases h
        rename_i e r he
        split at h
        · cases h
        rename_i es' hes
        cases h
        obtain ⟨h1, ht1⟩ := ihR _ _ _ he
        obtain ⟨h2, ht2⟩ := ihA _ _ hes
        exact ⟨by rw [encodeAll, h1, h2], by simp [tagsOkAll, ht1, ht2]⟩

theorem encode_of_read {b r : Bytes} {e : Element} (h : readElement true b = some (e, r)) :
    b = encode e ++ r ∧ tagsOk e = true :=
  (encode_of_read_aux _).1 b e r h

theorem readHeader_true_ne_indefinite {b r : Bytes} {t : UInt8} :
    readHeader true b ≠ some (t, .indefinite, r) := by
  intro h
  cases b with
  | nil => cases h
  | cons t b =>
    simp only [readHeader] at h
    split at h
    · cases h
    · split at h
      · cases h
      · rename_i hl
        cases h
        obtain ⟨n, hn, _⟩ := encodeLength_of_readLength hl
        cases hn

theorem readHeader_strict {b : Bytes} {x : UInt8 × Length × Bytes}
    (h : readHeader true b = some x) : readHeader false b = some x := by
  cases b with
  | nil => cases h
  | cons t b =>
    simp only [readHeader] at h ⊢
    split at h
    · cases h
    · rename_i ht
      split at h
      · cases h
      · rename_i hl
        rw [if_neg ht, readLength_strict hl]
        exact h

/-- What the strict reader takes, the lenient one takes the same way. -/
theorem read_strict_aux (f : Nat) :
    (∀ b x, read true f b = some x → read false f b = some x) ∧
    (∀ b es, readAll true f b = some es → readAll false f b = some es) := by
  induction f with
  | zero =>
    refine ⟨fun b x h => ?_, fun b es h => ?_⟩
    · cases h
    · cases h
  | succ f ih =>
    obtain ⟨ihR, ihA⟩ := ih
    refine ⟨fun b x h => ?_, fun b es h => ?_⟩
    · simp only [read] at h ⊢
      split at h
      · cases h
      · rename_i hh
        rw [readHeader_strict hh]
        dsimp only
        split at h
        · cases h
        rename_i hn
        rw [if_neg hn]
        split at h
        · rename_i hc
          rw [if_pos hc]
          split at h
          · cases h
          rename_i hall
          rw [ihA _ _ hall]
          exact h
        · rename_i hc
          rw [if_neg hc]
          exact h
      · rename_i hh
        exact absurd hh readHeader_true_ne_indefinite
    · cases b with
      | nil => exact h
      | cons y b =>
        simp only [readAll] at h ⊢
        split at h
        · cases h
        rename_i hread
        rw [ihR _ _ hread]
        dsimp only
        split at h
        · cases h
        rename_i hall
        rw [ihA _ _ hall]
        exact h

theorem readElement_strict {b : Bytes} {x : Element × Bytes} (h : readElement true b = some x) :
    readElement false b = some x :=
  (read_strict_aux _).1 b x h

end Ber
