import HybridPqc.Composite.SignVerify

/-!
# Composite.Message

`composite_build_message` down to its `size_t` arithmetic: what `M'` tells about the context and the
message.

`compositeBuildMessage` computes with exact numbers; `compositeBuildMessageInto` is the function as
the machine runs it, with the caller's output pointers, an allocation that may fail, and lengths and
offsets modulo 2^64. They agree (`compositeBuildMessageInto_eq`), because no length wraps
(`messageLayout_exact`).

The context has its length in front, so the boundary between it and the digest can be found again
(`messageParts_mPrime`): `M'` determines both.
-/

namespace HybridPqc

/-- The `size_t` values of `composite_build_message`; the last six are the values `offset` takes. -/
structure MessageLayout where
  prefixLen : UInt64
  labelLen : UInt64
  room : UInt64
  outputLen : UInt64
  labelAt : UInt64
  countAt : UInt64
  ctxAt : UInt64
  digestAt : UInt64
  stop : UInt64

def messageLayout (ctxLen digestLen : UInt64) : MessageLayout :=
  -- `sizeof` counts the terminating NUL
  let prefixLen := UInt64.ofNat (compositeSignaturePrefix.length + 1) - 1
  let labelLen := UInt64.ofNat (compositeSignatureLabel.length + 1) - 1
  let labelAt := 0 + prefixLen
  let countAt := labelAt + labelLen
  let ctxAt := countAt + 1
  let digestAt := if ctxLen ≠ 0 then ctxAt + ctxLen else ctxAt
  { prefixLen, labelLen,
    room := UInt64.ofNat sizeMax - prefixLen - labelLen - 1 - digestLen,
    outputLen := prefixLen + labelLen + 1 + ctxLen + digestLen,
    labelAt, countAt, ctxAt, digestAt, stop := digestAt + digestLen }

/-- The copies of `composite_build_message` into its new buffer. -/
def fillMessage (layout : MessageLayout) (ctxLen : UInt64) (ctx digest : Bytes) : Bytes :=
  let output := Bytes.zeros layout.outputLen.toNat
  let output := output.write 0 compositeSignaturePrefix
  let output := output.write layout.labelAt.toNat compositeSignatureLabel
  let output := output.write layout.countAt.toNat [ctxLen.toUInt8]
  let output := if ctxLen ≠ 0 then output.write layout.ctxAt.toNat ctx else output
  output.write layout.digestAt.toNat digest

/-- `M'` of a context and a digest. -/
def mPrime (ctx digest : Bytes) : Bytes :=
  compositeSignaturePrefix ++ compositeSignatureLabel ++ [UInt8.ofNat ctx.length] ++ ctx ++ digest

/-- The context and the digest in `M'`, found by the length octet. -/
def messageParts (m : Bytes) : Bytes × Bytes :=
  match m.drop (compositeSignaturePrefix.length + compositeSignatureLabel.length) with
  | [] => ([], [])
  | n :: rest => (rest.take n.toNat, rest.drop n.toNat)

section

variable {PKey : Type} (C : Crypto PKey)

/-- `composite_build_message`: the result and the caller's `m_prime` and `m_prime_len`; `malloc`
says whether the allocation succeeds. -/
def compositeBuildMessageInto (malloc : Bool) (message ctx : CArg) (out : SignatureOut) :
    Bool × SignatureOut :=
  if out.badNull then (false, out)
  else
    let out := out.clear
    if message.badNull ∨ ctx.badNull ∨ compositeMaxContextBytes < ctx.len then (false, out)
    else
      match C.sm3 message.bytes with
      | none => (false, out)
      | some digest =>
        if digest.length ≠ 32 then (false, out)
        else
          let ctxLen := UInt64.ofNat ctx.len
          let layout := messageLayout ctxLen (UInt64.ofNat digest.length)
          if layout.room < ctxLen then (false, out)
          else if malloc = false then (false, out)
          else
            let output := fillMessage layout ctxLen ctx.bytes digest
            if layout.stop ≠ layout.outputLen then (false, out)
            else (true, out.store output)

/-- SM3 is available and its digests have 32 bytes. -/
def Sm3Digests : Prop := ∀ m, ∃ digest, C.sm3 m = some digest ∧ digest.length = 32

/-- Two messages with one digest. -/
def Sm3Collision (x y : Bytes) : Prop := x ≠ y ∧ C.sm3 x = C.sm3 y

end

/-- The machine numbers are the exact ones: no sum reaches 2^64 and no difference falls below 0. -/
structure MessageLayout.Exact (l : MessageLayout) (ctxLen : Nat) : Prop where
  prefixLen : l.prefixLen.toNat = compositeSignaturePrefix.length
  labelLen : l.labelLen.toNat = compositeSignatureLabel.length
  room : l.room.toNat + compositeSignaturePrefix.length + compositeSignatureLabel.length + 1 + 32 =
    sizeMax
  outputLen : l.outputLen.toNat =
    compositeSignaturePrefix.length + compositeSignatureLabel.length + 1 + ctxLen + 32
  labelAt : l.labelAt.toNat = compositeSignaturePrefix.length
  countAt : l.countAt.toNat = compositeSignaturePrefix.length + compositeSignatureLabel.length
  ctxAt : l.ctxAt.toNat = compositeSignaturePrefix.length + compositeSignatureLabel.length + 1
  digestAt : l.digestAt.toNat =
    compositeSignaturePrefix.length + compositeSignatureLabel.length + 1 + ctxLen
  stop : l.stop = l.outputLen

theorem toNat_ofNat_ctxLen {n : Nat} (h : n ≤ compositeMaxContextBytes) :
    (UInt64.ofNat n).toNat = n := by
  rw [UInt64.toNat_ofNat']
  exact Nat.mod_eq_of_lt (h.trans_lt (by decide))

theorem messageLayout_exact {ctxLen : Nat} (h : ctxLen ≤ compositeMaxContextBytes) :
    (messageLayout (UInt64.ofNat ctxLen) (UInt64.ofNat 32)).Exact ctxLen := by
  have hp := compositeSignaturePrefix_length
  have hl := compositeSignatureLabel_length
  have hc := toNat_ofNat_ctxLen h
  simp only [compositeMaxContextBytes] at h
  have hat : (messageLayout (UInt64.ofNat ctxLen) (UInt64.ofNat 32)).digestAt =
      59 + UInt64.ofNat ctxLen := by
    by_cases h0 : UInt64.ofNat ctxLen = 0
    · simp [messageLayout, hp, hl, h0]
    · simp [messageLayout, hp, hl, h0]
  have hdigest : (59 + UInt64.ofNat ctxLen).toNat = 59 + ctxLen := by
    rw [UInt64.toNat_add, hc]
    exact Nat.mod_eq_of_lt (show 59 + ctxLen < 2 ^ 64 by omega)
  have hstop : (59 + UInt64.ofNat ctxLen + 32).toNat = 59 + ctxLen + 32 := by
    rw [UInt64.toNat_add, hdigest]
    exact Nat.mod_eq_of_lt (show 59 + ctxLen + 32 < 2 ^ 64 by omega)
  constructor
  · simp [messageLayout, hp]
  · simp [messageLayout, hl]
  · simp [messageLayout, hp, hl, sizeMax]
  · simpa [messageLayout, hp, hl] using hstop
  · simp [messageLayout, hp]
  · simp [messageLayout, hp, hl]
  · simp [messageLayout, hp, hl]
  · rw [hat, hdigest, hp, hl]
  · rw [show (messageLayout (UInt64.ofNat ctxLen) (UInt64.ofNat 32)).stop =
      (messageLayout (UInt64.ofNat ctxLen) (UInt64.ofNat 32)).digestAt + 32 from rfl, hat]
    simp [messageLayout, hp, hl]

/-- The buffer, filled front to back. -/
theorem fillMessage_eq {layout : MessageLayout} {ctx digest : Bytes}
    (hlayout : layout.Exact ctx.length) (hl : ctx.length ≤ compositeMaxContextBytes)
    (hdl : digest.length = 32) :
    fillMessage layout (UInt64.ofNat ctx.length) ctx digest = mPrime ctx digest := by
  have hcount : (UInt64.ofNat ctx.length).toUInt8 = UInt8.ofNat ctx.length := by simp
  have hcopy : ∀ (output : Bytes) (off : Nat), (if UInt64.ofNat ctx.length ≠ 0 then
      output.write off ctx else output) = output.write off ctx := by
    intro output off
    by_cases h0 : UInt64.ofNat ctx.length = 0
    · have hlen : ctx.length = 0 := by
        rw [← toNat_ofNat_ctxLen hl, h0]
        rfl
      rw [List.length_eq_zero_iff.mp hlen, Bytes.write_nil]
      split <;> rfl
    · rw [if_pos h0]
  simp only [fillMessage, hcopy, hcount, hlayout.outputLen, hlayout.labelAt, hlayout.countAt,
    hlayout.ctxAt, hlayout.digestAt]
  rw [Bytes.write_zeros, Bytes.write_append rfl, Bytes.write_append List.length_append.symm,
    Bytes.write_append (by rw [List.length_append, List.length_append, List.length_singleton]),
    Bytes.write_append (by
      rw [List.length_append, List.length_append, List.length_append, List.length_singleton])]
  have hrest : compositeSignaturePrefix.length + compositeSignatureLabel.length + 1 + ctx.length +
      32 - compositeSignaturePrefix.length - compositeSignatureLabel.length -
      [UInt8.ofNat ctx.length].length - ctx.length - digest.length = 0 := by
    rw [List.length_singleton]
    omega
  rw [hrest, Bytes.zeros, List.replicate_zero, List.append_nil, mPrime]

theorem mPrime_length (ctx digest : Bytes) :
    (mPrime ctx digest).length = 59 + ctx.length + digest.length := by
  simp only [mPrime, List.length_append, compositeSignaturePrefix_length,
    compositeSignatureLabel_length, List.length_singleton]

/-- The length octet does not truncate, so the parts are found again. -/
theorem messageParts_mPrime {ctx : Bytes} (h : ctx.length ≤ compositeMaxContextBytes)
    (digest : Bytes) : messageParts (mPrime ctx digest) = (ctx, digest) := by
  have hn : (UInt8.ofNat ctx.length).toNat = ctx.length := by
    rw [UInt8.toNat_ofNat']
    exact Nat.mod_eq_of_lt (Nat.lt_succ_of_le h)
  have hdrop : (mPrime ctx digest).drop
      (compositeSignaturePrefix.length + compositeSignatureLabel.length) =
      UInt8.ofNat ctx.length :: (ctx ++ digest) := by
    have hhead : (compositeSignaturePrefix ++ compositeSignatureLabel).length =
        compositeSignaturePrefix.length + compositeSignatureLabel.length := List.length_append
    rw [mPrime, ← hhead, List.append_assoc, List.append_assoc, List.drop_left]
    rfl
  simp only [messageParts, hdrop, hn, List.take_left, List.drop_left]

theorem mPrime_inj {c d c' d' : Bytes} (hc : c.length ≤ compositeMaxContextBytes)
    (hc' : c'.length ≤ compositeMaxContextBytes) : mPrime c d = mPrime c' d' ↔ c = c' ∧ d = d' := by
  constructor
  · intro h
    have hparts := messageParts_mPrime hc d
    rw [h, messageParts_mPrime hc' d'] at hparts
    cases hparts
    exact ⟨rfl, rfl⟩
  · rintro ⟨rfl, rfl⟩
    rfl

section

variable {PKey : Type} {C : Crypto PKey} {message ctx : CArg}

theorem compositeBuildMessage_mPrime {m : Bytes} :
    compositeBuildMessage C message ctx = some m ↔
      message.badNull = false ∧ ctx.badNull = false ∧ ctx.bytes.length ≤ compositeMaxContextBytes ∧
      ∃ digest, C.sm3 message.bytes = some digest ∧ digest.length = 32 ∧
        m = mPrime ctx.bytes digest := by
  constructor
  · intro h
    obtain ⟨hm, hc, hl, digest, hd, hdl, rfl⟩ := compositeBuildMessage_some_iff.mp h
    have hcl := CArg.length_bytes hc
    refine ⟨hm, hc, hcl.trans_le hl, digest, hd, hdl, ?_⟩
    rw [mPrime, hcl]
  · rintro ⟨hm, hc, hl, digest, hd, hdl, rfl⟩
    have hcl := CArg.length_bytes hc
    refine compositeBuildMessage_some_iff.mpr ⟨hm, hc, hcl.symm.trans_le hl, digest, hd, hdl, ?_⟩
    rw [mPrime, hcl]

/-- The machine computes what the exact arithmetic does. -/
theorem compositeBuildMessageInto_eq {out : SignatureOut} (hout : out.badNull = false)
    (malloc : Bool) :
    compositeBuildMessageInto C malloc message ctx out =
      match (if malloc then compositeBuildMessage C message ctx else none) with
      | none => (false, ⟨some none, some 0⟩)
      | some m => (true, ⟨some (some m), some m.length⟩) := by
  obtain ⟨hclear, hstore⟩ := SignatureOut.badNull_eq_false hout
  by_cases hargs : message.badNull ∨ ctx.badNull ∨ compositeMaxContextBytes < ctx.len
  · have hnone : compositeBuildMessage C message ctx = none := by
      simp only [compositeBuildMessage, if_pos hargs]
    simp [compositeBuildMessageInto, hout, hargs, hnone, hclear]
  cases hd : C.sm3 message.bytes with
  | none =>
    have hnone : compositeBuildMessage C message ctx = none := by
      simp only [compositeBuildMessage, if_neg hargs, hd]
    simp [compositeBuildMessageInto, hout, hargs, hd, hnone, hclear]
  | some digest =>
    by_cases hdl : digest.length = 32
    · simp only [not_or, Bool.not_eq_true, Nat.not_lt] at hargs
      obtain ⟨hm, hc, hl⟩ := hargs
      have hcl := CArg.length_bytes hc
      have hsome := compositeBuildMessage_mPrime.mpr ⟨hm, hc, hcl.trans_le hl, digest, hd, hdl, rfl⟩
      have hlayout := messageLayout_exact hl
      have hroom : ¬ (messageLayout (UInt64.ofNat ctx.len) (UInt64.ofNat 32)).room <
          UInt64.ofNat ctx.len := by
        have hr := hlayout.room
        rw [UInt64.lt_iff_toNat_lt, toNat_ofNat_ctxLen hl]
        rw [compositeSignaturePrefix_length, compositeSignatureLabel_length, sizeMax] at hr
        simp only [compositeMaxContextBytes] at hl
        omega
      have hfill : fillMessage (messageLayout (UInt64.ofNat ctx.len) (UInt64.ofNat 32))
          (UInt64.ofNat ctx.len) ctx.bytes digest = mPrime ctx.bytes digest := by
        rw [← hcl] at hlayout hl ⊢
        exact fillMessage_eq hlayout hl hdl
      have hargs : ¬ (message.badNull = true ∨ ctx.badNull = true ∨
          compositeMaxContextBytes < ctx.len) := by
        simp [hm, hc, hl]
      simp only [compositeBuildMessageInto, hout, hargs, hd, hdl, hfill, hroom, hlayout.stop, hsome]
      cases malloc with
      | false => simp [hclear]
      | true => simp [hstore]
    · have hnone : compositeBuildMessage C message ctx = none := by
        simp only [compositeBuildMessage, if_neg hargs, hd, ne_eq, hdl, not_false_eq_true, if_true]
      simp [compositeBuildMessageInto, hout, hargs, hd, hdl, hnone, hclear]

theorem compositeBuildMessageInto_true {out o : SignatureOut} {malloc : Bool}
    (h : compositeBuildMessageInto C malloc message ctx out = (true, o)) :
    ∃ m, compositeBuildMessage C message ctx = some m ∧ o = ⟨some (some m), some m.length⟩ := by
  by_cases hout : out.badNull = true
  · rw [compositeBuildMessageInto, if_pos hout] at h
    cases h
  · rw [compositeBuildMessageInto_eq (by simpa using hout)] at h
    cases malloc with
    | false => cases h
    | true =>
      cases hm : compositeBuildMessage C message ctx with
      | none =>
        rw [if_pos rfl, hm] at h
        cases h
      | some m =>
        rw [if_pos rfl, hm] at h
        cases h
        exact ⟨m, rfl, rfl⟩

theorem compositeBuildMessageInto_rejects {out : SignatureOut} (hout : out.badNull = false)
    (malloc : Bool) (h : message.badNull = true ∨ ctx.badNull = true ∨
      compositeMaxContextBytes < ctx.len) :
    compositeBuildMessageInto C malloc message ctx out = (false, ⟨some none, some 0⟩) := by
  rw [compositeBuildMessageInto, if_neg (by simp [hout]), if_pos h,
    (SignatureOut.badNull_eq_false hout).1]

/-- One string for two pairs means one context and one digest. -/
theorem compositeBuildMessage_inj {m₁ c₁ m₂ c₂ : CArg} {x₁ x₂ : Bytes}
    (h₁ : compositeBuildMessage C m₁ c₁ = some x₁) (h₂ : compositeBuildMessage C m₂ c₂ = some x₂) :
    x₁ = x₂ ↔ c₁.bytes = c₂.bytes ∧ C.sm3 m₁.bytes = C.sm3 m₂.bytes := by
  obtain ⟨_, _, hl₁, d₁, hd₁, _, rfl⟩ := compositeBuildMessage_mPrime.mp h₁
  obtain ⟨_, _, hl₂, d₂, hd₂, _, rfl⟩ := compositeBuildMessage_mPrime.mp h₂
  rw [mPrime_inj hl₁ hl₂, hd₁, hd₂, Option.some.injEq]

/-- The other pairs that `M'` could be of. -/
theorem compositeBuildMessage_eq_iff {m₁ c₁ m₂ c₂ : CArg} {x : Bytes}
    (h : compositeBuildMessage C m₁ c₁ = some x) (hno : ¬ Sm3Collision C m₁.bytes m₂.bytes) :
    compositeBuildMessage C m₂ c₂ = some x ↔
      m₂.badNull = false ∧ c₂.badNull = false ∧ m₂.bytes = m₁.bytes ∧ c₂.bytes = c₁.bytes := by
  constructor
  · intro h₂
    obtain ⟨hm, hc, _⟩ := compositeBuildMessage_mPrime.mp h₂
    obtain ⟨hctx, hsm3⟩ := (compositeBuildMessage_inj h h₂).mp rfl
    refine ⟨hm, hc, ?_, hctx.symm⟩
    by_contra hne
    exact hno ⟨Ne.symm hne, hsm3⟩
  · rintro ⟨hm, hc, hbytes, hctx⟩
    obtain ⟨_, _, hl, digest, hd, hdl, rfl⟩ := compositeBuildMessage_mPrime.mp h
    rw [← hctx] at hl ⊢
    exact compositeBuildMessage_mPrime.mpr ⟨hm, hc, hl, digest, by rw [hbytes]; exact hd, hdl, rfl⟩

end

/-- **The message both components sign.** It is built for every context of at most 255 bytes, has
91 bytes beside the context, gives the context and the digest back, and is the same for two pairs
only when contexts and digests are; bad arguments leave `NULL` and 0; and short of a collision of
SM3, a signature is checked over one message and context only. Nothing wraps on the way. -/
theorem composite_message_unambiguous {PKey : Type} {C : Crypto PKey} (hsm3 : Sm3Digests C) :
    (∀ message ctx out, message.badNull = false → ctx.badNull = false →
      ctx.len ≤ compositeMaxContextBytes → out.badNull = false →
      ∃ m digest, compositeBuildMessageInto C true message ctx out =
          (true, ⟨some (some m), some m.length⟩) ∧
        m.length = 91 + ctx.len ∧ C.sm3 message.bytes = some digest ∧
        messageParts m = (ctx.bytes, digest)) ∧
    (∀ m₁ c₁ m₂ c₂ a₁ a₂ out₁ out₂ o₁ o₂,
      compositeBuildMessageInto C a₁ m₁ c₁ out₁ = (true, o₁) →
      compositeBuildMessageInto C a₂ m₂ c₂ out₂ = (true, o₂) →
      (o₁ = o₂ ↔ c₁.bytes = c₂.bytes ∧ C.sm3 m₁.bytes = C.sm3 m₂.bytes)) ∧
    (∀ malloc message ctx out, out.badNull = false →
      (message.badNull = true ∨ ctx.badNull = true ∨ compositeMaxContextBytes < ctx.len) →
      compositeBuildMessageInto C malloc message ctx out = (false, ⟨some none, some 0⟩)) ∧
    (∀ key m₁ c₁ m₂ c₂ signature, ¬ Sm3Collision C m₁.bytes m₂.bytes →
      compositeVerify C key m₁ c₁ signature = true →
      ∃ sm2 d s x, key.sm2PublicKey = some sm2 ∧
        compositeParseSignature C signature = some (d, s) ∧
        dilithiumVerify C key.dilithiumPublicKey x d = true ∧ hybridSm2Verify C sm2 x s = true ∧
        compositeBuildMessage C m₁ c₁ = some x ∧
        (compositeBuildMessage C m₂ c₂ = some x ↔
          m₂.badNull = false ∧ c₂.badNull = false ∧ m₂.bytes = m₁.bytes ∧
            c₂.bytes = c₁.bytes)) ∧
    (∀ ctxLen, ctxLen ≤ compositeMaxContextBytes →
      (messageLayout (UInt64.ofNat ctxLen) (UInt64.ofNat 32)).Exact ctxLen) := by
  refine ⟨?_, ?_, fun malloc _ _ _ hout => compositeBuildMessageInto_rejects hout malloc, ?_,
    fun _ => messageLayout_exact⟩
  · intro message ctx out hm hc hl hout
    obtain ⟨digest, hd, hdl⟩ := hsm3 message.bytes
    have hcl := CArg.length_bytes hc
    have hbuild := compositeBuildMessage_mPrime.mpr ⟨hm, hc, hcl.trans_le hl, digest, hd, hdl, rfl⟩
    refine ⟨mPrime ctx.bytes digest, digest, ?_, ?_, hd, messageParts_mPrime (hcl.trans_le hl) _⟩
    · rw [compositeBuildMessageInto_eq hout, if_pos rfl, hbuild]
    · rw [mPrime_length, hcl, hdl]
      omega
  · intro m₁ c₁ m₂ c₂ a₁ a₂ out₁ out₂ o₁ o₂ h₁ h₂
    obtain ⟨x₁, hx₁, rfl⟩ := compositeBuildMessageInto_true h₁
    obtain ⟨x₂, hx₂, rfl⟩ := compositeBuildMessageInto_true h₂
    rw [← compositeBuildMessage_inj hx₁ hx₂]
    constructor
    · intro h
      cases h
      rfl
    · intro h
      rw [h]
  · intro key m₁ c₁ m₂ c₂ signature hno h
    obtain ⟨sm2, d, s, x, hk, hp, _, hx, hd, hs⟩ := compositeVerify_iff.mp h
    exact ⟨sm2, d, s, x, hk, hp, hd, hs, hx, compositeBuildMessage_eq_iff hx hno⟩

/-- The message `abc` under the context `01 02 03`. -/
theorem composite_message_unambiguous_abc :
    ∃ m digest, compositeBuildMessageInto Toy.crypto true (.buf [0x61, 0x62, 0x63])
        (.buf [0x01, 0x02, 0x03]) ⟨some none, some 7⟩ = (true, ⟨some (some m), some m.length⟩) ∧
      m.length = 91 + 3 ∧ Toy.crypto.sm3 [0x61, 0x62, 0x63] = some digest ∧
      messageParts m = ([0x01, 0x02, 0x03], digest) :=
  (composite_message_unambiguous fun m => ⟨_, rfl, Toy.digest_length m⟩).1 _ _ _ rfl rfl
    (by decide) rfl

end HybridPqc
