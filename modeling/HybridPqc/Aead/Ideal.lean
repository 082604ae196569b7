import Mathlib.Data.Set.Basic

/-!
# Aead.Ideal

Ideal authenticated encryption: decryption knows the encryptions that were made and nothing else.

`Run` is one encryption with what went in and came out. `Ideal.dec_iff`: decryption gives a
plaintext exactly when that encryption was made.
-/

namespace Aead

structure Run (Key Iv Ad Pt Ct Tag : Type) where
  key : Key
  iv : Iv
  ad : Ad
  plaintext : Pt
  ciphertext : Ct
  tag : Tag

variable {Key Iv Ad Pt Ct Tag : Type}

/-- `made` are the encryptions that took place under any key. -/
structure Ideal (dec : Key → Iv → Ad → Ct → Tag → Option Pt)
    (made : Set (Run Key Iv Ad Pt Ct Tag)) : Prop where
  decrypts : ∀ {r}, r ∈ made → dec r.key r.iv r.ad r.ciphertext r.tag = some r.plaintext
  /-- Key, IV, associated data, ciphertext and tag were together in one encryption. -/
  authentic : ∀ {key iv ad ct tag pt}, dec key iv ad ct tag = some pt →
    ∃ r ∈ made, r.key = key ∧ r.iv = iv ∧ r.ad = ad ∧ r.ciphertext = ct ∧ r.tag = tag

namespace Ideal

variable {dec : Key → Iv → Ad → Ct → Tag → Option Pt} {made : Set (Run Key Iv Ad Pt Ct Tag)}

theorem dec_iff (h : Ideal dec made) {key : Key} {iv : Iv} {ad : Ad} {ct : Ct} {tag : Tag}
    {pt : Pt} :
    dec key iv ad ct tag = some pt ↔ ⟨key, iv, ad, pt, ct, tag⟩ ∈ made := by
  constructor
  · intro hdec
    obtain ⟨r, hr, rfl, rfl, rfl, rfl, rfl⟩ := h.authentic hdec
    have hpt := h.decrypts hr
    rw [hdec] at hpt
    cases hpt
    exact hr
  · intro hr
    exact h.decrypts hr

end Ideal

end Aead
