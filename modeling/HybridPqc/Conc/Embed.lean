import HybridPqc.Conc.Prog

/-!
# Conc.Embed

A program on one component of a larger state.

`Prog.embed` renames the operations. Where the renamed operations act on a component `get s` and
leave the rest of `s` alone, the embedded program runs on the component (`run_embed`).
-/

namespace Conc

variable {S S' : Sig} {σ τ α : Type}

def Prog.embed (f : S.Op → S'.Op) (back : ∀ op, S'.Resp (f op) → S.Resp op) :
    Prog S α → Prog S' α
  | .ret a => .ret a
  | .call op k => .call (f op) fun r => (k (back op r)).embed f back

/-- A component of a state. -/
structure Lens (σ τ : Type) where
  get : σ → τ
  set : σ → τ → σ
  get_set : ∀ s t, get (set s t) = t
  set_get : ∀ s, set s (get s) = s
  set_set : ∀ s t t', set (set s t) t' = set s t'

variable {sem : Sem S τ} {sem' : Sem S' σ}

theorem run_embed (f : S.Op → S'.Op) (back : ∀ op, S'.Resp (f op) → S.Resp op) (L : Lens σ τ)
    (hsem : ∀ op s r s', sem' (f op) s r s' ↔
      ∃ t', sem op (L.get s) (back op r) t' ∧ s' = L.set s t')
    (hback : ∀ op r, ∃ r', back op r' = r) {p : Prog S α} {s s' : σ} {a : α} :
    Run sem' (p.embed f back) s a s' ↔ ∃ t', Run sem p (L.get s) a t' ∧ s' = L.set s t' := by
  induction p generalizing s with
  | ret b =>
    constructor
    · intro h
      cases h
      exact ⟨L.get _, .ret, (L.set_get _).symm⟩
    · rintro ⟨t', h, rfl⟩
      cases h
      rw [L.set_get]
      exact .ret
  | call op k ih =>
    simp only [Prog.embed, run_call, hsem, ih]
    constructor
    · rintro ⟨r, _, ⟨t, hop, rfl⟩, t', hk, rfl⟩
      rw [L.get_set] at hk
      exact ⟨t', ⟨_, t, hop, hk⟩, L.set_set s t t'⟩
    · rintro ⟨t', ⟨r, t, hop, hk⟩, rfl⟩
      obtain ⟨r', rfl⟩ := hback op r
      refine ⟨r', _, ⟨t, hop, rfl⟩, t', ?_, (L.set_set s t t').symm⟩
      rw [L.get_set]
      exact hk

end Conc
