import HybridPqc.Conc.Prog

/-!
# Conc.Crash

A program that is cut off.

* `Cut sem p s s'`: `p` started in `s` and nothing more of it runs after `s'`.
* `Guarded sem I Q p s`: `I` holds after every operation of `p`, and `Q` when it returns. It is the
  triple of a thread alone whose guarantee is `I`, so the rules of `Valid` apply to it.
* `Guarded.cut`: what a cut leaves behind satisfies `I`.
* `Only P p`: the operations of `p` are in `P`, whatever they answer.
-/

namespace Conc

variable {S : Sig} {σ α β : Type} {sem : Sem S σ}

inductive Cut (sem : Sem S σ) : Prog S α → σ → σ → Prop where
  | here {p : Prog S α} {s : σ} : Cut sem p s s
  | call {op : S.Op} {k : S.Resp op → Prog S α} {s s' s'' : σ} {r : S.Resp op} :
      sem op s r s' → Cut sem (k r) s' s'' → Cut sem (.call op k) s s''

/-- The first part of a sequence has run, the second is cut off. -/
theorem Cut.bind {p : Prog S α} {f : α → Prog S β} {s s' s'' : σ} {a : α} (h : Run sem p s a s')
    (hc : Cut sem (f a) s' s'') : Cut sem (p >>= f) s s'' := by
  induction h with
  | ret => exact hc
  | call hs _ ih => exact .call hs (ih hc)

/-- Nothing is left to cut off. -/
theorem Cut.of_run {p : Prog S α} {s s' : σ} {a : α} (h : Run sem p s a s') : Cut sem p s s' := by
  induction h with
  | ret => exact .here
  | call hs _ ih => exact .call hs ih

/-- The first part of a sequence is cut off. -/
theorem Cut.bind_left {p : Prog S α} (f : α → Prog S β) {s s' : σ} (h : Cut sem p s s') :
    Cut sem (p >>= f) s s' := by
  induction h with
  | here => exact .here
  | call hs _ ih => exact .call hs ih

def Guarded (sem : Sem S σ) (I : σ → Prop) (Q : α → σ → Prop) (p : Prog S α) (s : σ) : Prop :=
  Valid sem (· = ·) (fun _ s' => I s') Q p s

namespace Guarded

variable {I : σ → Prop} {Q Q' : α → σ → Prop}

theorem ret {a : α} {s : σ} (h : Q a s) : Guarded sem I Q (.ret a) s := by
  rintro _ rfl
  exact h

theorem call {op : S.Op} {k : S.Resp op → Prog S α} {s : σ}
    (h : ∀ r s', sem op s r s' → I s' ∧ Guarded sem I Q (k r) s') :
    Guarded sem I Q (.call op k) s := by
  rintro _ rfl
  exact h

theorem mono {p : Prog S α} {s : σ} (h : Guarded sem I Q p s) (hQ : ∀ a s, Q a s → Q' a s) :
    Guarded sem I Q' p s :=
  Valid.mono h (fun _ _ => id) hQ

theorem bind {Q' : β → σ → Prop} {f : α → Prog S β} {p : Prog S α} {s : σ}
    (h : Guarded sem I Q p s) (hf : ∀ a s', Q a s' → Guarded sem I Q' (f a) s') :
    Guarded sem I Q' (p >>= f) s :=
  Valid.bind (fun _ => rfl) (Valid.mono h (fun _ _ => id) hf)

/-- What a cut leaves behind. -/
theorem cut {p : Prog S α} {s s' : σ} (h : Guarded sem I Q p s) (hs : I s)
    (hc : Cut sem p s s') : I s' := by
  induction hc with
  | here => exact hs
  | call hop _ ih =>
    obtain ⟨hi, hk⟩ := h _ rfl _ _ hop
    exact ih hk hi

/-- What every run ends with holds of the return as well. -/
theorem and_run {p : Prog S α} {s : σ} (h : Guarded sem I Q p s)
    (hr : ∀ a s', Run sem p s a s' → Q' a s') :
    Guarded sem I (fun a s => Q a s ∧ Q' a s) p s := by
  induction p generalizing s with
  | ret a => exact ret ⟨h _ rfl, hr _ _ .ret⟩
  | call op k ih =>
    refine call fun r s' hop => ?_
    obtain ⟨hi, hk⟩ := h _ rfl _ _ hop
    exact ⟨hi, ih r hk fun a t ht => hr a t (.call hop ht)⟩

end Guarded

def Only (P : S.Op → Prop) : Prog S α → Prop
  | .ret _ => True
  | .call op k => P op ∧ ∀ r, Only P (k r)

theorem Only.bind {P : S.Op → Prop} {p : Prog S α} {f : α → Prog S β} (h : Only P p)
    (hf : ∀ a, Only P (f a)) : Only P (p >>= f) := by
  induction p with
  | ret a => exact hf a
  | call op k ih => exact ⟨h.1, fun r => ih r (h.2 r)⟩

/-- An invariant of the operations of a program. -/
theorem Only.guarded {P : S.Op → Prop} {J I : σ → Prop} {p : Prog S α} {s : σ} (h : Only P p)
    (hstep : ∀ op s r s', P op → sem op s r s' → J s → J s') (hI : ∀ s, J s → I s) (hs : J s) :
    Guarded sem I (fun _ s => J s) p s := by
  induction p generalizing s with
  | ret a => exact .ret hs
  | call op k ih =>
    refine .call fun r s' hop => ?_
    have hs' := hstep op s r s' h.1 hop hs
    exact ⟨hI s' hs', ih r (h.2 r) hs'⟩

end Conc
