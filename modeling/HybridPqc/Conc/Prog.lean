import Mathlib.Logic.Function.Basic
import Mathlib.Logic.Relation

/-!
# Conc.Prog

Programs that call atomic operations on a shared state, alone and in parallel.

A `Prog` is a tree of operations and what follows each response. What an operation may do is a
relation, so failures and the environment's choices are nondeterminism of that relation.

* `Run`: a program alone, from call to return.
* `Step`: one operation of one of a family of threads; `Reachable` is any interleaving.
* `Valid`: a thread's rely-guarantee triple. `R` bounds what the others do between two of its
  operations, `G` what it does itself, `Q` holds of its result from the moment it returns.
* `parallel_valid`: threads whose guarantees are within the others' relies stay valid in every
  interleaving.
-/

namespace Conc

/-- Operations and the type of each one's response. -/
structure Sig where
  Op : Type
  Resp : Op → Type

inductive Prog (S : Sig) (α : Type) where
  | ret (a : α)
  | call (op : S.Op) (k : S.Resp op → Prog S α)

namespace Prog

variable {S : Sig} {α β : Type}

def bind : Prog S α → (α → Prog S β) → Prog S β
  | .ret a, f => f a
  | .call op k, f => .call op fun r => (k r).bind f

instance : Monad (Prog S) where
  pure := .ret
  bind := bind

/-- One operation. -/
def perform (op : S.Op) : Prog S (S.Resp op) := .call op .ret

@[simp] theorem bind_ret (p : Prog S α) : (p >>= Prog.ret) = p := by
  induction p with
  | ret a => rfl
  | call op k ih => exact congrArg (Prog.call op) (funext ih)

@[simp] theorem pure_eq (a : α) : (pure a : Prog S α) = .ret a := rfl
@[simp] theorem ret_bind (a : α) (f : α → Prog S β) : (Prog.ret a >>= f) = f a := rfl
@[simp] theorem call_bind (op : S.Op) (k : S.Resp op → Prog S α) (f : α → Prog S β) :
    (Prog.call op k >>= f) = .call op fun r => k r >>= f := rfl

end Prog

/-- What an operation may answer and do. -/
abbrev Sem (S : Sig) (σ : Type) := (op : S.Op) → σ → S.Resp op → σ → Prop

section

variable {S : Sig} {σ α β : Type} {sem : Sem S σ}

/-! ## One program alone -/

inductive Run (sem : Sem S σ) : Prog S α → σ → α → σ → Prop where
  | ret {a : α} {s : σ} : Run sem (.ret a) s a s
  | call {op : S.Op} {k : S.Resp op → Prog S α} {s s' s'' : σ} {r : S.Resp op} {a : α} :
      sem op s r s' → Run sem (k r) s' a s'' → Run sem (.call op k) s a s''

/-- A run under a narrower semantics is one under a wider. -/
theorem Run.mono {sem' : Sem S σ} (h : ∀ op s r s', sem op s r s' → sem' op s r s')
    {p : Prog S α} {s s' : σ} {a : α} (hr : Run sem p s a s') : Run sem' p s a s' := by
  induction hr with
  | ret => exact .ret
  | call hs _ ih => exact .call (h _ _ _ _ hs) ih

theorem run_call {op : S.Op} {k : S.Resp op → Prog S α} {s s'' : σ} {a : α} :
    Run sem (.call op k) s a s'' ↔ ∃ r s', sem op s r s' ∧ Run sem (k r) s' a s'' := by
  constructor
  · intro h
    cases h with
    | call hs hr => exact ⟨_, _, hs, hr⟩
  · rintro ⟨r, s', hs, hr⟩; exact .call hs hr

/-- A run of a sequence is a run of its first part and then of the second. -/
theorem run_bind {p : Prog S α} {f : α → Prog S β} {s s'' : σ} {b : β} :
    Run sem (p >>= f) s b s'' ↔ ∃ a s', Run sem p s a s' ∧ Run sem (f a) s' b s'' := by
  induction p generalizing s with
  | ret a =>
    constructor
    · intro h; exact ⟨a, s, .ret, h⟩
    · rintro ⟨a', s', h, hf⟩; cases h; exact hf
  | call op k ih =>
    simp only [Prog.call_bind, run_call, ih]
    constructor
    · rintro ⟨r, t, hs, a, s', hk, hf⟩; exact ⟨a, s', ⟨r, t, hs, hk⟩, hf⟩
    · rintro ⟨a, s', ⟨r, t, hs, hk⟩, hf⟩; exact ⟨r, t, hs, a, s', hk, hf⟩

/-! ## Rely-guarantee triples -/

/-- From `s` the thread keeps to `G` and returns with `Q`, whatever the others do within `R`
before, between and after its operations. -/
def Valid (sem : Sem S σ) (R G : σ → σ → Prop) (Q : α → σ → Prop) : Prog S α → σ → Prop
  | .ret a, s => ∀ s', R s s' → Q a s'
  | .call op k, s => ∀ s', R s s' → ∀ r s'', sem op s' r s'' →
      G s' s'' ∧ Valid sem R G Q (k r) s''

variable {R G : σ → σ → Prop} {Q : α → σ → Prop}

theorem Valid.ret {a : α} {s : σ} (h : ∀ s', R s s' → Q a s') : Valid sem R G Q (.ret a) s := h

/-- What the others do within the rely does not invalidate a triple. -/
theorem Valid.rely (hR : ∀ {a b c}, R a b → R b c → R a c) {p : Prog S α} {s s' : σ}
    (h : Valid sem R G Q p s) (hs : R s s') : Valid sem R G Q p s' := by
  cases p with
  | ret a => exact fun t ht => h t (hR hs ht)
  | call op k => exact fun t ht => h t (hR hs ht)

/-- The sequencing rule. -/
theorem Valid.bind (hR : ∀ s, R s s) {Q' : β → σ → Prop} {f : α → Prog S β} {p : Prog S α} {s : σ}
    (h : Valid sem R G (fun a s => Valid sem R G Q' (f a) s) p s) :
    Valid sem R G Q' (p >>= f) s := by
  induction p generalizing s with
  | ret a => exact h s (hR s)
  | call op k ih =>
    intro t ht r t' hs
    obtain ⟨hg, hk⟩ := h t ht r t' hs
    exact ⟨hg, ih r hk⟩

theorem Valid.mono {G' : σ → σ → Prop} {Q' : α → σ → Prop} {p : Prog S α} {s : σ}
    (h : Valid sem R G Q p s) (hG : ∀ s s', G s s' → G' s s') (hQ : ∀ a s, Q a s → Q' a s) :
    Valid sem R G' Q' p s := by
  induction p generalizing s with
  | ret a => exact fun t ht => hQ a t (h t ht)
  | call op k ih =>
    intro t ht r t' hs
    obtain ⟨hg, hk⟩ := h t ht r t' hs
    exact ⟨hG _ _ hg, ih r hk⟩

/-- The frame rule: what neither the thread nor the others break still holds at the end. -/
theorem Valid.frame {F : σ → Prop} {p : Prog S α} {s : σ} (h : Valid sem R G Q p s)
    (hFR : ∀ s s', R s s' → F s → F s') (hFG : ∀ s s', G s s' → F s → F s') (hF : F s) :
    Valid sem R G (fun a s => Q a s ∧ F s) p s := by
  induction p generalizing s with
  | ret a => exact fun t ht => ⟨h t ht, hFR _ _ ht hF⟩
  | call op k ih =>
    intro t ht r t' hs
    obtain ⟨hg, hk⟩ := h t ht r t' hs
    exact ⟨hg, ih r hk (hFG _ _ hg (hFR _ _ ht hF))⟩

/-- A thread that runs alone returns with its postcondition. -/
theorem Valid.run (hR : ∀ s, R s s) {p : Prog S α} {s s' : σ} {a : α} (h : Valid sem R G Q p s)
    (hr : Run sem p s a s') : Q a s' := by
  induction hr with
  | ret => exact h _ (hR _)
  | call hs _ ih => exact ih (h _ (hR _) _ _ hs).2

end

/-! ## Threads -/

section

variable {S : Sig} {ι σ α : Type} [DecidableEq ι]

/-- A shared state and what each thread still has to do. -/
structure Config (S : Sig) (ι σ α : Type) where
  state : σ
  threads : ι → Prog S α

variable (sem : ι → Sem S σ)

/-- Some thread performs its next operation. -/
inductive Step : Config S ι σ α → Config S ι σ α → Prop where
  | mk {c : Config S ι σ α} {i : ι} {op : S.Op} {k : S.Resp op → Prog S α} {r : S.Resp op}
      {s' : σ} : c.threads i = .call op k → sem i op c.state r s' →
      Step c ⟨s', Function.update c.threads i (k r)⟩

def Reachable : Config S ι σ α → Config S ι σ α → Prop := Relation.ReflTransGen (Step sem)

variable {sem} {R G : ι → σ → σ → Prop} {Q : ι → α → σ → Prop}

/-- A thread may run alone for a while. -/
theorem reachable_of_run {c : Config S ι σ α} {i : ι} {β : Type} {p : Prog S β}
    {f : β → Prog S α} {b : β} {s' : σ} (hp : c.threads i = p >>= f)
    (hr : Run (sem i) p c.state b s') :
    Reachable sem c ⟨s', Function.update c.threads i (f b)⟩ := by
  obtain ⟨s, threads⟩ := c
  dsimp only at hp hr ⊢
  induction hr generalizing threads with
  | @ret a s =>
    have hf : Function.update threads i (f a) = threads := by
      rw [← Prog.ret_bind a f, ← hp, Function.update_eq_self]
    rw [hf]
    exact .refl
  | call hs _ ih =>
    have hstep : Step sem ⟨_, threads⟩ _ := .mk hp hs
    have hrest := ih (Function.update threads i _) (Function.update_self ..)
    rw [Function.update_idem] at hrest
    exact .head hstep hrest

/-- A thread may run alone to its end. -/
theorem reachable_of_run_ret {c : Config S ι σ α} {i : ι} {a : α} {s' : σ}
    (hr : Run (sem i) (c.threads i) c.state a s') :
    Reachable sem c ⟨s', Function.update c.threads i (.ret a)⟩ :=
  reachable_of_run (f := Prog.ret) (Prog.bind_ret _).symm hr

/-- An interleaving under a narrower semantics is one under a wider. -/
theorem Reachable.mono {sem' : ι → Sem S σ}
    (h : ∀ i op s r s', sem i op s r s' → sem' i op s r s') {c c' : Config S ι σ α}
    (hr : Reachable sem c c') : Reachable sem' c c' := by
  induction hr with
  | refl => exact .refl
  | tail _ hs ih =>
    obtain ⟨ht, hs⟩ := hs
    exact .tail ih (.mk ht (h _ _ _ _ _ hs))

theorem step_valid (hGR : ∀ i j, i ≠ j → ∀ s s', G i s s' → R j s s')
    (hR : ∀ i s, R i s s) (htrans : ∀ i {a b c}, R i a b → R i b c → R i a c)
    {c c' : Config S ι σ α} (hstep : Step sem c c')
    (h : ∀ i, Valid (sem i) (R i) (G i) (Q i) (c.threads i) c.state) :
    ∀ i, Valid (sem i) (R i) (G i) (Q i) (c'.threads i) c'.state := by
  cases hstep with
  | @mk i op k r s' ht hs =>
    have hi := h i
    rw [ht] at hi
    obtain ⟨hg, hk⟩ := hi c.state (hR i _) r s' hs
    intro j
    by_cases hj : j = i
    · subst hj
      simpa using hk
    · have hrely : R j c.state s' := hGR i j (Ne.symm hj) _ _ hg
      simpa only [Function.update_of_ne hj] using
        Valid.rely (R := R j) (htrans j) (h j) hrely

/-- Threads whose guarantees are within the others' relies stay valid in every interleaving. -/
theorem parallel_valid (hGR : ∀ i j, i ≠ j → ∀ s s', G i s s' → R j s s')
    (hR : ∀ i s, R i s s) (htrans : ∀ i {a b c}, R i a b → R i b c → R i a c)
    {c c' : Config S ι σ α} (hreach : Reachable sem c c')
    (h : ∀ i, Valid (sem i) (R i) (G i) (Q i) (c.threads i) c.state) :
    ∀ i, Valid (sem i) (R i) (G i) (Q i) (c'.threads i) c'.state := by
  induction hreach with
  | refl => exact h
  | tail _ hstep ih => exact step_valid hGR hR htrans hstep ih

/-- A thread that has returned keeps its postcondition in every later state. -/
theorem returned_valid (hGR : ∀ i j, i ≠ j → ∀ s s', G i s s' → R j s s')
    (hR : ∀ i s, R i s s) (htrans : ∀ i {a b c}, R i a b → R i b c → R i a c)
    {c c' : Config S ι σ α} (hreach : Reachable sem c c')
    (h : ∀ i, Valid (sem i) (R i) (G i) (Q i) (c.threads i) c.state) {i : ι} {a : α}
    (hret : c'.threads i = .ret a) : Q i a c'.state := by
  have hv := parallel_valid hGR hR htrans hreach h i
  rw [hret] at hv
  exact hv _ (hR i _)

end

end Conc
