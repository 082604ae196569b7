import Mathlib.Logic.Basic

/-!
# Conc.Trace

Runs of a step relation, with the states they pass.

`Trace.invariant` carries a property along a run. `Trace.leads` says that a run cannot leave a state
without passing what every step out of it enters, `Trace.ends` that it ends there if no step leaves
again.
-/

namespace Conc

variable {σ : Type} {step : σ → σ → Prop}

/-- A run from the first state to the last; the list holds the states that a step was taken from. -/
inductive Trace (step : σ → σ → Prop) : σ → List σ → σ → Prop where
  | nil {s : σ} : Trace step s [] s
  | cons {s s' s'' : σ} {passed : List σ} :
      step s s' → Trace step s' passed s'' → Trace step s (s :: passed) s''

variable {s s' : σ} {passed : List σ}

theorem Trace.start_mem (h : Trace step s passed s') : s ∈ passed ∨ s = s' := by
  cases h with
  | nil => exact Or.inr rfl
  | cons _ _ => exact Or.inl List.mem_cons_self

theorem Trace.snoc {s'' : σ} (h : Trace step s passed s') (hstep : step s' s'') :
    Trace step s (passed ++ [s']) s'' := by
  induction h with
  | nil => exact .cons hstep .nil
  | cons hst _ ih => exact .cons hst (ih hstep)

theorem Trace.invariant {I : σ → Prop} (hstep : ∀ s s', step s s' → I s → I s')
    (h : Trace step s passed s') (hs : I s) : (∀ x ∈ passed, I x) ∧ I s' := by
  induction h with
  | nil => exact ⟨nofun, hs⟩
  | cons hst _ ih =>
    obtain ⟨hpassed, hend⟩ := ih (hstep _ _ hst hs)
    refine ⟨?_, hend⟩
    intro x hx
    rcases List.mem_cons.mp hx with rfl | hx
    · exact hs
    · exact hpassed x hx

/-- Where every step out of `P` enters `Q`, a run that passes `P` passes `Q` or ends there. -/
theorem Trace.leads {P Q : σ → Prop} (hstep : ∀ s s', P s → step s s' → Q s')
    (h : Trace step s passed s') (hP : ∃ x ∈ passed, P x) : (∃ x ∈ passed, Q x) ∨ Q s' := by
  induction h with
  | nil =>
    obtain ⟨_, hx, _⟩ := hP
    cases hx
  | cons hst hrest ih =>
    obtain ⟨x, hx, hPx⟩ := hP
    rcases List.mem_cons.mp hx with rfl | hx
    · have hQ := hstep _ _ hPx hst
      rcases hrest.start_mem with hmem | rfl
      · exact Or.inl ⟨_, List.mem_cons_of_mem _ hmem, hQ⟩
      · exact Or.inr hQ
    · rcases ih ⟨x, hx, hPx⟩ with ⟨y, hy, hQ⟩ | hQ
      · exact Or.inl ⟨y, List.mem_cons_of_mem _ hy, hQ⟩
      · exact Or.inr hQ

/-- Where every step out of `P` enters `Q` and none leaves `Q`, a run that passes `P` ends in
`Q`. -/
theorem Trace.ends {P Q : σ → Prop} (hstep : ∀ s s', P s → step s s' → Q s')
    (hkeep : ∀ s s', step s s' → Q s → Q s') (h : Trace step s passed s')
    (hP : ∃ x ∈ passed, P x) : Q s' := by
  induction h with
  | nil =>
    obtain ⟨_, hx, _⟩ := hP
    cases hx
  | cons hst hrest ih =>
    obtain ⟨x, hx, hPx⟩ := hP
    rcases List.mem_cons.mp hx with rfl | hx
    · exact (hrest.invariant hkeep (hstep _ _ hPx hst)).2
    · exact ih ⟨x, hx, hPx⟩

end Conc
