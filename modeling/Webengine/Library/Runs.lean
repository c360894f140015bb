/- digest: Runs of a labelled step relation: what every step keeps, the state at each step, and
   the run of a component within that of the whole.
   uses: nothing of the modelled repository. -/

import Mathlib.Data.List.Induction

set_option autoImplicit false
set_option relaxedAutoImplicit false

namespace Webengine.Library.Runs

variable {σ α : Type}

/-- The steps of a run, in order, and where they have led. -/
inductive Run (step : σ → α → σ → Prop) (s : σ) : List α → σ → Prop
  | nil : Run step s [] s
  | snoc {l : List α} {s' s'' : σ} {a : α} : Run step s l s' → step s' a s'' →
      Run step s (l ++ [a]) s''

namespace Run

variable {step : σ → α → σ → Prop} {s s' s'' : σ} {l l' : List α} {a : α}

theorem invariant {J : List α → σ → Prop} (begins : J [] s)
    (keeps : ∀ l s' a s'', Run step s l s' → J l s' → step s' a s'' → J (l ++ [a]) s'')
    (h : Run step s l s') : J l s' := by
  induction h with
  | nil => exact begins
  | snoc before next ih => exact keeps _ _ _ _ before ih next

theorem trans (h : Run step s l s') (h' : Run step s' l' s'') : Run step s (l ++ l') s'' := by
  induction h' with
  | nil => rwa [List.append_nil]
  | snoc before next ih =>
    rw [← List.append_assoc]
    exact ih.snoc next

theorem split (h : Run step s (l ++ a :: l') s'') :
    ∃ s₁ s₂, Run step s l s₁ ∧ step s₁ a s₂ ∧ Run step s₂ l' s'' := by
  induction l' using List.reverseRecOn generalizing s'' with
  | nil =>
    generalize whole : l ++ [a] = l₀ at h
    cases h with
    | nil => simp at whole
    | snoc before next =>
      obtain ⟨rfl, same⟩ := List.append_inj' whole rfl
      cases same
      exact ⟨_, _, before, next, .nil⟩
  | append_singleton l' b ih =>
    generalize whole : l ++ a :: (l' ++ [b]) = l₀ at h
    cases h with
    | nil => simp at whole
    | snoc before next =>
      rw [← List.cons_append, ← List.append_assoc] at whole
      obtain ⟨rfl, same⟩ := List.append_inj' whole rfl
      cases same
      obtain ⟨s₁, s₂, first, at_, after⟩ := ih before
      exact ⟨s₁, s₂, first, at_, after.snoc next⟩

/-- The steps of a run that are a component's own are a run of the component. -/
theorem project {τ β : Type} (view : σ → τ) (own : α → Option β) {part : τ → β → τ → Prop}
    (moves : ∀ s a b s', step s a s' → own a = some b → part (view s) b (view s'))
    (rests : ∀ s a s', step s a s' → own a = none → view s' = view s)
    (h : Run step s l s') : Run part (view s) (l.filterMap own) (view s') := by
  induction h with
  | nil => exact .nil
  | @snoc l s₁ s₂ a before next ih =>
    rw [List.filterMap_append]
    cases mine : own a with
    | none => simpa [mine, rests _ _ _ next mine] using ih
    | some b => simpa [mine] using ih.snoc (moves _ _ _ _ next mine)

end Run

end Webengine.Library.Runs
