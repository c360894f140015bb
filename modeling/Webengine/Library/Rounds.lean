/- digest: A loop that makes one call a round: each answer takes it on, or ends it. What it
   returns, and from which answers on it has returned.
   uses: nothing of the modelled repository. -/

import Mathlib.Data.Option.Basic

set_option autoImplicit false
set_option relaxedAutoImplicit false

namespace Webengine.Library.Rounds

variable {σ ρ β : Type}

/-- The loop over the answers it gets, in order; `none` if it waits for the next one. -/
def rounds (f : σ → ρ → σ ⊕ β) : σ → List ρ → Option β
  | _, [] => none
  | s, r :: rs => match f s r with
    | .inl s' => rounds f s' rs
    | .inr b => some b

variable {f : σ → ρ → σ ⊕ β}

@[simp] theorem rounds_nil (s : σ) : rounds f s [] = none := rfl

theorem rounds_cons_inl {s s' : σ} {r : ρ} (h : f s r = .inl s') (rs : List ρ) :
    rounds f s (r :: rs) = rounds f s' rs := by
  simp only [rounds, h]

theorem rounds_cons_inr {s : σ} {r : ρ} {b : β} (h : f s r = .inr b) (rs : List ρ) :
    rounds f s (r :: rs) = some b := by
  simp only [rounds, h]

/-- The rule of the loop: an invariant of the state and the answers to come, which every
round keeps and the last one turns into the result. -/
theorem rounds_rule {J : σ → List ρ → Prop} {Q : β → Prop}
    (goesOn : ∀ s r rs s', J s (r :: rs) → f s r = .inl s' → J s' rs)
    (ends : ∀ s r rs b, J s (r :: rs) → f s r = .inr b → Q b)
    {s : σ} {rs : List ρ} {b : β} (h : J s rs) (returned : rounds f s rs = some b) : Q b := by
  induction rs generalizing s with
  | nil => cases returned
  | cons r rs ih =>
    cases hr : f s r with
    | inl s' =>
      rw [rounds_cons_inl hr] at returned
      exact ih (goesOn s r rs s' h hr) returned
    | inr b' =>
      rw [rounds_cons_inr hr] at returned
      cases returned
      exact ends s r rs b h hr

theorem isSome_rounds_iff {J : σ → List ρ → Prop} (waits : ∀ s, ¬ J s [])
    (goesOn : ∀ s r rs s', f s r = .inl s' → (J s (r :: rs) ↔ J s' rs))
    (ends : ∀ s r rs b, f s r = .inr b → J s (r :: rs)) (s : σ) (rs : List ρ) :
    (rounds f s rs).isSome ↔ J s rs := by
  induction rs generalizing s with
  | nil => simpa using waits s
  | cons r rs ih =>
    cases hr : f s r with
    | inl s' => rw [rounds_cons_inl hr, ih, goesOn s r rs s' hr]
    | inr b =>
      rw [rounds_cons_inr hr]
      exact iff_of_true rfl (ends s r rs b hr)

theorem rounds_eq_find? {last : ρ → Bool} {g : σ → ρ → β}
    (again : ∀ s r, last r = false → f s r = .inl s)
    (done : ∀ s r, last r = true → f s r = .inr (g s r)) (s : σ) (rs : List ρ) :
    rounds f s rs = (rs.find? last).map (g s) := by
  induction rs with
  | nil => rfl
  | cons r rs ih =>
    cases hr : last r with
    | false => rw [rounds_cons_inl (again s r hr), ih, List.find?_cons_of_neg (by simp [hr])]
    | true => rw [rounds_cons_inr (done s r hr), List.find?_cons_of_pos hr, Option.map_some]

end Webengine.Library.Rounds
