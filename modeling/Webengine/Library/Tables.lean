/- digest: A table whose cells are taken and given back by several holders: which cell carries
   whose mark, through every taking and giving.
   uses: nothing of the modelled repository. -/

import Mathlib.Logic.Function.Basic

set_option autoImplicit false
set_option relaxedAutoImplicit false

namespace Webengine.Library.Tables

variable {κ ι ν : Type} {mark : ι → ν}

/-- The cells with the mark of a holder are the one it holds. -/
def Holds (mark : ι → ν) (t : κ → Option ν) (held : ι → Option κ) : Prop :=
  ∀ k i, t k = some (mark i) ↔ held i = some k

variable [DecidableEq κ] {t : κ → Option ν} {held : ι → Option κ} {k : κ} {i : ι}

theorem Holds.take [DecidableEq ι] (h : Holds mark t held) (distinct : Function.Injective mark)
    (free : t k = none) (empty : held i = none) :
    Holds mark (Function.update t k (some (mark i))) (Function.update held i (some k)) := by
  intro k' j
  by_cases cell : k' = k
  · subst cell
    rw [Function.update_self]
    by_cases same : j = i
    · subst same
      simp
    · rw [Function.update_of_ne same]
      have unheld : held j ≠ some k' := by
        intro holds
        rw [(h k' j).mpr holds] at free
        cases free
      have other : mark i ≠ mark j := fun marks => same (distinct marks).symm
      simp [unheld, other]
  · rw [Function.update_of_ne cell]
    by_cases same : j = i
    · subst same
      have unmarked : t k' ≠ some (mark j) := by
        intro marked
        rw [(h k' j).mp marked] at empty
        cases empty
      rw [Function.update_self]
      simp [unmarked, Ne.symm cell]
    · rw [Function.update_of_ne same]
      exact h k' j

theorem Holds.give [DecidableEq ι] (h : Holds mark t held) (distinct : Function.Injective mark)
    (holds : held i = some k) :
    Holds mark (Function.update t k none) (Function.update held i none) := by
  intro k' j
  by_cases same : j = i
  · subst same
    rw [Function.update_self]
    by_cases cell : k' = k
    · subst cell
      simp
    · rw [Function.update_of_ne cell]
      have unmarked : t k' ≠ some (mark j) := by
        intro marked
        rw [(h k' j).mp marked] at holds
        exact cell (Option.some.inj holds)
      simp [unmarked]
  · rw [Function.update_of_ne same]
    by_cases cell : k' = k
    · subst cell
      have unheld : held j ≠ some k' := by
        intro other
        have marks := ((h k' j).mpr other).symm.trans ((h k' i).mpr holds)
        exact same (distinct (Option.some.inj marks))
      simp [unheld]
    · rw [Function.update_of_ne cell]
      exact h k' j

theorem Holds.unmarked (h : Holds mark t held) {x : Option ν} (before : ∀ i, t k ≠ some (mark i))
    (after : ∀ i, x ≠ some (mark i)) : Holds mark (Function.update t k x) held := by
  intro k' j
  by_cases cell : k' = k
  · subst cell
    rw [Function.update_self]
    exact iff_of_false (after j) fun holds => before j ((h k' j).mpr holds)
  · rw [Function.update_of_ne cell]
    exact h k' j

end Webengine.Library.Tables
