/- digest: Searching and cutting texts: first occurrence, the part before a mark, trimming.
   uses: nothing of the modelled repository. -/

import Mathlib.Data.List.DropRight
import Mathlib.Data.List.Infix
import Mathlib.Data.List.TakeWhile

set_option autoImplicit false
set_option relaxedAutoImplicit false

namespace Webengine.Library.Texts

variable {α : Type} [DecidableEq α]

/-- The least position at which `pat` occurs in `s`. -/
def find (pat : List α) : List α → Option Nat
  | [] => if pat.isPrefixOf [] then some 0 else none
  | c :: s => if pat.isPrefixOf (c :: s) then some 0 else (find pat s).map (· + 1)

/-- The part of a text before the first `mark`. -/
def cut (mark : α) (s : List α) : List α := s.takeWhile (· ≠ mark)

/-- Drop every leading and every trailing `c`. -/
def trim (c : α) (s : List α) : List α := (s.dropWhile (· = c)).rdropWhile (· = c)

/-- What follows the first occurrence of `pat` in `s`. -/
def after (pat s : List α) : Option (List α) :=
  (find pat s).map fun pos => s.drop (pos + pat.length)

/-- What follows `pat`, if the text begins with it. -/
def strip (pat s : List α) : Option (List α) :=
  if pat <+: s then some (s.drop pat.length) else none

@[simp] theorem strip_append (pat s : List α) : strip pat (pat ++ s) = some s := by
  rw [strip, if_pos (List.prefix_append pat s), List.drop_left]

theorem find_eq_none_iff {pat s : List α} : find pat s = none ↔ ¬ pat <:+: s := by
  induction s with
  | nil => cases pat <;> simp [find, List.infix_nil]
  | cons c s ih =>
    simp only [find, List.infix_cons_iff, not_or, ← ih]
    by_cases hp : pat <+: c :: s
    · simp [hp]
    · simp [hp]

theorem find_isSome_iff {pat s : List α} : (find pat s).isSome ↔ pat <:+: s := by
  rw [← not_iff_not, ← find_eq_none_iff, Option.not_isSome_iff_eq_none]

theorem find_append_mark {mark : α} {a : List α} (h : mark ∉ a) (b : List α) :
    find [mark] (a ++ mark :: b) = some a.length := by
  induction a with
  | nil => simp [find]
  | cons c a ih =>
    rw [List.mem_cons, not_or] at h
    have other : ¬ [mark] <+: c :: (a ++ mark :: b) := by
      intro front
      exact h.1 (List.cons_prefix_cons.mp front).1
    simp [find, other, ih h.2]

omit [DecidableEq α] in
theorem infix_append_mark_iff {pat a b : List α} {mark : α} (h : mark ∉ pat) :
    pat <:+: a ++ mark :: b ↔ pat <:+: a ∨ pat <:+: b := by
  constructor
  · intro occurs
    induction a with
    | nil =>
      rcases List.infix_cons_iff.mp occurs with front | later
      · cases pat with
        | nil => exact Or.inl List.nil_infix
        | cons c pat =>
          obtain ⟨rfl, -⟩ := List.cons_prefix_cons.mp front
          simp at h
      · exact Or.inr later
    | cons c a ih =>
      rcases List.infix_cons_iff.mp occurs with front | later
      · rcases List.prefix_or_prefix_of_prefix front (List.prefix_append (c :: a) (mark :: b)) with
          within | beyond
        · exact Or.inl within.isInfix
        · obtain ⟨rest, rfl⟩ := beyond
          obtain ⟨-, same⟩ := List.cons_prefix_cons.mp (List.cons_append ▸ front)
          cases rest with
          | nil => exact Or.inl (by simp)
          | cons d rest =>
            obtain ⟨rfl, -⟩ := List.cons_prefix_cons.mp ((List.prefix_append_right_inj a).mp same)
            simp at h
      · rcases ih later with left | right
        · exact Or.inl (left.trans (List.suffix_cons c a).isInfix)
        · exact Or.inr right
  · rintro (left | right)
    · exact left.trans (List.prefix_append _ _).isInfix
    · exact right.trans ((List.suffix_cons _ _).trans (List.suffix_append _ _)).isInfix

@[simp] theorem cut_nil (mark : α) : cut mark [] = [] := rfl

theorem cut_cons (mark c : α) (s : List α) :
    cut mark (c :: s) = if c = mark then [] else c :: cut mark s := by
  by_cases h : c = mark <;> simp [cut, h]

theorem prefix_cut (mark : α) (s : List α) : cut mark s <+: s := List.takeWhile_prefix _

theorem cut_append_mark {mark : α} {s : List α} (h : mark ∉ s) (t : List α) :
    cut mark (s ++ mark :: t) = s := by
  rw [cut, List.takeWhile_append_of_pos]
  · simp
  · intro c hc
    have other : c ≠ mark := fun same => h (same ▸ hc)
    simpa using other

theorem cut_append_mark_le (mark : α) (s : List α) : cut mark (s ++ [mark]) <+: s := by
  induction s with
  | nil => simp [cut_cons]
  | cons c s ih =>
    rw [List.cons_append, cut_cons]
    split
    · exact List.nil_prefix
    · exact (List.prefix_cons_inj c).mpr ih

theorem cut_of_notMem {mark : α} {s : List α} (h : mark ∉ s) : cut mark s = s := by
  rw [cut, List.takeWhile_eq_self_iff]
  intro c hc
  have other : c ≠ mark := fun same => h (same ▸ hc)
  simpa using other

theorem prefix_cut_of_prefix {mark : α} {p s : List α} (hp : p <+: s) (hmem : mark ∉ p) :
    p <+: cut mark s := by
  induction p generalizing s with
  | nil => exact List.nil_prefix
  | cons c p ih =>
    obtain ⟨t, rfl⟩ := hp
    simp only [List.mem_cons, not_or] at hmem
    rw [List.cons_append, cut_cons, if_neg (Ne.symm hmem.1)]
    exact (List.cons_prefix_cons).mpr ⟨rfl, ih (List.prefix_append p t) hmem.2⟩

theorem cut_eq_of_prefix {mark : α} {p s : List α} (hp : p <+: s) (hmem : mark ∈ p) :
    cut mark p = cut mark s := by
  induction p generalizing s with
  | nil => simp at hmem
  | cons c p ih =>
    obtain ⟨t, rfl⟩ := hp
    rw [List.cons_append, cut_cons, cut_cons]
    by_cases hc : c = mark
    · rw [if_pos hc, if_pos hc]
    · rw [if_neg hc, if_neg hc]
      have hmem' : mark ∈ p := by simpa [Ne.symm hc] using hmem
      rw [ih (List.prefix_append p t) hmem']

theorem after_nil {pat : List α} (h : pat ≠ []) : after pat [] = none := by
  have fails : pat.isPrefixOf [] = false := by
    cases pat with
    | nil => exact absurd rfl h
    | cons c pat => rfl
  simp [after, find, fails]

theorem after_cons (pat : List α) (c : α) (s : List α) :
    after pat (c :: s) =
      if pat <+: c :: s then some ((c :: s).drop pat.length) else after pat s := by
  unfold after
  rw [find]
  by_cases hp : pat <+: c :: s
  · rw [if_pos hp, if_pos (List.isPrefixOf_iff_prefix.mpr hp)]
    simp
  · rw [if_neg hp, if_neg (mt List.isPrefixOf_iff_prefix.mp hp), Option.map_map]
    refine congrArg (fun f => Option.map f (find pat s)) (funext fun pos => ?_)
    rw [Function.comp_apply, Nat.add_right_comm, List.drop_succ_cons]

@[simp] theorem after_append_self {pat : List α} (ne : pat ≠ []) (s : List α) :
    after pat (pat ++ s) = some s := by
  obtain ⟨c, pat, rfl⟩ := List.exists_cons_of_ne_nil ne
  rw [List.cons_append, after_cons, ← List.cons_append, if_pos (List.prefix_append _ s),
    List.drop_left]

theorem trim_of_notMem {c : α} {s : List α} (h : c ∉ s) : trim c s = s := by
  have plain : ∀ d ∈ s, ¬ (decide (d = c)) = true := by
    intro d hd
    have other : d ≠ c := fun same => h (same ▸ hd)
    simpa using other
  have front : s.dropWhile (· = c) = s := by
    rw [List.dropWhile_eq_self_iff]
    exact fun nonempty => plain _ (List.getElem_mem _)
  rw [trim, front, List.rdropWhile_eq_self_iff]
  exact fun nonempty => plain _ (List.getLast_mem _)

theorem after_isSome_iff {pat s : List α} : (after pat s).isSome ↔ pat <:+: s := by
  rw [after, Option.isSome_map, find_isSome_iff]

theorem suffix_of_after {pat s rest : List α} (h : after pat s = some rest) : rest <:+ s := by
  obtain ⟨pos, -, rfl⟩ := Option.map_eq_some_iff.mp h
  exact List.drop_suffix _ _

theorem after_append_mark {pat : List α} {mark : α} (ne : pat ≠ []) (h : mark ∉ pat)
    (a b : List α) :
    after pat (a ++ mark :: b) =
      match after pat a with
      | some rest => some (rest ++ mark :: b)
      | none => after pat b := by
  induction a with
  | nil =>
    have apart : ¬ pat <+: mark :: b := by
      intro front
      cases pat with
      | nil => exact ne rfl
      | cons c pat =>
        obtain ⟨rfl, -⟩ := List.cons_prefix_cons.mp front
        exact h List.mem_cons_self
    rw [List.nil_append, after_cons, if_neg apart, after_nil ne]
  | cons c a ih =>
    rw [List.cons_append, after_cons, after_cons, ih]
    have same : pat <+: c :: (a ++ mark :: b) ↔ pat <+: c :: a := by
      constructor
      · intro front
        have short := prefix_cut_of_prefix front h
        have cutoff : cut mark (c :: (a ++ mark :: b)) <+: c :: a := by
          rw [← List.cons_append, cut, List.takeWhile_append]
          split
          · simp
          · exact List.takeWhile_prefix _
        exact short.trans cutoff
      · intro front
        exact front.trans (List.prefix_append (c :: a) (mark :: b))
    by_cases front : pat <+: c :: a
    · rw [if_pos front, if_pos (same.mpr front), ← List.cons_append,
        List.drop_append_of_le_length front.length_le]
    · rw [if_neg front, if_neg (mt same.mp front)]

end Webengine.Library.Texts
