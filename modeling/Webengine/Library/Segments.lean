/- digest: Paths as texts cut into segments at a separator: resolution with a segment that
   stays and one that goes up, and the canonical spelling of a path.
   uses: nothing of the modelled repository. -/

import Mathlib.Data.List.Infix

set_option autoImplicit false
set_option relaxedAutoImplicit false

namespace Webengine.Library.Segments

/-- How paths are spelled: the separator, the segment that stays and the one that goes up. -/
structure Spelling (α : Type) where
  sep : α
  here : List α
  up : List α

variable {α : Type} [DecidableEq α] (m : Spelling α)

def segments (s : List α) : List (List α) := s.splitOn m.sep

/-- A segment that names something. -/
def Proper (seg : List α) : Prop := seg ≠ [] ∧ seg ≠ m.here

instance (seg : List α) : Decidable (Proper m seg) := inferInstanceAs (Decidable (_ ∧ _))

/-- The segments of a path that name something. -/
def kept (s : List α) : List (List α) := (segments m s).filter (fun seg => Proper m seg)

/-- The spelling of a path without empty segments and segments that stay. -/
def canonical (s : List α) : List α := [m.sep].intercalate (kept m s)

/-- Walk from a directory along one segment. -/
def enter (dir : List (List α)) (seg : List α) : List (List α) :=
  if ¬ Proper m seg then dir else if seg = m.up then dir.dropLast else dir ++ [seg]

/-- Where a path leads: a stack of names. -/
def resolve (s : List α) : List (List α) := (segments m s).foldl (enter m) []

variable {m}

theorem segments_append (a b : List α) :
    segments m (a ++ m.sep :: b) = segments m a ++ segments m b :=
  List.splitOn_append_cons_self a b

private theorem segments_eq_singleton {s : List α} (h : m.sep ∉ s) : segments m s = [s] :=
  List.splitOn_eq_singleton h

private theorem intercalate_segments (s : List α) : [m.sep].intercalate (segments m s) = s :=
  List.intercalate_splitOn _

private theorem first_segment (s : List α) :
    (m.sep ∉ s ∧ segments m s = [s]) ∨ ∃ seg rest, m.sep ∉ seg ∧ s = seg ++ m.sep :: rest ∧
      segments m s = seg :: segments m rest := by
  by_cases h : m.sep ∈ s
  · obtain ⟨seg, rest, rfl, hseg⟩ := List.eq_append_cons_of_mem h
    refine Or.inr ⟨seg, rest, hseg, rfl, ?_⟩
    rw [segments_append, segments_eq_singleton hseg, List.singleton_append]
  · exact Or.inl ⟨h, segments_eq_singleton h⟩

theorem mem_segments {s seg : List α} (h : seg ∈ segments m s) : m.sep ∉ seg ∧ seg <:+: s := by
  induction hn : s.length using Nat.strong_induction_on generalizing s with
  | _ n ih =>
    subst hn
    rcases first_segment (m := m) s with ⟨whole, single⟩ | ⟨first, rest, hfirst, rfl, split⟩
    · rw [single, List.mem_singleton] at h
      subst h
      exact ⟨whole, List.infix_refl _⟩
    · rw [split, List.mem_cons] at h
      rcases h with rfl | h
      · exact ⟨hfirst, (List.prefix_append _ _).isInfix⟩
      · have shorter : rest.length < (first ++ m.sep :: rest).length := by
          rw [List.length_append, List.length_cons]
          omega
        obtain ⟨hsep, hpart⟩ := ih _ shorter h rfl
        exact ⟨hsep, hpart.trans ((List.suffix_cons _ _).trans (List.suffix_append _ _)).isInfix⟩

section Canonical

theorem kept_append (a b : List α) : kept m (a ++ m.sep :: b) = kept m a ++ kept m b := by
  rw [kept, segments_append, List.filter_append, kept, kept]

private theorem kept_nil : kept m [] = [] := by
  simp [kept, segments, Proper]

theorem proper_of_mem_kept {s seg : List α} (h : seg ∈ kept m s) : Proper m seg := by
  simpa using List.of_mem_filter h

theorem kept_subset {s seg : List α} (h : seg ∈ kept m s) : seg ∈ segments m s :=
  List.mem_of_mem_filter h

theorem kept_dropWhile (s : List α) : kept m (s.dropWhile (· = m.sep)) = kept m s := by
  induction s with
  | nil => rfl
  | cons c s ih =>
    by_cases hc : c = m.sep
    · subst hc
      have front := kept_append (m := m) [] s
      rw [List.nil_append, kept_nil, List.nil_append] at front
      rw [front, ← ih, List.dropWhile_cons_of_pos (by simp)]
    · rw [List.dropWhile_cons_of_neg (by simpa using hc)]

theorem segments_canonical {s : List α} (h : kept m s ≠ []) :
    segments m (canonical m s) = kept m s :=
  List.splitOn_intercalate m.sep (fun _ hseg => (mem_segments (kept_subset hseg)).1) h

/-- A path is its canonical spelling iff every segment of it names something. -/
theorem canonical_eq_self_iff {s : List α} (h : s ≠ []) :
    canonical m s = s ↔ ∀ seg ∈ segments m s, Proper m seg := by
  constructor
  · intro same
    have some_kept : kept m s ≠ [] := by
      intro none
      rw [canonical, none] at same
      exact h same.symm
    have split := segments_canonical some_kept
    rw [same] at split
    intro seg hseg
    rw [split] at hseg
    exact proper_of_mem_kept hseg
  · intro proper
    have all : kept m s = segments m s :=
      List.filter_eq_self.mpr fun seg hseg => by simpa using proper seg hseg
    rw [canonical, all, intercalate_segments]

end Canonical

section Resolve

private theorem foldl_enter {segs : List (List α)} (h : m.up ∉ segs) (dir : List (List α)) :
    segs.foldl (enter m) dir = dir ++ segs.filter (fun seg => Proper m seg) := by
  induction segs generalizing dir with
  | nil => simp
  | cons seg segs ih =>
    simp only [List.mem_cons, not_or] at h
    rw [List.foldl_cons, ih h.2]
    by_cases hp : Proper m seg
    · simp [enter, hp, Ne.symm h.1]
    · simp [enter, hp]

theorem resolve_append (a b : List α) :
    resolve m (a ++ m.sep :: b) = (segments m b).foldl (enter m) (resolve m a) := by
  rw [resolve, segments_append, List.foldl_append, resolve]

/-- A path that does not go up leads below where it starts. -/
theorem resolve_append_of_not_up {a b : List α} (h : m.up ∉ segments m b) :
    resolve m (a ++ m.sep :: b) = resolve m a ++ kept m b := by
  rw [resolve_append, foldl_enter h, kept]

theorem resolve_snoc_sep (a : List α) : resolve m (a ++ [m.sep]) = resolve m a := by
  rw [resolve_append]
  simp [segments, enter, Proper]

end Resolve

end Webengine.Library.Segments
