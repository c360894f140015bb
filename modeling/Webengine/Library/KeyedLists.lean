/- digest: Lists of entries with unique keys as finite maps: replace or append, remove, edit.
   uses: nothing of the modelled repository. -/

import Mathlib.Data.List.Nodup
import Mathlib.Logic.Function.Basic

set_option autoImplicit false
set_option relaxedAutoImplicit false

namespace Webengine.Library.KeyedLists

variable {ε κ β : Type} [DecidableEq κ] {key : ε → κ} {val : ε → β}

/-- Edit the first entry with the key and stop there; without one append `fresh`. -/
def put (key : ε → κ) (k : κ) (edit : ε → ε) (fresh : ε) : List ε → List ε
  | [] => [fresh]
  | e :: l => if key e = k then edit e :: l else e :: put key k edit fresh l

/-- The finite map a list of entries stands for. -/
def assoc (key : ε → κ) (val : ε → β) (l : List ε) (k : κ) : Option β :=
  (l.find? (fun e => key e = k)).map val

theorem assoc_cons (e : ε) (l : List ε) (k : κ) :
    assoc key val (e :: l) k = if key e = k then some (val e) else assoc key val l k := by
  by_cases h : key e = k <;> simp [assoc, h]

private theorem mem_of_assoc_eq_some {l : List ε} {k : κ} {v : β} (h : assoc key val l k = some v) :
    ∃ e ∈ l, key e = k ∧ val e = v := by
  obtain ⟨e, he, rfl⟩ := Option.map_eq_some_iff.mp h
  exact ⟨e, List.mem_of_find?_eq_some he, by simpa using List.find?_some he, rfl⟩

theorem assoc_eq_none_iff {l : List ε} {k : κ} :
    assoc key val l k = none ↔ ∀ e ∈ l, key e ≠ k := by
  simp [assoc]

theorem assoc_of_mem {l : List ε} (nodup : (l.map key).Nodup) {e : ε} (he : e ∈ l) :
    assoc key val l (key e) = some (val e) := by
  induction l with
  | nil => simp at he
  | cons a l ih =>
    rw [List.map_cons, List.nodup_cons] at nodup
    rw [assoc_cons]
    rcases List.mem_cons.mp he with rfl | hl
    · rw [if_pos rfl]
    · have hne : key a ≠ key e := fun h => nodup.1 (h ▸ List.mem_map_of_mem hl)
      rw [if_neg hne, ih nodup.2 hl]

theorem assoc_eq_some_iff {l : List ε} (nodup : (l.map key).Nodup) {k : κ} {v : β} :
    assoc key val l k = some v ↔ ∃ e ∈ l, key e = k ∧ val e = v := by
  constructor
  · exact mem_of_assoc_eq_some
  · rintro ⟨e, he, rfl, rfl⟩
    exact assoc_of_mem nodup he

section Put

variable {k : κ} {edit : ε → ε} {fresh : ε}

theorem assoc_put {v : β} (keyFresh : key fresh = k) (valFresh : val fresh = v)
    (keyEdit : ∀ e, key e = k → key (edit e) = k) (valEdit : ∀ e, val (edit e) = v)
    (l : List ε) :
    assoc key val (put key k edit fresh l) = Function.update (assoc key val l) k (some v) := by
  funext k'
  induction l with
  | nil =>
    by_cases h : k' = k
    · subst h
      simp [put, assoc, keyFresh, valFresh]
    · simp [put, assoc, keyFresh, Ne.symm h, Function.update_of_ne h]
  | cons e l ih =>
    by_cases h : k' = k
    · subst h
      rw [Function.update_self] at ih ⊢
      by_cases he : key e = k'
      · simp [put, assoc_cons, he, keyEdit e he, valEdit]
      · simp [put, assoc_cons, he, ih]
    · rw [Function.update_of_ne h] at ih ⊢
      by_cases he : key e = k
      · simp [put, assoc_cons, he, keyEdit e he, Ne.symm h]
      · simp [put, assoc_cons, he, ih]

private theorem map_key_put (keyFresh : key fresh = k) (keyEdit : ∀ e, key e = k → key (edit e) = k)
    (l : List ε) :
    (put key k edit fresh l).map key =
      if k ∈ l.map key then l.map key else l.map key ++ [k] := by
  induction l with
  | nil => simp [put, keyFresh]
  | cons e l ih =>
    by_cases he : key e = k
    · simp [put, he, keyEdit e he]
    · simp only [put, he, if_false, List.map_cons, ih, List.mem_cons, Ne.symm he, false_or]
      split <;> simp

theorem nodup_put (keyFresh : key fresh = k) (keyEdit : ∀ e, key e = k → key (edit e) = k)
    {l : List ε} (nodup : (l.map key).Nodup) : ((put key k edit fresh l).map key).Nodup := by
  rw [map_key_put keyFresh keyEdit]
  split
  · exact nodup
  · rename_i absent
    exact List.nodup_append.mpr ⟨nodup, by simp, by
      intro a ha b hb
      rintro rfl
      exact absent (List.mem_singleton.mp hb ▸ ha)⟩

end Put

theorem assoc_remove (k : κ) (l : List ε) :
    assoc key val (l.filter (fun e => key e ≠ k)) =
      Function.update (assoc key val l) k none := by
  funext k'
  induction l with
  | nil => by_cases h : k' = k <;> simp [assoc, h]
  | cons e l ih =>
    by_cases h : k' = k
    · subst h
      by_cases he : key e = k' <;> simp [assoc, he]
    · rw [Function.update_of_ne h] at ih ⊢
      by_cases he : key e = k
      · simp only [List.filter_cons, he, ne_eq, not_true_eq_false, decide_false,
          Bool.false_eq_true, if_false, assoc_cons, if_neg (Ne.symm h)]
        simpa using ih
      · simp only [List.filter_cons, he, ne_eq, not_false_eq_true, decide_true, if_true,
          assoc_cons]
        simpa using congrArg (fun x => if key e = k' then some (val e) else x) ih

theorem nodup_remove (k : κ) {l : List ε} (nodup : (l.map key).Nodup) :
    ((l.filter (fun e => key e ≠ k)).map key).Nodup :=
  nodup.sublist (List.Sublist.map _ List.filter_sublist)

end Webengine.Library.KeyedLists
