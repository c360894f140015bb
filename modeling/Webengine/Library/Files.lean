/- digest: A file system of names and files: opening, writing at an offset, renaming and
   unlinking, and what each does to what a name shows.
   uses: nothing of the modelled repository. -/

import Mathlib.Logic.Function.Basic
import Mathlib.Data.List.TakeDrop

set_option autoImplicit false
set_option relaxedAutoImplicit false

namespace Webengine.Library.Files

variable {N : Type} [DecidableEq N]

/-- Names bound to files, and what is in the files. No file has two names, and every file
with a name was created before the next one. -/
structure Fs (N : Type) where
  bound : N → Option Nat
  content : Nat → List Char
  next : Nat
  single : ∀ a b i, bound a = some i → bound b = some i → a = b
  created : ∀ a i, bound a = some i → i < next

namespace Fs

def empty : Fs N where
  bound _ := none
  content _ := []
  next := 0
  single := fun _ _ _ h => nomatch h
  created := fun _ _ h => nomatch h

/-- What a reader of the name finds. -/
def read (fs : Fs N) (a : N) : Option (List Char) := (fs.bound a).map fs.content

/-- Overwrite from an offset on; a gap before it is filled with zeros. -/
def splice (old : List Char) (offset : Nat) (piece : List Char) : List Char :=
  (old.take offset).rightpad offset '\x00' ++ piece ++ old.drop (offset + piece.length)

/-- Write to an open file, whatever its name is by now. -/
def writeAt (fs : Fs N) (i offset : Nat) (piece : List Char) : Fs N :=
  { fs with content := Function.update fs.content i (splice (fs.content i) offset piece) }

/-- Open for writing, with truncation: the file of that name, or a new one. -/
def openTrunc (fs : Fs N) (a : N) : Nat × Fs N :=
  match h : fs.bound a with
  | some i => (i, { fs with content := Function.update fs.content i [] })
  | none => (fs.next,
    { bound := Function.update fs.bound a (some fs.next)
      content := Function.update fs.content fs.next []
      next := fs.next + 1
      single := by
        intro b c i hb hc
        by_cases hba : b = a
        · by_cases hca : c = a
          · rw [hba, hca]
          · rw [hba, Function.update_self] at hb
            rw [Function.update_of_ne hca] at hc
            cases hb
            exact absurd (fs.created c _ hc) (Nat.lt_irrefl _)
        · rw [Function.update_of_ne hba] at hb
          by_cases hca : c = a
          · rw [hca, Function.update_self] at hc
            cases hc
            exact absurd (fs.created b _ hb) (Nat.lt_irrefl _)
          · rw [Function.update_of_ne hca] at hc
            exact fs.single b c i hb hc
      created := by
        intro b i hb
        by_cases hba : b = a
        · rw [hba, Function.update_self] at hb
          cases hb
          exact Nat.lt_succ_self _
        · rw [Function.update_of_ne hba] at hb
          exact Nat.lt_succ_of_lt (fs.created b i hb) })

/-- The name is no longer bound. -/
def unlink (fs : Fs N) (a : N) : Fs N :=
  { fs with
    bound := Function.update fs.bound a none
    single := by
      intro b c i hb hc
      have bound_of : ∀ d, Function.update fs.bound a none d = some i → fs.bound d = some i := by
        intro d hd
        by_cases hda : d = a
        · rw [hda, Function.update_self] at hd
          cases hd
        · rwa [Function.update_of_ne hda] at hd
      exact fs.single b c i (bound_of b hb) (bound_of c hc)
    created := by
      intro b i hb
      by_cases hba : b = a
      · rw [hba, Function.update_self] at hb
        cases hb
      · rw [Function.update_of_ne hba] at hb
        exact fs.created b i hb }

/-- The names after the file of name `a`, if there is one, has got the name `b` instead. -/
def moved (fs : Fs N) (a b : N) : N → Option Nat := fun c =>
  if c = b then fs.bound a else if c = a then none else fs.bound c

private theorem moved_cases {fs : Fs N} {a b c : N} {i : Nat} (h : fs.moved a b c = some i) :
    (c = b ∧ fs.bound a = some i) ∨ (c ≠ b ∧ c ≠ a ∧ fs.bound c = some i) := by
  unfold moved at h
  by_cases hcb : c = b
  · rw [if_pos hcb] at h
    exact Or.inl ⟨hcb, h⟩
  · rw [if_neg hcb] at h
    by_cases hca : c = a
    · rw [if_pos hca] at h
      cases h
    · rw [if_neg hca] at h
      exact Or.inr ⟨hcb, hca, h⟩

/-- Move the file of name `a` to the name `b`, which it replaces in one step. -/
def rename (fs : Fs N) (a b : N) : Fs N :=
  { fs with
    bound := fs.moved a b
    single := by
      intro c d i hc hd
      rcases moved_cases hc with ⟨rfl, hai⟩ | ⟨-, hca, hci⟩
      · rcases moved_cases hd with ⟨rfl, -⟩ | ⟨-, hda, hdi⟩
        · rfl
        · exact absurd (fs.single d a i hdi hai) hda
      · rcases moved_cases hd with ⟨rfl, hai⟩ | ⟨-, -, hdi⟩
        · exact absurd (fs.single c a i hci hai) hca
        · exact fs.single c d i hci hdi
    created := by
      intro c i hc
      rcases moved_cases hc with ⟨-, hai⟩ | ⟨-, -, hci⟩
      · exact fs.created a i hai
      · exact fs.created c i hci }

private theorem splice_length (old piece : List Char) :
    splice old old.length piece = old ++ piece := by
  simp [splice, List.rightpad]

section Reading

omit [DecidableEq N] in
@[simp] theorem bound_writeAt (fs : Fs N) (i offset : Nat) (piece : List Char) :
    (fs.writeAt i offset piece).bound = fs.bound := rfl

variable {fs : Fs N} {a b c : N} {i : Nat}

omit [DecidableEq N] in
theorem read_of_bound (h : fs.bound a = some i) : fs.read a = some (fs.content i) := by
  rw [read, h, Option.map_some]

theorem bound_openTrunc (fs : Fs N) (a : N) :
    (fs.openTrunc a).2.bound a = some (fs.openTrunc a).1 := by
  unfold openTrunc
  split
  · rename_i i h
    exact h
  · exact Function.update_self _ _ _

theorem content_openTrunc (fs : Fs N) (a : N) :
    (fs.openTrunc a).2.content (fs.openTrunc a).1 = [] := by
  unfold openTrunc
  split
  · exact Function.update_self _ _ _
  · exact Function.update_self _ _ _

omit [DecidableEq N] in
theorem content_writeAt_length (fs : Fs N) (i : Nat) (piece : List Char) :
    (fs.writeAt i (fs.content i).length piece).content i = fs.content i ++ piece := by
  have written : (fs.writeAt i (fs.content i).length piece).content i =
      splice (fs.content i) (fs.content i).length piece := Function.update_self _ _ _
  rw [written, splice_length]

theorem read_openTrunc_of_ne (h : c ≠ a) : (fs.openTrunc a).2.read c = fs.read c := by
  unfold openTrunc read
  split
  · rename_i i hi
    cases hc : fs.bound c with
    | none => rfl
    | some j =>
      have other : j ≠ i := by
        rintro rfl
        exact h (fs.single c a j hc hi)
      simp only [Option.map_some, Function.update_of_ne other]
  · simp only [Function.update_of_ne h]
    cases hc : fs.bound c with
    | none => rfl
    | some j =>
      have other : j ≠ fs.next := Nat.ne_of_lt (fs.created c j hc)
      simp only [Option.map_some, Function.update_of_ne other]

omit [DecidableEq N] in
theorem read_writeAt_of_bound_ne (h : fs.bound c ≠ some i) (offset : Nat) (piece : List Char) :
    (fs.writeAt i offset piece).read c = fs.read c := by
  unfold writeAt read
  cases hj : fs.bound c with
  | none => rfl
  | some j =>
    have other : j ≠ i := by
      rintro rfl
      exact h hj
    simp only [Option.map_some, Function.update_of_ne other]

theorem read_rename_target (fs : Fs N) (a b : N) : (fs.rename a b).read b = fs.read a := by
  simp [read, rename, moved]

theorem read_unlink_of_ne (h : c ≠ a) : (fs.unlink a).read c = fs.read c := by
  simp [read, unlink, Function.update_of_ne h]

end Reading

/-- A writer has the file `i` open under the name `a`, which may be gone by now, and no other
name shows it: `text` is what is in it. -/
structure Owned (fs : Fs N) (a b : N) (i : Nat) (text : List Char) : Prop where
  bound : fs.bound a = some i ∨ fs.bound a = none
  target : fs.bound b ≠ some i
  content : fs.content i = text

section Ownership

variable {fs : Fs N} {a b : N} {i : Nat} {text : List Char}

theorem owned_openTrunc (fs : Fs N) (ne : a ≠ b) :
    (fs.openTrunc a).2.Owned a b (fs.openTrunc a).1 [] where
  bound := Or.inl (bound_openTrunc fs a)
  target := fun shown => ne ((fs.openTrunc a).2.single a b _ (bound_openTrunc fs a) shown)
  content := content_openTrunc fs a

omit [DecidableEq N] in
theorem Owned.writeAt (h : fs.Owned a b i text) (piece : List Char) :
    (fs.writeAt i text.length piece).Owned a b i (text ++ piece) where
  bound := h.bound
  target := h.target
  content := by
    have appended := content_writeAt_length fs i piece
    rwa [h.content] at appended

theorem Owned.unlink (h : fs.Owned a b i text) (ne : a ≠ b) : (fs.unlink a).Owned a b i text where
  bound := Or.inr (Function.update_self _ _ _)
  target := by
    have same : (fs.unlink a).bound b = fs.bound b := Function.update_of_ne (Ne.symm ne) _ _
    rw [same]
    exact h.target
  content := h.content

theorem Owned.read_rename (h : fs.Owned a b i text) {j : Nat} (bound : fs.bound a = some j) :
    (fs.rename a b).read b = some text := by
  rcases h.bound with here | gone
  · rw [read_rename_target, read_of_bound here, h.content]
  · rw [gone] at bound
    cases bound

end Ownership

end Fs

/-- A file system with one file. -/
def oneFile (name : N) (text : List Char) : Fs N :=
  (Fs.empty.openTrunc name).2.writeAt (Fs.empty.openTrunc name).1 0 text

theorem read_oneFile (name : N) (text : List Char) : (oneFile name text).read name = some text := by
  have bound := Fs.bound_openTrunc (Fs.empty : Fs N) name
  have blank := Fs.content_openTrunc (Fs.empty : Fs N) name
  have written := Fs.content_writeAt_length (Fs.empty.openTrunc name).2
    (Fs.empty.openTrunc name).1 text
  rw [blank] at written
  have shown : (oneFile name text).read name = _ := Fs.read_of_bound bound
  exact shown.trans (congrArg some written)

end Webengine.Library.Files
