/- source: backend/src/AuthHandler.cpp (handle_protected_file)
   digest: The rewriting of a request path into a file name: what the cuts, the index page
   and the stripped slashes do to its segments. -/

import Webengine.Engine.Gates

set_option autoImplicit false
set_option relaxedAutoImplicit false

namespace Webengine.Engine.Paths

open Webengine.Engine.Roles
open Webengine.Engine.AuthEndpoints
open Webengine.Engine.Gates (posix)
open Webengine.Library.Segments
open Webengine.Library.Texts

/-- Every segment of a path names something. -/
def Clean (path : Str) : Prop := ∀ seg ∈ segments posix path, Proper posix seg

instance (path : Str) : Decidable (Clean path) := inferInstanceAs (Decidable (∀ _ ∈ _, _))

def indexPage : Str := "index.html".toList

private theorem relativePath_append (urlPrefix rest : Str) :
    relativePath urlPrefix (urlPrefix ++ rest) =
      if rest = [] ∨ rest.getLast? = some '/' then rest ++ indexPage else rest := by
  have below : (if urlPrefix.length < (urlPrefix ++ rest).length then
      (urlPrefix ++ rest).drop urlPrefix.length else []) = rest := by
    cases rest <;> simp
  unfold relativePath
  simp only [below]
  rfl

theorem dotDot_relativePath (urlPrefix rest : Str) :
    dotDot <:+: relativePath urlPrefix (urlPrefix ++ rest) ↔ dotDot <:+: rest := by
  have index : ¬ dotDot <:+: indexPage := by decide
  rw [relativePath_append]
  split
  · rename_i h
    rcases h with rfl | h
    · simp only [List.nil_append, index, false_iff]
      decide
    · obtain ⟨dir, rfl⟩ := List.getLast?_eq_some_iff.mp h
      have slash : '/' ∉ dotDot := by decide
      rw [List.append_assoc, List.singleton_append, infix_append_mark_iff slash,
        infix_append_mark_iff slash]
      have empty : ¬ dotDot <:+: [] := by decide
      simp only [index, empty]
  · exact Iff.rfl

private theorem kept_servedPath (urlPrefix target : Str) :
    kept posix (servedPath urlPrefix target) =
      kept posix (relativePath urlPrefix (cut '?' target)) :=
  kept_dropWhile (m := posix) _

theorem up_notMem_servedPath {urlPrefix target : Str}
    (h : ¬ dotDot <:+: relativePath urlPrefix (cut '?' target)) :
    posix.up ∉ segments posix (servedPath urlPrefix target) := by
  intro mem
  have part := (mem_segments mem).2
  exact h (part.trans (List.dropWhile_suffix _).isInfix)

/-- The opened name leads below the directory that is served. -/
theorem resolve_filePath {rel : Str} (h : posix.up ∉ segments posix rel) (fsRoot : Str) :
    resolve posix (filePath fsRoot rel) = resolve posix fsRoot ++ kept posix rel := by
  unfold filePath
  split
  · rename_i slash
    obtain ⟨dir, rfl⟩ := List.getLast?_eq_some_iff.mp slash
    rw [List.dropLast_concat]
    refine (resolve_append_of_not_up (m := posix) h).trans ?_
    exact congrArg (· ++ kept posix rel) (resolve_snoc_sep (m := posix) dir).symm
  · exact resolve_append_of_not_up (m := posix) h

theorem head?_filePath {fsRoot : Str} (h : fsRoot ≠ []) (rel : Str) :
    (filePath fsRoot rel).head? = fsRoot.head? := by
  unfold filePath
  split
  · rename_i slash
    obtain ⟨dir, rfl⟩ := List.getLast?_eq_some_iff.mp slash
    rw [List.dropLast_concat]
    cases dir <;> rfl
  · cases fsRoot with
    | nil => exact absurd rfl h
    | cons c dir => rfl

private theorem clean_ends {path : Str} (h : Clean path) :
    path ≠ [] ∧ path.head? ≠ some '/' ∧ path.getLast? ≠ some '/' := by
  have hempty : [] ∉ segments posix path := fun mem => (h [] mem).1 rfl
  refine ⟨?_, ?_, ?_⟩
  · rintro rfl
    exact hempty (by decide)
  · intro hhead
    obtain ⟨rest, rfl⟩ := List.head?_eq_some_iff.mp hhead
    apply hempty
    have split := segments_append (m := posix) [] rest
    rw [List.nil_append] at split
    refine split ▸ List.mem_append_left _ ?_
    simp [segments]
  · intro hlast
    obtain ⟨dir, rfl⟩ := List.getLast?_eq_some_iff.mp hlast
    apply hempty
    have split := segments_append (m := posix) dir []
    refine split ▸ List.mem_append_right _ ?_
    simp [segments]

private theorem kept_index {rest : Str} (h : rest = [] ∨ rest.getLast? = some '/') :
    kept posix (rest ++ indexPage) ≠ [] := by
  have index : kept posix indexPage ≠ [] := by decide
  rcases h with rfl | h
  · exact index
  · obtain ⟨dir, rfl⟩ := List.getLast?_eq_some_iff.mp h
    rw [List.append_assoc, List.singleton_append]
    have split := kept_append (m := posix) dir indexPage
    exact split ▸ List.append_ne_nil_of_right_ne_nil _ index

/-- The canonical form of the served path is the path below the prefix iff that path is
clean: then nothing is stripped, added or dropped. -/
theorem canonical_servedPath_iff {urlPrefix rest target : Str}
    (h : cut '?' target = urlPrefix ++ rest) :
    canonical posix (servedPath urlPrefix target) = rest ↔ Clean rest := by
  have same : canonical posix (servedPath urlPrefix target) =
      canonical posix (relativePath urlPrefix (urlPrefix ++ rest)) := by
    rw [canonical, canonical, kept_servedPath, h]
  rw [same, relativePath_append]
  split
  · rename_i dir
    -- a canonical spelling is clean, and the path of a directory is not
    have unclean : ¬ Clean rest := fun clean =>
      not_or.mpr ⟨(clean_ends clean).1, (clean_ends clean).2.2⟩ dir
    refine iff_of_false (fun eq => unclean ?_) unclean
    intro seg hseg
    rw [← eq, segments_canonical (kept_index dir)] at hseg
    exact proper_of_mem_kept hseg
  · rename_i file
    exact canonical_eq_self_iff (m := posix) (not_or.mp file).1

end Webengine.Engine.Paths
