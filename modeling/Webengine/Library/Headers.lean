/- digest: Header sections of text protocols: lines ended by CR LF, fields of a name and a value,
   how they are written, and how a strict reader reads them back.
   uses: nothing of the modelled repository. -/

import Webengine.Library.Texts

set_option autoImplicit false
set_option relaxedAutoImplicit false

namespace Webengine.Library.Headers

open Webengine.Library.Texts (after cut cut_append_mark find_append_mark)

/-- A name and a value. -/
abbrev Field := List Char × List Char

/-- What may stand in no value: CR, LF and NUL. -/
def breaks (c : Char) : Bool := c ∈ ['\r', '\n', '\x00']

def Plain (s : List Char) : Prop := ∀ c ∈ s, breaks c = false

instance (s : List Char) : Decidable (Plain s) := List.decidableBAll _ s

/-- A name ends at the first colon. -/
def PlainName (s : List Char) : Prop := Plain s ∧ ':' ∉ s

instance (s : List Char) : Decidable (PlainName s) := inferInstanceAs (Decidable (_ ∧ _))

def blank (c : Char) : Bool := c ∈ [' ', '\t']

/-- The blanks around a value are no part of it. -/
def stripped (s : List Char) : List Char := (s.dropWhile blank).rdropWhile blank

/-- A field as it is read. -/
def tidy (f : Field) : Field := (f.1, stripped f.2)

section Writing

def fieldLine (f : Field) : List Char := f.1 ++ ':' :: ' ' :: f.2

def ended (l : List Char) : List Char := l ++ ['\r', '\n']

/-- A start line, a line for each field, and an empty line. -/
def writeHeader (start : List Char) (fields : List Field) : List Char :=
  ended start ++ (fields.flatMap (fun f => ended (fieldLine f)) ++ ended [])

end Writing

section Reading

/-- The text up to the first CR LF, and what follows it. -/
def line : List Char → Option (List Char × List Char)
  | [] => none
  | c :: s =>
    if c = '\r' ∧ s.head? = some '\n' then some ([], s.tail)
    else (line s).map fun r => (c :: r.1, r.2)

private theorem length_line {s l rest : List Char} (h : line s = some (l, rest)) :
    rest.length < s.length := by
  induction s generalizing l with
  | nil => cases h
  | cons c s ih =>
    rw [line] at h
    split_ifs at h
    · cases h
      simp only [List.length_tail, List.length_cons]
      omega
    · obtain ⟨⟨l', rest'⟩, later, same⟩ := Option.map_eq_some_iff.mp h
      cases same
      exact (ih later).trans (Nat.lt_succ_self _)

/-- The lines up to the first empty one, and what follows it. -/
def lines (s : List Char) : Option (List (List Char) × List Char) :=
  match _found : line s with
  | none => none
  | some (l, rest) =>
    if l = [] then some ([], rest) else (lines rest).map fun r => (l :: r.1, r.2)
termination_by s.length
decreasing_by exact length_line ‹_›

/-- A line with one of the characters no value may contain is not accepted. -/
def field (l : List Char) : Option Field :=
  if Plain l then (after [':'] l).map fun value => (cut ':' l, stripped value) else none

/-- The start line, the fields, and what follows the header section. -/
def readHeader (s : List Char) : Option (List Char × List Field × List Char) :=
  (lines s).bind fun r =>
    match r.1 with
    | [] => none
    | start :: ls => (ls.mapM field).map fun fields => (start, fields, r.2)

end Reading

section Blanks

variable {s : List Char} {c : Char}

private theorem mem_stripped (mem : c ∈ s) (solid : blank c = false) : c ∈ stripped s := by
  have front : c ∈ s.dropWhile blank := by
    rw [← List.takeWhile_append_dropWhile (p := blank) (l := s), List.mem_append] at mem
    refine mem.resolve_left fun skipped => ?_
    rw [List.mem_takeWhile_imp skipped] at solid
    cases solid
  rw [← List.rdropWhile_append_rtakeWhile (p := blank) (l := s.dropWhile blank),
    List.mem_append] at front
  refine front.resolve_right fun skipped => ?_
  rw [List.mem_rtakeWhile_imp skipped] at solid
  cases solid

private theorem mem_of_mem_stripped (mem : c ∈ stripped s) : c ∈ s :=
  (List.dropWhile_suffix _).subset ((List.rdropWhile_prefix _ _).subset mem)

private theorem solid_of_breaks (h : breaks c = true) : blank c = false := by
  simp only [breaks, List.mem_cons, List.not_mem_nil, or_false, decide_eq_true_eq] at h
  rcases h with rfl | rfl | rfl <;> rfl

theorem plain_stripped_iff : Plain (stripped s) ↔ Plain s := by
  constructor
  · intro plain c mem
    rw [Bool.eq_false_iff]
    intro bad
    have kept := plain c (mem_stripped mem (solid_of_breaks bad))
    rw [bad] at kept
    cases kept
  · exact fun plain c mem => plain c (mem_of_mem_stripped mem)

private theorem stripped_cons (h : blank c = true) : stripped (c :: s) = stripped s := by
  rw [stripped, List.dropWhile_cons_of_pos h]
  rfl

theorem stripped_of_solid (h : ∀ c ∈ s, blank c = false) : stripped s = s := by
  have front : s.dropWhile blank = s := by
    rw [List.dropWhile_eq_self_iff]
    intro nonempty
    simp [h _ (List.getElem_mem _)]
  rw [stripped, front, List.rdropWhile_eq_self_iff]
  intro nonempty
  simp [h _ (List.getLast_mem _)]

theorem stripped_stripped (s : List Char) : stripped (stripped s) = stripped s := by
  have front : (stripped s).dropWhile blank = stripped s := by
    rw [List.dropWhile_eq_self_iff]
    intro nonempty
    have whole := List.rdropWhile_prefix (p := blank) (s.dropWhile blank)
    have some_ : 0 < (s.dropWhile blank).length := nonempty.trans_le whole.length_le
    have first : (stripped s)[0] = (s.dropWhile blank)[0] := whole.getElem nonempty
    rw [first]
    have solid := List.head_dropWhile_not blank (List.ne_nil_of_length_pos some_)
    rw [List.head_eq_getElem] at solid
    simp [solid]
  rw [stripped, front, stripped, List.rdropWhile_idempotent]

end Blanks

section Lines

variable {l s rest : List Char}

private theorem line_ended (h : '\r' ∉ l) (s : List Char) : line (ended l ++ s) = some (l, s) := by
  induction l with
  | nil => rfl
  | cons c l ih =>
    rw [List.mem_cons, not_or] at h
    have later : ended (c :: l) ++ s = c :: (ended l ++ s) := rfl
    rw [later, line, if_neg fun first => h.1 first.1.symm, ih h.2]
    rfl

private theorem lines_of_line (h : line s = some (l, rest)) :
    lines s = if l = [] then some ([], rest) else (lines rest).map fun r => (l :: r.1, r.2) := by
  rw [lines]
  split
  · rename_i none_
    rw [h] at none_
    cases none_
  · rename_i l' rest' found
    rw [h] at found
    cases found
    rfl

private theorem lines_ended (plain : '\r' ∉ l) (ne : l ≠ []) (s : List Char) :
    lines (ended l ++ s) = (lines s).map fun r => (l :: r.1, r.2) := by
  rw [lines_of_line (line_ended plain s), if_neg ne]

private theorem lines_empty (s : List Char) : lines (ended [] ++ s) = some ([], s) := by
  rw [lines_of_line (line_ended List.not_mem_nil s), if_pos rfl]

private theorem head_of_lines {c : Char} {first : List Char} {ls : List (List Char)}
    (solid : c ≠ '\r')
    (h : lines (c :: s) = some (first :: ls, rest)) : first.head? = some c := by
  rw [lines] at h
  split at h
  · cases h
  · rename_i l rest' found
    rw [line, if_neg fun first => solid first.1] at found
    obtain ⟨⟨l', rest''⟩, -, same⟩ := Option.map_eq_some_iff.mp found
    cases same
    rw [if_neg (List.cons_ne_nil _ _)] at h
    obtain ⟨⟨ls', rest'''⟩, -, same⟩ := Option.map_eq_some_iff.mp h
    cases same
    rfl

end Lines

section Fields

variable {s start rest : List Char} {fields : List Field}

private theorem not_mem_of_plain (h : Plain s) : '\r' ∉ s := fun mem => Bool.noConfusion (h _ mem)

private theorem plain_fieldLine {f : Field} (name : PlainName f.1) (value : Plain f.2) :
    Plain (fieldLine f) := by
  intro c mem
  rcases List.mem_append.mp mem with inName | mem
  · exact name.1 c inName
  · rcases List.mem_cons.mp mem with rfl | mem
    · rfl
    · rcases List.mem_cons.mp mem with rfl | inValue
      · rfl
      · exact value c inValue

private theorem field_fieldLine {f : Field} (name : PlainName f.1) (value : Plain f.2) :
    field (fieldLine f) = some (tidy f) := by
  have follows : after [':'] (f.1 ++ ':' :: ' ' :: f.2) = some (' ' :: f.2) := by
    have size : f.1.length + [':'].length = (f.1 ++ [':']).length := by simp
    rw [after, find_append_mark name.2, Option.map_some, List.append_cons, size, List.drop_left]
  rw [field, if_pos (plain_fieldLine name value), fieldLine, follows, Option.map_some,
    cut_append_mark name.2, stripped_cons rfl, tidy]

private theorem plain_of_field {l : List Char} {f : Field} (h : field l = some f) : Plain f.2 := by
  rw [field] at h
  split_ifs at h with plain
  obtain ⟨value, follows, rfl⟩ := Option.map_eq_some_iff.mp h
  rw [plain_stripped_iff]
  exact fun c mem => plain c ((Texts.suffix_of_after follows).subset mem)

private theorem lines_fields (h : ∀ f ∈ fields, PlainName f.1 ∧ Plain f.2) (s : List Char) :
    lines (fields.flatMap (fun f => ended (fieldLine f)) ++ (ended [] ++ s)) =
      some (fields.map fieldLine, s) := by
  induction fields with
  | nil => exact lines_empty s
  | cons f fields ih =>
    obtain ⟨name, value⟩ := h f List.mem_cons_self
    rw [List.flatMap_cons, List.append_assoc,
      lines_ended (not_mem_of_plain (plain_fieldLine name value)) (by simp [fieldLine]),
      ih fun g hg => h g (List.mem_cons_of_mem _ hg)]
    rfl

private theorem mapM_field (h : ∀ f ∈ fields, PlainName f.1 ∧ Plain f.2) :
    (fields.map fieldLine).mapM field = some (fields.map tidy) := by
  induction fields with
  | nil => rfl
  | cons f fields ih =>
    obtain ⟨name, value⟩ := h f List.mem_cons_self
    rw [List.map_cons, List.mapM_cons, field_fieldLine name value,
      ih fun g hg => h g (List.mem_cons_of_mem _ hg)]
    rfl

/-- A header section whose names and values are plain is read back, but for blanks around the
values. -/
theorem readHeader_writeHeader (first : Plain start) (ne : start ≠ [])
    (h : ∀ f ∈ fields, PlainName f.1 ∧ Plain f.2) (rest : List Char) :
    readHeader (writeHeader start fields ++ rest) =
      some (start, fields.map tidy, rest) := by
  rw [readHeader, writeHeader, List.append_assoc, List.append_assoc,
    lines_ended (not_mem_of_plain first) ne, lines_fields h, Option.map_some, Option.bind_some]
  dsimp only
  rw [mapM_field h]
  rfl

/-- The values that are read are plain, whatever was written. -/
theorem plain_of_readHeader (h : readHeader s = some (start, fields, rest)) :
    ∀ f ∈ fields, Plain f.2 := by
  obtain ⟨⟨ls, rest'⟩, -, read⟩ := Option.bind_eq_some_iff.mp h
  cases ls with
  | nil => cases read
  | cons first ls =>
    obtain ⟨fields', each, same⟩ := Option.map_eq_some_iff.mp read
    cases same
    clear read h
    induction ls generalizing fields with
    | nil =>
      cases each
      simp
    | cons l ls ih =>
      rw [List.mapM_cons] at each
      obtain ⟨f, here, each⟩ := Option.bind_eq_some_iff.mp each
      obtain ⟨later, there, same⟩ := Option.bind_eq_some_iff.mp each
      cases same
      intro g hg
      rcases List.mem_cons.mp hg with rfl | hg
      · exact plain_of_field here
      · exact ih there g hg

theorem head_of_readHeader {c : Char} (solid : c ≠ '\r')
    (h : readHeader (c :: s) = some (start, fields, rest)) : start.head? = some c := by
  obtain ⟨⟨ls, rest'⟩, found, read⟩ := Option.bind_eq_some_iff.mp h
  cases ls with
  | nil => cases read
  | cons first ls =>
    obtain ⟨fields', -, same⟩ := Option.map_eq_some_iff.mp read
    cases same
    exact head_of_lines solid found

end Fields

end Webengine.Library.Headers
