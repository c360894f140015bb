/- source: backend/src/ProcessUtil.cpp (spawn)
   digest: The pipes of calls of proc::spawn that are under way at the same time: who holds them,
   what is written to them and by whom, and when they come to their end. -/

import Webengine.Control.Holders

set_option autoImplicit false
set_option relaxedAutoImplicit false

namespace Webengine.Control.Pipes

open Webengine.Engine.Roles (Str)
open Webengine.Control.Host (Errno Spawned)
open Webengine.Control.Descriptors
open Webengine.Control.Holders
open Webengine.Library.Tables

variable {cmds : Nat → Command} {cmd : Command} {s s' : System} {l : List Event} {p p' : Phase}
  {o : Sys} {r : Reply} {k k' : Kernel} {c : Nat}

section Holders

/-- Some descriptor is open on the file. -/
def Has (t : Table) (f : File) : Prop := ∃ fd, t fd = some f

private theorem has_update {t : Table} {fd : Nat} {x : Option File} {f : File}
    (h : Has (Function.update t fd x) f) : Has t f ∨ x = some f := by
  obtain ⟨fd', open_⟩ := h
  by_cases same : fd' = fd
  · subst same
    rw [Function.update_self] at open_
    exact Or.inr open_
  · rw [Function.update_of_ne same] at open_
    exact Or.inl ⟨fd', open_⟩

private theorem has_actions {actions : List Action} {t : Table} {f : File}
    (h : Has (actions.foldl Action.apply t) f) : Has t f := by
  induction actions generalizing t with
  | nil => exact h
  | cons a actions ih =>
    have rest : Has (a.apply t) f := ih h
    cases a with
    | dup2 fd target =>
      rcases has_update rest with before | copied
      · exact before
      · exact ⟨fd, copied⟩
    | close fd =>
      rcases has_update rest with before | none_
      · exact before
      · cases none_

private theorem held_iff : k.Held c ↔ Has k.fds (.of c .pipeWrite) ∨
    ∃ pid q, k.procs pid = some q ∧ Has q.fds (.of c .pipeWrite) := by
  constructor
  · rintro (open_ | ⟨pid, q, fd, known, open_⟩)
    · exact Or.inl open_
    · exact Or.inr ⟨pid, q, known, fd, open_⟩
  · rintro (open_ | ⟨pid, q, known, fd, open_⟩)
    · exact Or.inl open_
    · exact Or.inr ⟨pid, q, fd, known, open_⟩

private theorem held_of_update {pid : Nat} {x : Option Proc}
    (new : ∀ q, x = some q → Has q.fds (.of c .pipeWrite) → k.Held c)
    (h : Kernel.Held { k with procs := Function.update k.procs pid x } c) : k.Held c := by
  rcases held_iff.mp h with engine | ⟨pid', q, known, has⟩
  · exact held_iff.mpr (Or.inl engine)
  · by_cases same : pid' = pid
    · subst same
      change Function.update k.procs pid' x pid' = _ at known
      rw [Function.update_self] at known
      exact new q known has
    · change Function.update k.procs pid x pid' = _ at known
      rw [Function.update_of_ne same] at known
      exact held_iff.mpr (Or.inr ⟨pid', q, known, has⟩)

/-- The process leaves what it has not opened itself as it was given it. -/
def Leaves : Move → Prop
  | .close fd => fd ≤ 2
  | .redirect target => target ≤ 2
  | .dup2 _ target => target ≤ 2
  | _ => True

/-- The process writes to its standard descriptors, and copies no others. -/
def Plain : Move → Prop
  | .write fd _ _ => fd ≤ 2
  | .dup2 fd _ => fd ≤ 2
  | _ => True

/-- What a process has from the one it was, or was forked from, before a move. -/
structure Inherits (m : Move) (q q' : Proc) : Prop where
  call : q'.call = q.call
  alive : q'.ended = none → q.ended = none
  has : ∀ c e, Has q'.fds (.of c e) → Has q.fds (.of c e)
  keeps : q'.ended = none → Leaves m → ∀ fd f, 2 < fd → q.fds fd = some f → q'.fds fd = some f
  gone : q'.ended ≠ none → q' = q ∨ ∀ fd, q'.fds fd = none
  standard : Plain m → ∀ fd c e, fd ≤ 2 → q'.fds fd = some (.of c e) →
    ∃ fd', fd' ≤ 2 ∧ q.fds fd' = some (.of c e)

theorem Inherits.refl (m : Move) (q : Proc) : Inherits m q q :=
  ⟨rfl, id, fun _ _ => id, fun _ _ _ _ _ => id, fun _ => Or.inl rfl,
    fun _ fd _ _ small open_ => ⟨fd, small, open_⟩⟩

private theorem inherits_of_moves {pid pid' : Nat} {q q' : Proc} {m : Move}
    (known : k.procs pid = some q) (alive : q.ended = none) (moves : Moves k pid q m k')
    (h : k'.procs pid' = some q') : ∃ pid₀ q₀, k.procs pid₀ = some q₀ ∧ Inherits m q₀ q' := by
  -- what the move puts in the place of a process, or adds
  have changed : ∀ {at_ x}, Function.update k.procs at_ x pid' = some q' →
      (∀ q', x = some q' → Inherits m q q') →
      ∃ pid₀ q₀, k.procs pid₀ = some q₀ ∧ Inherits m q₀ q' := by
    intro at_ x after new
    by_cases same : pid' = at_
    · subst same
      rw [Function.update_self] at after
      exact ⟨pid, q, known, new q' after⟩
    · rw [Function.update_of_ne same] at after
      exact ⟨pid', q', after, .refl m q'⟩
  have replaced : ∀ fd x, (k.setFds pid q (Function.update q.fds fd x)).procs pid' = some q' →
      (∀ c e, x = some (.of c e) → Has q.fds (.of c e)) →
      (Leaves m → ∀ f, 2 < fd → q.fds fd = some f → x = some f) →
      (Plain m → ∀ c e, x = some (.of c e) → ∃ fd', fd' ≤ 2 ∧ q.fds fd' = some (.of c e)) →
      ∃ pid₀ q₀, k.procs pid₀ = some q₀ ∧ Inherits m q₀ q' := by
    intro fd x after has keeps copies
    refine changed after fun q'' same => ?_
    cases same
    refine ⟨rfl, id, fun c e now => ?_, fun _ leaves fd' f big open_ => ?_,
      fun gone => absurd alive gone, fun plain fd' c e small open_ => ?_⟩
    · rcases has_update now with before | new
      · exact before
      · exact has c e new
    · change Function.update q.fds fd x fd' = some f
      by_cases same : fd' = fd
      · subst same
        rw [Function.update_self]
        exact keeps leaves f big open_
      · rwa [Function.update_of_ne same]
    · change Function.update q.fds fd x fd' = _ at open_
      by_cases same : fd' = fd
      · subst same
        rw [Function.update_self] at open_
        exact copies plain c e open_
      · rw [Function.update_of_ne same] at open_
        exact ⟨fd', small, open_⟩
  cases moves with
  | write fd text =>
    rw [Kernel.written_procs] at h
    exact ⟨pid', q', h, .refl _ q'⟩
  | close fd =>
    exact replaced fd _ h (by simp) (fun (small : fd ≤ 2) f big => absurd small (by omega))
      (by simp)
  | @openFile fd free =>
    refine replaced fd _ h (by simp) (fun _ f _ open_ => ?_) (by simp)
    rw [free] at open_
    cases open_
  | redirect target =>
    exact replaced target _ h (by simp)
      (fun (small : target ≤ 2) f big => absurd small (by omega)) (by simp)
  | dup2 fd target =>
    exact replaced target _ h (fun c e copied => ⟨fd, copied⟩)
      (fun (small : target ≤ 2) f big => absurd small (by omega))
      fun (small : fd ≤ 2) c e copied => ⟨fd, small, copied⟩
  | fork free =>
    refine changed h fun q'' same => ?_
    cases same
    exact ⟨rfl, id, fun _ _ => id, fun _ _ _ _ _ => id, fun gone => absurd alive gone,
      fun _ fd _ _ small open_ => ⟨fd, small, open_⟩⟩
  | exit ending =>
    refine changed h fun q'' same => ?_
    unfold Kernel.left at same
    split at same
    · cases same
      have gone : some ending ≠ none := by simp
      refine ⟨rfl, fun none_ => absurd none_ gone, fun c e has => ?_,
        fun none_ => absurd none_ gone, fun _ => Or.inr fun _ => rfl,
        fun _ fd c e _ none_ => by cases none_⟩
      obtain ⟨fd, none_⟩ := has
      cases none_
    · cases same

private theorem held_of_moves {pid : Nat} {q : Proc} {m : Move} (known : k.procs pid = some q)
    (alive : q.ended = none) (moves : Moves k pid q m k') (h : k'.Held c) : k.Held c := by
  rcases held_iff.mp h with engine | ⟨pid', q', known', has⟩
  · rw [fds_of_moves moves] at engine
    exact held_iff.mpr (Or.inl engine)
  · obtain ⟨pid₀, q₀, known₀, inherits⟩ := inherits_of_moves known alive moves known'
    exact held_iff.mpr (Or.inr ⟨pid₀, q₀, known₀, inherits.has _ _ has⟩)

private theorem held_of_answers {d : Nat} (answers : Answers d k o r k') (h : k'.Held c) :
    k.Held c ∨ (d = c ∧ o = .pipe) := by
  have engine : ∀ {fd x}, x ≠ some (.of c .pipeWrite) →
      Kernel.Held { k with fds := Function.update k.fds fd x } c → k.Held c := by
    intro fd x other held
    rcases held_iff.mp held with has | proc
    · rcases has_update has with before | now
      · exact held_iff.mpr (Or.inl before)
      · exact absurd now other
    · exact held_iff.mpr (Or.inr proc)
  cases answers with
  | pipe =>
    by_cases same : d = c
    · exact Or.inr ⟨same, rfl⟩
    · left
      rcases held_iff.mp h with has | proc
      · rcases has_update has with before | now
        · rcases has_update before with before | now
          · exact held_iff.mpr (Or.inl before)
          · cases now
        · cases now
          exact absurd rfl same
      · exact held_iff.mpr (Or.inr proc)
  | null => exact Or.inl (engine (by simp) h)
  | close fd => exact Or.inl (engine (by simp) h)
  | spawn free =>
    refine Or.inl (held_of_update (fun q same has => ?_) h)
    cases same
    exact held_iff.mpr (Or.inl (has_actions has))
  | reaped => exact Or.inl (held_of_update (fun q none_ => by cases none_) h)
  | _ => exact Or.inl h

private theorem held_of_step {a : Event} (next : Step cmds s a s') (h : s'.kernel.Held c) :
    s.kernel.Held c ∨ ∃ r, a = .sys c .pipe r := by
  cases next with
  | sys sys answers resumed =>
    rcases held_of_answers answers h with before | ⟨rfl, rfl⟩
    · exact Or.inl before
    · exact Or.inr ⟨_, rfl⟩
  | proc known alive moves => exact Or.inl (held_of_moves known alive moves h)
  | opens free =>
    left
    rcases held_iff.mp h with has | proc
    · rcases has_update has with before | now
      · exact held_iff.mpr (Or.inl before)
      · cases now
    · exact held_iff.mpr (Or.inr proc)
  | closes other big =>
    left
    rcases held_iff.mp h with has | proc
    · rcases has_update has with before | now
      · exact held_iff.mpr (Or.inl before)
      · cases now
    · exact held_iff.mpr (Or.inr proc)

end Holders

section Texts

/-- What a call has read so far. -/
def outputOf : Phase → Str
  | .reading _ _ output => output
  | .drained _ _ output => output
  | .waiting _ output => output
  | .returned result => result.output
  | _ => []

/-- What an event writes to the pipe of `c`. -/
def sentBy (c : Nat) : Event → Str
  | .proc _ _ _ (.write _ (some (.of d .pipeWrite)) text) => if d = c then text else []
  | _ => []

def sent (c : Nat) (l : List Event) : Str := l.flatMap (sentBy c)

private theorem sent_snoc (c : Nat) (l : List Event) (a : Event) :
    sent c (l ++ [a]) = sent c l ++ sentBy c a := by
  simp [sent]

/-- What was written to a pipe has been read, or is still in it. A pipe that was not made yet is
empty, and nobody holds it. -/
structure Texts (l : List Event) (s : System) : Prop where
  kept : ∀ c, sent c l = outputOf (s.calls c) ++ s.kernel.pipes c
  new : ∀ c, s.calls c = .begun → s.kernel.pipes c = [] ∧ ¬ s.kernel.Held c

private theorem output_of_goes (h : Goes cmd p o r p') (notBytes : ∀ text, r ≠ .bytes text) :
    outputOf p' = outputOf p := by
  cases h with
  | read => exact absurd rfl (notBytes _)
  | eof => exact absurd rfl (notBytes _)
  | _ => rfl

private theorem pipes_of_answers {d : Nat} (h : Answers d k o r k')
    (notPipe : ∀ fd w, r ≠ .pipe fd w)
    (notBytes : ∀ text, r ≠ .bytes text) : k'.pipes = k.pipes := by
  cases h with
  | pipe => exact absurd rfl (notPipe _ _)
  | read => exact absurd rfl (notBytes _)
  | _ => rfl

private theorem Texts.turnover (h : Texts l s) (own : Owned (holdings s.calls) s.kernel.fds)
    (goes : Goes cmd (s.calls c) o r p) (answers : Answers c s.kernel o r k) (d : Nat) :
    outputOf (Function.update s.calls c p d) ++ k.pipes d =
      outputOf (s.calls d) ++ s.kernel.pipes d := by
  have output : (∀ text, r ≠ .bytes text) →
      outputOf (Function.update s.calls c p d) = outputOf (s.calls d) := by
    intro notBytes
    by_cases same : d = c
    · subst same
      rw [Function.update_self]
      exact output_of_goes goes notBytes
    · rw [Function.update_of_ne same]
  generalize at_ : s.calls c = before at goes
  cases goes with
  | pipe rd wr capture =>
    rw [output (by simp)]
    cases answers with
    | pipe =>
      have empty := (h.new c at_).1
      have same : Function.update s.kernel.pipes c [] = s.kernel.pipes := by
        rw [← empty]
        exact Function.update_eq_self ..
      rw [same]
  | @read rd pid out text nonempty =>
    have holds : holdings s.calls (c, .pipeRead) = some rd := by
      rw [holdings, at_]
      rfl
    have mine : s.kernel.fds rd = some (.of c .pipeRead) := (own.own rd _).mpr holds
    cases answers with
    | @read _ d' _ rest open_ there =>
      rw [mine] at open_
      cases open_
      change _ ++ Function.update s.kernel.pipes c rest d = _
      by_cases same : d = c
      · subst same
        rw [Function.update_self, Function.update_self, at_, there]
        exact List.append_assoc ..
      · rw [Function.update_of_ne same, Function.update_of_ne same]
    | eof => exact absurd rfl nonempty
  | eof rd pid out =>
    have here : outputOf (Function.update s.calls c (.drained rd pid out) d) =
        outputOf (s.calls d) := by
      by_cases same : d = c
      · subst same
        rw [Function.update_self, at_]
        rfl
      · rw [Function.update_of_ne same]
    rw [here]
    cases answers with
    | read open_ there nonempty => exact absurd rfl nonempty
    | eof => rfl
  | _ => rw [output (by simp), pipes_of_answers answers (by simp) (by simp)]

theorem Texts.answered (h : Texts l s) (own : Owned (holdings s.calls) s.kernel.fds)
    (goes : Goes cmd (s.calls c) o r p) (answers : Answers c s.kernel o r k) :
    Texts (l ++ [.sys c o r]) ⟨Function.update s.calls c p, k⟩ := by
  have turnover := h.turnover own goes answers
  refine ⟨fun d => ?_, fun d begun => ?_⟩
  · rw [sent_snoc, h.kept d, turnover d]
    exact List.append_nil _
  · change Function.update s.calls c p d = .begun at begun
    have apart : d ≠ c := by
      rintro rfl
      rw [Function.update_self] at begun
      exact ne_begun_of_goes goes begun
    have still := turnover d
    rw [begun] at still
    rw [Function.update_of_ne apart] at begun
    obtain ⟨empty, free⟩ := h.new d begun
    rw [begun, empty] at still
    refine ⟨still, fun held => ?_⟩
    rcases held_of_answers answers held with before | ⟨same, -⟩
    · exact free before
    · exact apart same.symm

theorem Texts.moved (h : Texts l s) {pid : Nat} {q : Proc} {m : Move}
    (known : s.kernel.procs pid = some q) (alive : q.ended = none)
    (moves : Moves s.kernel pid q m k) :
    Texts (l ++ [.proc q.call q.child pid m]) ⟨s.calls, k⟩ := by
  have new : ∀ c, s.calls c = .begun → ¬ k.Held c := fun c begun held =>
    (h.new c begun).2 (held_of_moves known alive moves held)
  have quiet : (∀ c, sentBy c (.proc q.call q.child pid m) = []) → k.pipes = s.kernel.pipes →
      Texts (l ++ [.proc q.call q.child pid m]) ⟨s.calls, k⟩ := by
    intro silent same
    refine ⟨fun c => ?_, fun c begun => ⟨?_, new c begun⟩⟩
    · rw [sent_snoc, silent, List.append_nil, h.kept c, same]
    · rw [same]
      exact (h.new c begun).1
  cases moves with
  | write fd text =>
    generalize file : q.fds fd = x at quiet new ⊢
    cases x with
    | none => exact quiet (fun c => rfl) rfl
    | some f =>
      cases f with
      | other => exact quiet (fun c => rfl) rfl
      | of d e =>
        cases e with
        | pipeRead => exact quiet (fun c => rfl) rfl
        | devnull => exact quiet (fun c => rfl) rfl
        | pipeWrite =>
          refine ⟨fun c => ?_, fun c begun => ⟨?_, new c begun⟩⟩
          · rw [sent_snoc, h.kept c]
            by_cases same : c = d
            · subst same
              simp [sentBy, Kernel.written]
            · simp [sentBy, Kernel.written, same, Ne.symm same]
          · have apart : c ≠ d := by
              rintro rfl
              exact (h.new c begun).2 (held_iff.mpr (Or.inr ⟨pid, q, known, fd, file⟩))
            simpa [Kernel.written, apart] using (h.new c begun).1
  | _ => exact quiet (fun c => rfl) rfl

theorem texts (h : Reaches cmds l s) : Texts l s := by
  refine h.induction (J := Texts) (fun s fresh => ⟨fun c => ?_, fun c _ => ⟨fresh.pipes c, ?_⟩⟩)
    fun l s a s' reached before next => ?_
  · rw [fresh.calls, fresh.pipes]
    rfl
  · intro held
    rcases held_iff.mp held with ⟨fd, open_⟩ | ⟨pid, q, known, -⟩
    · cases fresh.fds fd _ open_
    · rw [fresh.procs] at known
      cases known
  · have holders := fun c => held_of_step (c := c) next
    cases next with
    | sys sys answers resumed =>
      exact before.answered (owned reached) (goes_of_resume sys resumed) answers
    | proc known alive moves => exact before.moved known alive moves
    | @opens fd free =>
      refine ⟨fun c => ?_, fun c begun => ⟨(before.new c begun).1, fun held => ?_⟩⟩
      · rw [sent_snoc]
        exact (List.append_nil _).trans (before.kept c)
      · rcases holders c held with earlier | ⟨r, made_⟩
        · exact (before.new c begun).2 earlier
        · cases made_
    | @closes fd other big =>
      refine ⟨fun c => ?_, fun c begun => ⟨(before.new c begun).1, fun held => ?_⟩⟩
      · rw [sent_snoc]
        exact (List.append_nil _).trans (before.kept c)
      · rcases holders c held with earlier | ⟨r, made_⟩
        · exact (before.new c begun).2 earlier
        · cases made_

end Texts

section Ends

theorem reads_own (h : Reaches cmds l s) {fd pid : Nat} {output : Str}
    (reading : s.calls c = .reading fd pid output) :
    s.kernel.fds fd = some (.of c .pipeRead) := by
  refine ((owned h).own fd (c, .pipeRead)).mpr ?_
  rw [holdings, reading]
  rfl

theorem held_iff_of_reading (h : Reaches cmds l s) {fd pid : Nat} {output : Str}
    (reading : s.calls c = .reading fd pid output) : s.kernel.Held c ↔
      ∃ pid q, s.kernel.procs pid = some q ∧ Has q.fds (.of c .pipeWrite) := by
  have closed : ¬ Has s.kernel.fds (.of c .pipeWrite) := by
    rintro ⟨w, engine⟩
    have holds := ((owned h).own w (c, .pipeWrite)).mp engine
    rw [holdings, reading] at holds
    cases holds
  rw [held_iff, or_iff_right closed]

private theorem empty_of_step {a : Event} (next : Step cmds s a s') (empty : s.kernel.pipes c = [])
    (free : ¬ s.kernel.Held c) : s'.kernel.pipes c = [] := by
  cases next with
  | @sys d o r p k sys answers resumed =>
    cases answers with
    | pipe =>
      by_cases same : c = d
      · subst same
        exact Function.update_self ..
      · exact (Function.update_of_ne same _ _).trans empty
    | @read fd d' text rest open_ there nonempty =>
      have apart : c ≠ d' := by
        rintro rfl
        rw [empty] at there
        exact nonempty (List.append_eq_nil_iff.mp there.symm).1
      exact (Function.update_of_ne apart _ _).trans empty
    | _ => exact empty
  | @proc pid q m k known alive moves =>
    cases moves with
    | write fd text =>
      change (s.kernel.written (q.fds fd) text).pipes c = []
      unfold Kernel.written
      split
      · rename_i d file
        have apart : c ≠ d := by
          rintro rfl
          exact free (held_iff.mpr (Or.inr ⟨pid, q, known, fd, file⟩))
        exact (Function.update_of_ne apart _ _).trans empty
      · exact empty
    | _ => exact empty
  | opens => exact empty
  | closes => exact empty

private theorem made_of_pipe (h : Reaches cmds l s) {r : Reply}
    (next : Step cmds s (.sys c .pipe r) s') : made c l = [] := by
  cases next with
  | sys sys answers resumed =>
    have goes := goes_of_resume sys resumed
    generalize at_ : s.calls c = p at goes
    cases goes <;> exact made_of_begun h at_

/-- Where a call has read to the end of the file, its pipe is empty and nobody holds it, from then
on. -/
theorem ended (h : Reaches cmds l s) {fd : Nat} (eof : .sys c (.read fd) (.bytes []) ∈ l) :
    s.kernel.pipes c = [] ∧ ¬ s.kernel.Held c := by
  refine h.induction (J := fun l s => ∀ c fd, .sys c (.read fd) (.bytes []) ∈ l →
    s.kernel.pipes c = [] ∧ ¬ s.kernel.Held c) (fun s _ c fd none_ => absurd none_ List.not_mem_nil)
    (fun l s a s' reached before next c fd mem => ?_) c fd eof
  rcases List.mem_append.mp mem with old | new
  · obtain ⟨empty, free⟩ := before c fd old
    refine ⟨empty_of_step next empty free, fun held => ?_⟩
    rcases held_of_step next held with earlier | ⟨r, rfl⟩
    · exact free earlier
    · have mine := mem_made.mpr old
      rw [made_of_pipe reached next] at mine
      exact absurd mine List.not_mem_nil
  · obtain rfl := (List.mem_singleton.mp new).symm
    cases next with
    | sys sys answers resumed =>
      have goes := goes_of_resume sys resumed
      generalize at_ : s.calls c = p at goes
      cases goes with
      | read _ _ _ nonempty => exact absurd rfl nonempty
      | eof _ pid output =>
        have own := reads_own reached at_
        cases answers with
        | read open_ there nonempty => exact absurd rfl nonempty
        | eof open_ empty free =>
          rw [own] at open_
          cases open_
          exact ⟨empty, free⟩

end Ends

section Windows

/-- The call `c` has made its pipe, with this write end, and not closed it yet. -/
def Open (c w : Nat) (l : List Event) : Prop :=
  (∃ r, .sys c .pipe (.pipe r w) ∈ l) ∧ .sys c (.close w) .done ∉ l

/-- The child of `d` was spawned in that time. -/
def SpawnedDuring (c w d : Nat) (l : List Event) : Prop :=
  ∃ pre post actions pid, l = pre ++ .sys d (.posixSpawnp actions) (.pid pid) :: post ∧ Open c w pre

theorem SpawnedDuring.snoc {w d : Nat} (h : SpawnedDuring c w d l) (a : Event) :
    SpawnedDuring c w d (l ++ [a]) := by
  obtain ⟨pre, post, actions, pid, rfl, window⟩ := h
  exact ⟨pre, post ++ [a], actions, pid, by simp, window⟩

private theorem open_snoc_iff {w : Nat} {a : Event} (notPipe : ∀ r, a ≠ .sys c .pipe (.pipe r w))
    (notClose : a ≠ .sys c (.close w) .done) : Open c w (l ++ [a]) ↔ Open c w l := by
  have pipe : ∀ r, .sys c .pipe (.pipe r w) ∈ l ++ [a] ↔ .sys c .pipe (.pipe r w) ∈ l := by
    intro r
    simp [Ne.symm (notPipe r)]
  have close : .sys c (.close w) .done ∈ l ++ [a] ↔ .sys c (.close w) .done ∈ l := by
    simp [Ne.symm notClose]
  simp only [Open, pipe, close]

private theorem Open.of_snoc {w : Nat} {a : Event} (h : Open c w (l ++ [a]))
    (notPipe : ∀ r, a ≠ .sys c .pipe (.pipe r w)) : Open c w l := by
  obtain ⟨⟨r, mem⟩, unclosed⟩ := h
  refine ⟨⟨r, ?_⟩, fun old => unclosed (List.mem_append_left _ old)⟩
  rcases List.mem_append.mp mem with old | new
  · exact old
  · exact absurd (List.mem_singleton.mp new).symm (notPipe r)

private theorem open_answered (reached : Reaches cmds l s) (change : Change (s.calls c) p o r)
    (before : ∀ w, fdOf (s.calls c) .pipeWrite = some w ↔ Open c w l)
    (new : o = .pipe → made c l = []) (w : Nat) :
    fdOf p .pipeWrite = some w ↔ Open c w (l ++ [.sys c o r]) := by
  cases change with
  | @pipe rd wr empty now =>
    have nothing : ∀ o r, .sys c o r ∉ l := by
      intro o r old
      have mine := mem_made.mpr old
      rw [new rfl] at mine
      exact absurd mine List.not_mem_nil
    rw [now, Function.update_self]
    constructor
    · intro same
      cases same
      exact ⟨⟨rd, by simp⟩, by simpa using nothing (.close w) .done⟩
    · rintro ⟨⟨r', mem⟩, -⟩
      rcases List.mem_append.mp mem with old | last
      · exact absurd old (nothing _ _)
      · cases List.mem_singleton.mp last
        rfl
  | null empty now =>
    rw [now, Function.update_of_ne (by simp), before w, open_snoc_iff (by simp) (by simp)]
  | @close fd e holds now =>
    by_cases write : e = .pipeWrite
    · subst write
      rw [now, Function.update_self]
      refine iff_of_false (by simp) fun still => ?_
      have same := (before w).mpr (still.of_snoc (by simp))
      rw [holds] at same
      cases same
      exact still.2 (by simp)
    · rw [now, Function.update_of_ne (Ne.symm write)]
      constructor
      · intro holds'
        have apart : fd ≠ w := by
          rintro rfl
          have marks := (((owned reached).own fd (c, e)).mpr holds).symm.trans
            (((owned reached).own fd (c, .pipeWrite)).mpr holds')
          cases marks
          exact write rfl
        exact (open_snoc_iff (by simp) (by simp [apart])).mpr ((before w).mp holds')
      · intro still
        exact (before w).mpr (still.of_snoc (by simp))
  | none notClose notPipe notFd now =>
    rw [now, before w, open_snoc_iff (by simp [notPipe]) (by simp [notClose])]

/-- A call has the write end of its pipe open from making it to closing it. -/
private theorem open_iff (h : Reaches cmds l s) {w : Nat} :
    fdOf (s.calls c) .pipeWrite = some w ↔ Open c w l := by
  refine h.induction (J := fun l s => ∀ w, fdOf (s.calls c) .pipeWrite = some w ↔ Open c w l)
    (fun s fresh w => ?_) (fun l s a s' reached before next w => ?_) w
  · rw [fresh.calls]
    refine iff_of_false (by simp [fdOf]) ?_
    rintro ⟨⟨r, none_⟩, -⟩
    exact absurd none_ List.not_mem_nil
  · cases next with
    | @sys d o r p k sys answers resumed =>
      by_cases same : d = c
      · subst same
        change fdOf (Function.update s.calls d p d) .pipeWrite = some w ↔ _
        rw [Function.update_self]
        refine open_answered reached (change_of_goes (goes_of_resume sys resumed)) before ?_ w
        rintro rfl
        exact made_of_pipe reached (.sys sys answers resumed)
      · change fdOf (Function.update s.calls d p c) .pipeWrite = some w ↔ _
        rw [Function.update_of_ne (Ne.symm same), before w,
          open_snoc_iff (by simp [same]) (by simp [same])]
    | proc known alive moves => rw [before w, open_snoc_iff (by simp) (by simp)]
    | opens free => rw [before w, open_snoc_iff (by simp) (by simp)]
    | closes other big => rw [before w, open_snoc_iff (by simp) (by simp)]

private theorem SpawnedDuring.of_snoc {w d : Nat} {a : Event} (h : SpawnedDuring c w d (l ++ [a])) :
    SpawnedDuring c w d l ∨
      ∃ actions pid, a = .sys d (.posixSpawnp actions) (.pid pid) ∧ Open c w l := by
  obtain ⟨pre, post, actions, pid, split, window⟩ := h
  rcases List.eq_nil_or_concat post with rfl | ⟨post, b, rfl⟩
  · obtain ⟨rfl, last⟩ := List.append_inj' split rfl
    exact Or.inr ⟨actions, pid, (List.cons.inj last).1, window⟩
  · rw [List.concat_eq_append, ← List.cons_append, ← List.append_assoc] at split
    obtain ⟨rfl, -⟩ := List.append_inj' split rfl
    exact Or.inl ⟨pre, post, actions, pid, rfl, window⟩

theorem SpawnedDuring.mem {w d : Nat} (h : SpawnedDuring c w d l) :
    ∃ actions pid, .sys d (.posixSpawnp actions) (.pid pid) ∈ l := by
  obtain ⟨pre, post, actions, pid, rfl, -⟩ := h
  exact ⟨actions, pid, by simp⟩

private theorem SpawnedDuring.gt {w d : Nat} (h : SpawnedDuring c w d l)
    (reached : Reaches cmds l s) :
    2 < w := by
  obtain ⟨pre, post, actions, pid, rfl, ⟨⟨r, mem⟩, -⟩⟩ := h
  obtain ⟨before, after, split⟩ := List.append_of_mem (List.mem_append_left _ mem)
  rw [split] at reached
  obtain ⟨s₁, s₂, first, next, -⟩ := reached.split
  cases next with
  | sys sys answers resumed =>
    cases answers with
    | pipe freeR freeW apart => exact (owned first).free_gt freeW

theorem procs_of_sys {d pid : Nat} {q : Proc} (answers : Answers d k o r k')
    (h : k'.procs pid = some q) :
    k.procs pid = some q ∨ ∃ actions, o = .posixSpawnp actions ∧ r = .pid pid ∧
      q = ⟨d, true, actions.foldl Action.apply k.fds, none⟩ := by
  cases answers with
  | @spawn actions pid' free =>
    change Function.update k.procs pid' _ pid = _ at h
    by_cases same : pid = pid'
    · subst same
      rw [Function.update_self] at h
      cases h
      exact Or.inr ⟨actions, rfl, rfl, rfl⟩
    · rw [Function.update_of_ne same] at h
      exact Or.inl h
  | @reaped pid' =>
    change Function.update k.procs pid' none pid = _ at h
    by_cases same : pid = pid'
    · subst same
      rw [Function.update_self] at h
      cases h
    · rw [Function.update_of_ne same] at h
      exact Or.inl h
  | _ => exact Or.inl h

private theorem spawned_of_proc (h : Reaches cmds l s) {pid : Nat} {q : Proc}
    (known : s.kernel.procs pid = some q) :
    ∃ actions pid', .sys q.call (.posixSpawnp actions) (.pid pid') ∈ l := by
  refine h.induction (J := fun l s => ∀ pid q, s.kernel.procs pid = some q →
    ∃ actions pid', .sys q.call (.posixSpawnp actions) (.pid pid') ∈ l)
    (fun s fresh pid q known => ?_) (fun l s a s' _ before next pid q known => ?_) pid q known
  · rw [fresh.procs] at known
    cases known
  · have older : ∀ pid₀ q₀, s.kernel.procs pid₀ = some q₀ → q.call = q₀.call →
        ∃ actions pid', .sys q.call (.posixSpawnp actions) (.pid pid') ∈ l ++ [a] := by
      intro pid₀ q₀ known₀ same
      obtain ⟨actions, pid', mem⟩ := before pid₀ q₀ known₀
      exact ⟨actions, pid', same ▸ List.mem_append_left _ mem⟩
    cases next with
    | sys sys answers resumed =>
      rcases procs_of_sys answers known with old | ⟨actions, rfl, rfl, rfl⟩
      · exact older pid q old rfl
      · exact ⟨actions, pid, by simp⟩
    | proc known₀ alive₀ moves =>
      obtain ⟨pid₁, q₁, known₁, inherits⟩ := inherits_of_moves known₀ alive₀ moves known
      exact older pid₁ q₁ known₁ inherits.call
    | opens free => exact older pid q known rfl
    | closes other big => exact older pid q known rfl

/-- Who holds a pipe was spawned while its call had the write end open. -/
theorem spawnedDuring_of_has (h : Reaches cmds l s) {pid : Nat} {q : Proc}
    (known : s.kernel.procs pid = some q) (has : Has q.fds (.of c .pipeWrite)) :
    ∃ w, SpawnedDuring c w q.call l := by
  refine h.induction (J := fun l s => ∀ pid q, s.kernel.procs pid = some q →
    Has q.fds (.of c .pipeWrite) → ∃ w, SpawnedDuring c w q.call l)
    (fun s fresh pid q known => ?_) (fun l s a s' reached before next pid q known has => ?_)
    pid q known has
  · rw [fresh.procs] at known
    cases known
  · have older : ∀ pid₀ q₀, s.kernel.procs pid₀ = some q₀ → q.call = q₀.call →
        Has q₀.fds (.of c .pipeWrite) → ∃ w, SpawnedDuring c w q.call (l ++ [a]) := by
      intro pid₀ q₀ known₀ same has₀
      obtain ⟨w, during⟩ := before pid₀ q₀ known₀ has₀
      exact ⟨w, same ▸ during.snoc a⟩
    cases next with
    | sys sys answers resumed =>
      rcases procs_of_sys answers known with old | ⟨actions, rfl, rfl, rfl⟩
      · exact older pid q old rfl has
      · obtain ⟨w, engine⟩ := has_actions has
        have holds : fdOf (s.calls c) .pipeWrite = some w :=
          ((owned reached).own w (c, _)).mp engine
        exact ⟨w, l, [], actions, pid, rfl, (open_iff reached).mp holds⟩
    | proc known₀ alive₀ moves =>
      obtain ⟨pid₁, q₁, known₁, inherits⟩ := inherits_of_moves known₀ alive₀ moves known
      exact older pid₁ q₁ known₁ inherits.call (inherits.has _ _ has)
    | opens free => exact older pid q known rfl has
    | closes other big => exact older pid q known rfl has

private theorem child_inherits (reached : Reaches cmds l s) {d w pid : Nat} {actions : List Action}
    (goes : Goes cmd (s.calls d) (.posixSpawnp actions) (.pid pid) p) (other : d ≠ c)
    (open_ : s.kernel.fds w = some (.of c .pipeWrite)) :
    actions.foldl Action.apply s.kernel.fds w = some (.of c .pipeWrite) := by
  have big : ∀ fd, fd ≤ 2 → w ≠ fd := by
    rintro fd small rfl
    rw [(owned reached).standard w small] at open_
    cases open_
  have apart : ∀ e fd, fdOf (s.calls d) e = some fd → w ≠ fd := by
    rintro e fd holds rfl
    have mine : s.kernel.fds w = some (.of d e) := ((owned reached).own w (d, e)).mpr holds
    rw [open_] at mine
    cases mine
    exact other rfl
  have one : w ≠ stdout := big 1 (by omega)
  have two : w ≠ stderr := big 2 (by omega)
  generalize at_ : s.calls d = q at goes apart
  cases goes with
  | launch rd wr =>
    have notRead : w ≠ rd := apart .pipeRead rd rfl
    have notWrite : w ≠ wr := apart .pipeWrite wr rfl
    simp [Action.apply, one, two, notRead, notWrite, open_]
  | silence n =>
    have notNull : w ≠ n := apart .devnull n rfl
    simp [Action.apply, one, notNull, open_]
  | plain => exact open_

/-- A process of another call that was spawned in that time holds the pipe as long as it lives,
unless it closes what it was given. -/
theorem holds_of_spawnedDuring (h : Reaches cmds l s)
    (leaves : ∀ d child pid m, .proc d child pid m ∈ l → Leaves m) {d w pid : Nat} {q : Proc}
    (during : SpawnedDuring c w d l) (other : d ≠ c) (known : s.kernel.procs pid = some q)
    (family : q.call = d) (alive : q.ended = none) : q.fds w = some (.of c .pipeWrite) := by
  refine h.induction (J := fun l s => (∀ d child pid m, .proc d child pid m ∈ l → Leaves m) →
    SpawnedDuring c w d l → ∀ pid q, s.kernel.procs pid = some q → q.call = d → q.ended = none →
      q.fds w = some (.of c .pipeWrite)) (fun s fresh _ _ pid q known => ?_)
    (fun l s a s' reached before next leaves during pid q known family alive => ?_)
    leaves during pid q known family alive
  · rw [fresh.procs] at known
    cases known
  · have leaves' : ∀ d child pid m, .proc d child pid m ∈ l → Leaves m :=
      fun d child pid m mem => leaves d child pid m (List.mem_append_left _ mem)
    have earlier : (∀ actions pid, a ≠ .sys d (.posixSpawnp actions) (.pid pid)) →
        SpawnedDuring c w d l := by
      intro notSpawn
      rcases during.of_snoc with old | ⟨actions, pid', same, -⟩
      · exact old
      · exact absurd same (notSpawn actions pid')
    cases next with
    | @sys d₀ o r p k sys answers resumed =>
      rcases procs_of_sys answers known with old | ⟨actions, rfl, rfl, rfl⟩
      · refine before leaves' ?_ pid q old family alive
        rcases during.of_snoc with old' | ⟨actions, pid', same, -⟩
        · exact old'
        · -- the family is there already, so this is no spawn of its call
          cases same
          obtain ⟨actions', pid'', mem⟩ := spawned_of_proc reached old
          rw [family] at mem
          exact absurd (past_of_spawned reached mem)
            (not_past_of_spawn (goes_of_resume sys resumed))
      · have goes := goes_of_resume sys resumed
        cases family
        rcases during.of_snoc with old | ⟨actions', pid', same, window⟩
        · obtain ⟨actions', pid', mem⟩ := old.mem
          exact absurd (past_of_spawned reached mem) (not_past_of_spawn goes)
        · have holds := (open_iff reached).mpr window
          exact child_inherits reached goes other (((owned reached).own w (c, _)).mpr holds)
    | @proc pid₀ q₀ m k known₀ alive₀ moves =>
      obtain ⟨pid₁, q₁, known₁, inherits⟩ := inherits_of_moves known₀ alive₀ moves known
      have open_ := before leaves' (earlier (by simp)) pid₁ q₁ known₁
        (inherits.call.symm.trans family) (inherits.alive alive)
      have big : 2 < w := (earlier (by simp)).gt reached
      exact inherits.keeps alive (leaves q₀.call q₀.child pid₀ m (by simp)) w _ big open_
    | opens free => exact before leaves' (earlier (by simp)) pid q known family alive
    | closes other big => exact before leaves' (earlier (by simp)) pid q known family alive

theorem empty_of_ended (h : Reaches cmds l s) {pid : Nat} {q : Proc}
    (known : s.kernel.procs pid = some q) (gone : q.ended ≠ none) : ∀ fd, q.fds fd = none := by
  refine h.induction (J := fun _ s => ∀ pid q, s.kernel.procs pid = some q → q.ended ≠ none →
    ∀ fd, q.fds fd = none) (fun s fresh pid q known => ?_)
    (fun l s a s' _ before next pid q known gone => ?_) pid q known gone
  · rw [fresh.procs] at known
    cases known
  · cases next with
    | sys sys answers resumed =>
      rcases procs_of_sys answers known with old | ⟨actions, rfl, rfl, rfl⟩
      · exact before pid q old gone
      · exact absurd rfl gone
    | proc known₀ alive₀ moves =>
      obtain ⟨pid₁, q₁, known₁, inherits⟩ := inherits_of_moves known₀ alive₀ moves known
      rcases inherits.gone gone with rfl | empty
      · exact before pid₁ q known₁ gone
      · exact empty
    | opens free => exact before pid q known gone
    | closes other big => exact before pid q known gone

end Windows

section Families

private theorem child_standard (reached : Reaches cmds l s) {d fd pid : Nat} {actions : List Action}
    (goes : Goes cmd (s.calls d) (.posixSpawnp actions) (.pid pid) p) (small : fd ≤ 2)
    (open_ : actions.foldl Action.apply s.kernel.fds fd = some (.of c .pipeWrite)) : d = c := by
  have standard := (owned reached).standard
  have own : ∀ e n, fdOf (s.calls d) e = some n → s.kernel.fds n = some (.of d e) := fun e n =>
    ((owned reached).own n (d, e)).mpr
  generalize at_ : s.calls d = q at goes own
  cases goes with
  | launch rd wr =>
    have write := own .pipeWrite wr rfl
    simp only [List.foldl_cons, List.foldl_nil, Action.apply, Function.update_apply, write,
      ite_self, standard fd small] at open_
    split_ifs at open_ <;> cases open_ <;> rfl
  | silence n =>
    have null := own .devnull n rfl
    simp only [List.foldl_cons, List.foldl_nil, Action.apply, Function.update_apply, null,
      standard fd small] at open_
    split_ifs at open_ <;> cases open_
  | plain =>
    rw [List.foldl_nil, standard fd small] at open_
    cases open_

private theorem family_of_standard (h : Reaches cmds l s)
    (plain : ∀ d child pid m, .proc d child pid m ∈ l → Plain m) {pid fd : Nat} {q : Proc}
    (known : s.kernel.procs pid = some q) (small : fd ≤ 2)
    (open_ : q.fds fd = some (.of c .pipeWrite)) : q.call = c := by
  refine h.induction (J := fun l s => (∀ d child pid m, .proc d child pid m ∈ l → Plain m) →
    ∀ pid q fd, s.kernel.procs pid = some q → fd ≤ 2 → q.fds fd = some (.of c .pipeWrite) →
      q.call = c) (fun s fresh _ pid q fd known => ?_)
    (fun l s a s' reached before next plain pid q fd known small open_ => ?_)
    plain pid q fd known small open_
  · rw [fresh.procs] at known
    cases known
  · have plain' : ∀ d child pid m, .proc d child pid m ∈ l → Plain m :=
      fun d child pid m mem => plain d child pid m (List.mem_append_left _ mem)
    cases next with
    | sys sys answers resumed =>
      rcases procs_of_sys answers known with old | ⟨actions, rfl, rfl, rfl⟩
      · exact before plain' pid q fd old small open_
      · exact child_standard reached (goes_of_resume sys resumed) small open_
    | @proc pid₀ q₀ m k known₀ alive₀ moves =>
      obtain ⟨pid₁, q₁, known₁, inherits⟩ := inherits_of_moves known₀ alive₀ moves known
      have move : Plain m := plain q₀.call q₀.child pid₀ m (by simp)
      obtain ⟨fd', small', open'⟩ := inherits.standard move fd c _ small open_
      exact inherits.call.trans (before plain' pid₁ q₁ fd' known₁ small' open')
    | opens free => exact before plain' pid q fd known small open_
    | closes other big => exact before plain' pid q fd known small open_

theorem family_of_write (h : Reaches cmds l s)
    (plain : ∀ d child pid m, .proc d child pid m ∈ l → Plain m) {d pid fd : Nat} {child : Bool}
    {text : Str} (wrote : .proc d child pid (.write fd (some (.of c .pipeWrite)) text) ∈ l) :
    d = c := by
  have small : fd ≤ 2 := plain _ _ _ _ wrote
  obtain ⟨pre, post, rfl⟩ := List.append_of_mem wrote
  obtain ⟨s₁, s₂, before, next, -⟩ := h.split
  generalize event : Event.proc d child pid (.write fd (some (.of c .pipeWrite)) text) = a at next
  cases next with
  | @proc pid₀ q m k known alive moves =>
    obtain ⟨rfl, rfl, rfl, rfl⟩ := Event.proc.inj event
    have open_ : q.fds fd = some (.of c .pipeWrite) := by
      generalize some (File.of c .pipeWrite) = file at moves
      cases moves with
      | write => rfl
    exact family_of_standard before
      (fun d child pid m mem => plain d child pid m (List.mem_append_left _ mem)) known small open_
  | _ => cases event

end Families

end Webengine.Control.Pipes
