/- source: backend/src/ProcessUtil.cpp (spawn)
   digest: Who has which descriptor open while calls of proc::spawn are under way: what each call
   has opened and not closed, and its child. -/

import Webengine.Control.Descriptors
import Webengine.Library.Tables

set_option autoImplicit false
set_option relaxedAutoImplicit false

namespace Webengine.Control.Holders

open Webengine.Engine.Roles (Str)
open Webengine.Control.Host (Errno Spawned)
open Webengine.Control.Spawning (Ending)
open Webengine.Control.Descriptors
open Webengine.Library.Runs
open Webengine.Library.Tables

/-- The descriptor a call has open as this end. -/
def fdOf : Phase → End → Option Nat
  | .piped r _, .pipeRead => some r
  | .piped _ w, .pipeWrite => some w
  | .nulled devnull, .devnull => devnull
  | .failedPiped r _ _, .pipeRead => some r
  | .failedPiped _ w _, .pipeWrite => some w
  | .failedHalf w _, .pipeWrite => some w
  | .failedNulled n _, .devnull => some n
  | .launched r _ _, .pipeRead => some r
  | .launched _ w _, .pipeWrite => some w
  | .silenced n _, .devnull => some n
  | .reading r _ _, .pipeRead => some r
  | .drained r _ _, .pipeRead => some r
  | _, _ => none

/-- The child a call has spawned and not waited for yet. -/
def pidOf : Phase → Option Nat
  | .launched _ _ pid => some pid
  | .silenced _ pid => some pid
  | .reading _ pid _ => some pid
  | .drained _ pid _ => some pid
  | .waiting pid _ => some pid
  | _ => none

variable {cmds : Nat → Command} {cmd : Command} {s s' : System} {l : List Event} {p p' : Phase}
  {o : Sys} {r : Reply} {k k' : Kernel} {c : Nat}

section Engine

/-- The marks of the descriptors that calls have opened. -/
def mark (i : Nat × End) : File := .of i.1 i.2

private theorem mark_injective : Function.Injective mark := by
  rintro ⟨c, e⟩ ⟨c', e'⟩ same
  cases same
  rfl

def holdings (calls : Nat → Phase) (i : Nat × End) : Option Nat := fdOf (calls i.1) i.2

private theorem holdings_update (calls : Nat → Phase) (c : Nat) {p : Phase} {e : End}
    {x : Option Nat}
    (h : fdOf p = Function.update (fdOf (calls c)) e x) :
    holdings (Function.update calls c p) = Function.update (holdings calls) (c, e) x := by
  funext ⟨d, e'⟩
  by_cases same : d = c
  · subst same
    by_cases end_ : e' = e
    · subst end_
      simp [holdings, h]
    · simp [holdings, h, end_]
  · simp [holdings, same]

private theorem holdings_same (calls : Nat → Phase) (c : Nat) {p : Phase}
    (h : fdOf p = fdOf (calls c)) :
    holdings (Function.update calls c p) = holdings calls := by
  funext ⟨d, e⟩
  by_cases same : d = c
  · subst same
    simp [holdings, h]
  · simp [holdings, same]

private theorem holdings_update₂ (calls : Nat → Phase) (c : Nat) {p : Phase} {e e' : End}
    {x x' : Option Nat}
    (h : fdOf p = Function.update (Function.update (fdOf (calls c)) e x) e' x') :
    holdings (Function.update calls c p) =
      Function.update (Function.update (holdings calls) (c, e) x) (c, e') x' := by
  funext ⟨d, e''⟩
  by_cases same : d = c
  · subst same
    simp [holdings, h, Function.update_apply]
  · simp [holdings, same]

/-- What a step of the code opens or closes. -/
inductive Change (p p' : Phase) : Sys → Reply → Prop
  | pipe {r w : Nat} : (∀ e, fdOf p e = none) → fdOf p' = Function.update
      (Function.update (fdOf p) .pipeRead (some r)) .pipeWrite (some w) →
      Change p p' .pipe (.pipe r w)
  | null {n : Nat} : (∀ e, fdOf p e = none) →
      fdOf p' = Function.update (fdOf p) .devnull (some n) → Change p p' .openNull (.fd n)
  | close {fd : Nat} {e : End} : fdOf p e = some fd →
      fdOf p' = Function.update (fdOf p) e none → Change p p' (.close fd) .done
  | none {o : Sys} {r : Reply} : (∀ fd, o ≠ .close fd) → (∀ fd w, r ≠ .pipe fd w) →
      (∀ n, r ≠ .fd n) → fdOf p' = fdOf p → Change p p' o r

theorem change_of_goes (h : Goes cmd p o r p') : Change p p' o r := by
  cases h with
  | pipe | null => constructor <;> first | (funext e; cases e <;> rfl) | exact fun e => rfl
  | dropRead | closeRead =>
    exact .close (e := .pipeRead) rfl (by funext e; cases e <;> rfl)
  | dropWrite | closeWrite =>
    exact .close (e := .pipeWrite) rfl (by funext e; cases e <;> rfl)
  | dropNull | closeNull =>
    exact .close (e := .devnull) rfl (by funext e; cases e <;> rfl)
  | _ => exact .none (by simp) (by simp) (by simp) (by funext e; cases e <;> rfl)

theorem fds_of_answers (h : Answers c k o r k') (open_ : ∀ fd, o ≠ .close fd)
    (pipe : ∀ fd w, r ≠ .pipe fd w) (fd : ∀ n, r ≠ .fd n) : k'.fds = k.fds := by
  cases h with
  | pipe => exact absurd rfl (pipe _ _)
  | null => exact absurd rfl (fd _)
  | close n => exact absurd rfl (open_ n)
  | _ => rfl

/-- The descriptors the calls have opened are those they still use; the standard ones stay. -/
structure Owned (held : Nat × End → Option Nat) (t : Table) : Prop where
  own : Holds mark t held
  standard : ∀ fd, fd ≤ 2 → t fd = some .other

variable {held : Nat × End → Option Nat} {t : Table} {i : Nat × End} {fd : Nat}

private theorem Owned.fd_gt (h : Owned held t) (holds : held i = some fd) : 2 < fd := by
  by_contra small
  have other := h.standard fd (by omega)
  rw [(h.own fd i).mpr holds] at other
  cases other

private theorem standard_update (h : ∀ fd, fd ≤ 2 → t fd = some .other) {x : Option File}
    (big : 2 < fd) :
    ∀ fd', fd' ≤ 2 → Function.update t fd x fd' = some .other := by
  intro fd' small
  have apart : fd' ≠ fd := by omega
  rw [Function.update_of_ne apart]
  exact h fd' small

theorem Owned.free_gt (h : Owned held t) (free : t fd = none) : 2 < fd := by
  by_contra small
  have other := h.standard fd (by omega)
  rw [free] at other
  cases other

theorem Owned.take (h : Owned held t) (free : t fd = none) (empty : held i = none) :
    Owned (Function.update held i (some fd)) (Function.update t fd (some (mark i))) :=
  ⟨h.own.take mark_injective free empty, standard_update h.standard (h.free_gt free)⟩

theorem Owned.give (h : Owned held t) (holds : held i = some fd) :
    Owned (Function.update held i none) (Function.update t fd none) :=
  ⟨h.own.give mark_injective holds, standard_update h.standard (h.fd_gt holds)⟩

theorem Owned.unmarked (h : Owned held t) {x : Option File} (before : ∀ i, t fd ≠ some (mark i))
    (after : ∀ i, x ≠ some (mark i)) (big : 2 < fd) : Owned held (Function.update t fd x) :=
  ⟨h.own.unmarked before after, standard_update h.standard big⟩

theorem Owned.answered (h : Owned (holdings s.calls) s.kernel.fds)
    (change : Change (s.calls c) p o r) (answers : Answers c s.kernel o r k) :
    Owned (holdings (Function.update s.calls c p)) k.fds := by
  cases change with
  | @pipe rd wr empty now =>
    cases answers with
    | pipe freeR freeW apart =>
      have first := h.take freeR (i := (c, .pipeRead)) (empty .pipeRead)
      have still : Function.update s.kernel.fds rd (some (mark (c, .pipeRead))) wr = none := by
        rw [Function.update_of_ne (Ne.symm apart)]
        exact freeW
      have none_ : Function.update (holdings s.calls) (c, .pipeRead) (some rd) (c, .pipeWrite) =
          none := by
        rw [Function.update_of_ne (by simp)]
        exact empty .pipeWrite
      rw [holdings_update₂ s.calls c now]
      exact first.take still none_
  | null empty now =>
    cases answers with
    | null free =>
      rw [holdings_update s.calls c now]
      exact h.take free (i := (c, .devnull)) (empty .devnull)
  | close holds now =>
    cases answers with
    | close fd =>
      rw [holdings_update s.calls c now]
      exact h.give (i := (c, _)) holds
  | none notClose notPipe notFd now =>
    rw [holdings_same s.calls c now, fds_of_answers answers notClose notPipe notFd]
    exact h

theorem fds_of_moves {pid : Nat} {q : Proc} {m : Move} (h : Moves k pid q m k') :
    k'.fds = k.fds := by
  cases h with
  | write fd text => exact k.written_fds _ _
  | _ => rfl

theorem Owned.step {a : Event} (h : Owned (holdings s.calls) s.kernel.fds)
    (next : Step cmds s a s') : Owned (holdings s'.calls) s'.kernel.fds := by
  cases next with
  | sys sys answers resumed =>
    exact h.answered (change_of_goes (goes_of_resume sys resumed)) answers
  | proc known alive moves =>
    rw [fds_of_moves moves]
    exact h
  | opens free => exact h.unmarked (by simp [free]) (by simp [mark]) (h.free_gt free)
  | closes other big => exact h.unmarked (by simp [other, mark]) (by simp) big

/-- At any time of a run the calls own what they have open. -/
theorem owned (h : Reaches cmds l s) : Owned (holdings s.calls) s.kernel.fds := by
  refine h.induction (J := fun _ s => Owned (holdings s.calls) s.kernel.fds)
    (fun s fresh => ⟨fun fd i => ?_, fresh.standard⟩) fun l s a s' _ before next => before.step next
  have nothing : holdings s.calls i = none := by rw [holdings, fresh.calls]; rfl
  rw [nothing]
  refine iff_of_false (fun marked => ?_) (by simp)
  cases fresh.fds fd _ marked

end Engine

section Children

/-- Whose child each process is, if the engine has spawned it. -/
def ownerOf (q : Proc) : Option Nat := if q.child then some q.call else none

def children (procs : Nat → Option Proc) (pid : Nat) : Option (Option Nat) :=
  (procs pid).map ownerOf

def awaited (calls : Nat → Phase) (c : Nat) : Option Nat := pidOf (calls c)

private theorem children_update (procs : Nat → Option Proc) (pid : Nat) (x : Option Proc) :
    children (Function.update procs pid x) =
      Function.update (children procs) pid (x.map ownerOf) := by
  funext pid'
  by_cases same : pid' = pid
  · subst same
    simp [children]
  · simp [children, same]

private theorem children_same {procs : Nat → Option Proc} {pid : Nat} {x : Option Proc}
    (h : x.map ownerOf = children procs pid) :
    children (Function.update procs pid x) = children procs := by
  rw [children_update, h, Function.update_eq_self]

private theorem awaited_update (calls : Nat → Phase) (c : Nat) (p : Phase) :
    awaited (Function.update calls c p) = Function.update (awaited calls) c (pidOf p) := by
  funext d
  by_cases same : d = c
  · subst same
    simp [awaited]
  · simp [awaited, same]

/-- What a step of the code does about its child. -/
inductive Turn (p p' : Phase) : Sys → Reply → Prop
  | spawned {actions : List Action} {pid : Nat} : pidOf p = none → pidOf p' = some pid →
      Turn p p' (.posixSpawnp actions) (.pid pid)
  | reaped {pid : Nat} {ending : Ending} : pidOf p = some pid → pidOf p' = none →
      Turn p p' (.waitpid pid) (.reaped ending)
  | failed {pid : Nat} {e : Errno} : pidOf p = some pid → Turn p p' (.waitpid pid) (.failed e)
  | none {o : Sys} {r : Reply} : (∀ pid, r ≠ .pid pid) → (∀ ending, r ≠ .reaped ending) →
      pidOf p' = pidOf p → Turn p p' o r

private theorem turn_of_goes (h : Goes cmd p o r p') : Turn p p' o r := by
  cases h with
  | launch | silence | plain => exact .spawned rfl rfl
  | reap => exact .reaped rfl rfl
  | waitFailed => exact .failed rfl
  | _ => exact .none (by simp) (by simp) rfl

/-- Each child the engine has to wait for is that of the one call that waits for it. It is so while
SIGCHLD is not ignored. -/
abbrev Parented (s : System) : Prop := Holds some (children s.kernel.procs) (awaited s.calls)

theorem Parented.child (h : Parented s) {pid : Nat} (waits : pidOf (s.calls c) = some pid) :
    ∃ q, s.kernel.procs pid = some q ∧ q.child = true ∧ q.call = c := by
  have marked : children s.kernel.procs pid = some (some c) := (h pid c).mpr waits
  obtain ⟨q, known, owner⟩ := Option.map_eq_some_iff.mp marked
  unfold ownerOf at owner
  split at owner
  · rename_i child
    exact ⟨q, known, child, Option.some.inj owner⟩
  · cases owner

private theorem procs_of_answers (h : Answers c k o r k') (pid : ∀ pid, r ≠ .pid pid)
    (reaped : ∀ ending, r ≠ .reaped ending) : k'.procs = k.procs := by
  cases h with
  | spawn => exact absurd rfl (pid _)
  | reaped => exact absurd rfl (reaped _)
  | _ => rfl

theorem Parented.answered (h : Parented s) (turn : Turn (s.calls c) p o r)
    (answers : Answers c s.kernel o r k) : Parented ⟨Function.update s.calls c p, k⟩ := by
  unfold Parented
  rw [awaited_update]
  cases turn with
  | spawned before now =>
    cases answers with
    | spawn free =>
      rw [children_update, now]
      exact h.take (Option.some_injective _) (by rw [children, free]; rfl) before
  | @reaped pid ending before now =>
    cases answers with
    | reaped known child ended =>
      rw [children_update, now]
      exact h.give (Option.some_injective _) before
  | failed before =>
    cases answers with
    | noChild e none_ =>
      obtain ⟨q, known, child, -⟩ := h.child before
      rw [none_ q known] at child
      cases child
  | none notPid notReaped same =>
    have kept : Function.update (awaited s.calls) c (pidOf p) = awaited s.calls := by
      rw [same]
      exact Function.update_eq_self c (awaited s.calls)
    rw [kept, procs_of_answers answers notPid notReaped]
    exact h

theorem Parented.moved (h : Parented s) (heeds : s.kernel.ignored = false) {pid : Nat} {q : Proc}
    {m : Move} (known : s.kernel.procs pid = some q) (moves : Moves s.kernel pid q m k) :
    Parented ⟨s.calls, k⟩ := by
  have setFds : ∀ t, Parented ⟨s.calls, s.kernel.setFds pid q t⟩ := by
    intro t
    have same : children (s.kernel.setFds pid q t).procs = children s.kernel.procs :=
      children_same (by rw [children, known]; rfl)
    unfold Parented
    rw [same]
    exact h
  cases moves with
  | write fd text =>
    unfold Parented
    rw [Kernel.written_procs]
    exact h
  | close | openFile | redirect | dup2 => exact setFds _
  | fork free =>
    unfold Parented
    rw [children_update]
    refine h.unmarked (fun c => ?_) fun c => ?_
    · rw [children, free]
      simp
    · simp [ownerOf]
  | exit ending =>
    unfold Parented
    by_cases child : q.child = true
    · have same : (s.kernel.left q ending).map ownerOf = children s.kernel.procs pid := by
        rw [children, known, Kernel.left, if_pos ⟨child, heeds⟩]
        rfl
      rw [children_same same]
      exact h
    · rw [children_update]
      refine h.unmarked (fun c => ?_) fun c => ?_
      · rw [children, known]
        simp [ownerOf, child]
      · simp [Kernel.left, child]

private theorem parented (h : Reaches cmds l s) (heeds : s.kernel.ignored = false) :
    Parented s := by
  refine h.induction (J := fun _ s => s.kernel.ignored = false → Parented s)
    (fun s fresh _ pid c => ?_) (fun l s a s' _ before next heeds => ?_) heeds
  · rw [children, fresh.procs, awaited, fresh.calls]
    simp [pidOf]
  · have heeded : s.kernel.ignored = false := (ignored_of_step next).symm.trans heeds
    cases next with
    | sys sys answers resumed =>
      exact (before heeded).answered (turn_of_goes (goes_of_resume sys resumed)) answers
    | proc known alive moves => exact (before heeded).moved heeded known moves
    | opens free => exact before heeded
    | closes other big => exact before heeded

theorem child_of_wait (reached : Reaches cmds l s) (heeds : s.kernel.ignored = false) {pid : Nat}
    {r : Reply} (next : Step cmds s (.sys c (.waitpid pid) r) s') :
    ∃ q, s.kernel.procs pid = some q ∧ q.child = true ∧ q.call = c := by
  cases next with
  | sys sys answers resumed =>
    have goes := goes_of_resume sys resumed
    have waits : pidOf (s.calls c) = some pid := by
      generalize s.calls c = q at goes
      cases goes <;> rfl
    exact (parented reached heeds).child waits

end Children

section Calls

/-- A read is for 512 bytes. -/
def Fits : Reply → Prop
  | .bytes text => text.length ≤ 512
  | _ => True

private theorem fits_of_answers (h : Answers c k o r k') : Fits r := by
  cases h with
  | read open_ there nonempty fits => exact fits
  | eof => exact Nat.zero_le _
  | _ => trivial

/-- A step of the code alone. -/
def CodeStep (cmd : Command) (p : Phase) (x : Sys × Reply) (p' : Phase) : Prop :=
  Goes cmd p x.1 x.2 p' ∧ Fits x.2

/-- The system calls of a call, with their answers. -/
def madeBy (c : Nat) : Event → Option (Sys × Reply)
  | .sys d o r => if d = c then some (o, r) else none
  | _ => none

def made (c : Nat) (l : List Event) : List (Sys × Reply) := l.filterMap (madeBy c)

private theorem madeBy_sys (d : Nat) (o : Sys) (r : Reply) :
    madeBy c (.sys d o r) = if d = c then some (o, r) else none := rfl

private theorem madeBy_eq_some {a : Event} {x : Sys × Reply} :
    madeBy c a = some x ↔ a = .sys c x.1 x.2 := by
  obtain ⟨o, r⟩ := x
  cases a with
  | sys d o' r' =>
    rw [madeBy_sys]
    by_cases same : d = c <;> simp [same]
  | _ => simp [madeBy]

theorem mem_made : (o, r) ∈ made c l ↔ .sys c o r ∈ l := by
  simp [made, List.mem_filterMap, madeBy_eq_some]

theorem codeRun (h : Reaches cmds l s) :
    Run (CodeStep (cmds c)) .begun (made c l) (s.calls c) := by
  obtain ⟨s₀, fresh, run⟩ := h
  rw [← fresh.calls c]
  refine Run.project (fun s => s.calls c) (madeBy c) (fun s a x s' next mine => ?_)
    (fun s a s' next others => ?_) run
  · rw [madeBy_eq_some] at mine
    subst mine
    cases next with
    | @sys _ _ _ p _ sys answers resumed =>
      have goes := goes_of_resume sys resumed
      rw [← Function.update_self c p s.calls] at goes
      exact ⟨goes, fits_of_answers answers⟩
  · cases next with
    | @sys d o r p k sys answers resumed =>
      have apart : c ≠ d := by
        rintro rfl
        simp [madeBy_sys] at others
      exact Function.update_of_ne apart _ _
    | _ => rfl

theorem ne_begun_of_goes (h : Goes cmd p o r p') : p' ≠ .begun := by
  cases h <;> simp

theorem made_of_begun (h : Reaches cmds l s) (begun : s.calls c = .begun) : made c l = [] := by
  have run := codeRun (c := c) h
  rw [begun] at run
  generalize made c l = rs at run
  cases run with
  | nil => rfl
  | snoc before next => exact absurd rfl (ne_begun_of_goes next.1)

/-- The call has spawned its child, and is not about to. -/
def Past : Phase → Prop
  | .launched _ _ _ => True
  | .silenced _ _ => True
  | .reading _ _ _ => True
  | .drained _ _ _ => True
  | .waiting _ _ => True
  | .returned _ => True
  | _ => False

private theorem past_of_goes (h : Goes cmd p o r p') (past : Past p) : Past p' := by
  cases h <;> first | exact past.elim | trivial

theorem past_of_spawned (h : Reaches cmds l s) {actions : List Action} {pid : Nat}
    (spawned : .sys c (.posixSpawnp actions) (.pid pid) ∈ l) : Past (s.calls c) := by
  refine (codeRun (c := c) h).invariant (J := fun rs p =>
    (.posixSpawnp actions, .pid pid) ∈ rs → Past p) (fun none_ => absurd none_ List.not_mem_nil)
    (fun rs p x p' _ before next mem => ?_) (mem_made.mpr spawned)
  rcases List.mem_append.mp mem with old | new
  · exact past_of_goes next.1 (before old)
  · obtain rfl := (List.mem_singleton.mp new).symm
    have goes : Goes (cmds c) p (.posixSpawnp actions) (.pid pid) p' := next.1
    cases goes <;> trivial

theorem not_past_of_spawn {actions : List Action} {pid : Nat}
    (h : Goes cmd p (.posixSpawnp actions) (.pid pid) p') : ¬ Past p := by
  cases h <;> exact id

end Calls

end Webengine.Control.Holders
