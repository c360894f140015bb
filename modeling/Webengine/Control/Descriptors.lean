/- source: backend/src/ProcessUtil.cpp (spawn)
   digest: Calls of proc::spawn at the same time, system call by system call: the descriptors of
   the engine that all of them share, and what its children inherit of them. -/

import Webengine.Control.Spawning
import Webengine.Library.Runs

set_option autoImplicit false
set_option relaxedAutoImplicit false

namespace Webengine.Control.Descriptors

open Webengine.Engine.Roles (Str)
open Webengine.Control.Host (Errno Spawned strerror)
open Webengine.Control.Spawning (Ending exitCode)
open Webengine.Library.Runs

/-- What a call opens. -/
inductive End
  | pipeRead
  | pipeWrite
  | devnull
  deriving DecidableEq

/-- What a descriptor is open on: an end that the call `c` has opened, or anything else. -/
inductive File
  | other
  | of (c : Nat) (e : End)
  deriving DecidableEq

/-- The descriptors of a process. -/
abbrev Table := Nat → Option File

def stdout : Nat := 1

def stderr : Nat := 2

/-- `posix_spawn_file_actions_t`. -/
inductive Action
  | dup2 (fd target : Nat)
  | close (fd : Nat)

def Action.apply (t : Table) : Action → Table
  | .dup2 fd target => Function.update t target (t fd)
  | .close fd => Function.update t fd none

/-- The system calls of a call. -/
inductive Sys
  | pipe
  | openNull
  | posixSpawnp (actions : List Action)
  | close (fd : Nat)
  | read (fd : Nat)
  | waitpid (pid : Nat)

/-- Their answers; `interrupted` is EINTR. -/
inductive Reply
  | pipe (r w : Nat)
  | fd (n : Nat)
  | pid (pid : Nat)
  | done
  | bytes (text : Str)
  | reaped (ending : Ending)
  | interrupted
  | failed (e : Errno)

structure Command where
  argv : List Str
  capture : Bool

def pipeFailure (e : Errno) : Spawned := ⟨-1, [], "pipe() failed: ".toList ++ strerror e⟩

def Command.spawnFailure (cmd : Command) (e : Errno) : Spawned :=
  ⟨-1, [], "posix_spawnp(".toList ++ cmd.argv.headD [] ++ ") failed: ".toList ++ strerror e⟩

/-- Where a call is, with its local variables. -/
inductive Phase
  | begun
  | piped (r w : Nat)
  | nulled (devnull : Option Nat)
  | failedPiped (r w : Nat) (e : Errno)
  | failedHalf (w : Nat) (e : Errno)
  | failedNulled (n : Nat) (e : Errno)
  | launched (r w pid : Nat)
  | silenced (n pid : Nat)
  | reading (r pid : Nat) (output : Str)
  | drained (r pid : Nat) (output : Str)
  | waiting (pid : Nat) (output : Str)
  | returned (result : Spawned)

/-- The system call it makes next. -/
def Phase.sys (cmd : Command) : Phase → Option Sys
  | .begun => some (if cmd.capture then .pipe else .openNull)
  | .piped r w => some (.posixSpawnp [.dup2 w stdout, .dup2 w stderr, .close r, .close w])
  | .nulled (some n) => some (.posixSpawnp [.dup2 n stdout, .close n])
  | .nulled none => some (.posixSpawnp [])
  | .failedPiped r _ _ => some (.close r)
  | .failedHalf w _ => some (.close w)
  | .failedNulled n _ => some (.close n)
  | .launched _ w _ => some (.close w)
  | .silenced n _ => some (.close n)
  | .reading r _ _ => some (.read r)
  | .drained r _ _ => some (.close r)
  | .waiting pid _ => some (.waitpid pid)
  | .returned _ => none

/-- How it goes on from the answer. -/
def Phase.resume (cmd : Command) : Phase → Reply → Option Phase
  | .begun, .pipe r w => if cmd.capture then some (.piped r w) else none
  | .begun, .fd n => if cmd.capture then none else some (.nulled (some n))
  | .begun, .failed e => some (if cmd.capture then .returned (pipeFailure e) else .nulled none)
  | .piped r w, .pid pid => some (.launched r w pid)
  | .piped r w, .failed e => some (.failedPiped r w e)
  | .nulled (some n), .pid pid => some (.silenced n pid)
  | .nulled (some n), .failed e => some (.failedNulled n e)
  | .nulled none, .pid pid => some (.waiting pid [])
  | .nulled none, .failed e => some (.returned (cmd.spawnFailure e))
  | .failedPiped _ w e, .done => some (.failedHalf w e)
  | .failedHalf _ e, .done => some (.returned (cmd.spawnFailure e))
  | .failedNulled _ e, .done => some (.returned (cmd.spawnFailure e))
  | .launched r _ pid, .done => some (.reading r pid [])
  | .silenced _ pid, .done => some (.waiting pid [])
  | .reading r pid output, .bytes text =>
    some (if text = [] then .drained r pid output else .reading r pid (output ++ text))
  | .reading r pid output, .interrupted => some (.drained r pid output)
  | .reading r pid output, .failed _ => some (.drained r pid output)
  | .drained _ pid output, .done => some (.waiting pid output)
  | .waiting _ output, .reaped ending => some (.returned ⟨exitCode ending.status, output, []⟩)
  | .waiting pid output, .interrupted => some (.waiting pid output)
  | .waiting _ output, .failed _ => some (.returned ⟨exitCode 0, output, []⟩)
  | _, _ => none

/-- A process that descends from the child of the call `call`. That of a child that has ended
stays until the engine waits for it, unless the engine ignores SIGCHLD. -/
structure Proc where
  call : Nat
  child : Bool
  fds : Table
  ended : Option Ending

/-- What the calls share: the descriptors of the engine, what was written to their pipes and not
read yet, and the processes; and whether the engine ignores SIGCHLD. -/
structure Kernel where
  fds : Table
  pipes : Nat → Str
  procs : Nat → Option Proc
  ignored : Bool

/-- Some process has the write end of the pipe of `c` open. -/
def Kernel.Held (k : Kernel) (c : Nat) : Prop :=
  (∃ fd, k.fds fd = some (.of c .pipeWrite)) ∨
    ∃ pid p fd, k.procs pid = some p ∧ p.fds fd = some (.of c .pipeWrite)

/-- What the system does and answers when the call `c` makes a system call. A read waits while the
pipe is empty and held, and the wait for a child until it has ended; it fails once there is no
such child. -/
inductive Answers (c : Nat) (k : Kernel) : Sys → Reply → Kernel → Prop
  | pipe {r w : Nat} : k.fds r = none → k.fds w = none → r ≠ w →
      Answers c k .pipe (.pipe r w) { k with
        fds := Function.update (Function.update k.fds r (some (.of c .pipeRead))) w
          (some (.of c .pipeWrite))
        pipes := Function.update k.pipes c [] }
  | noPipe (e : Errno) : Answers c k .pipe (.failed e) k
  | null {n : Nat} : k.fds n = none →
      Answers c k .openNull (.fd n)
        { k with fds := Function.update k.fds n (some (.of c .devnull)) }
  | noNull (e : Errno) : Answers c k .openNull (.failed e) k
  | spawn {actions : List Action} {pid : Nat} : k.procs pid = none →
      Answers c k (.posixSpawnp actions) (.pid pid) { k with
        procs := Function.update k.procs pid
          (some ⟨c, true, actions.foldl Action.apply k.fds, none⟩) }
  | noSpawn (actions : List Action) (e : Errno) :
      Answers c k (.posixSpawnp actions) (.failed e) k
  | close (fd : Nat) :
      Answers c k (.close fd) .done { k with fds := Function.update k.fds fd none }
  | read {fd d : Nat} {text rest : Str} : k.fds fd = some (.of d .pipeRead) →
      k.pipes d = text ++ rest → text ≠ [] → text.length ≤ 512 →
      Answers c k (.read fd) (.bytes text)
        { k with pipes := Function.update k.pipes d rest }
  | eof {fd d : Nat} : k.fds fd = some (.of d .pipeRead) → k.pipes d = [] → ¬ k.Held d →
      Answers c k (.read fd) (.bytes []) k
  | readInterrupted (fd : Nat) : Answers c k (.read fd) .interrupted k
  | readFailed (fd : Nat) (e : Errno) : Answers c k (.read fd) (.failed e) k
  | reaped {pid : Nat} {p : Proc} {ending : Ending} : k.procs pid = some p → p.child = true →
      p.ended = some ending →
      Answers c k (.waitpid pid) (.reaped ending)
        { k with procs := Function.update k.procs pid none }
  | waitInterrupted (pid : Nat) : Answers c k (.waitpid pid) .interrupted k
  | noChild {pid : Nat} (e : Errno) : (∀ p, k.procs pid = some p → p.child = false) →
      Answers c k (.waitpid pid) (.failed e) k

/-- What a process does by itself. It opens a file of its own as a new descriptor, or in place of
one it has. -/
inductive Move
  | write (fd : Nat) (file : Option File) (text : Str)
  | close (fd : Nat)
  | openFile (fd : Nat)
  | redirect (target : Nat)
  | dup2 (fd target : Nat)
  | fork (pid : Nat)
  | exit (ending : Ending)

/-- What is written reaches a pipe, or nothing the calls see. -/
def Kernel.written (k : Kernel) (file : Option File) (text : Str) : Kernel :=
  match file with
  | some (.of d .pipeWrite) => { k with pipes := Function.update k.pipes d (k.pipes d ++ text) }
  | _ => k

@[simp] theorem Kernel.written_fds (k : Kernel) (file : Option File) (text : Str) :
    (k.written file text).fds = k.fds := by
  unfold Kernel.written
  split <;> rfl

@[simp] theorem Kernel.written_procs (k : Kernel) (file : Option File) (text : Str) :
    (k.written file text).procs = k.procs := by
  unfold Kernel.written
  split <;> rfl

@[simp] theorem Kernel.written_ignored (k : Kernel) (file : Option File) (text : Str) :
    (k.written file text).ignored = k.ignored := by
  unfold Kernel.written
  split <;> rfl

def Kernel.setFds (k : Kernel) (pid : Nat) (p : Proc) (t : Table) : Kernel :=
  { k with procs := Function.update k.procs pid (some { p with fds := t }) }

/-- What a process that ends leaves: a child is kept, without its descriptors, unless SIGCHLD is
ignored. -/
def Kernel.left (k : Kernel) (p : Proc) (ending : Ending) : Option Proc :=
  if p.child = true ∧ k.ignored = false then
    some { p with fds := fun _ => none, ended := some ending }
  else none

/-- The process `p` makes a move. -/
inductive Moves (k : Kernel) (pid : Nat) (p : Proc) : Move → Kernel → Prop
  | write (fd : Nat) (text : Str) :
      Moves k pid p (.write fd (p.fds fd) text) (k.written (p.fds fd) text)
  | close (fd : Nat) :
      Moves k pid p (.close fd) (k.setFds pid p (Function.update p.fds fd none))
  | openFile {fd : Nat} : p.fds fd = none →
      Moves k pid p (.openFile fd) (k.setFds pid p (Function.update p.fds fd (some .other)))
  | redirect (target : Nat) :
      Moves k pid p (.redirect target)
        (k.setFds pid p (Function.update p.fds target (some .other)))
  | dup2 (fd target : Nat) :
      Moves k pid p (.dup2 fd target)
        (k.setFds pid p (Function.update p.fds target (p.fds fd)))
  | fork {pid' : Nat} : k.procs pid' = none →
      Moves k pid p (.fork pid')
        { k with procs := Function.update k.procs pid' (some { p with child := false }) }
  | exit (ending : Ending) :
      Moves k pid p (.exit ending)
        { k with procs := Function.update k.procs pid (k.left p ending) }

/-- What happens: a system call of a call is answered, a process that descends from the child of a
call makes a move, or the rest of the engine opens or closes a descriptor of its own. -/
inductive Event
  | sys (c : Nat) (o : Sys) (r : Reply)
  | proc (c : Nat) (child : Bool) (pid : Nat) (m : Move)
  | opens (fd : Nat)
  | closes (fd : Nat)

structure System where
  calls : Nat → Phase
  kernel : Kernel

/-- The call `c` is that of the command `cmds c`. A call at its beginning may not have been made
yet. -/
inductive Step (cmds : Nat → Command) (s : System) : Event → System → Prop
  | sys {c : Nat} {o : Sys} {r : Reply} {p : Phase} {k : Kernel} :
      (s.calls c).sys (cmds c) = some o → Answers c s.kernel o r k →
      (s.calls c).resume (cmds c) r = some p →
      Step cmds s (.sys c o r) ⟨Function.update s.calls c p, k⟩
  | proc {pid : Nat} {p : Proc} {m : Move} {k : Kernel} : s.kernel.procs pid = some p →
      p.ended = none → Moves s.kernel pid p m k →
      Step cmds s (.proc p.call p.child pid m) ⟨s.calls, k⟩
  | opens {fd : Nat} : s.kernel.fds fd = none →
      Step cmds s (.opens fd) ⟨s.calls,
        { s.kernel with fds := Function.update s.kernel.fds fd (some .other) }⟩
  | closes {fd : Nat} : s.kernel.fds fd = some .other → 2 < fd →
      Step cmds s (.closes fd) ⟨s.calls,
        { s.kernel with fds := Function.update s.kernel.fds fd none }⟩

/-- No call is under way; the standard descriptors of the engine are open. -/
structure Fresh (s : System) : Prop where
  calls : ∀ c, s.calls c = .begun
  fds : ∀ fd file, s.kernel.fds fd = some file → file = .other
  standard : ∀ fd, fd ≤ 2 → s.kernel.fds fd = some .other
  pipes : ∀ c, s.kernel.pipes c = []
  procs : ∀ pid, s.kernel.procs pid = none

theorem ignored_of_step {cmds : Nat → Command} {s s' : System} {a : Event}
    (next : Step cmds s a s') : s'.kernel.ignored = s.kernel.ignored := by
  cases next with
  | sys sys answers resumed => cases answers <;> rfl
  | proc known alive moves =>
    cases moves with
    | write fd text => exact Kernel.written_ignored _ _ _
    | _ => rfl
  | opens free => rfl
  | closes other big => rfl

theorem ignored_of_run {cmds : Nat → Command} {s s' : System} {l : List Event}
    (run : Run (Step cmds) s l s') : s'.kernel.ignored = s.kernel.ignored :=
  run.invariant (J := fun _ (s' : System) => s'.kernel.ignored = s.kernel.ignored) rfl
    fun _ _ _ _ _ before next => (ignored_of_step next).trans before

/-- A run of calls from there on. -/
def Reaches (cmds : Nat → Command) (l : List Event) (s : System) : Prop :=
  ∃ s₀, Fresh s₀ ∧ Run (Step cmds) s₀ l s

theorem Reaches.induction {cmds : Nat → Command} {J : List Event → System → Prop}
    (begins : ∀ s, Fresh s → J [] s)
    (keeps : ∀ l s a s', Reaches cmds l s → J l s → Step cmds s a s' → J (l ++ [a]) s')
    {l : List Event} {s : System} (h : Reaches cmds l s) : J l s := by
  obtain ⟨s₀, fresh, run⟩ := h
  exact run.invariant (begins s₀ fresh) fun l s a s' before => keeps l s a s' ⟨s₀, fresh, before⟩

theorem Reaches.split {cmds : Nat → Command} {l l' : List Event} {a : Event} {s : System}
    (h : Reaches cmds (l ++ a :: l') s) :
    ∃ s₁ s₂, Reaches cmds l s₁ ∧ Step cmds s₁ a s₂ ∧ Run (Step cmds) s₂ l' s := by
  obtain ⟨s₀, fresh, run⟩ := h
  obtain ⟨s₁, s₂, before, next, after⟩ := run.split
  exact ⟨s₁, s₂, ⟨s₀, fresh, before⟩, next, after⟩

/-- The steps of the code, one for each answer. -/
inductive Goes (cmd : Command) : Phase → Sys → Reply → Phase → Prop
  | pipe (r w : Nat) : cmd.capture = true → Goes cmd .begun .pipe (.pipe r w) (.piped r w)
  | noPipe (e : Errno) : cmd.capture = true →
      Goes cmd .begun .pipe (.failed e) (.returned (pipeFailure e))
  | null (n : Nat) : cmd.capture = false →
      Goes cmd .begun .openNull (.fd n) (.nulled (some n))
  | noNull (e : Errno) : cmd.capture = false → Goes cmd .begun .openNull (.failed e) (.nulled none)
  | launch (r w pid : Nat) : Goes cmd (.piped r w)
      (.posixSpawnp [.dup2 w stdout, .dup2 w stderr, .close r, .close w]) (.pid pid)
      (.launched r w pid)
  | noLaunch (r w : Nat) (e : Errno) : Goes cmd (.piped r w)
      (.posixSpawnp [.dup2 w stdout, .dup2 w stderr, .close r, .close w]) (.failed e)
      (.failedPiped r w e)
  | silence (n pid : Nat) : Goes cmd (.nulled (some n))
      (.posixSpawnp [.dup2 n stdout, .close n]) (.pid pid) (.silenced n pid)
  | noSilence (n : Nat) (e : Errno) : Goes cmd (.nulled (some n))
      (.posixSpawnp [.dup2 n stdout, .close n]) (.failed e) (.failedNulled n e)
  | plain (pid : Nat) : Goes cmd (.nulled none) (.posixSpawnp []) (.pid pid) (.waiting pid [])
  | noPlain (e : Errno) : Goes cmd (.nulled none) (.posixSpawnp []) (.failed e)
      (.returned (cmd.spawnFailure e))
  | dropRead (r w : Nat) (e : Errno) :
      Goes cmd (.failedPiped r w e) (.close r) .done (.failedHalf w e)
  | dropWrite (w : Nat) (e : Errno) :
      Goes cmd (.failedHalf w e) (.close w) .done (.returned (cmd.spawnFailure e))
  | dropNull (n : Nat) (e : Errno) :
      Goes cmd (.failedNulled n e) (.close n) .done (.returned (cmd.spawnFailure e))
  | closeWrite (r w pid : Nat) : Goes cmd (.launched r w pid) (.close w) .done (.reading r pid [])
  | closeNull (n pid : Nat) : Goes cmd (.silenced n pid) (.close n) .done (.waiting pid [])
  | read (r pid : Nat) (output : Str) {text : Str} : text ≠ [] →
      Goes cmd (.reading r pid output) (.read r) (.bytes text) (.reading r pid (output ++ text))
  | eof (r pid : Nat) (output : Str) :
      Goes cmd (.reading r pid output) (.read r) (.bytes []) (.drained r pid output)
  | readInterrupted (r pid : Nat) (output : Str) :
      Goes cmd (.reading r pid output) (.read r) .interrupted (.drained r pid output)
  | readFailed (r pid : Nat) (output : Str) (e : Errno) :
      Goes cmd (.reading r pid output) (.read r) (.failed e) (.drained r pid output)
  | closeRead (r pid : Nat) (output : Str) :
      Goes cmd (.drained r pid output) (.close r) .done (.waiting pid output)
  | reap (pid : Nat) (output : Str) (ending : Ending) :
      Goes cmd (.waiting pid output) (.waitpid pid) (.reaped ending)
        (.returned ⟨exitCode ending.status, output, []⟩)
  | waitInterrupted (pid : Nat) (output : Str) :
      Goes cmd (.waiting pid output) (.waitpid pid) .interrupted (.waiting pid output)
  | waitFailed (pid : Nat) (output : Str) (e : Errno) :
      Goes cmd (.waiting pid output) (.waitpid pid) (.failed e)
        (.returned ⟨exitCode 0, output, []⟩)

theorem goes_of_resume {cmd : Command} {p p' : Phase} {o : Sys} {r : Reply}
    (next : p.sys cmd = some o) (resumed : p.resume cmd r = some p') : Goes cmd p o r p' := by
  cases p with
  | begun =>
    cases capture : cmd.capture <;>
      simp only [Phase.sys, capture, if_true, Bool.false_eq_true, if_false,
        Option.some.injEq] at next <;>
      subst next <;> cases r <;> simp [Phase.resume, capture] at resumed <;> subst resumed
    · exact .null _ capture
    · exact .noNull _ capture
    · exact .pipe _ _ capture
    · exact .noPipe _ capture
  | nulled devnull =>
    cases devnull <;> cases next <;> cases r <;> cases resumed
    · exact .plain _
    · exact .noPlain _
    · exact .silence _ _
    · exact .noSilence _ _
  | reading fd pid output =>
    cases next
    cases r with
    | bytes text =>
      by_cases empty : text = []
      · subst empty
        cases resumed
        exact .eof _ _ _
      · simp only [Phase.resume, if_neg empty, Option.some.injEq] at resumed
        subst resumed
        exact .read _ _ _ empty
    | interrupted =>
      cases resumed
      exact .readInterrupted _ _ _
    | failed e =>
      cases resumed
      exact .readFailed _ _ _ _
    | _ => cases resumed
  | returned result => cases next
  | _ =>
    cases next
    cases r <;> cases resumed <;> constructor

end Webengine.Control.Descriptors
