/- source: backend/src/ProcessUtil.cpp (spawn)
   digest: Calls of proc::spawn at the same time share the descriptors of the engine: each uses and
   closes its own, none is left behind, and a capture waits for whatever was started meanwhile. -/

import Webengine.Control.Pipes

set_option autoImplicit false
set_option relaxedAutoImplicit false

namespace Webengine.Results.SharedDescriptors

open Webengine.Engine.Roles (Str)
open Webengine.Control.Host (Errno)
open Webengine.Control.Spawning (Ending)
open Webengine.Control.Descriptors
open Webengine.Control.Holders
open Webengine.Control.Pipes
open Webengine.Library.Runs

variable {cmds : Nat → Command} {s s' : System} {l : List Event} {c : Nat} {o : Sys} {r : Reply}

/-- A call uses what it has opened itself, and waits for the child it has spawned, if the engine
does not ignore SIGCHLD. -/
structure UsesOwn (c : Nat) (o : Sys) (s s' : System) : Prop where
  close : ∀ fd, o = .close fd → ∃ e, s.kernel.fds fd = some (.of c e)
  read : ∀ fd, o = .read fd → s.kernel.fds fd = some (.of c .pipeRead)
  waits : s.kernel.ignored = false → ∀ pid, o = .waitpid pid →
    ∃ q, s.kernel.procs pid = some q ∧ q.child = true ∧ q.call = c
  others : ∀ fd f, s.kernel.fds fd = some f → (∀ e, f ≠ .of c e) → s'.kernel.fds fd = some f

private theorem others_kept {p : Phase} {k : Kernel} (reached : Reaches cmds l s)
    (change : Change (s.calls c) p o r) (answers : Answers c s.kernel o r k) {fd : Nat} {f : File}
    (open_ : s.kernel.fds fd = some f) (other : ∀ e, f ≠ .of c e) : k.fds fd = some f := by
  have new : ∀ {t : Table} {n x}, t fd = some f → s.kernel.fds n = none →
      Function.update t n x fd = some f := by
    intro t n x before free
    have apart : fd ≠ n := by
      rintro rfl
      rw [open_] at free
      cases free
    rwa [Function.update_of_ne apart]
  cases change with
  | pipe =>
    cases answers with
    | pipe freeR freeW apart => exact new (new open_ freeR) freeW
  | null =>
    cases answers with
    | null free => exact new open_ free
  | @close n e holds =>
    cases answers with
    | close n =>
      have mine : s.kernel.fds n = some (.of c e) := ((owned reached).own n (c, e)).mpr holds
      have apart : fd ≠ n := by
        rintro rfl
        rw [open_] at mine
        exact other e (Option.some.inj mine)
      exact (Function.update_of_ne apart _ _).trans open_
  | none notClose notPipe notFd =>
    rwa [fds_of_answers answers notClose notPipe notFd]

private theorem usesOwn_of_step (reached : Reaches cmds l s) (next : Step cmds s (.sys c o r) s') :
    UsesOwn c o s s' := by
  cases next with
  | @sys _ _ _ p k sys answers resumed =>
    have goes := goes_of_resume sys resumed
    have change := change_of_goes goes
    refine ⟨?_, ?_, ?_, fun fd f => others_kept reached change answers⟩
    · rintro fd rfl
      cases change with
      | @close _ e holds => exact ⟨e, ((owned reached).own fd (c, e)).mpr holds⟩
      | none notClose => exact absurd rfl (notClose fd)
    · rintro fd rfl
      generalize at_ : s.calls c = q at goes
      cases goes <;> exact reads_own reached at_
    · rintro heeds pid rfl
      exact child_of_wait reached heeds (.sys sys answers resumed)

/-- The descriptors of the engine while any number of calls of `spawn` are under way, their system
calls interleaved in any way with each other, with the moves of the processes they start and with
the rest of the engine, which has its standard descriptors open. One is open for a call exactly
while the call still uses it, whichever of its system calls fail, so nothing is left open by a call
that has returned; each closes and reads only what it has opened itself, waits only for its own
child unless SIGCHLD is ignored, and leaves what others have open. -/
theorem descriptors_own (cmds : Nat → Command) (l : List Event) (s : System)
    (reached : Reaches cmds l s) :
    (∀ fd c e, s.kernel.fds fd = some (.of c e) ↔ fdOf (s.calls c) e = some fd) ∧
    (∀ c x, s.calls c = .returned x → ∀ fd e, s.kernel.fds fd ≠ some (.of c e)) ∧
    ∀ c o r s', Step cmds s (.sys c o r) s' → UsesOwn c o s s' := by
  have own : ∀ fd c e, s.kernel.fds fd = some (.of c e) ↔ fdOf (s.calls c) e = some fd :=
    fun fd c e => (owned reached).own fd (c, e)
  refine ⟨own, fun c x gone fd e open_ => ?_, fun c o r s' => usesOwn_of_step reached⟩
  have holds := (own fd c e).mp open_
  rw [gone] at holds
  cases e <;> cases holds

/-- A process that keeps the pipe of `c` from its end: one of its own family that still has it
open, or any of another family that was spawned while the write end was open. -/
def KeepsOpen (c : Nat) (l : List Event) (q : Proc) : Prop :=
  q.ended = none ∧ ((q.call = c ∧ Has q.fds (.of c .pipeWrite)) ∨
    (q.call ≠ c ∧ ∃ w, SpawnedDuring c w q.call l))

private theorem held_iff_keepsOpen (reached : Reaches cmds l s)
    (leaves : ∀ d child pid m, .proc d child pid m ∈ l → Leaves m) {fd pid : Nat} {output : Str}
    (reading : s.calls c = .reading fd pid output) :
    s.kernel.Held c ↔ ∃ pid q, s.kernel.procs pid = some q ∧ KeepsOpen c l q := by
  rw [held_iff_of_reading reached reading]
  constructor
  · rintro ⟨pid, q, known, has⟩
    refine ⟨pid, q, known, ?_, ?_⟩
    · by_contra gone
      obtain ⟨w, open_⟩ := has
      rw [empty_of_ended reached known gone] at open_
      cases open_
    · by_cases own : q.call = c
      · exact Or.inl ⟨own, has⟩
      · exact Or.inr ⟨own, spawnedDuring_of_has reached known has⟩
  · rintro ⟨pid, q, known, alive, ⟨own, has⟩ | ⟨other, w, during⟩⟩
    · exact ⟨pid, q, known, has⟩
    · exact ⟨pid, q, known, w, holds_of_spawnedDuring reached leaves during other known rfl alive⟩

/-- When a capture comes to the end of its child's output. The pipe is made without O_CLOEXEC, so
every process that any other call spawns before this one has closed its write end inherits it: the
read answers with the end of the file exactly if all that was written has been read, no process
started by its own child has it open, and every process that others have started in that time has
ended. A start that overlaps with a test of the configuration holds up the test until the server
has stopped. -/
theorem capture_ends_iff (cmds : Nat → Command) (l : List Event) (s : System)
    (reached : Reaches cmds l s) (leaves : ∀ d child pid m, .proc d child pid m ∈ l → Leaves m)
    (c fd pid : Nat) (output : Str) (reading : s.calls c = .reading fd pid output) :
    (∃ s', Step cmds s (.sys c (.read fd) (.bytes [])) s') ↔
      s.kernel.pipes c = [] ∧ ¬ ∃ pid q, s.kernel.procs pid = some q ∧ KeepsOpen c l q := by
  rw [← held_iff_keepsOpen reached leaves reading]
  have own := reads_own reached reading
  constructor
  · rintro ⟨s', next⟩
    cases next with
    | sys sys answers resumed =>
      cases answers with
      | read open_ there nonempty => exact absurd rfl nonempty
      | eof open_ empty free =>
        rw [own] at open_
        cases open_
        exact ⟨empty, free⟩
  · rintro ⟨empty, free⟩
    refine ⟨_, .sys (p := .drained fd pid output) ?_ (.eof own empty free) ?_⟩
    · rw [reading]
      rfl
    · rw [reading]
      rfl

section Instance

/-- A test of the configuration, and a start of the server. -/
def testAndStart : Nat → Command
  | 0 => ⟨["nginx".toList, "-t".toList], true⟩
  | _ => ⟨["nginx".toList], false⟩

def idle : System where
  calls _ := .begun
  kernel :=
    { fds := fun fd => if fd ≤ 2 then some .other else none
      pipes := fun _ => []
      procs := fun _ => none
      ignored := false }

theorem fresh_idle : Fresh idle where
  calls _ := rfl
  fds fd file open_ := by
    simp only [idle] at open_
    split at open_
    · exact (Option.some.inj open_).symm
    · cases open_
  standard fd small := if_pos small
  pipes _ := rfl
  procs _ := rfl

/-- The server is started after the test has made its pipe, and before it has closed its end. -/
def overlap : List Event :=
  [.sys 0 .pipe (.pipe 3 4), .sys 1 .openNull (.fd 5),
    .sys 1 (.posixSpawnp [.dup2 5 1, .close 5]) (.pid 10),
    .sys 0 (.posixSpawnp [.dup2 4 1, .dup2 4 2, .close 3, .close 4]) (.pid 11),
    .sys 0 (.close 4) .done, .proc 0 true 11 (.exit (.exited 0))]

private theorem overlap_run : ∃ s, Reaches testAndStart overlap s ∧ s.calls 0 = .reading 3 11 [] ∧
    ∃ q, s.kernel.procs 10 = some q ∧ q.call = 1 ∧ q.ended = none :=
  ⟨_, ⟨idle, fresh_idle, (((((Run.nil.snoc (.sys rfl (.pipe rfl rfl (by decide)) rfl)).snoc
    (.sys rfl (.null rfl) rfl)).snoc (.sys rfl (.spawn rfl) rfl)).snoc
    (.sys rfl (.spawn rfl) rfl)).snoc (.sys rfl (.close 4) rfl)).snoc
    (.proc (p := ⟨0, true, _, none⟩) rfl rfl (.exit (.exited 0)))⟩, by rfl,
    ⟨1, true, _, none⟩, by rfl, by rfl, by rfl⟩

/-- The theorem at that run: the child of the test has exited, and the test still waits for the
server. -/
theorem capture_ends_iff_overlap : ∃ s, Reaches testAndStart overlap s ∧
    s.calls 0 = .reading 3 11 [] ∧
      ¬ ∃ s', Step testAndStart s (.sys 0 (.read 3) (.bytes [])) s' := by
  obtain ⟨s, reached, reading, q, known, call, alive⟩ := overlap_run
  have leaves : ∀ d child pid m, .proc d child pid m ∈ overlap → Leaves m := by
    intro d child pid m mem
    simp only [overlap, List.mem_cons, List.not_mem_nil, reduceCtorEq, false_or, or_false,
      Event.proc.injEq] at mem
    obtain ⟨-, -, -, rfl⟩ := mem
    trivial
  refine ⟨s, reached, reading, ?_⟩
  rw [capture_ends_iff testAndStart overlap s reached leaves 0 3 11 [] reading]
  rintro ⟨-, nobody⟩
  have during : SpawnedDuring 0 4 1 overlap :=
    ⟨overlap.take 2, overlap.drop 3, _, 10, rfl, ⟨3, by simp [overlap]⟩, by simp [overlap]⟩
  exact nobody ⟨10, q, known, alive, Or.inr ⟨by simp [call], 4, call ▸ during⟩⟩

/-- The theorem at that run: the test has its read end open, and nothing else. -/
theorem descriptors_own_overlap : ∃ s, Reaches testAndStart overlap s ∧
    ∀ fd e, s.kernel.fds fd = some (.of 0 e) ↔ e = .pipeRead ∧ fd = 3 := by
  obtain ⟨s, reached, reading, -⟩ := overlap_run
  refine ⟨s, reached, fun fd e => ?_⟩
  rw [(descriptors_own testAndStart overlap s reached).1 fd 0 e, reading]
  cases e <;> simp [fdOf, eq_comm]

end Instance

end Webengine.Results.SharedDescriptors
