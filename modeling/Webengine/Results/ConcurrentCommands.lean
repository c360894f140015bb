/- source: backend/src/ProcessUtil.cpp (spawn)
   digest: Calls of proc::spawn at the same time: each returns what it would return alone, of its
   own child and of what the processes of that child write. -/

import Webengine.Control.Pipes
import Webengine.Results.ChildOutcomes
import Webengine.Results.SharedDescriptors

set_option autoImplicit false
set_option relaxedAutoImplicit false

namespace Webengine.Results.ConcurrentCommands

open Webengine.Engine.Roles (Str)
open Webengine.Control.Host (Errno Spawned strerror)
open Webengine.Control
open Webengine.Control.Spawning (Ending Fd ReadReply WaitReply World readRound waitRound chunkSize
  startError spawn exitCode Undisturbed taken collected waited)
open Webengine.Control.Descriptors
open Webengine.Control.Holders
open Webengine.Control.Pipes
open Webengine.Library.Rounds
open Webengine.Library.Runs
open Webengine.Results.ChildOutcomes (Reports)
open Webengine.Results.SharedDescriptors (testAndStart idle fresh_idle)

section Worlds

def pipeError : Sys × Reply → Option Errno
  | (.pipe, .failed e) => some e
  | _ => none

def spawnError : Sys × Reply → Option Errno
  | (.posixSpawnp _, .failed e) => some e
  | _ => none

def nullOpened : Sys × Reply → Bool
  | (.openNull, .fd _) => true
  | _ => false

def readReply : Sys × Reply → Option ReadReply
  | (.read _, .bytes text) => some (.data text.length)
  | (.read _, .interrupted) => some .interrupted
  | (.read _, .failed e) => some (.failed e)
  | _ => none

def waitReply : Sys × Reply → Option WaitReply
  | (.waitpid _, .reaped _) => some .reaped
  | (.waitpid _, .interrupted) => some .interrupted
  | (.waitpid _, .failed e) => some (.failed e)
  | _ => none

def endingOf : Sys × Reply → Option Ending
  | (.waitpid _, .reaped ending) => some ending
  | _ => none

/-- What a call alone would have met with these answers, and this written to its pipe. -/
def worldOf (rs : List (Sys × Reply)) (writes : List (Fd × Str)) : World where
  pipe := rs.findSome? pipeError
  devnull := rs.any nullOpened
  spawnp := rs.findSome? spawnError
  writes := writes
  ending := (rs.findSome? endingOf).getD (.exited 0)
  reads := rs.filterMap readReply
  waits := rs.filterMap waitReply

/-- What an event writes to the pipe of `c`, and as which descriptor. -/
def writeOf (c : Nat) : Event → Option (Fd × Str)
  | .proc _ _ _ (.write fd (some (.of d .pipeWrite)) text) =>
    if d = c then some (if fd = stderr then .stderr else .stdout, text) else none
  | _ => none

/-- What the call `c` has met, as if it were alone. -/
def world (c : Nat) (l : List Event) : World := worldOf (made c l) (l.filterMap (writeOf c))

private theorem wrote_world (c : Nat) (l : List Event) : (world c l).wrote = sent c l := by
  have each : ∀ a, ((writeOf c a).toList.flatMap fun x =>
      if x.1 = .stdout ∨ x.1 = .stderr then x.2 else []) = sentBy c a := by
    intro a
    cases a with
    | proc d child pid m =>
      cases m with
      | write fd file text =>
        rcases file with _ | (_ | ⟨d', e⟩)
        · rfl
        · rfl
        · cases e with
          | pipeWrite =>
            by_cases same : d' = c
            · by_cases err : fd = stderr <;> simp [writeOf, sentBy, same, err]
            · simp [writeOf, sentBy, same]
          | _ => rfl
      | _ => rfl
    | _ => rfl
  change (l.filterMap (writeOf c)).flatMap _ = l.flatMap (sentBy c)
  induction l with
  | nil => rfl
  | cons a l ih =>
    rw [List.flatMap_cons, ← each a, ← ih]
    cases h : writeOf c a <;> simp [h]

end Worlds

section Code

variable {cmd : Command} {rs : List (Sys × Reply)} {p p' : Phase} {output : Str}

/-- The call has been told that nothing more is written. -/
def AtEof (rs : List (Sys × Reply)) : Prop := ∃ fd, (.read fd, .bytes []) ∈ rs

/-- The reads so far have taken the output, and go on. -/
def Taking (rs : List (Sys × Reply)) (output : Str) : Prop :=
  ∀ rest more, rounds readRound (output ++ rest, []) (rs.filterMap readReply ++ more) =
    rounds readRound (rest, output) more

/-- The reads have taken the output, and ended. -/
def Taken (rs : List (Sys × Reply)) (output : Str) : Prop :=
  ∀ rest, (AtEof rs → rest = []) →
    rounds readRound (output ++ rest, []) (rs.filterMap readReply) = some output

/-- The waits so far were interrupted. -/
def Waiting (rs : List (Sys × Reply)) : Prop :=
  ∀ ending more, rounds (waitRound ending) 0 (rs.filterMap waitReply ++ more) =
    rounds (waitRound ending) 0 more

/-- What a call has met so far without an error. -/
structure Clean (rs : List (Sys × Reply)) : Prop where
  pipe : rs.findSome? pipeError = none
  spawn : rs.findSome? spawnError = none
  ending : rs.findSome? endingOf = none

/-- What the answers say where the code is. -/
def Stands (cmd : Command) (rs : List (Sys × Reply)) : Phase → Prop
  | .begun => rs = []
  | .piped _ _ => cmd.capture = true ∧ Clean rs ∧ Taking rs [] ∧ Waiting rs
  | .nulled _ => cmd.capture = false ∧ Clean rs ∧ Waiting rs
  | .failedPiped _ _ e => cmd.capture = true ∧ rs.findSome? pipeError = none ∧
      rs.findSome? spawnError = some e
  | .failedHalf _ e => cmd.capture = true ∧ rs.findSome? pipeError = none ∧
      rs.findSome? spawnError = some e
  | .failedNulled _ e => cmd.capture = false ∧ rs.findSome? spawnError = some e
  | .launched _ _ _ => cmd.capture = true ∧ Clean rs ∧ Taking rs [] ∧ Waiting rs
  | .silenced _ _ => cmd.capture = false ∧ Clean rs ∧ Waiting rs
  | .reading _ _ output => cmd.capture = true ∧ Clean rs ∧ Taking rs output ∧ Waiting rs
  | .drained _ _ output => cmd.capture = true ∧ Clean rs ∧ Taken rs output ∧ Waiting rs
  | .waiting _ output => Clean rs ∧ (cmd.capture = true → Taken rs output) ∧
      (cmd.capture = false → output = []) ∧ Waiting rs
  | .returned x => ∀ writes rest, (worldOf rs writes).wrote = x.output ++ rest →
      (AtEof rs → rest = []) → spawn cmd.argv cmd.capture (worldOf rs writes) = some x

theorem Clean.snoc (h : Clean rs) {x : Sys × Reply} (pipe : pipeError x = none)
    (spawn : spawnError x = none) (ending : endingOf x = none) : Clean (rs ++ [x]) :=
  ⟨by simp [h.pipe, pipe], by simp [h.spawn, spawn], by simp [h.ending, ending]⟩

theorem Taking.other (h : Taking rs output) {x : Sys × Reply} (other : readReply x = none) :
    Taking (rs ++ [x]) output := by
  intro rest more
  simpa [other] using h rest more

theorem Waiting.other (h : Waiting rs) {x : Sys × Reply} (other : waitReply x = none) :
    Waiting (rs ++ [x]) := by
  intro ending more
  simpa [other] using h ending more

theorem Waiting.interrupted (h : Waiting rs) (pid : Nat) :
    Waiting (rs ++ [(.waitpid pid, .interrupted)]) := by
  intro ending more
  have again := h ending (.interrupted :: more)
  rw [rounds_cons_inl (f := waitRound ending) (s := 0) (r := .interrupted) rfl] at again
  simpa [waitReply] using again

theorem Taking.bytes (h : Taking rs output) {fd : Nat} {text : Str} (nonempty : text ≠ [])
    (fits : text.length ≤ 512) :
    Taking (rs ++ [(.read fd, .bytes text)]) (output ++ text) := by
  intro rest more
  have before := h (text ++ rest) (.data text.length :: more)
  have pos : 0 < text.length := List.length_pos_iff.mpr nonempty
  have size : chunkSize text.length = text.length := by
    unfold chunkSize
    omega
  have round : readRound (text ++ rest, output) (.data text.length) =
      .inl (rest, output ++ text) := by
    simp [readRound, nonempty, size]
  rw [rounds_cons_inl round] at before
  simpa [readReply] using before

theorem Taking.eof (h : Taking rs output) (fd : Nat) :
    Taken (rs ++ [(.read fd, .bytes [])]) output := by
  intro rest ended
  obtain rfl := ended ⟨fd, by simp⟩
  have last := h [] [.data 0]
  rw [show rounds readRound ([], output) [ReadReply.data 0] = some output from rfl] at last
  simpa [readReply] using last

theorem Taking.fails (h : Taking rs output) {x : Sys × Reply} {reply : ReadReply}
    (shown : readReply x = some reply) (fails : reply.fails = true) :
    Taken (rs ++ [x]) output := by
  intro rest _
  have last := h rest [reply]
  have round : readRound (rest, output) reply = .inr output := by
    cases reply with
    | data n => cases fails
    | _ => rfl
  rw [rounds_cons_inr round] at last
  simpa [shown] using last

theorem Taken.other (h : Taken rs output) {x : Sys × Reply} (other : readReply x = none) :
    Taken (rs ++ [x]) output := by
  intro rest ended
  have before := h rest fun ⟨fd, mem⟩ => ended ⟨fd, List.mem_append_left _ mem⟩
  simpa [other] using before

private theorem stands_failure {e : Errno}
    (pipe : cmd.capture = true → rs.findSome? pipeError = none)
    (spawn_ : rs.findSome? spawnError = some e) :
    Stands cmd rs (.returned (cmd.spawnFailure e)) := by
  intro writes rest _ _
  refine Spawning.spawn_of_startError ?_
  have noPipe : (if cmd.capture then (worldOf rs writes).pipe else none) = none := by
    split
    · rename_i capture
      exact pipe capture
    · rfl
  have failed : (worldOf rs writes).spawnp = some e := spawn_
  simp only [startError, noPipe, failed]

private theorem stands_waited {x : Sys × Reply} {status : Nat} (clean : Clean rs)
    (taken_ : cmd.capture = true → Taken rs output) (silent : cmd.capture = false → output = [])
    (waiting : Waiting rs) (noPipe : pipeError x = none) (noSpawn : spawnError x = none)
    (noRead : readReply x = none) {reply : WaitReply} (waits : waitReply x = some reply)
    (last : waitRound ((endingOf x).getD (.exited 0)) 0 reply = .inr status) :
    Stands cmd (rs ++ [x]) (.returned ⟨exitCode status, output, []⟩) := by
  intro writes rest wrote ended
  have started : Spawning.Started cmd.capture (worldOf (rs ++ [x]) writes) :=
    ⟨fun _ => by simp [worldOf, clean.pipe, noPipe], by simp [worldOf, clean.spawn, noSpawn]⟩
  have text : collected cmd.capture (worldOf (rs ++ [x]) writes) = some output := by
    cases capture : cmd.capture with
    | false => rw [silent capture]; rfl
    | true =>
      have took := (taken_ capture).other noRead rest ended
      rw [← wrote, ← Spawning.piped_eq_wrote] at took
      exact took
  have gone : waited (worldOf (rs ++ [x]) writes) = some status := by
    have ends := waiting ((endingOf x).getD (.exited 0)) [reply]
    rw [rounds_cons_inr last] at ends
    simpa [waited, worldOf, clean.ending, waits] using ends
  rw [Spawning.spawn_of_started started, text, Option.bind_some, gone, Option.map_some]

private theorem stands_of_goes (before : Stands cmd rs p) {o : Sys} {r : Reply}
    (goes : Goes cmd p o r p')
    (fits : Fits r) : Stands cmd (rs ++ [(o, r)]) p' := by
  cases goes with
  | pipe rd wr capture =>
    obtain rfl : rs = [] := before
    exact ⟨capture, ⟨rfl, rfl, rfl⟩, fun rest more => rfl, fun ending more => rfl⟩
  | noPipe e capture =>
    obtain rfl : rs = [] := before
    intro writes rest _ _
    refine Spawning.spawn_of_startError ?_
    simp [startError, capture, worldOf, pipeError]
  | null n silent =>
    obtain rfl : rs = [] := before
    exact ⟨silent, ⟨rfl, rfl, rfl⟩, fun ending more => rfl⟩
  | noNull e silent =>
    obtain rfl : rs = [] := before
    exact ⟨silent, ⟨rfl, rfl, rfl⟩, fun ending more => rfl⟩
  | launch rd wr pid =>
    obtain ⟨capture, clean, taking, waiting⟩ := before
    exact ⟨capture, clean.snoc rfl rfl rfl, taking.other rfl, waiting.other rfl⟩
  | noLaunch rd wr e =>
    obtain ⟨capture, clean, -, -⟩ := before
    exact ⟨capture, by simp [clean.pipe, pipeError], by simp [clean.spawn, spawnError]⟩
  | silence n pid =>
    obtain ⟨silent, clean, waiting⟩ := before
    exact ⟨silent, clean.snoc rfl rfl rfl, waiting.other rfl⟩
  | noSilence n e =>
    obtain ⟨silent, clean, -⟩ := before
    exact ⟨silent, by simp [clean.spawn, spawnError]⟩
  | plain pid =>
    obtain ⟨silent, clean, waiting⟩ := before
    exact ⟨clean.snoc rfl rfl rfl, fun capture => absurd capture (Bool.eq_false_iff.mp silent),
      fun _ => rfl, waiting.other rfl⟩
  | noPlain e =>
    obtain ⟨silent, clean, -⟩ := before
    exact stands_failure (fun capture => absurd capture (Bool.eq_false_iff.mp silent))
      (by simp [clean.spawn, spawnError])
  | dropRead rd wr e =>
    obtain ⟨capture, noPipe, failed⟩ := before
    exact ⟨capture, by simp [noPipe, pipeError], by simp [failed]⟩
  | dropWrite wr e =>
    obtain ⟨capture, noPipe, failed⟩ := before
    exact stands_failure (fun _ => by simp [noPipe, pipeError]) (by simp [failed])
  | dropNull n e =>
    obtain ⟨silent, failed⟩ := before
    exact stands_failure (fun capture => absurd capture (Bool.eq_false_iff.mp silent))
      (by simp [failed])
  | closeWrite rd wr pid =>
    obtain ⟨capture, clean, taking, waiting⟩ := before
    exact ⟨capture, clean.snoc rfl rfl rfl, taking.other rfl, waiting.other rfl⟩
  | closeNull n pid =>
    obtain ⟨silent, clean, waiting⟩ := before
    exact ⟨clean.snoc rfl rfl rfl, fun capture => absurd capture (Bool.eq_false_iff.mp silent),
      fun _ => rfl, waiting.other rfl⟩
  | read rd pid output nonempty =>
    obtain ⟨capture, clean, taking, waiting⟩ := before
    exact ⟨capture, clean.snoc rfl rfl rfl, taking.bytes nonempty fits, waiting.other rfl⟩
  | eof rd pid output =>
    obtain ⟨capture, clean, taking, waiting⟩ := before
    exact ⟨capture, clean.snoc rfl rfl rfl, taking.eof rd, waiting.other rfl⟩
  | readInterrupted rd pid output =>
    obtain ⟨capture, clean, taking, waiting⟩ := before
    exact ⟨capture, clean.snoc rfl rfl rfl, taking.fails rfl rfl, waiting.other rfl⟩
  | readFailed rd pid output e =>
    obtain ⟨capture, clean, taking, waiting⟩ := before
    exact ⟨capture, clean.snoc rfl rfl rfl, taking.fails rfl rfl, waiting.other rfl⟩
  | closeRead rd pid output =>
    obtain ⟨capture, clean, took, waiting⟩ := before
    exact ⟨clean.snoc rfl rfl rfl, fun _ => took.other rfl,
      fun silent => absurd capture (Bool.eq_false_iff.mp silent), waiting.other rfl⟩
  | reap pid output ending =>
    obtain ⟨clean, took, silent, waiting⟩ := before
    exact stands_waited clean took silent waiting rfl rfl rfl rfl rfl
  | waitInterrupted pid output =>
    obtain ⟨clean, took, silent, waiting⟩ := before
    exact ⟨clean.snoc rfl rfl rfl, fun capture => (took capture).other rfl, silent,
      waiting.interrupted pid⟩
  | waitFailed pid output e =>
    obtain ⟨clean, took, silent, waiting⟩ := before
    exact stands_waited clean took silent waiting rfl rfl rfl rfl rfl

end Code

section Children

variable {cmds : Nat → Command} {s s' : System} {l : List Event} {c : Nat}

private theorem ended_of_moves {k k' : Kernel} {pid pid' : Nat} {q q' : Proc} {m : Move}
    {ending : Ending}
    (alive : q.ended = none) (moves : Moves k pid q m k') (known' : k'.procs pid' = some q')
    (gone : q'.ended = some ending) : k.procs pid' = some q' ∨
      (pid' = pid ∧ m = .exit ending ∧ q'.call = q.call ∧ q.child = true) := by
  have changed : ∀ {at_ x}, Function.update k.procs at_ x pid' = some q' →
      (∀ q', x = some q' → q'.ended = none) → k.procs pid' = some q' := by
    intro at_ x after living
    by_cases same : pid' = at_
    · subst same
      rw [Function.update_self] at after
      rw [living q' after] at gone
      cases gone
    · rwa [Function.update_of_ne same] at after
  cases moves with
  | write fd text =>
    rw [Kernel.written_procs] at known'
    exact Or.inl known'
  | fork free => exact Or.inl (changed known' fun q'' same => by cases same; exact alive)
  | exit ending' =>
    by_cases same : pid' = pid
    · subst same
      change Function.update k.procs pid' (k.left q ending') pid' = _ at known'
      rw [Function.update_self] at known'
      unfold Kernel.left at known'
      split at known'
      · rename_i kept
        cases known'
        cases gone
        exact Or.inr ⟨rfl, rfl, rfl, kept.1⟩
      · cases known'
    · exact Or.inl ((Function.update_of_ne same _ _).symm.trans known')
  | _ => exact Or.inl (changed known' fun q'' same => by cases same; exact alive)

private theorem exit_of_ended (h : Reaches cmds l s) {pid : Nat} {q : Proc} {ending : Ending}
    (known : s.kernel.procs pid = some q) (gone : q.ended = some ending) :
    .proc q.call true pid (.exit ending) ∈ l := by
  refine h.induction (J := fun l s => ∀ pid q ending, s.kernel.procs pid = some q →
    q.ended = some ending → .proc q.call true pid (.exit ending) ∈ l)
    (fun s fresh pid q ending known => ?_)
    (fun l s a s' _ before next pid q ending known gone => ?_) pid q ending known gone
  · rw [fresh.procs] at known
    cases known
  · have older : s.kernel.procs pid = some q →
        .proc q.call true pid (.exit ending) ∈ l ++ [a] := fun old =>
      List.mem_append_left _ (before pid q ending old gone)
    cases next with
    | sys sys answers resumed =>
      rcases procs_of_sys answers known with old | ⟨actions, rfl, rfl, rfl⟩
      · exact older old
      · cases gone
    | proc known₀ alive₀ moves =>
      rcases ended_of_moves alive₀ moves known gone with old | ⟨rfl, rfl, family, child⟩
      · exact older old
      · rw [family, ← child]
        simp
    | opens free => exact older known
    | closes other big => exact older known

private theorem not_ended_of_ignored (h : Reaches cmds l s) (ignored : s.kernel.ignored = true)
    {pid : Nat}
    {q : Proc} (known : s.kernel.procs pid = some q) : q.ended = none := by
  refine h.induction (J := fun _ s => s.kernel.ignored = true →
    ∀ pid q, s.kernel.procs pid = some q → q.ended = none) (fun s fresh _ pid q known => ?_)
    (fun l s a s' _ before next ignored pid q known => ?_) ignored pid q known
  · rw [fresh.procs] at known
    cases known
  · have was : s.kernel.ignored = true := (ignored_of_step next).symm.trans ignored
    cases next with
    | sys sys answers resumed =>
      rcases procs_of_sys answers known with old | ⟨actions, rfl, rfl, rfl⟩
      · exact before was pid q old
      · rfl
    | @proc pid₀ q₀ m k known₀ alive₀ moves =>
      cases ended : q.ended with
      | none => rfl
      | some ending =>
        rcases ended_of_moves alive₀ moves known ended with old | ⟨rfl, rfl, -, -⟩
        · exact ended.symm.trans (before was pid q old)
        · cases moves with
          | exit =>
            change Function.update s.kernel.procs pid (s.kernel.left q₀ ending) pid = _ at known
            rw [Function.update_self, Kernel.left, if_neg (by simp [was])] at known
            cases known
    | opens free => exact before was pid q known
    | closes other big => exact before was pid q known

private theorem ignored_before {s₁ s₂ : System} {a : Event} {post : List Event}
    (next : Step cmds s₁ a s₂) (run : Run (Step cmds) s₂ post s) :
    s₁.kernel.ignored = s.kernel.ignored :=
  ((ignored_of_run run).trans (ignored_of_step next)).symm

private theorem wait_not_failed (h : Reaches cmds l s) (heeds : s.kernel.ignored = false)
    (pid : Nat)
    (e : Errno) : .sys c (.waitpid pid) (.failed e) ∉ l := by
  intro failed
  obtain ⟨pre, post, rfl⟩ := List.append_of_mem failed
  obtain ⟨s₁, s₂, before, next, after⟩ := h.split
  obtain ⟨q, known, child, -⟩ :=
    child_of_wait before ((ignored_before next after).trans heeds) next
  cases next with
  | sys sys answers resumed =>
    cases answers with
    | noChild _ none_ =>
      rw [none_ q known] at child
      cases child

private theorem exit_of_reaped (h : Reaches cmds l s) (heeds : s.kernel.ignored = false) {pid : Nat}
    {ending : Ending} (reaped : .sys c (.waitpid pid) (.reaped ending) ∈ l) :
    .proc c true pid (.exit ending) ∈ l := by
  obtain ⟨pre, post, rfl⟩ := List.append_of_mem reaped
  obtain ⟨s₁, s₂, before, next, after⟩ := h.split
  obtain ⟨q, known, child, family⟩ :=
    child_of_wait before ((ignored_before next after).trans heeds) next
  cases next with
  | sys sys answers resumed =>
    cases answers with
    | reaped known' _ gone =>
      rw [known] at known'
      cases known'
      have exited := exit_of_ended before known gone
      rw [family] at exited
      exact List.mem_append_left _ exited

private theorem not_reaped_of_ignored (h : Reaches cmds l s) (ignored : s.kernel.ignored = true)
    (pid : Nat)
    (ending : Ending) : .sys c (.waitpid pid) (.reaped ending) ∉ l := by
  intro reaped
  obtain ⟨pre, post, rfl⟩ := List.append_of_mem reaped
  obtain ⟨s₁, s₂, before, next, after⟩ := h.split
  have was := (ignored_before next after).trans ignored
  cases next with
  | sys sys answers resumed =>
    cases answers with
    | reaped known _ gone =>
      rw [not_ended_of_ignored before was known] at gone
      cases gone

end Children

section Returns

variable {cmds : Nat → Command} {cmd : Command} {s : System} {l : List Event} {c : Nat}
  {x : Spawned} {p p' : Phase} {rs : List (Sys × Reply)}

theorem stands (h : Reaches cmds l s) : Stands (cmds c) (made c l) (s.calls c) := by
  have start : Stands (cmds c) [] .begun := rfl
  have run := codeRun (c := c) h
  exact run.invariant start fun rs p x p' _ before next => stands_of_goes before next.1 next.2

private theorem wrote_of_returned (h : Reaches cmds l s) (returned : s.calls c = .returned x) :
    (world c l).wrote = x.output ++ s.kernel.pipes c := by
  have kept := (texts h).kept c
  rw [returned] at kept
  exact (wrote_world c l).trans kept

private theorem spawn_world (h : Reaches cmds l s) (returned : s.calls c = .returned x) :
    spawn (cmds c).argv (cmds c).capture (world c l) = some x := by
  have stood := stands (c := c) h
  rw [returned] at stood
  refine stood _ (s.kernel.pipes c) (wrote_of_returned h returned) ?_
  rintro ⟨fd, eof⟩
  exact (ended h (mem_made.mp eof)).1

/-- No read of the call was interrupted or failed. -/
def ReadsOn (c : Nat) (l : List Event) : Prop :=
  ∀ fd r, .sys c (.read fd) r ∈ l → ∃ text, r = .bytes text

private theorem not_fails_of_readsOn (readsOn : ReadsOn c l) {reply : ReadReply}
    (answered : reply ∈ (world c l).reads) : reply.fails = false := by
  obtain ⟨⟨o, r⟩, mem, shown⟩ := List.mem_filterMap.mp answered
  have event := mem_made.mp mem
  cases o with
  | read fd =>
    obtain ⟨text, rfl⟩ := readsOn fd r event
    cases shown
    rfl
  | _ => cases r <;> cases shown

private theorem taken_le (before after : List ReadReply) :
    taken before ≤ taken (before ++ after) := by
  induction before with
  | nil => exact Nat.zero_le _
  | cons reply before ih =>
    cases reply with
    | data n => exact Nat.add_le_add_left ih _
    | _ => exact Nat.zero_le _

/-- A call whose reads go on takes all of the output, and its wait does not fail. -/
private theorem undisturbed_world (h : Reaches cmds l s) (heeds : s.kernel.ignored = false)
    (returned : s.calls c = .returned x)
    (readsOn : ReadsOn c l) : Undisturbed (cmds c).capture (world c l) := by
  refine ⟨fun _ e failed => ?_, fun started _ _ _ whole => ?_⟩
  · have answered : WaitReply.failed e ∈ (world c l).waits := List.mem_of_find?_eq_some failed
    obtain ⟨⟨o, r⟩, mem, shown⟩ := List.mem_filterMap.mp answered
    cases o with
    | waitpid pid =>
      cases r <;> cases shown
      exact wait_not_failed h heeds pid e (mem_made.mp mem)
    | _ => cases shown
  · have gone := spawn_world h returned
    rw [whole] at gone started
    obtain ⟨output, status, took, -, -⟩ := Spawning.exists_of_spawn started gone
    obtain ⟨before, reply, after, reads, last⟩ :=
      Spawning.isSome_collected_iff.mp (Option.isSome_of_mem took)
    have goesOn : reply.fails = false := not_fails_of_readsOn readsOn (by simp [reads])
    rw [goesOn] at last
    rw [reads]
    exact (last.resolve_left (by simp)).trans (taken_le before (reply :: after))

/-- The child that a call has spawned is the one it waits for, or has been reaped. -/
def Minds (rs : List (Sys × Reply)) (p : Phase) : Prop :=
  ∀ actions pid, (.posixSpawnp actions, .pid pid) ∈ rs → pidOf p = some pid ∨
    ∃ x, p = .returned x ∧ ((∃ e, (.waitpid pid, .failed e) ∈ rs ∧ x.code = exitCode 0) ∨
      ∃ ending, (.waitpid pid, .reaped ending) ∈ rs ∧ x.code = exitCode ending.status)

private theorem minds_of_goes (before : Minds rs p) {o : Sys} {r : Reply}
    (goes : Goes cmd p o r p') :
    Minds (rs ++ [(o, r)]) p' := by
  intro actions pid spawned
  -- no call that has returned makes a system call
  have running : ∀ x, p ≠ .returned x := by
    rintro x rfl
    cases goes
  have minded : (.posixSpawnp actions, .pid pid) ∈ rs → pidOf p = some pid := fun old =>
    (before actions pid old).resolve_right fun ⟨x, gone, _⟩ => running x gone
  rcases List.mem_append.mp spawned with old | new
  · have waits := minded old
    cases goes with
    | reap pid' output ending =>
      cases waits
      exact Or.inr ⟨_, rfl, Or.inr ⟨ending, by simp, rfl⟩⟩
    | waitFailed pid' output e =>
      cases waits
      exact Or.inr ⟨_, rfl, Or.inl ⟨e, by simp, rfl⟩⟩
    | _ => cases waits <;> exact Or.inl rfl
  · cases List.mem_singleton.mp new
    cases goes <;> exact Or.inl rfl

private theorem minds (h : Reaches cmds l s) : Minds (made c l) (s.calls c) := by
  have run := codeRun (c := c) h
  exact run.invariant (J := Minds) (fun _ _ none_ => absurd none_ List.not_mem_nil)
    fun rs p x p' _ before next => minds_of_goes before next.1

/-- What the result of a call says, by whether the engine ignores SIGCHLD. -/
structure Told (cmd : Command) (ignored : Bool) (c : Nat) (l : List Event) (x : Spawned) :
    Prop where
  alone : spawn cmd.argv cmd.capture (world c l) = some x
  ending : ignored = false → ∀ actions pid, .sys c (.posixSpawnp actions) (.pid pid) ∈ l →
    ∃ ending, .proc c true pid (.exit ending) ∈ l ∧ x.code = exitCode ending.status
  unheard : ignored = true → ∀ actions pid, .sys c (.posixSpawnp actions) (.pid pid) ∈ l →
    x.code = 0
  reports : ignored = false → ReadsOn c l → Reports cmd.argv cmd.capture (world c l) x
  family : (∀ d child pid m, .proc d child pid m ∈ l → Plain m) →
    ∀ d child pid fd text, .proc d child pid (.write fd (some (.of c .pipeWrite)) text) ∈ l → d = c

end Returns

section Instance

/-- The test and the start overlap; the child of the test prints a line, and the server ends. -/
def tested : List Event :=
  [.sys 0 .pipe (.pipe 3 4), .sys 1 .openNull (.fd 5),
    .sys 1 (.posixSpawnp [.dup2 5 1, .close 5]) (.pid 10),
    .sys 0 (.posixSpawnp [.dup2 4 1, .dup2 4 2, .close 3, .close 4]) (.pid 11),
    .sys 0 (.close 4) .done, .proc 0 true 11 (.write 2 (some (.of 0 .pipeWrite)) "ok".toList),
    .proc 0 true 11 (.exit (.exited 0)), .proc 1 true 10 (.exit (.exited 1)),
    .sys 0 (.read 3) (.bytes "ok".toList), .sys 0 (.read 3) (.bytes []), .sys 0 (.close 3) .done,
    .sys 0 (.waitpid 11) (.reaped (.exited 0))]

private theorem tested_ends :
    ∃ s, Reaches testAndStart (tested.take 9) s ∧ s.kernel.ignored = false ∧
    s.calls 0 = .reading 3 11 "ok".toList ∧ s.kernel.pipes 0 = [] ∧
      s.kernel.procs 11 = some ⟨0, true, fun _ => none, some (.exited 0)⟩ ∧
        ∀ pid q, s.kernel.procs pid = some q → q.ended ≠ none := by
  refine ⟨_, ⟨idle, fresh_idle, ((((((((Run.nil.snoc
    (.sys rfl (.pipe rfl rfl (by decide)) rfl)).snoc (.sys rfl (.null rfl) rfl)).snoc
    (.sys rfl (.spawn rfl) rfl)).snoc (.sys rfl (.spawn rfl) rfl)).snoc
    (.sys rfl (.close 4) rfl)).snoc
    (.proc (p := ⟨0, true, _, none⟩) rfl rfl (.write 2 "ok".toList))).snoc
    (.proc (p := ⟨0, true, _, none⟩) rfl rfl (.exit (.exited 0)))).snoc
    (.proc (p := ⟨1, true, _, none⟩) rfl rfl (.exit (.exited 1)))).snoc
    (.sys rfl (.read (d := 0) rfl (show _ = "ok".toList ++ [] from rfl) (by decide) (by decide))
      rfl)⟩, rfl, rfl, rfl, rfl, fun pid q known => ?_⟩
  by_cases server : pid = 10
  · subst server
    cases known
    simp
  · by_cases test : pid = 11
    · subst test
      cases known
      simp
    · simp [server, test, idle] at known

private theorem tested_run : ∃ s, Reaches testAndStart tested s ∧ s.kernel.ignored = false ∧
    s.calls 0 = .returned ⟨0, "ok".toList, []⟩ := by
  obtain ⟨s, reached, heeds, reading, empty, child, gone⟩ := tested_ends
  have unheld : ¬ s.kernel.Held 0 := by
    rw [held_iff_of_reading reached reading]
    rintro ⟨pid, q, known, w, open_⟩
    rw [empty_of_ended reached known (gone pid q known)] at open_
    cases open_
  have own := reads_own reached reading
  obtain ⟨s₀, fresh, run⟩ := reached
  refine ⟨_, ⟨s₀, fresh, ((run.snoc (.sys (p := .drained 3 11 "ok".toList) ?_
    (.eof own empty unheld) ?_)).snoc (.sys (p := .waiting 11 "ok".toList) ?_ (.close 3) ?_)).snoc
    (.sys (p := .returned ⟨0, "ok".toList, []⟩) ?_ (.reaped child rfl rfl) ?_)⟩, heeds, ?_⟩
  all_goals first | rfl | (rw [reading]; rfl)

end Instance

end Webengine.Results.ConcurrentCommands
