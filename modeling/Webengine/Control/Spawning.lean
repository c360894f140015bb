/- source: backend/src/ProcessUtil.cpp
   digest: proc::spawn call by call: the descriptors the child gets, the reads of its output
   and the waits for its end, whatever each call answers. -/

import Webengine.Control.Host
import Webengine.Library.Rounds

set_option autoImplicit false
set_option relaxedAutoImplicit false

namespace Webengine.Control.Spawning

open Webengine.Engine.Roles (Str)
open Webengine.Control.Host
open Webengine.Library.Rounds

/-- The descriptors at hand. The kernel numbers the new ones above the standard ones. -/
inductive Fd
  | stdout
  | stderr
  | pipeRead
  | pipeWrite
  | devnull
  deriving DecidableEq

/-- What a descriptor is open on. -/
inductive File
  | inherited
  | pipe
  | null
  deriving DecidableEq

/-- `posix_spawn_file_actions_t`. -/
inductive Action
  | dup2 (fd target : Fd)
  | close (fd : Fd)

def Action.apply (open_ : Fd → Option File) : Action → Fd → Option File
  | .dup2 fd target => Function.update open_ target (open_ fd)
  | .close fd => Function.update open_ fd none

/-- The descriptors of the parent when it spawns the child. -/
def parentFds (capture devnull : Bool) : Fd → Option File
  | .stdout => some .inherited
  | .stderr => some .inherited
  | .pipeRead => if capture then some .pipe else none
  | .pipeWrite => if capture then some .pipe else none
  | .devnull => if !capture && devnull then some .null else none

def fileActions (capture devnull : Bool) : List Action :=
  if capture then
    [.dup2 .pipeWrite .stdout, .dup2 .pipeWrite .stderr, .close .pipeRead, .close .pipeWrite]
  else if devnull then [.dup2 .devnull .stdout, .close .devnull]
  else []

def childFds (capture devnull : Bool) : Fd → Option File :=
  (fileActions capture devnull).foldl Action.apply (parentFds capture devnull)

/-- The number of a signal that ends a process. -/
abbrev Signal := { n : Nat // 0 < n ∧ n < 127 }

/-- How a child ends. -/
inductive Ending
  | exited (code : UInt8)
  | signalled (sig : Signal) (core : Bool)

/-- The word `waitpid` fills in. -/
def Ending.status : Ending → Nat
  | .exited code => code.toNat <<< 8
  | .signalled sig core => sig.1 ||| if core then 0x80 else 0

/-- `WIFEXITED`. -/
def wifexited (status : Nat) : Bool := status &&& 0x7f = 0

/-- `WEXITSTATUS`. -/
def wexitstatus (status : Nat) : Nat := (status &&& 0xff00) >>> 8

/-- What `read` answers: as many of the next bytes as there are by then, or an error;
`interrupted` is EINTR. -/
inductive ReadReply
  | data (n : Nat)
  | interrupted
  | failed (e : Errno)

inductive WaitReply
  | reaped
  | interrupted
  | failed (e : Errno)

/-- What a call of `spawn` meets: the errors of `pipe` and `posix_spawnp`, whether /dev/null
opens, what the child writes to which descriptor until all copies of it are closed, how it
ends, and the answers of the reads and waits. -/
structure World where
  pipe : Option Errno
  devnull : Bool
  spawnp : Option Errno
  writes : List (Fd × Str)
  ending : Ending
  reads : List ReadReply
  waits : List WaitReply

variable (capture : Bool) (w : World)

/-- What goes through the pipe. -/
def World.piped : Str :=
  w.writes.flatMap fun x => if childFds capture w.devnull x.1 = some .pipe then x.2 else []

/-- What the child writes to stdout and stderr. -/
def World.wrote : Str :=
  w.writes.flatMap fun x => if x.1 = .stdout ∨ x.1 = .stderr then x.2 else []

/-- The bytes a read takes that asks for 512 and finds `n`. -/
def chunkSize (n : Nat) : Nat := max 1 (min n 512)

/-- A round of the reads, over the rest of the pipe and the output so far. At the end of file
and at any error they stop. -/
def readRound : Str × Str → ReadReply → (Str × Str) ⊕ Str
  | (rest, output), .data n =>
    if rest = [] then .inr output
    else .inl (rest.drop (chunkSize n), output ++ rest.take (chunkSize n))
  | (_, output), .interrupted => .inr output
  | (_, output), .failed _ => .inr output

/-- A round of the waits. One that fails leaves `status` as it is. -/
def waitRound (ending : Ending) (status : Nat) : WaitReply → Nat ⊕ Nat
  | .reaped => .inr ending.status
  | .interrupted => .inl status
  | .failed _ => .inr status

def collected : Option Str :=
  if capture then rounds readRound (w.piped capture, []) w.reads else some []

def waited : Option Nat := rounds (waitRound w.ending) 0 w.waits

def exitCode (status : Nat) : Int := if wifexited status then wexitstatus status else -1

/-- The error of a child that could not be spawned. -/
def startError (argv : List Str) (capture : Bool) (w : World) : Option Str :=
  match (if capture then w.pipe else none), w.spawnp with
  | some e, _ => some ("pipe() failed: ".toList ++ strerror e)
  | none, some e =>
    some ("posix_spawnp(".toList ++ argv.headD [] ++ ") failed: ".toList ++ strerror e)
  | none, none => none

/-- The call; `none` if it still waits for an answer. The caller's `errmsg` is empty. -/
def spawn (argv : List Str) (capture : Bool) (w : World) : Option Spawned :=
  match startError argv capture w with
  | some err => some ⟨-1, [], err⟩
  | none => do
    let output ← collected capture w
    let status ← waited w
    some ⟨exitCode status, output, []⟩

/-- The child was spawned. -/
def Started : Prop := (capture = true → w.pipe = none) ∧ w.spawnp = none

variable {capture : Bool} {w : World}

theorem startError_isNone_iff {argv : List Str} :
    startError argv capture w = none ↔ Started capture w := by
  unfold startError Started
  cases capture <;> cases w.pipe <;> cases w.spawnp <;> simp

section Status

private theorem wifexited_exited (code : UInt8) : wifexited (Ending.exited code).status = true := by
  have low : code.toNat <<< 8 &&& 0x7f = (code.toNat <<< 8) % 128 :=
    Nat.and_two_pow_sub_one_eq_mod _ 7
  have shifted : code.toNat <<< 8 = code.toNat * 256 := Nat.shiftLeft_eq _ _
  have zero : code.toNat <<< 8 &&& 0x7f = 0 := by omega
  exact decide_eq_true zero

private theorem wexitstatus_exited (code : UInt8) :
    wexitstatus (Ending.exited code).status = code.toNat := by
  have high : (code.toNat <<< 8 &&& 0xff00) >>> 8 = code.toNat <<< 8 >>> 8 &&& 0xff :=
    Nat.shiftRight_and_distrib
  have byte : code.toNat &&& 0xff = code.toNat % 256 := Nat.and_two_pow_sub_one_eq_mod _ 8
  have small : code.toNat < 256 := code.toNat_lt
  rw [wexitstatus, Ending.status, high, Nat.shiftLeft_shiftRight, byte]
  omega

private theorem wifexited_signalled (sig : Signal) (core : Bool) :
    wifexited (Ending.signalled sig core).status = false := by
  obtain ⟨n, pos, small⟩ := sig
  have flag : (if core then 0x80 else 0) &&& 0x7f = 0 := by cases core <;> rfl
  have number : n &&& 0x7f = n % 128 := Nat.and_two_pow_sub_one_eq_mod _ 7
  have low : (n ||| if core then 0x80 else 0) &&& 0x7f = n := by
    rw [Nat.and_or_distrib_right, flag, number, Nat.or_zero]
    omega
  refine decide_eq_false fun zero => ?_
  have none_ : n = 0 := low.symm.trans zero
  omega

private theorem exitCode_exited (code : UInt8) :
    exitCode (Ending.exited code).status = code.toNat := by
  rw [exitCode, if_pos (wifexited_exited code), wexitstatus_exited]

private theorem exitCode_signalled (sig : Signal) (core : Bool) :
    exitCode (Ending.signalled sig core).status = -1 := by
  rw [exitCode, wifexited_signalled]
  rfl

/-- The status of no child at all reads as success. -/
theorem exitCode_zero : exitCode 0 = 0 := rfl

end Status

section Waits

/-- An answer that ends the waits. -/
def WaitReply.last : WaitReply → Bool
  | .reaped => true
  | .interrupted => false
  | .failed _ => true

/-- The answer that ended the waits. -/
def World.settled (w : World) : Option WaitReply := w.waits.find? WaitReply.last

/-- The child was reaped. -/
def World.Reaped (w : World) : Prop := w.settled = some .reaped

/-- The status after a wait. -/
def WaitReply.fills (ending : Ending) (status : Nat) : WaitReply → Nat
  | .reaped => ending.status
  | .interrupted => status
  | .failed _ => status

private theorem waited_eq (w : World) : waited w = w.settled.map (WaitReply.fills w.ending 0) := by
  refine rounds_eq_find? (fun status reply h => ?_) (fun status reply h => ?_) 0 w.waits
  · cases reply with
    | interrupted => rfl
    | _ => cases h
  · cases reply with
    | interrupted => cases h
    | _ => rfl

private theorem waited_of_reaped (h : w.Reaped) : waited w = some w.ending.status := by
  have settled : w.settled = some .reaped := h
  rw [waited_eq, settled]
  rfl

theorem waited_of_failed {e : Errno} (h : w.settled = some (.failed e)) : waited w = some 0 := by
  rw [waited_eq, h]
  rfl

private theorem settled_ne_interrupted : w.settled ≠ some .interrupted := by
  intro h
  have last : WaitReply.last .interrupted = true := List.find?_some h
  cases last

private theorem isSome_waited_iff : (waited w).isSome ↔ ∃ reply ∈ w.waits, reply.last = true := by
  rw [waited_eq, Option.isSome_map]
  exact List.find?_isSome

end Waits

section Reads

theorem piped_eq_wrote (w : World) : w.piped true = w.wrote := by
  have routed : ∀ fd devnull,
      childFds true devnull fd = some .pipe ↔ fd = .stdout ∨ fd = .stderr := by
    rintro (_ | _ | _ | _ | _) (_ | _) <;> decide
  unfold World.piped World.wrote
  refine congrArg (fun f => w.writes.flatMap f) (funext fun x => ?_)
  simp only [routed]

/-- The bytes the reads take before the first that fails. -/
def taken : List ReadReply → Nat
  | .data n :: replies => chunkSize n + taken replies
  | _ => 0

theorem collected_eq {output : Str} (h : collected true w = some output) :
    output = w.wrote.take (taken w.reads) := by
  have ruled : rounds readRound (w.piped true, []) w.reads = some output := h
  rw [piped_eq_wrote] at ruled
  refine rounds_rule (J := fun (s : Str × Str) replies =>
    s.2 ++ s.1.take (taken replies) = w.wrote.take (taken w.reads))
    (Q := fun output => output = w.wrote.take (taken w.reads)) ?_ ?_ rfl ruled
  · rintro ⟨rest, output⟩ reply replies s' kept hr
    cases reply with
    | data n =>
      simp only [readRound] at hr
      split at hr
      · cases hr
      · cases hr
        rw [← kept, List.append_assoc, taken, ← List.take_add]
    | interrupted => cases hr
    | failed e => cases hr
  · rintro ⟨rest, output⟩ reply replies b kept hr
    cases reply with
    | data n =>
      simp only [readRound] at hr
      split at hr
      · rename_i exhausted
        cases hr
        rw [← kept, exhausted, List.take_nil, List.append_nil]
      · cases hr
    | interrupted =>
      cases hr
      simpa [taken] using kept
    | failed e =>
      cases hr
      simpa [taken] using kept

/-- An answer that is an error. -/
def ReadReply.fails : ReadReply → Bool
  | .data _ => false
  | .interrupted => true
  | .failed _ => true

/-- Some read fails, or is made after all of the text was taken. -/
def ReadsEnd (text : Str) (replies : List ReadReply) : Prop :=
  ∃ before reply after, replies = before ++ reply :: after ∧
    (reply.fails = true ∨ text.length ≤ taken before)

private theorem readsEnd_data_iff {text : Str} (left : text ≠ []) (n : Nat)
    (replies : List ReadReply) :
    ReadsEnd text (.data n :: replies) ↔ ReadsEnd (text.drop (chunkSize n)) replies := by
  have pos : 0 < text.length := List.length_pos_iff.mpr left
  constructor
  · rintro ⟨before, reply, after, same, ended⟩
    cases before with
    | nil =>
      cases same
      rcases ended with fails | short
      · cases fails
      · exact absurd short (Nat.not_le.mpr pos)
    | cons first before =>
      cases same
      refine ⟨before, reply, after, rfl, ended.imp_right fun all => ?_⟩
      rw [taken] at all
      rw [List.length_drop]
      omega
  · rintro ⟨before, reply, after, rfl, ended⟩
    refine ⟨.data n :: before, reply, after, rfl, ended.imp_right fun all => ?_⟩
    rw [List.length_drop] at all
    rw [taken]
    omega

theorem isSome_collected_iff : (collected true w).isSome ↔ ReadsEnd w.wrote w.reads := by
  rw [← piped_eq_wrote]
  refine isSome_rounds_iff (J := fun (s : Str × Str) replies => ReadsEnd s.1 replies)
    ?_ ?_ ?_ (w.piped true, []) w.reads
  · rintro s ⟨before, reply, after, none_, -⟩
    simp at none_
  · rintro ⟨rest, output⟩ reply replies s' hr
    cases reply with
    | data n =>
      simp only [readRound] at hr
      split at hr
      · cases hr
      · rename_i left
        cases hr
        exact readsEnd_data_iff left n replies
    | interrupted => cases hr
    | failed e => cases hr
  · rintro ⟨rest, output⟩ reply replies output' hr
    refine ⟨[], reply, replies, rfl, ?_⟩
    cases reply with
    | data n =>
      simp only [readRound] at hr
      split at hr
      · rename_i exhausted
        right
        simp [exhausted]
      · cases hr
    | interrupted => exact Or.inl rfl
    | failed e => exact Or.inl rfl

end Reads

section Calls

variable {argv : List Str} {r : Spawned}

theorem spawn_of_startError {err : Str} (h : startError argv capture w = some err) :
    spawn argv capture w = some ⟨-1, [], err⟩ := by
  simp only [spawn, h]

theorem spawn_of_started (started : Started capture w) :
    spawn argv capture w = (collected capture w).bind fun output =>
      (waited w).map fun status => ⟨exitCode status, output, []⟩ := by
  have noError : startError argv capture w = none := startError_isNone_iff.mpr started
  simp only [spawn, noError]
  cases collected capture w with
  | none => rfl
  | some output => cases waited w <;> rfl

theorem exists_of_spawn (started : Started capture w) (returned : spawn argv capture w = some r) :
    ∃ output status, collected capture w = some output ∧ waited w = some status ∧
      r = ⟨exitCode status, output, []⟩ := by
  rw [spawn_of_started started] at returned
  obtain ⟨output, hcollected, rest⟩ := Option.bind_eq_some_iff.mp returned
  obtain ⟨status, hwaited, rfl⟩ := Option.map_eq_some_iff.mp rest
  exact ⟨output, status, hcollected, hwaited, rfl⟩

/-- Until which answers the call waits. -/
def Answered (capture : Bool) (w : World) : Prop :=
  Started capture w →
    (capture = true → ReadsEnd w.wrote w.reads) ∧ ∃ reply ∈ w.waits, reply.last = true

theorem isSome_spawn_iff : (spawn argv capture w).isSome ↔ Answered capture w := by
  by_cases started : Started capture w
  · have both : (spawn argv capture w).isSome ↔
        (collected capture w).isSome ∧ (waited w).isSome := by
      rw [spawn_of_started started]
      cases collected capture w with
      | none => simp
      | some output => simp
    have reads : (collected capture w).isSome ↔ (capture = true → ReadsEnd w.wrote w.reads) := by
      cases capture with
      | false => simp [collected]
      | true => simpa using isSome_collected_iff
    rw [both, reads, isSome_waited_iff]
    exact ⟨fun h _ => h, fun h => h started⟩
  · cases herr : startError argv capture w with
    | none => exact absurd (startError_isNone_iff.mp herr) started
    | some err =>
      rw [spawn_of_startError herr]
      exact iff_of_true rfl fun h => absurd h started

/-- No wait failed, and no read of a child that exited failed too early. -/
structure Undisturbed (capture : Bool) (w : World) : Prop where
  waits : Started capture w → ∀ e, w.settled ≠ some (.failed e)
  reads : Started capture w → w.Reaped → ∀ code, w.ending = .exited code → capture = true →
    w.wrote.length ≤ taken w.reads

/-- The child as the controllers' system has it. -/
def World.child (w : World) (argv : List Str) (capture : Bool) : Child :=
  match startError argv capture w, w.ending with
  | some err, _ => .notSpawned err
  | none, .exited code => .exited code w.wrote
  | none, .signalled _ _ => .killed (w.wrote.take (taken w.reads))

theorem reaped_of_undisturbed (undisturbed : Undisturbed capture w) (started : Started capture w)
    (returned : spawn argv capture w = some r) : w.Reaped := by
  obtain ⟨output, status, -, hwaited, rfl⟩ := exists_of_spawn started returned
  rw [waited_eq] at hwaited
  obtain ⟨reply, settled, -⟩ := Option.map_eq_some_iff.mp hwaited
  cases reply with
  | reaped => exact settled
  | interrupted => exact absurd settled settled_ne_interrupted
  | failed e => exact absurd settled (undisturbed.waits started e)

/-- An undisturbed call answers as the controllers' system does for its child. -/
theorem eq_spawned_of_undisturbed (undisturbed : Undisturbed capture w)
    (returned : spawn argv capture w = some r) : r = (w.child argv capture).spawned capture := by
  cases herr : startError argv capture w with
  | some err =>
    rw [spawn_of_startError herr] at returned
    cases returned
    simp only [World.child, herr, Child.spawned]
  | none =>
    have started : Started capture w := startError_isNone_iff.mp herr
    have reaped : w.Reaped := reaped_of_undisturbed undisturbed started returned
    obtain ⟨output, status, hcollected, hwaited, rfl⟩ := exists_of_spawn started returned
    rw [waited_of_reaped reaped] at hwaited
    cases hwaited
    have took : output = if capture then w.wrote.take (taken w.reads) else [] := by
      cases capture with
      | false => exact (Option.some.inj hcollected).symm
      | true => exact collected_eq hcollected
    cases ending : w.ending with
    | exited code =>
      simp only [World.child, herr, ending, Child.spawned, exitCode_exited, took]
      cases capture with
      | false => rfl
      | true =>
        have all := undisturbed.reads started reaped code ending rfl
        simp only [if_true, List.take_of_length_le all]
    | signalled sig core =>
      simp only [World.child, herr, ending, Child.spawned, exitCode_signalled, took]

end Calls

end Webengine.Control.Spawning
