/- source: backend/src/ProcessUtil.cpp, backend/src/NginxController.cpp,
   backend/src/LighttpdController.cpp
   digest: What the controllers act on: their mutable members, the listen file, the pidfile
   and the processes. Every read or write of a member, every system call and every spawned
   command is one atomic step. -/

import Webengine.Engine.Roles
import Webengine.Library.Decimals
import Webengine.Library.Files
import Webengine.Library.Machines

set_option autoImplicit false
set_option relaxedAutoImplicit false

namespace Webengine.Control.Host

open Webengine.Engine.Roles (Str)
open Webengine.Library.Decimals (integer)
open Webengine.Library.Files (Fs)
open Webengine.Library.Machines (Machine Event)
open Webengine.Library.Programs (Prog)

/-- `std::uint16_t`. -/
abbrev Port := UInt16

inductive Errno
  | eexist
  | enoent
  | esrch
  | other (message : Str)
  deriving DecidableEq

def strerror : Errno → Str
  | .eexist => "File exists".toList
  | .enoent => "No such file or directory".toList
  | .esrch => "No such process".toList
  | .other message => message

/-- How a child ended: it could not be spawned, it was terminated before it had an effect, or
it exited. The text is what it wrote to its standard output and error. -/
inductive Child
  | notSpawned (err : Str)
  | killed (output : Str)
  | exited (code : UInt8) (output : Str)

/-- What `proc::spawn` returns and fills in. -/
structure Spawned where
  code : Int
  output : Str
  err : Str

def Child.spawned (capture : Bool) : Child → Spawned
  | .notSpawned err => ⟨-1, [], err⟩
  | .killed output => ⟨-1, if capture then output else [], []⟩
  | .exited code output => ⟨code.toNat, if capture then output else [], []⟩

inductive Op
  | httpPort
  | httpsPort
  | setHttpPort (port : Port)
  | setHttpsPort (port : Port)
  | setLastError (text : Str)
  | mkdir (path : Str)
  | openTrunc (path : Str)
  | buffer (content : Str)
  | write (file offset : Nat) (piece : Str)
  | buffered (piece : Str)
  | rename (a b : Str)
  | remove (path : Str)
  | readPidfile (path : Str)
  | readComm (pid : Int)
  | kill (pid sig : Int)
  | spawn (argv : List Str) (capture : Bool)
  | usleep (us : Nat)

/-- `buffer` answers in which pieces a stream hands its text to the system, `write` how many
characters of one were written, and `buffered` what the stream still has of one that could not
be. -/
@[reducible] def Ans : Op → Type
  | .httpPort => Port
  | .httpsPort => Port
  | .setHttpPort _ => Unit
  | .setHttpsPort _ => Unit
  | .setLastError _ => Unit
  | .mkdir _ => Option Errno
  | .openTrunc _ => Option Nat
  | .buffer _ => List Str
  | .write _ _ _ => Nat
  | .buffered _ => Str
  | .rename _ _ => Option Errno
  | .remove _ => Unit
  | .readPidfile _ => Option Str
  | .readComm _ => Option Str
  | .kill _ _ => Option Errno
  | .spawn _ _ => Spawned
  | .usleep _ => Unit

/-- Code of the controllers: it throws nothing. -/
abbrev Code (α : Type) := Prog Empty Ans α

/-- The master process of the server, with its pid and the listen file it was configured
from. One that is starting has no pidfile yet; one that is draining was told to stop. A
reload may be pending. -/
inductive Server
  | stopped
  | starting (pid : Int) (text : Str)
  | running (pid : Int) (text : Str) (pending : Bool)
  | draining (pid : Int) (text : Str)
  deriving DecidableEq

def Server.pid : Server → Option Int
  | .stopped => none
  | .starting pid _ => some pid
  | .running pid _ _ => some pid
  | .draining pid _ => some pid

/-- The pid of a server that has written its pidfile. -/
def Server.shown : Server → Option Int
  | .stopped => none
  | .starting _ _ => none
  | .running pid _ _ => some pid
  | .draining pid _ => some pid

/-- The effect of SIGINT. -/
def Server.interrupted : Server → Server
  | .stopped => .stopped
  | .starting pid text => .draining pid text
  | .running pid text _ => .draining pid text
  | .draining pid text => .draining pid text

/-- What a server binary is told by its arguments. -/
inductive Command
  | test
  | start
  | quit
  | reload

/-- A server as it is installed: the name of its process, the reading of its arguments, and
the files its configuration names. -/
structure Daemon where
  comm : Str
  command : List Str → Option Command
  listenFile : Str
  pidfile : Str

/-- The members of a controller that change, and what it shares with the system: `pidfile`
is the text of the pidfile, `others` the names of the other live processes. -/
structure State where
  http : Port
  https : Port
  lastError : Str
  fs : Fs Str
  pidfile : Option Str
  server : Server
  others : Int → Option Str

/-- What the server does by itself. -/
inductive Move
  | exit
  | comeUp
  | fail
  | adopt
  | keep
  | crash
  deriving DecidableEq

/-- The choices of the outside world at one step: what the server does before it, whether
the system call fails, how a stream cuts its text and how much of a failing write is
written, how a child ends and the pid of a process it leaves. -/
structure Env where
  moves : List Move
  failure : Option Errno
  cuts : List Nat
  written : Nat
  child : Child
  pid : Int

variable (d : Daemon)

/-- The listen file as a server reads it. -/
def State.listenText (s : State) : Str := (s.fs.read d.listenFile).getD []

/-- A process that exits takes its pidfile with it, one that crashes leaves it. A pending
reload adopts the listen file or, when its ports cannot be bound, keeps what it has. -/
def Move.apply (s : State) : Move → State
  | .exit => match s.server with
    | .draining _ _ => { s with server := .stopped, pidfile := none }
    | _ => s
  | .comeUp => match s.server with
    | .starting pid text =>
      { s with server := .running pid text false, pidfile := some (integer pid ++ ['\n']) }
    | _ => s
  | .fail => match s.server with
    | .starting _ _ => { s with server := .stopped }
    | _ => s
  | .adopt => match s.server with
    | .running pid _ true => { s with server := .running pid (s.listenText d) false }
    | _ => s
  | .keep => match s.server with
    | .running pid text true => { s with server := .running pid text false }
    | _ => s
  | .crash => { s with server := .stopped }

/-- The state a step finds, after what the server has done. -/
def arrive (env : Env) (s : State) : State := env.moves.foldl (Move.apply d) s

/-- The effect of a command that exited with 0. -/
def Command.effect (pid : Int) (s : State) : Command → State
  | .test => s
  | .start => match s.server with
    | .stopped => { s with server := .starting pid (s.listenText d) }
    | _ => s
  | .quit => match s.server with
    | .running pid text _ => { s with server := .draining pid text }
    | _ => s
  | .reload => match s.server with
    | .running pid text _ => { s with server := .running pid text true }
    | _ => s

/-- A child has an effect only if it exits with 0. -/
def Child.effect (argv : List Str) (pid : Int) (s : State) : Child → State
  | .exited code _ =>
    if code = 0 then
      match d.command argv with
      | some command => command.effect d pid s
      | none => s
    else s
  | _ => s

/-- The name of a live process. -/
def State.comm (s : State) (pid : Int) : Option Str :=
  if s.server.pid = some pid then some d.comm else s.others pid

def sigint : Int := 2

/-- The effect of a signal that was delivered; 0 is the probe. -/
def State.signalled (s : State) (pid sig : Int) : State :=
  if sig = sigint ∧ s.server.pid = some pid then { s with server := s.server.interrupted } else s

/-- A text in pieces. -/
def pieces : List Nat → Str → List Str
  | [], s => [s]
  | n :: cuts, s => s.take n :: pieces cuts (s.drop n)

theorem flatten_pieces (cuts : List Nat) (s : Str) : (pieces cuts s).flatten = s := by
  induction cuts generalizing s with
  | nil => simp [pieces]
  | cons n cuts ih => rw [pieces, List.flatten_cons, ih, List.take_append_drop]

def hostStep (env : Env) (s₀ : State) : (o : Op) → Ans o × State :=
  let s := arrive d env s₀
  fun
  | .httpPort => (s.http, s)
  | .httpsPort => (s.https, s)
  | .setHttpPort port => ((), { s with http := port })
  | .setHttpsPort port => ((), { s with https := port })
  | .setLastError text => ((), { s with lastError := text })
  | .mkdir _ => (env.failure, s)
  | .openTrunc path => match env.failure with
    | some _ => (none, s)
    | none => (some (s.fs.openTrunc path).1, { s with fs := (s.fs.openTrunc path).2 })
  | .buffer content => (pieces env.cuts content, s)
  | .write file offset piece =>
    let n := if env.failure = none then piece.length else min env.written piece.length
    (n, { s with fs := s.fs.writeAt file offset (piece.take n) })
  | .buffered piece => ((pieces env.cuts piece).headD [], s)
  | .rename a b => match env.failure, s.fs.bound a with
    | some e, _ => (some e, s)
    | none, none => (some .enoent, s)
    | none, some _ => (none, { s with fs := s.fs.rename a b })
  | .remove path => match env.failure with
    | some _ => ((), s)
    | none => ((), { s with fs := s.fs.unlink path })
  | .readPidfile path => (if path = d.pidfile then s.pidfile else none, s)
  | .readComm pid => ((s.comm d pid).map (· ++ ['\n']), s)
  | .kill pid sig => match env.failure, s.comm d pid with
    | some e, _ => (some e, s)
    | none, none => (some .esrch, s)
    | none, some _ => (none, s.signalled pid sig)
  | .spawn argv capture => (env.child.spawned capture, env.child.effect d argv env.pid s)
  | .usleep _ => ((), s)

/-- The system as a machine for the steps of its controller. -/
abbrev host : Machine Ans where
  State := State
  Env := Env
  step := hostStep d

section Moves

variable {d} {s : State}

theorem apply_cases (move : Move) (s : State) :
    move.apply d s = s ∨
    (∃ pid text, move = .exit ∧ s.server = .draining pid text ∧
      move.apply d s = { s with server := .stopped, pidfile := none }) ∨
    (∃ pid text, move = .comeUp ∧ s.server = .starting pid text ∧
      move.apply d s = { s with
        server := .running pid text false, pidfile := some (integer pid ++ ['\n']) }) ∨
    (∃ pid text, move = .fail ∧ s.server = .starting pid text ∧
      move.apply d s = { s with server := .stopped }) ∨
    (∃ pid text text', (move = .adopt ∧ text' = s.listenText d ∨ move = .keep ∧ text' = text) ∧
      s.server = .running pid text true ∧
      move.apply d s = { s with server := .running pid text' false }) ∨
    (move = .crash ∧ move.apply d s = { s with server := .stopped }) := by
  cases move with
  | exit =>
    cases hs : s.server with
    | draining pid text =>
      exact Or.inr (Or.inl ⟨pid, text, rfl, rfl, by simp only [Move.apply, hs]⟩)
    | _ => exact Or.inl (by simp only [Move.apply, hs])
  | comeUp =>
    cases hs : s.server with
    | starting pid text =>
      exact Or.inr (Or.inr (Or.inl ⟨pid, text, rfl, rfl, by simp only [Move.apply, hs]⟩))
    | _ => exact Or.inl (by simp only [Move.apply, hs])
  | fail =>
    cases hs : s.server with
    | starting pid text =>
      exact Or.inr (Or.inr (Or.inr (Or.inl ⟨pid, text, rfl, rfl, by simp only [Move.apply, hs]⟩)))
    | _ => exact Or.inl (by simp only [Move.apply, hs])
  | adopt =>
    cases hs : s.server with
    | running pid text pending =>
      cases pending with
      | false => exact Or.inl (by simp only [Move.apply, hs])
      | true =>
        exact Or.inr (Or.inr (Or.inr (Or.inr (Or.inl ⟨pid, text, _, Or.inl ⟨rfl, rfl⟩, rfl,
          by simp only [Move.apply, hs]⟩))))
    | _ => exact Or.inl (by simp only [Move.apply, hs])
  | keep =>
    cases hs : s.server with
    | running pid text pending =>
      cases pending with
      | false => exact Or.inl (by simp only [Move.apply, hs])
      | true =>
        exact Or.inr (Or.inr (Or.inr (Or.inr (Or.inl ⟨pid, text, _, Or.inr ⟨rfl, rfl⟩, rfl,
          by simp only [Move.apply, hs]⟩))))
    | _ => exact Or.inl (by simp only [Move.apply, hs])
  | crash => exact Or.inr (Or.inr (Or.inr (Or.inr (Or.inr ⟨rfl, rfl⟩))))

theorem apply_frame (move : Move) :
    (move.apply d s).http = s.http ∧ (move.apply d s).https = s.https ∧
      (move.apply d s).fs = s.fs := by
  cases move with
  | crash => exact ⟨rfl, rfl, rfl⟩
  | _ =>
    simp only [Move.apply]
    split <;> exact ⟨rfl, rfl, rfl⟩

theorem foldl_apply_frame (moves : List Move) :
    (moves.foldl (Move.apply d) s).http = s.http ∧
      (moves.foldl (Move.apply d) s).https = s.https ∧
      (moves.foldl (Move.apply d) s).fs = s.fs := by
  induction moves generalizing s with
  | nil => exact ⟨rfl, rfl, rfl⟩
  | cons move moves ih =>
    obtain ⟨http, https, fs⟩ := ih (s := move.apply d s)
    obtain ⟨http', https', fs'⟩ := apply_frame (d := d) (s := s) move
    exact ⟨http.trans http', https.trans https', fs.trans fs'⟩

@[simp] theorem arrive_http (env : Env) : (arrive d env s).http = s.http :=
  (foldl_apply_frame env.moves).1

@[simp] theorem arrive_https (env : Env) : (arrive d env s).https = s.https :=
  (foldl_apply_frame env.moves).2.1

@[simp] theorem arrive_fs (env : Env) : (arrive d env s).fs = s.fs :=
  (foldl_apply_frame env.moves).2.2

theorem arrive_keeps {J : State → Prop} {env : Env}
    (keeps : ∀ move ∈ env.moves, ∀ s, J s → J (move.apply d s)) (h : J s) : J (arrive d env s) := by
  unfold arrive
  generalize env.moves = moves at keeps
  induction moves generalizing s with
  | nil => exact h
  | cons move moves ih =>
    exact ih (keeps move List.mem_cons_self s h)
      fun move' hm => keeps move' (List.mem_cons_of_mem _ hm)

/-- The server does not exit unless it was told to. -/
def Obedient (env : Env) : Prop := Move.crash ∉ env.moves

/-- A server that runs, and has no reload to do, goes on. -/
theorem server_arrive {env : Env} (obedient : Obedient env) {pid : Int} {text : Str}
    (h : s.server = .running pid text false) :
    (arrive d env s).server = .running pid text false := by
  unfold arrive
  unfold Obedient at obedient
  generalize env.moves = moves at obedient
  induction moves generalizing s with
  | nil => exact h
  | cons move moves ih =>
    rw [List.mem_cons, not_or] at obedient
    refine ih ?_ obedient.2
    cases move with
    | crash => exact absurd rfl obedient.1
    | _ => simp only [Move.apply, h]

end Moves

section Commands

variable {d : Daemon} {s : State}

/-- The steps that leave a running server alone, up to a SIGINT. -/
def patient (d : Daemon) : Op → Prop
  | .spawn argv _ => d.command argv ≠ some .quit ∧ d.command argv ≠ some .reload
  | _ => True

/-- The steps that tell a running server nothing. -/
def quiet (d : Daemon) : Op → Prop
  | .spawn argv _ => d.command argv ≠ some .quit ∧ d.command argv ≠ some .reload
  | .kill _ sig => sig ≠ sigint
  | _ => True

theorem patient_of_quiet {d : Daemon} {o : Op} (h : quiet d o) : patient d o := by
  cases o with
  | spawn argv capture => exact h
  | _ => trivial

/-- A SIGINT that reached the process. -/
def Interrupted (pid : Int) (e : Event (host d)) : Prop :=
  e.op = .kill pid sigint ∧ e.env.failure = none

private theorem server_effect {argv : List Str} {capture : Bool}
    (ho : patient d (.spawn argv capture))
    {pid : Int} {text : Str} (h : s.server = .running pid text false) (child : Child)
    (pid' : Int) : (child.effect d argv pid' s).server = .running pid text false := by
  cases child with
  | exited code output =>
    simp only [Child.effect]
    split
    · cases hc : d.command argv with
      | none => exact h
      | some command =>
        cases command with
        | test => exact h
        | start => simp only [Command.effect, h]
        | quit => exact absurd hc ho.1
        | reload => exact absurd hc ho.2
    · exact h
  | _ => exact h

private theorem server_signalled {pid : Int} {text : Str} (h : s.server = .running pid text false)
    {target sig : Int} (misses : ¬ (sig = sigint ∧ target = pid)) :
    (s.signalled target sig).server = .running pid text false := by
  unfold State.signalled
  rw [if_neg]
  · exact h
  · rintro ⟨rfl, same⟩
    rw [h] at same
    cases same
    exact misses ⟨rfl, rfl⟩

theorem server_of_patient {pid : Int} {text : Str} {env : Env} (obedient : Obedient env)
    {o : Op} (ho : patient d o) (h : s.server = .running pid text false) :
    (hostStep d env s o).2.server = .running pid text false ∨
      Interrupted (d := d) pid ⟨0, s, env, o⟩ := by
  have goesOn : (arrive d env s).server = .running pid text false := server_arrive obedient h
  cases o with
  | spawn argv capture => exact Or.inl (server_effect ho goesOn env.child env.pid)
  | kill target sig =>
    cases hf : env.failure with
    | some err =>
      left
      simp only [hostStep, hf]
      exact goesOn
    | none =>
      by_cases hit : sig = sigint ∧ target = pid
      · obtain ⟨rfl, rfl⟩ := hit
        exact Or.inr ⟨rfl, hf⟩
      · left
        simp only [hostStep, hf]
        cases (arrive d env s).comm d target with
        | none => exact goesOn
        | some name => exact server_signalled goesOn hit
  | _ =>
    left
    simp only [hostStep]
    repeat' split
    all_goals exact goesOn

/-- What a step does to the server and its pidfile: nothing, a SIGINT, or the effect of a
command. -/
theorem step_cases (env : Env) (s : State) (o : Op) :
    ((hostStep d env s o).2.server = (arrive d env s).server ∧
      (hostStep d env s o).2.pidfile = (arrive d env s).pidfile) ∨
    (∃ pid, o = .kill pid sigint ∧ (arrive d env s).server.pid = some pid ∧
      (hostStep d env s o).2 =
        { arrive d env s with server := (arrive d env s).server.interrupted }) ∨
    ∃ argv capture command output, o = .spawn argv capture ∧ d.command argv = some command ∧
      env.child = .exited 0 output ∧
      (hostStep d env s o).2 = command.effect d env.pid (arrive d env s) := by
  cases o with
  | kill pid sig =>
    cases hf : env.failure with
    | some err =>
      left
      simp only [hostStep, hf, and_self]
    | none =>
      simp only [hostStep, hf]
      cases (arrive d env s).comm d pid with
      | none => exact Or.inl ⟨rfl, rfl⟩
      | some name =>
        simp only [State.signalled]
        split
        · rename_i hit
          obtain ⟨rfl, same⟩ := hit
          exact Or.inr (Or.inl ⟨pid, rfl, same, rfl⟩)
        · exact Or.inl ⟨rfl, rfl⟩
  | spawn argv capture =>
    simp only [hostStep]
    cases hc : env.child with
    | exited code output =>
      simp only [Child.effect]
      split
      · rename_i zero
        subst zero
        cases told : d.command argv with
        | none => exact Or.inl ⟨rfl, rfl⟩
        | some command =>
          exact Or.inr (Or.inr ⟨argv, capture, command, output, rfl, told, rfl, rfl⟩)
      · exact Or.inl ⟨rfl, rfl⟩
    | notSpawned err => exact Or.inl ⟨rfl, rfl⟩
    | killed output => exact Or.inl ⟨rfl, rfl⟩
  | _ =>
    left
    simp only [hostStep]
    repeat' split
    all_goals simp only [and_self]

end Commands

end Webengine.Control.Host
