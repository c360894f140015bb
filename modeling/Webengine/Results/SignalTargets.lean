/- source: backend/src/ProcessUtil.cpp (read_pid, pid_is, is_running, signal_pid),
   backend/src/LighttpdController.cpp (off)
   digest: Whatever the pidfile holds, the only signal goes to the live process it names, if
   that is the server. -/

import Webengine.Control.Lifecycle
import Webengine.Control.Lighttpd

set_option autoImplicit false
set_option relaxedAutoImplicit false

namespace Webengine.Results.SignalTargets

open Webengine.Control
open Webengine.Control.Host
open Webengine.Control.ProcessUtil
open Webengine.Control.Lifecycle
open Webengine.Engine.Roles (Str)
open Webengine.Library.Decimals
open Webengine.Library.Machines
open Webengine.Library.Programs (Prog)
open Webengine.Library.Texts

variable {d : Daemon}

/-- During a call neither the pidfile nor the processes change by themselves. -/
def Still (env : Nat → Env) : Prop := ∀ n, (env n).moves = []

/-- The live processes have pids as Linux gives them. A target that is not positive is no pid: a
signal to it reaches a group of processes, if there is one. -/
def PidsValid (d : Daemon) (s : State) : Prop :=
  ∀ pid, 0 < pid → (s.comm d pid).isSome → ValidPid pid

/-- The pidfile holds the number of a live process with such a name. -/
structure Names (d : Daemon) (s : State) (pidfile nameSubstr : Str) (pid : Int) : Prop where
  written : ∃ text, (if pidfile = d.pidfile then s.pidfile else none) = some text ∧
    scanInt text = some pid
  positive : 0 < pid
  live : ∃ name, s.comm d pid = some name ∧ nameSubstr <:+: name

/-- The target and the signal of a step that sends one; 0 is only a probe. -/
def signal : Op → Option (Int × Int)
  | .kill pid sig => if sig = 0 then none else some (pid, sig)
  | _ => none

/-- The signals of a run, also those that could not be delivered. -/
def signals (l : List (Event (host d))) : List (Int × Int) := shows signal l

private theorem signals_append (l l' : List (Event (host d))) :
    signals (l ++ l') = signals l ++ signals l' := shows_append l l'

private theorem signal_of_observes {o : Op} (h : observes o) : signal o = none := by
  cases o with
  | kill pid sig => exact if_pos h
  | _ => rfl

section Reading

private theorem scanInt_of_extractLong {text : Str} {pid : Int} (read : extractLong (-1) text = pid)
    (positive : 0 < pid) (small : pid < longMax) : scanInt text = some pid := by
  unfold extractLong at read
  split at read
  · omega
  · cases number : scanInt text with
    | none =>
      rw [number, Option.getD_none] at read
      simp only [longMin, longMax] at read
      omega
    | some n =>
      rw [number, Option.getD_some] at read
      simp only [longMin, longMax] at read small
      refine congrArg some ?_
      omega

private theorem pidOf_eq {file : Option Str} {pid : Int} (h : pidOf file = pid)
    (positive : 0 < pid) :
    ∃ text, file = some text ∧ extractLong (-1) text = pid := by
  unfold pidOf at h
  cases file with
  | none =>
    simp only at h
    omega
  | some text =>
    refine ⟨text, rfl, ?_⟩
    simp only at h
    split at h
    · exact h
    · omega

private theorem pidOf_of_names {s : State} {pidfile nameSubstr : Str} {pid : Int}
    (names : Names d s pidfile nameSubstr pid) (valid : ValidPid pid) :
    pidOf (if pidfile = d.pidfile then s.pidfile else none) = pid := by
  obtain ⟨text, file, number⟩ := names.written
  have filled : text.dropWhile isSpace ≠ [] := by
    intro blank
    rw [scanInt, blank] at number
    cases number
  have read : extractLong (-1) text = pid := by
    rw [extractLong, if_neg filled, number]
    have := valid.1
    have := valid.2
    simp only [Option.getD_some, longMin, longMax]
    omega
  rw [file, pidOf, read, if_pos names.positive]

private theorem infix_of_named {nameSubstr name : Str}
    (h : named nameSubstr (some (name ++ ['\n'])) = true) :
    nameSubstr <:+: name :=
  (find_isSome_iff.mp h).trans (cut_append_mark_le '\n' name).isInfix

end Reading

section Probes

variable {α : Type} {s : State} {env : Nat → Env}

private theorem arrive_still {e : Env} (still : e.moves = []) : arrive d e s = s := by
  rw [arrive, still]
  rfl

private theorem state_of_observes (still : Still env) {p : Code α} (only : p.Only observes) :
    (run (host d) p s env).state = s := by
  have kept := wp_keeps (m := host d) (E := fun e => e.moves = []) (J := fun s' => s' = s)
    (fun env s' o quiet ho same => by
      rw [step_of_observes ho, arrive_still quiet]
      exact same) only rfl
  exact run_of_wp kept env still

private theorem names_of_isRunning (still : Still env) (pids : PidsValid d s)
    {pidfile nameSubstr : Str}
    (up : (run (host d) (ProcessUtil.isRunning pidfile nameSubstr) s env).result = .ok true) :
    ∃ pid, Names d s pidfile nameSubstr pid := by
  rw [isRunning_eq, run_op] at up
  have read : (hostStep d (env 0) s (.readPidfile pidfile)).1 =
      if pidfile = d.pidfile then s.pidfile else none := by
    simp only [hostStep, arrive_still (still 0)]
  have after : (hostStep d (env 0) s (.readPidfile pidfile)).2 = s := arrive_still (still 0)
  simp only [read, after] at up
  generalize hpid : pidOf (if pidfile = d.pidfile then s.pidfile else none) = pid at up
  unfold probe at up
  split at up
  · cases up
  rename_i positive
  rw [run_op] at up
  have probeState : (hostStep d (later env 0) s (.kill (toPidT pid) 0)).2 = s :=
    (step_of_observes (show observes (.kill (toPidT pid) 0) from rfl) _ _).trans
      (arrive_still (still 1))
  simp only [probeState] at up
  cases answer : (hostStep d (later env 0) s (.kill (toPidT pid) 0)).1 with
  | some e =>
    rw [answer] at up
    cases up
  | none =>
    rw [answer, probed, run_op] at up
    have comm : (hostStep d (later (later env) 0) s (.readComm pid)).1 =
        (s.comm d pid).map (· ++ ['\n']) := by
      have quiet : arrive d (later (later env) 0) s = s := arrive_still (still 2)
      simp only [hostStep, quiet]
    simp only [comm, run_ret, Except.ok.injEq] at up
    cases found : s.comm d pid with
    | none =>
      rw [found] at up
      cases up
    | some name =>
      rw [found] at up
      have above : 0 < pid := by omega
      obtain ⟨text, file, number⟩ := pidOf_eq hpid above
      have valid := pids pid above (by rw [found]; rfl)
      have small : pid < longMax := by
        have := valid.2
        simp only [longMax]
        omega
      exact ⟨pid, ⟨text, file, scanInt_of_extractLong number above small⟩, above, name, found,
        infix_of_named up⟩

end Probes

section Off

variable {s : State} {env : Nat → Env}

private theorem signals_signalPid (pid : Int) (s : State) (env : Nat → Env) :
    signals (run (host d) (signalPid pid sigint) s env).log = [(toPidT pid, sigint)] := by
  have sends : (signalPid pid sigint).Shows signal [(toPidT pid, sigint)] := by
    refine ⟨[], rfl, fun failed => ?_⟩
    cases failed with
    | none => rfl
    | some e => exact ⟨[], rfl, fun _ => rfl⟩
  exact shows_run (m := host d) sends s env

private theorem signals_interrupt (still : Still env) {pidfile : Str} {pid : Int}
    (valid : ValidPid pid)
    (shown : pidOf (if pidfile = d.pidfile then s.pidfile else none) = pid) :
    signals (run (host d) (do
      let pid ← readPid pidfile
      if pid ≤ 0 then pure true else signalPid pid sigint) s env).log = [(pid, sigint)] := by
  rw [readPid_eq, Prog.op_bind, run_op]
  have read : (hostStep d (env 0) s (.readPidfile pidfile)).1 =
      if pidfile = d.pidfile then s.pidfile else none := by
    simp only [hostStep, arrive_still (still 0)]
  have above : ¬ pid ≤ 0 := Int.not_le.mpr valid.1
  simp only [read, shown, Prog.ret_bind, if_neg above]
  rw [signals, shows_cons, ← signals, signals_signalPid, toPidT_of_valid valid]
  rfl

end Off

/-- For every text of the pidfile and every table of processes that stay as they are: a probe says
yes only for a live process the pidfile names, of that name; a stop of lighttpd after such a probe
sends SIGINT once, to that process, and after a probe that says no it sends nothing. -/
theorem signals_only_server :
    (∀ (d : Daemon) (s : State) (env : Nat → Env) (pidfile nameSubstr : Str), Still env →
      PidsValid d s →
      (run (host d) (ProcessUtil.isRunning pidfile nameSubstr) s env).result = .ok true →
      ∃ pid, Names d s pidfile nameSubstr pid) ∧
    ∀ (opts : Lighttpd.Options) (s : State) (env : Nat → Env), Still env →
      PidsValid (Lighttpd.daemon opts) s →
      ((run (host (Lighttpd.daemon opts)) (Lighttpd.isRunning opts) s env).result = .ok true →
        ∃ pid, Names (Lighttpd.daemon opts) s opts.pidfile "lighttpd".toList pid ∧
          signals (run (host (Lighttpd.daemon opts)) (Lighttpd.off opts) s env).log =
            [(pid, sigint)]) ∧
      ((run (host (Lighttpd.daemon opts)) (Lighttpd.isRunning opts) s env).result = .ok false →
        signals (run (host (Lighttpd.daemon opts)) (Lighttpd.off opts) s env).log = []) := by
  refine ⟨fun d s env pidfile nameSubstr still pids up => names_of_isRunning still pids up, ?_⟩
  intro opts s env still pids
  have quiet : signals (run (host (Lighttpd.daemon opts)) (Lighttpd.isRunning opts) s env).log =
      [] := by
    have silent : (Lighttpd.isRunning opts).Shows signal [] :=
      Prog.shows_of_only (fun _ => signal_of_observes) (isRunning_only _ _)
    exact shows_run (m := host (Lighttpd.daemon opts)) silent s env
  have same : (run (host (Lighttpd.daemon opts)) (Lighttpd.isRunning opts) s env).state = s :=
    state_of_observes still (isRunning_only _ _)
  constructor
  · intro up
    obtain ⟨pid, names⟩ := names_of_isRunning still pids up
    obtain ⟨name, live, -⟩ := names.live
    have valid : ValidPid pid := pids pid names.positive (by rw [live]; rfl)
    refine ⟨pid, names, ?_⟩
    rw [Lighttpd.off, run_bind_of_ok _ up]
    have rest : Still fun n => env (n +
        (run (host (Lighttpd.daemon opts)) (Lighttpd.isRunning opts) s env).log.length) :=
      fun n => still _
    simp only [signals_append, quiet, same, List.nil_append, Bool.not_true, Bool.false_eq_true,
      if_false]
    exact signals_interrupt rest valid (pidOf_of_names names valid)
  · intro down
    rw [Lighttpd.off, run_bind_of_ok _ down]
    simp only [signals_append, quiet]
    rfl

section Instance

/-- lighttpd runs as process 5; the pidfile has the given text. -/
def lighttpdAs (text : Str) : State where
  http := 8080
  https := 8443
  lastError := []
  fs := .empty
  pidfile := some text
  server := .running 5 [] false
  others _ := none

def nothingHappens : Nat → Env := fun _ => ⟨[], none, [], 0, .exited 0 [], 7⟩

/-- A number that the conversion to `pid_t` takes to the pid of the server names no process. -/
example : (run (host (Lighttpd.daemon {})) (Lighttpd.isRunning {})
    (lighttpdAs "4294967301\n".toList) nothingHappens).result = .ok false := by decide +kernel

private theorem pidsValid_lighttpdAs (text : Str) :
    PidsValid (Lighttpd.daemon {}) (lighttpdAs text) := by
  intro pid _ live
  by_cases same : pid = 5
  · rw [same]
    exact ⟨by decide, by decide⟩
  · have dead : (lighttpdAs text).comm (Lighttpd.daemon {}) pid = none :=
      if_neg fun h => same (Option.some.inj h).symm
    rw [dead] at live
    cases live

/-- The theorem at the pidfile of the server. -/
theorem signals_only_server_five :
    (∃ pid, Names (Lighttpd.daemon {}) (lighttpdAs "5\n".toList) ({} : Lighttpd.Options).pidfile
      "lighttpd".toList pid) ∧
    ∃ pid, Names (Lighttpd.daemon {}) (lighttpdAs "5\n".toList) ({} : Lighttpd.Options).pidfile
      "lighttpd".toList pid ∧
      signals (run (host (Lighttpd.daemon {})) (Lighttpd.off {}) (lighttpdAs "5\n".toList)
        nothingHappens).log = [(pid, sigint)] := by
  have up : (run (host (Lighttpd.daemon {})) (Lighttpd.isRunning {})
      (lighttpdAs "5\n".toList) nothingHappens).result = .ok true := by decide +kernel
  constructor
  · exact signals_only_server.1 _ _ _ _ _ (fun _ => rfl) (pidsValid_lighttpdAs _) up
  · exact (signals_only_server.2 {} _ _ (fun _ => rfl) (pidsValid_lighttpdAs _)).1 up

end Instance

end Webengine.Results.SignalTargets
