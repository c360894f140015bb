/- source: backend/src/NginxController.cpp, backend/src/LighttpdController.cpp
   digest: Whatever the system does, a call that fails explains itself through `last_error()`, and
   one that succeeds leaves the last error alone. -/

import Webengine.Control.Reports

set_option autoImplicit false
set_option relaxedAutoImplicit false

namespace Webengine.Results.ErrorReports

open Webengine.Control
open Webengine.Control.Controllers
open Webengine.Control.Host
open Webengine.Control.Lifecycle (Call)
open Webengine.Control.ProcessUtil (sys)
open Webengine.Control.Reports
open Webengine.Engine.Roles (Str)
open Webengine.Library.Calls
open Webengine.Library.Machines
open Webengine.Library.Programs (Prog)
open Webengine.Library.Traces

/-- How a call ended: with success, and no error recorded, or with false, and the last error is
the one it has recorded last. -/
inductive Explained {d : Daemon} (s : State) (outcome : Outcome (host d) Empty Bool) : Prop
  | succeeded : outcome.result = .ok true → shows recorded outcome.log = [] →
      outcome.state.lastError = s.lastError → Explained s outcome
  | failed (text : Str) : outcome.result = .ok false →
      (shows recorded outcome.log).getLast? = some text → text ≠ [] →
      outcome.state.lastError = text → Explained s outcome

/-- In any history of calls, whatever the system does at their steps, each explains itself, but
for those that only look, which leave the last error as it is. -/
def ExplainsItself (d : Daemon) (c : WebServerController) : Prop :=
  ∀ (s : State) (calls : List (Call × (Nat → Env))), ∀ x ∈ made (host d) (Call.code c) s calls,
    (Call.Acts x.call → Explained x.pre x.outcome) ∧
      (¬ Call.Acts x.call → x.outcome.state.lastError = x.pre.lastError)

section Calls

variable {d : Daemon}

private theorem exists_returned {α : Type} (p : Code α) (s : State) (env : Nat → Env) :
    ∃ a, (run (host d) p s env).result = .ok a := by
  cases (run (host d) p s env).result with
  | ok a => exact ⟨a, rfl⟩
  | error e => exact e.elim

private theorem recorded_ne_nil {p : Code Bool} (truthful : Truthful p) {s : State}
    {env : Nat → Env}
    {text : Str} (h : text ∈ shows recorded (run (host d) p s env).log) : text ≠ [] := by
  obtain ⟨e, he, same⟩ := List.mem_filterMap.mp h
  exact only_run truthful.explained s env e he text same

theorem explained_of_truthful {p : Code Bool} (truthful : Truthful p) (s : State)
    (env : Nat → Env) : Explained s (run (host d) p s env) := by
  obtain ⟨ok, returned⟩ := exists_returned (d := d) p s env
  have reported := truthful.outcome.run returned
  have last := lastError_run (d := d) p s env
  cases ok with
  | true =>
    have none := reported.mp rfl
    rw [none] at last
    exact .succeeded returned none last
  | false =>
    cases latest : (shows recorded (run (host d) p s env).log).getLast? with
    | none =>
      have none := List.getLast?_eq_none_iff.mp latest
      exact nomatch reported.mpr none
    | some text =>
      rw [latest] at last
      have filled := recorded_ne_nil truthful (List.mem_of_getLast? latest)
      exact .failed text returned latest filled last

private theorem explainsItself {c : WebServerController}
    (truthful : ∀ call, Call.Acts call → Truthful (call.code c))
    (silent : ∀ call, ¬ Call.Acts call → (call.code c).Only (Hidden recorded)) :
    ExplainsItself d c := by
  intro s calls x hx
  obtain ⟨env, same⟩ := outcome_of_mem_made x hx
  rw [same]
  refine ⟨fun acts => explained_of_truthful (truthful _ acts) _ _, fun looks => ?_⟩
  obtain ⟨ok, returned⟩ := exists_returned (d := d) (x.call.code c) x.pre env
  have none := (ends_of_hidden (silent _ looks)).run returned
  have last := lastError_run (d := d) (x.call.code c) x.pre env
  rwa [none] at last

end Calls

/-- Both controllers explain themselves in any history of calls, whatever fails and whatever the
server does: a call that returns false leaves in `last_error()` a text that it has recorded
itself, and one that returns true records nothing. -/
theorem failures_explained (nginx : Nginx.Options) (lighttpd : Lighttpd.Options) :
    ExplainsItself (Nginx.daemon nginx) (Nginx.controller nginx) ∧
      ExplainsItself (Lighttpd.daemon lighttpd) (Lighttpd.controller lighttpd) := by
  have paused : Prog.Only (Hidden recorded) (do sys (.usleep 0); pure true) :=
    ⟨rfl, fun _ => trivial⟩
  refine ⟨explainsItself (nginx_truthful nginx) fun call looks => ?_,
    explainsItself (lighttpd_truthful lighttpd) fun call looks => ?_⟩
  · cases call with
    | isRunning => exact isRunning_silent _ _
    | pause => exact paused
    | _ => exact absurd trivial looks
  · cases call with
    | isRunning => exact isRunning_silent _ _
    | pause => exact paused
    | _ => exact absurd trivial looks

end Webengine.Results.ErrorReports
