/- source: backend/example/main.cpp (the endpoints under /api/admin/server)
   digest: Requests to the example's server endpoints on threads of their own: their steps on
   controller and system, and the getter of the last error, which all of them share. -/

import Webengine.Control.Application
import Webengine.Control.Reports

set_option autoImplicit false
set_option relaxedAutoImplicit false

namespace Webengine.Control.Requests

open Webengine.Control
open Webengine.Control.Application
open Webengine.Control.Controllers
open Webengine.Control.Host
open Webengine.Control.ProcessUtil (sys)
open Webengine.Control.Reports
open Webengine.Engine.Messages
open Webengine.Engine.Roles (Str)
open Webengine.Library.Interleavings
open Webengine.Library.Machines
open Webengine.Library.Programs (Prog)
open Webengine.Library.Traces

/-- The steps of a request: those of the controller, and reads of the last error. -/
inductive RequestOp
  | sys (o : Op)
  | lastError

@[reducible] def RequestAns : RequestOp → Type
  | .sys o => Ans o
  | .lastError => Str

abbrev RequestCode (α : Type) := Prog Empty RequestAns α

def requestStep (d : Daemon) (env : Env) (s : State) : (o : RequestOp) → RequestAns o × State
  | .sys o => hostStep d env s o
  | .lastError => ((arrive d env s).lastError, arrive d env s)

/-- The system as a machine for the steps of requests. -/
abbrev requested (d : Daemon) : Machine RequestAns where
  State := State
  Env := Env
  step := requestStep d

/-- A program of a controller, as part of a request. -/
def lift {α : Type} (p : Code α) : RequestCode α := p.interp fun o => Prog.perform (.sys o)

/-- The code behind a call of the application. -/
def callCode (c : WebServerController) : (o : ServerOp) → RequestCode (ServerAns o)
  | .setListenPorts http https => lift (c.setListenPorts http https)
  | .setListenPort http => lift (c.setListenPort http)
  | .on => lift c.on
  | .off => lift c.off
  | .reset => lift c.reset
  | .isRunning => lift c.isRunning
  | .httpPort => lift (sys .httpPort)
  | .httpsPort => lift (sys .httpsPort)
  | .lastError => .op RequestOp.lastError .ret

/-- A request, step by step. -/
def endpoint (glz : ServerGlaze) (vars : Variables) (c : WebServerController)
    (request : ServerRequest) : RequestCode Response :=
  (handle glz vars request).interp (callCode c)

/-- Any number of requests at the same time, their steps in any order. -/
def serving (glz : ServerGlaze) (vars : Variables) (d : Daemon) (c : WebServerController)
    (requests : Nat → ServerRequest) (s : State) (sched : List (Nat × Env)) :
    Config (requested d) Empty Response :=
  (Config.start (fun t => endpoint glz vars c (requests t)) s).play sched

/-- The text a step records as the last error. -/
def noted : RequestOp → Option Str
  | .sys o => recorded o
  | .lastError => none

/-- What a step records is not empty. -/
def worded (o : RequestOp) : Prop := ∀ text, noted o = some text → text ≠ []

theorem only_lift {α : Type} {P : Op → Prop} {S : RequestOp → Prop} {p : Code α} (only : p.Only P)
    (le : ∀ o, P o → S (.sys o)) : (lift p).Only S := by
  induction p with
  | ret a => trivial
  | raise e => exact e.elim
  | op o k ih =>
    obtain ⟨ho, hk⟩ := only
    exact ⟨le o ho, fun a => ih a (hk a)⟩

theorem ends_lift {α : Type} {p : Code α} {Q : α → List Str → Prop} (h : Ends recorded p Q) :
    Ends noted (lift p) Q := by
  induction p generalizing Q with
  | ret a => exact h
  | raise e => exact e.elim
  | op o k ih => exact fun a => ih a (h a)

variable {d : Daemon}

private theorem lastError_post (e : Event (requested d)) :
    e.post.lastError = (noted e.op).getD e.pre.lastError := by
  obtain ⟨t, s, env, o⟩ := e
  cases o with
  | sys o => exact lastError_step env s o
  | lastError => exact arrive_lastError env

theorem lastError_play {α : Type} (pool : Nat → RequestCode α) (s : State)
    (sched : List (Nat × Env)) {c : Config (requested d) Empty α}
    (played : c = (Config.start pool s).play sched) :
    c.state.lastError = (shows noted c.log).getLast?.getD s.lastError := by
  subst played
  refine Config.play_log_induction (m := requested d)
    (J := fun l (s' : State) => s'.lastError = (shows noted l).getLast?.getD s.lastError)
    rfl (fun _ l e _ before => ?_) sched
  rw [lastError_post, before, shows_append, shows_cons]
  cases noted e.op with
  | none =>
    rw [Option.toList_none, List.nil_append, show shows noted ([] : List (Event (requested d))) = []
      from rfl, List.append_nil]
    rfl
  | some text => simp [shows]

end Webengine.Control.Requests
