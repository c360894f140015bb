/- source: backend/example/main.cpp, backend/src/WebServerFactory.cpp
   digest: While the outside world behaves, the example is one service, whichever server it
   drives: what it answers to the requests for the server is up to its ports and whether the
   server runs. -/

import Webengine.Control.Application
import Webengine.Results.ErrorReports
import Webengine.Results.PortValues
import Webengine.Results.SameMachine

set_option autoImplicit false
set_option relaxedAutoImplicit false

namespace Webengine.Results.ExampleService

open Webengine.Control
open Webengine.Control.Application
open Webengine.Control.Host
open Webengine.Control.Controllers
open Webengine.Control.Lifecycle
open Webengine.Control.Behaviour
open Webengine.Control.Deployment
open Webengine.Control.ListenFiles
open Webengine.Control.ProcessUtil (sys)
open Webengine.Control.Reports
open Webengine.Engine.Messages
open Webengine.Engine.Payloads
open Webengine.Engine.Roles (Str)
open Webengine.Library.Calls
open Webengine.Library.Decimals (integer)
open Webengine.Library.Machines (Event run)
open Webengine.Library.Programs (Prog)
open Webengine.Results.SameMachine (Machine)

/-- What an endpoint answers, apart from the words. -/
inductive Answer
  | done
  | failed
  | unconfirmed
  | unreadable
  | outOfRange
  | status (running : Bool) (http https : Port)

def answerOf (ok : Bool) : Answer := if ok then .done else .failed

section Service

variable (glz : ServerGlaze) (vars : Variables)

/-- The body of a stop confirms it. -/
def confirms (body : Str) : Bool :=
  let req := glz.readForceReq body
  !req.1 && req.2.force = some true

/-- The port a body asks for. -/
def requestedPort (body : Str) : Option Int :=
  let req := glz.readPortReq body
  if req.1 then none else req.2.http

variable (V : Ports → Bool)

/-- One call on the machine. -/
def ask (m : Machine) (c : Call) : Answer × Machine :=
  (answerOf (m.step V true c).1, (m.step V true c).2)

/-- The service behind the endpoints. -/
def serve (m : Machine) : ServerRequest → Answer × Machine
  | .on => ask V m .on
  | .off body => if confirms glz body then ask V m .off else (.unconfirmed, m)
  | .reset => ask V m .reset
  | .port body =>
    match requestedPort glz body with
    | none => (.unreadable, m)
    | some p =>
      if p < vars.portMin ∨ vars.portMax < p then (.outOfRange, m)
      else ask V m (.setListenPort (toPort p))
  | .status => (.status m.running m.http m.https, m)

def serveAll : Machine → List ServerRequest → List Answer × Machine
  | m, [] => ([], m)
  | m, request :: requests =>
    let (answer, m') := serve glz vars V m request
    let (answers, last) := serveAll m' requests
    (answer :: answers, last)

/-- The service as `main` starts it: on the ports of the environment, with the server up if it
takes them. -/
def begun : Machine :=
  (Machine.step V true ⟨toPort vars.http, toPort vars.https, false⟩ .on).2

/-- A response gives the answer. A failure is explained; only the status names the server. -/
inductive Gives : Answer → Response → Prop
  | done : Gives .done (json .ok statusOk)
  | failed {detail : Str} : detail ≠ [] → Gives .failed (json .internalServerError (glz.writeObj
      [("error".toList, "web server command failed".toList), ("detail".toList, detail)]))
  | unconfirmed : Gives .unconfirmed (json .conflict (glz.error
      ("stopping the web server makes this API unreachable since it is the only ingress; " ++
        "resend with force=true to confirm, or use reset").toList))
  | unreadable : Gives .unreadable (json .badRequest (glz.error
      "required: http (an integer port number)".toList))
  | outOfRange : Gives .outOfRange (json .badRequest (glz.error
      ("http port must be in the routable range ".toList ++ integer vars.portMin ++
        '-' :: integer vars.portMax)))
  | status {running : Bool} {http https : Port} : Gives (.status running http https)
      (json .ok (glz.writeStatus vars.kind.name running http https))

end Service

/-- A controller that does what the model of a deployment does when the outside world behaves,
from the first ports it is given on, and reports its errors. -/
structure Driver (V : Ports → Bool) where
  daemon : Daemon
  controller : WebServerController
  snippet : Port → Port → Str
  ports : Str → Option Ports
  waits : Prop
  reads : ∀ http https, ports (snippet http https) = some (portsIf true http https)
  meets : ∀ call, Meets daemon (verdict V ports) waits snippet (call.code controller)
    fun a => a.step (verdict V ports) snippet call
  begins : ∀ http https s, Serves daemon waits none s →
    wpIf (host daemon) (Behaves daemon (verdict V ports) waits)
      (controller.setListenPorts http https)
      (fun ok s' => ok = true ∧ Model.Is daemon waits snippet ⟨http, https, none⟩ s') s
  truthful : ∀ call, Call.Acts call → Truthful (call.code controller)

section Begin

variable {d : Daemon} {accepts : Str → Bool} {waits : Prop} {snippet : Port → Port → Str}

private theorem setListenPortsWith_begins {writeListenSnippet isRunning reload : Code Bool}
    (probes : Meets d accepts waits snippet isRunning fun a => (a.served.isSome, a))
    (writes : ∀ http https served s, s.http = http → s.https = https → Serves d waits served s →
      wpIf (host d) (Behaves d accepts waits) writeListenSnippet (fun written s' =>
        written = true ∧ Model.Is d waits snippet ⟨http, https, served⟩ s') s)
    (http https : Port) {s : State} (stopped : Serves d waits none s) :
    wpIf (host d) (Behaves d accepts waits)
      (setListenPortsWith writeListenSnippet isRunning reload http https)
      (fun ok s' => ok = true ∧ Model.Is d waits snippet ⟨http, https, none⟩ s') s := by
  intro env behaves env' behaves'
  have first : Serves d waits none (hostStep d env s .httpPort).2 :=
    serves_of_settled (settled_step behaves trivial stopped)
  have second : Serves d waits none
      (hostStep d env' (hostStep d env s .httpPort).2 .httpsPort).2 :=
    serves_of_settled (settled_step behaves' trivial first)
  refine setPorts_serves second fun s₁ sameHttp sameHttps serves => ?_
  rw [wpIf_bind]
  refine wpIf_mono (writes _ _ _ s₁ sameHttp sameHttps serves) ?_
  intro written s₂ outcome
  obtain ⟨rfl, is₂⟩ := outcome
  simp only [if_true]
  rw [wpIf_bind]
  refine wpIf_mono (probes _ s₂ is₂) ?_
  intro up s₃ outcome
  obtain ⟨rfl, is₃⟩ := outcome
  exact ⟨rfl, is₃⟩

end Begin

section Drivers

/-- How the listen files of a server are read. -/
def portsOf : WebServer → Str → Option Ports
  | .nginx => nginxPorts
  | .lighttpd => lighttpdPorts

/-- Only the start of lighttpd waits for the server to come up. -/
def awaits : WebServer → Prop
  | .nginx => False
  | .lighttpd => True

/-- What the factory makes. -/
def driver (V : Ports → Bool) (kind : WebServer) (paths : WebServerPaths) : Driver V where
  daemon := daemonOf kind paths
  controller := makeWebServerController kind paths
  snippet := match kind with
    | .nginx => Nginx.snippet (nginxOptions paths)
    | .lighttpd => Lighttpd.snippet (lighttpdOptions paths)
  ports := portsOf kind
  waits := awaits kind
  reads := by
    cases kind with
    | nginx => exact nginxPorts_snippet (nginxOptions paths)
    | lighttpd => exact lighttpdPorts_snippet (lighttpdOptions paths)
  meets := by
    cases kind with
    | nginx => exact Simulation.nginx_meets (nginxOptions paths) _
    | lighttpd => exact Simulation.lighttpd_meets (lighttpdOptions paths) _
  begins http https s stopped := by
    cases kind with
    | nginx =>
      exact setListenPortsWith_begins (Simulation.nginx_isRunning _ _)
        (Simulation.nginx_write _ _) http https stopped
    | lighttpd =>
      exact setListenPortsWith_begins (Simulation.lighttpd_isRunning _ _)
        (Simulation.lighttpd_write _ _) http https stopped
  truthful := by
    cases kind with
    | nginx => exact nginx_truthful (nginxOptions paths)
    | lighttpd => exact lighttpd_truthful (lighttpdOptions paths)

end Drivers

section Calls

variable {V : Ports → Bool} (D : Driver V)

/-- The application is the machine's, and a running server has ports it takes. -/
structure Driver.Is (m : Machine) (s : State) : Prop where
  valid : m.Valid V true
  model : (m.model D.snippet).Is D.daemon D.waits D.snippet s

/-- The call of a controller behind a call of the application. -/
def callOf : ServerOp → Option Call
  | .setListenPorts http https => some (.setListenPorts http https)
  | .setListenPort http => some (.setListenPort http)
  | .on => some .on
  | .off => some .off
  | .reset => some .reset
  | .isRunning => some .isRunning
  | _ => none

/-- The outside world behaves during a call. -/
def Driver.WellBehaved (e : Event (controlled D.daemon D.controller)) : Prop :=
  ∀ call, callOf e.op = some call →
    ∀ x ∈ (run (host D.daemon) (call.code D.controller) e.pre e.env).log,
      Behaves D.daemon (verdict V D.ports) D.waits x

private theorem called_of_result {d : Daemon} {p : Code Bool} {s : State} {env : Nat → Env}
    {ok : Bool}
    (result : (run (host d) p s env).result = .ok ok) :
    called d p env s = (ok, (run (host d) p s env).state) := by
  rw [called, result]

private theorem called_spec {m : Machine} {s : State} (is : D.Is m s) (call : Call)
    (env : Nat → Env)
    (behaves : ∀ x ∈ (run (host D.daemon) (call.code D.controller) s env).log,
      Behaves D.daemon (verdict V D.ports) D.waits x) :
    (called D.daemon (call.code D.controller) env s).1 = (m.step V true call).1 ∧
      D.Is (m.step V true call).2 (called D.daemon (call.code D.controller) env s).2 ∧
      (Call.Acts call → (m.step V true call).1 = false →
        (called D.daemon (call.code D.controller) env s).2.lastError ≠ []) := by
  have spec := D.meets call _ s is.model
  simp only [SameMachine.step_model D.reads is.valid call] at spec
  obtain ⟨ok, result, rfl, after⟩ := run_of_wpIf spec behaves
  rw [called_of_result result]
  refine ⟨rfl, ⟨SameMachine.valid_step is.valid call, after⟩, fun acts no => ?_⟩
  cases ErrorReports.explained_of_truthful (D.truthful call acts) s env with
  | failed text _ _ filled last => exact last ▸ filled
  | succeeded yes =>
    rw [result, no] at yes
    cases yes

variable {glz : ServerGlaze} {vars : Variables}

/-- What the steps of the application do, when the outside world behaves. -/
abbrev Driver.Spec {α : Type} (p : AppCode α) (Q : α → State → Prop) (s : State) : Prop :=
  wpIf (controlled D.daemon D.controller) D.WellBehaved p Q s

private theorem result_spec {m : Machine} {s : State} (is : D.Is m s) (call : Call)
    (acts : Call.Acts call) {env : Nat → Env}
    (behaves : ∀ x ∈ (run (host D.daemon) (call.code D.controller) s env).log,
      Behaves D.daemon (verdict V D.ports) D.waits x) :
    D.Spec (serverResult glz (called D.daemon (call.code D.controller) env s).1)
      (fun response s' => Gives glz vars (ask V m call).1 response ∧ D.Is (ask V m call).2 s')
      (called D.daemon (call.code D.controller) env s).2 := by
  obtain ⟨returned, after, explained⟩ := called_spec D is call env behaves
  rw [returned]
  unfold ask answerOf
  cases ok : (m.step V true call).1 with
  | true => exact ⟨.done, after⟩
  | false => exact fun _ _ => ⟨.failed (explained acts ok), after⟩

private theorem handle_spec {m : Machine} {s : State} (is : D.Is m s) (request : ServerRequest) :
    D.Spec (handle glz vars request) (fun response s' =>
      Gives glz vars (serve glz vars V m request).1 response ∧
        D.Is (serve glz vars V m request).2 s') s := by
  cases request with
  | on => exact fun env behaves => result_spec D is .on trivial (behaves _ rfl)
  | off body =>
    simp only [handle, serverOff, serve]
    by_cases confirmed : confirms glz body = true
    · have proceed : ¬ ((glz.readForceReq body).1 = true ∨
          (glz.readForceReq body).2.force ≠ some true) := by
        simpa [confirms] using confirmed
      rw [if_neg proceed, if_pos confirmed]
      exact fun env behaves => result_spec D is .off trivial (behaves _ rfl)
    · have refused : (glz.readForceReq body).1 = true ∨
          (glz.readForceReq body).2.force ≠ some true := by
        simpa [confirms, or_iff_not_imp_left] using confirmed
      rw [if_pos refused, if_neg confirmed]
      exact ⟨.unconfirmed, is⟩
  | reset => exact fun env behaves => result_spec D is .reset trivial (behaves _ rfl)
  | port body =>
    simp only [handle, serverPort, serve, requestedPort]
    cases (glz.readPortReq body).1 with
    | true => exact ⟨.unreadable, is⟩
    | false =>
      cases (glz.readPortReq body).2.http with
      | none => exact ⟨.unreadable, is⟩
      | some p =>
        simp only [Bool.false_eq_true, if_false]
        by_cases outside : p < vars.portMin ∨ vars.portMax < p
        · rw [if_pos outside, if_pos outside]
          exact ⟨.outOfRange, is⟩
        · rw [if_neg outside, if_neg outside]
          exact fun env behaves =>
            result_spec D is (.setListenPort (toPort p)) trivial (behaves _ rfl)
  | status =>
    intro env behaves
    obtain ⟨returned, after, -⟩ := called_spec D is .isRunning env (behaves _ rfl)
    intro env' _ env'' _
    have running : (called D.daemon D.controller.isRunning env s).1 = m.running := returned
    have http : (called D.daemon D.controller.isRunning env s).2.http = m.http := after.model.http
    have https : (called D.daemon D.controller.isRunning env s).2.https = m.https :=
      after.model.https
    have shown : Gives glz vars (.status m.running m.http m.https) (json .ok (glz.writeStatus
        vars.kind.name m.running m.http m.https)) := .status
    rw [← running, ← http, ← https] at shown
    refine ⟨?_, after⟩
    simp only [serve, ← running, ← http, ← https]
    exact shown

private theorem handleAll_spec {m : Machine} {s : State} (is : D.Is m s)
    (requests : List ServerRequest) :
    D.Spec (handleAll glz vars requests) (fun responses s' =>
      List.Forall₂ (Gives glz vars) (serveAll glz vars V m requests).1 responses ∧
        D.Is (serveAll glz vars V m requests).2 s') s := by
  induction requests generalizing m s with
  | nil => exact ⟨.nil, is⟩
  | cons request requests ih =>
    unfold Driver.Spec handleAll
    rw [wpIf_bind]
    refine wpIf_mono (handle_spec D is request) ?_
    intro response s' outcome
    obtain ⟨given, is'⟩ := outcome
    rw [wpIf_bind]
    refine wpIf_mono (ih is') ?_
    intro responses s'' outcome
    obtain ⟨all, is''⟩ := outcome
    exact ⟨.cons given all, is''⟩

private theorem startUp_spec {s : State} (stopped : Serves D.daemon D.waits none s) :
    D.Spec (startUp vars) (fun _ s' => D.Is (begun vars V) s') s := by
  unfold Driver.Spec startUp
  rw [wpIf_bind]
  intro env behaves
  obtain ⟨ok, result, -, set⟩ :=
    run_of_wpIf (D.begins (toPort vars.http) (toPort vars.https) s stopped) (behaves _ rfl)
  have is : D.Is ⟨toPort vars.http, toPort vars.https, false⟩
      (called D.daemon (D.controller.setListenPorts (toPort vars.http) (toPort vars.https))
        env s).2 := by
    rw [called_of_result result]
    exact ⟨by simp [Machine.Valid], set⟩
  rw [wpIf_ret, wpIf_bind]
  intro env' behaves'
  obtain ⟨-, after, -⟩ := called_spec D is .on env' (behaves' _ rfl)
  -- whether it came up or not, the warning and the getter change nothing
  rw [wpIf_ret]
  split
  · exact fun _ _ _ _ => after
  · exact fun _ _ => after

/-- `main` answers as the service does, and tells the server to stop in the end. -/
private theorem main_spec {s : State} (stopped : Serves D.daemon D.waits none s)
    (requests : List ServerRequest) :
    D.Spec (main glz vars requests) (fun responses s' =>
      List.Forall₂ (Gives glz vars) (serveAll glz vars V (begun vars V) requests).1 responses ∧
        Serves D.daemon D.waits none s') s := by
  unfold Driver.Spec main
  rw [wpIf_bind]
  refine wpIf_mono (startUp_spec D stopped) ?_
  intro _ s₁ is₁
  rw [wpIf_bind]
  refine wpIf_mono (handleAll_spec D is₁ requests) ?_
  intro responses s₂ outcome
  obtain ⟨all, is₂⟩ := outcome
  intro env behaves
  obtain ⟨-, is₃, -⟩ := called_spec D is₂ .off env (behaves _ rfl)
  exact ⟨all, is₃.model.serves⟩

end Calls

/-- The example with the controller its environment names, call by call. -/
abbrev application (vars : Variables) : Library.Machines.Machine ServerAns :=
  controlled (daemonOf vars.kind vars.paths) (makeWebServerController vars.kind vars.paths)

/-- The example answers as one service, whichever server it drives and wherever its files are. From
any state in which the server is stopped, and as long as the outside world behaves during its calls
and the server takes exactly the ports `V` says: the answers to any requests are those of the
machine of the ports and whether the server runs, and in the end the server is stopped or has been
told to stop. -/
theorem example_serves (V : Ports → Bool) (glz : ServerGlaze) (vars : Variables)
    (requests : List ServerRequest) {s : State} (stopped : s.server = .stopped)
    (gone : s.pidfile = none) (env : Nat → Nat → Env)
    (behaves : ∀ e ∈ (run (application vars) (main glz vars requests) s env).log,
      ∀ call, callOf e.op = some call →
        ∀ x ∈ (run (host (daemonOf vars.kind vars.paths))
            (call.code (makeWebServerController vars.kind vars.paths)) e.pre e.env).log,
          Behaves (daemonOf vars.kind vars.paths) (verdict V (portsOf vars.kind))
            (awaits vars.kind) x) :
    ∃ responses,
      (run (application vars) (main glz vars requests) s env).result = .ok responses ∧
      List.Forall₂ (Gives glz vars) (serveAll glz vars V (begun vars V) requests).1 responses ∧
      ((run (application vars) (main glz vars requests) s env).state.server = .stopped ∨
        ∃ pid text,
          (run (application vars) (main glz vars requests) s env).state.server =
            .draining pid text) := by
  obtain ⟨responses, result, all, serves⟩ := run_of_wpIf
    (main_spec (driver V vars.kind vars.paths) (Or.inl ⟨stopped, gone⟩) requests) behaves
  exact ⟨responses, result, all, serves.imp And.left id⟩

section Instance

open Webengine.Results.PortValues (atRest readsNothing)

/-- No variable of the environment is set. -/
def unset : Variables := ⟨none, none, none, none, none, none, none, none, none⟩

/-- The theorem at a run in which every command succeeds: nginx is up on its default ports, and a
stop is not confirmed. -/
theorem example_serves_unset : ∃ responses,
    (run (application unset) (main readsNothing unset [.reset, .status, .off []]) atRest
      fun _ _ => obliging (.exited 0 [])).result = .ok responses ∧
    List.Forall₂ (Gives readsNothing unset) [.done, .status true 8080 8443, .unconfirmed]
      responses := by
  have answers : (serveAll readsNothing unset (fun _ => true) (begun unset fun _ => true)
      [.reset, .status, .off []]).1 = [.done, .status true 8080 8443, .unconfirmed] := by
    rfl
  obtain ⟨responses, result, all, -⟩ := example_serves (fun _ => true) readsNothing unset
    [.reset, .status, .off []] (s := atRest) rfl rfl (fun _ _ => obliging (.exited 0 []))
    fun e he call _ x hx => by
      obtain ⟨n, hn⟩ := env_of_mem_log e he
      obtain ⟨k, hk⟩ := env_of_mem_log x hx
      have same : x.env = obliging (.exited 0 []) := by
        rw [hk, hn]
      refine behaves_obliging same (fun no => no.elim) fun argv capture command _ _ => ?_
      refine ⟨0, [], rfl, fun _ _ => ?_, fun _ => rfl⟩
      unfold verdict
      cases portsOf unset.kind (x.pre.listenText (daemonOf unset.kind unset.paths)) with
      | none => rfl
      | some p => rfl
  rw [answers] at all
  exact ⟨responses, result, all⟩

end Instance

end Webengine.Results.ExampleService
