/- source: backend/include/webengine/WebServerController.hpp, backend/src/NginxController.cpp,
   backend/src/LighttpdController.cpp
   digest: When the outside world behaves, the two controllers show the same after every call:
   both are one machine, of the ports and whether the server runs. -/

import Webengine.Control.Simulation

set_option autoImplicit false
set_option relaxedAutoImplicit false

namespace Webengine.Results.SameMachine

open Webengine.Control
open Webengine.Control.Host
open Webengine.Control.Controllers
open Webengine.Control.Lifecycle
open Webengine.Control.Behaviour
open Webengine.Control.Deployment
open Webengine.Control.ListenFiles
open Webengine.Control.ProcessUtil (sys)
open Webengine.Engine.Roles (Str)
open Webengine.Library.Calls
open Webengine.Library.Files (oneFile read_oneFile)
open Webengine.Library.Machines (Event run)

/-- The ports, and whether a server runs on them. -/
structure Machine where
  http : Port
  https : Port
  running : Bool

section Machine

variable (V : Ports → Bool) (enabled : Bool) (m : Machine)

def Machine.ports : Ports := portsIf enabled m.http m.https

def Machine.start : Bool × Machine :=
  if V (m.ports enabled) then (true, { m with running := true })
  else (false, { m with running := false })

/-- A stopped server takes any ports, a running one those it accepts. -/
def Machine.change (http https : Port) : Bool × Machine :=
  if m.running && !V (portsIf enabled http https) then (false, m)
  else (true, { m with http := http, https := https })

def Machine.step : Call → Bool × Machine
  | .on => if m.running then (true, m) else m.start V enabled
  | .off => (true, { m with running := false })
  | .reset => m.start V enabled
  | .reload => (m.running, m)
  | .setListenPort http => m.change V enabled http m.https
  | .setListenPorts http https => m.change V enabled http https
  | .isRunning => (m.running, m)
  | .testConfig => (V (m.ports enabled), m)
  | .pause => (true, m)

/-- What can be seen after a call: what it returned, `is_running()`, `http_port()` and
`https_port()`, the ports of the server if one runs, and those of the listen file. -/
structure Sight where
  returned : Bool
  up : Bool
  http : Port
  https : Port
  served : Option Ports
  file : Option Ports

def Machine.sight (returned : Bool) : Sight where
  returned := returned
  up := m.running
  http := m.http
  https := m.https
  served := if m.running then some (m.ports enabled) else none
  file := some (m.ports enabled)

/-- What is seen after each of the calls. -/
def Machine.trace : Machine → List Call → List Sight
  | _, [] => []
  | m, call :: calls =>
    (m.step V enabled call).2.sight enabled (m.step V enabled call).1 ::
      Machine.trace (m.step V enabled call).2 calls

end Machine

/-- A call, and a look at the getters after it. -/
def observed (c : WebServerController) (call : Call) : Code (Bool × Bool × Port × Port) := do
  let returned ← call.code c
  let up ← c.isRunning
  let http ← sys .httpPort
  let https ← sys .httpsPort
  pure (returned, up, http, https)

/-- What is seen after a call of a controller. -/
def sight (d : Daemon) (ports : Str → Option Ports)
    (x : Made (host d) Empty (Bool × Bool × Port × Port) Call) : Sight :=
  match x.outcome.result with
  | .ok (returned, up, http, https) =>
    { returned := returned
      up := up
      http := http
      https := https
      served := match x.outcome.state.server with
        | .running _ text _ => ports text
        | _ => none
      file := (x.outcome.state.fs.read d.listenFile).bind ports }
  | .error e => e.elim

/-- What is seen over a run of a controller. -/
def sights (d : Daemon) (c : WebServerController) (ports : Str → Option Ports) (s : State)
    (calls : List (Call × (Nat → Env))) : List Sight :=
  (made (host d) (observed c) s calls).map (sight d ports)

/-- The outside world behaves throughout a run. -/
def BehavesIn (d : Daemon) (c : WebServerController) (accepts : Str → Bool) (waits : Prop)
    (s : State) (calls : List (Call × (Nat → Env))) : Prop :=
  ∀ x ∈ made (host d) (observed c) s calls, ∀ e ∈ x.outcome.log, Behaves d accepts waits e

/-- The server is stopped, and the listen file shows the ports. -/
structure Ready (d : Daemon) (snippet : Port → Port → Str) (http https : Port) (s : State) :
    Prop where
  file : s.fs.read d.listenFile = some (snippet http https)
  server : s.server = .stopped
  pidfile : s.pidfile = none
  http : s.http = http
  https : s.https = https

section Run

variable {V : Ports → Bool} {enabled : Bool} {snippet : Port → Port → Str}

/-- The model of a deployment that the machine is. -/
def Machine.model (snippet : Port → Port → Str) (m : Machine) : Model where
  http := m.http
  https := m.https
  served := if m.running then some (snippet m.http m.https) else none

/-- A running server has ports it accepts. -/
def Machine.Valid (V : Ports → Bool) (enabled : Bool) (m : Machine) : Prop :=
  m.running = true → V (m.ports enabled) = true

variable {ports : Str → Option Ports}
  (reads : ∀ http https, ports (snippet http https) = some (portsIf enabled http https))

include reads

private theorem verdict_snippet (http https : Port) :
    verdict V ports (snippet http https) = V (portsIf enabled http https) := by
  rw [verdict, reads, Option.all_some]

private theorem start_model (http https : Port) (running : Bool) :
    Model.on (verdict V ports) snippet ⟨http, https, none⟩ =
      ((Machine.start V enabled ⟨http, https, running⟩).1,
        (Machine.start V enabled ⟨http, https, running⟩).2.model snippet) := by
  unfold Model.on Machine.start
  simp only [Option.isSome_none, Bool.false_eq_true, if_false, Model.text, Machine.ports,
    verdict_snippet reads]
  by_cases accepted : V (portsIf enabled http https) = true
  · simp only [accepted, if_true]
    rfl
  · rw [Bool.not_eq_true] at accepted
    simp only [accepted, Bool.false_eq_true, if_false]
    rfl

private theorem change_model {m : Machine} (http https : Port) :
    (m.model snippet).setListenPorts (verdict V ports) snippet http https =
      ((m.change V enabled http https).1, (m.change V enabled http https).2.model snippet) := by
  obtain ⟨oldHttp, oldHttps, running⟩ := m
  unfold Model.setListenPorts Machine.change
  cases running with
  | false => rfl
  | true =>
    simp only [Machine.model, if_true, Option.isNone_some, Bool.false_eq_true, if_false, Model.text,
      verdict_snippet reads, Bool.true_and]
    cases V (portsIf enabled http https) with
    | true => rfl
    | false => rfl

omit reads in
private theorem valid_start (m : Machine) : (m.start V enabled).2.Valid V enabled := by
  unfold Machine.start
  split
  · rename_i accepted
    exact fun _ => accepted
  · exact fun no => nomatch no

omit reads in
private theorem valid_change {m : Machine} (valid : m.Valid V enabled) (http https : Port) :
    (m.change V enabled http https).2.Valid V enabled := by
  unfold Machine.change
  split
  · exact valid
  · rename_i taken
    intro running
    have running' : m.running = true := running
    rw [running', Bool.true_and, Bool.not_eq_true', Bool.not_eq_false] at taken
    exact taken

omit reads in
theorem valid_step {m : Machine} (valid : m.Valid V enabled) (call : Call) :
    (m.step V enabled call).2.Valid V enabled := by
  cases call with
  | on =>
    simp only [Machine.step]
    split
    · exact valid
    · exact valid_start m
  | off => exact fun no => nomatch no
  | reset => exact valid_start m
  | setListenPort http => exact valid_change valid http _
  | setListenPorts http https => exact valid_change valid http https
  | _ => exact valid

/-- The model takes the steps of the machine. -/
theorem step_model {m : Machine} (valid : m.Valid V enabled) (call : Call) :
    (m.model snippet).step (verdict V ports) snippet call =
      ((m.step V enabled call).1, (m.step V enabled call).2.model snippet) := by
  obtain ⟨http, https, running⟩ := m
  cases call with
  | on =>
    cases running with
    | true => rfl
    | false => exact start_model reads http https false
  | reset => exact start_model reads http https running
  | reload =>
    cases running with
    | true =>
      have accepted : verdict V ports (snippet http https) = true :=
        (verdict_snippet reads http https).trans (valid rfl)
      simp only [Model.step, Model.reload, Machine.model, Model.text, if_true, Option.isSome_some,
        accepted, Bool.and_self]
      rfl
    | false => rfl
  | setListenPort http' => exact change_model reads http' https
  | setListenPorts http' https' => exact change_model reads http' https'
  | isRunning =>
    cases running with
    | true => rfl
    | false => rfl
  | testConfig => exact congrArg (·, _) (verdict_snippet reads http https)
  | off => rfl
  | pause => rfl

variable {d : Daemon} {waits : Prop} {c : WebServerController}
  (meets : ∀ call, Meets d (verdict V ports) waits snippet (call.code c)
    fun a => a.step (verdict V ports) snippet call)

include meets

private theorem observed_spec {m : Machine} (valid : m.Valid V enabled) {s : State}
    (h : (m.model snippet).Is d waits snippet s) (call : Call) :
    wpIf (host d) (Behaves d (verdict V ports) waits) (observed c call) (fun r s' =>
      r = ((m.step V enabled call).1, (m.step V enabled call).2.running,
        (m.step V enabled call).2.http, (m.step V enabled call).2.https) ∧
      ((m.step V enabled call).2.model snippet).Is d waits snippet s' ∧
      Settled ((m.step V enabled call).2.model snippet).served s') s := by
  have after := meets call _ s h
  simp only [step_model reads valid] at after
  generalize m.step V enabled call = next at after
  obtain ⟨returned, m'⟩ := next
  unfold observed
  rw [wpIf_bind]
  refine wpIf_mono after ?_
  intro r s₁ outcome
  obtain ⟨rfl, is₁⟩ := outcome
  rw [wpIf_bind]
  refine wpIf_mono (meets .isRunning _ s₁ is₁) ?_
  intro up s₂ outcome
  obtain ⟨rfl, is₂⟩ := outcome
  have up : ((m'.model snippet).step (verdict V ports) snippet .isRunning).1 = m'.running := by
    obtain ⟨http, https, running⟩ := m'
    cases running with
    | true => rfl
    | false => rfl
  rw [up]
  intro env behaves env' behaves'
  have is₃ := is₂.step behaves trivial
  have http : (hostStep d env s₂ .httpPort).1 = m'.http := (arrive_http env).trans is₂.http
  have https : (hostStep d env' (hostStep d env s₂ .httpPort).2 .httpsPort).1 = m'.https :=
    (arrive_https env').trans ((arrive_https env).trans is₂.https)
  refine ⟨?_, is₃.step behaves' trivial, settled_step behaves' trivial is₃.serves⟩
  exact congrArg₂ (fun http https => (_, m'.running, http, https)) http https

omit meets in
private theorem sight_of_settled {m : Machine} {returned : Bool}
    {x : Made (host d) Empty (Bool × Bool × Port × Port) Call}
    (result : x.outcome.result = .ok (returned, m.running, m.http, m.https))
    (h : (m.model snippet).Is d waits snippet x.outcome.state)
    (settled : Settled (m.model snippet).served x.outcome.state) :
    sight d ports x = m.sight enabled returned := by
  obtain ⟨http, https, running⟩ := m
  have file : (x.outcome.state.fs.read d.listenFile).bind ports =
      some (portsIf enabled http https) :=
    (congrArg (Option.bind · ports) h.file).trans (reads http https)
  unfold sight Machine.sight
  simp only [result, file]
  cases running with
  | false =>
    have stopped : x.outcome.state.server = .stopped := settled.1
    rw [stopped]
    rfl
  | true =>
    obtain ⟨pid, runs⟩ := settled
    rw [runs.server]
    simp only [if_true, reads]
    rfl

private theorem sights_trace {m : Machine} (valid : m.Valid V enabled) {s : State}
    (h : (m.model snippet).Is d waits snippet s) {calls : List (Call × (Nat → Env))}
    (behaves : BehavesIn d c (verdict V ports) waits s calls) :
    sights d c ports s calls = m.trace V enabled (calls.map Prod.fst) := by
  unfold BehavesIn at behaves
  unfold sights
  induction calls generalizing m s with
  | nil => rfl
  | cons x calls ih =>
    obtain ⟨call, env⟩ := x
    rw [made] at behaves ⊢
    obtain ⟨r, result, rfl, is', settled⟩ :=
      run_of_wpIf (observed_spec reads meets valid h call) (behaves _ List.mem_cons_self)
    rw [List.map_cons, List.map_cons, Machine.trace, sight_of_settled reads result is' settled]
    exact congrArg _ (ih (valid_step valid call) is' fun x hx =>
      behaves x (List.mem_cons_of_mem _ hx))

end Run

private theorem is_of_ready {d : Daemon} {waits : Prop} {snippet : Port → Port → Str}
    {http https : Port}
    {s : State} (h : Ready d snippet http https s) :
    (Machine.model snippet ⟨http, https, false⟩).Is d waits snippet s :=
  ⟨h.http, h.https, h.file, Or.inl ⟨h.server, h.pidfile⟩⟩

/-- From the same ports, with the same calls and the same verdict on ports, the two controllers
show the same after every call: what the machine of the ports and `running` does. -/
theorem same_machine (V : Ports → Bool) (nginx : Nginx.Options) (lighttpd : Lighttpd.Options)
    (sameTls : nginx.httpsEnabled = lighttpd.httpsEnabled) (http https : Port) {s s' : State}
    (ready : Ready (Nginx.daemon nginx) (Nginx.snippet nginx) http https s)
    (ready' : Ready (Lighttpd.daemon lighttpd) (Lighttpd.snippet lighttpd) http https s')
    {calls calls' : List (Call × (Nat → Env))}
    (sameCalls : calls.map Prod.fst = calls'.map Prod.fst)
    (behaves : BehavesIn (Nginx.daemon nginx) (Nginx.controller nginx) (verdict V nginxPorts)
      False s calls)
    (behaves' : BehavesIn (Lighttpd.daemon lighttpd) (Lighttpd.controller lighttpd)
      (verdict V lighttpdPorts) True s' calls') :
    sights (Nginx.daemon nginx) (Nginx.controller nginx) nginxPorts s calls =
        sights (Lighttpd.daemon lighttpd) (Lighttpd.controller lighttpd) lighttpdPorts s' calls' ∧
      sights (Nginx.daemon nginx) (Nginx.controller nginx) nginxPorts s calls =
        Machine.trace V nginx.httpsEnabled ⟨http, https, false⟩ (calls.map Prod.fst) := by
  have first := sights_trace (nginxPorts_snippet nginx) (Simulation.nginx_meets nginx _)
    (m := ⟨http, https, false⟩) (fun no => nomatch no) (is_of_ready ready) behaves
  have second := sights_trace (lighttpdPorts_snippet lighttpd)
    (Simulation.lighttpd_meets lighttpd _) (m := ⟨http, https, false⟩) (fun no => nomatch no)
    (is_of_ready ready') behaves'
  rw [← sameTls, ← sameCalls] at second
  exact ⟨first.trans second.symm, first⟩

section Instance

/-- Nothing runs yet; the listen file shows 8080 and 8443. -/
def halted (d : Daemon) (snippet : Port → Port → Str) : State where
  http := 8080
  https := 8443
  lastError := []
  fs := oneFile d.listenFile (snippet 8080 8443)
  pidfile := none
  server := .stopped
  others _ := none

private theorem ready_halted (d : Daemon) (snippet : Port → Port → Str) :
    Ready d snippet 8080 8443 (halted d snippet) :=
  ⟨read_oneFile _ _, rfl, rfl, rfl, rfl⟩

/-- The step reports that no probe has seen the server come up. -/
def givesUp : Op → Bool
  | .setLastError text => text = neverUp
  | _ => false

/-- If every listen file is accepted, a run in which every command succeeds and the server is
never given up behaves. -/
private theorem behaves_accepted {d : Daemon} {ports : Str → Option Ports} {waits : Prop}
    {e : Event (host d)} (he : e.env = obliging (.exited 0 [])) (awaited : givesUp e.op = false) :
    Behaves d (verdict (fun _ => true) ports) waits e := by
  refine behaves_obliging he (fun _ op => ?_) fun argv capture command op told => ?_
  · rw [op] at awaited
    exact absurd awaited (by decide)
  · refine ⟨0, [], rfl, fun _ _ => ?_, fun _ => rfl⟩
    unfold verdict
    cases ports (e.pre.listenText d) with
    | none => rfl
    | some p => rfl

/-- A start, a change of the ports while the server runs, and a stop. -/
def calls : List (Call × (Nat → Env)) :=
  [(.on, fun _ => obliging (.exited 0 [])), (.setListenPort 9090, fun _ => obliging (.exited 0 [])),
    (.off, fun _ => obliging (.exited 0 []))]

private theorem behavesIn_calls {d : Daemon} {c : WebServerController} {ports : Str → Option Ports}
    {waits : Prop} {s : State}
    (awaited : (made (host d) (observed c) s calls).all
      fun x => x.outcome.log.all fun e => !givesUp e.op) :
    BehavesIn d c (verdict (fun _ => true) ports) waits s calls := by
  intro x hx e he
  have env : e.env = obliging (.exited 0 []) := by
    simp only [calls, made, List.mem_cons, List.not_mem_nil, or_false] at hx
    rcases hx with rfl | rfl | rfl
    all_goals
      obtain ⟨n, hn⟩ := env_of_mem_log e he
      exact hn
  have seen := List.all_eq_true.mp (List.all_eq_true.mp awaited x hx) e he
  rw [Bool.not_eq_true'] at seen
  exact behaves_accepted env seen

/-- The theorem at that run: both servers move to 9090, and are stopped in the end. -/
theorem same_machine_calls :
    sights (Nginx.daemon {}) (Nginx.controller {}) nginxPorts
        (halted (Nginx.daemon {}) (Nginx.snippet {})) calls =
      sights (Lighttpd.daemon {}) (Lighttpd.controller {}) lighttpdPorts
        (halted (Lighttpd.daemon {}) (Lighttpd.snippet {})) calls ∧
    sights (Nginx.daemon {}) (Nginx.controller {}) nginxPorts
        (halted (Nginx.daemon {}) (Nginx.snippet {})) calls =
      [⟨true, true, 8080, 8443, some (8080, some 8443), some (8080, some 8443)⟩,
        ⟨true, true, 9090, 8443, some (9090, some 8443), some (9090, some 8443)⟩,
        ⟨true, false, 9090, 8443, none, some (9090, some 8443)⟩] :=
  same_machine (fun _ => true) {} {} rfl 8080 8443 (ready_halted _ _) (ready_halted _ _) rfl
    (behavesIn_calls (by decide +kernel)) (behavesIn_calls (by decide +kernel))

end Instance

end Webengine.Results.SameMachine
