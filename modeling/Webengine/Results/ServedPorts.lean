/- source: backend/src/NginxController.cpp, backend/src/LighttpdController.cpp
   (the lifecycle, set_listen_port, set_listen_ports)
   digest: The ports the getters show are those the server listens on once it has done the
   reloads it was told of, over runs of any calls and outcomes, if nginx adopts what it is told
   to and the ports change only while the server rests. -/

import Webengine.Control.Agreement

set_option autoImplicit false
set_option relaxedAutoImplicit false

namespace Webengine.Results.ServedPorts

open Webengine.Engine.Roles (Str)
open Webengine.Control
open Webengine.Control.Host
open Webengine.Control.ProcessUtil
open Webengine.Control.Controllers
open Webengine.Control.Lifecycle
open Webengine.Control.ListenFiles
open Webengine.Control.Behaviour
open Webengine.Control.Agreement
open Webengine.Library.Calls
open Webengine.Library.Machines
open Webengine.Library.Programs (Prog)

/-- The getters show the ports a running server listens on. -/
def Reported (ports : Str → Option Ports) (httpsEnabled : Bool) (s : State) : Prop :=
  ∀ pid text pending, s.server = .running pid text pending →
    ports text = some (portsIf httpsEnabled s.http s.https)

/-- The server has done the reloads it was told of. -/
def Settled (s : State) : Prop := ∀ pid text, s.server ≠ .running pid text true

/-- The listen file of a reload that is not done yet has the ports the getters show. -/
def Due (d : Daemon) (ports : Str → Option Ports) (httpsEnabled : Bool) (s : State) : Prop :=
  ∀ pid text, s.server = .running pid text true →
    ports (s.listenText d) = some (portsIf httpsEnabled s.http s.https)

/-- The ports a call asks for. -/
def asks (s : State) : Call → Option (Port × Port)
  | .setListenPort http => some (http, s.https)
  | .setListenPorts http https => some (http, https)
  | _ => none

def Changing (call : Call) : Prop :=
  (∃ http, call = .setListenPort http) ∨ ∃ http https, call = .setListenPorts http https

/-- In every run from a stopped server whose steps meet `M`, the ports are reported after each
call that leaves a state of `J`, and are those a call has asked for that returned true. -/
def ReportsServed (d : Daemon) (c : WebServerController) (ports : Str → Option Ports)
    (httpsEnabled : Bool) (M : Call → Event (host d) → Prop) (J : State → Prop) : Prop :=
  ∀ (s : State) (calls : List (Call × (Nat → Env))), s.server = .stopped →
    (∀ x ∈ made (host d) (Call.code c) s calls, ∀ e ∈ x.outcome.log, M x.call e) →
    ∀ x ∈ made (host d) (Call.code c) s calls,
      (J x.outcome.state → Reported ports httpsEnabled x.outcome.state) ∧
      (x.outcome.result = .ok true → ∀ p ∈ asks x.pre x.call,
        (x.outcome.state.http, x.outcome.state.https) = p)

/-- The server goes by the ports of the controller. -/
def Agreed (d : Daemon) (snippet : Port → Port → Str) (s : State) : Prop :=
  Agrees d (snippet s.http s.https) s

/-- What a call leaves. -/
def Answers (d : Daemon) (snippet : Port → Port → Str) (call : Call) (pre : State) (r : Bool)
    (s : State) : Prop :=
  Agreed d snippet s ∧ (r = true → ∀ p ∈ asks pre call, (s.http, s.https) = p)

section Calls

variable {d : Daemon} {snippet : Port → Port → Str} {s : State} {http https : Port}

private theorem agreed_of_at (h : At http https (Agrees d (snippet http https)) s) :
    Agreed d snippet s := by
  unfold Agreed
  rw [h.http, h.https]
  exact h.server

private theorem at_of_agreed (h : Agreed d snippet s) :
    At s.http s.https (Agrees d (snippet s.http s.https)) s := ⟨rfl, rfl, h⟩

private theorem answers_of_keeps {M : Event (host d) → Prop} {call : Call} {p : Code Bool}
    (none : asks s call = none)
    (keeps : wpIf (host d) M p
      (fun _ s' => At s.http s.https (Agrees d (snippet s.http s.https)) s') s) :
    wpIf (host d) M p (Answers d snippet call s) s := by
  refine wpIf_mono keeps fun r s' h => ⟨agreed_of_at h, fun _ p asked => ?_⟩
  rw [none] at asked
  cases asked

private theorem answers_of_changed {M : Event (host d) → Prop} {call : Call} {p : Code Bool}
    {s₀ : State}
    (asked : asks s₀ call = some (http, https)) {prevHttp prevHttps : Port}
    (changes : wpIf (host d) M p (Changed d snippet prevHttp prevHttps http https) s) :
    wpIf (host d) M p (Answers d snippet call s₀) s := by
  refine wpIf_mono changes fun r s' h => ?_
  cases r with
  | true =>
    refine ⟨agreed_of_at h, fun _ p hp => ?_⟩
    rw [asked] at hp
    cases hp
    exact Prod.ext h.http h.https
  | false => exact ⟨agreed_of_at h, fun yes => Bool.noConfusion yes⟩

variable {changing : Prop}

private theorem setListenPortWith_answers {sets : Port → Port → Code Bool} {http : Port} {s : State}
    (changes : ∀ (prevHttp prevHttps https : Port) (s : State),
      At prevHttp prevHttps (Agrees d (snippet prevHttp prevHttps)) s →
      wpIf (host d) (Orderly d snippet changing) (sets http https)
        (Changed d snippet prevHttp prevHttps http https) s)
    (h : Agreed d snippet s) :
    wpIf (host d) (Orderly d snippet changing) (setListenPortWith sets http)
      (Answers d snippet (.setListenPort http) s) s := by
  intro env orderly
  have reads : (sys .httpsPort).Only (gentle d) := ⟨trivial, fun _ => trivial⟩
  have read : (hostStep d env s .httpsPort).1 = s.https := arrive_https env
  change wpIf (host d) _ (sets http (hostStep d env s .httpsPort).1) _
    (hostStep d env s .httpsPort).2
  rw [read]
  exact answers_of_changed rfl
    (changes _ _ _ _ (keeps_agrees reads s (at_of_agreed h) env orderly))

private theorem pause_gentle (c : WebServerController) : (Call.code c .pause).Only (gentle d) :=
  ⟨trivial, fun _ => trivial⟩

end Calls

section Nginx

variable (opts : Nginx.Options) {s : State} {http https : Port} {changing : Prop}

/-- nginx goes by the ports of the controller. -/
abbrev NginxAt (http https : Port) : State → Prop :=
  At http https (Agrees (Nginx.daemon opts) (Nginx.snippet opts http https))

abbrev NginxOrderly (changing : Prop) : Event (host (Nginx.daemon opts)) → Prop :=
  Orderly (Nginx.daemon opts) (Nginx.snippet opts) changing

theorem nginx_testConfig : (Nginx.testConfig opts).Only (gentle (Nginx.daemon opts)) :=
  Prog.only_bind (runCommand_only (Or.inl (Nginx.command_test opts)) (fun _ => trivial) _)
    fun _ => trivial

theorem nginx_on : Keeps (host (Nginx.daemon opts)) (NginxOrderly opts changing)
    (NginxAt opts http https) (Nginx.on opts) := by
  intro s h
  refine wpIf_mono (onWith_started (d := Nginx.daemon opts) lasts_firm (fun _ h => h)
    (Nginx.snippet_of_disabled opts) (probes_started (d := Nginx.daemon opts) named_nginx h)
    (Nginx.ensureDirs_only opts (fun _ => trivial) fun _ => trivial)
    (nginx_testConfig opts) fun s filed => ?_) fun _ _ h => h.1
  rw [wpIf_bind]
  refine wpIf_mono (start_at (d := Nginx.daemon opts) (fun e orderly => orderly.pid)
    (Nginx.command_start opts) lasts_firm (fun _ h => h) filed) ?_
  intro code s' outcome
  obtain ⟨h', -⟩ := outcome
  have ends : ((if code ≠ 0 then do
      sys (.setLastError "nginx failed to start (port in use? see stderr)".toList)
      pure false
    else pure true) : Code Bool).Only (plain (Nginx.daemon opts)) := by
    split
    · exact ⟨trivial, fun _ => trivial⟩
    · trivial
  refine wpIf_mono (keeps_at lasts_firm ends s' h') fun r s'' h'' => ?_
  exact ⟨⟨h''.http, h''.https, Or.inl h''.server⟩, fun _ => h''⟩

theorem nginx_off : (Nginx.off opts).Only (gentle (Nginx.daemon opts)) := by
  refine Prog.only_bind (isRunning_gentle _ _) fun up => ?_
  split
  · trivial
  · exact Prog.only_bind (runCommand_only (Or.inr (Nginx.command_quit opts)) (fun _ => trivial) _)
      fun _ => trivial

theorem nginx_setListenPorts {prevHttp prevHttps : Port} (h : NginxAt opts prevHttp prevHttps s) :
    wpIf (host (Nginx.daemon opts)) (NginxOrderly opts changing)
      (Nginx.setListenPorts opts http https)
      (Changed (Nginx.daemon opts) (Nginx.snippet opts) prevHttp prevHttps http https) s := by
  refine setListenPortsWith_changed (d := Nginx.daemon opts) named_nginx
    (Nginx.snippet_of_disabled opts) (fun s filed => ?_) h
  have rests : ∀ s, Filed (Nginx.daemon opts) http https
      (Rests (Nginx.snippet opts prevHttp prevHttps)) (Nginx.snippet opts http https) s →
      Reloaded (Nginx.daemon opts) (Nginx.snippet opts) http https
        (Nginx.snippet opts prevHttp prevHttps) false s := fun _ filed => filed.1
  exact wpIf_reloadWith
    ((keeps_filed lasts_rests (isRunning_gentle _ _)).either (fun _ h => h) s filed)
    (fun text => reports_no (keeps_filed lasts_rests ⟨trivial, fun _ => trivial⟩) rests)
    ((keeps_filed lasts_rests (nginx_testConfig opts)).either rests)
    (fun s filed => reload_rests (d := Nginx.daemon opts) (Nginx.command_reload opts) filed)

private theorem nginx_answers (call : Call)
    (h : Agreed (Nginx.daemon opts) (Nginx.snippet opts) s) :
    wpIf (host (Nginx.daemon opts)) (NginxOrderly opts (Changing call))
      (call.code (Nginx.controller opts))
      (Answers (Nginx.daemon opts) (Nginx.snippet opts) call s) s := by
  cases call with
  | on => exact answers_of_keeps rfl (nginx_on opts s (at_of_agreed h))
  | off => exact answers_of_keeps rfl (keeps_agrees (nginx_off opts) s (at_of_agreed h))
  | reset =>
    exact answers_of_keeps rfl
      (resetWith_agrees (nginx_off opts) (nginx_on opts) s (at_of_agreed h))
  | reload =>
    refine answers_of_keeps rfl (reloadWith_agrees (nginx_testConfig opts) ?_ s (at_of_agreed h))
    exact fun s h => reload_agrees (d := Nginx.daemon opts) (Nginx.command_reload opts) h
  | setListenPort http =>
    exact setListenPortWith_answers
      (fun _ _ _ _ at' => nginx_setListenPorts opts at') h
  | setListenPorts http https =>
    exact answers_of_changed rfl (nginx_setListenPorts opts (at_of_agreed h))
  | isRunning =>
    exact answers_of_keeps rfl (keeps_agrees (isRunning_gentle _ _) s (at_of_agreed h))
  | testConfig =>
    exact answers_of_keeps rfl (keeps_agrees (nginx_testConfig opts) s (at_of_agreed h))
  | pause =>
    exact answers_of_keeps rfl (keeps_agrees (pause_gentle _) s (at_of_agreed h))

end Nginx

section Lighttpd

variable (opts : Lighttpd.Options) {s : State} {http https : Port} {changing : Prop}
  {J : State → Prop}

/-- lighttpd goes by the ports of the controller. -/
abbrev LighttpdAt (http https : Port) : State → Prop :=
  At http https (Agrees (Lighttpd.daemon opts) (Lighttpd.snippet opts http https))

abbrev LighttpdOrderly (changing : Prop) : Event (host (Lighttpd.daemon opts)) → Prop :=
  Orderly (Lighttpd.daemon opts) (Lighttpd.snippet opts) changing

theorem lighttpd_testConfig :
    (Lighttpd.testConfig opts).Only (gentle (Lighttpd.daemon opts)) :=
  Prog.only_bind (runCommand_only (Or.inl (Lighttpd.command_test opts)) (fun _ => trivial) _)
    fun _ => trivial

theorem lighttpd_on (lasts : Lasts (Lighttpd.daemon opts) J)
    (firm : ∀ s, J s → Firm (Lighttpd.snippet opts http https) s)
    (gaveUp : ∀ s env, LighttpdOrderly opts changing ⟨0, s, env, .setLastError neverUp⟩ →
      Firm (Lighttpd.snippet opts http https) (arrive (Lighttpd.daemon opts) env s) →
      J (arrive (Lighttpd.daemon opts) env s))
    (probes : wpIf (host (Lighttpd.daemon opts)) (LighttpdOrderly opts changing)
      (Lighttpd.isRunning opts)
      (Started (Lighttpd.daemon opts) (Lighttpd.snippet opts) http https J) s) :
    wpIf (host (Lighttpd.daemon opts)) (LighttpdOrderly opts changing) (Lighttpd.on opts)
      (Started (Lighttpd.daemon opts) (Lighttpd.snippet opts) http https J) s := by
  have only : (Lighttpd.isRunning opts).Only (plain (Lighttpd.daemon opts)) :=
    (isRunning_gentle _ _).mono fun _ => plain_of_gentle
  refine onWith_started (d := Lighttpd.daemon opts) lasts firm (Lighttpd.snippet_of_disabled opts)
    probes (Lighttpd.ensureDirs_only opts (fun _ => trivial) fun _ => trivial)
    (lighttpd_testConfig opts) fun s filed => ?_
  rw [wpIf_bind]
  refine wpIf_mono (start_at (d := Lighttpd.daemon opts) (fun e orderly => orderly.pid)
    (Lighttpd.command_start opts) lasts firm filed) ?_
  intro code s₁ outcome
  obtain ⟨h₁, failed⟩ := outcome
  by_cases zero : code = 0
  · simp only [zero, ne_eq, not_true_eq_false, if_false]
    rw [wpIf_bind]
    refine wpIf_mono (keeps_at lasts_firm (pollRunning_only only (fun _ => trivial) true 30)
      s₁ h₁) fun _ s₂ h₂ => ?_
    refine wpIf_either ((keeps_at lasts_firm only).either (fun _ h => h) s₂ h₂)
      (fun s₃ h₃ => ?_) fun s₃ h₃ => ?_
    · exact ⟨⟨h₃.http, h₃.https, Or.inl h₃.server⟩, fun no => Bool.noConfusion no⟩
    · intro env orderly
      have later := h₃.arrived (lasts_firm (d := Lighttpd.daemon opts)) env
      have gone := gaveUp s₃ env orderly later.server
      exact started_no firm ⟨later.http, later.https,
        lasts.congr (arrive (Lighttpd.daemon opts) env s₃) _ rfl rfl gone⟩
  · simp only [ne_eq, zero, not_false_eq_true, if_true]
    exact reports_no (keeps_at lasts ⟨trivial, fun _ => trivial⟩) (fun _ h₂ => started_no firm h₂)
      s₁ (failed zero)

private theorem lighttpd_starts :
    Keeps (host (Lighttpd.daemon opts)) (LighttpdOrderly opts changing)
    (LighttpdAt opts http https) (Lighttpd.on opts) := by
  intro s h
  refine wpIf_mono (lighttpd_on opts lasts_firm (fun _ h => h) (fun _ _ _ h => h)
    (probes_started (d := Lighttpd.daemon opts) named_lighttpd h)) fun _ _ h => h.1

theorem lighttpd_off : (Lighttpd.off opts).Only (gentle (Lighttpd.daemon opts)) :=
  Lighttpd.off_only opts (fun _ => gentle_of_observes) (fun _ => trivial) fun _ => trivial

private theorem lighttpd_restart (waited : changing) {prev : Str}
    (h : At http https (Rests prev) s) :
    wpIf (host (Lighttpd.daemon opts)) (LighttpdOrderly opts changing) (Lighttpd.reset opts)
      (Reloaded (Lighttpd.daemon opts) (Lighttpd.snippet opts) http https prev) s := by
  have only : (Lighttpd.isRunning opts).Only (plain (Lighttpd.daemon opts)) :=
    (isRunning_gentle _ _).mono fun _ => plain_of_gentle
  have rests : ∀ s, At http https Gone s → At http https (Rests prev) s :=
    fun s h => ⟨h.http, h.https, Or.inl h.server⟩
  have probes : ∀ s, At http https (Rests prev) s → wpIf (host (Lighttpd.daemon opts))
      (LighttpdOrderly opts changing) (Lighttpd.isRunning opts)
      (Either (m := host (Lighttpd.daemon opts)) (At http https (Rests prev))
        (At http https Gone)) s :=
    isRunning_rests (d := Lighttpd.daemon opts) named_lighttpd (fun e orderly => orderly.truly)
      (keeps_at lasts_rests only) fun _ h => h
  refine wpIf_resetWith (probes s h)
    ((keeps_at lasts_rests ((lighttpd_off opts).mono fun _ => plain_of_gentle)).either fun _ h => h)
    probes (fun us => keeps_at lasts_rests ⟨trivial, fun _ => trivial⟩) rests
    (fun text => reports_no (keeps_at lasts_rests ⟨trivial, fun _ => trivial⟩) fun _ h => h)
    fun s gone => ?_
  have first : wpIf (host (Lighttpd.daemon opts)) (LighttpdOrderly opts changing)
      (Lighttpd.isRunning opts)
      (Started (Lighttpd.daemon opts) (Lighttpd.snippet opts) http https Gone) s :=
    wpIf_mono (keeps_at lasts_gone only s gone) fun _ _ h' =>
      ⟨⟨h'.http, h'.https, Or.inl (Or.inl (Or.inl h'.server))⟩, fun _ => h'⟩
  refine wpIf_mono (lighttpd_on opts lasts_gone (fun _ gone => Or.inl (Or.inl gone)) ?_ first) ?_
  · intro s env orderly firm
    have down := orderly.awaited waited rfl
    rcases firm with (gone | ⟨pid, runs⟩) | ⟨pid, -, starts⟩
    · exact gone
    · exact absurd (by rw [runs.server]; trivial) down
    · exact absurd (by rw [starts]; trivial) down
  · intro done s' outcome
    obtain ⟨agrees, failed⟩ := outcome
    cases done with
    | true => exact agrees
    | false => exact rests s' (failed rfl)

theorem lighttpd_setListenPorts (waited : changing) {prevHttp prevHttps : Port}
    (h : LighttpdAt opts prevHttp prevHttps s) :
    wpIf (host (Lighttpd.daemon opts)) (LighttpdOrderly opts changing)
      (Lighttpd.setListenPorts opts http https)
      (Changed (Lighttpd.daemon opts) (Lighttpd.snippet opts) prevHttp prevHttps http https) s := by
  refine setListenPortsWith_changed (d := Lighttpd.daemon opts) named_lighttpd
    (Lighttpd.snippet_of_disabled opts) (fun s filed => ?_) h
  have probes := (isRunning_gentle (d := Lighttpd.daemon opts) opts.pidfile
    "lighttpd".toList).mono fun _ => plain_of_gentle
  have tests := (lighttpd_testConfig opts).mono fun _ => plain_of_gentle
  exact wpIf_reloadWith ((keeps_at lasts_rests probes).either (fun _ h => h) s filed.1)
    (fun text => reports_no (keeps_at lasts_rests ⟨trivial, fun _ => trivial⟩) fun _ h => h)
    ((keeps_at lasts_rests tests).either fun _ h => h) fun s h => lighttpd_restart opts waited h

private theorem lighttpd_answers (call : Call)
    (h : Agreed (Lighttpd.daemon opts) (Lighttpd.snippet opts) s) :
    wpIf (host (Lighttpd.daemon opts)) (LighttpdOrderly opts (Changing call))
      (call.code (Lighttpd.controller opts))
      (Answers (Lighttpd.daemon opts) (Lighttpd.snippet opts) call s) s := by
  cases call with
  | on => exact answers_of_keeps rfl (lighttpd_starts opts s (at_of_agreed h))
  | off => exact answers_of_keeps rfl (keeps_agrees (lighttpd_off opts) s (at_of_agreed h))
  | reset =>
    exact answers_of_keeps rfl
      (resetWith_agrees (lighttpd_off opts) (lighttpd_starts opts) s (at_of_agreed h))
  | reload =>
    refine answers_of_keeps rfl
      (reloadWith_agrees (lighttpd_testConfig opts) ?_ s (at_of_agreed h))
    exact resetWith_agrees (lighttpd_off opts) (lighttpd_starts opts)
  | setListenPort http =>
    exact setListenPortWith_answers
      (fun _ _ _ _ at' => lighttpd_setListenPorts opts (Or.inl ⟨http, rfl⟩) at') h
  | setListenPorts http https =>
    exact answers_of_changed rfl
      (lighttpd_setListenPorts opts (Or.inr ⟨http, https, rfl⟩) (at_of_agreed h))
  | isRunning =>
    exact answers_of_keeps rfl (keeps_agrees (isRunning_gentle _ _) s (at_of_agreed h))
  | testConfig =>
    exact answers_of_keeps rfl (keeps_agrees (lighttpd_testConfig opts) s (at_of_agreed h))
  | pause => exact answers_of_keeps rfl (keeps_agrees (pause_gentle _) s (at_of_agreed h))

end Lighttpd

/-- In every run from a stopped server whose steps meet `M`, a reload that a call leaves undone
will move the server to the ports the getters show. -/
def ReportsDue (d : Daemon) (c : WebServerController) (ports : Str → Option Ports)
    (httpsEnabled : Bool) (M : Call → Event (host d) → Prop) : Prop :=
  ∀ (s : State) (calls : List (Call × (Nat → Env))), s.server = .stopped →
    (∀ x ∈ made (host d) (Call.code c) s calls, ∀ e ∈ x.outcome.log, M x.call e) →
    ∀ x ∈ made (host d) (Call.code c) s calls, Due d ports httpsEnabled x.outcome.state

section Controllers

variable {d : Daemon} {c : WebServerController} {snippet : Port → Port → Str}
  {ports : Str → Option Ports} {httpsEnabled : Bool}

private theorem answers_of_made
    (answers : ∀ call s, Agreed d snippet s →
      wpIf (host d) (Orderly d snippet (Changing call)) (call.code c)
        (Answers d snippet call s) s)
    {s : State} {calls : List (Call × (Nat → Env))} (stopped : s.server = .stopped)
    (meets : ∀ x ∈ made (host d) (Call.code c) s calls, ∀ e ∈ x.outcome.log,
      Orderly d snippet (Changing x.call) e)
    {x : Made (host d) Empty Bool Call} (hx : x ∈ made (host d) (Call.code c) s calls) :
    ∃ r, x.outcome.result = .ok r ∧ Answers d snippet x.call x.pre r x.outcome.state := by
  have begins : Agreed d snippet s := Or.inl (Or.inl (Or.inl (Or.inl stopped)))
  obtain ⟨pre, -, env, ran⟩ := made_keeps (A := fun _ _ => True) (J := Agreed d snippet)
    (fun call s _ h => wpIf_mono (answers call s h) fun _ _ h' => h'.1) begins
    (fun x hx => ⟨trivial, meets x hx⟩) x hx
  have steps := meets x hx
  rw [ran] at steps ⊢
  exact run_of_wpIf (answers x.call x.pre pre) steps

private theorem reportsServed_of
    (reads : ∀ http https, ports (snippet http https) = some (portsIf httpsEnabled http https))
    (answers : ∀ call s, Agreed d snippet s →
      wpIf (host d) (Orderly d snippet (Changing call)) (call.code c)
        (Answers d snippet call s) s) :
    ReportsServed d c ports httpsEnabled (fun call => Orderly d snippet (Changing call))
      Settled := by
  intro s calls stopped meets x hx
  obtain ⟨r, result, agreed, asked⟩ := answers_of_made answers stopped meets hx
  refine ⟨fun settled pid text pending runs => ?_, fun done => asked ?_⟩
  · cases pending with
    | true => exact absurd runs (settled pid text)
    | false =>
      obtain ⟨-, -, serves⟩ := agrees_running agreed runs
      rw [if_neg (by decide)] at serves
      rw [serves]
      exact reads _ _
  · rw [result] at done
    injection done

private theorem reportsDue_of
    (reads : ∀ http https, ports (snippet http https) = some (portsIf httpsEnabled http https))
    (answers : ∀ call s, Agreed d snippet s →
      wpIf (host d) (Orderly d snippet (Changing call)) (call.code c)
        (Answers d snippet call s) s) :
    ReportsDue d c ports httpsEnabled fun call => Orderly d snippet (Changing call) := by
  intro s calls stopped meets x hx pid text runs
  obtain ⟨r, -, agreed, -⟩ := answers_of_made answers stopped meets hx
  obtain ⟨-, -, serves⟩ := agrees_running agreed runs
  rw [if_pos rfl] at serves
  rw [serves]
  exact reads _ _

end Controllers

/-- Between the calls of any run from a stopped server, whenever the server has done the reloads
it was told of, the getters show the ports it listens on; and a reload it has still to do will
move it to these. This needs that nginx gives up no reload for its old configuration, is told to
reload only while the listen file shows the ports of the controller, and that the ports change
only while the server is neither starting nor reloading. -/
theorem ports_served_of_orderly (nginx : Nginx.Options) (lighttpd : Lighttpd.Options) :
    (ReportsServed (Nginx.daemon nginx) (Nginx.controller nginx) nginxPorts nginx.httpsEnabled
        (fun call => Orderly (Nginx.daemon nginx) (Nginx.snippet nginx) (Changing call))
        Settled ∧
      ReportsDue (Nginx.daemon nginx) (Nginx.controller nginx) nginxPorts nginx.httpsEnabled
        fun call => Orderly (Nginx.daemon nginx) (Nginx.snippet nginx) (Changing call)) ∧
    ReportsServed (Lighttpd.daemon lighttpd) (Lighttpd.controller lighttpd) lighttpdPorts
        lighttpd.httpsEnabled
        (fun call => Orderly (Lighttpd.daemon lighttpd) (Lighttpd.snippet lighttpd)
          (Changing call))
        Settled ∧
      ReportsDue (Lighttpd.daemon lighttpd) (Lighttpd.controller lighttpd) lighttpdPorts
        lighttpd.httpsEnabled
        fun call => Orderly (Lighttpd.daemon lighttpd) (Lighttpd.snippet lighttpd)
          (Changing call) := by
  have nginxAnswers : ∀ call s, Agreed (Nginx.daemon nginx) (Nginx.snippet nginx) s → _ :=
    fun call _ h => nginx_answers nginx call h
  have lighttpdAnswers : ∀ call s,
      Agreed (Lighttpd.daemon lighttpd) (Lighttpd.snippet lighttpd) s → _ :=
    fun call _ h => lighttpd_answers lighttpd call h
  exact ⟨⟨reportsServed_of (nginxPorts_snippet nginx) nginxAnswers,
      reportsDue_of (nginxPorts_snippet nginx) nginxAnswers⟩,
    reportsServed_of (lighttpdPorts_snippet lighttpd) lighttpdAnswers,
    reportsDue_of (lighttpdPorts_snippet lighttpd) lighttpdAnswers⟩

section Instance

/-- Nothing runs yet, and nothing was written. -/
def halted : State where
  http := 8080
  https := 8443
  lastError := []
  fs := .empty
  pidfile := none
  server := .stopped
  others _ := none

/-- The server comes up on 8080 and is moved to 9090; the last choice is open. -/
def calls (last : Env) : List (Call × (Nat → Env)) :=
  [(.on, fun _ => obliging (.exited 0 [])), (.pause, fun _ => obliging (.exited 0 [])),
    (.setListenPorts 9090 8443, fun _ => obliging (.exited 0 [])), (.pause, fun _ => last)]

/-- The server cannot bind the ports. -/
def busy : Env := { obliging (.exited 0 []) with moves := [.keep] }

/-- The last of the calls. -/
abbrev lastCall (d : Daemon) (c : WebServerController) (last : Env) :
    Made (host d) Empty Bool Call :=
  (made (host d) (Call.code c) halted (calls last)).getLast (List.cons_ne_nil _ _)

private theorem env_of_calls {d : Daemon} {c : WebServerController} {last : Env}
    {x : Made (host d) Empty Bool Call} (hx : x ∈ made (host d) (Call.code c) halted (calls last))
    {e : Event (host d)} (he : e ∈ x.outcome.log) :
    e.env = obliging (.exited 0 []) ∨ e.env = last := by
  simp only [calls, made, List.mem_cons, List.not_mem_nil, or_false] at hx
  rcases hx with rfl | rfl | rfl | rfl
  all_goals
    obtain ⟨n, hn⟩ := env_of_mem_log e he
    first | exact Or.inl hn | exact Or.inr hn

/-- What is left of the condition if the server does at once what it is told. -/
def inOrder (d : Daemon) (snippet : Port → Port → Str) (e : Event (host d)) : Bool :=
  match e.op with
  | .spawn argv _ => match d.command argv with
    | some .reload => e.pre.listenText d = snippet e.pre.http e.pre.https
    | _ => true
  | .setHttpPort _ => match (arrive d e.env e.pre).server with
    | .starting _ _ => false
    | .running _ _ true => false
    | _ => true
  | .setLastError text => text ≠ neverUp
  | _ => true

private theorem orderly_of_inOrder {d : Daemon} {snippet : Port → Port → Str} {changing : Prop}
    {e : Event (host d)} (he : e.env = obliging (.exited 0 [])) (h : inOrder d snippet e = true) :
    Orderly d snippet changing e where
  truly _ _ _ := by rw [he]; rfl
  pid := by rw [he]; exact validPid_seven
  adopted before after split := by
    have absent : Move.keep ∉ e.env.moves := by
      rw [he]
      decide
    rw [split] at absent
    exact absurd (List.mem_append_right _ List.mem_cons_self) absent
  shows argv capture op told := by
    simp only [inOrder, op, told] at h
    exact of_decide_eq_true h
  started port op pid text hs := by
    simp only [inOrder, op, hs] at h
    cases h
  reloaded port op pid text hs := by
    simp only [inOrder, op, hs] at h
    cases h
  awaited _ op := by
    simp only [inOrder, op] at h
    cases h

private theorem orderly_calls {d : Daemon} {c : WebServerController} {snippet : Port → Port → Str}
    (inOrder : (made (host d) (Call.code c) halted (calls (obliging (.exited 0 [])))).all
      fun x => x.outcome.log.all (inOrder d snippet)) :
    ∀ x ∈ made (host d) (Call.code c) halted (calls (obliging (.exited 0 []))),
      ∀ e ∈ x.outcome.log, Orderly d snippet (Changing x.call) e := by
  intro x hx e he
  refine orderly_of_inOrder ((env_of_calls hx he).elim id id) ?_
  exact List.all_eq_true.mp (List.all_eq_true.mp inOrder x hx) e he

/-- Both servers are moved from 8080 to 9090. -/
theorem ports_served_of_orderly_calls :
    (Reported nginxPorts true
        (lastCall (Nginx.daemon {}) (Nginx.controller {}) (obliging (.exited 0 []))).outcome.state ∧
      (lastCall (Nginx.daemon {}) (Nginx.controller {})
        (obliging (.exited 0 []))).outcome.state.server =
        .running 7 (Nginx.snippet {} 9090 8443) false) ∧
    (Reported lighttpdPorts true
        (lastCall (Lighttpd.daemon {}) (Lighttpd.controller {})
          (obliging (.exited 0 []))).outcome.state ∧
      (lastCall (Lighttpd.daemon {}) (Lighttpd.controller {})
        (obliging (.exited 0 []))).outcome.state.server =
        .running 7 (Lighttpd.snippet {} 9090 8443) false) := by
  have settled : ∀ {s : State} {pid : Int} {text : Str}, s.server = .running pid text false →
      Settled s := by
    intro s pid text runs pid' text' reloads
    rw [runs] at reloads
    cases reloads
  have nginx : (lastCall (Nginx.daemon {}) (Nginx.controller {})
      (obliging (.exited 0 []))).outcome.state.server =
      .running 7 (Nginx.snippet {} 9090 8443) false := by decide +kernel
  have lighttpd : (lastCall (Lighttpd.daemon {}) (Lighttpd.controller {})
      (obliging (.exited 0 []))).outcome.state.server =
      .running 7 (Lighttpd.snippet {} 9090 8443) false := by decide +kernel
  refine ⟨⟨?_, nginx⟩, ?_, lighttpd⟩
  · exact ((ports_served_of_orderly {} {}).1.1 halted _ rfl (orderly_calls (by decide +kernel)) _
      (List.getLast_mem _)).1 (settled nginx)
  · exact ((ports_served_of_orderly {} {}).2.1 halted _ rfl (orderly_calls (by decide +kernel)) _
      (List.getLast_mem _)).1 (settled lighttpd)

/-- A change of the ports that nginx could not adopt returns true: nginx still listens on 8080
and the getter shows 9090, also when the reload is over. -/
theorem not_reportsServed_busy :
    ¬ ReportsServed (Nginx.daemon {}) (Nginx.controller {}) nginxPorts true (fun _ => Sound)
        (fun _ => True) ∧
      ¬ ReportsServed (Nginx.daemon {}) (Nginx.controller {}) nginxPorts true (fun _ => Sound)
        Settled := by
  have sound : ∀ x ∈ made (host (Nginx.daemon {})) (Call.code (Nginx.controller {})) halted
      (calls busy), ∀ e ∈ x.outcome.log, Sound e := by
    intro x hx e he
    rcases env_of_calls hx he with env | env
    · exact ⟨fun _ _ _ => by rw [env]; rfl, by rw [env]; exact validPid_seven⟩
    · exact ⟨fun _ _ _ => by rw [env]; rfl, by rw [env]; exact validPid_seven⟩
  have runs : (lastCall (Nginx.daemon {}) (Nginx.controller {}) busy).outcome.state.server =
      .running 7 (Nginx.snippet {} 8080 8443) false := by decide +kernel
  have misreported : ¬ Reported nginxPorts true
      (lastCall (Nginx.daemon {}) (Nginx.controller {}) busy).outcome.state := fun reported =>
    absurd (reported 7 (Nginx.snippet {} 8080 8443) false runs) (by decide +kernel)
  constructor
  · intro reports
    exact misreported ((reports halted (calls busy) rfl sound _ (List.getLast_mem _)).1 trivial)
  · intro reports
    refine misreported ((reports halted (calls busy) rfl sound _ (List.getLast_mem _)).1 ?_)
    intro pid text reloads
    rw [runs] at reloads
    cases reloads

end Instance

end Webengine.Results.ServedPorts
