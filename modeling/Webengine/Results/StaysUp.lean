/- source: backend/src/NginxController.cpp, backend/src/LighttpdController.cpp (on, off, reset),
   backend/src/ProcessUtil.cpp
   digest: After on() or reset() has returned true the server stays up, unless on() was asked
   while the last one was still draining. -/

import Webengine.Control.Lifecycle
import Webengine.Control.Lighttpd
import Webengine.Control.Nginx

set_option autoImplicit false
set_option relaxedAutoImplicit false

namespace Webengine.Results.StaysUp

open Webengine.Control
open Webengine.Control.Host
open Webengine.Control.ProcessUtil
open Webengine.Control.Controllers
open Webengine.Control.Lifecycle
open Webengine.Engine.Roles (Str)
open Webengine.Library.Calls
open Webengine.Library.Machines

/-- The server has been started and nobody has told it to stop. -/
def Up (s : State) : Prop :=
  (∃ pid text, s.server = .starting pid text) ∨
    ∃ pid text pending, s.server = .running pid text pending

/-- The server was told to stop and has not exited yet. -/
def Draining (s : State) : Prop := ∃ pid text, s.server = .draining pid text

/-- The pidfile is that of the master process, from when it has come up until it exits. -/
structure Tracked (s : State) : Prop where
  file : s.pidfile = s.server.shown.map pidText
  valid : ∀ pid, s.server.pid = some pid → ValidPid pid

/-- The server stops only when it was told to, probes are not refused, and processes have valid
pids. -/
structure Faithful {d : Daemon} (e : Event (host d)) : Prop where
  crash : Move.crash ∉ e.env.moves
  fail : Move.fail ∉ e.env.moves
  truly : ProbesTruly e
  pid : ValidPid e.env.pid

section Steps

variable {d : Daemon} {s : State} {env : Env} {o : Op}

private theorem tracked_apply {move : Move} (crash : move ≠ .crash) (fail : move ≠ .fail)
    (h : Tracked s) : Tracked (move.apply d s) := by
  obtain ⟨file, valid⟩ := h
  rcases apply_cases (d := d) move s with same | ⟨pid, text, -, hs, same⟩ |
    ⟨pid, text, -, hs, same⟩ | ⟨pid, text, rfl, -⟩ | ⟨pid, text, text', -, hs, same⟩ | ⟨rfl, -⟩
  · rw [same]
    exact ⟨file, valid⟩
  · rw [same]
    exact ⟨rfl, fun _ none => nomatch none⟩
  · rw [same]
    rw [hs] at valid
    exact ⟨rfl, valid⟩
  · exact absurd rfl fail
  · rw [same]
    rw [hs] at valid file
    exact ⟨file, valid⟩
  · exact absurd rfl crash

private theorem up_apply {move : Move} (crash : move ≠ .crash) (fail : move ≠ .fail)
    (h : Up s) : Up (move.apply d s) := by
  rcases apply_cases (d := d) move s with same | ⟨pid, text, -, hs, same⟩ |
    ⟨pid, text, -, hs, same⟩ | ⟨pid, text, rfl, -⟩ | ⟨pid, text, text', -, hs, same⟩ | ⟨rfl, -⟩
  · rw [same]
    exact h
  · rcases h with ⟨_, _, up⟩ | ⟨_, _, _, up⟩ <;> rw [hs] at up <;> cases up
  · rw [same]
    exact Or.inr ⟨pid, text, false, rfl⟩
  · exact absurd rfl fail
  · rw [same]
    exact Or.inr ⟨pid, text', false, rfl⟩
  · exact absurd rfl crash

private theorem not_draining_apply {move : Move} (h : ¬ Draining s) :
    ¬ Draining (move.apply d s) := by
  rcases apply_cases (d := d) move s with same | ⟨_, _, -, -, same⟩ | ⟨_, _, -, -, same⟩ |
    ⟨_, _, -, -, same⟩ | ⟨_, _, _, -, -, same⟩ | ⟨-, same⟩
  · rw [same]
    exact h
  all_goals
    rw [same]
    intro drains
    obtain ⟨_, _, draining⟩ := drains
    cases draining

private theorem not_starting_apply {move : Move} (h : ∀ pid text, s.server ≠ .starting pid text)
    (pid : Int) (text : Str) : (move.apply d s).server ≠ .starting pid text := by
  rcases apply_cases (d := d) move s with same | ⟨_, _, -, -, same⟩ | ⟨_, _, -, -, same⟩ |
    ⟨_, _, -, -, same⟩ | ⟨_, _, _, -, -, same⟩ | ⟨-, same⟩
  · rw [same]
    exact h pid text
  all_goals
    rw [same]
    exact Server.noConfusion

/-- The steps that send no SIGINT. -/
def unsignalled : Op → Prop
  | .kill _ sig => sig ≠ sigint
  | _ => True

private theorem unsignalled_of_quiet (h : quiet d o) : unsignalled o := by
  cases o with
  | kill pid sig => exact h
  | _ => trivial

variable (faithful : Faithful (d := d) ⟨0, s, env, o⟩)

include faithful

theorem Faithful.keeps {J : State → Prop} (keeps : ∀ (move : Move) (s : State), move ≠ .crash →
    move ≠ .fail → J s → J (move.apply d s)) (h : J s) : J (arrive d env s) := by
  refine arrive_keeps (fun move hm s => keeps move s ?_ ?_) h
  · intro same
    obtain rfl := same
    exact faithful.crash hm
  · intro same
    obtain rfl := same
    exact faithful.fail hm

private theorem tracked_arrive (h : Tracked s) : Tracked (arrive d env s) :=
  faithful.keeps (fun _ _ crash fail => tracked_apply crash fail) h

private theorem up_arrive (h : Up s) : Up (arrive d env s) :=
  faithful.keeps (fun _ _ crash fail => up_apply crash fail) h

private theorem tracked_step (ho : unsignalled o) (h : Tracked s) :
    Tracked (hostStep d env s o).2 := by
  have arrived := tracked_arrive faithful h
  rcases step_cases (d := d) env s o with ⟨server, pidfile⟩ | ⟨pid, rfl, -⟩ |
    ⟨argv, capture, command, output, rfl, -, -, same⟩
  · exact ⟨by rw [server, pidfile, arrived.file], by rw [server]; exact arrived.valid⟩
  · exact absurd rfl ho
  · rw [same]
    cases hs : (arrive d env s).server with
    | stopped =>
      cases command with
      | start =>
        simp only [Command.effect, hs]
        refine ⟨?_, fun pid same => ?_⟩
        · rw [arrived.file, hs]
          rfl
        · cases same
          exact faithful.pid
      | _ =>
        simp only [Command.effect, hs]
        exact arrived
    | running pid text pending =>
      have file := arrived.file
      have valid := arrived.valid
      rw [hs] at file valid
      cases command with
      | quit =>
        simp only [Command.effect, hs]
        exact ⟨file, valid⟩
      | reload =>
        simp only [Command.effect, hs]
        exact ⟨file, valid⟩
      | _ =>
        simp only [Command.effect, hs]
        exact arrived
    | _ =>
      cases command <;> simp only [Command.effect, hs] <;> exact arrived

private theorem up_step (ho : quiet d o) (h : Up s) : Up (hostStep d env s o).2 := by
  have arrived := up_arrive faithful h
  rcases step_cases (d := d) env s o with ⟨server, -⟩ | ⟨pid, rfl, -⟩ |
    ⟨argv, capture, command, output, rfl, told, -, same⟩
  · unfold Up
    rw [server]
    exact arrived
  · exact absurd rfl ho
  · rw [same]
    cases command with
    | test => exact arrived
    | start =>
      rcases arrived with ⟨pid, text, hs⟩ | ⟨pid, text, pending, hs⟩
      · exact Or.inl ⟨pid, text, by simp only [Command.effect, hs]⟩
      · exact Or.inr ⟨pid, text, pending, by simp only [Command.effect, hs]⟩
    | quit => exact absurd told ho.1
    | reload => exact absurd told ho.2

private theorem not_draining_step (ho : quiet d o) (h : ¬ Draining s) :
    ¬ Draining (hostStep d env s o).2 := by
  have arrived : ¬ Draining (arrive d env s) :=
    faithful.keeps (J := fun s => ¬ Draining s) (fun _ _ _ _ => not_draining_apply) h
  rcases step_cases (d := d) env s o with ⟨server, -⟩ | ⟨pid, rfl, -⟩ |
    ⟨argv, capture, command, output, rfl, told, -, same⟩
  · unfold Draining
    rw [server]
    exact arrived
  · exact absurd rfl ho
  · rw [same]
    cases command with
    | test => exact arrived
    | start =>
      simp only [Command.effect]
      split
      · intro drains
        obtain ⟨_, _, draining⟩ := drains
        cases draining
      · exact arrived
    | quit => exact absurd told ho.1
    | reload => exact absurd told ho.2

end Steps

/-- Where a quiet program is safe: the server is tracked, and not draining. -/
def Idle (s : State) : Prop := Tracked s ∧ ¬ Draining s

section Specs

variable {d : Daemon} {s : State}

private theorem keeps_tracked {α : Type} {p : Code α} (only : p.Only unsignalled) :
    Keeps (host d) Faithful Tracked p :=
  .of_only (fun _ _ _ faithful ho h => tracked_step faithful ho h) only

private theorem keeps_up {α : Type} {p : Code α} (only : p.Only (quiet d)) :
    Keeps (host d) Faithful Up p :=
  .of_only (fun _ _ _ faithful ho h => up_step faithful ho h) only

private theorem keeps_idle {α : Type} {p : Code α} (only : p.Only (quiet d)) :
    Keeps (host d) Faithful Idle p :=
  .of_only (fun _ _ _ faithful ho h => ⟨tracked_step faithful (unsignalled_of_quiet ho) h.1,
    not_draining_step faithful ho h.2⟩) only

private theorem tracked_of_shown {pid : Int} (h : Shown pid s) : Tracked s where
  file := by rw [h.file, h.live]; rfl
  valid pid' same := by
    rw [h.pid_eq] at same
    cases same
    exact h.valid

private theorem idle_or_shown (h : Tracked s) : Idle s ∨ ∃ pid, Shown pid s := by
  have file := h.file
  cases hs : s.server with
  | draining pid text =>
    rw [hs] at file
    exact Or.inr ⟨pid, by rw [hs]; rfl, file, h.valid pid (by rw [hs]; rfl)⟩
  | _ =>
    refine Or.inl ⟨h, ?_⟩
    intro drains
    obtain ⟨_, _, draining⟩ := drains
    rw [hs] at draining
    cases draining

private theorem shown_apply {pid : Int} {move : Move} (crash : move ≠ .crash) (fail : move ≠ .fail)
    (h : Shown pid s ∨ Tracked s ∧ s.server = .stopped) :
    Shown pid (move.apply d s) ∨
      Tracked (move.apply d s) ∧ (move.apply d s).server = .stopped := by
  have tracked : Tracked s := by
    rcases h with shown | ⟨tracked, -⟩
    · exact tracked_of_shown shown
    · exact tracked
  have tracked' := tracked_apply (d := d) crash fail tracked
  rcases apply_cases (d := d) move s with same | ⟨_, _, -, -, same⟩ | ⟨_, _, -, hs, same⟩ |
    ⟨_, _, rfl, -⟩ | ⟨pid', text, text', -, hs, same⟩ | ⟨rfl, -⟩
  · rw [same]
    exact h
  · rw [same] at tracked' ⊢
    exact Or.inr ⟨tracked', rfl⟩
  · rcases h with shown | ⟨-, stopped⟩
    · have live := shown.live
      rw [hs] at live
      cases live
    · rw [hs] at stopped
      cases stopped
  · exact absurd rfl fail
  · rcases h with shown | ⟨-, stopped⟩
    · have live := shown.live
      rw [hs] at live
      cases live
      rw [same]
      exact Or.inl ⟨rfl, shown.file, shown.valid⟩
    · rw [hs] at stopped
      cases stopped
  · exact absurd rfl crash

private theorem isRunning_idle {nameSubstr : Str}
    (isNamed : named nameSubstr (some (d.comm ++ ['\n'])) = true) (h : Tracked s) :
    wpIf (host d) Faithful (ProcessUtil.isRunning d.pidfile nameSubstr)
      (fun up s' => up = false → Idle s') s := by
  refine isRunning_no isNamed (fun e faithful => faithful.truly) (fun _ _ shown => shown) ?_ ?_
    (idle_or_shown h)
  · intro s env o faithful _ h
    obtain ⟨tracked, idle⟩ := h
    exact ⟨tracked_arrive faithful tracked, faithful.keeps (J := fun s => ¬ Draining s)
      (fun _ _ _ _ => not_draining_apply) idle⟩
  · rintro pid s env o faithful - shown
    have after := faithful.keeps (J := fun s => Shown pid s ∨ Tracked s ∧ s.server = .stopped)
      (fun _ _ crash fail => shown_apply crash fail) (Or.inl shown)
    refine after.imp_right ?_
    intro gone
    obtain ⟨tracked, stopped⟩ := gone
    refine ⟨tracked, ?_⟩
    intro drains
    obtain ⟨_, _, draining⟩ := drains
    rw [stopped] at draining
    cases draining

private theorem isRunning_up {nameSubstr : Str} (h : Idle s) :
    wpIf (host d) Faithful (ProcessUtil.isRunning d.pidfile nameSubstr)
      (fun up s' => up = true → Up s') s := by
  rw [isRunning_eq]
  intro env faithful
  have idle : Idle (arrive d env s) := ⟨tracked_arrive faithful h.1,
    faithful.keeps (J := fun s => ¬ Draining s) (fun _ _ _ _ => not_draining_apply) h.2⟩
  have read : (hostStep d env s (.readPidfile d.pidfile)).1 = (arrive d env s).pidfile := by
    simp only [hostStep, if_true]
  change wpIf (host d) Faithful (probe nameSubstr (pidOf
    (hostStep d env s (.readPidfile d.pidfile)).1)) _ (arrive d env s)
  rw [read, idle.1.file]
  cases hs : (arrive d env s).server with
  | running pid text pending =>
    have up : Up (arrive d env s) := Or.inr ⟨pid, text, pending, hs⟩
    have quiet : (probe nameSubstr (pidOf (some (pidText pid)))).Only (quiet d) :=
      (probe_only _ _).mono fun _ => quiet_of_observes
    exact wpIf_mono (keeps_up quiet _ up) fun _ _ h' _ => h'
  | draining pid text => exact absurd ⟨pid, text, hs⟩ idle.2
  | _ =>
    intro yes
    cases yes

private theorem start_up {name : Str} {argv : List Str} {capture : Bool}
    (told : d.command argv = some .start) (h : Idle s) :
    wpIf (host d) Faithful (runCommand name argv capture) (fun code s' => code = 0 → Up s') s := by
  refine wpIf_runCommand told ?_ ?_
  · intro env output faithful _ _
    have idle : ¬ Draining (arrive d env s) :=
      faithful.keeps (J := fun s => ¬ Draining s) (fun _ _ _ _ => not_draining_apply) h.2
    cases hs : (arrive d env s).server with
    | stopped => exact Or.inl ⟨_, _, by simp only [Command.effect, hs]; rfl⟩
    | starting pid text => exact Or.inl ⟨pid, text, by simp only [Command.effect, hs]⟩
    | running pid text pending =>
      exact Or.inr ⟨pid, text, pending, by simp only [Command.effect, hs]⟩
    | draining pid text => exact absurd ⟨pid, text, hs⟩ idle
  · intro _ _ _ _ _ _ _ nonzero zero
    exact absurd zero nonzero

private theorem onWith_up {nameSubstr : Str} {ensureDirs write testConfig start : Code Bool}
    (mkdirs : ensureDirs.Only (quiet d)) (writes : write.Only (quiet d))
    (tests : testConfig.Only (quiet d))
    (starts : ∀ s, Idle s → wpIf (host d) Faithful start (fun up s' => up = true → Up s') s)
    (h : Idle s) :
    wpIf (host d) Faithful (do
      if ← ProcessUtil.isRunning d.pidfile nameSubstr then pure true
      else if !(← ensureDirs) then pure false
      else if !(← write) then pure false
      else if !(← testConfig) then pure false
      else start) (fun up s' => up = true → Up s') s := by
  have fails : ∀ s : State, Idle s → false = true → Up s := fun _ _ no => Bool.noConfusion no
  have probes : (ProcessUtil.isRunning d.pidfile nameSubstr).Only (quiet d) :=
    (isRunning_only _ _).mono fun _ => quiet_of_observes
  refine wpIf_onWith (P := Idle) ?_ ((keeps_idle mkdirs).either fails)
    ((keeps_idle writes).either fails) ((keeps_idle tests).either fails) starts
  refine wpIf_mono (wpIf_and (isRunning_up h) (keeps_idle probes s h)) ?_
  intro up s' outcome
  obtain ⟨seen, idle⟩ := outcome
  cases up with
  | true => exact seen
  | false => exact idle

end Specs

theorem nginx_on (opts : Nginx.Options) {s : State} (h : Idle s) :
    wpIf (host (Nginx.daemon opts)) Faithful (Nginx.on opts)
      (fun up s' => up = true → Up s') s := by
  refine onWith_up (d := Nginx.daemon opts) (Nginx.ensureDirs_quiet opts)
    (writeListenSnippetWith_quiet _ _ _) (Nginx.testConfig_quiet opts) (fun s idle => ?_) h
  rw [wpIf_bind]
  refine wpIf_mono (start_up (Nginx.command_start opts) idle) fun code s' up => ?_
  by_cases zero : code = 0
  · rw [if_neg (not_not.mpr zero)]
    exact fun _ => up zero
  · rw [if_pos zero]
    exact fun _ _ no => Bool.noConfusion no

theorem lighttpd_on (opts : Lighttpd.Options) {s : State} (h : Idle s) :
    wpIf (host (Lighttpd.daemon opts)) Faithful (Lighttpd.on opts)
      (fun up s' => up = true → Up s') s := by
  refine onWith_up (d := Lighttpd.daemon opts) (Lighttpd.ensureDirs_quiet opts)
    (writeListenSnippetWith_quiet _ _ _) (Lighttpd.testConfig_quiet opts) (fun s idle => ?_) h
  rw [wpIf_bind]
  refine wpIf_mono (start_up (Lighttpd.command_start opts) idle) fun code s' up => ?_
  by_cases zero : code = 0
  · rw [if_neg (not_not.mpr zero)]
    have quiet : (pollRunning (Lighttpd.isRunning opts) true 30).Only
        (quiet (Lighttpd.daemon opts)) :=
      pollRunning_only (Lighttpd.isRunning_quiet opts) (fun _ => trivial) true 30
    rw [wpIf_bind]
    refine wpIf_mono (keeps_up quiet s' (up zero)) fun _ s' up => ?_
    refine wpIf_either ((keeps_up (Lighttpd.isRunning_quiet opts)).either (fun _ h => h) s' up)
      (fun s' up _ => up) ?_
    exact fun _ _ _ _ no => Bool.noConfusion no
  · rw [if_pos zero]
    exact fun _ _ no => Bool.noConfusion no

section Tracking

variable {d : Daemon} {isRunning : Code Bool} (probes : isRunning.Only (quiet d))

include probes

omit probes in
private theorem tracked_failed (text : Str) :
    Keeps (host d) Faithful Tracked (do sys (.setLastError text); pure false) :=
  keeps_tracked (p := do sys (.setLastError text); pure false) ⟨trivial, fun _ => trivial⟩

private theorem tracked_isRunning : Keeps (host d) Faithful Tracked isRunning :=
  keeps_tracked (probes.mono fun _ => unsignalled_of_quiet)

private theorem tracked_resetWith {off on : Code Bool} (stops : Keeps (host d) Faithful Tracked off)
    (starts : Keeps (host d) Faithful Tracked on) (name : Str) :
    Keeps (host d) Faithful Tracked (resetWith name isRunning off on) := by
  have probed := tracked_isRunning probes
  intro s h
  exact wpIf_resetWith (probed.either (fun _ h => h) s h) (stops.either fun _ h => h)
    (probed.either fun _ h => h) (fun us => keeps_tracked ⟨trivial, fun _ => trivial⟩)
    (fun _ h => h) tracked_failed starts

private theorem tracked_reloadWith {testConfig apply : Code Bool}
    (tests : testConfig.Only (quiet d))
    (applies : Keeps (host d) Faithful Tracked apply) (name : Str) :
    Keeps (host d) Faithful Tracked (reloadWith name isRunning testConfig apply) := by
  intro s h
  exact wpIf_reloadWith ((tracked_isRunning probes).either (fun _ h => h) s h) tracked_failed
    ((tracked_isRunning tests).either fun _ h => h) applies

private theorem tracked_setListenPortsWith {writeListenSnippet reload : Code Bool}
    (writes : writeListenSnippet.Only (quiet d))
    (reloads : Keeps (host d) Faithful Tracked reload) (httpPort httpsPort : Port) :
    Keeps (host d) Faithful Tracked
      (setListenPortsWith writeListenSnippet isRunning reload httpPort httpsPort) := by
  have written := tracked_isRunning writes
  have step : ∀ o, unsignalled o → Keeps (host d) Faithful Tracked (sys o) :=
    fun o ho => keeps_tracked ⟨ho, fun _ => trivial⟩
  refine (step .httpPort trivial).bind fun prevHttp => ?_
  refine (step .httpsPort trivial).bind fun prevHttps => ?_
  refine (step (.setHttpPort httpPort) trivial).bind fun _ => ?_
  refine (step (.setHttpsPort httpsPort) trivial).bind fun _ => ?_
  refine written.bind fun ok => ?_
  cases ok with
  | false => exact keeps_tracked ⟨trivial, fun _ => ⟨trivial, fun _ => trivial⟩⟩
  | true =>
    refine (tracked_isRunning probes).bind fun up => ?_
    cases up with
    | false => exact .ret true
    | true =>
      refine reloads.bind fun done => ?_
      cases done with
      | true => exact .ret true
      | false =>
        refine (step (.setHttpPort prevHttp) trivial).bind fun _ => ?_
        refine (step (.setHttpsPort prevHttps) trivial).bind fun _ => ?_
        exact written.bind fun _ => .ret false

omit probes

private theorem tracked_setListenPortWith {setListenPorts : Port → Port → Code Bool}
    (sets : ∀ http https, Keeps (host d) Faithful Tracked (setListenPorts http https))
    (httpPort : Port) :
    Keeps (host d) Faithful Tracked (setListenPortWith setListenPorts httpPort) :=
  (keeps_tracked (p := sys .httpsPort) ⟨trivial, fun _ => trivial⟩).bind fun _ => sets _ _

private theorem resetWith_up {nameSubstr name : Str} {off on : Code Bool}
    (isNamed : named nameSubstr (some (d.comm ++ ['\n'])) = true)
    (stops : Keeps (host d) Faithful Tracked off)
    (starts : ∀ s, Idle s → wpIf (host d) Faithful on (fun up s' => up = true → Up s') s)
    {s : State} (h : Tracked s) :
    wpIf (host d) Faithful (resetWith name (ProcessUtil.isRunning d.pidfile nameSubstr) off on)
      (fun up s' => up = true → Up s') s := by
  have probes : (ProcessUtil.isRunning d.pidfile nameSubstr).Only (quiet d) :=
    (isRunning_only _ _).mono fun _ => quiet_of_observes
  have probed : ∀ s, Tracked s → wpIf (host d) Faithful
      (ProcessUtil.isRunning d.pidfile nameSubstr) (Either (m := host d) Tracked Idle) s := by
    intro s h
    refine wpIf_mono (wpIf_and (isRunning_idle isNamed h) (tracked_isRunning probes s h)) ?_
    intro up s' outcome
    obtain ⟨idle, tracked⟩ := outcome
    cases up with
    | true => exact tracked
    | false => exact idle rfl
  refine wpIf_resetWith (probed s h) (stops.either ?_) probed
    (fun us => keeps_tracked ⟨trivial, fun _ => trivial⟩) (fun _ idle => idle.1) ?_ starts
  · exact fun _ _ no => Bool.noConfusion no
  · exact fun _ _ _ _ _ no => Bool.noConfusion no

end Tracking

theorem nginx_off (opts : Nginx.Options) :
    Keeps (host (Nginx.daemon opts)) Faithful Tracked (Nginx.off opts) := by
  refine (tracked_isRunning (Nginx.isRunning_quiet opts)).bind fun up => ?_
  cases up with
  | false => exact .ret true
  | true =>
    have told : (Nginx.run opts ["-s".toList, "quit".toList] true).Only unsignalled :=
      runCommand_only trivial (fun _ => trivial) _
    exact (keeps_tracked told).bind fun _ => .ret _

theorem Tracked.interrupted {s : State} (tracked : Tracked s)
    (shown : ∀ pid text, s.server ≠ .starting pid text) :
    Tracked { s with server := s.server.interrupted } := by
  obtain ⟨file, valid⟩ := tracked
  cases hs : s.server with
  | starting pid text => exact absurd hs (shown pid text)
  | _ =>
    rw [hs] at file valid
    exact ⟨file, valid⟩

/-- A SIGINT to the pid that was read reaches no server that is still starting. -/
private theorem tracked_interrupt {d : Daemon} :
    Keeps (host d) Faithful Tracked (do
      let pid ← readPid d.pidfile
      if pid ≤ 0 then pure true else signalPid pid sigint) := by
  intro s h
  refine wpIf_interrupt fun env faithful => ?_
  have tracked : Tracked (arrive d env s) := tracked_arrive faithful h
  generalize arrive d env s = s at tracked
  split
  · exact tracked
  rename_i positive
  have shown : ∀ pid text, s.server ≠ .starting pid text := by
    intro pid text starting
    rw [tracked.file, starting] at positive
    exact positive (show (-1 : Int) ≤ 0 by decide)
  refine wpIf_signalPid (R := fun _ s' => Tracked s') (fun env' faithful' => ?_)
    (fun _ tracked => tracked) fun _ text s' tracked => tracked_failed text s' tracked
  have tracked' : Tracked (arrive d env' s) := tracked_arrive faithful' tracked
  rcases step_cases (d := d) env' s (.kill (toPidT (pidOf s.pidfile)) sigint) with
    ⟨server, pidfile⟩ | ⟨pid, -, -, step⟩ | ⟨_, _, _, _, spawned, -⟩
  · exact ⟨by rw [server, pidfile, tracked'.file], by rw [server]; exact tracked'.valid⟩
  · rw [step]
    refine tracked'.interrupted ?_
    exact arrive_keeps (J := fun s => ∀ pid text, s.server ≠ .starting pid text)
      (fun _ _ _ h => not_starting_apply h) shown
  · cases spawned

theorem lighttpd_off (opts : Lighttpd.Options) :
    Keeps (host (Lighttpd.daemon opts)) Faithful Tracked (Lighttpd.off opts) := by
  refine (tracked_isRunning (Lighttpd.isRunning_quiet opts)).bind fun up => ?_
  cases up with
  | false => exact .ret true
  | true => exact tracked_interrupt

private theorem nginx_tracked (opts : Nginx.Options) (call : Call) :
    Keeps (host (Nginx.daemon opts)) Faithful Tracked (call.code (Nginx.controller opts)) := by
  have on := tracked_isRunning (Nginx.on_quiet opts)
  have reload : Keeps (host (Nginx.daemon opts)) Faithful Tracked (Nginx.reload opts) :=
    tracked_reloadWith (Nginx.isRunning_quiet opts) (Nginx.testConfig_quiet opts)
      ((keeps_tracked (runCommand_only trivial (fun _ => trivial) _)).bind fun _ => .ret _) _
  have sets : ∀ http https, Keeps (host (Nginx.daemon opts)) Faithful Tracked
      (Nginx.setListenPorts opts http https) :=
    tracked_setListenPortsWith (Nginx.isRunning_quiet opts)
      (writeListenSnippetWith_quiet _ _ _) reload
  cases call with
  | on => exact on
  | off => exact nginx_off opts
  | reset => exact tracked_resetWith (Nginx.isRunning_quiet opts) (nginx_off opts) on _
  | reload => exact reload
  | setListenPort httpPort => exact tracked_setListenPortWith sets httpPort
  | setListenPorts httpPort httpsPort => exact sets httpPort httpsPort
  | isRunning => exact tracked_isRunning (Nginx.isRunning_quiet opts)
  | testConfig => exact tracked_isRunning (Nginx.testConfig_quiet opts)
  | pause => exact keeps_tracked (p := Call.code _ .pause) ⟨trivial, fun _ => trivial⟩

private theorem lighttpd_tracked (opts : Lighttpd.Options) (call : Call) :
    Keeps (host (Lighttpd.daemon opts)) Faithful Tracked
      (call.code (Lighttpd.controller opts)) := by
  have on := tracked_isRunning (Lighttpd.on_quiet opts)
  have reset := tracked_resetWith (Lighttpd.isRunning_quiet opts) (lighttpd_off opts) on
    "lighttpd".toList
  have reload := tracked_reloadWith (Lighttpd.isRunning_quiet opts)
    (Lighttpd.testConfig_quiet opts) reset "lighttpd".toList
  have sets : ∀ http https, Keeps (host (Lighttpd.daemon opts)) Faithful Tracked
      (Lighttpd.setListenPorts opts http https) :=
    tracked_setListenPortsWith (Lighttpd.isRunning_quiet opts)
      (writeListenSnippetWith_quiet _ _ _) reload
  cases call with
  | on => exact on
  | off => exact lighttpd_off opts
  | reset => exact reset
  | reload => exact reload
  | setListenPort httpPort => exact tracked_setListenPortWith sets httpPort
  | setListenPorts httpPort httpsPort => exact sets httpPort httpsPort
  | isRunning => exact tracked_isRunning (Lighttpd.isRunning_quiet opts)
  | testConfig => exact tracked_isRunning (Lighttpd.testConfig_quiet opts)
  | pause => exact keeps_tracked (p := Call.code _ .pause) ⟨trivial, fun _ => trivial⟩

/-- The calls that start the server. -/
def Starts : Call → Prop
  | .on => True
  | .reset => True
  | _ => False

/-- The calls that neither stop nor restart the server. -/
def Gentle : Call → Prop
  | .on => True
  | .isRunning => True
  | .testConfig => True
  | .pause => True
  | _ => False

/-- In every run whose calls are made where they may be, a start that returned true leaves the
server up, in every state until it is told something else. -/
def KeepsUp (d : Daemon) (c : WebServerController) (mayCall : Call → State → Prop) : Prop :=
  ∀ (s : State) (calls : List (Call × (Nat → Env))), Tracked s →
    (∀ x ∈ made (host d) (Call.code c) s calls,
      mayCall x.call x.pre ∧ ∀ e ∈ x.outcome.log, Faithful e) →
    ∀ before x gentle after,
      made (host d) (Call.code c) s calls = before ++ x :: (gentle ++ after) →
      Starts x.call → x.outcome.result = .ok true → (∀ y ∈ gentle, Gentle y.call) →
      Up x.outcome.state ∧ ∀ y ∈ gentle, ∀ e ∈ y.outcome.log,
        (∀ moves, moves <+: e.env.moves → Up (moves.foldl (Move.apply d) e.pre)) ∧ Up e.post

/-- The server is not asked to start while it is draining. -/
def AtRest (call : Call) (s : State) : Prop := call = .on → ¬ Draining s

private theorem staysUp_of {d : Daemon} {c : WebServerController}
    (tracks : ∀ call, Keeps (host d) Faithful Tracked (Call.code c call))
    (on : ∀ s, Idle s → wpIf (host d) Faithful c.on (fun up s' => up = true → Up s') s)
    (reset : ∀ s, Tracked s → wpIf (host d) Faithful c.reset (fun up s' => up = true → Up s') s)
    (gentle : ∀ call, Gentle call → (Call.code c call).Only (quiet d)) :
    KeepsUp d c AtRest := by
  intro s calls tracked meets before x told after split starts returned allGentle
  have hx : x ∈ made (host d) (Call.code c) s calls := by simp [split]
  obtain ⟨pre, -, env, ran⟩ := made_keeps (A := AtRest) (fun call s _ h => tracks call s h)
    tracked meets x hx
  obtain ⟨rest, faithful⟩ := meets x hx
  -- the call has started the server
  have holds : wpIf (host d) Faithful (Call.code c x.call) (fun up s' => up = true → Up s')
      x.pre := by
    cases hc : x.call with
    | on => exact on x.pre ⟨pre, rest hc⟩
    | reset => exact reset x.pre pre
    | _ =>
      rw [hc] at starts
      exact starts.elim
  have up : Up x.outcome.state := by
    rw [ran] at faithful returned ⊢
    obtain ⟨a, result, after⟩ := run_of_wpIf holds faithful
    rw [result] at returned
    cases returned
    exact after rfl
  -- and the next ones tell it nothing
  obtain ⟨s', calls', from'⟩ := made_from split
  obtain ⟨calls'', next, -⟩ := made_cons from'
  have isMade : made (host d) (Call.code c) x.outcome.state (calls''.take told.length) = told := by
    rw [made_take, ← next, List.take_left]
  have keeps : ∀ (env : Env) (s : State) (o : Op), Faithful (d := d) ⟨0, s, env, o⟩ → quiet d o →
      Up s → Up (hostStep d env s o).2 := fun env s o faithful ho h => up_step faithful ho h
  have safe : ∀ y ∈ told, Gentle y.call ∧ ∀ e ∈ y.outcome.log, Faithful e :=
    fun y hy => ⟨allGentle y hy, (meets y (by simp [split, hy])).2⟩
  have stays : ∀ y ∈ told, Up y.pre ∧ Up y.outcome.state ∧
      ∃ env, y.outcome = run (host d) (Call.code c y.call) y.pre env := by
    rw [← isMade] at safe ⊢
    exact made_keeps (A := fun call _ => Gentle call)
      (fun call s ok h => wpIf_keeps keeps (gentle call ok) h) up safe
  refine ⟨up, fun y hy e he => ?_⟩
  obtain ⟨upThere, -, env', ran'⟩ := stays y hy
  obtain ⟨ok, steps⟩ := safe y hy
  have atStep : Up e.pre ∧ Up e.post := by
    rw [ran'] at he steps
    exact (log_keeps keeps (gentle y.call ok) upThere steps).2 e he
  refine ⟨fun moves early => ?_, atStep.2⟩
  obtain ⟨crash, fail, -, -⟩ := steps e he
  have arrived : Up (arrive d { e.env with moves := moves } e.pre) := by
    refine arrive_keeps (fun move hm s => up_apply ?_ ?_) atStep.1
    · intro same
      obtain rfl := same
      exact crash (early.subset hm)
    · intro same
      obtain rfl := same
      exact fail (early.subset hm)
  exact arrived

/-- After a start that returned true the server stays up, in every run in which it is not asked
to start while it is draining. -/
theorem stays_up_unless_draining (nginx : Nginx.Options) (lighttpd : Lighttpd.Options) :
    KeepsUp (Nginx.daemon nginx) (Nginx.controller nginx) AtRest ∧
      KeepsUp (Lighttpd.daemon lighttpd) (Lighttpd.controller lighttpd) AtRest := by
  constructor
  · refine staysUp_of (nginx_tracked nginx) (fun s h => nginx_on nginx h) (fun s h => ?_) ?_
    · exact resetWith_up named_nginx (nginx_off nginx) (fun s h => nginx_on nginx h) h
    · intro call gentle
      cases call with
      | on => exact Nginx.on_quiet nginx
      | isRunning => exact Nginx.isRunning_quiet nginx
      | testConfig => exact Nginx.testConfig_quiet nginx
      | pause => exact ⟨trivial, fun _ => trivial⟩
      | _ => exact gentle.elim
  · refine staysUp_of (lighttpd_tracked lighttpd) (fun s h => lighttpd_on lighttpd h)
      (fun s h => ?_) ?_
    · exact resetWith_up named_lighttpd (lighttpd_off lighttpd)
        (fun s h => lighttpd_on lighttpd h) h
    · intro call gentle
      cases call with
      | on => exact Lighttpd.on_quiet lighttpd
      | isRunning => exact Lighttpd.isRunning_quiet lighttpd
      | testConfig => exact Lighttpd.testConfig_quiet lighttpd
      | pause => exact ⟨trivial, fun _ => trivial⟩
      | _ => exact gentle.elim

section Instance

/-- nginx is running, and told to quit it takes its time. -/
def serving : State where
  http := 8080
  https := 8443
  lastError := []
  fs := .empty
  pidfile := some "5\n".toList
  server := .running 5 [] false
  others _ := none

private theorem tracked_serving : Tracked serving where
  file := by decide
  valid pid same := by
    cases same
    exact ⟨by decide, by decide⟩

/-- Every call and command succeeds; before a step the server does what is given. -/
def fine (moves : List Move) : Env where
  moves := moves
  failure := none
  cuts := []
  written := 0
  child := .exited 0 []
  pid := 7

private theorem faithful_fine {d : Daemon} {moves : List Move} (crash : .crash ∉ moves)
    (fail : .fail ∉ moves) {e : Event (host d)} (he : e.env = fine moves) : Faithful e where
  crash := by rw [he]; exact crash
  fail := by rw [he]; exact fail
  truly _ _ _ := by rw [he]; rfl
  pid := by rw [he]; exact validPid_seven

private theorem faithful_run {d : Daemon} {p : Code Bool} {s : State} {moves : List Move}
    (crash : .crash ∉ moves) (fail : .fail ∉ moves) :
    ∀ e ∈ (run (host d) p s fun _ => fine moves).log, Faithful e := by
  intro e he
  obtain ⟨n, hn⟩ := env_of_mem_log e he
  exact faithful_fine crash fail hn

/-- Nothing is running yet. -/
def halted : State := { serving with pidfile := none, server := .stopped }

private theorem tracked_halted : Tracked halted where
  file := rfl
  valid _ none := nomatch none

/-- nginx is started, comes up and is left alone. -/
abbrev started : Outcome (host (Nginx.daemon {})) Empty Bool :=
  run (host (Nginx.daemon {})) (Nginx.on {}) halted fun _ => fine [.comeUp]

/-- The theorem at that run. -/
theorem stays_up_unless_draining_started : started.result = .ok true ∧ Up started.state := by
  have returned : started.result = .ok true := by decide +kernel
  refine ⟨returned, ((stays_up_unless_draining {} {}).1 halted
    [(.on, fun _ => fine [.comeUp]), (.pause, fun _ => fine [])] tracked_halted
    (fun x hx => ?_) [] _ [_] [] rfl trivial returned
    (fun y hy => by rw [List.mem_singleton] at hy; rw [hy]; trivial)).1⟩
  simp only [made, List.mem_cons, List.not_mem_nil, or_false] at hx
  rcases hx with rfl | rfl
  · refine ⟨?_, faithful_run (by decide) (by decide)⟩
    intro _ drains
    obtain ⟨_, _, draining⟩ := drains
    cases draining
  · refine ⟨?_, faithful_run (by decide) (by decide)⟩
    intro none
    cases none

/-- Told to quit, then asked to start, then left alone until the old master exits. -/
def asked : List (Call × (Nat → Env)) :=
  [(.off, fun _ => fine []), (.on, fun _ => fine []), (.pause, fun _ => fine [.exit])]

private theorem faithful_asked {d : Daemon} {c : WebServerController} :
    ∀ x ∈ made (host d) (Call.code c) serving asked, ∀ e ∈ x.outcome.log, Faithful e := by
  intro x hx
  simp only [asked, made, List.mem_cons, List.not_mem_nil, or_false] at hx
  rcases hx with rfl | rfl | rfl
  all_goals exact faithful_run (by decide) (by decide)

/-- A start that finds the old master still draining returns true. -/
theorem not_keepsUp_draining :
    ¬ KeepsUp (Nginx.daemon {}) (Nginx.controller {}) (fun _ _ => True) := by
  intro keeps
  have up := (keeps serving asked tracked_serving
    (fun x hx => ⟨trivial, faithful_asked x hx⟩) [_] _ [_] [] rfl trivial (by decide +kernel)
    (fun y hy => by rw [List.mem_singleton] at hy; rw [hy]; trivial)).1
  have draining : (run (host (Nginx.daemon {})) (Nginx.on {}) (run (host (Nginx.daemon {}))
      (Nginx.off {}) serving fun _ => fine []).state fun _ => fine []).state.server =
      .draining 5 [] := by decide +kernel
  rcases up with ⟨pid, text, hs⟩ | ⟨pid, text, pending, hs⟩
  · cases draining.symm.trans hs
  · cases draining.symm.trans hs

end Instance

end Webengine.Results.StaysUp
