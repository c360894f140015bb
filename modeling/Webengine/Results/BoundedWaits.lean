/- source: backend/src/NginxController.cpp, backend/src/LighttpdController.cpp
   digest: Whatever the server does or fails to do, a call of a controller sleeps for a bounded
   time, and most calls do not sleep at all. -/

import Webengine.Control.Lifecycle
import Webengine.Control.Lighttpd
import Webengine.Control.Nginx
import Webengine.Library.Traces
import Mathlib.Algebra.GroupWithZero.Nat

set_option autoImplicit false
set_option relaxedAutoImplicit false

namespace Webengine.Results.BoundedWaits

open Webengine.Control
open Webengine.Control.Controllers
open Webengine.Control.Host
open Webengine.Control.Lifecycle (Call)
open Webengine.Control.ProcessUtil
open Webengine.Library.Calls
open Webengine.Library.Machines
open Webengine.Library.Programs (Prog)
open Webengine.Library.Traces

/-- How long a step sleeps, in microseconds. -/
def slept : Op → Option Nat
  | .usleep us => some us
  | _ => none

/-- The program sleeps for at most `n` microseconds. -/
def Waits {α : Type} (n : Nat) (p : Code α) : Prop := Ends slept p fun _ us => us.sum ≤ n

section Rules

variable {α β : Type} {n k : Nat}

theorem Waits.mono {p : Code α} (h : Waits n p) (le : n ≤ k) : Waits k p :=
  Ends.mono h fun _ _ within => within.trans le

private theorem waits_of_awake {p : Code α} (awake : p.Only (Hidden slept)) : Waits n p :=
  (ends_of_hidden awake).mono fun _ us none => by simp [none]

theorem Waits.bind {p : Code α} {g : α → Code β} (hp : Waits n p) (hg : ∀ a, Waits k (g a)) :
    Waits (n + k) (p >>= g) := by
  refine ends_bind.mpr (Ends.mono hp fun a us within => Ends.mono (hg a) fun b us' within' => ?_)
  rw [List.sum_append]
  exact Nat.add_le_add within within'

theorem Waits.after {p : Code α} {g : α → Code β} (awake : p.Only (Hidden slept))
    (rest : ∀ a, Waits n (g a)) : Waits n (p >>= g) := ends_bind_of_hidden awake rest

private theorem awake_of_observes {o : Op} (h : observes o) : Hidden slept o := by
  cases o with
  | usleep us => exact h.elim
  | _ => rfl

private theorem awake_of_replaces {o : Op} (h : replaces o) : Hidden slept o := by
  cases o with
  | usleep us => exact h.elim
  | _ => rfl

end Rules

section Parts

variable {isRunning writeListenSnippet testConfig off on apply reload : Code Bool} {n : Nat}

private theorem isRunning_awake (pidfile name : Engine.Roles.Str) :
    (ProcessUtil.isRunning pidfile name).Only (Hidden slept) :=
  (isRunning_only pidfile name).mono fun _ => awake_of_observes

private theorem runCommand_awake (name : Engine.Roles.Str) (argv : List Engine.Roles.Str)
    (capture : Bool) : (runCommand name argv capture).Only (Hidden slept) :=
  runCommand_only (S := Hidden slept) rfl (fun _ => rfl) name

private theorem exitsZero_awake (name : Engine.Roles.Str) (argv : List Engine.Roles.Str)
    (capture : Bool) : (exitsZero (runCommand name argv capture)).Only (Hidden slept) :=
  Prog.only_bind (runCommand_awake name argv capture) fun _ => trivial

private theorem write_awake (listenFile : Engine.Roles.Str) (httpsEnabled : Bool)
    (snippet : Port → Port → Engine.Roles.Str) :
    (writeListenSnippetWith listenFile httpsEnabled snippet).Only (Hidden slept) :=
  writeListenSnippetWith_only (S := Hidden slept) ⟨rfl, rfl⟩ (fun _ => awake_of_replaces) _ _ _

variable (probes : isRunning.Only (Hidden slept))

include probes

/-- Each probe that is not the last one is followed by 100 ms. -/
private theorem pollRunning_waits (up : Bool) (n : Nat) :
    Waits (n * 100000) (pollRunning isRunning up n) := by
  induction n with
  | zero => exact Nat.le_refl 0
  | succ n ih =>
    refine .after probes fun running => ?_
    split
    · exact waits_of_awake trivial
    · have sleeps : Waits 100000 (sys (.usleep (100 * 1000))) := fun _ => Nat.le_refl 100000
      exact (sleeps.bind fun _ => ih).mono (by omega)

private theorem resetWith_waits (stops : off.Only (Hidden slept)) (starts : Waits n on)
    (name : Engine.Roles.Str) : Waits (5000000 + n) (resetWith name isRunning off on) := by
  refine .after probes fun up => ?_
  cases up with
  | false => exact starts.mono (Nat.le_add_left _ _)
  | true =>
    refine .after stops fun stopped => ?_
    cases stopped with
    | false => exact waits_of_awake trivial
    | true =>
      refine (pollRunning_waits probes false 50).bind fun _ => .after probes fun still => ?_
      cases still with
      | true => exact waits_of_awake ⟨rfl, fun _ => trivial⟩
      | false => exact starts

private theorem reloadWith_waits (tests : testConfig.Only (Hidden slept)) (applies : Waits n apply)
    (name : Engine.Roles.Str) : Waits n (reloadWith name isRunning testConfig apply) := by
  refine .after probes fun up => ?_
  cases up with
  | false => exact waits_of_awake ⟨rfl, fun _ => trivial⟩
  | true =>
    refine .after tests fun passed => ?_
    cases passed with
    | false => exact waits_of_awake trivial
    | true => exact applies

private theorem setListenPortsWith_waits (writes : writeListenSnippet.Only (Hidden slept))
    (reloads : Waits n reload) (http https : Port) :
    Waits n (setListenPortsWith writeListenSnippet isRunning reload http https) := by
  refine .after (p := sys .httpPort) ⟨rfl, fun _ => trivial⟩ fun prevHttp => ?_
  refine .after (p := sys .httpsPort) ⟨rfl, fun _ => trivial⟩ fun prevHttps => ?_
  refine .after (p := sys (.setHttpPort http)) ⟨rfl, fun _ => trivial⟩ fun _ => ?_
  refine .after (p := sys (.setHttpsPort https)) ⟨rfl, fun _ => trivial⟩ fun _ => ?_
  refine .after writes fun written => ?_
  cases written with
  | false => exact waits_of_awake ⟨rfl, fun _ => ⟨rfl, fun _ => trivial⟩⟩
  | true =>
    refine .after probes fun up => ?_
    cases up with
    | false => exact waits_of_awake trivial
    | true =>
      refine (reloads.bind (k := 0) fun done => ?_).mono (Nat.le_of_eq (Nat.add_zero n))
      cases done with
      | true => exact waits_of_awake trivial
      | false =>
        have back : (writeListenSnippet >>= fun _ => .ret false).Only (Hidden slept) :=
          Prog.only_bind writes fun _ => trivial
        exact waits_of_awake ⟨rfl, fun _ => ⟨rfl, fun _ => back⟩⟩

end Parts

/-- How long a call of the nginx controller can sleep: for the 50 probes of a reset. -/
def nginxBound : Call → Nat
  | .reset => 5000000
  | _ => 0

/-- How long a call of the lighttpd controller can sleep: for the 30 probes of a start, and the
50 of a reset, by which it also reloads. -/
def lighttpdBound : Call → Nat
  | .on => 3000000
  | .reset => 8000000
  | .reload => 8000000
  | .setListenPort _ => 8000000
  | .setListenPorts _ _ => 8000000
  | _ => 0

private theorem pause_waits : Waits 0 (do sys (.usleep 0); pure true) := fun _ => Nat.le_refl 0

section Nginx

variable (opts : Nginx.Options)

private theorem nginx_on_awake : (Nginx.on opts).Only (Hidden slept) := by
  refine onWith_only (S := Hidden slept) (isRunning_awake _ _)
    (Nginx.ensureDirs_only opts (fun _ => rfl) fun _ => rfl) (write_awake _ _ _)
    (exitsZero_awake _ _ _) ?_
  refine Prog.only_bind (runCommand_awake _ _ _) fun code => ?_
  split
  · exact ⟨rfl, fun _ => trivial⟩
  · trivial

private theorem nginx_off_awake : (Nginx.off opts).Only (Hidden slept) := by
  refine Prog.only_bind (isRunning_awake _ _) fun up => ?_
  split
  · trivial
  · exact exitsZero_awake _ _ _

private theorem nginx_reload_waits : Waits 0 (Nginx.reload opts) :=
  reloadWith_waits (isRunning_awake _ _) (exitsZero_awake _ _ _)
    (waits_of_awake (exitsZero_awake _ _ _)) _

private theorem nginx_setListenPorts_waits (http https : Port) :
    Waits 0 (Nginx.setListenPorts opts http https) :=
  setListenPortsWith_waits (isRunning_awake _ _) (write_awake _ _ _) (nginx_reload_waits opts)
    http https

private theorem nginx_waits (call : Call) :
    Waits (nginxBound call) (call.code (Nginx.controller opts)) := by
  cases call with
  | on => exact waits_of_awake (nginx_on_awake opts)
  | off => exact waits_of_awake (nginx_off_awake opts)
  | reset =>
    exact resetWith_waits (isRunning_awake _ _) (nginx_off_awake opts)
      (waits_of_awake (n := 0) (nginx_on_awake opts)) _
  | reload => exact nginx_reload_waits opts
  | setListenPort http =>
    exact .after (p := sys .httpsPort) ⟨rfl, fun _ => trivial⟩ fun https =>
      nginx_setListenPorts_waits opts http https
  | setListenPorts http https => exact nginx_setListenPorts_waits opts http https
  | isRunning => exact waits_of_awake (isRunning_awake _ _)
  | testConfig => exact waits_of_awake (exitsZero_awake _ _ _)
  | pause => exact pause_waits

end Nginx

section Lighttpd

variable (opts : Lighttpd.Options)

private theorem lighttpd_on_waits : Waits 3000000 (Lighttpd.on opts) := by
  refine .after (isRunning_awake _ _) fun up => ?_
  split
  · exact waits_of_awake trivial
  refine .after (Lighttpd.ensureDirs_only opts (fun _ => rfl) fun _ => rfl) fun made => ?_
  split
  · exact waits_of_awake trivial
  refine .after (write_awake _ _ _) fun written => ?_
  split
  · exact waits_of_awake trivial
  refine .after (exitsZero_awake _ _ _) fun passed => ?_
  split
  · exact waits_of_awake trivial
  refine .after (runCommand_awake _ _ _) fun code => ?_
  split
  · exact waits_of_awake ⟨rfl, fun _ => trivial⟩
  -- the master is waited for
  refine (pollRunning_waits (isRunning_awake _ _) true 30).bind (k := 0) fun _ => ?_
  refine .after (isRunning_awake _ _) fun up => ?_
  split
  · exact waits_of_awake ⟨rfl, fun _ => trivial⟩
  · exact waits_of_awake trivial

private theorem lighttpd_off_awake : (Lighttpd.off opts).Only (Hidden slept) :=
  Lighttpd.off_only opts (fun _ => awake_of_observes) (fun _ => rfl) fun _ => rfl

private theorem lighttpd_reset_waits : Waits 8000000 (Lighttpd.reset opts) :=
  resetWith_waits (isRunning_awake _ _) (lighttpd_off_awake opts) (lighttpd_on_waits opts) _

private theorem lighttpd_reload_waits : Waits 8000000 (Lighttpd.reload opts) :=
  reloadWith_waits (isRunning_awake _ _) (exitsZero_awake _ _ _) (lighttpd_reset_waits opts) _

private theorem lighttpd_setListenPorts_waits (http https : Port) :
    Waits 8000000 (Lighttpd.setListenPorts opts http https) :=
  setListenPortsWith_waits (isRunning_awake _ _) (write_awake _ _ _) (lighttpd_reload_waits opts)
    http https

private theorem lighttpd_waits (call : Call) :
    Waits (lighttpdBound call) (call.code (Lighttpd.controller opts)) := by
  cases call with
  | on => exact lighttpd_on_waits opts
  | off => exact waits_of_awake (lighttpd_off_awake opts)
  | reset => exact lighttpd_reset_waits opts
  | reload => exact lighttpd_reload_waits opts
  | setListenPort http =>
    exact .after (p := sys .httpsPort) ⟨rfl, fun _ => trivial⟩ fun https =>
      lighttpd_setListenPorts_waits opts http https
  | setListenPorts http https => exact lighttpd_setListenPorts_waits opts http https
  | isRunning => exact waits_of_awake (isRunning_awake _ _)
  | testConfig => exact waits_of_awake (exitsZero_awake _ _ _)
  | pause => exact pause_waits

end Lighttpd

/-- In any history of calls each sleeps for at most so long, whatever the system does. -/
def WithinBounds (d : Daemon) (c : WebServerController) (bound : Call → Nat) : Prop :=
  ∀ (s : State) (calls : List (Call × (Nat → Env))), ∀ x ∈ made (host d) (Call.code c) s calls,
    (∃ ok, x.outcome.result = .ok ok) ∧ (shows slept x.outcome.log).sum ≤ bound x.call

private theorem withinBounds {d : Daemon} {c : WebServerController} {bound : Call → Nat}
    (waits : ∀ call : Call, Waits (bound call) (call.code c)) : WithinBounds d c bound := by
  intro s calls x hx
  obtain ⟨env, same⟩ := outcome_of_mem_made x hx
  rw [same]
  cases returned : (run (host d) (x.call.code c) x.pre env).result with
  | error e => exact e.elim
  | ok a => exact ⟨⟨a, rfl⟩, (waits x.call).run returned⟩

/-- A reset of nginx sleeps for 5 s at most and its other calls do not sleep at all; a start of
lighttpd sleeps for 3 s at most, and 8 s are the most for a call that restarts it. -/
theorem calls_within_bounds (nginx : Nginx.Options) (lighttpd : Lighttpd.Options) :
    WithinBounds (Nginx.daemon nginx) (Nginx.controller nginx) nginxBound ∧
      WithinBounds (Lighttpd.daemon lighttpd) (Lighttpd.controller lighttpd) lighttpdBound :=
  ⟨withinBounds (nginx_waits nginx), withinBounds (lighttpd_waits lighttpd)⟩

end Webengine.Results.BoundedWaits
