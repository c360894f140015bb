/- source: backend/src/NginxController.cpp, backend/src/LighttpdController.cpp
   digest: Both controllers do what the model of a deployment does. -/

import Webengine.Control.Deployment

set_option autoImplicit false
set_option relaxedAutoImplicit false

namespace Webengine.Control.Simulation

open Webengine.Engine.Roles (Str)
open Webengine.Control.Host
open Webengine.Control.ProcessUtil
open Webengine.Control.Controllers
open Webengine.Control.Lifecycle
open Webengine.Control.Behaviour
open Webengine.Control.Deployment
open Webengine.Library.Calls
open Webengine.Library.Machines

private theorem ensureDir_true {d : Daemon} {accepts : Str → Bool} {waits : Prop} (path : Str)
    (s : State) :
    wpIf (host d) (Behaves d accepts waits) (ensureDir path) (fun made _ => made = true) s := by
  intro env behaves
  have unrefused : env.failure = none := behaves.failure
  simp only [hostStep, unrefused]
  rfl

private theorem meets_pause {d : Daemon} {accepts : Str → Bool} {waits : Prop}
    {snippet : Port → Port → Str} (c : WebServerController) :
    Meets d accepts waits snippet (Call.code c .pause) fun a => (true, a) :=
  fun _ _ h _ behaves => ⟨rfl, h.step behaves trivial⟩

section Nginx

variable (opts : Nginx.Options) (accepts : Str → Bool)

/-- nginx has come up, or will have, when its start returns. -/
abbrev NginxMeets (p : Code Bool) (f : Model → Bool × Model) : Prop :=
  Meets (Nginx.daemon opts) accepts False (Nginx.snippet opts) p f

theorem nginx_isRunning : NginxMeets opts accepts (Nginx.isRunning opts)
    fun a => (a.served.isSome, a) :=
  fun _ _ h => isRunning_shows (d := Nginx.daemon opts) named_nginx h

theorem nginx_testConfig : NginxMeets opts accepts (Nginx.testConfig opts)
    fun a => (accepts (a.text (Nginx.snippet opts)), a) :=
  fun _ _ h => testConfig_shows (Nginx.command_test opts) h

private theorem nginx_ensureDirs : NginxMeets opts accepts (Nginx.ensureDirs opts)
    fun a => (true, a) := by
  intro a s h
  have only : (Nginx.ensureDirs opts).Only (steady (Nginx.daemon opts)) :=
    Nginx.ensureDirs_only opts (fun _ => trivial) fun _ => trivial
  have all : ∀ paths s, wpIf (host (Nginx.daemon opts)) (Behaves (Nginx.daemon opts) accepts False)
      (Nginx.ensureAll true paths) (fun ok _ => ok = true) s := by
    intro paths
    induction paths with
    | nil => exact fun _ => rfl
    | cons path paths ih =>
      intro s
      unfold Nginx.ensureAll
      rw [wpIf_bind]
      refine wpIf_mono (ensureDir_true path s) ?_
      intro made s' outcome
      obtain rfl := outcome
      exact ih s'
  refine wpIf_and ?_ (keeps_shows only s h)
  unfold Nginx.ensureDirs
  rw [wpIf_bind]
  refine wpIf_mono (all _ s) ?_
  intro made s' outcome
  obtain rfl := outcome
  rfl

theorem nginx_write (http https : Port) (served : Option Str) (s : State) (hh : s.http = http)
    (hs : s.https = https) (h : Serves (Nginx.daemon opts) False served s) :
    wpIf (host (Nginx.daemon opts)) (Behaves (Nginx.daemon opts) accepts False)
      (Nginx.writeListenSnippet opts) (fun written s' => written = true ∧
        Model.Is (Nginx.daemon opts) False (Nginx.snippet opts) ⟨http, https, served⟩ s') s :=
  write_shows (d := Nginx.daemon opts) (Nginx.snippet_of_disabled opts) hh hs h

theorem nginx_on : NginxMeets opts accepts (Nginx.on opts)
    (Model.on accepts (Nginx.snippet opts)) := by
  refine Meets.onWith (nginx_isRunning opts accepts) (nginx_ensureDirs opts accepts)
    (nginx_write opts accepts) (nginx_testConfig opts accepts) ?_
  intro a s stopped h
  obtain ⟨http, https, served⟩ := a
  obtain rfl := stopped
  rw [wpIf_bind]
  refine wpIf_mono (start_coming (Nginx.command_start opts) h) ?_
  intro code s' outcome
  obtain ⟨rfl, coming⟩ := outcome
  exact ⟨rfl, coming.shows id⟩

theorem nginx_off : NginxMeets opts accepts (Nginx.off opts) Model.off := by
  intro a s h
  obtain ⟨http, https, served⟩ := a
  unfold Nginx.off
  rw [wpIf_bind]
  refine wpIf_mono (nginx_isRunning opts accepts _ s h) ?_
  intro up s₁ outcome
  obtain ⟨rfl, is₁⟩ := outcome
  cases served with
  | none => exact ⟨rfl, is₁⟩
  | some want =>
    change wpIf _ _ (exitsZero _) _ s₁
    unfold exitsZero
    rw [wpIf_bind]
    refine wpIf_mono (quit_shows (Nginx.command_quit opts) is₁) ?_
    intro code s₂ outcome
    obtain ⟨rfl, is₂⟩ := outcome
    exact ⟨rfl, is₂⟩

theorem nginx_reload : NginxMeets opts accepts (Nginx.reload opts)
    (Model.reload accepts (Nginx.snippet opts)) := by
  refine Meets.reloadWith (nginx_isRunning opts accepts) (nginx_testConfig opts accepts) ?_
  intro a s up _ h
  obtain ⟨http, https, served⟩ := a
  obtain ⟨want, rfl⟩ := Option.isSome_iff_exists.mp up
  unfold exitsZero
  rw [wpIf_bind]
  refine wpIf_mono (reload_shows (Nginx.command_reload opts) h) ?_
  intro code s' outcome
  obtain ⟨rfl, is'⟩ := outcome
  exact ⟨rfl, is'⟩

theorem nginx_setListenPorts (http https : Port) :
    NginxMeets opts accepts (Nginx.setListenPorts opts http https)
      fun a => a.setListenPorts accepts (Nginx.snippet opts) http https :=
  Meets.setListenPortsWith (nginx_isRunning opts accepts) (nginx_reload opts accepts)
    (nginx_write opts accepts) http https

/-- The nginx controller does what the model does. -/
theorem nginx_meets (call : Call) : NginxMeets opts accepts (call.code (Nginx.controller opts))
    fun a => a.step accepts (Nginx.snippet opts) call := by
  cases call with
  | on => exact nginx_on opts accepts
  | off => exact nginx_off opts accepts
  | reset =>
    exact Meets.resetWith (nginx_isRunning opts accepts) (nginx_off opts accepts)
      (nginx_on opts accepts)
  | reload => exact nginx_reload opts accepts
  | setListenPort http =>
    exact Meets.setListenPortWith http fun https => nginx_setListenPorts opts accepts http https
  | setListenPorts http https => exact nginx_setListenPorts opts accepts http https
  | isRunning => exact nginx_isRunning opts accepts
  | testConfig => exact nginx_testConfig opts accepts
  | pause => exact meets_pause _

end Nginx

section Lighttpd

variable (opts : Lighttpd.Options) (accepts : Str → Bool)

/-- lighttpd's start waits for the server to come up. -/
abbrev LighttpdMeets (p : Code Bool) (f : Model → Bool × Model) : Prop :=
  Meets (Lighttpd.daemon opts) accepts True (Lighttpd.snippet opts) p f

theorem lighttpd_isRunning : LighttpdMeets opts accepts (Lighttpd.isRunning opts)
    fun a => (a.served.isSome, a) :=
  fun _ _ h => isRunning_shows (d := Lighttpd.daemon opts) named_lighttpd h

theorem lighttpd_testConfig : LighttpdMeets opts accepts (Lighttpd.testConfig opts)
    fun a => (accepts (a.text (Lighttpd.snippet opts)), a) :=
  fun _ _ h => testConfig_shows (Lighttpd.command_test opts) h

private theorem lighttpd_ensureDirs : LighttpdMeets opts accepts (Lighttpd.ensureDirs opts)
    fun a => (true, a) := by
  intro a s h
  have only : (Lighttpd.ensureDirs opts).Only (steady (Lighttpd.daemon opts)) :=
    Lighttpd.ensureDirs_only opts (fun _ => trivial) fun _ => trivial
  refine wpIf_and ?_ (keeps_shows only s h)
  unfold Lighttpd.ensureDirs
  rw [wpIf_bind]
  refine wpIf_mono (ensureDir_true _ s) ?_
  intro made s' outcome
  obtain rfl := outcome
  rfl

theorem lighttpd_write (http https : Port) (served : Option Str) (s : State) (hh : s.http = http)
    (hs : s.https = https) (h : Serves (Lighttpd.daemon opts) True served s) :
    wpIf (host (Lighttpd.daemon opts)) (Behaves (Lighttpd.daemon opts) accepts True)
      (Lighttpd.writeListenSnippet opts) (fun written s' => written = true ∧
        Model.Is (Lighttpd.daemon opts) True (Lighttpd.snippet opts) ⟨http, https, served⟩ s') s :=
  write_shows (d := Lighttpd.daemon opts) (Lighttpd.snippet_of_disabled opts) hh hs h

theorem lighttpd_off : LighttpdMeets opts accepts (Lighttpd.off opts) Model.off := by
  intro a s h
  obtain ⟨http, https, served⟩ := a
  unfold Lighttpd.off
  rw [wpIf_bind]
  refine wpIf_mono (lighttpd_isRunning opts accepts _ s h) ?_
  intro up s₁ outcome
  obtain ⟨rfl, is₁⟩ := outcome
  cases served with
  | none => exact ⟨rfl, is₁⟩
  | some want => exact interrupt_shows (d := Lighttpd.daemon opts) is₁

theorem lighttpd_on : LighttpdMeets opts accepts (Lighttpd.on opts)
    (Model.on accepts (Lighttpd.snippet opts)) := by
  refine Meets.onWith (lighttpd_isRunning opts accepts) (lighttpd_ensureDirs opts accepts)
    (lighttpd_write opts accepts) (lighttpd_testConfig opts accepts) ?_
  intro a s stopped h
  obtain ⟨http, https, served⟩ := a
  obtain rfl := stopped
  rw [wpIf_bind]
  refine wpIf_mono (start_coming (Lighttpd.command_start opts) h) ?_
  intro code s' outcome
  obtain ⟨rfl, coming⟩ := outcome
  exact awaited_shows (d := Lighttpd.daemon opts) trivial coming

theorem lighttpd_reset : LighttpdMeets opts accepts (Lighttpd.reset opts)
    (Model.reset accepts (Lighttpd.snippet opts)) :=
  Meets.resetWith (lighttpd_isRunning opts accepts) (lighttpd_off opts accepts)
    (lighttpd_on opts accepts)

theorem lighttpd_reload : LighttpdMeets opts accepts (Lighttpd.reload opts)
    (Model.reload accepts (Lighttpd.snippet opts)) := by
  refine Meets.reloadWith (lighttpd_isRunning opts accepts) (lighttpd_testConfig opts accepts) ?_
  intro a s _ passed h
  obtain ⟨http, https, served⟩ := a
  have restarted := lighttpd_reset opts accepts _ s h
  have passed' : accepts (Model.text (Lighttpd.snippet opts) ⟨http, https, none⟩) = true := passed
  simp only [Model.reset, Model.on, passed', Option.isSome_none, Bool.false_eq_true, if_false,
    if_true] at restarted
  exact restarted

theorem lighttpd_setListenPorts (http https : Port) :
    LighttpdMeets opts accepts (Lighttpd.setListenPorts opts http https)
      fun a => a.setListenPorts accepts (Lighttpd.snippet opts) http https :=
  Meets.setListenPortsWith (lighttpd_isRunning opts accepts) (lighttpd_reload opts accepts)
    (lighttpd_write opts accepts) http https

/-- The lighttpd controller does what the model does. -/
theorem lighttpd_meets (call : Call) :
    LighttpdMeets opts accepts (call.code (Lighttpd.controller opts))
      fun a => a.step accepts (Lighttpd.snippet opts) call := by
  cases call with
  | on => exact lighttpd_on opts accepts
  | off => exact lighttpd_off opts accepts
  | reset => exact lighttpd_reset opts accepts
  | reload => exact lighttpd_reload opts accepts
  | setListenPort http =>
    exact Meets.setListenPortWith http fun https => lighttpd_setListenPorts opts accepts http https
  | setListenPorts http https => exact lighttpd_setListenPorts opts accepts http https
  | isRunning => exact lighttpd_isRunning opts accepts
  | testConfig => exact lighttpd_testConfig opts accepts
  | pause => exact meets_pause _

end Lighttpd

end Webengine.Control.Simulation
