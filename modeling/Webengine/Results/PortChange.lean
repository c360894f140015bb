/- source: backend/src/NginxController.cpp, backend/src/LighttpdController.cpp
   (set_listen_ports), backend/src/ProcessUtil.cpp (write_file_atomic)
   digest: What a failed port change leaves: the ports and the listen file are taken back; nginx
   goes on as before, and so does lighttpd unless it had to be stopped for the restart. -/

import Webengine.Control.Lighttpd
import Webengine.Control.Nginx

set_option autoImplicit false
set_option relaxedAutoImplicit false

namespace Webengine.Results.PortChange

open Webengine.Engine.Roles (Str)
open Webengine.Control
open Webengine.Control.Host
open Webengine.Control.Controllers
open Webengine.Library.Files (oneFile read_oneFile)
open Webengine.Library.Machines

/-- The server runs on the ports the getters return, and the listen file shows them. -/
structure Serving (d : Daemon) (snippet : Port → Port → Str) (pid : Int) (s : State) : Prop where
  server : s.server = .running pid (snippet s.http s.https) false
  file : s.fs.read d.listenFile = some (snippet s.http s.https)

/-- A call that fails while the server is running leaves what `TakenBack` says, whatever the
outside world does, as long as the server exits only when told to. -/
def TakesBack (d : Daemon) (snippet : Port → Port → Str)
    (K : Int → List (Event (host d)) → Prop) (httpPort : Port) (call : Code Bool) : Prop :=
  ∀ (s : State) (pid : Int) (env : Nat → Env), Serving d snippet pid s →
    (∀ n, Obedient (env n)) → (run (host d) call s env).result = .ok false →
    TakenBack d.listenFile (snippet s.http s.https) pid (K pid) httpPort s
      (run (host d) call s env).state (run (host d) call s env).log

private theorem nginx_spec (opts : Nginx.Options) (httpPort httpsPort : Port) {s : State}
    {pid : Int}
    (file : s.fs.read opts.listenFile = some (Nginx.snippet opts s.http s.https))
    (server : s.server = .running pid (Nginx.snippet opts s.http s.https) false) :
    wp (host (Nginx.daemon opts)) Obedient (Nginx.setListenPorts opts httpPort httpsPort)
      (fun r s' l => r = .ok false → TakenBack opts.listenFile
        (Nginx.snippet opts s.http s.https) pid (fun _ => False) httpPort s s' l) s :=
  setListenPortsWith_spec (fun _ _ _ none => none)
    (writeListenSnippetWith_spec (Nginx.snippet_of_disabled opts))
    (writeListenSnippetWith_quiet _ _ _) (Nginx.isRunning_quiet opts)
    (fun _ runs => Nginx.reload_spec opts runs) file server httpPort httpsPort

private theorem lighttpd_spec (opts : Lighttpd.Options) (httpPort httpsPort : Port) {s : State}
    {pid : Int} (file : s.fs.read opts.listenFile = some (Lighttpd.snippet opts s.http s.https))
    (server : s.server = .running pid (Lighttpd.snippet opts s.http s.https) false) :
    wp (host (Lighttpd.daemon opts)) Obedient (Lighttpd.setListenPorts opts httpPort httpsPort)
      (fun r s' l => r = .ok false → TakenBack opts.listenFile
        (Lighttpd.snippet opts s.http s.https) pid (Lighttpd.TestedThenInterrupted opts pid)
        httpPort s s' l) s :=
  setListenPortsWith_spec (Lighttpd.TestedThenInterrupted.append opts)
    (writeListenSnippetWith_spec (Lighttpd.snippet_of_disabled opts))
    (writeListenSnippetWith_quiet _ _ _) (Lighttpd.isRunning_quiet opts)
    (fun _ runs => Lighttpd.reload_spec opts runs) file server httpPort httpsPort

/-- A failed change of the ports of a running server is taken back: the getters return the old
ports, the listen file shows them unless a step of writing it back failed, nginx runs on them,
and so does lighttpd unless the new configuration had passed its test and a SIGINT had reached
the process. -/
theorem failed_change_taken_back (nginx : Nginx.Options) (lighttpd : Lighttpd.Options)
    (http https : Port) :
    (TakesBack (Nginx.daemon nginx) (Nginx.snippet nginx) (fun _ _ => False) http
      (Nginx.setListenPorts nginx http https) ∧
    TakesBack (Nginx.daemon nginx) (Nginx.snippet nginx) (fun _ _ => False) http
      (Nginx.setListenPort nginx http)) ∧
    TakesBack (Lighttpd.daemon lighttpd) (Lighttpd.snippet lighttpd)
      (Lighttpd.TestedThenInterrupted lighttpd) http
      (Lighttpd.setListenPorts lighttpd http https) ∧
    TakesBack (Lighttpd.daemon lighttpd) (Lighttpd.snippet lighttpd)
      (Lighttpd.TestedThenInterrupted lighttpd) http (Lighttpd.setListenPort lighttpd http) := by
  refine ⟨⟨?_, ?_⟩, ?_, ?_⟩
  · intro s pid env serving obedient
    exact run_of_wp (nginx_spec nginx http https serving.file serving.server) env obedient
  · intro s pid env serving obedient
    exact run_of_wp (setListenPortWith_spec (fun _ _ _ none => none)
      (fun httpsPort _ file server => nginx_spec nginx http httpsPort file server)
      serving.file serving.server) env obedient
  · intro s pid env serving obedient
    exact run_of_wp (lighttpd_spec lighttpd http https serving.file serving.server) env obedient
  · intro s pid env serving obedient
    exact run_of_wp (setListenPortWith_spec (Lighttpd.TestedThenInterrupted.append lighttpd)
      (fun httpsPort _ file server => lighttpd_spec lighttpd http httpsPort file server)
      serving.file serving.server) env obedient

section Instance

/-- The server runs on 8080 and 8443. -/
def before (d : Daemon) (snippet : Port → Port → Str) : State where
  http := 8080
  https := 8443
  lastError := []
  fs := oneFile d.listenFile (snippet 8080 8443)
  pidfile := some "5\n".toList
  server := .running 5 (snippet 8080 8443) false
  others _ := none

private theorem serving_before (d : Daemon) (snippet : Port → Port → Str) :
    Serving d snippet 5 (before d snippet) :=
  ⟨rfl, read_oneFile _ _⟩

/-- Every call succeeds and every command exits with the given code; a server told to stop
exits at once, and one that was started cannot bind its ports. -/
def portTaken (code : UInt8) : Env where
  moves := [.exit, .fail]
  failure := none
  cuts := []
  written := 0
  child := .exited code []
  pid := 7

private theorem obedient_portTaken (code : UInt8) : Obedient (portTaken code) := by
  simp [Obedient, portTaken]

/-- nginx as it finds a configuration it does not accept. -/
abbrev rejected : Outcome (host (Nginx.daemon {})) Empty Bool :=
  run (host (Nginx.daemon {})) (Nginx.setListenPorts {} 9090 8443)
    (before (Nginx.daemon {}) (Nginx.snippet {})) fun _ => portTaken 1

/-- The theorem at that run. -/
theorem failed_change_taken_back_rejected :
    rejected.result = .ok false ∧
      TakenBack (Nginx.daemon {}).listenFile (Nginx.snippet {} 8080 8443) 5 (fun _ => False) 9090
        (before (Nginx.daemon {}) (Nginx.snippet {})) rejected.state rejected.log := by
  have failed : rejected.result = .ok false := by decide +kernel
  have taken := (failed_change_taken_back {} {} 9090 8443).1.1
    (before (Nginx.daemon {}) (Nginx.snippet {})) 5 (fun _ => portTaken 1)
    (serving_before _ _) (fun _ => obedient_portTaken 1) failed
  exact ⟨failed, taken⟩

/-- A call that fails while the server is running leaves it running on its ports. -/
def KeepsService (d : Daemon) (snippet : Port → Port → Str) (call : Code Bool) : Prop :=
  ∀ (s : State) (pid : Int) (env : Nat → Env), Serving d snippet pid s →
    (∀ n, Obedient (env n)) → (run (host d) call s env).result = .ok false →
    (run (host d) call s env).state.server = .running pid (snippet s.http s.https) false ∧
      (run (host d) call s env).state.http = s.http ∧
      (run (host d) call s env).state.https = s.https ∧
      (run (host d) call s env).state.fs.read d.listenFile = some (snippet s.http s.https)

/-- lighttpd is stopped before its new ports are tried. -/
theorem not_keepsService_lighttpd :
    ¬ KeepsService (Lighttpd.daemon {}) (Lighttpd.snippet {})
      (Lighttpd.setListenPorts {} 9090 8443) := by
  intro keeps
  have kept := keeps (before (Lighttpd.daemon {}) (Lighttpd.snippet {})) 5 (fun _ => portTaken 0)
    (serving_before _ _) (fun _ => obedient_portTaken 0) (by decide +kernel)
  have stopped : (run (host (Lighttpd.daemon {})) (Lighttpd.setListenPorts {} 9090 8443)
      (before (Lighttpd.daemon {}) (Lighttpd.snippet {})) fun _ => portTaken 0).state.server =
      .stopped := by decide +kernel
  rw [kept.1] at stopped
  cases stopped

end Instance

end Webengine.Results.PortChange
