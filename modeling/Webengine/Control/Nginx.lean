/- source: backend/include/webengine/NginxController.hpp, backend/src/NginxController.cpp
   digest: The nginx controller, and the nginx it drives. -/

import Webengine.Control.Controllers

set_option autoImplicit false
set_option relaxedAutoImplicit false

namespace Webengine.Control.Nginx

open Webengine.Engine.Roles (Str)
open Webengine.Control.Host
open Webengine.Control.ProcessUtil
open Webengine.Control.Controllers
open Webengine.Library.Machines
open Webengine.Library.Programs (Prog)

structure Options where
  nginxBin : Str := "/usr/sbin/nginx".toList
  config : Str := "/etc/nginx/nginx.conf".toList
  pidfile : Str := "/tmp/nginx.pid".toList
  listenFile : Str := "/etc/nginx/conf.d/listen.conf".toList
  tempRoot : Str := "/tmp/nginx".toList
  httpPort : Port := 8080
  httpsPort : Port := 8443
  httpsEnabled : Bool := true

variable (opts : Options)

/-- `argv` of `run`. -/
def argv (args : List Str) : List Str :=
  [opts.nginxBin, "-e".toList, "stderr".toList, "-c".toList, opts.config] ++ args

def run (args : List Str) (capture : Bool) : Code Int :=
  runCommand "nginx".toList (argv opts args) capture

def isRunning : Code Bool := ProcessUtil.isRunning opts.pidfile "nginx".toList

/-- The temp directories, the parent first; all are tried. -/
def tempDirs : List Str :=
  opts.tempRoot :: ["/client_body", "/proxy", "/fastcgi", "/uwsgi", "/scgi"].map
    fun leaf => opts.tempRoot ++ leaf.toList

def ensureAll (ok : Bool) : List Str → Code Bool
  | [] => pure ok
  | path :: paths => do
    let made ← ensureDir path
    ensureAll (made && ok) paths

def ensureDirs : Code Bool := do
  if ← ensureAll true (tempDirs opts) then pure true
  else
    sys (.setLastError ("cannot create temp dirs under ".toList ++ opts.tempRoot))
    pure false

/-- The generated snippet. -/
def snippet (http https : Port) : Str :=
  "listen ".toList ++ portText http ++ ";\n".toList ++
    if opts.httpsEnabled then "listen ".toList ++ portText https ++ " ssl;\n".toList else []

def writeListenSnippet : Code Bool :=
  writeListenSnippetWith opts.listenFile opts.httpsEnabled (snippet opts)

def testConfig : Code Bool := exitsZero (run opts ["-t".toList] true)

def on : Code Bool := do
  if ← isRunning opts then pure true
  else if !(← ensureDirs opts) then pure false
  else if !(← writeListenSnippet opts) then pure false
  else if !(← testConfig opts) then pure false
  else if (← run opts [] false) ≠ 0 then
    sys (.setLastError "nginx failed to start (port in use? see stderr)".toList)
    pure false
  else pure true

def off : Code Bool := do
  if !(← isRunning opts) then pure true
  else exitsZero (run opts ["-s".toList, "quit".toList] true)

def reload : Code Bool :=
  reloadWith "nginx".toList (isRunning opts) (testConfig opts)
    (exitsZero (run opts ["-s".toList, "reload".toList] true))

def reset : Code Bool := resetWith "nginx".toList (isRunning opts) (off opts) (on opts)

def setListenPorts : Port → Port → Code Bool :=
  setListenPortsWith (writeListenSnippet opts) (isRunning opts) (reload opts)

def setListenPort : Port → Code Bool := setListenPortWith (setListenPorts opts)

def controller : WebServerController where
  on := on opts
  off := off opts
  reset := reset opts
  reload := reload opts
  setListenPort := setListenPort opts
  setListenPorts := setListenPorts opts
  isRunning := isRunning opts
  testConfig := testConfig opts

/-- What nginx does with its arguments: `-e stderr -c config` and one of the four. -/
def command : List Str → Option Command
  | [_, _, _, _, _] => some .start
  | [_, _, _, _, _, flag] => if flag = "-t".toList then some .test else none
  | [_, _, _, _, _, flag, signal] =>
    if flag ≠ "-s".toList then none
    else if signal = "quit".toList then some .quit
    else if signal = "reload".toList then some .reload
    else none
  | _ => none

def daemon : Daemon where
  comm := "nginx".toList
  command := command
  listenFile := opts.listenFile
  pidfile := opts.pidfile

section Specs

theorem isRunning_quiet : (isRunning opts).Only (quiet (daemon opts)) :=
  (isRunning_only _ _).mono fun _ => quiet_of_observes

theorem ensureDirs_only {S : Op → Prop} (mkdirs : ∀ path, S (.mkdir path))
    (reports : ∀ text, S (.setLastError text)) : (ensureDirs opts).Only S := by
  have all : ∀ paths ok, (ensureAll ok paths).Only S := by
    intro paths
    induction paths with
    | nil => exact fun _ => trivial
    | cons path paths ih =>
      intro ok
      exact Prog.only_bind (ensureDir_only path (mkdirs path)) fun made => ih _
  refine Prog.only_bind (all _ _) fun made => ?_
  cases made with
  | true => trivial
  | false => exact ⟨reports _, fun _ => trivial⟩

theorem ensureDirs_quiet : (ensureDirs opts).Only (quiet (daemon opts)) :=
  ensureDirs_only opts (fun _ => trivial) fun _ => trivial

theorem snippet_of_disabled (disabled : opts.httpsEnabled = false) (http https https' : Port) :
    snippet opts http https = snippet opts http https' := by
  have off : ¬ opts.httpsEnabled = true := by
    rw [disabled]
    exact Bool.false_ne_true
  unfold snippet
  rw [if_neg off, if_neg off]

theorem command_test : command (argv opts ["-t".toList]) = some .test := by
  simp only [argv, command, List.cons_append, List.nil_append, if_true]

theorem command_start : command (argv opts []) = some .start := rfl

theorem command_quit : command (argv opts ["-s".toList, "quit".toList]) = some .quit := by
  simp only [argv, command, List.cons_append, List.nil_append, ne_eq, not_true_eq_false, if_false,
    if_true]

theorem command_reload : command (argv opts ["-s".toList, "reload".toList]) = some .reload := by
  have other : ¬ "reload".toList = "quit".toList := by decide
  simp only [argv, command, List.cons_append, List.nil_append, ne_eq, not_true_eq_false, if_false,
    if_true, if_neg other]

theorem testConfig_quiet : (testConfig opts).Only (quiet (daemon opts)) :=
  Prog.only_bind (runCommand_quiet (command_test opts) (Or.inl rfl) _ true) fun _ => trivial

theorem on_quiet : (on opts).Only (quiet (daemon opts)) := by
  refine onWith_only (isRunning_quiet opts) (ensureDirs_quiet opts)
    (writeListenSnippetWith_quiet _ _ _) (testConfig_quiet opts) ?_
  refine Prog.only_bind (runCommand_quiet (command_start opts) (Or.inr rfl) _ false) fun code => ?_
  split
  · exact ⟨trivial, fun _ => trivial⟩
  · trivial

theorem reload_spec {s : State} {pid : Int} {text : Str}
    (h : s.server = .running pid text false) :
    wp (host (daemon opts)) Obedient (reload opts)
      (fun r s' _ => r = .ok false → s'.server = .running pid text false ∨ False) s := by
  refine reloadWith_spec (isRunning_quiet opts) (fun s h => testConfig_spec (command_test opts) h)
    (fun s h => ?_) (T := fun _ => False) (fun _ _ _ _ none => none) h
  unfold exitsZero
  rw [wp_bind]
  refine wp_mono (runCommand_spec _ _ _ h) fun r s' l outcome => ?_
  rcases outcome with ⟨rfl, -⟩ | ⟨code, -, rfl, kept⟩
  · exact fun failed => nomatch failed
  · exact fun _ => Or.inl kept

end Specs

end Webengine.Control.Nginx
