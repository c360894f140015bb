/- source: backend/include/webengine/LighttpdController.hpp, backend/src/LighttpdController.cpp
   digest: The lighttpd controller, and the lighttpd it drives. -/

import Webengine.Control.Controllers

set_option autoImplicit false
set_option relaxedAutoImplicit false

namespace Webengine.Control.Lighttpd

open Webengine.Engine.Roles (Str)
open Webengine.Control.Host
open Webengine.Control.ProcessUtil
open Webengine.Control.Controllers
open Webengine.Library.Machines
open Webengine.Library.Programs (Prog)

structure Options where
  lighttpdBin : Str := "/usr/sbin/lighttpd".toList
  config : Str := "/etc/lighttpd/lighttpd.conf".toList
  pidfile : Str := "/tmp/lighttpd.pid".toList
  listenFile : Str := "/etc/lighttpd/conf.d/listen.conf".toList
  tempRoot : Str := "/tmp/lighttpd".toList
  sslPemfile : Str := "/etc/lighttpd/ssl/server.pem".toList
  httpPort : Port := 8080
  httpsPort : Port := 8443
  httpsEnabled : Bool := true

variable (opts : Options)

/-- `argv` of `run`. -/
def argv (args : List Str) : List Str := opts.lighttpdBin :: args

def run (args : List Str) (capture : Bool) : Code Int :=
  runCommand "lighttpd".toList (argv opts args) capture

def isRunning : Code Bool := ProcessUtil.isRunning opts.pidfile "lighttpd".toList

def ensureDirs : Code Bool := do
  if ← ensureDir opts.tempRoot then pure true
  else
    sys (.setLastError ("cannot create temp dir ".toList ++ opts.tempRoot))
    pure false

/-- The generated snippet: the plain port and an optional TLS socket. -/
def snippet (http https : Port) : Str :=
  "server.port = ".toList ++ portText http ++ "\n".toList ++
    if opts.httpsEnabled then
      "$SERVER[\"socket\"] == \"0.0.0.0:".toList ++ portText https ++ "\" \x7b\n".toList ++
        "    ssl.engine  = \"enable\"\n    ssl.pemfile = \"".toList ++ opts.sslPemfile ++
        "\"\n\x7d\n".toList
    else []

def writeListenSnippet : Code Bool :=
  writeListenSnippetWith opts.listenFile opts.httpsEnabled (snippet opts)

def testConfig : Code Bool := exitsZero (run opts ["-tt".toList, "-f".toList, opts.config] true)

/-- The parent of the start exits once it has forked; the master is waited for. -/
def on : Code Bool := do
  if ← isRunning opts then pure true
  else if !(← ensureDirs opts) then pure false
  else if !(← writeListenSnippet opts) then pure false
  else if !(← testConfig opts) then pure false
  else if (← run opts ["-f".toList, opts.config] false) ≠ 0 then
    sys (.setLastError "lighttpd failed to start (see stderr)".toList)
    pure false
  else
    pollRunning (isRunning opts) true 30
    if !(← isRunning opts) then
      sys (.setLastError "lighttpd did not come up (port in use? see stderr)".toList)
      pure false
    else pure true

/-- SIGINT to the master. -/
def off : Code Bool := do
  if !(← isRunning opts) then pure true
  else
    let pid ← readPid opts.pidfile
    if pid ≤ 0 then pure true else signalPid pid sigint

def reset : Code Bool := resetWith "lighttpd".toList (isRunning opts) (off opts) (on opts)

/-- Validate, then restart. -/
def reload : Code Bool :=
  reloadWith "lighttpd".toList (isRunning opts) (testConfig opts) (reset opts)

def setListenPorts : Port → Port → Code Bool :=
  setListenPortsWith (writeListenSnippet opts) (isRunning opts) (reload opts)

def setListenPort : Port → Code Bool := setListenPortWith (setListenPorts opts)

def controller : WebServerController where
  on := on opts
  off := off opts
  reset := reset opts
  reload := reload opts
  setListenPort := setListenPort opts
  setListenPorts := setListenPorts opts
  isRunning := isRunning opts
  testConfig := testConfig opts

/-- What lighttpd does with its arguments: `-tt -f config` or `-f config`. -/
def command : List Str → Option Command
  | [_, test, _, _] => if test = "-tt".toList then some .test else none
  | [_, flag, _] => if flag = "-f".toList then some .start else none
  | _ => none

def daemon : Daemon where
  comm := "lighttpd".toList
  command := command
  listenFile := opts.listenFile
  pidfile := opts.pidfile

section Specs

theorem isRunning_quiet : (isRunning opts).Only (quiet (daemon opts)) :=
  (isRunning_only _ _).mono fun _ => quiet_of_observes

theorem snippet_of_disabled (disabled : opts.httpsEnabled = false) (http https https' : Port) :
    snippet opts http https = snippet opts http https' := by
  have off : ¬ opts.httpsEnabled = true := by
    rw [disabled]
    exact Bool.false_ne_true
  unfold snippet
  rw [if_neg off, if_neg off]

theorem command_test :
    command (argv opts ["-tt".toList, "-f".toList, opts.config]) = some .test := by
  simp only [argv, command, if_true]

theorem command_start : command (argv opts ["-f".toList, opts.config]) = some .start := by
  simp only [argv, command, if_true]

theorem ensureDirs_only {S : Op → Prop} (mkdirs : ∀ path, S (.mkdir path))
    (reports : ∀ text, S (.setLastError text)) : (ensureDirs opts).Only S := by
  refine Prog.only_bind (ensureDir_only _ (mkdirs _)) fun made => ?_
  cases made with
  | true => trivial
  | false => exact ⟨reports _, fun _ => trivial⟩

theorem ensureDirs_quiet : (ensureDirs opts).Only (quiet (daemon opts)) :=
  ensureDirs_only opts (fun _ => trivial) fun _ => trivial

theorem testConfig_quiet : (testConfig opts).Only (quiet (daemon opts)) :=
  Prog.only_bind (runCommand_quiet (command_test opts) (Or.inl rfl) _ true) fun _ => trivial

theorem on_quiet : (on opts).Only (quiet (daemon opts)) := by
  refine onWith_only (isRunning_quiet opts) (ensureDirs_quiet opts)
    (writeListenSnippetWith_quiet _ _ _) (testConfig_quiet opts) ?_
  refine Prog.only_bind (runCommand_quiet (command_start opts) (Or.inr rfl) _ false) fun code => ?_
  split
  · exact ⟨trivial, fun _ => trivial⟩
  refine Prog.only_bind (pollRunning_only (isRunning_quiet opts)
    (fun _ => trivial) true 30) fun _ => ?_
  refine Prog.only_bind (isRunning_quiet opts) fun up => ?_
  split
  · exact ⟨trivial, fun _ => trivial⟩
  · trivial

theorem off_only {A : Op → Prop} (observed : ∀ o, observes o → A o)
    (interrupts : ∀ pid, A (.kill pid sigint)) (reports : ∀ text, A (.setLastError text)) :
    (off opts).Only A := by
  refine Prog.only_bind ((isRunning_only _ _).mono observed) fun up => ?_
  split
  · trivial
  refine Prog.only_bind ((readPid_only _).mono observed) fun pid => ?_
  split
  · trivial
  · exact signalPid_only interrupts reports pid

private theorem off_patient : (off opts).Only (patient (daemon opts)) :=
  off_only opts (fun _ h => patient_of_quiet (quiet_of_observes h)) (fun _ => trivial)
    fun _ => trivial

/-- Nothing but a SIGINT stops a running server. -/
private theorem reset_patient : (reset opts).Only (patient (daemon opts)) :=
  resetWith_only ((isRunning_quiet opts).mono fun _ => patient_of_quiet) (off_patient opts)
    ((on_quiet opts).mono fun _ => patient_of_quiet) (fun _ => trivial) (fun _ => trivial) _

/-- The configuration passed its test, and after that a SIGINT reached the process. -/
def TestedThenInterrupted (pid : Int) (l : List (Event (host (daemon opts)))) : Prop :=
  ∃ before t between e after, l = before ++ t :: (between ++ e :: after) ∧
    Succeeded (argv opts ["-tt".toList, "-f".toList, opts.config]) t ∧ Interrupted pid e

theorem TestedThenInterrupted.append {pid : Int} (l₀ l l₁ : List (Event (host (daemon opts))))
    (h : TestedThenInterrupted opts pid l) : TestedThenInterrupted opts pid (l₀ ++ (l ++ l₁)) := by
  obtain ⟨before, t, between, e, after, rfl, tested, hit⟩ := h
  exact ⟨l₀ ++ before, t, between, e, after ++ l₁, by simp, tested, hit⟩

/-- A reload that fails leaves a running server as it is, unless its configuration passed the
test and the server was told to stop. -/
theorem reload_spec {s : State} {pid : Int} {text : Str}
    (h : s.server = .running pid text false) :
    wp (host (daemon opts)) Obedient (reload opts) (fun r s' l => r = .ok false →
      s'.server = .running pid text false ∨ TestedThenInterrupted opts pid l) s := by
  refine reloadWith_spec (isRunning_quiet opts) (fun s h => testConfig_spec (command_test opts) h)
    (fun s h => ?_) (T := fun l => ∃ e ∈ l, Interrupted pid e) ?_ h
  · have stops := wp_keeps_until (m := host (daemon opts)) (E := Obedient)
      (J := fun s : State => s.server = .running pid text false) (B := Interrupted pid)
      (fun env s o obedient ho h => server_of_patient obedient ho h) (reset_patient opts) h
    exact wp_mono stops fun _ _ _ outcome _ => outcome
  · rintro l₀ l₁ l ⟨t, ht, tested⟩ ⟨e, he, hit⟩
    obtain ⟨a, b, rfl⟩ := List.append_of_mem ht
    obtain ⟨a', b', rfl⟩ := List.append_of_mem he
    exact ⟨l₀ ++ a, t, b ++ a', e, b', by simp, tested, hit⟩

end Specs

end Webengine.Control.Lighttpd
