/- source: backend/include/webengine/WebServerController.hpp, backend/src/ProcessUtil.cpp
   digest: The calls a run of a controller is made of, and what a probe of the pidfile and
   the process says about the server. -/

import Webengine.Control.Controllers
import Webengine.Library.Calls

set_option autoImplicit false
set_option relaxedAutoImplicit false

namespace Webengine.Control.Lifecycle

open Webengine.Engine.Roles (Str)
open Webengine.Control.Host
open Webengine.Control.ProcessUtil
open Webengine.Control.Controllers
open Webengine.Library.Calls
open Webengine.Library.Decimals
open Webengine.Library.Machines
open Webengine.Library.Programs (Prog)
open Webengine.Library.Texts (cut find)

/-- The calls of the interface; in a pause only the server does something. -/
inductive Call
  | on
  | off
  | reset
  | reload
  | setListenPort (httpPort : Port)
  | setListenPorts (httpPort httpsPort : Port)
  | isRunning
  | testConfig
  | pause

def Call.code (c : WebServerController) : Call → Code Bool
  | .on => c.on
  | .off => c.off
  | .reset => c.reset
  | .reload => c.reload
  | .setListenPort httpPort => c.setListenPort httpPort
  | .setListenPorts httpPort httpsPort => c.setListenPorts httpPort httpsPort
  | .isRunning => c.isRunning
  | .testConfig => c.testConfig
  | .pause => do
    sys (.usleep 0)
    pure true

/-- A pid as Linux gives them to processes. -/
def ValidPid (pid : Int) : Prop := 0 < pid ∧ pid ≤ 4194304

theorem validPid_seven : ValidPid 7 := ⟨by decide, by decide⟩

/-- The pid a text of the pidfile stands for, or -1. -/
def pidOf : Option Str → Int
  | none => -1
  | some text => if 0 < extractLong (-1) text then extractLong (-1) text else -1

/-- The text a server writes to its pidfile. -/
def pidText (pid : Int) : Str := integer pid ++ ['\n']

theorem pidOf_pidText {pid : Int} (valid : ValidPid pid) : pidOf (some (pidText pid)) = pid := by
  obtain ⟨pos, small⟩ := valid
  obtain ⟨n, rfl⟩ := Int.eq_ofNat_of_zero_le (Int.le_of_lt pos)
  have text : pidText (n : Int) = decimal n ++ ['\n'] := rfl
  have read : scanInt (decimal n ++ ['\n']) = some (n : Int) :=
    scanInt_decimal_append n (by simp)
  have filled : (decimal n ++ ['\n']).dropWhile isSpace ≠ [] := by
    intro blank
    rw [scanInt, blank] at read
    cases read
  have long : extractLong (-1) (decimal n ++ ['\n']) = n := by
    rw [extractLong, if_neg filled, read]
    simp only [Option.getD_some, longMin, longMax]
    omega
  rw [pidOf, text, long, if_pos pos]

theorem toPidT_of_valid {pid : Int} (valid : ValidPid pid) : toPidT pid = pid := by
  obtain ⟨pos, small⟩ := valid
  unfold toPidT
  omega

/-- Whether what was read in /proc names the process. -/
def named (nameSubstr : Str) : Option Str → Bool
  | none => false
  | some text => (find nameSubstr (cut '\n' text)).isSome

theorem named_nginx : named "nginx".toList (some ("nginx".toList ++ ['\n'])) = true := by decide

theorem named_lighttpd : named "lighttpd".toList (some ("lighttpd".toList ++ ['\n'])) = true := by
  decide

/-- The rest of a probe after the signal 0. -/
def probed (nameSubstr : Str) (pid : Int) : Option Errno → Code Bool
  | some _ => .ret false
  | none => .op (.readComm pid) fun text => .ret (named nameSubstr text)

/-- The rest of a probe after the pidfile. -/
def probe (nameSubstr : Str) (pid : Int) : Code Bool :=
  if pid ≤ 0 then .ret false else .op (.kill (toPidT pid) 0) (probed nameSubstr pid)

private theorem probed_only (nameSubstr : Str) (pid : Int) (failed : Option Errno) :
    (probed nameSubstr pid failed).Only observes := by
  cases failed with
  | some e => trivial
  | none => exact ⟨trivial, fun _ => trivial⟩

theorem probe_only (nameSubstr : Str) (pid : Int) : (probe nameSubstr pid).Only observes := by
  unfold probe
  split
  · trivial
  · exact ⟨rfl, probed_only nameSubstr pid⟩

theorem readPid_eq (pidfile : Str) :
    readPid pidfile = .op (.readPidfile pidfile) fun text => .ret (pidOf text) := by
  refine congrArg (Prog.op _) (funext fun text => ?_)
  cases text <;> rfl

theorem isRunning_eq (pidfile nameSubstr : Str) :
    ProcessUtil.isRunning pidfile nameSubstr =
      .op (.readPidfile pidfile) fun text => probe nameSubstr (pidOf text) := by
  unfold ProcessUtil.isRunning
  rw [readPid_eq]
  refine congrArg (Prog.op _) (funext fun text => ?_)
  simp only [Prog.bind, probe]
  split
  · rfl
  · refine congrArg (Prog.op _) (funext fun failed => ?_)
    cases failed with
    | some e => rfl
    | none =>
      refine congrArg (Prog.op _) (funext fun name => ?_)
      cases name <;> rfl

variable {d : Daemon} {M : Event (host d) → Prop}

theorem step_of_observes {o : Op} (h : observes o) (env : Env) (s : State) :
    (hostStep d env s o).2 = arrive d env s := by
  cases o with
  | readPidfile path => rfl
  | readComm pid => rfl
  | kill pid sig =>
    have zero : sig = 0 := h
    subst zero
    have unsent : (arrive d env s).signalled pid 0 = arrive d env s :=
      if_neg fun hit => absurd hit.1 (by decide)
    simp only [hostStep]
    split
    · rfl
    · rfl
    · exact unsent
  | _ => exact h.elim

/-- The pidfile names the master process, which is running or draining. -/
structure Shown (pid : Int) (s : State) : Prop where
  live : s.server.shown = some pid
  file : s.pidfile = some (pidText pid)
  valid : ValidPid pid

private theorem pid_of_shown {server : Server} {pid : Int} (h : server.shown = some pid) :
    server.pid = some pid := by
  cases server with
  | running => exact h
  | draining => exact h
  | _ => cases h

theorem Shown.pid_eq {pid : Int} {s : State} (h : Shown pid s) : s.server.pid = some pid :=
  pid_of_shown h.live

/-- A probe of the master process is not refused. -/
def ProbesTruly (e : Event (host d)) : Prop :=
  ∀ pid, e.op = .kill pid 0 → (arrive d e.env e.pre).server.pid = some pid →
    e.env.failure = none

section Shown

variable {s : State} {pid : Int} {env : Env}

private theorem readPidfile_of_shown (h : Shown pid (arrive d env s)) :
    (hostStep d env s (.readPidfile d.pidfile)).1 = some (pidText pid) := by
  simp only [hostStep, if_true]
  exact h.file

private theorem kill_of_shown (h : Shown pid (arrive d env s))
    (truly : ProbesTruly (d := d) ⟨0, s, env, .kill pid 0⟩) :
    (hostStep d env s (.kill pid 0)).1 = none := by
  have unrefused : env.failure = none := truly pid rfl h.pid_eq
  have comm : (arrive d env s).comm d pid = some d.comm := if_pos h.pid_eq
  simp only [hostStep, unrefused, comm]

private theorem readComm_of_shown (h : Shown pid (arrive d env s)) :
    (hostStep d env s (.readComm pid)).1 = some (d.comm ++ ['\n']) := by
  have comm : (arrive d env s).comm d pid = some d.comm := if_pos h.pid_eq
  simp only [hostStep, comm, Option.map_some]

end Shown

section Missed

variable {nameSubstr : Str} {J : Int → State → Prop} {K : State → Prop}
  (isNamed : named nameSubstr (some (d.comm ++ ['\n'])) = true)
  (truly : ∀ e, M e → ProbesTruly e) (shows : ∀ pid s, J pid s → Shown pid s)
  (kept : ∀ s env o, M ⟨0, s, env, o⟩ → observes o → K s → K (arrive d env s))
  (stays : ∀ pid s env o, M ⟨0, s, env, o⟩ → observes o → J pid s →
    J pid (arrive d env s) ∨ K (arrive d env s))

include isNamed truly shows kept stays

/-- A probe that says no has missed the server it found shown at some step: there something
else holds, and still does. -/
theorem isRunning_no_of_arrived {s : State}
    (first : ∀ env, M ⟨0, s, env, .readPidfile d.pidfile⟩ →
      K (arrive d env s) ∨ ∃ pid, J pid (arrive d env s)) :
    wpIf (host d) M (ProcessUtil.isRunning d.pidfile nameSubstr)
      (fun up s' => up = false → K s') s := by
  have later : ∀ {p : Code Bool} {s : State}, p.Only observes → K s →
      wpIf (host d) M p (fun up s' => up = false → K s') s := by
    intro p s only h
    refine wpIf_mono (wpIf_keeps ?_ only h) fun _ _ h' _ => h'
    intro env s o meets ho h
    have after := kept s env o meets ho h
    change K (hostStep d env s o).2
    rw [step_of_observes ho]
    exact after
  rw [isRunning_eq]
  intro env meets
  -- the pidfile is read
  rcases first env meets with h | ⟨pid, hJ⟩
  · exact later (probe_only _ _) h
  have shown := shows pid _ hJ
  change wpIf (host d) M (probe nameSubstr (pidOf
    (hostStep d env s (.readPidfile d.pidfile)).1)) _ (arrive d env s)
  rw [readPidfile_of_shown shown, pidOf_pidText shown.valid, probe,
    if_neg (Int.not_le.mpr shown.valid.1), toPidT_of_valid shown.valid]
  -- the process is probed
  intro env' meets'
  change wpIf (host d) M (probed nameSubstr pid
    (hostStep d env' (arrive d env s) (.kill pid 0)).1) _ (hostStep d env' _ _).2
  rw [step_of_observes (o := .kill pid 0) rfl]
  rcases stays pid _ _ _ meets' rfl hJ with hJ' | h
  · rw [kill_of_shown (shows pid _ hJ') (truly _ meets')]
    -- its name is read
    intro env'' meets''
    change named nameSubstr (hostStep d env'' (arrive d env' _) (.readComm pid)).1 = false → _
    rcases stays pid _ _ _ meets'' trivial hJ' with hJ'' | h
    · rw [readComm_of_shown (shows pid _ hJ''), isNamed]
      exact fun no => nomatch no
    · exact fun _ => h
  · exact later (probed_only _ _ _) h

theorem isRunning_no {s : State} (begins : K s ∨ ∃ pid, J pid s) :
    wpIf (host d) M (ProcessUtil.isRunning d.pidfile nameSubstr)
      (fun up s' => up = false → K s') s := by
  refine isRunning_no_of_arrived isNamed truly shows kept stays fun env meets => ?_
  rcases begins with h | ⟨pid, h⟩
  · exact Or.inl (kept _ _ _ meets trivial h)
  · exact (stays pid _ _ _ meets trivial h).symm.imp_right fun h' => ⟨pid, h'⟩

end Missed

theorem wpIf_interrupt {Q : Bool → State → Prop} {s : State}
    (found : ∀ env, M ⟨0, s, env, .readPidfile d.pidfile⟩ →
      wpIf (host d) M (if pidOf (arrive d env s).pidfile ≤ 0 then pure true
        else signalPid (pidOf (arrive d env s).pidfile) sigint) Q (arrive d env s)) :
    wpIf (host d) M (do
      let pid ← readPid d.pidfile
      if pid ≤ 0 then pure true else signalPid pid sigint) Q s := by
  rw [readPid_eq]
  intro env meets
  have read : (hostStep d env s (.readPidfile d.pidfile)).1 = (arrive d env s).pidfile := by
    simp only [hostStep, if_true]
  change wpIf (host d) M (if pidOf (hostStep d env s (.readPidfile d.pidfile)).1 ≤ 0 then
    pure true else signalPid (pidOf (hostStep d env s (.readPidfile d.pidfile)).1) sigint) _
    (arrive d env s)
  rw [read]
  exact found env meets

theorem wpIf_signalPid {R : Option Errno → State → Prop} {pid sig : Int}
    {Q : Bool → State → Prop} {s : State}
    (sent : ∀ env, M ⟨0, s, env, .kill (toPidT pid) sig⟩ →
      R (hostStep d env s (.kill (toPidT pid) sig)).1 (hostStep d env s (.kill (toPidT pid) sig)).2)
    (delivered : ∀ s, R none s → Q true s)
    (failed : ∀ e text s, R (some e) s →
      wpIf (host d) M (do sys (.setLastError text); pure false) Q s) :
    wpIf (host d) M (signalPid pid sig) Q s := by
  have called : wpIf (host d) M (sys (.kill (toPidT pid) sig)) R s := sent
  unfold signalPid
  rw [wpIf_bind]
  refine wpIf_mono called fun answer s' told => ?_
  cases answer with
  | none => exact delivered s' told
  | some e => exact failed e _ s' told

theorem wpIf_runCommand {name : Str} {argv : List Str} {capture : Bool} {command : Command}
    (told : d.command argv = some command) {Q : Int → State → Prop} {s : State}
    (done : ∀ env output, M ⟨0, s, env, .spawn argv capture⟩ → env.child = .exited 0 output →
      Q 0 (command.effect d env.pid (arrive d env s)))
    (failed : ∀ env env' text code, M ⟨0, s, env, .spawn argv capture⟩ →
      (∀ output, env.child ≠ .exited 0 output) →
      M ⟨0, arrive d env s, env', .setLastError text⟩ → code ≠ 0 →
      Q code { arrive d env' (arrive d env s) with lastError := text }) :
    wpIf (host d) M (runCommand name argv capture) Q s := by
  intro env meets
  simp only [hostStep]
  cases hc : env.child with
  | exited code output =>
    by_cases zero : code = 0
    · subst zero
      have effect : Child.effect d argv env.pid (arrive d env s) (.exited 0 output) =
          command.effect d env.pid (arrive d env s) := by
        simp only [Child.effect, if_true, told]
      rw [effect]
      exact done env output meets hc
    · have hcode : (code.toNat : Int) ≠ 0 := by
        intro h0
        exact zero (UInt8.toNat_inj.mp (by simpa using h0))
      have nonneg : ¬ (code.toNat : Int) < 0 := by omega
      simp only [Child.spawned, Child.effect, if_neg zero, Prog.bind, if_neg nonneg, ne_eq, hcode,
        not_false_eq_true, if_true]
      intro env' meets'
      refine failed env env' _ _ meets ?_ meets' hcode
      rw [hc]
      rintro output' same
      cases same
      exact zero rfl
  | notSpawned err =>
    intro env' meets'
    refine failed env env' _ (-1) meets ?_ meets' (by decide)
    rw [hc]
    exact fun _ => Child.noConfusion
  | killed output =>
    intro env' meets'
    refine failed env env' _ (-1) meets ?_ meets' (by decide)
    rw [hc]
    exact fun _ => Child.noConfusion

section Rules

variable {name : Str} {isRunning testConfig off on : Code Bool} {Q : Bool → State → Prop}
  {s : State}

theorem wpIf_onWith {ensureDirs write start : Code Bool} {P W T : State → Prop}
    (probes : wpIf (host d) M isRunning (Either (Q true) P) s)
    (mkdirs : ∀ s, P s → wpIf (host d) M ensureDirs (Either P (Q false)) s)
    (writes : ∀ s, P s → wpIf (host d) M write (Either W (Q false)) s)
    (tests : ∀ s, W s → wpIf (host d) M testConfig (Either T (Q false)) s)
    (starts : ∀ s, T s → wpIf (host d) M start Q s) :
    wpIf (host d) M (do
      if ← isRunning then pure true
      else if !(← ensureDirs) then pure false
      else if !(← write) then pure false
      else if !(← testConfig) then pure false
      else start) Q s := by
  refine wpIf_either probes (fun _ h => h) fun s h => ?_
  refine wpIf_either (mkdirs s h) (fun s h => ?_) fun _ h => h
  refine wpIf_either (writes s h) (fun s h => ?_) fun _ h => h
  exact wpIf_either (tests s h) starts fun _ h => h

/-- A restart: `P` holds when the server was seen, `R` while it is waited for, `U` when it was
seen then, and `F` when it was seen no more. -/
theorem wpIf_resetWith {P R U F : State → Prop}
    (probes : wpIf (host d) M isRunning (Either P F) s)
    (stops : ∀ s, P s → wpIf (host d) M off (Either R (Q false)) s)
    (waits : ∀ s, R s → wpIf (host d) M isRunning (Either U F) s)
    (sleeps : ∀ us s, U s → wpIf (host d) M (sys (.usleep us)) (fun _ s' => R s') s)
    (stopped : ∀ s, F s → R s)
    (givesUp : ∀ text s, U s → wpIf (host d) M (do sys (.setLastError text); pure false) Q s)
    (starts : ∀ s, F s → wpIf (host d) M on Q s) :
    wpIf (host d) M (resetWith name isRunning off on) Q s := by
  have polls : ∀ n s, R s →
      wpIf (host d) M (pollRunning isRunning false n) (fun _ s' => R s') s := by
    intro n
    induction n with
    | zero => exact fun _ h => h
    | succ n ih =>
      intro s h
      refine wpIf_either (waits s h) (fun s h => ?_) stopped
      change wpIf (host d) M (sys (.usleep (100 * 1000)) >>= _) _ s
      rw [wpIf_bind]
      exact wpIf_mono (sleeps _ s h) fun _ s h => ih s h
  refine wpIf_either probes (fun s h => ?_) starts
  refine wpIf_either (stops s h) (fun s h => ?_) fun _ h => h
  change wpIf (host d) M (pollRunning isRunning false 50 >>= _) _ s
  rw [wpIf_bind]
  refine wpIf_mono (polls 50 s h) fun _ s h => ?_
  exact wpIf_either (waits s h) (givesUp _) starts

theorem wpIf_reloadWith {apply : Code Bool} {P D T : State → Prop}
    (probes : wpIf (host d) M isRunning (Either P D) s)
    (reports : ∀ text s, D s → wpIf (host d) M (do sys (.setLastError text); pure false) Q s)
    (tests : ∀ s, P s → wpIf (host d) M testConfig (Either T (Q false)) s)
    (applies : ∀ s, T s → wpIf (host d) M apply Q s) :
    wpIf (host d) M (reloadWith name isRunning testConfig apply) Q s := by
  refine wpIf_either probes (fun s h => ?_) (reports _)
  exact wpIf_either (tests s h) applies fun _ h => h

end Rules

end Webengine.Control.Lifecycle
