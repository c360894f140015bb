/- source: backend/src/NginxController.cpp, backend/src/LighttpdController.cpp
   digest: The listen file the server goes by and the ports of the controller, under whatever
   outcomes: what keeps them together, step by step and over the parts of the calls. -/

import Webengine.Control.Behaviour

set_option autoImplicit false
set_option relaxedAutoImplicit false

namespace Webengine.Control.Agreement

open Webengine.Engine.Roles (Str)
open Webengine.Control.Host
open Webengine.Control.ProcessUtil
open Webengine.Control.Controllers
open Webengine.Control.Lifecycle
open Webengine.Control.Behaviour
open Webengine.Library.Calls
open Webengine.Library.Files (Fs)
open Webengine.Library.Machines

/-- There is no server, or it was told to stop. -/
def Gone (s : State) : Prop := s.server = .stopped ∨ ∃ pid text, s.server = .draining pid text

/-- A server that has come up runs on the listen file given and has no reload to do. -/
def Rests (want : Str) (s : State) : Prop := Gone s ∨ ∃ pid, RunsAs want pid s

/-- So does one that is starting. -/
def Firm (want : Str) (s : State) : Prop :=
  Rests want s ∨ ∃ pid, ValidPid pid ∧ s.server = .starting pid want

/-- The server has a reload to do, and finds the text given in the listen file. -/
def Reloads (d : Daemon) (want : Str) (pid : Int) (s : State) : Prop :=
  ValidPid pid ∧ s.pidfile = some (pidText pid) ∧
    (∃ text, s.server = .running pid text true) ∧ s.listenText d = want

/-- The server goes by the listen file given, unless it is gone. -/
def Agrees (d : Daemon) (want : Str) (s : State) : Prop :=
  Firm want s ∨ ∃ pid, Reloads d want pid s

/-- A probe of the master process is not refused, and processes have valid pids. -/
structure Sound {d : Daemon} (e : Event (host d)) : Prop where
  truly : ProbesTruly e
  pid : ValidPid e.env.pid

/-- The outside world is sound; no reload is given up for the old configuration; a reload is told
to the server only while the listen file shows the ports of the controller, and the ports change
only while it is neither starting nor has a reload to do. A call that is `changing` the ports does
not give up a start that goes on. -/
structure Orderly (d : Daemon) (snippet : Port → Port → Str) (changing : Prop)
    (e : Event (host d)) : Prop extends Sound e where
  adopted : ∀ before after, e.env.moves = before ++ .keep :: after → ∀ pid text,
    (before.foldl (Move.apply d) e.pre).server = .running pid text true →
      text = e.pre.listenText d
  shows : ∀ argv capture, e.op = .spawn argv capture → d.command argv = some .reload →
    e.pre.listenText d = snippet e.pre.http e.pre.https
  started : ∀ port, e.op = .setHttpPort port → ∀ pid text,
    (arrive d e.env e.pre).server ≠ .starting pid text
  reloaded : ∀ port, e.op = .setHttpPort port → ∀ pid text,
    (arrive d e.env e.pre).server ≠ .running pid text true
  awaited : changing → e.op = .setLastError neverUp →
    ¬ Server.isUp (arrive d e.env e.pre).server

variable {d : Daemon} {M : Event (host d) → Prop} {want : Str}

section Moves

variable {s : State}

private theorem gone_apply (move : Move) (h : Gone s) : Gone (move.apply d s) := by
  rcases h with hs | ⟨pid, text, hs⟩
  · cases move with
    | crash => exact Or.inl rfl
    | _ =>
      simp only [Move.apply, hs]
      exact Or.inl hs
  · cases move with
    | crash => exact Or.inl rfl
    | exit =>
      simp only [Move.apply, hs]
      exact Or.inl rfl
    | _ =>
      simp only [Move.apply, hs]
      exact Or.inr ⟨pid, text, hs⟩

private theorem rests_apply (move : Move) (h : Rests want s) : Rests want (move.apply d s) := by
  rcases h with gone | ⟨pid, runs⟩
  · exact Or.inl (gone_apply move gone)
  · by_cases crash : move = .crash
    · rw [crash]
      exact Or.inl (Or.inl rfl)
    · exact Or.inr ⟨pid, runsAs_apply crash runs⟩

private theorem firm_apply (move : Move) (h : Firm want s) : Firm want (move.apply d s) := by
  rcases h with rests | ⟨pid, valid, hs⟩
  · exact Or.inl (rests_apply move rests)
  · cases move with
    | crash => exact Or.inl (Or.inl (Or.inl rfl))
    | fail =>
      simp only [Move.apply, hs]
      exact Or.inl (Or.inl (Or.inl rfl))
    | comeUp =>
      simp only [Move.apply, hs]
      exact Or.inl (Or.inr ⟨pid, valid, rfl, rfl⟩)
    | _ =>
      simp only [Move.apply, hs]
      exact Or.inr ⟨pid, valid, hs⟩

private theorem reloads_apply (move : Move) {pid : Int}
    (adopted : move = .keep → ∀ pid text, s.server = .running pid text true →
      text = s.listenText d) (h : Reloads d want pid s) :
    Reloads d want pid (move.apply d s) ∨ Rests want (move.apply d s) := by
  obtain ⟨valid, pidfile, ⟨text, hs⟩, listens⟩ := h
  cases move with
  | crash => exact Or.inr (Or.inl (Or.inl rfl))
  | adopt =>
    simp only [Move.apply, hs]
    exact Or.inr (Or.inr ⟨pid, valid, pidfile, by rw [listens]⟩)
  | keep =>
    have same : text = want := (adopted rfl pid text hs).trans listens
    simp only [Move.apply, hs]
    exact Or.inr (Or.inr ⟨pid, valid, pidfile, by rw [same]⟩)
  | _ =>
    simp only [Move.apply, hs]
    exact Or.inl ⟨valid, pidfile, ⟨text, hs⟩, listens⟩

private theorem reloads_arrive {env : Env} {pid : Int}
    (adopted : ∀ before after, env.moves = before ++ .keep :: after → ∀ pid text,
      (before.foldl (Move.apply d) s).server = .running pid text true → text = s.listenText d)
    (h : Reloads d want pid s) :
    Reloads d want pid (arrive d env s) ∨ Rests want (arrive d env s) := by
  unfold arrive
  generalize env.moves = moves at adopted
  induction moves generalizing s with
  | nil => exact Or.inl h
  | cons move moves ih =>
    have files : (move.apply d s).listenText d = s.listenText d := by
      unfold State.listenText
      rw [(apply_frame (d := d) (s := s) move).2.2]
    rcases reloads_apply move (fun keep pid text hs =>
      adopted [] moves (by rw [keep]; rfl) pid text hs) h with h' | rests
    · refine ih h' fun before after split pid text hs => ?_
      rw [files]
      exact adopted (move :: before) after (by rw [split]; rfl) pid text hs
    · right
      have arrived : Rests want (arrive d ⟨moves, none, [], 0, .killed [], 0⟩ (move.apply d s)) :=
        arrive_keeps (fun move _ _ h => rests_apply move h) rests
      exact arrived

private theorem agrees_arrive {env : Env} {o : Op} {snippet : Port → Port → Str} {changing : Prop}
    (orderly : Orderly d snippet changing ⟨0, s, env, o⟩) (h : Agrees d want s) :
    Agrees d want (arrive d env s) := by
  rcases h with firm | ⟨pid, reloads⟩
  · exact Or.inl (arrive_keeps (fun move _ _ h => firm_apply move h) firm)
  · rcases reloads_arrive orderly.adopted reloads with reloads' | rests
    · exact Or.inr ⟨pid, reloads'⟩
    · exact Or.inl (Or.inl rests)

theorem agrees_running {pid : Int} {text : Str} {pending : Bool} (h : Agrees d want s)
    (hs : s.server = .running pid text pending) :
    ValidPid pid ∧ s.pidfile = some (pidText pid) ∧
      (if pending then s.listenText d else text) = want := by
  rcases h with (((stopped | ⟨_, _, drains⟩) | ⟨pid', valid, pidfile, runs⟩) | ⟨_, -, starts⟩) |
    ⟨pid', valid, pidfile, ⟨text', runs⟩, listens⟩
  · cases hs.symm.trans stopped
  · cases hs.symm.trans drains
  · cases hs.symm.trans runs
    exact ⟨valid, pidfile, rfl⟩
  · cases hs.symm.trans starts
  · cases hs.symm.trans runs
    exact ⟨valid, pidfile, listens⟩

end Moves

/-- What the server keeps by itself, what is so when it is gone, and what only the server and its
pidfile decide. -/
structure Lasts (d : Daemon) (J : State → Prop) : Prop where
  apply : ∀ move s, J s → J (Move.apply d s move)
  gone : ∀ s, Gone s → J s
  congr : ∀ s s', s'.server = s.server → s'.pidfile = s.pidfile → J s → J s'

theorem lasts_gone : Lasts d Gone where
  apply move _ h := gone_apply move h
  gone _ h := h
  congr s s' server _ h := by
    unfold Gone
    rw [server]
    exact h

theorem lasts_rests : Lasts d (Rests want) where
  apply move _ h := rests_apply move h
  gone _ h := Or.inl h
  congr s s' server pidfile h := by
    rcases h with gone | ⟨pid, valid, file, runs⟩
    · exact Or.inl (lasts_gone.congr (d := d) s s' server pidfile gone)
    · exact Or.inr ⟨pid, valid, pidfile.trans file, server.trans runs⟩

theorem lasts_firm : Lasts d (Firm want) where
  apply move _ h := firm_apply move h
  gone _ h := Or.inl (Or.inl h)
  congr s s' server pidfile h := by
    rcases h with rests | ⟨pid, valid, starts⟩
    · exact Or.inl (lasts_rests.congr (d := d) s s' server pidfile rests)
    · exact Or.inr ⟨pid, valid, server.trans starts⟩

/-- The steps that change no port, and start and reload nothing. -/
def plain (d : Daemon) : Op → Prop
  | .setHttpPort _ => False
  | .setHttpsPort _ => False
  | .spawn argv _ => d.command argv = some .test ∨ d.command argv = some .quit
  | _ => True

/-- Those of them that leave the files alone. -/
def gentle (d : Daemon) : Op → Prop
  | .kill _ _ => True
  | .spawn argv _ => d.command argv = some .test ∨ d.command argv = some .quit
  | o => steady d o

section Steps

variable {s : State} {env : Env} {o : Op}

private theorem gentle_of_steady (h : steady d o) : gentle d o := by
  cases o with
  | kill pid sig => trivial
  | spawn argv capture => exact Or.inl h
  | _ => exact h

theorem plain_of_gentle (h : gentle d o) : plain d o := by
  cases o with
  | setHttpPort port => exact h
  | setHttpsPort port => exact h
  | spawn argv capture => exact h
  | _ => trivial

private theorem plain_of_replaces (h : replaces o) : plain d o := by
  cases o <;> first | exact h.elim | trivial

theorem gentle_of_observes (h : observes o) : gentle d o :=
  gentle_of_steady (steady_of_observes h)

theorem isRunning_gentle (pidfile nameSubstr : Str) :
    (ProcessUtil.isRunning pidfile nameSubstr).Only (gentle d) :=
  (isRunning_only _ _).mono fun _ => gentle_of_observes

private theorem plain_cases (env : Env) (s : State) (ho : plain d o) :
    ((hostStep d env s o).2.server = (arrive d env s).server ∧
      (hostStep d env s o).2.pidfile = (arrive d env s).pidfile) ∨
    Gone (hostStep d env s o).2 := by
  rcases step_cases (d := d) env s o with same | ⟨pid, rfl, -, same⟩ |
    ⟨argv, capture, command, output, rfl, told, -, same⟩
  · exact Or.inl same
  · rw [same]
    cases (arrive d env s).server with
    | stopped => exact Or.inr (Or.inl rfl)
    | starting pid text => exact Or.inr (Or.inr ⟨pid, text, rfl⟩)
    | running pid text pending => exact Or.inr (Or.inr ⟨pid, text, rfl⟩)
    | draining pid text => exact Or.inr (Or.inr ⟨pid, text, rfl⟩)
  · rw [same]
    rcases ho with test | quit
    · obtain rfl : command = .test := Option.some.inj (told.symm.trans test)
      exact Or.inl ⟨rfl, rfl⟩
    · obtain rfl : command = .quit := Option.some.inj (told.symm.trans quit)
      cases hs : (arrive d env s).server with
      | running pid text pending =>
        simp only [Command.effect, hs]
        exact Or.inr (Or.inr ⟨pid, text, rfl⟩)
      | _ =>
        simp only [Command.effect, hs]
        exact Or.inl ⟨trivial, trivial⟩

private theorem effect_frame (child : Child) (argv : List Str) (pid : Int) :
    (child.effect d argv pid s).http = s.http ∧ (child.effect d argv pid s).https = s.https ∧
      (child.effect d argv pid s).fs = s.fs := by
  cases child with
  | exited code output =>
    simp only [Child.effect]
    split
    · cases d.command argv with
      | none => exact ⟨rfl, rfl, rfl⟩
      | some command =>
        cases command with
        | test => exact ⟨rfl, rfl, rfl⟩
        | _ =>
          simp only [Command.effect]
          split <;> exact ⟨rfl, rfl, rfl⟩
    · exact ⟨rfl, rfl, rfl⟩
  | _ => exact ⟨rfl, rfl, rfl⟩

private theorem signalled_frame (pid sig : Int) :
    (s.signalled pid sig).http = s.http ∧ (s.signalled pid sig).https = s.https ∧
      (s.signalled pid sig).fs = s.fs := by
  unfold State.signalled
  split <;> exact ⟨rfl, rfl, rfl⟩

private theorem plain_ports (env : Env) (s : State) (ho : plain d o) :
    (hostStep d env s o).2.http = s.http ∧ (hostStep d env s o).2.https = s.https := by
  have ports : (arrive d env s).http = s.http ∧ (arrive d env s).https = s.https :=
    ⟨arrive_http env, arrive_https env⟩
  cases o with
  | setHttpPort port => exact ho.elim
  | setHttpsPort port => exact ho.elim
  | spawn argv capture =>
    obtain ⟨http, https, -⟩ := effect_frame (d := d) (s := arrive d env s) env.child argv env.pid
    exact ⟨http.trans ports.1, https.trans ports.2⟩
  | kill pid sig =>
    obtain ⟨http, https, -⟩ := signalled_frame (s := arrive d env s) pid sig
    simp only [hostStep]
    split
    · exact ports
    · exact ports
    · exact ⟨http.trans ports.1, https.trans ports.2⟩
  | _ =>
    simp only [hostStep]
    repeat' split
    all_goals exact ports

private theorem gentle_files (ho : gentle d o) : (hostStep d env s o).2.fs = s.fs := by
  have files : (arrive d env s).fs = s.fs := arrive_fs env
  cases o with
  | spawn argv capture =>
    obtain ⟨-, -, fs⟩ := effect_frame (d := d) (s := arrive d env s) env.child argv env.pid
    exact fs.trans files
  | kill pid sig =>
    obtain ⟨-, -, fs⟩ := signalled_frame (s := arrive d env s) pid sig
    simp only [hostStep]
    split
    · exact files
    · exact files
    · exact fs.trans files
  | openTrunc path => exact ho.elim
  | buffer content => exact ho.elim
  | write file offset piece => exact ho.elim
  | rename a b => exact ho.elim
  | remove path => exact ho.elim
  | setHttpPort port => exact ho.elim
  | setHttpsPort port => exact ho.elim
  | _ => exact files

theorem Lasts.arrive {J : State → Prop} (lasts : Lasts d J) (h : J s) : J (arrive d env s) :=
  arrive_keeps (fun move _ s h => lasts.apply move s h) h

theorem Lasts.step {J : State → Prop} (lasts : Lasts d J) (ho : plain d o) (h : J s) :
    J (hostStep d env s o).2 := by
  rcases plain_cases env s ho with ⟨server, pidfile⟩ | gone
  · exact lasts.congr _ _ server pidfile (lasts.arrive h)
  · exact lasts.gone _ gone

private theorem agrees_step {snippet : Port → Port → Str} {changing : Prop}
    (orderly : Orderly d snippet changing ⟨0, s, env, o⟩) (ho : gentle d o)
    (h : Agrees d want s) : Agrees d want (hostStep d env s o).2 := by
  rcases plain_cases env s (plain_of_gentle ho) with
    ⟨server, pidfile⟩ | gone
  · rcases agrees_arrive orderly h with firm | ⟨pid, valid, file, ⟨text, runs⟩, listens⟩
    · exact Or.inl (lasts_firm.congr (d := d) _ _ server pidfile firm)
    · refine Or.inr ⟨pid, valid, pidfile.trans file, ⟨text, server.trans runs⟩, ?_⟩
      unfold State.listenText at listens ⊢
      rw [gentle_files ho, ← listens, arrive_fs]
  · exact Or.inl (lasts_firm.gone (d := d) _ gone)

end Steps

/-- The ports, and what is so of the server. -/
structure At (http https : Port) (J : State → Prop) (s : State) : Prop where
  http : s.http = http
  https : s.https = https
  server : J s

/-- And what the listen file shows. -/
def Filed (d : Daemon) (http https : Port) (J : State → Prop) (text : Str) (s : State) : Prop :=
  At http https J s ∧ s.fs.read d.listenFile = some text

section Specs

variable {snippet : Port → Port → Str} {changing : Prop} {http https : Port} {J : State → Prop}
  {s : State} {α : Type} {name : Str}

theorem At.arrived (lasts : Lasts d J) (env : Env) (h : At http https J s) :
    At http https J (arrive d env s) :=
  ⟨(arrive_http env).trans h.http, (arrive_https env).trans h.https, lasts.arrive h.server⟩

theorem keeps_at (lasts : Lasts d J) {p : Code α} (only : p.Only (plain d)) :
    Keeps (host d) M (At http https J) p := by
  refine .of_only (fun env s o _ ho h => ?_) only
  obtain ⟨sameHttp, sameHttps⟩ := plain_ports env s ho
  exact ⟨sameHttp.trans h.http, sameHttps.trans h.https, lasts.step ho h.server⟩

theorem keeps_filed (lasts : Lasts d J) {text : Str} {p : Code α} (only : p.Only (gentle d)) :
    Keeps (host d) M (Filed d http https J text) p := by
  refine .of_only (fun env s o _ ho h => ?_) only
  obtain ⟨⟨http, https, server⟩, file⟩ := h
  obtain ⟨sameHttp, sameHttps⟩ := plain_ports env s (plain_of_gentle ho)
  refine ⟨⟨sameHttp.trans http, sameHttps.trans https, lasts.step (plain_of_gentle ho) server⟩, ?_⟩
  rw [gentle_files ho]
  exact file

theorem keeps_agrees {p : Code α} (only : p.Only (gentle d)) :
    Keeps (host d) (Orderly d snippet changing) (At http https (Agrees d want)) p := by
  refine .of_only (fun env s o orderly ho h => ?_) only
  obtain ⟨sameHttp, sameHttps⟩ := plain_ports env s (plain_of_gentle ho)
  exact ⟨sameHttp.trans h.http, sameHttps.trans h.https, agrees_step orderly ho h.server⟩

/-- A probe that says no has seen that the server has no reload to do. -/
private theorem isRunning_firm {nameSubstr : Str}
    (isNamed : named nameSubstr (some (d.comm ++ ['\n'])) = true) (h : Agrees d want s) :
    wpIf (host d) (Orderly d snippet changing) (ProcessUtil.isRunning d.pidfile nameSubstr)
      (fun up s' => up = false → Firm want s') s := by
  refine isRunning_no (J := Reloads d want) isNamed (fun e orderly => orderly.truly) ?_ ?_ ?_ h
  · intro pid s reloads
    obtain ⟨valid, pidfile, ⟨text, hs⟩, -⟩ := reloads
    exact ⟨by rw [hs]; rfl, pidfile, valid⟩
  · exact fun s env o _ _ h => lasts_firm.arrive h
  · intro pid s env o orderly _ h
    exact (reloads_arrive orderly.adopted h).imp_right Or.inl

private theorem isRunning_gone {nameSubstr : Str}
    (isNamed : named nameSubstr (some (d.comm ++ ['\n'])) = true)
    (truly : ∀ e, M e → ProbesTruly e) (h : Rests want s) :
    wpIf (host d) M (ProcessUtil.isRunning d.pidfile nameSubstr)
      (fun up s' => up = false → Gone s') s := by
  refine isRunning_no (J := RunsAs want) isNamed truly (fun _ _ runs => runs.shown) ?_ ?_ h
  · exact fun s env o _ _ h => lasts_gone.arrive h
  · intro pid s env o _ _ h
    refine arrive_keeps (J := fun s => RunsAs want pid s ∨ Gone s) (fun move _ s h => ?_) (Or.inl h)
    rcases h with runs | gone
    · by_cases crash : move = .crash
      · rw [crash]
        exact Or.inr (Or.inl rfl)
      · exact Or.inl (runsAs_apply crash runs)
    · exact Or.inr (gone_apply move gone)

theorem isRunning_rests {nameSubstr : Str} {P : State → Prop}
    (isNamed : named nameSubstr (some (d.comm ++ ['\n'])) = true)
    (truly : ∀ e, M e → ProbesTruly e)
    (keeps : Keeps (host d) M P (ProcessUtil.isRunning d.pidfile nameSubstr))
    (rests : ∀ s, P s → At http https (Rests want) s) (s : State) (h : P s) :
    wpIf (host d) M (ProcessUtil.isRunning d.pidfile nameSubstr)
      (Either P (At http https Gone)) s := by
  refine wpIf_mono (wpIf_and (keeps s h) (isRunning_gone isNamed truly (rests s h).server)) ?_
  intro up s' outcome
  obtain ⟨h', no⟩ := outcome
  cases up with
  | true => exact h'
  | false => exact ⟨(rests s' h').http, (rests s' h').https, no rfl⟩

private theorem write_at {httpsEnabled : Bool} (lasts : Lasts d J)
    (disabled : httpsEnabled = false → ∀ http https https',
      snippet http https = snippet http https') (h : At http https J s) :
    wpIf (host d) M (writeListenSnippetWith d.listenFile httpsEnabled snippet)
      (Either (Filed d http https J (snippet http https)) (At http https J)) s := by
  have kept : wpIf (host d) M (writeListenSnippetWith d.listenFile httpsEnabled snippet)
      (fun _ s' => At http https J s') s :=
    keeps_at lasts (writeListenSnippetWith_only ⟨trivial, trivial⟩ (fun _ => plain_of_replaces)
      _ _ _) s h
  have outcome := wpIf_of_wp (M := M) (E := fun _ => True)
    (Q := Replaced d.listenFile (snippet s.http s.https) s) (fun _ _ => trivial)
    (writeListenSnippetWith_spec disabled s)
  refine wpIf_mono (wpIf_and kept outcome) ?_
  intro written s' after
  rcases after with ⟨h', l, ⟨-, -, ⟨done, file⟩ | ⟨failed, -⟩⟩, -⟩
  · cases done
    rw [h.http, h.https] at file
    exact ⟨h', file⟩
  · cases failed
    exact h'

theorem start_at {argv : List Str} {capture : Bool} (pids : ∀ e, M e → ValidPid e.env.pid)
    (told : d.command argv = some .start) (lasts : Lasts d J) (firm : ∀ s, J s → Firm want s)
    (filed : Filed d http https J want s) :
    wpIf (host d) M (runCommand name argv capture) (fun code s' =>
      At http https (Firm want) s' ∧ (code ≠ 0 → At http https J s')) s := by
  obtain ⟨h, file⟩ := filed
  have arrived : ∀ env, At http https J (arrive d env s) := fun env => h.arrived lasts env
  refine wpIf_runCommand told ?_ ?_
  · intro env output meets _
    obtain ⟨http, https, server⟩ := arrived env
    have listens : (arrive d env s).listenText d = want := by
      simp only [State.listenText, arrive_fs, file, Option.getD_some]
    refine ⟨?_, fun nonzero => absurd rfl nonzero⟩
    cases hs : (arrive d env s).server with
    | stopped =>
      simp only [Command.effect, hs]
      exact ⟨http, https, Or.inr ⟨env.pid, pids _ meets, by rw [listens]⟩⟩
    | _ =>
      simp only [Command.effect, hs]
      exact ⟨http, https, firm _ server⟩
  · intro env env' text code _ _ _ _
    have after : At http https J
        { arrive d env' (arrive d env s) with lastError := text } := by
      have later := (arrived env).arrived lasts env'
      exact ⟨later.http, later.https,
        lasts.congr (arrive d env' (arrive d env s)) _ rfl rfl later.server⟩
    exact ⟨⟨after.http, after.https, firm _ after.server⟩, fun _ => after⟩

private theorem readPorts_agrees {f : Port → Port → Code α} {Q : α → State → Prop}
    (h : At http https (Agrees d want) s)
    (rest : ∀ s', At http https (Agrees d want) s' →
      wpIf (host d) (Orderly d snippet changing) (f http https) Q s') :
    wpIf (host d) (Orderly d snippet changing) (do f (← sys .httpPort) (← sys .httpsPort)) Q s := by
  have reads : ∀ o, gentle d o → (sys o).Only (gentle d) := fun o ho => ⟨ho, fun _ => trivial⟩
  intro env orderly env' orderly'
  have first := keeps_agrees (reads .httpPort trivial) s h env orderly
  have both := rest _ (keeps_agrees (reads .httpsPort trivial) _ first env' orderly')
  have read : (hostStep d env s .httpPort).1 = http := (arrive_http env).trans h.http
  have read' : (hostStep d env' (hostStep d env s .httpPort).2 .httpsPort).1 = https :=
    (arrive_https env').trans ((arrive_https env).trans h.https)
  rw [← read, ← read'] at both
  exact both

private theorem setPorts_rests {p : Code α} {Q : α → State → Prop} (h : Agrees d want s)
    (rest : ∀ s', At http https (Rests want) s' →
      wpIf (host d) (Orderly d snippet changing) p Q s') :
    wpIf (host d) (Orderly d snippet changing) (do
      sys (.setHttpPort http)
      sys (.setHttpsPort https)
      p) Q s := by
  intro env orderly env' orderly'
  have first : Rests want (arrive d env s) := by
    rcases agrees_arrive orderly h with (rests | ⟨pid, -, starts⟩) | ⟨pid, -, -, ⟨text, runs⟩, -⟩
    · exact rests
    · exact absurd starts (orderly.started http rfl pid want)
    · exact absurd runs (orderly.reloaded http rfl pid text)
  have assigned : Rests want (hostStep d env s (.setHttpPort http)).2 :=
    lasts_rests.congr (d := d) (arrive d env s) _ rfl rfl first
  have second : Rests want (arrive d env' (hostStep d env s (.setHttpPort http)).2) :=
    lasts_rests.arrive assigned
  refine rest _ ⟨?_, rfl, lasts_rests.congr (d := d) (arrive d env' _) _ rfl rfl second⟩
  change (arrive d env' (hostStep d env s (.setHttpPort http)).2).http = http
  rw [arrive_http]
  rfl

/-- A reload is told to a server that runs, and finds the listen file. -/
private theorem effect_reload {prev : Str} {pid : Int} (h : Agrees d prev s)
    (listens : s.listenText d = want)
    (starts : ∀ pid text, s.server = .starting pid text → prev = want) :
    Agrees d want (Command.reload.effect d pid s) := by
  cases hs : s.server with
  | stopped =>
    simp only [Command.effect, hs]
    exact Or.inl (Or.inl (Or.inl (Or.inl hs)))
  | draining pid text =>
    simp only [Command.effect, hs]
    exact Or.inl (Or.inl (Or.inl (Or.inr ⟨pid, text, hs⟩)))
  | starting pid text =>
    simp only [Command.effect, hs]
    rw [← starts pid text hs]
    exact h
  | running pid text pending =>
    obtain ⟨valid, pidfile, -⟩ := agrees_running h hs
    simp only [Command.effect, hs]
    exact Or.inr ⟨pid, valid, pidfile, ⟨text, rfl⟩, listens⟩

theorem At.arrive {env : Env} {o : Op} (orderly : Orderly d snippet changing ⟨0, s, env, o⟩)
    (h : At http https (Agrees d want) s) : At http https (Agrees d want) (arrive d env s) :=
  ⟨(arrive_http env).trans h.http, (arrive_https env).trans h.https,
    agrees_arrive orderly h.server⟩

theorem reload_agrees {argv : List Str} {capture : Bool}
    (told : d.command argv = some .reload)
    (h : At http https (Agrees d (snippet http https)) s) :
    wpIf (host d) (Orderly d snippet changing) (exitsZero (runCommand name argv capture))
      (fun _ s' => At http https (Agrees d (snippet http https)) s') s := by
  unfold exitsZero
  rw [wpIf_bind]
  refine wpIf_runCommand told ?_ ?_
  · intro env output orderly _
    obtain ⟨sameHttp, sameHttps, server⟩ := h.arrive orderly
    have listens : (Host.arrive d env s).listenText d = snippet http https := by
      have shows := orderly.shows argv capture rfl told
      rw [h.http, h.https] at shows
      rw [← shows]
      exact congrArg (fun fs : Fs Str => (fs.read d.listenFile).getD []) (arrive_fs env)
    obtain ⟨http', https', -⟩ := effect_frame (d := d) (s := Host.arrive d env s)
      (.exited 0 output) argv env.pid
    simp only [Child.effect, if_true, told] at http' https'
    exact ⟨http'.trans sameHttp, https'.trans sameHttps,
      effect_reload server listens fun _ _ _ => rfl⟩
  · intro env env' text code orderly _ orderly' _
    exact keeps_agrees (p := sys (.setLastError text)) ⟨trivial, fun _ => trivial⟩ _
      (h.arrive orderly) env' orderly'

end Specs

section Rules

variable {snippet : Port → Port → Str} {changing : Prop} {http https : Port} {J : State → Prop}
  {s : State} {name : Str} {isRunning off on : Code Bool}

/-- A start leaves the server on the ports of the controller, and if it failed, as it was. -/
def Started (d : Daemon) (snippet : Port → Port → Str) (http https : Port) (J : State → Prop)
    (done : Bool) (s : State) : Prop :=
  At http https (Agrees d (snippet http https)) s ∧ (done = false → At http https J s)

theorem started_no (firm : ∀ s, J s → Firm (snippet http https) s) (h : At http https J s) :
    Started d snippet http https J false s :=
  ⟨⟨h.http, h.https, Or.inl (firm s h.server)⟩, fun _ => h⟩

theorem onWith_started {httpsEnabled : Bool} {ensureDirs testConfig start : Code Bool}
    (lasts : Lasts d J) (firm : ∀ s, J s → Firm (snippet http https) s)
    (disabled : httpsEnabled = false → ∀ http https https',
      snippet http https = snippet http https')
    (probes : wpIf (host d) M isRunning (Started d snippet http https J) s)
    (mkdirs : ensureDirs.Only (plain d)) (tests : testConfig.Only (gentle d))
    (starts : ∀ s, Filed d http https J (snippet http https) s →
      wpIf (host d) M start (Started d snippet http https J) s) :
    wpIf (host d) M (do
      if ← isRunning then pure true
      else if !(← ensureDirs) then pure false
      else if !(← writeListenSnippetWith d.listenFile httpsEnabled snippet) then pure false
      else if !(← testConfig) then pure false
      else start) (Started d snippet http https J) s := by
  have fails : ∀ s, At http https J s → Started d snippet http https J false s :=
    fun s h => started_no firm h
  refine wpIf_onWith (wpIf_mono probes fun up s h => ?_) ((keeps_at lasts mkdirs).either fails)
    (fun s h => wpIf_mono (write_at lasts disabled h) fun written s h => ?_)
    ((keeps_filed lasts tests).either fun s h => fails s h.1) starts
  · cases up with
    | true => exact h
    | false => exact h.2 rfl
  · cases written with
    | true => exact h
    | false => exact fails s h

theorem probes_started {nameSubstr : Str}
    (isNamed : named nameSubstr (some (d.comm ++ ['\n'])) = true)
    (h : At http https (Agrees d (snippet http https)) s) :
    wpIf (host d) (Orderly d snippet changing) (ProcessUtil.isRunning d.pidfile nameSubstr)
      (Started d snippet http https (Firm (snippet http https))) s := by
  refine wpIf_mono (wpIf_and (keeps_agrees (isRunning_gentle _ _) s h)
    (isRunning_firm isNamed h.server)) ?_
  intro up s' outcome
  obtain ⟨h', no⟩ := outcome
  exact ⟨h', fun down => ⟨h'.http, h'.https, no down⟩⟩

theorem reports_no {P : State → Prop} {Q : Bool → State → Prop} {text : Str}
    (keeps : Keeps (host d) M P (sys (.setLastError text))) (fails : ∀ s, P s → Q false s)
    (s : State) (h : P s) :
    wpIf (host d) M (do sys (.setLastError text); pure false) Q s := by
  rw [wpIf_bind]
  exact wpIf_mono (keeps s h) fun _ s' h' => fails s' h'

theorem resetWith_agrees {pidfile nameSubstr : Str} (stops : off.Only (gentle d))
    (starts : Keeps (host d) (Orderly d snippet changing)
      (At http https (Agrees d (snippet http https))) on) :
    Keeps (host d) (Orderly d snippet changing) (At http https (Agrees d (snippet http https)))
      (resetWith name (ProcessUtil.isRunning pidfile nameSubstr) off on) := by
  have probes : Keeps (host d) (Orderly d snippet changing)
      (At http https (Agrees d (snippet http https))) (ProcessUtil.isRunning pidfile nameSubstr) :=
    keeps_agrees (isRunning_gentle _ _)
  intro s h
  exact wpIf_resetWith (probes.either (fun _ h => h) s h)
    ((keeps_agrees stops).either fun _ h => h) (probes.either fun _ h => h)
    (fun us => keeps_agrees ⟨trivial, fun _ => trivial⟩) (fun _ h => h)
    (fun text => reports_no (keeps_agrees ⟨trivial, fun _ => trivial⟩) fun _ h => h) starts

theorem reloadWith_agrees {pidfile nameSubstr : Str} {testConfig apply : Code Bool}
    (tests : testConfig.Only (gentle d))
    (applies : Keeps (host d) (Orderly d snippet changing)
      (At http https (Agrees d (snippet http https))) apply) :
    Keeps (host d) (Orderly d snippet changing) (At http https (Agrees d (snippet http https)))
      (reloadWith name (ProcessUtil.isRunning pidfile nameSubstr) testConfig apply) := by
  intro s h
  exact wpIf_reloadWith ((keeps_agrees (isRunning_gentle _ _)).either (fun _ h => h) s h)
    (fun text => reports_no (keeps_agrees ⟨trivial, fun _ => trivial⟩) fun _ h => h)
    ((keeps_agrees tests).either fun _ h => h) applies

/-- A reload leaves the server on the ports of the controller if it was done, and else as it
was. -/
abbrev Reloaded (d : Daemon) (snippet : Port → Port → Str) (http https : Port) (prev : Str) :
    Bool → State → Prop :=
  Either (m := host d) (At http https (Agrees d (snippet http https))) (At http https (Rests prev))

/-- A reload of a server that rests takes it to the listen file, unless its command failed. -/
theorem reload_rests {argv : List Str} {capture : Bool} {prev : Str}
    (told : d.command argv = some .reload)
    (filed : Filed d http https (Rests prev) (snippet http https) s) :
    wpIf (host d) M (exitsZero (runCommand name argv capture))
      (Reloaded d snippet http https prev) s := by
  obtain ⟨h, file⟩ := filed
  have arrived : ∀ env, At http https (Rests prev) (arrive d env s) := fun env =>
    h.arrived lasts_rests env
  unfold exitsZero
  rw [wpIf_bind]
  refine wpIf_runCommand told ?_ ?_
  · intro env output _ _
    obtain ⟨sameHttp, sameHttps, rests⟩ := arrived env
    have listens : (arrive d env s).listenText d = snippet http https := by
      simp only [State.listenText, arrive_fs, file, Option.getD_some]
    have unstarted : ∀ pid text, (arrive d env s).server = .starting pid text →
        prev = snippet http https := by
      intro pid text starts
      rcases rests with (stopped | ⟨_, _, drains⟩) | ⟨_, runs⟩
      · cases starts.symm.trans stopped
      · cases starts.symm.trans drains
      · cases starts.symm.trans runs.server
    obtain ⟨http', https', -⟩ := effect_frame (d := d) (s := arrive d env s)
      (.exited 0 output) argv env.pid
    simp only [Child.effect, if_true, told] at http' https'
    exact ⟨http'.trans sameHttp, https'.trans sameHttps,
      effect_reload (Or.inl (Or.inl rests)) listens unstarted⟩
  · intro env env' text code _ _ meets' nonzero
    have reported := keeps_at (M := M) lasts_rests (p := sys (.setLastError text))
      ⟨trivial, fun _ => trivial⟩ _ (arrived env) env' meets'
    change Reloaded d snippet http https prev (decide (code = 0)) _
    rw [decide_eq_false nonzero]
    exact reported

/-- The server goes by the new ports if they were taken, and else by the old ones. -/
abbrev Changed (d : Daemon) (snippet : Port → Port → Str) (prevHttp prevHttps http https : Port) :
    Bool → State → Prop :=
  Either (m := host d) (At http https (Agrees d (snippet http https)))
    (At prevHttp prevHttps (Agrees d (snippet prevHttp prevHttps)))

theorem setListenPortsWith_changed {httpsEnabled : Bool} {nameSubstr : Str} {reload : Code Bool}
    {prevHttp prevHttps : Port}
    (isNamed : named nameSubstr (some (d.comm ++ ['\n'])) = true)
    (disabled : httpsEnabled = false → ∀ http https https',
      snippet http https = snippet http https')
    (reloads : ∀ s, Filed d http https (Rests (snippet prevHttp prevHttps)) (snippet http https) s →
      wpIf (host d) (Orderly d snippet changing) reload
        (Reloaded d snippet http https (snippet prevHttp prevHttps)) s)
    (h : At prevHttp prevHttps (Agrees d (snippet prevHttp prevHttps)) s) :
    wpIf (host d) (Orderly d snippet changing)
      (setListenPortsWith (writeListenSnippetWith d.listenFile httpsEnabled snippet)
        (ProcessUtil.isRunning d.pidfile nameSubstr) reload http https)
      (Changed d snippet prevHttp prevHttps http https) s := by
  have agrees : ∀ {http https : Port} {want : Str} {s : State}, At http https (Rests want) s →
      At http https (Agrees d want) s := fun h => ⟨h.http, h.https, Or.inl (Or.inl h.server)⟩
  refine readPorts_agrees h fun s₁ h₁ => ?_
  refine setPorts_rests h₁.server fun s₂ h₂ => ?_
  refine wpIf_either (write_at lasts_rests disabled h₂) (fun s₃ h₃ => ?_) fun s₃ h₃ => ?_
  · have probed := isRunning_rests isNamed (fun e orderly => orderly.truly)
      (keeps_filed (M := Orderly d snippet changing) lasts_rests (isRunning_gentle _ _))
      (fun _ h => h.1) s₃ h₃
    refine wpIf_either probed (fun s₄ h₄ => ?_) fun s₄ h₄ => ?_
    · refine wpIf_either (reloads s₄ h₄) (fun _ h₅ => h₅) fun s₅ h₅ => ?_
      -- the old ports are taken back, whether the snippet can be written or not
      refine setPorts_rests (agrees h₅).server fun s₆ h₆ => ?_
      exact wpIf_either (write_at lasts_rests disabled h₆) (fun _ h₇ => agrees h₇.1)
        fun _ h₇ => agrees h₇
    · exact agrees ⟨h₄.http, h₄.https, Or.inl h₄.server⟩
  · exact setPorts_rests (agrees h₃).server fun s₄ h₄ => agrees h₄

end Rules

end Webengine.Control.Agreement
