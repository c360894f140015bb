/- source: backend/src/NginxController.cpp, backend/src/LighttpdController.cpp
   digest: An outside world that behaves, and what the steps of the controllers do in it. -/

import Webengine.Control.Lifecycle
import Webengine.Control.ListenFiles

set_option autoImplicit false
set_option relaxedAutoImplicit false

namespace Webengine.Control.Behaviour

open Webengine.Engine.Roles (Str)
open Webengine.Control.Host
open Webengine.Control.ProcessUtil
open Webengine.Control.Controllers
open Webengine.Control.Lifecycle
open Webengine.Library.Calls
open Webengine.Library.Machines
open Webengine.Library.Programs (Prog)

/-- The server has been started and has not been told to stop. -/
def Server.isUp : Server → Prop
  | .starting _ _ => True
  | .running _ _ _ => True
  | _ => False

/-- The error of a start that no probe has seen to come up. -/
def neverUp : Str := "lighttpd did not come up (port in use? see stderr)".toList

/-- The outside world behaves. Nothing fails, a configuration test passes for the listen files
`accepts` says; what the server was told it has done before the next step, except that a start
which `waits` for it may have to wait, and sees it come up in time. -/
structure Behaves (d : Daemon) (accepts : Str → Bool) (waits : Prop) (e : Event (host d)) :
    Prop where
  moves : ∀ move ∈ e.env.moves, move ≠ .crash ∧ move ≠ .fail ∧ move ≠ .keep
  exits : .exit ∈ e.env.moves
  adopts : .adopt ∈ e.env.moves
  comesUp : waits ∨ .comeUp ∈ e.env.moves
  seen : waits → e.op = .setLastError neverUp → ¬ Server.isUp (arrive d e.env e.pre).server
  failure : e.env.failure = none
  pid : ValidPid e.env.pid
  child : ∀ argv capture command, e.op = .spawn argv capture → d.command argv = some command →
    ∃ code output, e.env.child = .exited code output ∧
      (code = 0 ↔ (command = .test → accepts ((arrive d e.env e.pre).listenText d) = true))

variable {d : Daemon} {accepts : Str → Bool} {waits : Prop}

/-- The server runs as the process, on the listen file given. -/
structure RunsAs (want : Str) (pid : Int) (s : State) : Prop where
  valid : ValidPid pid
  pidfile : s.pidfile = some (pidText pid)
  server : s.server = .running pid want false

/-- The server has done what it was told: it runs on the listen file given, or is stopped. -/
def Settled : Option Str → State → Prop
  | none, s => s.server = .stopped ∧ s.pidfile = none
  | some want, s => ∃ pid, RunsAs want pid s

/-- It will have, before the next step. -/
def Serves (d : Daemon) (waits : Prop) : Option Str → State → Prop
  | none, s => Settled none s ∨ ∃ pid text, s.server = .draining pid text
  | some want, s => Settled (some want) s ∨
      (∃ pid, ValidPid pid ∧ ¬ waits ∧ s.server = .starting pid want) ∨
      ∃ pid text, ValidPid pid ∧ s.pidfile = some (pidText pid) ∧
        s.server = .running pid text true ∧ s.listenText d = want

theorem Behaves.congr {e : Event (host d)} (h : Behaves d accepts waits e) :
    Behaves d accepts waits ⟨0, e.pre, e.env, e.op⟩ :=
  ⟨h.moves, h.exits, h.adopts, h.comesUp, h.seen, h.failure, h.pid, h.child⟩

instance : Nonempty Env := ⟨⟨[], none, [], 0, .killed [], 0⟩⟩

/-- Nothing fails, and the server does at once what it was told. -/
def obliging (child : Child) : Env where
  moves := [.exit, .comeUp, .adopt]
  failure := none
  cuts := []
  written := 0
  child := child
  pid := 7

theorem behaves_obliging {e : Event (host d)} {child : Child} (he : e.env = obliging child)
    (seen : waits → e.op ≠ .setLastError neverUp)
    (answers : ∀ argv capture command, e.op = .spawn argv capture →
      d.command argv = some command → ∃ code output, child = .exited code output ∧
        (code = 0 ↔ (command = .test → accepts (e.pre.listenText d) = true))) :
    Behaves d accepts waits e where
  moves := by rw [he]; simp [obliging]
  exits := by rw [he]; simp [obliging]
  adopts := by rw [he]; simp [obliging]
  comesUp := by rw [he]; simp [obliging]
  seen awaits op := absurd op (seen awaits)
  failure := by rw [he]; rfl
  pid := by rw [he]; exact validPid_seven
  child argv capture command op told := by
    simp only [State.listenText, arrive_fs]
    rw [he]
    exact answers argv capture command op told

/-- At every step the outside world can behave. -/
theorem exists_behaves (d : Daemon) (accepts : Str → Bool) (s : State) (o : Op) :
    ∃ env, Behaves d accepts False ⟨0, s, env, o⟩ := by
  by_cases rejected : ∃ argv capture, o = .spawn argv capture ∧ d.command argv = some .test ∧
      ¬ accepts (s.listenText d) = true
  · obtain ⟨argv, capture, rfl, test, no⟩ := rejected
    refine ⟨obliging (.exited 1 []), behaves_obliging rfl (fun no => no.elim) ?_⟩
    intro _ _ command same told
    obtain ⟨rfl, rfl⟩ := same
    obtain rfl : command = .test := Option.some.inj (told.symm.trans test)
    exact ⟨1, [], rfl, fun zero => absurd zero (by decide), fun yes => absurd (yes rfl) no⟩
  · refine ⟨obliging (.exited 0 []), behaves_obliging rfl (fun no => no.elim) ?_⟩
    intro argv capture command same told
    obtain rfl := same
    refine ⟨0, [], rfl, fun _ test => ?_, fun _ => rfl⟩
    by_contra no
    exact rejected ⟨argv, capture, rfl, test ▸ told, no⟩

section Arrival

variable {s : State} {env : Env} {o : Op} {served : Option Str}

private theorem foldl_turns {J K : State → Prop} {moves : List Move} {move : Move}
    (hm : move ∈ moves)
    (turns : ∀ s, J s → K (move.apply d s))
    (stays : ∀ move ∈ moves, ∀ s, J s → J (move.apply d s) ∨ K (move.apply d s))
    (keeps : ∀ move ∈ moves, ∀ s, K s → K (move.apply d s)) (h : J s) :
    K (moves.foldl (Move.apply d) s) := by
  induction moves generalizing s with
  | nil => cases hm
  | cons first moves ih =>
    have rest : ∀ s, K s → K (moves.foldl (Move.apply d) s) := by
      intro s hs
      have arrived : K (arrive d ⟨moves, none, [], 0, .killed [], 0⟩ s) :=
        arrive_keeps (fun move hm => keeps move (List.mem_cons_of_mem _ hm)) hs
      exact arrived
    rw [List.foldl_cons]
    rcases List.mem_cons.mp hm with rfl | hm
    · exact rest _ (turns s h)
    · rcases stays first List.mem_cons_self s h with h' | h'
      · exact ih hm (fun move hm => stays move (List.mem_cons_of_mem _ hm))
          (fun move hm => keeps move (List.mem_cons_of_mem _ hm)) h'
      · exact rest _ h'

theorem runsAs_apply {want : Str} {pid : Int} {move : Move} (crash : move ≠ .crash)
    (h : RunsAs want pid s) : RunsAs want pid (move.apply d s) := by
  obtain ⟨valid, pidfile, server⟩ := h
  cases move with
  | crash => exact absurd rfl crash
  | _ =>
    simp only [Move.apply, server]
    exact ⟨valid, pidfile, server⟩

private theorem settled_apply {move : Move} (crash : move ≠ .crash) (h : Settled served s) :
    Settled served (move.apply d s) := by
  cases served with
  | none =>
    obtain ⟨server, pidfile⟩ := h
    cases move with
    | crash => exact absurd rfl crash
    | _ =>
      simp only [Move.apply, server]
      exact ⟨server, pidfile⟩
  | some want =>
    obtain ⟨pid, runs⟩ := h
    exact ⟨pid, runsAs_apply crash runs⟩

variable (behaves : Behaves d accepts waits ⟨0, s, env, o⟩)

include behaves

private theorem settled_arrive (h : Settled served s) : Settled served (arrive d env s) :=
  arrive_keeps (fun move hm _ h => settled_apply (behaves.moves move hm).1 h) h

private theorem serves_arrive (h : Serves d waits served s) : Settled served (arrive d env s) := by
  have keeps : ∀ move ∈ env.moves, ∀ s, Settled served s → Settled served (move.apply d s) :=
    fun move hm s h => settled_apply (behaves.moves move hm).1 h
  cases served with
  | none =>
    rcases h with settled | draining
    · exact settled_arrive behaves settled
    · refine foldl_turns (J := fun s => ∃ pid text, s.server = .draining pid text)
        behaves.exits ?_ ?_ keeps draining
      · intro s draining
        obtain ⟨pid, text, hs⟩ := draining
        simp only [Move.apply, hs]
        exact ⟨rfl, rfl⟩
      · intro move hm s draining
        obtain ⟨pid, text, hs⟩ := draining
        obtain ⟨crash, -, -⟩ := behaves.moves move hm
        cases move with
        | crash => exact absurd rfl crash
        | exit =>
          simp only [Move.apply, hs]
          exact Or.inr ⟨rfl, rfl⟩
        | _ =>
          simp only [Move.apply, hs]
          exact Or.inl ⟨pid, text, rfl⟩
  | some want =>
    rcases h with settled | ⟨pid, valid, prompt, hs⟩ | ⟨pid, text, valid, pidfile, hs, adopts⟩
    · exact settled_arrive behaves settled
    · have comesUp : .comeUp ∈ env.moves := behaves.comesUp.resolve_left prompt
      refine foldl_turns (J := fun s => s.server = .starting pid want) comesUp ?_ ?_ keeps hs
      · intro s hs
        simp only [Move.apply, hs]
        exact ⟨pid, valid, rfl, rfl⟩
      · intro move hm s hs
        obtain ⟨crash, fail, -⟩ := behaves.moves move hm
        cases move with
        | crash => exact absurd rfl crash
        | fail => exact absurd rfl fail
        | comeUp =>
          simp only [Move.apply, hs]
          exact Or.inr ⟨pid, valid, rfl, rfl⟩
        | _ =>
          simp only [Move.apply, hs]
          exact Or.inl trivial
    · refine foldl_turns (J := fun s => s.pidfile = some (pidText pid) ∧
        s.server = .running pid text true ∧ s.listenText d = want) behaves.adopts ?_ ?_ keeps
        ⟨pidfile, hs, adopts⟩
      · intro s reloads
        obtain ⟨pidfile, hs, rfl⟩ := reloads
        simp only [Move.apply, hs]
        exact ⟨pid, valid, pidfile, rfl⟩
      · intro move hm s reloads
        obtain ⟨pidfile, hs, rfl⟩ := reloads
        obtain ⟨crash, -, keep⟩ := behaves.moves move hm
        cases move with
        | crash => exact absurd rfl crash
        | keep => exact absurd rfl keep
        | adopt =>
          simp only [Move.apply, hs]
          exact Or.inr ⟨pid, valid, pidfile, rfl⟩
        | _ =>
          simp only [Move.apply, hs]
          exact Or.inl ⟨pidfile, trivial, trivial⟩

end Arrival

/-- The steps that tell the server nothing. -/
def still (d : Daemon) : Op → Prop
  | .kill _ sig => sig ≠ sigint
  | .spawn argv _ => d.command argv = some .test
  | _ => True

/-- The steps that change nothing but `last_error_`. -/
def steady (d : Daemon) : Op → Prop
  | .httpPort => True
  | .httpsPort => True
  | .setLastError _ => True
  | .mkdir _ => True
  | .readPidfile _ => True
  | .readComm _ => True
  | .kill _ sig => sig ≠ sigint
  | .spawn argv _ => d.command argv = some .test
  | .usleep _ => True
  | _ => False

/-- The getters, the listen file and the server. -/
structure Shows (d : Daemon) (waits : Prop) (http https : Port) (text : Str)
    (served : Option Str) (s : State) : Prop where
  http : s.http = http
  https : s.https = https
  file : s.fs.read d.listenFile = some text
  serves : Serves d waits served s

section Steps

variable {s : State} {env : Env} {o : Op} {http https : Port} {text : Str} {served : Option Str}

private theorem still_of_steady (h : steady d o) : still d o := by
  cases o <;> first | exact h | trivial

theorem steady_of_observes (h : observes o) : steady d o := by
  cases o with
  | kill pid sig =>
    obtain rfl : sig = 0 := h
    exact (by decide : (0 : Int) ≠ sigint)
  | readPidfile path => trivial
  | readComm pid => trivial
  | _ => exact h.elim

theorem serves_of_settled (h : Settled served s) : Serves d waits served s := by
  cases served with
  | none => exact Or.inl h
  | some want => exact Or.inl h

private theorem settled_congr {s' : State} (server : s'.server = s.server)
    (pidfile : s'.pidfile = s.pidfile) (h : Settled served s) : Settled served s' := by
  cases served with
  | none => exact ⟨server.trans h.1, pidfile.trans h.2⟩
  | some want =>
    obtain ⟨pid, valid, file, running⟩ := h
    exact ⟨pid, valid, pidfile.trans file, server.trans running⟩

/-- A step that tells the server nothing finds it settled and leaves it so. -/
theorem settled_step (behaves : Behaves d accepts waits ⟨0, s, env, o⟩) (ho : still d o)
    (h : Serves d waits served s) : Settled served (hostStep d env s o).2 := by
  have arrived : Settled served (arrive d env s) := serves_arrive behaves h
  rcases step_cases (d := d) env s o with ⟨server, pidfile⟩ | ⟨pid, rfl, -⟩ |
    ⟨argv, capture, command, output, rfl, told, -, same⟩
  · exact settled_congr server pidfile arrived
  · exact absurd rfl ho
  · have test : command = .test := Option.some.inj (told.symm.trans ho)
    rw [same, test]
    exact arrived

private theorem steady_frame (ho : steady d o) :
    (hostStep d env s o).2.http = s.http ∧ (hostStep d env s o).2.https = s.https ∧
      (hostStep d env s o).2.fs = s.fs := by
  have frame := foldl_apply_frame (d := d) (s := s) env.moves
  cases o with
  | spawn argv capture =>
    have test : d.command argv = some .test := ho
    cases hc : env.child with
    | exited code output =>
      simp only [hostStep, hc, Child.effect, test]
      split <;> exact frame
    | _ =>
      simp only [hostStep, hc, Child.effect]
      exact frame
  | kill pid sig =>
    have unsent : (arrive d env s).signalled pid sig = arrive d env s :=
      if_neg fun hit => ho hit.1
    simp only [hostStep]
    split
    · exact frame
    · exact frame
    · rw [unsent]
      exact frame
  | openTrunc path => exact ho.elim
  | buffer content => exact ho.elim
  | write file offset piece => exact ho.elim
  | rename a b => exact ho.elim
  | remove path => exact ho.elim
  | setHttpPort port => exact ho.elim
  | setHttpsPort port => exact ho.elim
  | _ => exact frame

theorem Shows.step (behaves : Behaves d accepts waits ⟨0, s, env, o⟩) (ho : steady d o)
    (h : Shows d waits http https text served s) :
    Shows d waits http https text served (hostStep d env s o).2 := by
  obtain ⟨sameHttp, sameHttps, sameFs⟩ := @steady_frame d s env o ho
  exact ⟨sameHttp.trans h.http, sameHttps.trans h.https, by rw [sameFs]; exact h.file,
    serves_of_settled (settled_step behaves (still_of_steady ho) h.serves)⟩

theorem keeps_shows {α : Type} {p : Code α} (only : p.Only (steady d)) :
    Keeps (host d) (Behaves d accepts waits) (Shows d waits http https text served) p :=
  .of_only (fun _ _ _ behaves ho h => h.step behaves ho) only

end Steps

section Specs

variable {s : State} {http https : Port} {text : Str} {served : Option Str}

theorem RunsAs.shown {want : Str} {pid : Int} (h : RunsAs want pid s) : Shown pid s :=
  ⟨by rw [h.server]; rfl, h.pidfile, h.valid⟩

private theorem observes_shows {nameSubstr : Str} :
    Keeps (host d) (Behaves d accepts waits) (Shows d waits http https text served)
      (ProcessUtil.isRunning d.pidfile nameSubstr) :=
  keeps_shows ((isRunning_only _ _).mono fun _ => steady_of_observes)

theorem isRunning_shows {nameSubstr : Str}
    (isNamed : named nameSubstr (some (d.comm ++ ['\n'])) = true)
    (h : Shows d waits http https text served s) :
    wpIf (host d) (Behaves d accepts waits) (ProcessUtil.isRunning d.pidfile nameSubstr)
      (fun up s' => up = served.isSome ∧ Shows d waits http https text served s') s := by
  refine wpIf_and ?_ (observes_shows s h)
  cases served with
  | none =>
    rw [isRunning_eq]
    intro env behaves
    obtain ⟨-, pidfile⟩ : Settled none (arrive d env s) := serves_arrive behaves h.serves
    have read : (hostStep d env s (.readPidfile d.pidfile)).1 = none := by
      simp only [hostStep, if_true]
      exact pidfile
    change wpIf (host d) _ (probe nameSubstr (pidOf
      (hostStep d env s (.readPidfile d.pidfile)).1)) _ (arrive d env s)
    rw [read]
    rfl
  | some want =>
    have answer := isRunning_no_of_arrived (M := Behaves d accepts waits)
      (J := RunsAs want) (K := fun _ => False) (s := s) isNamed
      (fun e behaves _ _ _ => behaves.failure) (fun _ _ runs => runs.shown)
      (fun _ _ _ _ _ no => no) ?_ ?_
    · refine wpIf_mono answer fun up s' no => ?_
      cases up with
      | true => rfl
      | false => exact (no rfl).elim
    · intro pid s env o behaves _ runs
      exact Or.inl (arrive_keeps (fun move hm _ h =>
        runsAs_apply (behaves.moves move hm).1 h) runs)
    · exact fun env behaves => Or.inr (serves_arrive behaves h.serves)

theorem testConfig_shows {name : Str} {argv : List Str} {capture : Bool}
    (told : d.command argv = some .test) (h : Shows d waits http https text served s) :
    wpIf (host d) (Behaves d accepts waits) (exitsZero (runCommand name argv capture))
      (fun passed s' => passed = accepts text ∧ Shows d waits http https text served s') s := by
  have only : (exitsZero (runCommand name argv capture)).Only (steady d) :=
    Prog.only_bind (runCommand_only told (fun _ => trivial) name) fun _ => trivial
  refine wpIf_and ?_ (keeps_shows only s h)
  have listens : ∀ env, (arrive d env s).listenText d = text := by
    intro env
    simp only [State.listenText, arrive_fs, h.file, Option.getD_some]
  unfold exitsZero
  rw [wpIf_bind]
  refine wpIf_runCommand told ?_ ?_
  · intro env output behaves exited
    obtain ⟨code, output', same, iff⟩ := behaves.child argv capture .test rfl told
    rw [exited] at same
    cases same
    have passed := iff.mp rfl rfl
    rw [listens] at passed
    exact passed.symm
  · intro env env' text' code behaves failed _ nonzero
    obtain ⟨code', output, same, iff⟩ := behaves.child argv capture .test rfl told
    have rejected : accepts text = false := by
      rw [Bool.eq_false_iff]
      intro accepted
      have zero : code' = 0 := iff.mpr fun _ => by rw [listens]; exact accepted
      rw [zero] at same
      exact failed output same
    rw [rejected]
    exact decide_eq_false nonzero

private theorem runCommand_behaves {name : Str} {argv : List Str} {capture : Bool}
    {command : Command}
    (told : d.command argv = some command) (other : command ≠ .test) {Q : Int → State → Prop}
    (done : ∀ env, Behaves d accepts waits ⟨0, s, env, .spawn argv capture⟩ →
      Q 0 (command.effect d env.pid (arrive d env s))) :
    wpIf (host d) (Behaves d accepts waits) (runCommand name argv capture) Q s := by
  refine wpIf_runCommand told (fun env output behaves _ => done env behaves) ?_
  intro env env' text' code behaves failed _ _
  obtain ⟨code', output, same, iff⟩ := behaves.child argv capture command rfl told
  have zero : code' = 0 := iff.mpr fun test => absurd test other
  rw [zero] at same
  exact absurd same (failed output)

/-- A start that may still have to be waited for. -/
structure Coming (d : Daemon) (http https : Port) (text : Str) (s : State) : Prop where
  http : s.http = http
  https : s.https = https
  file : s.fs.read d.listenFile = some text
  server : (∃ pid, ValidPid pid ∧ s.pidfile = none ∧ s.server = .starting pid text) ∨
    Settled (some text) s

theorem start_coming {name : Str} {argv : List Str} {capture : Bool}
    (told : d.command argv = some .start) (h : Shows d waits http https text none s) :
    wpIf (host d) (Behaves d accepts waits) (runCommand name argv capture)
      (fun code s' => code = 0 ∧ Coming d http https text s') s := by
  refine runCommand_behaves told Command.noConfusion fun env behaves => ?_
  obtain ⟨stopped, pidfile⟩ : Settled none (arrive d env s) := serves_arrive behaves h.serves
  have listens : (arrive d env s).listenText d = text := by
    simp only [State.listenText, arrive_fs, h.file, Option.getD_some]
  simp only [Command.effect, stopped]
  refine ⟨trivial, ?_, ?_, ?_, Or.inl ⟨env.pid, behaves.pid, pidfile, by rw [listens]⟩⟩
  · exact (arrive_http env).trans h.http
  · exact (arrive_https env).trans h.https
  · rw [arrive_fs]
    exact h.file

theorem Coming.shows (prompt : ¬ waits) (h : Coming d http https text s) :
    Shows d waits http https text (some text) s := by
  refine ⟨h.http, h.https, h.file, ?_⟩
  rcases h.server with ⟨pid, valid, -, starting⟩ | settled
  · exact Or.inr (Or.inl ⟨pid, valid, prompt, starting⟩)
  · exact Or.inl settled

theorem Coming.arrive {env : Env} {o : Op} (behaves : Behaves d accepts waits ⟨0, s, env, o⟩)
    (h : Coming d http https text s) : Coming d http https text (arrive d env s) := by
  refine ⟨(arrive_http env).trans h.http, (arrive_https env).trans h.https, ?_, ?_⟩
  · rw [arrive_fs]
    exact h.file
  · refine arrive_keeps (J := fun s => (∃ pid, ValidPid pid ∧ s.pidfile = none ∧
      s.server = .starting pid text) ∨ Settled (some text) s) (fun move hm s hs => ?_) h.server
    obtain ⟨crash, fail, -⟩ := behaves.moves move hm
    rcases hs with ⟨pid, valid, pidfile, starting⟩ | settled
    · cases move with
      | crash => exact absurd rfl crash
      | fail => exact absurd rfl fail
      | comeUp =>
        simp only [Move.apply, starting]
        exact Or.inr ⟨pid, valid, rfl, rfl⟩
      | _ =>
        simp only [Move.apply, starting]
        exact Or.inl ⟨pid, valid, pidfile, rfl⟩
    · exact Or.inr (settled_apply crash settled)

theorem Coming.step {env : Env} {o : Op} (behaves : Behaves d accepts waits ⟨0, s, env, o⟩)
    (ho : steady d o) (h : Coming d http https text s) :
    Coming d http https text (hostStep d env s o).2 := by
  obtain ⟨sameHttp, sameHttps, sameFs⟩ := @steady_frame d s env o ho
  have same : (hostStep d env s o).2.server = (Host.arrive d env s).server ∧
      (hostStep d env s o).2.pidfile = (Host.arrive d env s).pidfile := by
    rcases step_cases (d := d) env s o with same | ⟨pid, rfl, -⟩ |
      ⟨argv, capture, command, output, rfl, told, -, same⟩
    · exact same
    · exact absurd rfl ho
    · have test : command = .test := Option.some.inj (told.symm.trans ho)
      rw [same, test]
      exact ⟨rfl, rfl⟩
  refine ⟨sameHttp.trans h.http, sameHttps.trans h.https, by rw [sameFs]; exact h.file, ?_⟩
  rcases (h.arrive behaves).server with ⟨pid, valid, pidfile, starting⟩ | settled
  · exact Or.inl ⟨pid, valid, same.2.trans pidfile, same.1.trans starting⟩
  · exact Or.inr (settled_congr same.1 same.2 settled)

private theorem keeps_coming {α : Type} {p : Code α} (only : p.Only (steady d)) :
    Keeps (host d) (Behaves d accepts waits) (Coming d http https text) p :=
  .of_only (fun _ _ _ behaves ho h => h.step behaves ho) only

private theorem isRunning_coming {nameSubstr : Str} (h : Coming d http https text s) :
    wpIf (host d) (Behaves d accepts waits) (ProcessUtil.isRunning d.pidfile nameSubstr)
      (fun up s' => up = true → Settled (some text) s') s := by
  rw [isRunning_eq]
  intro env behaves
  have read : (hostStep d env s (.readPidfile d.pidfile)).1 = (arrive d env s).pidfile := by
    simp only [hostStep, if_true]
  change wpIf (host d) _ (probe nameSubstr (pidOf
    (hostStep d env s (.readPidfile d.pidfile)).1)) _ (arrive d env s)
  rw [read]
  rcases (h.arrive behaves).server with ⟨pid, -, pidfile, -⟩ | settled
  · rw [pidfile]
    intro yes
    cases yes
  · refine wpIf_mono (wpIf_keeps (J := Settled (some text)) ?_ (probe_only nameSubstr _) settled)
      fun _ _ h' _ => h'
    exact fun env s o behaves ho h => settled_step behaves
      (still_of_steady (steady_of_observes ho)) (serves_of_settled h)

theorem awaited_shows {nameSubstr : Str} (awaits : waits) (h : Coming d http https text s) :
    wpIf (host d) (Behaves d accepts waits) (do
        pollRunning (ProcessUtil.isRunning d.pidfile nameSubstr) true 30
        if !(← ProcessUtil.isRunning d.pidfile nameSubstr) then
          sys (.setLastError neverUp)
          pure false
        else pure true)
      (fun r s' => r = true ∧ Shows d waits http https text (some text) s') s := by
  have probes : (ProcessUtil.isRunning d.pidfile nameSubstr).Only (steady d) :=
    (isRunning_only _ _).mono fun _ => steady_of_observes
  rw [wpIf_bind]
  refine wpIf_mono (keeps_coming (pollRunning_only probes (fun _ => trivial) true 30) s h) ?_
  intro _ s₁ coming
  rw [wpIf_bind]
  refine wpIf_mono (wpIf_and (isRunning_coming coming) (keeps_coming probes s₁ coming)) ?_
  intro up s₂ outcome
  obtain ⟨seen, coming⟩ := outcome
  cases up with
  | true => exact ⟨rfl, coming.http, coming.https, coming.file, serves_of_settled (seen rfl)⟩
  | false =>
    intro env behaves
    have gone := behaves.seen awaits rfl
    rcases (coming.arrive behaves).server with ⟨pid, -, -, starting⟩ | ⟨pid, runs⟩
    · exact absurd (by rw [starting]; trivial) gone
    · exact absurd (by rw [runs.server]; trivial) gone

theorem quit_shows {name : Str} {argv : List Str} {capture : Bool}
    (told : d.command argv = some .quit) (h : Shows d waits http https text served s) :
    wpIf (host d) (Behaves d accepts waits) (runCommand name argv capture)
      (fun code s' => code = 0 ∧ Shows d waits http https text none s') s := by
  refine runCommand_behaves told Command.noConfusion fun env behaves => ⟨rfl, ?_⟩
  have arrived := serves_arrive behaves h.serves
  have data : (arrive d env s).http = http ∧ (arrive d env s).https = https ∧
      (arrive d env s).fs.read d.listenFile = some text := by
    rw [arrive_http, arrive_https, arrive_fs]
    exact ⟨h.http, h.https, h.file⟩
  obtain ⟨sameHttp, sameHttps, file⟩ := data
  cases served with
  | none =>
    have stopped : (arrive d env s).server = .stopped := arrived.1
    simp only [Command.effect, stopped]
    exact ⟨sameHttp, sameHttps, file, Or.inl arrived⟩
  | some want =>
    obtain ⟨pid, runs⟩ := arrived
    simp only [Command.effect, runs.server]
    exact ⟨sameHttp, sameHttps, file, Or.inr ⟨pid, want, rfl⟩⟩

theorem reload_shows {name : Str} {argv : List Str} {capture : Bool} {want : Str}
    (told : d.command argv = some .reload)
    (h : Shows d waits http https text (some want) s) :
    wpIf (host d) (Behaves d accepts waits) (runCommand name argv capture)
      (fun code s' => code = 0 ∧ Shows d waits http https text (some text) s') s := by
  refine runCommand_behaves told Command.noConfusion fun env behaves => ⟨rfl, ?_⟩
  obtain ⟨pid, runs⟩ : Settled (some want) (arrive d env s) := serves_arrive behaves h.serves
  simp only [Command.effect, runs.server]
  refine ⟨?_, ?_, ?_, Or.inr (Or.inr ⟨pid, want, runs.valid, runs.pidfile, rfl, ?_⟩)⟩
  · exact (arrive_http env).trans h.http
  · exact (arrive_https env).trans h.https
  · rw [arrive_fs]
    exact h.file
  · simp only [State.listenText, arrive_fs, h.file, Option.getD_some]

theorem interrupt_shows {want : Str} (h : Shows d waits http https text (some want) s) :
    wpIf (host d) (Behaves d accepts waits) (do
        let pid ← readPid d.pidfile
        if pid ≤ 0 then pure true else signalPid pid sigint)
      (fun done s' => done = true ∧ Shows d waits http https text none s') s := by
  refine wpIf_interrupt fun env behaves => ?_
  obtain ⟨pid, runs⟩ : Settled (some want) (arrive d env s) := serves_arrive behaves h.serves
  rw [runs.pidfile, pidOf_pidText runs.valid, if_neg (Int.not_le.mpr runs.valid.1)]
  refine wpIf_signalPid
    (R := fun failed s' => failed = none ∧ Shows d waits http https text none s')
    (fun env' behaves' => ?_) (fun _ told => ⟨rfl, told.2⟩) fun e _ _ told => ?_
  · rw [toPidT_of_valid runs.valid]
    have runs' : RunsAs want pid (arrive d env' (arrive d env s)) :=
      arrive_keeps (fun move hm _ h => runsAs_apply (behaves'.moves move hm).1 h) runs
    have comm : (arrive d env' (arrive d env s)).comm d pid = some d.comm :=
      if_pos runs'.shown.pid_eq
    have unrefused : env'.failure = none := behaves'.failure
    have told : (arrive d env' (arrive d env s)).signalled pid sigint =
        { arrive d env' (arrive d env s) with server := .draining pid want } := by
      rw [State.signalled, if_pos ⟨rfl, runs'.shown.pid_eq⟩, runs'.server]
      rfl
    have sent : hostStep d env' (arrive d env s) (.kill pid sigint) =
        (none, { arrive d env' (arrive d env s) with server := .draining pid want }) := by
      simp only [hostStep, unrefused, comm, told]
    rw [sent]
    refine ⟨rfl, ?_, ?_, ?_, Or.inr ⟨pid, want, rfl⟩⟩
    · exact ((arrive_http env').trans (arrive_http env)).trans h.http
    · exact ((arrive_https env').trans (arrive_https env)).trans h.https
    · change (arrive d env' (arrive d env s)).fs.read d.listenFile = some text
      rw [arrive_fs, arrive_fs]
      exact h.file
  · cases told.1

private theorem still_of_replaces {o : Op} (h : replaces o) : still d o := by
  cases o <;> first | exact h.elim | trivial

theorem write_shows {httpsEnabled : Bool} {snippet : Port → Port → Str}
    (disabled : httpsEnabled = false → ∀ http https https',
      snippet http https = snippet http https')
    (sameHttp : s.http = http) (sameHttps : s.https = https) (h : Serves d waits served s) :
    wpIf (host d) (Behaves d accepts waits)
      (writeListenSnippetWith d.listenFile httpsEnabled snippet)
      (fun written s' => written = true ∧
        Shows d waits http https (snippet http https) served s') s := by
  have serves := wpIf_keeps (M := Behaves d accepts waits) (S := still d)
    (J := Serves d waits served)
    (fun env s o behaves ho h => serves_of_settled (settled_step behaves ho h))
    (writeListenSnippetWith_only (S := still d) ⟨trivial, trivial⟩ (fun _ => still_of_replaces)
      d.listenFile httpsEnabled snippet) h
  have written := wpIf_of_wp (M := Behaves d accepts waits) (E := fun env => env.failure = none)
    (Q := Replaced d.listenFile (snippet s.http s.https) s) (fun e behaves => behaves.failure)
    (writeListenSnippetWith_spec disabled s)
  refine wpIf_mono (wpIf_and written serves) ?_
  intro ok s' after
  obtain ⟨⟨l, ⟨keptHttp, keptHttps, outcome⟩, fine⟩, serves⟩ := after
  rcases outcome with ⟨done, file⟩ | ⟨-, -, e, he, failed, -⟩
  · cases done
    rw [sameHttp, sameHttps] at file
    exact ⟨rfl, keptHttp.trans sameHttp, keptHttps.trans sameHttps, file, serves⟩
  · exact absurd (fine e he) failed

theorem fails_shows (report : Str) (h : Shows d waits http https text served s) :
    wpIf (host d) (Behaves d accepts waits) (do sys (.setLastError report); pure false)
      (fun r s' => r = false ∧ Shows d waits http https text served s') s :=
  fun _ behaves => ⟨rfl, h.step behaves trivial⟩

theorem readPorts_shows {α : Type} {f : Port → Port → Code α} {Q : α → State → Prop}
    (h : Shows d waits http https text served s)
    (rest : ∀ s', Shows d waits http https text served s' →
      wpIf (host d) (Behaves d accepts waits) (f http https) Q s') :
    wpIf (host d) (Behaves d accepts waits) (do f (← sys .httpPort) (← sys .httpsPort)) Q s := by
  intro env behaves env' behaves'
  have first := h.step behaves trivial
  have both := rest _ (first.step behaves' trivial)
  have read : (hostStep d env s .httpPort).1 = http := (arrive_http env).trans h.http
  have read' : (hostStep d env' (hostStep d env s .httpPort).2 .httpsPort).1 = https :=
    (arrive_https env').trans ((arrive_https env).trans h.https)
  rw [← read, ← read'] at both
  exact both

theorem setPorts_serves {α : Type} {p : Code α} {Q : α → State → Prop} (h : Serves d waits served s)
    (rest : ∀ s', s'.http = http → s'.https = https → Serves d waits served s' →
      wpIf (host d) (Behaves d accepts waits) p Q s') :
    wpIf (host d) (Behaves d accepts waits) (do
      sys (.setHttpPort http)
      sys (.setHttpsPort https)
      p) Q s := by
  intro env behaves env' behaves'
  have first : Serves d waits served (hostStep d env s (.setHttpPort http)).2 :=
    serves_of_settled (settled_step behaves trivial h)
  refine rest _ ?_ rfl (serves_of_settled (settled_step behaves' trivial first))
  change (arrive d env' (hostStep d env s (.setHttpPort http)).2).http = http
  rw [arrive_http]
  rfl

end Specs

end Webengine.Control.Behaviour
