/- source: backend/src/NginxController.cpp (set_listen_port), backend/src/WebEngine.cpp (run),
   backend/example/main.cpp
   digest: Port changes requested by several workers at once have the outcome of some order of
   them, if no two of them overlap. -/

import Webengine.Control.Simulation
import Webengine.Library.Exclusion
import Mathlib.Tactic.IntervalCases

set_option autoImplicit false
set_option relaxedAutoImplicit false

namespace Webengine.Results.PortRequests

open Webengine.Control
open Webengine.Control.Host
open Webengine.Control.Behaviour
open Webengine.Control.Deployment
open Webengine.Control.ListenFiles
open Webengine.Engine.Roles (Str)
open Webengine.Library.Calls
open Webengine.Library.Exclusion
open Webengine.Library.Files (oneFile read_oneFile)
open Webengine.Library.Interleavings
open Webengine.Library.Machines
open Webengine.Library.Programs (Prog)

variable (opts : Nginx.Options)

/-- The calls of the `n` requests, each on a thread of its own. -/
def requests (n : Nat) (ports : Nat → Port) (t : Nat) : Code Bool :=
  if t < n then Nginx.setListenPort opts (ports t) else pure true

/-- The listen file the server runs on, or takes up when its reload is done. -/
def servedText (s : State) : Option Str :=
  match s.server with
  | .starting _ text => some text
  | .running _ text pending => some (if pending then s.listenText (Nginx.daemon opts) else text)
  | _ => none

def filePorts (s : State) : Option Ports := (s.fs.read opts.listenFile).bind nginxPorts

def serverPorts (s : State) : Option Ports := (servedText opts s).bind nginxPorts

/-- The server runs on the ports of the getters, and the listen file shows them. -/
def Deployed (http https : Port) (s : State) : Prop :=
  Model.Is (Nginx.daemon opts) False (Nginx.snippet opts)
    ⟨http, https, some (Nginx.snippet opts http https)⟩ s

/-- `http_port()`, the listen file and the running server agree, and with what the calls return
they are as if the calls had been made one after the other, in some order. -/
structure Serialized (V : Ports → Bool) (n : Nat) (ports : Nat → Port) (s : State)
    (c : Config (host (Nginx.daemon opts)) Empty Bool) : Prop where
  file : filePorts opts c.state =
    some (portsIf opts.httpsEnabled c.state.http c.state.https)
  server : serverPorts opts c.state = filePorts opts c.state
  serial : ∃ calls : List (Nat × (Nat → Env)), (calls.map Prod.fst).Perm (List.range n) ∧
    (∀ x ∈ made (host (Nginx.daemon opts)) (requests opts n ports) s calls,
      (∀ e ∈ x.outcome.log, Behaves (Nginx.daemon opts) (verdict V nginxPorts) False e) ∧
        ∃ r, x.outcome.result = .ok r ∧ c.pool x.call = .ret r) ∧
    c.state.http =
      (finish (host (Nginx.daemon opts)) (requests opts n ports) s calls).http ∧
    filePorts opts c.state =
      filePorts opts (finish (host (Nginx.daemon opts)) (requests opts n ports) s calls) ∧
    serverPorts opts c.state =
      serverPorts opts (finish (host (Nginx.daemon opts)) (requests opts n ports) s calls)

/-- Where a schedule of the steps of the requests leads. -/
abbrev played (n : Nat) (ports : Nat → Port) (s : State) (sched : List (Nat × Env)) :
    Config (host (Nginx.daemon opts)) Empty Bool :=
  (Config.start (requests opts n ports) s).play sched

/-- In every run that is as it may be, in which the outside world behaves, the outcome of
requests that have all returned is that of some order of them. -/
def RequestsSerialize
    (mayRun : Config (host (Nginx.daemon opts)) Empty Bool → List (Nat × Env) → Prop) : Prop :=
  ∀ (V : Ports → Bool) (n : Nat) (ports : Nat → Port) (http https : Port) (s : State)
    (sched : List (Nat × Env)), Deployed opts http https s →
    (∀ e ∈ (played opts n ports s sched).log,
      Behaves (Nginx.daemon opts) (verdict V nginxPorts) False e) →
    mayRun (Config.start (requests opts n ports) s) sched →
    (∀ t, t < n → ∃ r, (played opts n ports s sched).pool t = .ret r) →
    Serialized opts V n ports s (played opts n ports s sched)

section Outcome

variable {opts}

private theorem shown_ports {a : Model} {s : State}
    (running : a.served = some (a.text (Nginx.snippet opts)))
    (h : a.Is (Nginx.daemon opts) False (Nginx.snippet opts) s) :
    s.http = a.http ∧
      filePorts opts s = some (portsIf opts.httpsEnabled s.http s.https) ∧
      serverPorts opts s = filePorts opts s := by
  have text : nginxPorts (a.text (Nginx.snippet opts)) =
      some (portsIf opts.httpsEnabled s.http s.https) := by
    rw [h.http, h.https]
    exact nginxPorts_snippet opts a.http a.https
  have file : filePorts opts s = some (portsIf opts.httpsEnabled s.http s.https) :=
    (congrArg (Option.bind · nginxPorts) h.file).trans text
  have served : servedText opts s = some (a.text (Nginx.snippet opts)) := by
    have serves := h.serves
    rw [running] at serves
    unfold servedText
    rcases serves with ⟨pid, runs⟩ | ⟨pid, -, -, starting⟩ | ⟨pid, text, -, -, pending, adopts⟩
    · rw [runs.server]
      rfl
    · rw [starting]
    · rw [pending]
      exact congrArg some adopts
  refine ⟨h.http, file, ?_⟩
  rw [file, serverPorts, served]
  exact text

variable (V : Ports → Bool) (n : Nat) (ports : Nat → Port)

/-- What a request means for the deployment. -/
def meaning (opts : Nginx.Options) (t : Nat) (a : Model) : Bool × Model :=
  if t < n then
    a.setListenPorts (verdict V nginxPorts) (Nginx.snippet opts) (ports t) a.https
  else (true, a)

private theorem requests_meet (t : Nat) (a : Model) (s : State)
    (h : a.Is (Nginx.daemon opts) False (Nginx.snippet opts) s) :
    wpIf (host (Nginx.daemon opts)) (Behaves (Nginx.daemon opts) (verdict V nginxPorts) False)
      (requests opts n ports t) (fun r s' => r = (meaning V n ports opts t a).1 ∧
        (meaning V n ports opts t a).2.Is (Nginx.daemon opts) False (Nginx.snippet opts) s') s := by
  unfold requests meaning
  split
  · exact Simulation.nginx_meets opts (verdict V nginxPorts) (.setListenPort (ports t)) a s h
  · exact ⟨rfl, h⟩

private theorem served_meaning {a : Model} (running : a.served = some (a.text (Nginx.snippet opts)))
    (t : Nat) : (meaning V n ports opts t a).2.served =
      some ((meaning V n ports opts t a).2.text (Nginx.snippet opts)) := by
  unfold meaning Model.setListenPorts
  rw [running]
  simp only [Option.isNone_some, Bool.false_eq_true, if_false]
  split
  · split
    · rfl
    · exact running
  · exact running

private theorem served_after {a : Model} (running : a.served = some (a.text (Nginx.snippet opts)))
    (order : List Nat) : (after (meaning V n ports opts) a order).served =
      some ((after (meaning V n ports opts) a order).text (Nginx.snippet opts)) := by
  induction order generalizing a with
  | nil => exact running
  | cons t order ih => exact ih (served_meaning V n ports running t)

end Outcome

/-- Requests no two of which overlap have the outcome of the order in which they began. -/
theorem requests_serialize_apart : RequestsSerialize opts Exclusive := by
  intro V n ports http https s sched deployed behaves exclusive returned
  -- a thread that has begun is a request, and the other way round
  have began : ∀ t, (played opts n ports s sched).own t ≠ [] ↔ t < n := by
    intro t
    have own := Config.play_follows (m := host (Nginx.daemon opts)) (requests opts n ports) s
      sched t
    constructor
    · intro begun
      by_contra other
      rw [requests, if_neg other] at own
      exact begun own.of_ret.1
    · intro ht none
      obtain ⟨r, ret⟩ := returned t ht
      rw [none, ret, requests, if_pos ht] at own
      obtain ⟨_, _, _, _, taken, -⟩ := Follows.op_ret own
      cases taken
  obtain ⟨order, serial⟩ := serial_of_exclusive (requests_meet V n ports) deployed exclusive
    (fun e he => (behaves e he).congr) fun t begun => returned t ((began t).mp begun)
  obtain ⟨calls, sameOrder, each, last⟩ := exists_serial (m := host (Nginx.daemon opts))
    (requests_meet V n ports) (exists_behaves (Nginx.daemon opts) (verdict V nginxPorts)) deployed
    order
  have running : (after (meaning V n ports opts)
      ⟨http, https, some (Nginx.snippet opts http https)⟩ order).served = _ :=
    served_after V n ports rfl order
  obtain ⟨shown, file, server⟩ := shown_ports running serial.state
  obtain ⟨shown', file', server'⟩ := shown_ports running last
  have sameFile : filePorts opts (played opts n ports s sched).state =
      filePorts opts (finish (host (Nginx.daemon opts)) (requests opts n ports) s calls) := by
    rw [file, file', shown, shown', serial.state.https, last.https]
  refine ⟨file, server, calls, ?_, fun x hx => ?_, ?_, sameFile, ?_⟩
  · rw [sameOrder, List.perm_ext_iff_of_nodup serial.nodup List.nodup_range]
    exact fun t => (serial.began t).trans ((began t).trans List.mem_range.symm)
  · obtain ⟨allowed, before, rest, split, result⟩ := each x hx
    exact ⟨allowed, _, result, serial.result before x.call rest split⟩
  · rw [shown, shown']
  · rw [server, server', sameFile]

section Instance

/-- nginx runs on 8080 and 8443. -/
def serving : State where
  http := 8080
  https := 8443
  lastError := []
  fs := oneFile (Nginx.daemon {}).listenFile (Nginx.snippet {} 8080 8443)
  pidfile := some "5\n".toList
  server := .running 5 (Nginx.snippet {} 8080 8443) false
  others _ := none

private theorem deployed_serving : Deployed {} 8080 8443 serving :=
  ⟨rfl, rfl, read_oneFile _ _, Or.inl ⟨5, ⟨by decide, by decide⟩, by decide, rfl⟩⟩

/-- A child that exited says whether the configuration is accepted, or that its command was
done. -/
def answered (d : Daemon) (accepts : Str → Bool) (code : UInt8) (e : Event (host d)) : Bool :=
  match e.op with
  | .spawn argv _ => match d.command argv with
    | some .test => (code = 0 : Bool) = accepts (e.pre.listenText d)
    | _ => code = 0
  | _ => true

private theorem behaves_answered {d : Daemon} {accepts : Str → Bool} {code : UInt8}
    {e : Event (host d)}
    (he : e.env = obliging (.exited code [])) (right : answered d accepts code e = true) :
    Behaves d accepts False e := by
  refine behaves_obliging he (fun no => no.elim) fun argv capture command op told => ?_
  refine ⟨code, [], rfl, ?_⟩
  unfold answered at right
  rw [op] at right
  simp only [told] at right
  cases command with
  | test =>
    have verdict : decide (code = 0) = accepts (e.pre.listenText d) := by simpa using right
    rw [← verdict]
    simp
  | _ => simpa using right

/-- No port is refused but 80. -/
def refuses80 (p : Ports) : Bool := p.1 ≠ 80

/-- A request for port 80 and one for 9090. -/
def both (t : Nat) : Port := if t = 0 then 80 else 9090

/-- The commands of the first request fail, which gets no further than its test. -/
def turn (t : Nat) : Nat × Env := (t, obliging (.exited (if t = 0 then 1 else 0) []))

private theorem behaves_turns {sched : List (Nat × Env)} (turns : ∀ x ∈ sched, x = turn x.1)
    (right : (played {} 2 both serving sched).log.all fun e =>
      answered (Nginx.daemon {}) (verdict refuses80 nginxPorts) (if e.tid = 0 then 1 else 0) e) :
    ∀ e ∈ (played {} 2 both serving sched).log,
      Behaves (Nginx.daemon {}) (verdict refuses80 nginxPorts) False e := by
  intro e he
  refine behaves_answered ?_ (List.all_eq_true.mp right e he)
  rcases mem_of_mem_log e he with none | taken
  · cases none
  · exact congrArg Prod.snd (turns _ taken)

/-- One after the other. -/
def inTurn : List (Nat × Env) := List.replicate 30 (turn 1) ++ List.replicate 30 (turn 0)

/-- The first request reads the ports to come back to; the second is served whole; then the
first goes on. -/
def overlapping : List (Nat × Env) := List.replicate 3 (turn 0) ++ inTurn

private theorem returned_both {sched : List (Nat × Env)}
    (first : ((played {} 2 both serving sched).pool 0).returned = some false)
    (second : ((played {} 2 both serving sched).pool 1).returned = some true) :
    ∀ t, t < 2 → ∃ r, (played {} 2 both serving sched).pool t = .ret r := by
  intro t ht
  interval_cases t
  · exact ⟨false, Prog.eq_ret_of_returned first⟩
  · exact ⟨true, Prog.eq_ret_of_returned second⟩

private theorem turns_replicate {k t : Nat} : ∀ x ∈ List.replicate k (turn t), x = turn x.1 := by
  intro x hx
  rw [List.eq_of_mem_replicate hx]
  rfl

private theorem turns_inTurn : ∀ x ∈ inTurn, x = turn x.1 := by
  intro x hx
  rcases List.mem_append.mp hx with hx | hx
  · exact turns_replicate x hx
  · exact turns_replicate x hx

private theorem exclusive_inTurn :
    Exclusive (m := host (Nginx.daemon {})) (Config.start (requests {} 2 both) serving) inTurn := by
  refine exclusive_append.mpr ⟨exclusive_alone (u := 1) ?_ fun _ _ => Or.inl rfl,
    exclusive_alone (u := 0) ?_ fun t ne => ?_⟩
  · exact fun x hx => congrArg Prod.fst (List.eq_of_mem_replicate hx)
  · exact fun x hx => congrArg Prod.fst (List.eq_of_mem_replicate hx)
  · by_cases second : t = 1
    · rw [second]
      exact Or.inr ⟨true, Prog.eq_ret_of_returned (by decide +kernel)⟩
    · refine Or.inl (List.filter_eq_nil_iff.mpr fun e he => ?_)
      rcases mem_of_mem_log e he with none | taken
      · cases none
      · have tid : e.tid = 1 := congrArg Prod.fst (List.eq_of_mem_replicate taken)
        rw [tid]
        simpa using Ne.symm second

/-- The theorem at a run of two requests. -/
theorem requests_serialize_apart_inTurn :
    Serialized {} refuses80 2 both serving (played {} 2 both serving inTurn) :=
  requests_serialize_apart {} refuses80 2 both 8080 8443 serving inTurn deployed_serving
    (behaves_turns turns_inTurn (by decide +kernel)) exclusive_inTurn
    (returned_both (by decide +kernel) (by decide +kernel))

/-- The port that was refused is taken back over the one that was accepted. -/
theorem not_requestsSerialize_overlapping : ¬ RequestsSerialize {} (fun _ _ => True) := by
  intro serialize
  have outcome := serialize refuses80 2 both 8080 8443 serving overlapping deployed_serving
    (behaves_turns (fun x hx => (List.mem_append.mp hx).elim (turns_replicate x) (turns_inTurn x))
      (by decide +kernel)) trivial
    (returned_both (by decide +kernel) (by decide +kernel))
  have file : filePorts {} (played {} 2 both serving overlapping).state =
      some (8080, some 8443) := by decide +kernel
  have server : serverPorts {} (played {} 2 both serving overlapping).state =
      some (9090, some 8443) := by decide +kernel
  rw [outcome.server, file] at server
  exact absurd server (by decide)

end Instance

end Webengine.Results.PortRequests
