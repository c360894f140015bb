/- source: backend/example/main.cpp (server_result and the endpoints under /api/admin/server)
   digest: Requests to the server endpoints at the same time: each answer says whether its call
   succeeded, and a failure is answered with its call's own error if no other call fails
   meanwhile. -/

import Webengine.Control.Requests

set_option autoImplicit false
set_option relaxedAutoImplicit false

namespace Webengine.Results.ServerRequests

open Webengine.Control
open Webengine.Control.Application
open Webengine.Control.Controllers
open Webengine.Control.Host
open Webengine.Control.Lifecycle (Call)
open Webengine.Control.ProcessUtil (sys)
open Webengine.Control.Reports
open Webengine.Control.Requests
open Webengine.Engine.Messages
open Webengine.Engine.Payloads
open Webengine.Engine.Roles (Str)
open Webengine.Library.Interleavings
open Webengine.Library.Machines
open Webengine.Library.Programs (Prog)
open Webengine.Library.Traces

variable {glz : ServerGlaze} {vars : Variables} {d : Daemon} {c : WebServerController}

/-- The answer to a request whose call failed. -/
def commandFailed (glz : ServerGlaze) (detail : Str) : Response :=
  json .internalServerError (glz.writeObj
    [("error".toList, "web server command failed".toList), ("detail".toList, detail)])

/-- How a request has ended, by its own steps: it was refused without any, its call recorded no
error and it is answered 200, or its call recorded one, and it is answered with the last error. -/
inductive Ended (glz : ServerGlaze) :
    ServerRequest → List (Event (requested d)) → Response → Prop
  | refused {request : ServerRequest} {res : Response} :
      res.status = .conflict ∨ res.status = .badRequest → Ended glz request [] res
  | succeeded {request : ServerRequest} {l : List (Event (requested d))} {res : Response} :
      shows noted l = [] → res.status = .ok → Ended glz request l res
  | failed {request : ServerRequest} {l : List (Event (requested d))} {t : Nat} {s : State}
      {env : Env} : shows noted l ≠ [] →
      Ended glz request (l ++ [⟨t, s, env, .lastError⟩]) (commandFailed glz s.lastError)

/-- A request that may act: the stop is confirmed, the port in range. -/
def Permitted (glz : ServerGlaze) (vars : Variables) : ServerRequest → Prop
  | .off body => glz.readForceReq body = (false, ⟨some true⟩)
  | .port body => ∃ p, glz.readPortReq body = (false, ⟨some p⟩) ∧
      vars.portMin ≤ p ∧ p ≤ vars.portMax
  | _ => True

section Endings

private theorem ended_of_call {p : Code Bool} (truthful : Truthful p) {request : ServerRequest}
    {l : List (Event (requested d))} {res : Response}
    (followed : Follows (lift p >>= fun ok => (serverResult glz ok).interp (callCode c)) l
      (.ret res)) : Ended glz request l res := by
  obtain ⟨l₁, l₂, ok, rfl, called, answered⟩ := followed.of_bind_ret
  have reported := (ends_lift truthful.outcome).follows called
  cases ok with
  | true =>
    obtain ⟨rfl, same⟩ := answered.of_ret
    cases same
    rw [List.append_nil]
    exact .succeeded (reported.mp rfl) rfl
  | false =>
    obtain ⟨t, s, env, l', rfl, rest⟩ := answered.op_ret
    obtain ⟨rfl, same⟩ := rest.of_ret
    cases same
    have kept : (arrive d env s).lastError = s.lastError := arrive_lastError env
    have answer : commandFailed glz s.lastError = json .internalServerError (glz.writeObj
        [("error".toList, "web server command failed".toList),
          ("detail".toList, (arrive d env s).lastError)]) := by
      rw [kept]
      rfl
    have ended : Ended glz request (l₁ ++ [⟨t, s, env, .lastError⟩])
        (commandFailed glz s.lastError) :=
      .failed fun none => nomatch reported.mpr none
    rw [answer] at ended
    exact ended

/-- A request is refused at once, or makes a call that acts, or asks for the status. -/
inductive Course (glz : ServerGlaze) (vars : Variables) (c : WebServerController)
    (request : ServerRequest) : Prop
  | refuses (res : Response) : ¬ Permitted glz vars request →
      res.status = .conflict ∨ res.status = .badRequest →
      endpoint glz vars c request = .ret res → Course glz vars c request
  | acts (call : Call) : Permitted glz vars request → Call.Acts call →
      endpoint glz vars c request =
        (lift (call.code c) >>= fun ok => (serverResult glz ok).interp (callCode c)) →
      Course glz vars c request
  | looks : request = .status → Course glz vars c request

private theorem course (glz : ServerGlaze) (vars : Variables) (c : WebServerController)
    (request : ServerRequest) : Course glz vars c request := by
  cases request with
  | on => exact .acts .on trivial trivial rfl
  | reset => exact .acts .reset trivial trivial rfl
  | status => exact .looks rfl
  | off body =>
    by_cases refused : (glz.readForceReq body).1 = true ∨
        (glz.readForceReq body).2.force ≠ some true
    · refine .refuses _ (fun permitted => ?_) (Or.inl rfl)
        (congrArg (Prog.interp (callCode c)) (if_pos refused))
      rw [Permitted] at permitted
      simp [permitted] at refused
    · refine .acts .off ?_ trivial (congrArg (Prog.interp (callCode c)) (if_neg refused))
      rw [not_or, not_not, Bool.not_eq_true] at refused
      exact Prod.ext refused.1 (congrArg ForceReq.mk refused.2)
  | port body =>
    cases read : glz.readPortReq body with
    | mk failed req =>
      obtain ⟨http⟩ := req
      cases failed with
      | true =>
        refine .refuses _ ?_ (Or.inr rfl) (by simp only [endpoint, handle, serverPort, read]; rfl)
        rintro ⟨p, same, -⟩
        rw [read] at same
        cases same
      | false =>
        cases http with
        | none =>
          refine .refuses _ ?_ (Or.inr rfl) (by simp only [endpoint, handle, serverPort, read]; rfl)
          rintro ⟨p, same, -⟩
          rw [read] at same
          cases same
        | some p =>
          by_cases out : p < vars.portMin ∨ vars.portMax < p
          · refine .refuses _ ?_ (Or.inr rfl)
              (by simp only [endpoint, handle, serverPort, read, if_pos out]; rfl)
            rintro ⟨p', same, within⟩
            rw [read] at same
            cases same
            omega
          · refine .acts (.setListenPort (toPort p)) ⟨p, read, by omega⟩ trivial ?_
            simp only [endpoint, handle, serverPort, read, if_neg out]
            rfl

private theorem ended_of_follows (truthful : ∀ call, Call.Acts call → Truthful (call.code c))
    (silent : c.isRunning.Only (Hidden recorded)) {request : ServerRequest}
    {l : List (Event (requested d))} {res : Response}
    (followed : Follows (endpoint glz vars c request) l (.ret res)) :
    Ended glz request l res := by
  cases course glz vars c request with
  | refuses res' no status same =>
    rw [same] at followed
    obtain ⟨rfl, same⟩ := followed.of_ret
    cases same
    exact .refused status
  | acts call permitted acts same =>
    rw [same] at followed
    exact ended_of_call (truthful call acts) followed
  | looks status =>
    subst status
    have answered : Ends noted (endpoint glz vars c .status) fun res texts =>
        res.status = .ok ∧ texts = [] := by
      have probes : (lift c.isRunning).Only (Hidden noted) := only_lift silent fun _ h => h
      refine ends_bind_of_hidden probes fun up => ?_
      exact fun http https => ⟨rfl, rfl⟩
    obtain ⟨ok, none⟩ := answered.follows followed
    exact .succeeded none ok

end Endings

/-- A request during which no other one records an error. -/
def Apart (log : List (Event (requested d))) (t : Nat) : Prop :=
  ∀ u, u ≠ t → (∀ e ∈ log, e.tid = u → noted e.op = none) ∨ Precedes log u t ∨ Precedes log t u

/-- How a request is answered, among all the others that are being served. Nothing guards
`last_error_`: which text a failure is answered with is said only of a request during which no
other one writes to it, and then it is the error the request itself has recorded last. -/
inductive Answered (glz : ServerGlaze) (log : List (Event (requested d))) (t : Nat)
    (res : Response) : Prop
  | refused : log.filter (fun e => e.tid = t) = [] →
      res.status = .conflict ∨ res.status = .badRequest → Answered glz log t res
  | succeeded : shows noted (log.filter fun e => e.tid = t) = [] → res.status = .ok →
      Answered glz log t res
  | failed {detail : Str} : shows noted (log.filter fun e => e.tid = t) ≠ [] →
      res = commandFailed glz detail →
      (Apart log t → (shows noted (log.filter fun e => e.tid = t)).getLast? = some detail ∧
        detail ≠ []) → Answered glz log t res

/-- In every run, whatever the system does: each request that has ended is answered so, and only
requests that are permitted have taken any step. -/
def AnswersTruly (d : Daemon) (c : WebServerController) : Prop :=
  ∀ (glz : ServerGlaze) (vars : Variables) (requests : Nat → ServerRequest) (s : State)
    (sched : List (Nat × Env)) (t : Nat),
    (∀ res, (serving glz vars d c requests s sched).pool t = .ret res →
      Answered glz (serving glz vars d c requests s sched).log t res) ∧
    ((serving glz vars d c requests s sched).own t ≠ [] → Permitted glz vars (requests t))

section Runs

variable {requests : Nat → ServerRequest} {s : State} {sched : List (Nat × Env)}

private theorem serving_follows (glz : ServerGlaze) (vars : Variables) (d : Daemon)
    (c : WebServerController) (requests : Nat → ServerRequest) (s : State)
    (sched : List (Nat × Env)) (t : Nat) :
    Follows (endpoint glz vars c (requests t)) ((serving glz vars d c requests s sched).own t)
      ((serving glz vars d c requests s sched).pool t) :=
  Config.play_follows (m := requested d) (fun t => endpoint glz vars c (requests t)) s sched t

variable (truthful : ∀ call, Call.Acts call → Truthful (call.code c))
  (silent : c.isRunning.Only (Hidden recorded))

include truthful silent

private theorem endpoint_worded (request : ServerRequest) :
    (endpoint glz vars c request).Only worded := by
  have quiet : ∀ o, Hidden noted o → worded o := fun _ h _ same => nomatch h.symm.trans same
  cases course glz vars c request with
  | refuses res no status same =>
    rw [same]
    trivial
  | acts call permitted acts same =>
    rw [same]
    refine Prog.only_bind (only_lift (truthful call acts).explained fun _ h => h) fun ok => ?_
    cases ok with
    | true => trivial
    | false => exact ⟨quiet _ rfl, fun _ => trivial⟩
  | looks status =>
    subst status
    refine Prog.only_bind (only_lift silent fun _ h => quiet _ h) fun up => ?_
    exact ⟨quiet _ rfl, fun http => ⟨quiet _ rfl, fun https => trivial⟩⟩

private theorem worded_of_recorded {text : Str}
    (h : text ∈ shows noted (serving glz vars d c requests s sched).log) : text ≠ [] := by
  obtain ⟨e, he, same⟩ := List.mem_filterMap.mp h
  have own : e ∈ (serving glz vars d c requests s sched).own e.tid :=
    List.mem_filter.mpr ⟨he, decide_eq_true rfl⟩
  have followed := serving_follows glz vars d c requests s sched e.tid
  exact (followed.only (endpoint_worded truthful silent _)).1 e own text same

/-- At a read of the last error by a thread that has recorded one, it is the one recorded last. -/
private theorem lastError_read {pre post : List (Event (requested d))} {e : Event (requested d)}
    (split : (serving glz vars d c requests s sched).log = pre ++ e :: post) {t : Nat}
    (own : shows noted (pre.filter fun e => e.tid = t) ≠ []) :
    (shows noted pre).getLast? = some e.pre.lastError ∧ e.pre.lastError ≠ [] := by
  obtain ⟨sched', k, log, state, -⟩ := Config.log_split split
  have last := lastError_play _ s sched' (c := serving glz vars d c requests s sched') rfl
  have some_ : shows noted pre ≠ [] := by
    intro none
    refine own (List.filterMap_eq_nil_iff.mpr fun e he => ?_)
    exact List.filterMap_eq_nil_iff.mp none e (List.mem_filter.mp he).1
  obtain ⟨text, latest⟩ := Option.isSome_iff_exists.mp (List.getLast?_isSome.mpr some_)
  have same : e.pre.lastError = text := by
    rw [← state]
    refine last.trans ?_
    change (shows noted ((Config.start _ s).play sched').log).getLast?.getD _ = _
    rw [log, latest]
    rfl
  have noted_ : text ∈ shows noted (serving glz vars d c requests s sched').log := by
    change text ∈ shows noted ((Config.start _ s).play sched').log
    rw [log]
    exact List.mem_of_getLast? latest
  rw [same]
  exact ⟨latest, worded_of_recorded truthful silent noted_⟩

private theorem answersTruly : AnswersTruly d c := by
  intro glz vars requests s sched t
  refine ⟨fun res done => ?_, fun stepped => ?_⟩
  · have followed := serving_follows glz vars d c requests s sched t
    rw [done] at followed
    generalize own : (serving glz vars d c requests s sched).own t = l at followed
    cases ended_of_follows truthful silent followed with
    | refused status => exact .refused own status
    | succeeded none ok =>
      rw [← own] at none
      exact .succeeded none ok
    | @failed l t' s' env some_ =>
      obtain ⟨pre, post, split, before, -⟩ := split_of_own own
      have mine : (⟨t', s', env, .lastError⟩ : Event (requested d)) ∈
          (serving glz vars d c requests s sched).own t := by
        rw [own]
        exact List.mem_append_right _ (List.mem_singleton_self _)
      obtain rfl : t' = t := of_decide_eq_true (List.mem_filter.mp mine).2
      -- the getter records nothing
      have same : shows noted ((serving glz vars d c requests s sched).own t') = shows noted l := by
        rw [own, shows_append]
        exact List.append_nil _
      refine .failed (fun none => some_ (same.symm.trans none)) rfl fun apart => ?_
      change (shows noted ((serving glz vars d c requests s sched).own t')).getLast? = _ ∧ _
      rw [same, ← before]
      rw [← before] at some_
      obtain ⟨latest, worded⟩ := lastError_read truthful silent split some_
      exact ⟨(getLast_shown split ⟨_, List.mem_cons_self, rfl⟩ apart some_).trans latest, worded⟩
  · have followed := serving_follows glz vars d c requests s sched t
    cases course glz vars c (requests t) with
    | refuses res no status same =>
      rw [same] at followed
      exact absurd followed.of_ret.1 stepped
    | acts call permitted acts same => exact permitted
    | looks status =>
      rw [status]
      trivial

end Runs

end Webengine.Results.ServerRequests
