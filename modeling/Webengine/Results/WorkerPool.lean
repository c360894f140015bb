/- source: backend/src/WebEngine.cpp (run, stop), backend/src/Listener.cpp, backend/src/Session.cpp
   digest: However many threads serve, and whatever input and output come to: what they do to the
   engine is a run of the requests as threads of their own, each connection is a conversation, and
   the listener accepts on. -/

import Webengine.Engine.Footprints
import Webengine.Engine.Gates
import Webengine.Engine.Serving

set_option autoImplicit false
set_option relaxedAutoImplicit false

namespace Webengine.Results.WorkerPool

open Webengine.Engine
open Webengine.Engine.Messages
open Webengine.Engine.Operations
open Webengine.Engine.Dispatch
open Webengine.Engine.Connection (Beast reply quiet_dispatch tokens)
open Webengine.Engine.Serving
open Webengine.Engine.Providers (AuthProvider)
open Webengine.Library.EventLoops
open Webengine.Library.Interleavings (Config)
open Webengine.Library.LoopHistories
open Webengine.Library.Programs (Prog)

variable {P : AuthProvider} {U : Type} {B : Beast} {app : App U} {numThreads hardware : Nat}

/-- A serving engine. -/
abbrev Server (P : AuthProvider) (B : Beast) (app : App U) (numThreads hardware : Nat) :=
  Loop (engine P U) (service B app numThreads hardware)

/-- The request a handler dispatches, if it is that of a read. -/
def requestOf : Job (service B app numThreads hardware) → Option Request
  | ⟨_, .read, .request req⟩ => some req
  | _ => none

/-- The thread a handler stands for: its request, or nothing to do. -/
def threadOf (job : Option (Job (service B app numThreads hardware))) : Thread U :=
  match job.bind requestOf with
  | some req => .request req
  | none => .application (.ret routeNotFound)

/-- What the body of a handler makes of the response of its thread. -/
def answerOf (job : Option (Job (service B app numThreads hardware))) (res : Response) :
    Option Response :=
  (job.bind requestOf).map fun _ => res

private theorem body_eq (job : Job (service B app numThreads hardware)) :
    body app job.wait job.result = (threadOf (some job)).code app >>= fun res =>
      .ret (answerOf (some job) res) := by
  obtain ⟨c, w, r⟩ := job
  cases w with
  | read =>
    cases r with
    | request req => rfl
    | _ => rfl
  | _ => rfl

private theorem quiet_threadOf (job : Option (Job (service B app numThreads hardware))) :
    ((threadOf job).code app).Quiet := by
  unfold threadOf
  cases job.bind requestOf with
  | some req => exact quiet_dispatch app req
  | none => trivial

/-- The threads a server's handlers stand for. -/
def threadsOf (l : Server P B app numThreads hardware) (t : Nat) : Thread U := threadOf l.jobs[t]?

/-- One operation of a chain after another, the second started by a handler that was called once
the first had completed: an accept after an accept, the response to a request that was read, as
its thread ended with it, and a read after a response that was written and keeps the connection. -/
inductive Turn (l : Server P B app numThreads hardware) (ended : Nat → Code U Response) (c : Nat) :
    Started (service B app numThreads hardware) →
      Started (service B app numThreads hardware) → Prop
  | accept {t : Nat} {r : Completion} {o : Option Nat} : l.jobs[t]? = some ⟨c, .accept, r⟩ →
      Turn l ended c ⟨c, .accept, o⟩ ⟨c, .accept, some t⟩
  | answer {t : Nat} {req : Request} {res : Response} {o : Option Nat} :
      l.jobs[t]? = some ⟨c, .read, .request req⟩ → ended t = .ret res →
      Turn l ended c ⟨c, .read, o⟩ ⟨c, .write (reply B req res) (B.keepAlive req), some t⟩
  | again {t : Nat} {res : Response} {o : Option Nat} :
      l.jobs[t]? = some ⟨c, .write res true, .done⟩ →
      Turn l ended c ⟨c, .write res true, o⟩ ⟨c, .read, some t⟩

/-- How a chain begins: the owner runs the engine or waits for a signal, or a connection was
accepted on another chain. -/
inductive Opening (l : Server P B app numThreads hardware) (c : Nat) :
    Started (service B app numThreads hardware) → Prop
  | run : Opening l c ⟨c, .accept, none⟩
  | signal : Opening l c ⟨c, .signal, none⟩
  | session {t c' : Nat} {r : Completion} : l.jobs[t]? = some ⟨c', .accept, r⟩ → c' ≠ c →
      Opening l c ⟨c, .read, some t⟩

/-- The operations of a chain, from its opening on; each has been handled once, but for the one
that is outstanding. -/
structure Conversation (l : Server P B app numThreads hardware) (ended : Nat → Code U Response)
    (c : Nat) : Prop where
  opening : ∀ st ∈ (ops l c).head?, Opening l c st
  goesOn : (ops l c).IsChain (Turn l ended c)
  handled : (ops l c).map Started.wait = (turns l c).map Job.wait ++ outstanding l c
  outstanding : (outstanding l c).length ≤ 1

section Runs

variable {s : EngineState P U} {l : Server P B app numThreads hardware}

private theorem chain_of_mem_ops {c : Nat} {st : Started (service B app numThreads hardware)}
    (h : st ∈ ops l c) : st ∈ l.started ∧ st.chain = c := by
  simpa [ops] using h

/-- A chain is a conversation, if its operations are accounted for by the ends of its handlers. -/
theorem conversation (h : Reachable s l) {ended : Nat → Code U Response}
    {pool : Nat → Code U (Option Response)}
    (ends : ∀ t v, pool t = .ret v → ∃ res, ended t = .ret res ∧ answerOf l.jobs[t]? res = v)
    (started : ∀ st ∈ l.started, Accounted l pool st) (c : Nat) : Conversation l ended c := by
  obtain ⟨handled, -, linked, first, -⟩ := isLinked h c
  refine ⟨fun st hs => ?_, ?_, handled, length_outstanding.trans (h.held_le c).1⟩
  · obtain ⟨mem, rfl⟩ := chain_of_mem_ops (List.mem_of_mem_head? hs)
    obtain ⟨c, w, o⟩ := st
    cases o with
    | none =>
      rcases owner_began h _ mem rfl with accept | signal
      · obtain rfl : w = .accept := accept
        exact .run
      · obtain rfl : w = .signal := signal
        exact .signal
    | some t =>
      obtain ⟨job, number, other⟩ := first _ hs t rfl
      obtain ⟨job', v, number', -, made⟩ := started _ mem t rfl
      cases number.symm.trans number'
      rcases made with ⟨same, -⟩ | ⟨-, spawned⟩
      · exact absurd same other
      · obtain ⟨c', w', r⟩ := job
        obtain ⟨rfl, rfl⟩ := spawn_of_tail B spawned
        exact .session number other
  · -- each operation is the next one of the handler that started it
    refine linked.imp_of_mem_imp fun st st' hs hs' startedBy => ?_
    obtain ⟨-, rfl⟩ := chain_of_mem_ops hs
    obtain ⟨mem, chain⟩ := chain_of_mem_ops hs'
    obtain ⟨t, job, origin, number, mine, wait⟩ := startedBy
    obtain ⟨job', v, number', ended', made⟩ := started _ mem t origin
    cases number.symm.trans number'
    obtain ⟨c, w, o⟩ := st
    obtain ⟨c', w', o'⟩ := st'
    obtain ⟨c'', w'', r⟩ := job
    obtain rfl : c' = c := chain
    obtain rfl : c'' = c' := mine
    obtain rfl : w'' = w := wait
    obtain rfl : o' = some t := origin
    rcases made with ⟨-, next⟩ | ⟨other, -⟩
    · obtain ⟨res', ended, answer⟩ := ends t v ended'
      rw [number] at answer
      cases next_of_tail B next with
      | accept r v => exact .accept number
      | write req res =>
        cases answer
        exact .answer number ended
      | read res v => exact .again number
    · exact absurd rfl other

private theorem exists_traced (h : Reachable s l) : ∃ sched pool,
    (serve app (threadsOf l) s sched).log = l.log ∧
      (serve app (threadsOf l) s sched).state = l.shared ∧
      (∀ x ∈ l.workers, Traces pool x) ∧ (∀ st ∈ l.started, Accounted l pool st) ∧
      ∀ t, pool t = (serve app (threadsOf l) s sched).pool t >>= fun res =>
        .ret (answerOf l.jobs[t]? res) := by
  obtain ⟨sched, log, state, -, workers, started⟩ := simulated h
    (fun t => (threadsOf l t).code app >>= fun res => .ret (answerOf l.jobs[t]? res)) (by
      intro t job number
      simp only [threadsOf, number]
      exact (body_eq job).symm)
  obtain ⟨sameLog, sameState, pools⟩ := play_mapped (fun t => (threadsOf l t).code app)
    (fun t => answerOf l.jobs[t]?) s sched
  exact ⟨sched, _, sameLog.symm.trans log, sameState.symm.trans state, workers, started, pools⟩

private theorem ended_of_mapped {p : Code U Response} {g : Response → Option Response}
    {v : Option Response} (h : (p >>= fun res => .ret (g res)) = .ret v) :
    ∃ res, p = .ret res ∧ g res = v := by
  cases p with
  | ret res => exact ⟨res, rfl, Prog.ret.inj h⟩
  | raise e => cases h
  | op o k => cases h

/-- Whatever number of threads serve, whatever operations come to, and however often the engine
is stopped and run again: what its handlers have done to it is what the requests that were read
have done as threads of their own, and nothing else; and every chain of operations is a
conversation, in which a response answers the request that was read before it. -/
theorem conversations (h : Reachable s l) : ∃ sched,
    (serve app (threadsOf l) s sched).log = l.log ∧
      (serve app (threadsOf l) s sched).state = l.shared ∧
      ∀ c, Conversation l (serve app (threadsOf l) s sched).pool c := by
  obtain ⟨sched, pool, log, state, -, started, pools⟩ := exists_traced h
  refine ⟨sched, log, state, conversation h (fun t v ended => ?_) started⟩
  rw [pools t] at ended
  exact ended_of_mapped ended

/-- The listener of a run accepts on: an accept or its handler is under way until an exception
from outside leaves one of its handlers. So no thread runs out of work: it returns only when the
engine is stopped. No handler throws by itself. -/
theorem keeps_accepting (h : Reachable s l) :
    (∀ c, ⟨c, .accept, none⟩ ∈ l.started → c ∉ l.broken →
      l.held c = 1 ∧ (∀ w ∈ outstanding l c, w = .accept) ∧ (l.stopped = false → ¬ l.Over)) ∧
    ∀ t job e, .working t job (.raise e) ∉ l.workers := by
  refine ⟨fun c run unbroken => ?_, fun t job e working => ?_⟩
  · have endless : Endless (fun w : Wait => w = .accept) c l :=
      h.isEndless (accept_renews B) run rfl
    refine ⟨?_, fun w hw => ?_, endless.not_over unbroken⟩
    · have one := (h.held_le c).1
      have goes := endless.goesOn.resolve_right unbroken
      omega
    · rw [outstanding, List.mem_append, List.mem_map, List.mem_map] at hw
      rcases hw with ⟨p, hp, rfl⟩ | ⟨r, hr, rfl⟩
      · rw [List.mem_filter, decide_eq_true_eq] at hp
        exact endless.pending p hp.1 hp.2
      · rw [List.mem_filter, decide_eq_true_eq] at hr
        exact endless.ready r hr.1 hr.2
  · obtain ⟨sched, pool, -, -, workers, -, pools⟩ := exists_traced h
    have raised : pool t = .raise e := workers _ working
    have quiet : ((threadsOf l t).code app).Quiet := quiet_threadOf _
    have ended : ((serve app (threadsOf l) s sched).pool t).Quiet :=
      (Footprints.serve_follows t).quiet quiet
    have now : (pool t).Quiet := by
      rw [pools t]
      exact Prog.quiet_bind ended fun _ => trivial
    rw [raised] at now
    exact now

end Runs

section Instance

def noHandlers : App Empty := ⟨Payloads.Glaze.sample [] [], fun u => nomatch u⟩

def unused : EngineState Gates.nobody Empty := fresh 0 ()

abbrev SmallServer := Server Gates.nobody tokens noHandlers 1 1

def firstAccept : Job (service tokens noHandlers 1 1) := ⟨0, .accept, .done⟩

def firstRead : Job (service tokens noHandlers 1 1) :=
  ⟨1, .read, .request (Gates.visit "/".toList [])⟩

/-- A connection has been accepted, and its first request is being handled. -/
def handling : SmallServer where
  shared := unused
  chains := 2
  pending := [(0, .accept)]
  ready := []
  workers := [.working 1 firstRead (body noHandlers firstRead.wait firstRead.result)]
  stopped := false
  jobs := [firstAccept, firstRead]
  started := [⟨0, .accept, none⟩, ⟨1, .read, some 0⟩, ⟨0, .accept, some 0⟩]
  notes := []
  broken := []
  log := []

private theorem reachable_handling : Reachable unused handling := by
  have served := (Reachable.idle (m := engine Gates.nobody Empty)
    (S := service tokens noHandlers 1 1) (s := unused)).step
      (.serve fun _ none => absurd none List.not_mem_nil)
  have accepted := served.step (@Step.complete _ _ _ _ _ _ [] [] 0 Wait.accept rfl Completion.done)
  have called := accepted.step (@Step.call _ _ _ _ _ _ [] [] [] [] firstAccept rfl rfl rfl)
  have ended := called.step (@Step.worked _ _ _ _ _ _ [] [] 0 firstAccept none rfl)
  have begun := ended.step
    (@Step.act _ _ _ _ _ _ [] [] 0 firstAccept (.spawn Wait.read) []
      (some Wait.accept) rfl)
  have accepts := begun.step (@Step.next _ _ _ _ _ _ [] [] 0 firstAccept Wait.accept rfl)
  have past := accepts.step (@Step.finish _ _ _ _ _ _ [] [] 0 firstAccept rfl)
  have read := past.step (@Step.complete _ _ _ _ _ _ [] [(0, Wait.accept)] 1 Wait.read rfl
    (Arrival.request (Gates.visit "/".toList [])))
  exact read.step (@Step.call _ _ _ _ _ _ [] [] [] [] firstRead rfl rfl rfl)

/-- The theorem at that server: its second handler is the thread of the request it was given,
the first has done nothing to the engine. -/
theorem conversations_handling :
    threadsOf handling 1 = .request (Gates.visit "/".toList []) ∧
      threadsOf handling 0 = .application (.ret routeNotFound) ∧
      ∃ sched, ∀ c, Conversation handling
        (serve noHandlers (threadsOf handling) unused sched).pool c := by
  obtain ⟨sched, -, -, all⟩ := conversations reachable_handling
  exact ⟨rfl, rfl, sched, all⟩

/-- The theorem at that server: it accepts on. -/
theorem keeps_accepting_handling : handling.held 0 = 1 ∧ ¬ handling.Over := by
  obtain ⟨held, -, goes⟩ := (keeps_accepting reachable_handling).1 0 List.mem_cons_self
    List.not_mem_nil
  exact ⟨held, goes rfl⟩

end Instance

end Webengine.Results.WorkerPool
