/- source: backend/src/WebEngine.cpp (run, stop, enable_signal_shutdown), backend/src/Listener.cpp,
   backend/src/Session.cpp
   digest: The engine as it serves: a pool of threads calls the handlers of the accept loop, of
   the sessions' reads and writes, and of the signals. -/

import Webengine.Engine.Connection
import Webengine.Library.LoopHistories

set_option autoImplicit false
set_option relaxedAutoImplicit false

namespace Webengine.Engine.Serving

open Webengine.Engine.Messages
open Webengine.Engine.Operations
open Webengine.Engine.Dispatch
open Webengine.Engine.Connection
open Webengine.Engine.Providers (AuthProvider)
open Webengine.Engine.Roles (Str)
open Webengine.Library.EventLoops
open Webengine.Library.Programs (Prog)

/-- The asynchronous operations that are started: `async_accept`, `async_read`, `async_write` of
a response, and the `async_wait` for a signal. -/
inductive Wait
  | accept
  | read
  | write (res : Response) (keepAlive : Bool)
  | signal

/-- An `error_code` that is clear or set. -/
inductive Completion
  | done
  | failed

/-- How a read ends. -/
inductive Arrival
  | request (req : Request)
  | endOfStream
  | failed

@[reducible] def Result : Wait → Type
  | .read => Arrival
  | _ => Completion

/-- What a handler does besides: it shuts its socket down for sending. -/
inductive Note
  | shutdownSend

variable {U : Type} (B : Beast) (app : App U)

/-- Only the handler of a read works on what the engine shares: it dispatches the request. -/
def body : (w : Wait) → Result w → Code U (Option Response)
  | .read, .request req => do
    let res ← dispatch app req
    pure (some res)
  | _, _ => pure none

/-- How the handlers end. -/
def tail : (w : Wait) → Result w → Option Response → Tail Wait Note
  -- Listener::do_accept: a session for the connection, then the next accept in any case
  | .accept, .done, _ => ⟨[.spawn .read], some .accept⟩
  | .accept, .failed, _ => ⟨[], some .accept⟩
  -- Session::do_read
  | .read, .request req, res =>
    ⟨[], res.map fun res => .write (reply B req res) (B.keepAlive req)⟩
  | .read, .endOfStream, _ => ⟨[.note .shutdownSend], none⟩
  | .read, .failed, _ => ⟨[], none⟩
  -- Session::do_write
  | .write _ true, .done, _ => ⟨[], some .read⟩
  | .write _ false, .done, _ => ⟨[.note .shutdownSend], none⟩
  | .write _ _, .failed, _ => ⟨[], none⟩
  -- the completion of enable_signal_shutdown
  | .signal, .done, _ => ⟨[.stop], none⟩
  | .signal, .failed, _ => ⟨[], none⟩

/-- The number of threads of `run`, by `set_threads` and `hardware_concurrency`. -/
def threadCount (numThreads hardware : Nat) : Nat :=
  if numThreads ≠ 0 then numThreads else max 1 hardware

/-- The code of a serving engine. `run` starts a listener, `enable_signal_shutdown` the wait for
a signal. -/
abbrev service (numThreads hardware : Nat) : Service Str (@Ans U) where
  Wait := Wait
  Result := Result
  Note := Note
  Value := Option Response
  body := body app
  tail := tail B
  first := .accept
  aside w := w = .signal
  threads := threadCount numThreads hardware

/-- There is always a thread that serves. -/
theorem threadCount_pos (numThreads hardware : Nat) : 0 < threadCount numThreads hardware := by
  unfold threadCount
  split <;> omega

/-- A listener accepts on, whatever an accept comes to. -/
theorem accept_renews (w : Wait) (hw : w = .accept) (r : Result w) (v : Option Response) :
    ∃ w', (tail B w r v).next = some w' ∧ w' = .accept := by
  subst hw
  cases r with
  | done => exact ⟨.accept, rfl, rfl⟩
  | failed => exact ⟨.accept, rfl, rfl⟩

/-- What a handler starts next on its chain: an accept after an accept, the response after a
request, the next read after a response that was written and keeps the connection alive. -/
inductive Next : (w : Wait) → Result w → Option Response → Wait → Prop
  | accept (r : Completion) (v : Option Response) : Next .accept r v .accept
  | write (req : Request) (res : Response) :
      Next .read (.request req) (some res) (.write (reply B req res) (B.keepAlive req))
  | read (res : Response) (v : Option Response) : Next (.write res true) .done v .read

theorem next_of_tail {w : Wait} {r : Result w} {v : Option Response} {w' : Wait}
    (h : (tail B w r v).next = some w') : Next B w r v w' := by
  cases w with
  | accept =>
    cases r with
    | done => cases h; exact .accept _ _
    | failed => cases h; exact .accept _ _
  | read =>
    cases r with
    | request req =>
      cases v with
      | none => cases h
      | some res => cases h; exact .write req res
    | _ => cases h
  | write res keep =>
    cases r with
    | failed => cases keep <;> cases h
    | done => cases keep with
      | true => cases h; exact .read res v
      | false => cases h
  | signal => cases r <;> cases h

/-- The only chains a handler begins are sessions, each with a read, after an accept. -/
theorem spawn_of_tail {w : Wait} {r : Result w} {v : Option Response} {w' : Wait}
    (h : Act.spawn w' ∈ (tail B w r v).acts) : w = .accept ∧ w' = .read := by
  cases w with
  | accept =>
    cases r with
    | done => cases List.mem_singleton.mp h; exact ⟨rfl, rfl⟩
    | failed => cases h
  | read =>
    cases r with
    | endOfStream => cases List.mem_singleton.mp h
    | _ => cases h
  | write res keep =>
    cases r with
    | failed => cases keep <;> cases h
    | done => cases keep with
      | true => cases h
      | false => cases List.mem_singleton.mp h
  | signal =>
    cases r with
    | done => cases List.mem_singleton.mp h
    | failed => cases h

end Webengine.Engine.Serving
