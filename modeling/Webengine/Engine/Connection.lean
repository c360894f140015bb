/- source: backend/src/Session.cpp
   digest: One keep-alive conversation: what a session answers to the requests that arrive on
   it, and what it writes. -/

import Webengine.Engine.Stages
import Webengine.Library.Headers

set_option autoImplicit false
set_option relaxedAutoImplicit false

namespace Webengine.Engine.Connection

open Webengine.Engine.Roles (Str)
open Webengine.Engine.Messages
open Webengine.Engine.Operations
open Webengine.Engine.Dispatch
open Webengine.Engine.Stages
open Webengine.Engine.Providers (AuthProvider)
open Webengine.Library.Headers (Plain PlainName stripped stripped_stripped tidy writeHeader)
open Webengine.Library.Interleavings
open Webengine.Library.Programs (Prog)

/-- The fields that say whether a connection is kept alive. -/
def isConnection (f : Str × Str) : Bool := iequals f.1 "Connection".toList

/-- Fields that can stand in a header. -/
def PlainFields (fields : Fields) : Prop := ∀ f ∈ fields, PlainName f.1 ∧ Plain f.2

instance (fields : Fields) : Decidable (PlainFields fields) := List.decidableBAll _ fields

/-- What the session uses of the HTTP library's Connection field: for a version and the fields
of a message, whether it keeps the connection alive, and the fields that say so. The reading
looks at no other field, and not at the blanks around a value; the setting changes no other
field, and is what is read. -/
structure Beast where
  getKeepAlive : Nat → Fields → Bool
  setKeepAlive : Nat → Bool → Fields → Fields
  get_tidy : ∀ version fields, getKeepAlive version (fields.map tidy) = getKeepAlive version fields
  get_congr : ∀ version (fields fields' : Fields),
    fields.filter isConnection = fields'.filter isConnection →
    getKeepAlive version fields = getKeepAlive version fields'
  get_set : ∀ version keep fields, getKeepAlive version (setKeepAlive version keep fields) = keep
  others_set : ∀ version keep fields,
    (setKeepAlive version keep fields).filter (fun f => !isConnection f) =
      fields.filter fun f => !isConnection f
  plain_set : ∀ version keep fields, PlainFields fields →
    PlainFields (setKeepAlive version keep fields)

section Tokens

theorem find_tidy (fields : Fields) (name : Str) :
    Fields.find (fields.map tidy) name = (fields.find name).map stripped := by
  unfold Fields.find
  rw [List.find?_map, Option.map_map, Option.map_map]
  rfl

theorem plainFields_set {fields : Fields} (h : PlainFields fields) {name value : Str}
    (named : PlainName name) (plain : Plain value) : PlainFields (fields.set name value) := by
  intro f hf
  rcases List.mem_append.mp hf with old | new
  · exact h f (List.mem_of_mem_filter old)
  · rw [List.mem_singleton.mp new]
    exact ⟨named, plain⟩

/-- The tokens of the Connection field, without the blanks around them. -/
def connectionTokens (fields : Fields) : List Str :=
  (stripped ((fields.find "Connection".toList).getD [])).splitOn ',' |>.map stripped

/-- Persistent by default from HTTP/1.1 on, on request before. -/
def tokenGetKeepAlive (version : Nat) (fields : Fields) : Bool :=
  if version < 11 then (connectionTokens fields).any (iequals "keep-alive".toList)
  else !(connectionTokens fields).any (iequals "close".toList)

/-- Only what differs from the default of the version is said. -/
def tokenSetKeepAlive (version : Nat) (keep : Bool) (fields : Fields) : Fields :=
  if keep = decide (11 ≤ version) then fields.filter fun f => !isConnection f
  else fields.set "Connection".toList (if keep then "keep-alive".toList else "close".toList)

private theorem find_connection (fields : Fields) :
    fields.find "Connection".toList = ((fields.filter isConnection).head?).map Prod.snd := by
  rw [List.head?_filter]
  rfl

/-- The Connection field as HTTP reads and writes it, with one token. -/
def tokens : Beast where
  getKeepAlive := tokenGetKeepAlive
  setKeepAlive := tokenSetKeepAlive
  get_tidy version fields := by
    have same : connectionTokens (fields.map tidy) = connectionTokens fields := by
      unfold connectionTokens
      rw [find_tidy]
      cases fields.find "Connection".toList with
      | none => rfl
      | some value => rw [Option.map_some, Option.getD_some, Option.getD_some, stripped_stripped]
    rw [tokenGetKeepAlive, same]
    rfl
  get_congr version fields fields' same := by
    unfold tokenGetKeepAlive connectionTokens
    rw [find_connection, find_connection, same]
  get_set version keep fields := by
    have silent : connectionTokens (fields.filter fun f => !isConnection f) = [[]] := by
      have none_ : (fields.filter fun f => !isConnection f).filter isConnection = [] := by
        rw [List.filter_filter, List.filter_eq_nil_iff]
        simp
      rw [connectionTokens, find_connection, none_]
      rfl
    have told : ∀ value, connectionTokens (fields.set "Connection".toList value) =
        ((stripped value).splitOn ',').map stripped := by
      intro value
      rw [connectionTokens, Fields.find_set]
      rfl
    unfold tokenGetKeepAlive tokenSetKeepAlive
    by_cases old : version < 11
    · have less : ¬ 11 ≤ version := by omega
      cases keep with
      | true =>
        rw [if_pos old, if_neg (by simp [less]), told]
        decide
      | false =>
        rw [if_pos old, if_pos (by simp [less]), silent]
        decide
    · have more : 11 ≤ version := by omega
      cases keep with
      | true =>
        rw [if_neg old, if_pos (by simp [more]), silent]
        decide
      | false =>
        rw [if_neg old, if_neg (by simp [more]), told]
        decide
  others_set version keep fields := by
    unfold tokenSetKeepAlive
    split_ifs
    · rw [List.filter_filter]
      simp
    all_goals
      refine Fields.filter_set fields ?_ rfl
      intro f other
      simpa [isConnection] using other
  plain_set version keep fields plain := by
    unfold tokenSetKeepAlive
    split_ifs
    · exact fun f hf => plain f (List.mem_of_mem_filter hf)
    · exact plainFields_set plain (by decide) (by decide)
    · exact plainFields_set plain (by decide) (by decide)

end Tokens

/-- `keep_alive()` of a request. -/
def Beast.keepAlive (B : Beast) (req : Request) : Bool := B.getKeepAlive req.version req.fields

/-- The reason phrase the HTTP library writes for a status. -/
def reason : Status → Str
  | .ok => "OK".toList
  | .found => "Found".toList
  | .badRequest => "Bad Request".toList
  | .unauthorized => "Unauthorized".toList
  | .forbidden => "Forbidden".toList
  | .notFound => "Not Found".toList
  | .conflict => "Conflict".toList
  | .internalServerError => "Internal Server Error".toList
  | .notImplemented => "Not Implemented".toList

/-- The status line; of an HTTP version both numbers have one digit. -/
def statusLine (status : Status) (version : Nat) : Str :=
  "HTTP/".toList ++ (decimal (version / 10) ++ (['.'] ++ (decimal (version % 10) ++
    ([' '] ++ (decimal status.code ++ ' ' :: reason status)))))

/-- `async_write` of a response: its header, and its body behind it. The values of the fields are
written as they are. -/
def write (res : Response) : Str :=
  writeHeader (statusLine res.status res.version) res.fields ++ res.body

variable {U : Type} (B : Beast) (app : App U)

/-- What the session makes of a dispatched response. -/
def reply (req : Request) (res : Response) : Response :=
  ({ res with fields := B.setKeepAlive res.version (B.keepAlive req) res.fields } :
    Response).preparePayload

/-- `do_read` and `do_write`, as long as requests arrive and ask for keep-alive. -/
def converse : List Request → Code U Str
  | [] => pure []
  | req :: reqs => do
    let res ← dispatch app req
    if B.keepAlive req then do
      let more ← converse reqs
      pure (write (reply B req res) ++ more)
    else pure (write (reply B req res))

/-- The requests up to and including the first that does not ask for keep-alive. -/
def answered : List Request → List Request
  | [] => []
  | req :: reqs => if B.keepAlive req then req :: answered reqs else [req]

/-- Any number of sessions on one engine, their steps interleaved by any schedule. -/
def sessions {P : AuthProvider} (arriving : Nat → List Request) (s : EngineState P U)
    (sched : List (Nat × EngineEnv P)) : Config (engine P U) Str Str :=
  (Config.start (fun t => converse B app (arriving t)) s).play sched

/-- The dispatches of some requests, one after the other. -/
def dispatches : List Request → Code U (List Response)
  | [] => pure []
  | req :: reqs => do
    let res ← dispatch app req
    let more ← dispatches reqs
    pure (res :: more)

/-- The stream of the responses to some requests. -/
def stream (reqs : List Request) (dispatched : List Response) : Str :=
  (List.zipWith (reply B) reqs dispatched).flatMap write

/-- A session dispatches the requests it answers in order, and writes the replies in order. -/
theorem converse_eq (reqs : List Request) :
    converse B app reqs =
      dispatches app (answered B reqs) >>= fun dispatched =>
        pure (stream B (answered B reqs) dispatched) := by
  induction reqs with
  | nil => rfl
  | cons req reqs ih =>
    unfold converse answered
    cases keep : B.keepAlive req with
    | true =>
      simp only [if_true, ih, dispatches, bind_assoc, pure_bind]
      rfl
    | false =>
      simp only [Bool.false_eq_true, if_false, dispatches, bind_assoc, pure_bind]
      simp [stream]

theorem quiet_dispatch (req : Request) : (dispatch app req).Quiet := by
  have quiet_invoke : ∀ h ctx, (invoke app h ctx).Quiet := by
    intro h ctx _
    exact Prog.quiet_tryCatch fun _ => trivial
  rw [dispatch_eq]
  intro found
  rcases found with _ | ⟨h, _ | need⟩
  · trivial
  · exact quiet_invoke h _
  · change (enforce app req h (some need)).Quiet
    rw [enforce_eq]
    have quiet_enforced : ∀ entry, (enforced app req h need entry).Quiet := by
      intro entry
      cases entry with
      | none => trivial
      | some entry =>
        rw [enforced]
        split
        · exact quiet_invoke h _
        · trivial
    split
    · exact quiet_enforced none
    · exact quiet_enforced

private theorem quiet_dispatches (reqs : List Request) : (dispatches app reqs).Quiet := by
  induction reqs with
  | nil => trivial
  | cons req reqs ih =>
    exact Prog.quiet_bind (quiet_dispatch app req) fun res =>
      Prog.quiet_bind ih fun more => trivial

theorem quiet_converse (reqs : List Request) : (converse B app reqs).Quiet := by
  rw [converse_eq]
  exact Prog.quiet_bind (quiet_dispatches app _) fun _ => trivial

end Webengine.Engine.Connection
