/- source: backend/src/Session.cpp, backend/src/Router.cpp (dispatch)
   digest: A client that frames the stream of a session by the HTTP rules reads one response
   for each request, exactly unless one of them is a HEAD or a text written into a header breaks
   its line. -/

import Webengine.Engine.Gates
import Webengine.Engine.HeaderFields

set_option autoImplicit false
set_option relaxedAutoImplicit false

namespace Webengine.Results.ResponseFraming

open Webengine.Engine
open Webengine.Engine.Roles (Str)
open Webengine.Engine.Messages
open Webengine.Engine.Operations
open Webengine.Engine.AuthEndpoints (checkOk handleCheck_eq)
open Webengine.Engine.Dispatch
open Webengine.Engine.Connection
open Webengine.Engine.HeaderFields
open Webengine.Engine.Footprints (registers router_of_not_registers)
open Webengine.Engine.Providers (AuthProvider)
open Webengine.Engine.Routing (Router)
open Webengine.Engine.Sessions (TokenEntry)
open Webengine.Engine.Stages (invoke_eq)
open Webengine.Library.Decimals (isDigit_of_mem_decimal scanNat scanNat_decimal_append
  dropWhile_decimal_append)
open Webengine.Library.Headers
open Webengine.Library.Interleavings
open Webengine.Library.Machines
open Webengine.Library.Programs (Prog)
open Webengine.Library.Texts (cut strip strip_append trim)

section Client

/-- The status with a code. -/
def statusOf (code : Nat) : Option Status :=
  [.ok, .found, .badRequest, .unauthorized, .forbidden, .notFound, .conflict,
    .internalServerError, .notImplemented].find? fun status : Status => status.code = code

/-- The status and the version of a status line. -/
def readStatusLine (s : Str) : Option (Status × Nat) := do
  let s ← strip "HTTP/".toList s
  let major ← scanNat s
  let s ← strip ['.'] (s.dropWhile Char.isDigit)
  let minor ← scanNat s
  let s ← strip [' '] (s.dropWhile Char.isDigit)
  let status ← statusOf (← scanNat s)
  pure (status, 10 * major + minor)

/-- The body length a header announces. -/
def contentLength (fields : Fields) : Option Nat :=
  (fields.find "Content-Length".toList).bind scanNat

/-- The next response to a request of that method: the header and then, unless it was HEAD, as
many characters as the header announces. -/
def readResponse (method : Verb) (s : Str) : Option (Response × Str) :=
  (readHeader s).bind fun (start, fields, s) =>
    (readStatusLine start).bind fun (status, version) =>
      if method = .head then some (⟨status, version, fields, []⟩, s)
      else (contentLength fields).bind fun n =>
        if s.length < n then none else some (⟨status, version, fields, s.take n⟩, s.drop n)

/-- The client: it reads a response for each method it has sent; afterwards the stream has to be
at its end. -/
def frame : List Verb → Str → Option (List Response)
  | [], s => if s = [] then some [] else none
  | method :: methods, s =>
    (readResponse method s).bind fun r => (frame methods r.2).map (r.1 :: ·)

end Client

section Specification

/-- The fields a session does not set itself. -/
def others (fields : Fields) : Fields :=
  fields.filter fun f => !isConnection f && !iequals f.1 "Content-Length".toList

/-- What a client is to read for a request: the response its dispatch gave, but for blanks around
the values and the body of a HEAD, and whether the request asked for keep-alive. -/
structure Answers (B : Beast) (req : Request) (dispatched read : Response) : Prop where
  status : read.status = dispatched.status
  version : read.version = dispatched.version
  others : others read.fields = (others dispatched.fields).map tidy
  body : read.body = if req.method = .head then [] else dispatched.body
  keepAlive : B.getKeepAlive read.version read.fields = B.keepAlive req

/-- One response is read for each request. -/
inductive Answered (B : Beast) : List Request → List Response → List Response → Prop
  | nil : Answered B [] [] []
  | cons {req : Request} {res r : Response} {reqs : List Request}
      {dispatched read : List Response} : Answers B req res r →
      Answered B reqs dispatched read → Answered B (req :: reqs) (res :: dispatched) (r :: read)

variable {P : AuthProvider} {U : Type}

/-- What the session owes: it ends in no exception, and once it has ended, the client reads one
response for each request that is answered, the `i`-th being what its dispatch gave, with its
keep-alive flag. -/
def OneResponseEach (B : Beast) (app : App U) (reqs : List Request)
    (c : Config (engine P U) Str Str) (t : Nat) : Prop :=
  (∀ e, c.pool t ≠ .raise e) ∧
  ∀ written, c.pool t = .ret written → ∃ dispatched read,
    Follows (dispatches app (answered B reqs)) (c.own t) (.ret dispatched) ∧
    frame ((answered B reqs).map Request.method) written = some read ∧
    Answered B (answered B reqs) dispatched read

end Specification

section StatusLines

private theorem statusOf_code (status : Status) : statusOf status.code = some status := by
  cases status <;> rfl

private theorem scanNat_number (n : Nat) {rest : Str} (ends : ∀ c ∈ rest.head?, c.isDigit = false) :
    scanNat (decimal n ++ rest) = some n := scanNat_decimal_append n ends

private theorem dropWhile_number (n : Nat) {rest : Str}
    (ends : ∀ c ∈ rest.head?, c.isDigit = false) :
    (decimal n ++ rest).dropWhile Char.isDigit = rest := dropWhile_decimal_append n ends

private theorem readStatusLine_statusLine (status : Status) (version : Nat) :
    readStatusLine (statusLine status version) = some (status, version) := by
  have dot : ∀ s : Str, ∀ c ∈ (['.'] ++ s).head?, c.isDigit = false := by
    intro s c hc
    cases hc
    rfl
  have space : ∀ s : Str, ∀ c ∈ ([' '] ++ s).head?, c.isDigit = false := by
    intro s c hc
    cases hc
    rfl
  have last : ∀ s : Str, ∀ c ∈ (' ' :: s).head?, c.isDigit = false := space
  simp only [readStatusLine, statusLine, strip_append, Option.bind_eq_bind, Option.bind_some,
    scanNat_number _ (dot _), dropWhile_number _ (dot _), scanNat_number _ (space _),
    dropWhile_number _ (space _), scanNat_number _ (last _), statusOf_code]
  have whole : 10 * (version / 10) + version % 10 = version := by omega
  rw [whole]
  rfl

private theorem plain_statusLine (status : Status) (version : Nat) :
    Plain (statusLine status version) := by
  refine plain_append (by decide) (plain_append (plain_decimal _) ?_)
  refine plain_append (by decide) (plain_append (plain_decimal _) ?_)
  refine plain_append (by decide) (plain_append (plain_decimal _) ?_)
  cases status <;> decide

private theorem frame_eq_none {c : Char} (solid : c ≠ '\r') (other : c ≠ 'H') (methods : List Verb)
    (s : Str) : frame methods (c :: s) = none := by
  cases methods with
  | nil => rfl
  | cons method methods =>
    have unread : readResponse method (c :: s) = none := by
      rw [readResponse, Option.bind_eq_none_iff]
      rintro ⟨start, fields, rest⟩ read
      have first := head_of_readHeader solid read
      have apart : readStatusLine start = none := by
        have strange : ¬ "HTTP/".toList <+: start := by
          rintro ⟨rest, rfl⟩
          cases first
          exact other rfl
        rw [readStatusLine, strip, if_neg strange]
        rfl
      dsimp only
      rw [apart]
      rfl
    rw [frame, unread]
    rfl

end StatusLines

section Replies

variable (B : Beast)

private theorem contentLength_preparePayload (res : Response) :
    contentLength (res.preparePayload.fields.map tidy) = some res.body.length := by
  have digits : scanNat (decimal res.body.length ++ []) = some res.body.length :=
    scanNat_number _ (by simp)
  have solid : stripped (decimal res.body.length) = decimal res.body.length := by
    refine stripped_of_solid fun c mem => ?_
    have digit : c.isDigit = true := isDigit_of_mem_decimal mem
    rw [Bool.eq_false_iff]
    intro space
    rcases (by simpa [blank] using space : c = ' ' ∨ c = '\t') with rfl | rfl <;> cases digit
  have set : res.preparePayload.fields =
      res.fields.set "Content-Length".toList (decimal res.body.length) := rfl
  rw [contentLength, find_tidy, set, Fields.find_set, Option.map_some, solid, Option.bind_some]
  rwa [List.append_nil] at digits

/-- What is read of the reply to a request. -/
def seen (req : Request) (res : Response) : Response :=
  { res with
    fields := res.fields.map tidy
    body := if req.method = .head then [] else res.body }

variable {B}

private theorem readResponse_reply (req : Request) {res : Response} (plain : PlainFields res.fields)
    (s : Str) :
    readResponse req.method (write (reply B req res) ++ s) =
      some (seen req (reply B req res), if req.method = .head then res.body ++ s else s) := by
  have fits : PlainFields (reply B req res).fields :=
    plainFields_preparePayload (B.plain_set _ _ _ plain)
  have announced : contentLength ((reply B req res).fields.map tidy) =
      some (reply B req res).body.length := contentLength_preparePayload _
  have ne : statusLine (reply B req res).status (reply B req res).version ≠ [] := by
    simp [statusLine]
  rw [readResponse, write, List.append_assoc,
    readHeader_writeHeader (plain_statusLine _ _) ne fits, Option.bind_some]
  dsimp only
  rw [readStatusLine_statusLine, Option.bind_some]
  dsimp only
  by_cases head : req.method = .head
  · rw [if_pos head, if_pos head, seen, if_pos head]
    rfl
  · rw [if_neg head, if_neg head, seen, if_neg head, announced, Option.bind_some,
      if_neg (by simp), List.take_left, List.drop_left]

private theorem filter_tidy {p : Str × Str → Bool} (byName : ∀ f, p (tidy f) = p f)
    (fields : Fields) : (fields.map tidy).filter p = (fields.filter p).map tidy := by
  rw [List.filter_map]
  refine congrArg (List.map tidy) (List.filter_congr fun f _ => ?_)
  exact byName f

private theorem length_of_connection (f : Str × Str) (h : isConnection f = true) :
    iequals f.1 "Content-Length".toList = false := by
  simp only [isConnection, iequals, decide_eq_true_eq, decide_eq_false_iff_not] at h ⊢
  rw [h]
  decide

private theorem answers_seen (req : Request) (res : Response) :
    Answers B req res (seen req (reply B req res)) where
  status := rfl
  version := rfl
  body := rfl
  others := by
    have kept : others (reply B req res).fields = others res.fields := by
      have sets : (reply B req res).fields =
          (B.setKeepAlive res.version (B.keepAlive req) res.fields).set "Content-Length".toList
            (decimal res.body.length) := rfl
      have split : ∀ fields : Fields, others fields =
          (fields.filter fun f => !isConnection f).filter
            fun f => !iequals f.1 "Content-Length".toList := by
        intro fields
        rw [List.filter_filter, others]
        exact List.filter_congr fun f _ => Bool.and_comm _ _
      rw [sets, others, Fields.filter_set, ← others, split, B.others_set, ← split]
      · intro f plain
        rw [Bool.and_eq_true] at plain
        simpa using plain.2
      · rfl
    rw [← kept]
    exact filter_tidy (fun _ => rfl) _
  keepAlive := by
    have connection : (reply B req res).fields.filter isConnection =
        (B.setKeepAlive res.version (B.keepAlive req) res.fields).filter isConnection :=
      Fields.filter_set _ length_of_connection rfl
    change B.getKeepAlive res.version ((reply B req res).fields.map tidy) = _
    rw [B.get_tidy, B.get_congr _ _ _ connection, B.get_set]

private theorem answered_of_frame {reqs : List Request} (h : ∀ req ∈ reqs, req.method ≠ .head) :
    ∀ {dispatched : List Response}, dispatched.length = reqs.length →
    (∀ res ∈ dispatched, PlainFields res.fields) →
    ∃ read, frame (reqs.map Request.method) (stream B reqs dispatched) = some read ∧
      Answered B reqs dispatched read := by
  induction reqs with
  | nil =>
    intro dispatched len _
    rw [List.length_eq_zero_iff.mp len]
    exact ⟨[], rfl, .nil⟩
  | cons req reqs ih =>
    intro dispatched len plain
    cases dispatched with
    | nil => cases len
    | cons res dispatched =>
      obtain ⟨here, later⟩ := List.forall_mem_cons.mp plain
      obtain ⟨read, framed, answered⟩ := ih (fun r hr => h r (List.mem_cons_of_mem _ hr))
        (Nat.succ.inj len) later
      have split : stream B (req :: reqs) (res :: dispatched) =
          write (reply B req res) ++ stream B reqs dispatched := rfl
      refine ⟨seen req (reply B req res) :: read, ?_, .cons (answers_seen req res) answered⟩
      rw [List.map_cons, split, frame, readResponse_reply req here, Option.bind_some,
        if_neg (h req List.mem_cons_self)]
      dsimp only
      rw [framed]
      rfl

/-- Among replies whose bodies begin no status line, that to a HEAD breaks the stream. -/
private theorem frame_stream_head {reqs : List Request} (h : ∃ req ∈ reqs, req.method = .head) :
    frame (reqs.map Request.method) (stream B reqs (reqs.map fun _ => routeNotFound)) = none := by
  induction reqs with
  | nil =>
    obtain ⟨req, hr, -⟩ := h
    cases hr
  | cons req reqs ih =>
    have split : stream B (req :: reqs) ((req :: reqs).map fun _ => routeNotFound) =
        write (reply B req routeNotFound) ++ stream B reqs (reqs.map fun _ => routeNotFound) := rfl
    have plain : PlainFields routeNotFound.fields := plainFields_text _ _
    rw [List.map_cons, split, frame, readResponse_reply req plain, Option.bind_some]
    dsimp only
    by_cases first : req.method = .head
    · have body : routeNotFound.body ++ stream B reqs (reqs.map fun _ => routeNotFound) =
          'N' :: ("ot Found".toList ++ stream B reqs (reqs.map fun _ => routeNotFound)) := rfl
      rw [if_pos first, body, frame_eq_none (by decide) (by decide)]
      rfl
    · obtain ⟨r, hr, head⟩ := h
      have later : r ∈ reqs := by
        rcases List.mem_cons.mp hr with rfl | hr
        · exact absurd head first
        · exact hr
      rw [if_neg first, ih ⟨r, later, head⟩]
      rfl

private theorem plain_of_readResponse {method : Verb} {s rest : Str} {r : Response}
    (h : readResponse method s = some (r, rest)) : ∀ f ∈ r.fields, Plain f.2 := by
  obtain ⟨⟨start, fields, rest'⟩, header, first⟩ := Option.bind_eq_some_iff.mp h
  obtain ⟨⟨status, version⟩, -, first⟩ := Option.bind_eq_some_iff.mp first
  have values := plain_of_readHeader header
  dsimp only at first
  split_ifs at first with head
  · cases first
    exact values
  · obtain ⟨n, -, first⟩ := Option.bind_eq_some_iff.mp first
    split_ifs at first
    cases first
    exact values

private theorem plain_of_frame {methods : List Verb} {s : Str} {read : List Response}
    (h : frame methods s = some read) : ∀ r ∈ read, ∀ f ∈ r.fields, Plain f.2 := by
  induction methods generalizing s read with
  | nil =>
    rw [frame] at h
    split_ifs at h
    cases h
    simp
  | cons method methods ih =>
    obtain ⟨⟨r, rest⟩, first, more⟩ := Option.bind_eq_some_iff.mp h
    obtain ⟨read', later, same⟩ := Option.map_eq_some_iff.mp more
    cases same
    exact List.forall_mem_cons.mpr ⟨plain_of_readResponse first, ih later⟩

private theorem plain_of_answered {reqs : List Request} {dispatched read : List Response}
    (answered : Answered B reqs dispatched read)
    (plain : ∀ r ∈ read, ∀ f ∈ r.fields, Plain f.2) :
    ∀ res ∈ dispatched, ∀ f ∈ others res.fields, Plain f.2 := by
  induction answered with
  | nil => simp
  | @cons req res r reqs dispatched read answers _ ih =>
    obtain ⟨here, later⟩ := List.forall_mem_cons.mp plain
    refine List.forall_mem_cons.mpr ⟨fun f hf => ?_, ih later⟩
    have mem : tidy f ∈ others r.fields := by
      rw [answers.others]
      exact List.mem_map_of_mem hf
    exact plain_stripped_iff.mp (here (tidy f) (List.mem_of_mem_filter mem))

end Replies

section Runs

variable {P : AuthProvider} {U : Type} {B : Beast} {app : App U} (arriving : Nat → List Request)
  {s : EngineState P U} {sched : List (Nat × EngineEnv P)}

private theorem length_of_dispatches {reqs : List Request} {l : List (Event (engine P U))}
    {dispatched : List Response} (h : Follows (dispatches app reqs) l (.ret dispatched)) :
    dispatched.length = reqs.length := by
  induction reqs generalizing l dispatched with
  | nil =>
    cases h.of_ret.2
    rfl
  | cons req reqs ih =>
    obtain ⟨l₁, l₂, res, rfl, -, rest⟩ := h.of_bind_ret
    obtain ⟨l₃, l₄, more, rfl, dispatched', last⟩ := rest.of_bind_ret
    cases last.of_ret.2
    rw [List.length_cons, List.length_cons, ih dispatched']

private theorem mem_of_mem_answered {reqs : List Request} {req : Request}
    (h : req ∈ answered B reqs) :
    req ∈ reqs := by
  induction reqs with
  | nil => exact h
  | cons r reqs ih =>
    rw [answered] at h
    split_ifs at h
    · exact List.mem_cons.mpr ((List.mem_cons.mp h).imp_right ih)
    · exact List.mem_cons.mpr (Or.inl (List.mem_singleton.mp h))

private theorem dispatched_of_ret {t : Nat} {written : Str}
    (ended : (sessions B app arriving s sched).pool t = .ret written) :
    ∃ dispatched, Follows (dispatches app (answered B (arriving t)))
        ((sessions B app arriving s sched).own t) (.ret dispatched) ∧
      written = stream B (answered B (arriving t)) dispatched := by
  have follows := Config.play_follows (m := engine P U) (fun t => converse B app (arriving t)) s
    sched t
  change Follows (converse B app (arriving t)) ((sessions B app arriving s sched).own t)
    ((sessions B app arriving s sched).pool t) at follows
  rw [ended, converse_eq] at follows
  obtain ⟨l₁, l₂, dispatched, split, done, last⟩ := follows.of_bind_ret
  obtain ⟨rfl, same⟩ := last.of_ret
  cases same
  rw [List.append_nil] at split
  rw [split]
  exact ⟨dispatched, done, rfl⟩

/-- What every dispatch promises as long as its answers meet `R`, the dispatches of a session
have kept, in an engine that gives such answers. -/
private theorem dispatched_relies {J : EngineState P U → Prop} {R : (o : Op U) → Ans o → Prop}
    {K : Op U → Prop} {Q : Request → Response → Prop} (begin_ : J s)
    (keeps : ∀ (env : EngineEnv P) (s : EngineState P U) (o : Op U), J s → K o →
      R o (engineStep env s o).1 ∧ J (engineStep env s o).2)
    (each : ∀ t, ∀ req ∈ arriving t, (dispatch app req).Relies R K (Q req)) {t : Nat}
    {dispatched : List Response}
    (done : Follows (dispatches app (answered B (arriving t)))
      ((sessions B app arriving s sched).own t) (.ret dispatched)) :
    List.Forall₂ Q (answered B (arriving t)) dispatched := by
  have all : ∀ reqs : List Request, (∀ req ∈ reqs, (dispatch app req).Relies R K (Q req)) →
      (dispatches app reqs).Relies R K (List.Forall₂ Q reqs) := by
    intro reqs promises
    induction reqs with
    | nil => exact .nil
    | cons req reqs ih =>
      obtain ⟨here, later⟩ := List.forall_mem_cons.mp promises
      exact Prog.relies_bind here fun res holds =>
        Prog.relies_bind (ih later) fun more hold => .cons holds hold
  have answers : ∀ t, (dispatches app (answered B (arriving t))).Relies R K
      (List.Forall₂ Q (answered B (arriving t))) := fun t =>
    all _ fun req hreq => each t req (mem_of_mem_answered hreq)
  have threads : ∀ t, (converse B app (arriving t)).Relies R K fun _ => True := by
    intro t
    rw [converse_eq]
    exact Prog.relies_bind (answers t) fun _ _ => trivial
  have met := (Config.play_relies (m := engine P U) begin_ keeps threads sched).2
  exact done.relies (answers t) fun e he => met e (List.mem_of_mem_filter he)

private theorem not_raise_sessions (t : Nat) (e : Str) :
    (sessions B app arriving s sched).pool t ≠ .raise e := by
  intro raised
  have quiet := (Config.play_follows (m := engine P U) (fun t => converse B app (arriving t)) s
    sched t).quiet (quiet_converse B app _)
  unfold sessions at raised
  rw [raised] at quiet
  exact quiet

private theorem oneResponseEach_of_plain {A : Str → Prop}
    (limits : Limits A app (fun req => ∃ t, req ∈ arriving t) s) (plain : ∀ v, A v → Plain v)
    {t : Nat} (heads : ∀ req ∈ answered B (arriving t), req.method ≠ .head) :
    OneResponseEach B app (arriving t) (sessions B app arriving s sched) t := by
  refine ⟨not_raise_sessions arriving t, fun written ended => ?_⟩
  obtain ⟨dispatched, done, rfl⟩ := dispatched_of_ret arriving ended
  clear ended
  have kept := dispatched_relies arriving (Q := fun _ res => PlainFields res.fields)
    limits.sessions (fun env s' o named stores => keeps_told limits env s' o named stores)
    (fun t req hreq => writes_dispatch limits plain ⟨t, hreq⟩) done
  have fits : ∀ res ∈ dispatched, PlainFields res.fields := by
    clear done heads
    generalize answered B (arriving t) = reqs at kept
    induction kept with
    | nil => simp
    | cons here _ ih => exact List.forall_mem_cons.mpr ⟨here, ih⟩
  obtain ⟨read, framed, answered⟩ := answered_of_frame heads (length_of_dispatches done) fits
  exact ⟨dispatched, read, done, framed, answered⟩

private theorem oneResponseEach_of_none {t : Nat} (none_ : answered B (arriving t) = []) :
    OneResponseEach B app (arriving t) (sessions B app arriving s sched) t := by
  refine ⟨not_raise_sessions arriving t, fun written ended => ?_⟩
  obtain ⟨dispatched, done, rfl⟩ := dispatched_of_ret arriving ended
  have len := length_of_dispatches done
  rw [none_] at done len ⊢
  obtain rfl := List.length_eq_zero_iff.mp len
  exact ⟨[], [], done, rfl, .nil⟩

end Runs

section Constant

variable {P : AuthProvider} {U : Type} (app : App U) {router : Router (Handler U)}

/-- The route table answers every lookup. -/
def Routes (router : Router (Handler U)) : (o : Op U) → Ans o → Prop
  | .route method path, found => found = router.select method path
  | _, _ => True

private theorem dispatch_constant {answer : Request → Response} {req : Request}
    (answers : (router.select req.method (cut '?' req.target) = none ∧
        answer req = routeNotFound) ∨
      ∃ u, router.select req.method (cut '?' req.target) = some (.user u, none) ∧
        app.handler u ⟨req, none⟩ = .ret (answer req)) :
    (dispatch app req).Relies (Routes router) (fun o => ¬ registers o) (· = answer req) := by
  rw [dispatch_eq]
  refine ⟨fun no => no, fun found same => ?_⟩
  rcases answers with ⟨missing, absent⟩ | ⟨u, select, returns⟩
  · rw [same, missing]
    exact absent.symm
  · rw [same, select]
    change (invoke app (.user u) ⟨req, none⟩).Relies _ _ _
    rw [invoke_eq]
    refine ⟨fun no => no, fun _ _ => ?_⟩
    change (((app.handler u ⟨req, none⟩).interp ApiCall.code).tryCatch _).Relies _ _ _
    rw [returns]
    rfl

private theorem exists_written (B : Beast) (reqs : List Request) (answer : Request → Response)
    (answers : ∀ req, (router.select req.method (cut '?' req.target) = none ∧
        answer req = routeNotFound) ∨
      ∃ u, router.select req.method (cut '?' req.target) = some (.user u, none) ∧
        app.handler u ⟨req, none⟩ = .ret (answer req))
    {s : EngineState P U} (table : s.router = router) (env : Nat → EngineEnv P) :
    ∃ sched written, (sessions B app (fun _ => reqs) s sched).pool 0 = .ret written ∧
      ∀ dispatched, Follows (dispatches app (answered B reqs))
          ((sessions B app (fun _ => reqs) s sched).own 0) (.ret dispatched) →
        dispatched = (answered B reqs).map answer ∧
          written = stream B (answered B reqs) dispatched := by
  obtain ⟨sched, written, ended, -⟩ := Config.exists_play_ret (m := engine P U) (t := 0)
    (quiet_converse B app reqs) (Config.start (fun _ => converse B app reqs) s) env rfl
  have given : ∀ dispatched, Follows (dispatches app (answered B reqs))
      ((sessions B app (fun _ => reqs) s sched).own 0) (.ret dispatched) →
      dispatched = (answered B reqs).map answer := by
    intro dispatched done
    have each := dispatched_relies (fun _ => reqs) (t := 0)
      (J := fun s' : EngineState P U => s'.router = router) (Q := fun req res => res = answer req)
      table ?_ (fun _ req _ => dispatch_constant app (answers req)) done
    · clear done
      generalize answered B reqs = reqs at each
      induction each with
      | nil => rfl
      | cons here _ ih => rw [List.map_cons, ← ih, here]
    · intro env s' o same silent
      refine ⟨?_, (router_of_not_registers silent env s').trans same⟩
      cases o with
      | route method path =>
        rw [← same]
        rfl
      | _ => trivial
  refine ⟨sched, written, ended, fun dispatched done => ⟨given dispatched done, ?_⟩⟩
  obtain ⟨dispatched', done', rfl⟩ := dispatched_of_ret (fun _ => reqs) ended
  rw [given dispatched done, given dispatched' done']

end Constant

section Broken

/-- An application without handlers. -/
def noApp : App Empty := ⟨Payloads.Glaze.sample [] [], fun u => nomatch u⟩

/-- An engine that nothing was added to. -/
def bare : EngineState Gates.nobody Empty := fresh 0 ()

private theorem limits_bare (A : Str → Prop) (arrives : Request → Prop) :
    Limits A noApp arrives bare where
  sessions token entry found := by cases found
  provider choice state username password role accepted := by cases accepted
  handlers u := nomatch u

/-- In an engine without routes a session whose requests include a HEAD leaves a stream that
cannot be framed. -/
private theorem not_oneResponseEach_head (B : Beast) {reqs : List Request}
    (head : ∃ req ∈ answered B reqs, req.method = .head) :
    ∃ sched, ¬ OneResponseEach B noApp reqs (sessions B noApp (fun _ => reqs) bare sched) 0 := by
  obtain ⟨sched, written, ended, only⟩ := exists_written noApp B reqs (fun _ => routeNotFound)
    (fun _ => Or.inl ⟨rfl, rfl⟩) (s := bare) rfl Gates.still
  refine ⟨sched, ?_⟩
  rintro ⟨-, each⟩
  obtain ⟨dispatched, read, done, framed, -⟩ := each written ended
  obtain ⟨rfl, same⟩ := only dispatched done
  rw [same, frame_stream_head head] at framed
  cases framed

/-- An application whose one handler writes a text into a field. -/
def echo (value : Str) : App Unit :=
  ⟨Payloads.Glaze.sample [] [], fun _ _ => .ret ⟨.ok, 11, [("X-User".toList, value)], []⟩⟩

/-- An engine that serves one path with it. -/
def echoing (req : Request) : EngineState Gates.nobody Unit :=
  { (fresh 0 () : EngineState Gates.nobody Unit) with
    router := Router.empty.addRoute req.method (cut '?' req.target) (.user ()) none }

/-- Its answers to the requests of a session. -/
def echoed (req : Request) (value : Str) (r : Request) : Response :=
  if r.method = req.method ∧ cut '?' r.target = cut '?' req.target then
    ⟨.ok, 11, [("X-User".toList, value)], []⟩
  else routeNotFound

private theorem select_echoing (req r : Request) :
    (echoing req).router.select r.method (cut '?' r.target) =
      if r.method = req.method ∧ cut '?' r.target = cut '?' req.target then
        some (.user (), none)
      else none := by
  have exact : (echoing req).router.routes.lookup (r.method, cut '?' r.target) =
      if r.method = req.method ∧ cut '?' r.target = cut '?' req.target then
        some ⟨.user (), none⟩
      else none := by
    by_cases same : r.method = req.method ∧ cut '?' r.target = cut '?' req.target
    · rw [if_pos same, same.1, same.2]
      exact AList.lookup_insert _
    · rw [if_neg same]
      exact AList.lookup_insert_ne fun key => same (Prod.mk.inj key)
  rw [Router.select, exact]
  by_cases same : r.method = req.method ∧ cut '?' r.target = cut '?' req.target
  · rw [if_pos same, if_pos same]
  · rw [if_neg same, if_neg same]
    rfl

private theorem limits_echoing {A : Str → Prop} {value : Str} (mem : A value)
    (arrives : Request → Prop)
    (req : Request) : Limits A (echo value) arrives (echoing req) where
  sessions token entry found := by cases found
  provider choice state username password role accepted := by cases accepted
  handlers _ _ _ _ := by
    intro f hf
    rw [List.mem_singleton.mp hf]
    exact ⟨(by decide : PlainName "X-User".toList), mem⟩

private theorem not_oneResponseEach_echo (B : Beast) {reqs : List Request} {req : Request}
    (first : req ∈ answered B reqs) {value : Str} (breaks : ¬ Plain value) :
    ∃ sched, ¬ OneResponseEach B (echo value) reqs
      (sessions B (echo value) (fun _ => reqs) (echoing req) sched) 0 := by
  have answers : ∀ r : Request, ((echoing req).router.select r.method (cut '?' r.target) = none ∧
      echoed req value r = routeNotFound) ∨
      ∃ u, (echoing req).router.select r.method (cut '?' r.target) = some (.user u, none) ∧
        (echo value).handler u ⟨r, none⟩ = .ret (echoed req value r) := by
    intro r
    rw [select_echoing, echoed]
    split_ifs
    · exact Or.inr ⟨(), rfl, rfl⟩
    · exact Or.inl ⟨rfl, rfl⟩
  obtain ⟨sched, written, ended, only⟩ := exists_written (echo value) B reqs (echoed req value)
    answers rfl Gates.still
  refine ⟨sched, ?_⟩
  rintro ⟨-, each⟩
  obtain ⟨dispatched, read, done, framed, answered⟩ := each written ended
  obtain ⟨rfl, -⟩ := only dispatched done
  have plain := plain_of_answered answered (plain_of_frame framed) _ (List.mem_map_of_mem first)
  rw [echoed, if_pos ⟨rfl, rfl⟩] at plain
  exact breaks (plain ("X-User".toList, value) List.mem_cons_self)

end Broken

section Instance

/-- A HEAD and a GET on one connection. -/
def headThenGet : List Request :=
  [⟨.head, "/missing".toList, 11, [], []⟩, ⟨.get, "/missing".toList, 11, [], []⟩]

/-- An engine with /auth-check and one session. -/
def signedIn (username : Str) : EngineState Gates.nobody Empty :=
  { Gates.oneSession AccessList.Acl.empty ⟨username, .user⟩ with
    router := Router.empty.addRoute .get "/auth-check".toList .check none }

/-- A GET of /auth-check with the cookie of that session. -/
def checkVisit : Request := Gates.visit "/auth-check".toList []

/-- What that session is answered. -/
def Recognised (username : Str) : (o : Op Empty) → Ans o → Prop
  | .route _ _, found => found = some (.check, none)
  | .validate _, found => found.map TokenEntry.username = some username
  | _, _ => True

/-- A user's name that breaks its line is not read as it was written: with such a user a GET
alone is answered by something else than what its dispatch gave. -/
theorem user_breaks_header {username : Str} (breaks : ¬ Plain username) :
    ¬ OneResponseEach tokens noApp [checkVisit]
      (sessions tokens noApp (fun _ => [checkVisit]) (signedIn username)
        [(0, Gates.still 0), (0, Gates.still 0), (0, Gates.still 0), (0, Gates.still 0)]) 0 := by
  rintro ⟨-, each⟩
  obtain ⟨dispatched, read, done, framed, each⟩ := each _ rfl
  have token : Credentials.extractToken checkVisit ≠ [] := by
    rw [checkVisit, Gates.extractToken_visit]
    decide
  have code : (Stages.guardedCode noApp .check ⟨checkVisit, none⟩ : Code Empty Response) =
      .op (.validate (Credentials.extractToken checkVisit))
        (AuthEndpoints.checkSession checkVisit) := by
    have same : (AuthEndpoints.handleCheck checkVisit : Code Empty Response) = _ :=
      (handleCheck_eq checkVisit).trans (if_neg token)
    change (AuthEndpoints.handleCheck checkVisit : Code Empty Response).tryCatch _ = _
    rw [same, Prog.tryCatch_of_quiet]
    intro entry
    cases entry with
    | none => trivial
    | some entry => exact fun _ => trivial
  have checks : (dispatch noApp checkVisit).Relies (Recognised username) (fun _ => True)
      fun res => ∃ role, res = checkOk ⟨username, role⟩ := by
    rw [dispatch_eq]
    refine ⟨trivial, fun found same => ?_⟩
    rw [same]
    change (invoke noApp .check ⟨checkVisit, none⟩).Relies _ _ _
    rw [invoke_eq, code]
    refine ⟨trivial, fun _ _ => ⟨trivial, fun entry known => ?_⟩⟩
    obtain ⟨entry, rfl, rfl⟩ := Option.map_eq_some_iff.mp known
    exact ⟨trivial, fun _ _ => ⟨entry.role, rfl⟩⟩
  have all : (dispatches noApp (answered tokens [checkVisit])).Relies (Recognised username)
      (fun _ => True) fun dispatched => ∃ role, dispatched = [checkOk ⟨username, role⟩] :=
    Prog.relies_bind checks fun res ⟨role, same⟩ => ⟨role, by rw [same]⟩
  have met : ∀ e ∈ (sessions tokens noApp (fun _ => [checkVisit]) (signedIn username)
      [(0, Gates.still 0), (0, Gates.still 0), (0, Gates.still 0), (0, Gates.still 0)]).own 0,
      Recognised username e.op e.ans := by
    refine List.forall_mem_cons.mpr ⟨rfl, List.forall_mem_cons.mpr ⟨trivial,
      List.forall_mem_cons.mpr ⟨rfl, List.forall_mem_cons.mpr ⟨trivial, by simp⟩⟩⟩⟩
  obtain ⟨role, rfl⟩ := done.relies all met
  have plain := plain_of_answered each (plain_of_frame framed) _ List.mem_cons_self
  exact breaks (plain ("X-User".toList, username) List.mem_cons_self)

end Instance

end Webengine.Results.ResponseFraming
