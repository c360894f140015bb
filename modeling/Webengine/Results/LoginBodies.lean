/- source: backend/src/AuthHandler.cpp (handle_login), backend/src/TokenStore.hpp (issue)
   digest: Which login bodies log someone in: those the reader accepts, and those it stopped in
   after the credentials. -/

import Webengine.Engine.AuthEndpoints

set_option autoImplicit false
set_option relaxedAutoImplicit false

namespace Webengine.Results.LoginBodies

open Webengine.Engine.Roles
open Webengine.Engine.Messages
open Webengine.Engine.AccessList (Acl)
open Webengine.Engine.AuthEndpoints
open Webengine.Engine.Payloads
open Webengine.Engine.Providers (AuthProvider)
open Webengine.Engine.Routing (Router)
open Webengine.Engine.Sessions
open Webengine.Engine.Operations
open Webengine.Library.Machines

variable {P : AuthProvider} {U : Type}

/-- The header of the answers' session cookies. -/
def cookieField : Str := "Set-Cookie".toList

/-- The session, and no other change. -/
def AddsSession (before after : TokenStore) (token : Str) (entry : TokenEntry) : Prop :=
  after.store.lookup token = some entry ∧
    ∀ other, other ≠ token → after.store.lookup other = before.store.lookup other

/-- 200 with a session cookie, and exactly one session: that of its token, for the user. -/
def LogsIn (username : Str) (role : Role) (s : EngineState P U)
    (o : Outcome (engine P U) Str Response) : Prop :=
  ∃ res token expiresAt, o.result = .ok res ∧ res.status = .ok ∧
    res.fields.find cookieField =
      some ("session=".toList ++ token ++ "; HttpOnly; SameSite=Strict; Path=/".toList) ∧
    AddsSession s.tokens o.state.tokens token ⟨username, role, expiresAt⟩

/-- 401 without a cookie, and the sessions as they were. -/
def TurnsAway (s : EngineState P U) (o : Outcome (engine P U) Str Response) : Prop :=
  ∃ res, o.result = .ok res ∧ res.status = .unauthorized ∧ res.fields.find cookieField = none ∧
    o.state.tokens = s.tokens

section Inputs

variable (glz : Glaze) (req : Request) (s : EngineState P U) (env : Nat → EngineEnv P)

/-- What the provider says of the credentials the reader left; it is asked first. -/
def verdict : Except Str (Option Role) :=
  (P.authenticate (env 0).choice s.provider (loginName glz req) (loginPassword glz req)).1

/-- The reader accepts the body, the username is not empty and the provider knows the user. -/
def Accepted (role : Role) : Prop :=
  (glz.readLoginReq req.body).1 = false ∧ loginName glz req ≠ [] ∧
    verdict glz req s env = .ok (some role)

/-- The reader reports an error after it has read credentials the provider accepts. -/
def StoppedAfterCredentials : Prop :=
  (glz.readLoginReq req.body).1 = true ∧ loginName glz req ≠ [] ∧
    ∃ role, verdict glz req s env = .ok (some role)

/-- The provider is asked and throws. -/
def ProviderThrows : Prop :=
  loginName glz req ≠ [] ∧ ∃ what, verdict glz req s env = .error what

/-- Who is accepted is logged in, and nobody else. -/
structure OnlyAccepted (o : Outcome (engine P U) Str Response) : Prop where
  accepted : ∀ role, Accepted glz req s env role → LogsIn (loginName glz req) role s o
  otherwise : (∀ role, ¬ Accepted glz req s env role) → TurnsAway s o

end Inputs

section Answers

variable {glz : Glaze} {req : Request} {s : EngineState P U} {env : Nat → EngineEnv P}

/-- The run of POST /api/login. -/
abbrev login (glz : Glaze) (req : Request) (s : EngineState P U) (env : Nat → EngineEnv P) :
    Outcome (engine P U) Str Response :=
  run (engine P U) (handleLogin glz req) s env

private theorem find_invalidCredentials (glz : Glaze) :
    (invalidCredentials glz).fields.find cookieField = none := by
  have fields : (invalidCredentials glz).fields =
      [("Content-Type".toList, "application/json".toList),
        ("Content-Length".toList,
          decimal (glz.error "invalid credentials".toList).length)] := rfl
  rw [fields]
  rfl

private theorem turnsAway_of_nameless (nameless : loginName glz req = []) :
    TurnsAway s (login glz req s env) := by
  unfold login
  rw [handleLogin_eq, if_pos nameless]
  exact ⟨_, rfl, rfl, find_invalidCredentials glz, rfl⟩

private theorem turnsAway_of_unknown (named : loginName glz req ≠ [])
    (unknown : verdict glz req s env = .ok none) : TurnsAway s (login glz req s env) := by
  unfold login
  rw [handleLogin_eq, if_neg named, run_op]
  have answer : (engineStep (env 0) s
      (.authenticate (loginName glz req) (loginPassword glz req))).1 = .ok none := unknown
  simp only [answer, loginIssue, run_ret]
  exact ⟨_, rfl, rfl, find_invalidCredentials glz, rfl⟩

private theorem result_of_throws (named : loginName glz req ≠ []) {what : Str}
    (throws : verdict glz req s env = .error what) :
    (login glz req s env).result = .error what := by
  unfold login
  rw [handleLogin_eq, if_neg named, run_op]
  have answer : (engineStep (env 0) s
      (.authenticate (loginName glz req) (loginPassword glz req))).1 = .error what := throws
  simp only [answer, loginIssue, run_raise]

private theorem logsIn_of_known (named : loginName glz req ≠ []) {role : Role}
    (known : verdict glz req s env = .ok (some role)) {buf : Buffer}
    (drawn : (env 1).random = some buf) :
    LogsIn (loginName glz req) role s (login glz req s env) := by
  unfold login
  rw [handleLogin_eq, if_neg named, run_op]
  have answer : (engineStep (env 0) s
      (.authenticate (loginName glz req) (loginPassword glz req))).1 = .ok (some role) := known
  simp only [answer, loginIssue, run_op]
  have random : (engineStep (later env 0) (engineStep (env 0) s
      (.authenticate (loginName glz req) (loginPassword glz req))).2 (.randBytes (U := U))).1 =
      some buf := drawn
  simp only [random, loginStore, run_op, run_ret]
  refine ⟨_, tokenOf buf,
    s.now + (env 0).elapsed + (env 1).elapsed + (env 2).elapsed + sessionTtl, rfl, rfl,
    Fields.find_set _ _ _, ?_, fun other ne => ?_⟩
  · exact AList.lookup_insert _
  · exact AList.lookup_insert_ne ne

private theorem StoppedAfterCredentials.unaccepted (h : StoppedAfterCredentials glz req s env)
    (role : Role) : ¬ Accepted glz req s env role := by
  intro accepted
  have error := accepted.1
  rw [h.1] at error
  cases error

private theorem ProviderThrows.unaccepted (h : ProviderThrows glz req s env) (role : Role) :
    ¬ Accepted glz req s env role := by
  intro accepted
  obtain ⟨-, what, thrown⟩ := h
  have known := accepted.2.2
  rw [thrown] at known
  cases known

private theorem TurnsAway.not_logsIn {o : Outcome (engine P U) Str Response} (away : TurnsAway s o)
    (username : Str) (role : Role) : ¬ LogsIn username role s o := by
  intro inside
  obtain ⟨res, result, refused, -, -⟩ := away
  obtain ⟨res', token, expiresAt, result', success, -, -⟩ := inside
  rw [result] at result'
  cases result'
  rw [refused] at success
  cases success

end Answers

section Instance

/-- A provider that knows Alice. -/
def knowsAlice : AuthProvider :=
  @AuthProvider.readOnly Unit Unit fun _ s username password =>
    (.ok (if username = "alice".toList ∧ password = "user123".toList then some .user else none), s)

/-- Alice's credentials without the closing brace, and with it. -/
def truncated : Str := "\x7b\"username\":\"alice\",\"password\":\"user123\"".toList

def whole : Str := truncated ++ "\x7d".toList

/-- A library that has read both members when it finds that the brace is missing. -/
def memberwise : Glaze :=
  { Glaze.sample [] [] with
    readLoginReq := fun body =>
      if body = whole then (false, ⟨some "alice".toList, some "user123".toList⟩)
      else if body = truncated then (true, ⟨some "alice".toList, some "user123".toList⟩)
      else (true, ⟨none, none⟩) }

def post (body : Str) : Request := ⟨.post, "/api/login".toList, 11, [], body⟩

def noSessions : EngineState knowsAlice Empty := fresh 0 ()

def drawing : Nat → EngineEnv knowsAlice := fun _ =>
  ⟨0, some (Vector.replicate 32 7), (), fun _ => none⟩

end Instance

end Webengine.Results.LoginBodies
