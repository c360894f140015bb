/- source: backend/src/Router.cpp (dispatch), backend/src/TokenStore.hpp,
   backend/src/AuthHandler.cpp (handle_login, handle_logout), backend/src/util.hpp
   digest: In every run a guarded handler is entered only for the user of a login whose
   session is neither revoked nor older than eight hours; all other requests for its route
   are turned away. -/

import Webengine.Results.AdminOnly

set_option autoImplicit false
set_option relaxedAutoImplicit false

namespace Webengine.Results.SessionProvenance

open Webengine.Engine.Roles
open Webengine.Engine.Messages
open Webengine.Engine.AccessList
open Webengine.Engine.Credentials
open Webengine.Engine.Routing
open Webengine.Engine.Sessions
open Webengine.Engine.Operations
open Webengine.Engine.Dispatch
open Webengine.Engine.Stages
open Webengine.Engine.Footprints
open Webengine.Engine.Issuance
open Webengine.Engine.Providers (AuthProvider)
open Webengine.Library.Interleavings
open Webengine.Library.Machines

variable {P : AuthProvider} {U : Type}

/-- At the validation `v` of this history the token of the request is that of a login of
`user`, not written again or revoked since, and no older than eight hours. -/
def SessionOf (app : App U) (threads : Nat → Thread U) (pre : List (Event (engine P U)))
    (v : Event (engine P U)) (req : Request) (user : UserInfo) : Prop :=
  ∃ before i between after, pre = before ++ i :: between ++ v :: after ∧
    v.op = .validate (extractToken req) ∧
    Login app threads before i (extractToken req) user ∧
    (∀ e ∈ between, ¬ touches (extractToken req) e.op) ∧ time v ≤ time i + hours 8

/-- How a request comes to the entry of a handler: through a public route and without a
user, or through a guarded one and as the user of its session. -/
def Authorized (app : App U) (threads : Nat → Thread U) (pre : List (Event (engine P U)))
    (t : Nat) (req : Request) (hd : Handler U) (ctx : RequestContext) : Prop :=
  (∃ r, own pre t = [r] ∧ Routed r req (some (hd, none)) ∧ ctx.user = none) ∨
  ∃ r v need user, own pre t = [r, v] ∧ Routed r req (some (hd, some need)) ∧
    ctx.user = some user ∧ roleSatisfies user.role need = true ∧
    SessionOf app threads pre v req user

section Runs

variable {app : App U} {threads : Nat → Thread U} {s₀ : EngineState P U}
  {sched : List (Nat × EngineEnv P)} {pre post : List (Event (engine P U))}
  {e : Event (engine P U)}

private theorem sessionOf_of_validated (empty : s₀.tokens = TokenStore.empty)
    (h : (serve app threads s₀ sched).log = pre ++ e :: post) {v : Event (engine P U)}
    (hv : v ∈ pre) {req : Request} {entry : TokenEntry} (live : Validated v req (some entry)) :
    SessionOf app threads pre v req ⟨entry.username, entry.role⟩ := by
  obtain ⟨upTo, after, rfl⟩ := List.append_of_mem hv
  rw [List.append_assoc, List.cons_append] at h
  obtain ⟨before, i, between, rfl, login, quiet, inTime⟩ := login_of_validated empty h live
  exact ⟨before, i, between, after, rfl, live.1, login, quiet, inTime⟩

theorem authorized_of_call (empty : s₀.tokens = TokenStore.empty)
    (h : (serve app threads s₀ sched).log = pre ++ e :: post) {hd : Handler U}
    {ctx : RequestContext} (hop : e.op = .call hd ctx) :
    ∃ req, threads e.tid = .request req ∧ ctx.request = req ∧
      Authorized app threads pre e.tid req hd ctx := by
  obtain ⟨req, ht, entered⟩ := entered_of_call h hop
  refine ⟨req, ht, entered.request, ?_⟩
  generalize steps : own pre e.tid = l at entered
  cases entered with
  | @unguarded r _ found => exact Or.inl ⟨r, steps, found, rfl⟩
  | @guarded r v _ need entry found token live ok =>
    have hv : v ∈ pre := (mem_of_own (t := e.tid) (by rw [steps]; simp)).1
    exact Or.inr ⟨r, v, need, _, steps, found, rfl, ok, sessionOf_of_validated empty h hv live⟩

private theorem routed_unique {r : Event (engine P U)} {req : Request}
    {found found' : Option (Handler U × Option Role)} (h : Routed r req found)
    (h' : Routed r req found') : found = found' :=
  h.2.symm.trans h'.2

/-- A request was turned away from a route with this role: it presents no token or one without a
live session, or the role of its session is too low. -/
def Refused (req : Request) (need : Role) (steps : List (Event (engine P U))) (res : Response) :
    Prop :=
  (res.status = .unauthorized ∧
    (extractToken req = [] ∨ ∃ v ∈ steps, Validated v req none)) ∨
  (res.status = .forbidden ∧ ∃ v ∈ steps, ∃ entry, Validated v req (some entry) ∧
    roleSatisfies entry.role need = false)

private theorem refused_of_turnedAway {req : Request} {r : Event (engine P U)}
    {rest : List (Event (engine P U))} {res : Response} (away : TurnedAway app req (r :: rest) res)
    {hd : Handler U} {need : Role} (found : Routed r req (some (hd, some need))) :
    Refused req need (r :: rest) res := by
  generalize hl : r :: rest = l at away
  cases away with
  | noToken found' none => exact Or.inl ⟨rfl, Or.inl none⟩
  | noSession found' live => exact Or.inl ⟨rfl, Or.inr ⟨_, by simp, live⟩⟩
  | lowRole found' live low =>
    cases hl
    cases routed_unique found found'
    exact Or.inr ⟨rfl, _, by simp, _, live, low⟩

private theorem routed_of_done {t : Nat} {req : Request} {res : Response}
    (ht : threads t = .request req)
    (done : (serve app threads s₀ sched).pool t = .ret res) :
    ∃ r rest found, own (serve app threads s₀ sched).log t = r :: rest ∧ Routed r req found := by
  have stage : Stage app req (own (serve app threads s₀ sched).log t) _ := stage_of_serve ht
  rw [done] at stage
  generalize own (serve app threads s₀ sched).log t = l at stage
  generalize hq : Library.Programs.Prog.ret res = q at stage
  cases stage with
  | arriving =>
    rw [dispatch_eq] at hq
    cases hq
  | notFound found => exact ⟨_, _, _, rfl, found⟩
  | checking found => exact ⟨_, _, _, rfl, found⟩
  | turnedAway away =>
    cases away with
    | noToken found => exact ⟨_, _, _, rfl, found⟩
    | noSession found => exact ⟨_, _, _, rfl, found⟩
    | lowRole found => exact ⟨_, _, _, rfl, found⟩
  | entering entered =>
    rw [invoke_eq] at hq
    cases hq
  | inside entered =>
    cases entered with
    | unguarded found => exact ⟨_, _, _, rfl, found⟩
    | guarded found => exact ⟨_, _, _, rfl, found⟩

private theorem entered_or_turnedAway {t : Nat} {req : Request} {res : Response}
    (ht : threads t = .request req) (done : (serve app threads s₀ sched).pool t = .ret res)
    {r : Event (engine P U)} {rest : List (Event (engine P U))}
    (steps : own (serve app threads s₀ sched).log t = r :: rest) {hd : Handler U} {need : Role}
    (found : Routed r req (some (hd, some need))) :
    (∃ c ∈ rest, ∃ ctx, c.op = .call hd ctx) ∨
      ((∀ e ∈ r :: rest, ∀ hd ctx, e.op ≠ .call hd ctx) ∧ TurnedAway app req (r :: rest) res ∧
        Refused req need (r :: rest) res) := by
  have stage : Stage app req (own (serve app threads s₀ sched).log t) _ := stage_of_serve ht
  rw [done, steps] at stage
  generalize hl : r :: rest = l at stage
  generalize hq : Library.Programs.Prog.ret res = q at stage
  cases stage with
  | arriving => cases hl
  | @notFound r' found' =>
    cases hl
    exact absurd (routed_unique found found') (by simp)
  | @checking r' h need' found' token =>
    rw [enforce_eq, if_neg token] at hq
    cases hq
  | @turnedAway l res' away =>
    cases hq
    subst hl
    exact Or.inr ⟨fun e he => away.not_call he, away, refused_of_turnedAway away found⟩
  | @entering l h ctx entered =>
    rw [invoke_eq] at hq
    cases hq
  | @inside l₀ l' c h ctx q entered hc inner =>
    left
    cases entered with
    | @unguarded r' _ found' =>
      cases hl
      exact absurd (routed_unique found found') (by simp)
    | @guarded r' v _ need' entry found' token live ok =>
      cases hl
      have same := routed_unique found found'
      cases same
      exact ⟨c, by simp, _, hc⟩

end Runs

/-- Session provenance, for every engine and every interleaving of what runs on it: a
handler is entered without a user through a public route, and through a guarded one only as
the user of a login whose session is live; a finished request has looked up its route first, and
one that met a guarded route and did not enter its handler has been answered 401 for want of a live
session, or 403 for its role; none ends in an exception. -/
theorem session_provenance (app : App U) (threads : Nat → Thread U) (now : TimePoint)
    (provider : P.State) (acl : Acl) (router : Router (Handler U))
    (sched : List (Nat × EngineEnv P)) :
    (∀ pre e post hd ctx,
      (serve app threads ⟨now, provider, TokenStore.empty, acl, router⟩ sched).log =
        pre ++ e :: post → e.op = .call hd ctx →
      ∃ req, threads e.tid = .request req ∧ ctx.request = req ∧
        Authorized app threads pre e.tid req hd ctx) ∧
    (∀ t req res, threads t = .request req →
      (serve app threads ⟨now, provider, TokenStore.empty, acl, router⟩ sched).pool t =
        .ret res →
      ∃ r rest found,
        own (serve app threads ⟨now, provider, TokenStore.empty, acl, router⟩ sched).log t =
          r :: rest ∧ Routed r req found) ∧
    (∀ t req res r rest hd need, threads t = .request req →
      (serve app threads ⟨now, provider, TokenStore.empty, acl, router⟩ sched).pool t =
        .ret res →
      own (serve app threads ⟨now, provider, TokenStore.empty, acl, router⟩ sched).log t =
        r :: rest →
      Routed r req (some (hd, some need)) →
      (∃ c ∈ rest, ∃ ctx, c.op = .call hd ctx) ∨
        ((∀ e ∈ r :: rest, ∀ hd ctx, e.op ≠ .call hd ctx) ∧
          TurnedAway app req (r :: rest) res ∧ Refused req need (r :: rest) res)) ∧
    (∀ t req x, threads t = .request req →
      (serve app threads ⟨now, provider, TokenStore.empty, acl, router⟩ sched).pool t ≠
        .raise x) := by
  refine ⟨?_, ?_, ?_, ?_⟩
  · intro pre e post hd ctx h hop
    exact authorized_of_call rfl h hop
  · intro t req res ht done
    exact routed_of_done ht done
  · intro t req res r rest hd need ht done steps found
    exact entered_or_turnedAway ht done steps found
  · intro t req x ht
    exact (stage_of_serve ht).not_raise

section Instance

open Webengine.Results.AdminOnly (inertApp loginRequest oneAdmin oneDraw sampleGlaze)

def privateApp : App Unit :=
  inertApp sampleGlaze fun _ _ => .ok (text .ok "private".toList)

/-- The login, and one handler behind the highest role. -/
def privateRouter : Router (Handler Unit) :=
  (Router.empty.addRoute .post "/api/login".toList .login none).addRoute .get
    "/api/private".toList (.user ()) (some .admin)

def visitPrivate (fields : List (Str × Str)) : Request :=
  ⟨.get, "/api/private".toList, 11, fields, []⟩

def sessionCookie : Str × Str :=
  ("Cookie".toList, "session=".toList ++ tokenOf (Vector.replicate 32 7))

/-- A login, a request with its cookie, and one without. -/
def privateThreads : Nat → Thread Unit
  | 0 => .request loginRequest
  | 1 => .request (visitPrivate [sessionCookie])
  | _ => .request (visitPrivate [])

def privateRun (steps : List Nat) : Config (engine oneAdmin Unit) Str Response :=
  serve privateApp privateThreads ⟨0, (), TokenStore.empty, Acl.empty, privateRouter⟩
    (steps.map fun t => (t, oneDraw))

def privateContext : RequestContext := ⟨visitPrivate [sessionCookie], some ⟨"root".toList, .admin⟩⟩

/-- The entry of the handler, the last step of the run. -/
def privateCall : Event (engine oneAdmin Unit) where
  tid := 1
  pre := (privateRun [0, 0, 0, 0, 0, 2, 1, 1]).state
  env := oneDraw
  op := .call (.user ()) privateContext

/-- The only step of the request without a cookie. -/
def strayLookup : Event (engine oneAdmin Unit) where
  tid := 2
  pre := (privateRun [0, 0, 0, 0, 0]).state
  env := oneDraw
  op := .route .get "/api/private".toList

private theorem privateRun_split : (privateRun ([0, 0, 0, 0, 0, 2, 1, 1] ++ [1])).log =
    (privateRun [0, 0, 0, 0, 0, 2, 1, 1]).log ++ privateCall :: [] := by
  obtain ⟨k, next⟩ : ∃ k, (privateRun [0, 0, 0, 0, 0, 2, 1, 1]).pool 1 =
      .op (.call (.user ()) privateContext) k := ⟨_, rfl⟩
  have last : privateRun ([0, 0, 0, 0, 0, 2, 1, 1] ++ [1]) =
      (privateRun [0, 0, 0, 0, 0, 2, 1, 1]).step 1 oneDraw := by
    unfold privateRun
    rw [List.map_append]
    exact Config.play_snoc _ _ _
  rw [last, Config.step_op next, privateCall]

/-- The theorem at that run: the request with the cookie enters as the user of the login, the other
is answered 401. -/
theorem session_provenance_private :
    Authorized privateApp privateThreads (privateRun [0, 0, 0, 0, 0, 2, 1, 1]).log 1
      (visitPrivate [sessionCookie]) (.user ()) privateContext ∧
    Refused (visitPrivate []) .admin [strayLookup] (authenticationRequired privateApp) := by
  have split := privateRun_split
  unfold privateRun at split
  obtain ⟨entered, -, ended, -⟩ := session_provenance (P := oneAdmin) privateApp
    privateThreads 0 () Acl.empty privateRouter
    (([0, 0, 0, 0, 0, 2, 1, 1] ++ [1]).map fun t => (t, oneDraw))
  refine ⟨?_, ?_⟩
  · obtain ⟨req, same, -, authorized⟩ := entered _ privateCall [] _ _ split rfl
    cases same
    exact authorized
  · have done : (privateRun ([0, 0, 0, 0, 0, 2, 1, 1] ++ [1])).pool 2 =
        .ret (authenticationRequired privateApp) := rfl
    have first : own (privateRun ([0, 0, 0, 0, 0, 2, 1, 1] ++ [1])).log 2 = [strayLookup] := rfl
    have found : Routed strayLookup (visitPrivate []) (some (.user (), some .admin)) :=
      ⟨rfl, rfl⟩
    unfold privateRun at done first
    obtain ⟨c, hc, -⟩ | ⟨-, -, refused⟩ := ended 2 _ _ strayLookup [] _ _ rfl done first found
    · cases hc
    · exact refused

end Instance

end Webengine.Results.SessionProvenance
