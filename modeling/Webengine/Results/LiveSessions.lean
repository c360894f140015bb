/- source: backend/src/AuthHandler.cpp, backend/src/Router.cpp (dispatch),
   backend/src/TokenStore.hpp, backend/src/util.hpp
   digest: The session a login hands out works until its logout, or for eight hours: every gate
   knows its user up to then, and nobody from then on. -/

import Webengine.Library.Traces
import Webengine.Results.Registrations
import Webengine.Results.SessionLives

set_option autoImplicit false
set_option relaxedAutoImplicit false

namespace Webengine.Results.LiveSessions

open Webengine.Engine.Roles
open Webengine.Engine.Messages
open Webengine.Engine.Credentials
open Webengine.Engine.Payloads
open Webengine.Engine.Sessions
open Webengine.Engine.Operations
open Webengine.Engine.AuthEndpoints
open Webengine.Engine.Dispatch
open Webengine.Engine.Stages
open Webengine.Engine.Footprints
open Webengine.Engine.Issuance
open Webengine.Engine.Providers (AuthProvider)
open Webengine.Library.Interleavings
open Webengine.Library.Machines
open Webengine.Library.Programs (Prog)
open Webengine.Library.Hex (hexText hexValue isSome_hexValue_of_mem_hexText)
open Webengine.Library.Texts
open Webengine.Results.AdminOnly (SetupCall configured inertApp serving FreshDraws routeKey)
open Webengine.Results.Registrations (registered)

variable {P : AuthProvider} {U : Type}

/-- The access list refuses the role at the path. -/
def Refused (a : Event (engine P U)) (role : Role) (path : Str) : Prop :=
  a.op = .authorize role path ∧ a.pre.acl.authorize role path = false

/-- The step of a logout that presents the token as its session cookie. -/
def LogsOut (reqs : Nat → Request) (token : Str) (e : Event (engine P U)) : Prop :=
  e.op = .revoke token ∧ routeKey (reqs e.tid) = (.post, "/api/logout".toList) ∧
    ∃ cookie, (reqs e.tid).find "Cookie".toList = some cookie ∧
      extractCookie cookie "session".toList = token

/-- At the step `v` the session stored at `i` has not ended: the steps between are no logout of it,
and eight hours have not passed. -/
def Alive (reqs : Nat → Request) (token : Str) (i : Event (engine P U))
    (between : List (Event (engine P U))) (v : Event (engine P U)) : Prop :=
  (∀ e ∈ between, ¬ LogsOut reqs token e) ∧ time v ≤ time i + hours 8

/-- After the steps `x` the session that was stored at `i`, after `before`, is there. -/
def There (reqs : Nat → Request) (token : Str) (before : List (Event (engine P U)))
    (i : Event (engine P U)) (x : List (Event (engine P U))) (v : Event (engine P U)) : Prop :=
  ∃ between, x = before ++ i :: between ∧ Alive reqs token i between v

/-- The steps that store a session. -/
def stores : Op U → Bool
  | .insert _ _ _ _ => true
  | _ => false

/-- The routes at which tokens are looked up: behind a role, `/auth-check`, and gated files. -/
def Gated : Handler U × Option Role → Prop
  | (_, some _) => True
  | (.check, none) => True
  | (.protectedFile _ _, none) => True
  | _ => False

/-- What a request for this route does and is answered after its token was looked up, for the
user of the session or for nobody: behind a role, at `/auth-check`, and for a gated file. -/
inductive Answered (app : App U) (req : Request) :
    Handler U × Option Role → Option UserInfo → List (Event (engine P U)) → Response → Prop
  | nobody {h : Handler U} {need : Role} :
      Answered app req (h, some need) none [] (authenticationRequired app)
  | lowRole {h : Handler U} {need : Role} {user : UserInfo} :
      roleSatisfies user.role need = false →
      Answered app req (h, some need) (some user) [] (insufficientPermissions app)
  | entered {h : Handler U} {need : Role} {user : UserInfo} {c : Event (engine P U)}
      {l : List (Event (engine P U))} {res : Response} : roleSatisfies user.role need = true →
      c.op = .call h ⟨req, some user⟩ →
      Answered app req (h, some need) (some user) (c :: l) res
  | unauthorized : Answered app req (.check, none) none [] (statusResponse .unauthorized)
  | checked {user : UserInfo} {g : Event (engine P U)} : originalUri req = [] →
      g.op = .pass user → Answered app req (.check, none) (some user) [g] (checkOk user)
  | allowed {user : UserInfo} {a g : Event (engine P U)} : originalUri req ≠ [] →
      Allowed a user.role (originalUri req) → g.op = .pass user →
      Answered app req (.check, none) (some user) [a, g] (checkOk user)
  | forbidden {user : UserInfo} {a : Event (engine P U)} : originalUri req ≠ [] →
      Refused a user.role (originalUri req) →
      Answered app req (.check, none) (some user) [a] (statusResponse .forbidden)
  | redirected {fsRoot p : Str} :
      Answered app req (.protectedFile fsRoot p, none) none [] (redirect req)
  | opened {fsRoot p : Str} {user : UserInfo} {a g : Event (engine P U)}
      {l : List (Event (engine P U))} {res : Response} :
      Allowed a user.role (cut '?' req.target) → g.op = .pass user →
      Answered app req (.protectedFile fsRoot p, none) (some user) (a :: g :: l) res
  | denied {fsRoot p : Str} {user : UserInfo} {a : Event (engine P U)} :
      Refused a user.role (cut '?' req.target) →
      Answered app req (.protectedFile fsRoot p, none) (some user) [a] accessDenied

/-- Whom the store found. -/
def userOf (found : Option TokenEntry) : Option UserInfo :=
  found.map fun entry => ⟨entry.username, entry.role⟩

section Gates

variable {app : App U} {req : Request} {l : List (Event (engine P U))} {res : Response}
  {found : Option TokenEntry}

private theorem answered_of_enforced {h : Handler U} {need : Role}
    (follows : Follows (enforced app req h need found) l (.ret res)) :
    Answered app req (h, some need) (userOf found) l res := by
  cases found with
  | none =>
    obtain ⟨rfl, same⟩ := follows.of_ret
    cases same
    exact .nobody
  | some entry =>
    rw [enforced] at follows
    by_cases ok : roleSatisfies entry.role need = true
    · rw [if_pos ok, invoke_eq] at follows
      obtain ⟨t, s, env, l, rfl, -⟩ := follows.op_ret
      exact .entered ok rfl
    · rw [if_neg ok] at follows
      obtain ⟨rfl, same⟩ := follows.of_ret
      cases same
      exact .lowRole (Bool.eq_false_iff.mpr ok)

theorem asked (user : UserInfo) {path : Str} {k : Bool → Code U Response}
    (follows : Follows (.op (.authorize user.role path) k) l (.ret res)) :
    ∃ a l', l = a :: l' ∧ ((Allowed a user.role path ∧ Follows (k true) l' (.ret res)) ∨
      (Refused a user.role path ∧ Follows (k false) l' (.ret res))) := by
  obtain ⟨t, s, env, l', rfl, rest⟩ := follows.op_ret
  change Follows (k (s.acl.authorize user.role path)) l' _ at rest
  refine ⟨_, l', rfl, ?_⟩
  cases answer : s.acl.authorize user.role path with
  | true => exact Or.inl ⟨⟨rfl, answer⟩, answer ▸ rest⟩
  | false => exact Or.inr ⟨⟨rfl, answer⟩, answer ▸ rest⟩

private theorem answered_of_checkSession (follows : Follows (checkSession req found) l (.ret res)) :
    Answered app req (.check, none) (userOf found) l res := by
  cases found with
  | none =>
    obtain ⟨rfl, same⟩ := follows.of_ret
    cases same
    exact .unauthorized
  | some entry =>
    rw [checkSession] at follows
    by_cases uri : originalUri req = []
    · rw [if_pos uri] at follows
      obtain ⟨t, s, env, l, rfl, rest⟩ := Follows.op_ret follows
      obtain ⟨rfl, same⟩ := rest.of_ret
      cases same
      exact .checked uri rfl
    · rw [if_neg uri] at follows
      obtain ⟨a, l, rfl, ⟨ok, rest⟩ | ⟨refused, rest⟩⟩ :=
        asked ⟨entry.username, entry.role⟩ follows
      · obtain ⟨t, s, env, l, rfl, passed⟩ := Follows.op_ret rest
        obtain ⟨rfl, same⟩ := passed.of_ret
        cases same
        exact .allowed uri ok rfl
      · obtain ⟨rfl, same⟩ := rest.of_ret
        cases same
        exact .forbidden uri refused

private theorem answered_of_protectedSession {fsRoot p : Str}
    (follows : Follows (protectedSession req fsRoot p found) l (.ret res)) :
    Answered app req (.protectedFile fsRoot p, none) (userOf found) l res := by
  cases found with
  | none =>
    obtain ⟨rfl, same⟩ := follows.of_ret
    cases same
    exact .redirected
  | some entry =>
    obtain ⟨a, l, rfl, ⟨ok, rest⟩ | ⟨refused, rest⟩⟩ :=
      asked ⟨entry.username, entry.role⟩ follows
    · obtain ⟨t, s, env, l, rfl, -⟩ := Follows.op_ret rest
      exact .opened ok rfl
    · obtain ⟨rfl, same⟩ := rest.of_ret
      cases same
      exact .denied refused

/-- No gate looks a token up again. -/
def later (o : Op U) : Prop := ∀ token, o ≠ .validate token

private theorem later_checkSession : (checkSession req found : Code U Response).Only later := by
  have answer : ∀ entry allowed, (checkAnswer entry allowed : Code U Response).Only later := by
    intro entry allowed
    cases allowed with
    | false => trivial
    | true => exact ⟨by simp [later], fun _ => trivial⟩
  cases found with
  | none => trivial
  | some entry =>
    rw [checkSession]
    split
    · exact answer entry true
    · exact ⟨by simp [later], answer entry⟩

private theorem quiet_checkSession : (checkSession req found : Code U Response).Quiet := by
  have answer : ∀ entry allowed, (checkAnswer entry allowed : Code U Response).Quiet := by
    intro entry allowed
    cases allowed with
    | false => trivial
    | true => exact fun _ => trivial
  cases found with
  | none => trivial
  | some entry =>
    rw [checkSession]
    split
    · exact answer entry true
    · exact answer entry

private theorem later_protectedSession (fsRoot p : Str) :
    (protectedSession req fsRoot p found : Code U Response).Only later := by
  cases found with
  | none => trivial
  | some entry =>
    refine ⟨by simp [later], fun allowed => ?_⟩
    rw [protectedAnswer]
    split
    · refine ⟨by simp [later], fun _ => ?_⟩
      split
      · trivial
      · exact ⟨by simp [later], fun _ => trivial⟩
    · trivial

private theorem quiet_protectedSession (fsRoot p : Str) :
    (protectedSession req fsRoot p found : Code U Response).Quiet := by
  cases found with
  | none => trivial
  | some entry =>
    intro allowed
    rw [protectedAnswer]
    split
    · intro _
      split
      · trivial
      · exact fun _ => trivial
    · trivial

private theorem quiet_handleCheck : (handleCheck req : Code U Response).Quiet := by
  rw [handleCheck_eq]
  split
  · exact quiet_checkSession
  · exact fun _ => quiet_checkSession

theorem quiet_handleProtectedFile (fsRoot p : Str) :
    (handleProtectedFile req fsRoot p : Code U Response).Quiet := by
  rw [handleProtectedFile_eq]
  split
  · exact quiet_protectedSession fsRoot p
  · exact fun _ => quiet_protectedSession fsRoot p

private theorem validated_first {gate : Option TokenEntry → Code U Response}
    (closed : ∃ res, gate none = .ret res) (once : ∀ found, (gate found).Only later)
    {v : Event (engine P U)} {l' : List (Event (engine P U))} {q : Code U Response}
    (follows : Follows (if extractToken req = [] then gate none
      else .op (.validate (extractToken req)) gate) (l ++ v :: l') q)
    {token : Str} (hop : v.op = .validate token) :
    l = [] ∧ ∃ found, Validated v req found ∧ Follows (gate found) l' q := by
  obtain ⟨shut, closed⟩ := closed
  split at follows
  · rw [closed] at follows
    exact absurd follows.of_ret.1 (by simp)
  obtain ⟨none, -⟩ | ⟨t, s, env, rest, split, follows⟩ := follows.of_op
  · exact absurd none (by simp)
  cases l with
  | nil =>
    cases split
    exact ⟨rfl, _, ⟨rfl, by rw [time_eq]; rfl⟩, follows⟩
  | cons first l =>
    obtain ⟨-, rfl⟩ := List.cons_eq_cons.mp split
    exact absurd hop ((follows.only (once _)).1 v (by simp) token)

end Gates

/-- What looks tokens up itself is registered without a role. -/
def Public (token : Str) : RouterTables.RouterCall (Handler U) → Prop
  | .addRoute _ _ h minRole => performs h (.validate token) → minRole = none
  | .addPrefixRoute _ _ h minRole => performs h (.validate token) → minRole = none
  | .setRouteRole _ _ => True

private theorem public_registers (token : Str) (c : SetupCall U) :
    ∀ r ∈ Registrations.registers c, Public token r := by
  cases c <;> simp [Registrations.registers, Registrations.exactRoute, authRoutes, adminRoutes,
    Public, performs, configures]

theorem public_of_registered {calls : List (SetupCall U)} {method : Verb} {path : Str}
    {h : Handler U} {minRole : Option Role}
    (select : (registered calls).select method path = some (h, minRole))
    {token : Str} (looks : performs h (.validate token)) : minRole = none := by
  rcases Registrations.mem_of_registered select with entry | ⟨p, -, entry⟩
  all_goals
    obtain ⟨c, -, entry⟩ := List.mem_flatMap.mp entry
    exact public_registers token c _ entry looks

section Runs

variable {glaze : Glaze} {handler : U → RequestContext → Except Str Response}
  {reqs : Nat → Request} {calls : List (SetupCall U)} {now : TimePoint} {provider : P.State}
  {env : Nat → EngineEnv P} {sched : List (Nat × EngineEnv P)}
  {pre post : List (Event (engine P U))} {e v : Event (engine P U)}

private theorem own_middle (pre post : List (Event (engine P U))) (e : Event (engine P U)) :
    own (pre ++ e :: post) e.tid = own pre e.tid ++ e :: own post e.tid := by
  simp [own]

theorem dispatched (t : Nat) : Follows (dispatch (inertApp glaze handler) (reqs t))
    (own (serving glaze handler reqs (configured calls now provider env) sched).log t)
    ((serving glaze handler reqs (configured calls now provider env) sched).pool t) :=
  Config.play_follows (m := engine P U) (fun t => dispatch (inertApp glaze handler) (reqs t))
    (configured calls now provider env) sched t

/-- Each lookup of a token is the guard of a route, or of a gate, and decides what its request is
answered. -/
private theorem answered_of_validate
    (h : (serving glaze handler reqs (configured calls now provider env) sched).log =
      pre ++ v :: post) {token : Str} (hop : v.op = .validate token) :
    ∃ found route, Validated v (reqs v.tid) found ∧
      (registered calls).select (reqs v.tid).method (cut '?' (reqs v.tid).target) = some route ∧
      ∀ res, (serving glaze handler reqs (configured calls now provider env) sched).pool v.tid =
          .ret res →
        Answered (inertApp glaze handler) (reqs v.tid) route (userOf found) (own post v.tid)
          res := by
  have follows : Follows (dispatch (inertApp glaze handler) (reqs v.tid)) _
      ((serving glaze handler reqs (configured calls now provider env) sched).pool v.tid) :=
    dispatched v.tid
  rw [h, own_middle] at follows
  obtain ⟨k, first, rest⟩ := follows.split
  have seen : ∀ r ∈ own pre v.tid,
      r ∈ (serving glaze handler reqs (configured calls now provider env) sched).log :=
    fun r hr => h ▸ List.mem_append_left _ (mem_of_own hr).1
  have stage := stage_of_follows first
  generalize hl : own pre v.tid = l at stage seen
  obtain ⟨t, s, env', o⟩ := v
  change o = .validate token at hop
  subst hop
  generalize hq : Prog.op _ k = p at stage
  cases stage with
  | arriving =>
    rw [dispatch_eq] at hq
    cases hq
  | notFound => cases hq
  | @checking r hd need routed token' =>
    rw [enforce_eq, if_neg token'] at hq
    injection hq with same hk
    injection same with same
    have same : token = extractToken (reqs t) := same
    subst same
    cases hk
    refine ⟨_, _, ⟨rfl, rfl⟩,
      Registrations.registered_of_routed (seen r (by simp)) routed, ?_⟩
    intro res done
    rw [done] at rest
    exact answered_of_enforced rest
  | turnedAway => cases hq
  | entering => cases hq
  | @inside l₀ l' c hd ctx _ entered hc inner =>
    subst hq
    obtain ⟨k', handled⟩ := inner.of_tryCatch_op
    have looks : performs hd (.validate token) :=
      (handled.only (handlerCode_only (inertApp glaze handler) hd ctx)).2.1
    cases entered with
    | @guarded r g _ need entry routed token' live ok =>
      have select := Registrations.registered_of_routed (seen r (by simp)) routed
      cases public_of_registered select looks
    | @unguarded r _ routed =>
      have select := Registrations.registered_of_routed (seen r (by simp)) routed
      have code : Follows _ (l' ++ ⟨t, s, env', .validate token⟩ :: own post t) _ :=
        inner.trans (.cons rest)
      cases hd with
      | check =>
        change Follows ((handleCheck (reqs t)).tryCatch _) _ _ at code
        rw [Prog.tryCatch_of_quiet quiet_handleCheck, handleCheck_eq] at code
        obtain ⟨-, found, validated, follows⟩ :=
          validated_first ⟨_, rfl⟩ (fun _ => later_checkSession) code rfl
        exact ⟨found, _, validated, select, fun res done =>
          answered_of_checkSession (done ▸ follows)⟩
      | protectedFile fsRoot p =>
        change Follows ((handleProtectedFile (reqs t) fsRoot p).tryCatch _) _ _ at code
        rw [Prog.tryCatch_of_quiet (quiet_handleProtectedFile fsRoot p),
          handleProtectedFile_eq] at code
        obtain ⟨-, found, validated, follows⟩ :=
          validated_first ⟨_, rfl⟩ (fun _ => later_protectedSession fsRoot p) code rfl
        exact ⟨found, _, validated, select, fun res done =>
          answered_of_protectedSession (done ▸ follows)⟩
      | _ => exact looks.elim

private theorem stored_of_ok {req : Request} {l : List (Event (engine P U))} {res : Response}
    (follows : Follows (handleLogin glaze req) l (.ret res)) (ok : res.status = .ok) :
    ∃ a b i buf role, l = [a, b, i] ∧
      Accepted a (loginName glaze req) (loginPassword glaze req) role ∧
      Drew b buf ∧ i.op = .insert (tokenOf buf) (loginName glaze req) role sessionTtl ∧
      res = loginOk (tokenOf buf) := by
  have unauthorized : res ≠ invalidCredentials glaze := by
    rintro rfl
    cases ok
  rw [handleLogin_eq] at follows
  split at follows
  · exact absurd (Prog.ret.inj follows.of_ret.2) unauthorized
  obtain ⟨t, s, env, l, rfl, asked⟩ := follows.op_ret
  change Follows (loginIssue glaze (loginName glaze req) (P.authenticate env.choice s.provider
    (loginName glaze req) (loginPassword glaze req)).1) l _ at asked
  cases answer : (P.authenticate env.choice s.provider (loginName glaze req)
      (loginPassword glaze req)).1 with
  | error x =>
    rw [answer] at asked
    cases asked.of_raise.2
  | ok found =>
    rw [answer] at asked
    cases found with
    | none => exact absurd (Prog.ret.inj asked.of_ret.2) unauthorized
    | some role =>
      obtain ⟨t', s', env', l, rfl, drawn⟩ := Follows.op_ret asked
      change Follows (loginStore (loginName glaze req) role env'.random) l _ at drawn
      cases random : env'.random with
      | none =>
        rw [random] at drawn
        cases drawn.of_raise.2
      | some buf =>
        rw [random] at drawn
        obtain ⟨_, _, _, l, rfl, stored⟩ := Follows.op_ret drawn
        obtain ⟨rfl, same⟩ := stored.of_ret
        cases same
        exact ⟨_, _, _, buf, role, rfl, ⟨rfl, answer⟩, ⟨rfl, random⟩, rfl, rfl⟩

private theorem tokenOf_ne_nil (buf : Buffer) : tokenOf buf ≠ [] := by
  intro empty
  have size := congrArg List.length empty
  simp [tokenOf, hexText, List.length_flatMap] at size

/-- The cookie a client sends after an answer that sets one: its name and value. -/
def cookieOf (res : Response) : Option Str :=
  (res.fields.find "Set-Cookie".toList).map (cut ';')

private theorem extractCookie_pair (name : Str) {value : Str} (closed : ';' ∉ value)
    (plain : ' ' ∉ value) :
    extractCookie ((name ++ ['=']) ++ value) name = value := by
  rw [extractCookie_eq, after_append_self (by simp)]
  simp only [cut_of_notMem closed, trim_of_notMem plain]

private theorem extractToken_of_cookie (buf : Buffer) {req : Request}
    (sent : req.find "Cookie".toList = cookieOf (loginOk (tokenOf buf))) :
    extractToken req = tokenOf buf := by
  have digits : ∀ c, hexValue c = none → c ∉ tokenOf buf := by
    intro c other mem
    have digit := isSome_hexValue_of_mem_hexText mem
    rw [other] at digit
    cases digit
  have closed : ';' ∉ tokenOf buf := digits ';' (by decide)
  have nonempty := tokenOf_ne_nil buf
  have cookie : cookieOf (loginOk (tokenOf buf)) = some ("session=".toList ++ tokenOf buf) := by
    have header : (loginOk (tokenOf buf)).fields.find "Set-Cookie".toList =
        some (("session=".toList ++ tokenOf buf) ++
          ';' :: " HttpOnly; SameSite=Strict; Path=/".toList) := by
      rw [loginOk, Response.set, Fields.find_set]
      rfl
    rw [cookieOf, header, Option.map_some, cut_append_mark]
    simpa using closed
  have value : extractCookie ("session=".toList ++ tokenOf buf) "session".toList =
      tokenOf buf :=
    extractCookie_pair "session".toList closed (digits ' ' (by decide))
  rw [extractToken, sent, cookie]
  simp only [value]
  rw [if_pos nonempty]

private theorem stores_of_dispatches {o : Op U} (h : dispatches o) : stores o = false := by
  cases o <;> first | rfl | exact h.elim

theorem entered_public {t : Nat} {res : Response} {hd : Handler U}
    (route : (registered calls).select (reqs t).method (cut '?' (reqs t).target) = some (hd, none))
    (done : (serving glaze handler reqs (configured calls now provider env) sched).pool t =
      .ret res) :
    ∃ r c l, own (serving glaze handler reqs (configured calls now provider env) sched).log t =
        r :: c :: l ∧ dispatches r.op ∧ dispatches c.op ∧
      Follows (guardedCode (inertApp glaze handler) hd ⟨reqs t, none⟩) l (.ret res) := by
  have follows : Follows (dispatch (inertApp glaze handler) (reqs t))
      (own (serving glaze handler reqs (configured calls now provider env) sched).log t)
      (.ret res) := done ▸ dispatched t
  have stage := stage_of_follows follows
  have found : ∀ r ∈ own (serving glaze handler reqs (configured calls now provider env)
      sched).log t, ∀ found, Routed r (reqs t) found → found = some (hd, none) := by
    rintro r hr found routed
    have select := Registrations.registered_of_routed (mem_of_own hr).1 routed
    rw [route] at select
    exact select.symm
  generalize own (serving glaze handler reqs (configured calls now provider env) sched).log t = l
    at stage found
  generalize hq : Prog.ret res = q at stage
  cases stage with
  | arriving => cases hq
  | notFound routed => cases found _ (by simp) _ routed
  | checking routed => cases found _ (by simp) _ routed
  | turnedAway away =>
    cases away with
    | noToken routed => cases found _ (by simp) _ routed
    | noSession routed => cases found _ (by simp) _ routed
    | lowRole routed => cases found _ (by simp) _ routed
  | entering => cases hq
  | @inside l₀ l' c h ctx _ entered hc inner =>
    cases entered with
    | guarded routed => cases found _ (by simp) _ routed
    | @unguarded r _ routed =>
      cases found r (by simp) _ routed
      exact ⟨r, c, l', rfl, by simp [routed.1, dispatches], by simp [hc, dispatches], hq ▸ inner⟩

private theorem issued_of_login {t : Nat} {res : Response}
    (login : (registered calls).select (reqs t).method (cut '?' (reqs t).target) =
      some (.login, none))
    (done : (serving glaze handler reqs (configured calls now provider env) sched).pool t =
      .ret res)
    (ok : res.status = .ok) :
    ∃ before i rest role buf,
      (serving glaze handler reqs (configured calls now provider env) sched).log =
        before ++ i :: rest ∧
      (own (serving glaze handler reqs (configured calls now provider env) sched).log t).filter
        (fun e => stores e.op) = [i] ∧
      (∃ a ∈ own before t,
        Accepted a (loginName glaze (reqs t)) (loginPassword glaze (reqs t)) role) ∧
      i.op = .insert (tokenOf buf) (loginName glaze (reqs t)) role sessionTtl ∧
      res = loginOk (tokenOf buf) := by
  obtain ⟨r, c, l, hl, hr, hc, inner⟩ := entered_public login done
  have caught : internalServerError (inertApp glaze handler) ≠ res := by
    rintro rfl
    cases ok
  rcases inner.of_tryCatch with ⟨p, handled, ended⟩ | ⟨l₁, l₂, x, -, -, ended⟩
  · cases p with
    | ret a =>
      cases ended
      obtain ⟨a, b, i, buf, role, rfl, accepted, drew, hop, rfl⟩ := stored_of_ok handled ok
      obtain ⟨before, rest, split, own_, -⟩ := Library.Traces.split_of_own
        (show List.filter (fun e => e.tid = t) _ = [r, c, a, b] ++ i :: [] from hl)
      have ha : a ∈ own before t := by
        rw [own, own_]
        simp
      have once : (own (serving glaze handler reqs (configured calls now provider env)
          sched).log t).filter (fun e => stores e.op) = [i] := by
        rw [hl]
        have asked : stores a.op = false := by rw [accepted.1]; rfl
        have drawn : stores b.op = false := by rw [drew.1]; rfl
        have stored : stores i.op = true := by rw [hop]; rfl
        simp [stores_of_dispatches hr, stores_of_dispatches hc, asked, drawn, stored]
      exact ⟨before, i, rest, role, buf, split, once, ⟨a, ha, accepted⟩, hop, rfl⟩
    | raise x => exact absurd (Prog.ret.inj ended).symm caught
    | op o k => cases ended
  · exact absurd (Prog.ret.inj ended.of_ret.2).symm caught

private theorem not_issue {req : Request} {l : List (Event (engine P U))}
    {c a b i : Event (engine P U)}
    {ctx : RequestContext} {username : Str} {password : Str} {role : Role} {buf : Buffer}
    (entered : Entered req l .login ctx) (hc : c.op = .call .login ctx)
    (accepted : Accepted a username password role) (drew : Drew b buf)
    (hi : i ∈ l ++ [c, a, b]) (token name : Str) (held : Role) (ttl : Duration) :
    i.op ≠ .insert token name held ttl := by
  have ops : i ∈ l ∨ i = c ∨ i = a ∨ i = b := by simpa using hi
  rintro hop
  rcases ops with before | rfl | rfl | rfl
  · cases entered with
    | unguarded routed =>
      rw [List.mem_singleton.mp before, routed.1] at hop
      cases hop
    | guarded routed token' live ok =>
      rcases List.mem_pair.mp before with rfl | rfl
      · rw [routed.1] at hop
        cases hop
      · rw [live.1] at hop
        cases hop
  · rw [hc] at hop
    cases hop
  · rw [accepted.1] at hop
    cases hop
  · rw [drew.1] at hop
    cases hop

private theorem issued_once {x y z : List (Event (engine P U))} {i j : Event (engine P U)}
    (h : (serving glaze handler reqs (configured calls now provider env) sched).log =
      x ++ i :: (y ++ j :: z))
    (fresh : FreshDraws
      (serving glaze handler reqs (configured calls now provider env) sched).log)
    {token name name' : Str} {role role' : Role} {ttl ttl' : Duration}
    (hi : i.op = .insert token name role ttl) (hj : j.op = .insert token name' role' ttl') :
    False := by
  have h' : (serving glaze handler reqs (configured calls now provider env) sched).log =
      (x ++ i :: y) ++ j :: z := by
    rw [h]
    simp
  obtain ⟨-, -, req, l, c, ctx, a, b, buf, -, split, -, -, -, -, drew, same⟩ :=
    login_of_insert ⟨name, role⟩ h hi
  obtain ⟨-, -, req', l', c', ctx', a', b', buf', -, split', entered, hc, -, accepted, drew',
    same'⟩ := login_of_insert ⟨name', role'⟩ h' hj
  have buffers : buf = buf' := tokenOf_injective (same.symm.trans same')
  subst buffers
  have hb : b ∈ own x i.tid := by rw [split]; simp
  have hb' : b' ∈ own (x ++ i :: y) j.tid := by rw [split']; simp
  -- both drew the same buffer, so both are of one thread
  have one : b = b' := by
    refine fresh.eq_of_drew ?_ ?_ drew drew'
    · rw [h]
      exact List.mem_append_left _ (mem_of_own hb).1
    · rw [h']
      exact List.mem_append_left _ (mem_of_own hb').1
  have tids : i.tid = j.tid := by
    rw [← (mem_of_own hb).2, one, (mem_of_own hb').2]
  have mem : i ∈ own (x ++ i :: y) j.tid := by simp [own, tids]
  rw [split'] at mem
  exact not_issue entered hc accepted drew' mem _ _ _ _ hi

private theorem cookie_of_logoutToken {req : Request} (h : logoutToken req ≠ []) :
    ∃ cookie, req.find "Cookie".toList = some cookie ∧
      extractCookie cookie "session".toList = logoutToken req := by
  unfold logoutToken at h ⊢
  cases sent : req.find "Cookie".toList with
  | none =>
    rw [sent] at h
    exact absurd rfl h
  | some cookie => exact ⟨cookie, rfl, rfl⟩

private theorem logsOut_of_revoke
    (h : (serving glaze handler reqs (configured calls now provider env) sched).log =
      pre ++ e :: post) {token : Str} (hop : e.op = .revoke token) : LogsOut reqs token e := by
  obtain ⟨sealed_, -⟩ := AdminOnly.sealed_configured (U := U) calls now provider env
  have inner : ¬ dispatches e.op := by
    rw [hop]
    exact id
  obtain ⟨hd, ctx, l, builtin, inside⟩ := AdminOnly.inside_builtin h inner
  have may := inside.performs
  rw [hop] at may
  cases hd with
  | logout =>
    obtain ⟨request, key, -⟩ := AdminOnly.public_of_inside sealed_ h
      (.post, "/api/logout".toList) (by simp [authRoutes, adminRoutes]) builtin (by simp) inside
    obtain ⟨k, follows⟩ := inside.follows
    have only : (handleLogout ctx.request : Code U Response).Only fun o =>
        o = .revoke (logoutToken ctx.request) ∧ logoutToken ctx.request ≠ [] := by
      rw [handleLogout_eq]
      split
      · trivial
      · rename_i present
        exact ⟨⟨rfl, present⟩, fun _ => trivial⟩
    obtain ⟨same, present⟩ := (follows.only only).2.1
    obtain ⟨cookie, sent, value⟩ := cookie_of_logoutToken present
    rw [hop, request] at same
    rw [request] at sent value
    injection same with same
    exact ⟨hop, key, cookie, sent, value.trans same.symm⟩
  | _ => exact may.elim

/-- From the login that stored a session on, a lookup of its token finds the user while the
session lives, and nobody else ever. -/
theorem found_iff_alive {before x y : List (Event (engine P U))} {i : Event (engine P U)}
    (h : (serving glaze handler reqs (configured calls now provider env) sched).log =
      before ++ i :: (x ++ v :: y))
    (fresh : FreshDraws
      (serving glaze handler reqs (configured calls now provider env) sched).log)
    {token : Str} (user : UserInfo) (hi : i.op = .insert token user.username user.role sessionTtl)
    {req : Request} {found : Option TokenEntry} (hop : v.op = .validate token)
    (validated : Validated v req found) :
    (userOf found = some user ∧ Alive reqs token i x v) ∨
      (found = none ∧ ¬ Alive reqs token i x v) := by
  have empty := (AdminOnly.sealed_configured (U := U) calls now provider env).2
  have h' : (serving glaze handler reqs (configured calls now provider env) sched).log =
      (before ++ i :: x) ++ v :: y := by
    rw [h]
    simp
  obtain rfl : extractToken req = token := by
    have same := validated.1.symm.trans hop
    injection same
  obtain ⟨sched', k, hlog, hstate, -⟩ := serve_split h'
  have stored : ∀ entry, v.pre.tokens.store.lookup (extractToken req) = some entry ↔
      Stored (before ++ i :: x) (extractToken req) entry := by
    intro entry
    rw [← hstate, ← hlog]
    exact lookup_iff_stored empty sched' (extractToken req) entry
  by_cases alive : Alive reqs (extractToken req) i x v
  · left
    refine ⟨?_, alive⟩
    have quiet : ∀ e ∈ x, ¬ touches (extractToken req) e.op := by
      intro e he touch
      obtain ⟨u, w, rfl⟩ := List.append_of_mem he
      rcases SessionLives.touches_cases touch with revoked | ⟨name, role, ttl, again⟩
      · have split : (serving glaze handler reqs (configured calls now provider env) sched).log =
            (before ++ i :: u) ++ e :: (w ++ v :: y) := by
          rw [h]
          simp
        exact alive.1 e he (logsOut_of_revoke split revoked)
      · have split : (serving glaze handler reqs (configured calls now provider env) sched).log =
            before ++ i :: (u ++ e :: (w ++ v :: y)) := by
          rw [h]
          simp
        exact issued_once split fresh hi again
    have there : v.pre.tokens.store.lookup (extractToken req) =
        some ⟨user.username, user.role, time i + sessionTtl⟩ :=
      (stored _).mpr ⟨before, i, x, sessionTtl, rfl, hi, rfl, quiet⟩
    have live := TokenStore.validate_eq_some_iff.mpr ⟨there, alive.2⟩
    rw [← validated.2, live]
    rfl
  · right
    refine ⟨?_, alive⟩
    cases found with
    | none => rfl
    | some entry =>
      obtain ⟨there, inTime⟩ := TokenStore.validate_eq_some_iff.mp validated.2
      obtain ⟨before', i', x', ttl, split, stored', expires, quiet⟩ := (stored entry).mp there
      have once : x = x' ∧ i = i' := by
        rcases List.append_eq_append_iff.mp split with ⟨w, rfl, rest⟩ | ⟨w, rfl, rest⟩
        · cases w with
          | nil => exact ⟨(List.cons.inj rest).2, (List.cons.inj rest).1⟩
          | cons first w =>
            obtain ⟨rfl, rfl⟩ := List.cons.inj rest
            have twice : (serving glaze handler reqs (configured calls now provider env)
                sched).log = before ++ i :: (w ++ i' :: (x' ++ v :: y)) := by
              rw [h]
              simp
            exact (issued_once twice fresh hi stored').elim
        · cases w with
          | nil => exact ⟨(List.cons.inj rest).2.symm, (List.cons.inj rest).1.symm⟩
          | cons first w =>
            obtain ⟨rfl, rfl⟩ := List.cons.inj rest
            have twice : (serving glaze handler reqs (configured calls now provider env)
                sched).log = before' ++ i' :: (w ++ i :: (x ++ v :: y)) := by
              rw [h]
              simp
            exact (issued_once twice fresh stored' hi).elim
      obtain ⟨rfl, rfl⟩ := once
      refine absurd ⟨fun e he out => quiet e he (by rw [out.1]; rfl), ?_⟩ alive
      rw [hi] at stored'
      injection stored' with _ _ _ same
      rw [expires, ← same] at inTime
      exact inTime

private theorem nobody_before {x z rest : List (Event (engine P U))} {i : Event (engine P U)}
    (h : (serving glaze handler reqs (configured calls now provider env) sched).log =
      x ++ v :: (z ++ i :: rest))
    (fresh : FreshDraws
      (serving glaze handler reqs (configured calls now provider env) sched).log)
    {token name : Str} {role : Role} {ttl : Duration} (hi : i.op = .insert token name role ttl)
    {req : Request} {found : Option TokenEntry} (hop : v.op = .validate token)
    (validated : Validated v req found) : found = none := by
  have empty := (AdminOnly.sealed_configured (U := U) calls now provider env).2
  obtain rfl : extractToken req = token := by
    have same := validated.1.symm.trans hop
    injection same
  obtain ⟨sched', k, hlog, hstate, -⟩ := serve_split h
  cases found with
  | none => rfl
  | some entry =>
    obtain ⟨there, -⟩ := TokenStore.validate_eq_some_iff.mp validated.2
    rw [← hstate] at there
    have stored : Stored x (extractToken req) entry :=
      hlog ▸ (lookup_iff_stored empty sched' (extractToken req) entry).mp there
    obtain ⟨before, j, between, ttl', rfl, hj, -, -⟩ := stored
    have twice : (serving glaze handler reqs (configured calls now provider env) sched).log =
        before ++ j :: (between ++ v :: z ++ i :: rest) := by
      rw [h]
      simp
    exact (issued_once twice fresh hj hi).elim

/-- Whenever the token of a login is looked up, its user is found if its session is there, and
nobody else ever. -/
private theorem found_iff_there {before rest x y : List (Event (engine P U))}
    {i : Event (engine P U)}
    (h : (serving glaze handler reqs (configured calls now provider env) sched).log =
      before ++ i :: rest)
    (fresh : FreshDraws
      (serving glaze handler reqs (configured calls now provider env) sched).log)
    {token : Str} (user : UserInfo) (hi : i.op = .insert token user.username user.role sessionTtl)
    (split : (serving glaze handler reqs (configured calls now provider env) sched).log =
      x ++ v :: y)
    {req : Request} {found : Option TokenEntry} (hop : v.op = .validate token)
    (validated : Validated v req found) :
    (userOf found = some user ∧ There reqs token before i x v) ∨
      (userOf found = none ∧ ¬ There reqs token before i x v) := by
  have other : v ≠ i := by
    rintro rfl
    rw [hi] at hop
    cases hop
  rcases List.append_eq_append_iff.mp (h.symm.trans split) with ⟨z, rfl, same⟩ | ⟨z, rfl, same⟩
  · -- the lookup comes after the login
    cases z with
    | nil => exact absurd (List.cons.inj same).1.symm other
    | cons j between =>
      obtain ⟨rfl, rfl⟩ := List.cons.inj same
      rcases found_iff_alive h fresh user hi hop validated with ⟨known, alive⟩ | ⟨rfl, ended⟩
      · exact Or.inl ⟨known, between, rfl, alive⟩
      · refine Or.inr ⟨rfl, ?_⟩
        rintro ⟨between', same', alive⟩
        obtain ⟨-, rfl⟩ := List.cons.inj (List.append_cancel_left same')
        exact ended alive
  · -- the lookup comes before it
    cases z with
    | nil => exact absurd (List.cons.inj same).1 other
    | cons w z =>
      obtain ⟨rfl, rfl⟩ := List.cons.inj same
      obtain rfl : found = none := nobody_before split fresh hi hop validated
      refine Or.inr ⟨rfl, ?_⟩
      rintro ⟨between, same', -⟩
      have size := congrArg List.length same'
      simp at size

private theorem looked_up {u : Nat} {route : Handler U × Option Role} {res : Response}
    (present : extractToken (reqs u) ≠ [])
    (select : (registered calls).select (reqs u).method (cut '?' (reqs u).target) = some route)
    (gated : Gated route)
    (done : (serving glaze handler reqs (configured calls now provider env) sched).pool u =
      .ret res) :
    ∃ v ∈ own (serving glaze handler reqs (configured calls now provider env) sched).log u,
      v.op = .validate (extractToken (reqs u)) := by
  have follows : Follows (dispatch (inertApp glaze handler) (reqs u))
      (own (serving glaze handler reqs (configured calls now provider env) sched).log u)
      (.ret res) := done ▸ dispatched u
  have stage := stage_of_follows follows
  have known : ∀ r ∈ own (serving glaze handler reqs (configured calls now provider env)
      sched).log u, ∀ found, Routed r (reqs u) found → found = some route := by
    intro r hr found routed
    exact (Registrations.registered_of_routed (mem_of_own hr).1 routed).symm.trans select
  generalize own (serving glaze handler reqs (configured calls now provider env) sched).log u = l
    at stage known
  generalize hq : Prog.ret res = q at stage
  cases stage with
  | arriving => cases hq
  | notFound routed => cases known _ (by simp) _ routed
  | checking routed token =>
    rw [enforce_eq, if_neg token] at hq
    cases hq
  | turnedAway away =>
    cases away with
    | noToken routed none => exact absurd none present
    | noSession routed live => exact ⟨_, by simp, live.1⟩
    | lowRole routed live => exact ⟨_, by simp, live.1⟩
  | entering => cases hq
  | @inside l₀ l' c hd ctx _ entered hc inner =>
    subst hq
    cases entered with
    | guarded routed token live ok => exact ⟨_, by simp, live.1⟩
    | unguarded routed =>
      cases known _ (by simp) _ routed
      cases hd with
      | check =>
        change Follows ((handleCheck (reqs u)).tryCatch _) _ _ at inner
        rw [Prog.tryCatch_of_quiet quiet_handleCheck, handleCheck_eq, if_neg present] at inner
        obtain ⟨t, s, env, l, rfl, -⟩ := Follows.op_ret inner
        exact ⟨⟨t, s, env, .validate (extractToken (reqs u))⟩, by simp, rfl⟩
      | protectedFile fsRoot p =>
        change Follows ((handleProtectedFile (reqs u) fsRoot p).tryCatch _) _ _ at inner
        rw [Prog.tryCatch_of_quiet (quiet_handleProtectedFile fsRoot p), handleProtectedFile_eq,
          if_neg present] at inner
        obtain ⟨t, s, env, l, rfl, -⟩ := Follows.op_ret inner
        exact ⟨⟨t, s, env, .validate (extractToken (reqs u))⟩, by simp, rfl⟩
      | _ => exact gated.elim

end Runs

/-- The session a login hands out works until its logout. In an engine that was set up and serves
any requests, in any interleaving of their steps: a login answered 200 has stored one session, the
only one under its token, for the user the provider accepted, and sent the token as a cookie that is
read back as it was. Each request that presents the token at a gated route is treated as that
user's from the login on until a logout presents the cookie or eight hours have passed, and as
nobody's before and after. -/
theorem works_until_logout (glaze : Glaze) (handler : U → RequestContext → Except Str Response)
    (calls : List (SetupCall U)) (now : TimePoint) (provider : P.State) (env : Nat → EngineEnv P)
    (reqs : Nat → Request) (sched : List (Nat × EngineEnv P))
    (fresh : FreshDraws
      (serving glaze handler reqs (configured calls now provider env) sched).log)
    (t : Nat) (res : Response)
    (login : (registered calls).select (reqs t).method (cut '?' (reqs t).target) =
      some (.login, none))
    (done : (serving glaze handler reqs (configured calls now provider env) sched).pool t =
      .ret res)
    (ok : res.status = .ok) :
    ∃ token before i rest user,
      (serving glaze handler reqs (configured calls now provider env) sched).log =
        before ++ i :: rest ∧
      (own (serving glaze handler reqs (configured calls now provider env) sched).log t).filter
        (fun e => stores e.op) = [i] ∧
      i.op = .insert token user.username user.role sessionTtl ∧
      (∀ x j y name role ttl,
        (serving glaze handler reqs (configured calls now provider env) sched).log = x ++ j :: y →
        j.op = .insert token name role ttl → x = before) ∧
      (∃ a ∈ own before t, Accepted a user.username (loginPassword glaze (reqs t)) user.role) ∧
      user.username = loginName glaze (reqs t) ∧ res = loginOk token ∧
      (∀ req : Request, req.find "Cookie".toList = cookieOf res → extractToken req = token) ∧
      ∀ u route res', extractToken (reqs u) = token →
        (registered calls).select (reqs u).method (cut '?' (reqs u).target) = some route →
        Gated route →
        (serving glaze handler reqs (configured calls now provider env) sched).pool u = .ret res' →
        ∃ x v y session,
          (serving glaze handler reqs (configured calls now provider env) sched).log = x ++ v :: y ∧
          v.tid = u ∧ v.op = .validate token ∧
          ((session = some user ∧ There reqs token before i x v) ∨
            (session = none ∧ ¬ There reqs token before i x v)) ∧
          Answered (inertApp glaze handler) (reqs u) route session (own y u) res' := by
  obtain ⟨before, i, rest, role, buf, split, once, accepted, hop, rfl⟩ :=
    issued_of_login login done ok
  refine ⟨tokenOf buf, before, i, rest, ⟨loginName glaze (reqs t), role⟩, split, once, hop,
    fun x j y name role' ttl again issued => ?_, accepted, rfl, rfl,
    fun req => extractToken_of_cookie buf, fun u route res' presented select gated answered => ?_⟩
  · rcases List.append_eq_append_iff.mp (split.symm.trans again) with ⟨z, rfl, same⟩ |
      ⟨z, rfl, same⟩
    · cases z with
      | nil => exact List.append_nil _
      | cons w z =>
        obtain ⟨rfl, rfl⟩ := List.cons.inj same
        exact (issued_once split fresh hop issued).elim
    · cases z with
      | nil => exact (List.append_nil _).symm
      | cons w z =>
        obtain ⟨rfl, rfl⟩ := List.cons.inj same
        exact (issued_once again fresh issued hop).elim
  · have nonempty : extractToken (reqs u) ≠ [] := presented ▸ tokenOf_ne_nil buf
    obtain ⟨v, hv, looked⟩ := looked_up nonempty select gated answered
    obtain ⟨logged, rfl⟩ := mem_of_own hv
    rw [presented] at looked
    obtain ⟨x, y, cut_⟩ := List.append_of_mem logged
    obtain ⟨found, route', validated, select', answers⟩ := answered_of_validate cut_ looked
    obtain rfl : route' = route := Option.some.inj (select'.symm.trans select)
    exact ⟨x, v, y, userOf found, cut_, rfl, looked,
      found_iff_there split fresh ⟨loginName glaze (reqs t), role⟩ hop cut_ looked validated,
      answers res' answered⟩

section Instance

open Webengine.Results.AdminOnly (loginRequest oneAdmin oneDraw sampleGlaze)
open Webengine.Results.Registrations (exampleHandler exampleSetup fixedAnswer)

def sessionCookie : Str × Str :=
  ("Cookie".toList, "session=".toList ++ tokenOf (Vector.replicate 32 7))

/-- A login, a request with its cookie, a logout, and the same request again. -/
def beforeAndAfter : Nat → Request
  | 0 => loginRequest
  | 2 => ⟨.post, "/api/logout".toList, 11, [sessionCookie], []⟩
  | _ => ⟨.get, "/api/admin/server/status".toList, 11, [sessionCookie], []⟩

/-- One after the other. -/
def sessionRun : Config (engine oneAdmin Registrations.Endpoint) Str Response :=
  serving sampleGlaze (exampleHandler sampleGlaze "nginx".toList fixedAnswer) beforeAndAfter
    (configured exampleSetup 0 () fun _ => oneDraw)
    ([0, 0, 0, 0, 0, 1, 1, 1, 2, 2, 2, 3, 3].map fun t => (t, oneDraw))

abbrev exampleApp : App Registrations.Endpoint :=
  inertApp sampleGlaze (exampleHandler sampleGlaze "nginx".toList fixedAnswer)

/-- The step enters a handler. -/
def enters : Op U → Bool
  | .call _ _ => true
  | _ => false

private theorem eq_of_nobody {app : App U} {req : Request} {h : Handler U} {need : Role}
    {l : List (Event (engine P U))} {res : Response}
    (answered : Answered app req (h, some need) none l res) :
    res = authenticationRequired app := by
  cases answered
  rfl

private theorem sessionRun_outside :
    (own sessionRun.log 3).all (fun e => !enters e.op) = true := by
  decide +kernel

/-- The theorem at that run: the first request is the administrator's, the second is nobody's. -/
theorem works_until_logout_status :
    (∃ l, Answered (P := oneAdmin) exampleApp (beforeAndAfter 1)
      (.user (.control .status), some .admin) (some ⟨"root".toList, .admin⟩) l
      (json .ok statusOk)) ∧
    ∃ l, Answered (P := oneAdmin) exampleApp (beforeAndAfter 3)
      (.user (.control .status), some .admin) none l (authenticationRequired exampleApp) := by
  have fresh : FreshDraws sessionRun.log := by
    unfold FreshDraws
    decide +kernel
  have done : sessionRun.pool 0 = .ret (loginOk (tokenOf (Vector.replicate 32 7))) :=
    Prog.eq_ret_of_returned (by decide +kernel)
  have first : sessionRun.pool 1 = .ret (json .ok statusOk) :=
    Prog.eq_ret_of_returned (by decide +kernel)
  have second : sessionRun.pool 3 = .ret (authenticationRequired exampleApp) :=
    Prog.eq_ret_of_returned (by decide +kernel)
  unfold sessionRun at fresh done first second
  obtain ⟨token, before, i, rest, user, -, -, -, -, ⟨a, -, accepted⟩, name, -, cookie, works⟩ :=
    works_until_logout (P := oneAdmin) sampleGlaze (exampleHandler sampleGlaze "nginx".toList
      fixedAnswer) exampleSetup 0 () (fun _ => oneDraw) beforeAndAfter _ fresh 0 _ rfl done rfl
  have sent : ∀ req : Request, req.find "Cookie".toList = some sessionCookie.2 →
      extractToken req = token := fun req h => cookie req (h.trans (by decide +kernel))
  have root : user = ⟨"root".toList, .admin⟩ := by
    obtain ⟨username, role⟩ := user
    obtain rfl : username = "root".toList := name.trans (by decide +kernel)
    have password : loginPassword sampleGlaze (beforeAndAfter 0) = "pw".toList := by
      decide +kernel
    have found := accepted.2
    rw [password] at found
    obtain rfl : Role.admin = role := by simpa [oneAdmin, AuthProvider.readOnly] using found
    rfl
  subst root
  refine ⟨?_, ?_⟩
  · obtain ⟨x, v, y, session, -, -, -, ⟨rfl, -⟩ | ⟨rfl, -⟩, known⟩ := works 1
      (.user (.control .status), some .admin) _ (sent _ (by decide +kernel)) rfl trivial first
    · exact ⟨_, known⟩
    · have refused := congrArg Response.status (eq_of_nobody known)
      cases refused
  · obtain ⟨x, v, y, session, split, -, -, ⟨rfl, -⟩ | ⟨rfl, -⟩, known⟩ := works 3
      (.user (.control .status), some .admin) _ (sent _ (by decide +kernel)) rfl trivial second
    · generalize steps : own y 3 = l at known
      generalize answer : authenticationRequired exampleApp = res at known
      cases known with
      | lowRole low => cases low
      | @entered _ _ _ c l _ ok entry =>
        -- the last request enters no handler
        have mem : c ∈ own y 3 := by rw [steps]; exact List.mem_cons_self
        have outside := sessionRun_outside
        unfold sessionRun at outside
        rw [split] at outside
        have entered := List.all_eq_true.mp outside c
          (List.mem_filter.mpr ⟨by simp [(mem_of_own mem).1], decide_eq_true (mem_of_own mem).2⟩)
        rw [entry] at entered
        cases entered
    · exact ⟨_, known⟩

end Instance

end Webengine.Results.LiveSessions
