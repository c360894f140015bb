/- source: backend/src/TokenStore.hpp, backend/src/WebEngine.cpp (/api/admin/users),
   backend/include/webengine/TestAuthProvider.hpp, backend/src/Router.cpp (dispatch)
   digest: A request runs with the role its user had when the login of its session looked
   the user up; a later removal or demotion does not reach the session. -/

import Webengine.Engine.Issuance
import Webengine.Engine.TestProvider

set_option autoImplicit false
set_option relaxedAutoImplicit false

namespace Webengine.Results.RolesAtLogin

open Webengine.Engine.Roles
open Webengine.Engine.Messages
open Webengine.Engine.AccessList
open Webengine.Engine.Credentials
open Webengine.Engine.Payloads
open Webengine.Engine.Routing
open Webengine.Engine.Sessions
open Webengine.Engine.Operations
open Webengine.Engine.AuthEndpoints
open Webengine.Engine.Dispatch
open Webengine.Engine.Stages
open Webengine.Engine.Footprints
open Webengine.Engine.Issuance
open Webengine.Engine.TestProvider
open Webengine.Engine.Providers (AuthProvider)
open Webengine.Library.Interleavings
open Webengine.Library.Machines
open Webengine.Library.Programs (Prog)

variable {F : Kdf} {U : Type}

/-- The steps that write or erase the record of a user. -/
def changes (username : Str) : Op U → Prop
  | .addUser u _ _ => u = username
  | .removeUser u => u = username
  | .setUserRole u _ => u = username
  | _ => False

private theorem roleOf_of_not_changes {username : Str} {o : Op U} (h : ¬ changes username o)
    (env : EngineEnv (testAuthProvider F)) (s : EngineState (testAuthProvider F) U) :
    roleOf (engineStep env s o).2.provider username = roleOf s.provider username := by
  cases o with
  | addUser u password role =>
    have other : username ≠ u := fun same => h same.symm
    change roleOf (addUser F env.choice s.provider u password role).2 username = _
    cases env.choice with
    | none => rfl
    | some salt => exact congrArg (Option.map _) (AList.lookup_insert_ne other)
  | removeUser u =>
    have other : username ≠ u := fun same => h same.symm
    exact congrArg (Option.map _) (AList.lookup_erase_ne other)
  | setUserRole u role =>
    have other : username ≠ u := fun same => h same.symm
    change roleOf (setUserRole s.provider u role).2 username = _
    unfold setUserRole
    cases s.provider.lookup u with
    | none => rfl
    | some record => exact congrArg (Option.map _) (AList.lookup_insert_ne other)
  | _ => rfl

/-- The user comes from the login that issued its token: the login's lookup found it with
this role, and the table at `e` still holds that role unless its record was changed since. -/
def RoleOfLogin (pre : List (Event (engine (testAuthProvider F) U)))
    (e : Event (engine (testAuthProvider F) U)) (token : Str) (user : UserInfo) : Prop :=
  ∃ x a y i password, pre = x ++ a :: y ∧ i ∈ y ∧ i.tid = a.tid ∧
    a.op = .authenticate user.username password ∧
    i.op = .insert token user.username user.role sessionTtl ∧
    roleOf a.pre.provider user.username = some user.role ∧
    ((∀ e' ∈ y, ¬ changes user.username e'.op) →
      roleOf e.pre.provider user.username = some user.role)

section Runs

variable {app : App U} {threads : Nat → Thread U}
  {s₀ : EngineState (testAuthProvider F) U} {sched : List (Nat × EngineEnv (testAuthProvider F))}
  {pre post : List (Event (engine (testAuthProvider F) U))}
  {e : Event (engine (testAuthProvider F) U)}

private theorem roleOf_unchanged (username : Str)
    {x y : List (Event (engine (testAuthProvider F) U))}
    {a : Event (engine (testAuthProvider F) U)}
    (h : (serve app threads s₀ sched).log = x ++ a :: (y ++ e :: post))
    (quiet : ∀ e' ∈ a :: y, ¬ changes username e'.op) :
    roleOf e.pre.provider username = roleOf a.pre.provider username := by
  refine Config.constant_between
    (fun s : EngineState (testAuthProvider F) U => roleOf s.provider username) h ?_
  intro e' he'
  exact roleOf_of_not_changes (quiet e' he') e'.env e'.pre

private theorem roleOfLogin_of_validated (empty : s₀.tokens = TokenStore.empty)
    (h : (serve app threads s₀ sched).log = pre ++ e :: post)
    {v : Event (engine (testAuthProvider F) U)} (hv : v ∈ pre) {req : Request}
    {entry : TokenEntry} (live : Validated v req (some entry)) :
    RoleOfLogin pre e (extractToken req) ⟨entry.username, entry.role⟩ := by
  obtain ⟨upTo, after, rfl⟩ := List.append_of_mem hv
  have hsplit := h
  rw [List.append_assoc, List.cons_append] at hsplit
  obtain ⟨before, i, between, rfl, login, -, -⟩ := login_of_validated empty hsplit live
  obtain ⟨_, l, c, _, a, b, _, -, steps, -, -, -, accepted, -, -⟩ := login.steps
  have ha : a ∈ own before i.tid := by
    rw [steps]
    simp
  obtain ⟨hmem, htid⟩ := mem_of_own ha
  obtain ⟨x, w, rfl⟩ := List.append_of_mem hmem
  have found : roleOf a.pre.provider entry.username = some entry.role := by
    have answer := accepted.2
    injection answer with answer
    exact roleOf_of_authenticate F answer
  refine ⟨x, a, w ++ i :: (between ++ v :: after), i, _, by simp, by simp, htid.symm, accepted.1,
    login.stored, found, fun quiet => ?_⟩
  have whole : (serve app threads s₀ sched).log =
      x ++ a :: ((w ++ i :: (between ++ v :: after)) ++ e :: post) := by
    rw [h]
    simp
  rw [roleOf_unchanged entry.username whole ?_]
  · exact found
  · intro e' he'
    rcases List.mem_cons.mp he' with rfl | he'
    · rw [accepted.1]
      exact id
    · exact quiet e' he'

private theorem roleOfLogin_of_call (empty : s₀.tokens = TokenStore.empty)
    (h : (serve app threads s₀ sched).log = pre ++ e :: post) {hd : Handler U}
    {ctx : RequestContext} (hop : e.op = .call hd ctx) {user : UserInfo}
    (huser : ctx.user = some user) :
    ∃ r need, r ∈ own pre e.tid ∧ Routed r ctx.request (some (hd, some need)) ∧
      roleSatisfies user.role need = true ∧
      RoleOfLogin pre e (extractToken ctx.request) user := by
  obtain ⟨req, -, entered⟩ := entered_of_call h hop
  generalize steps : own pre e.tid = l at entered
  cases entered with
  | unguarded found => cases huser
  | @guarded r v _ need entry found token live ok =>
    cases huser
    have hv : v ∈ pre := (mem_of_own (t := e.tid) (by rw [steps]; simp)).1
    exact ⟨r, need, by simp, found, ok, roleOfLogin_of_validated empty h hv live⟩

private theorem roleOfLogin_of_pass (empty : s₀.tokens = TokenStore.empty)
    (h : (serve app threads s₀ sched).log = pre ++ e :: post) {user : UserInfo}
    (hop : e.op = .pass user) :
    ∃ req, threads e.tid = .request req ∧ RoleOfLogin pre e (extractToken req) user := by
  have inner : ¬ dispatches e.op := by
    rw [hop]
    exact id
  rcases inside_of_log h inner with ⟨-, conf⟩ | ⟨hd, ctx, l, inside⟩
  · rw [hop] at conf
    exact conf.elim
  obtain ⟨req, l₀, c, ht, split, entered, -⟩ := inside.request
  obtain ⟨k, follows⟩ := inside.follows
  obtain ⟨v, entry, hv, live, rfl⟩ := validated_of_pass follows hop
  rw [entered.request] at live
  have hmem : v ∈ own pre e.tid := by
    rw [split]
    simp [hv]
  exact ⟨req, ht, roleOfLogin_of_validated empty h (mem_of_own hmem).1 live⟩

end Runs

/-- In every run of an engine with the in-memory provider, whoever is let in, into a guarded
handler or through a gate, has the role the login of its session found in the user table, and
the table still holds it if no administrator has written or removed that user since. -/
theorem role_of_login (F : Kdf) (app : App U) (threads : Nat → Thread U) (now : TimePoint)
    (users : UserTable) (acl : Acl) (router : Router (Handler U))
    (sched : List (Nat × EngineEnv (testAuthProvider F))) :
    (∀ pre e post hd ctx user,
      (serve (P := testAuthProvider F) app threads ⟨now, users, TokenStore.empty, acl, router⟩
        sched).log = pre ++ e :: post →
      e.op = .call hd ctx → ctx.user = some user →
      ∃ r need, r ∈ own pre e.tid ∧ Routed r ctx.request (some (hd, some need)) ∧
        roleSatisfies user.role need = true ∧
        RoleOfLogin pre e (extractToken ctx.request) user) ∧
    (∀ pre e post user,
      (serve (P := testAuthProvider F) app threads ⟨now, users, TokenStore.empty, acl, router⟩
        sched).log = pre ++ e :: post →
      e.op = .pass user →
      ∃ req, threads e.tid = .request req ∧ RoleOfLogin pre e (extractToken req) user) := by
  constructor
  · intro pre e post hd ctx user h hop huser
    exact roleOfLogin_of_call rfl h hop huser
  · intro pre e post user h hop
    exact roleOfLogin_of_pass rfl h hop

section Instance

/-- A key derivation that keeps the first bytes of the password. -/
def plainKdf : Kdf := fun password _ _ =>
  Vector.ofFn fun i => UInt8.ofNat (password.getD i '\x00').toNat

abbrev demoProvider : AuthProvider := testAuthProvider plainKdf

def demoUsers : UserTable :=
  seeded plainKdf (Vector.replicate 16 1) (Vector.replicate 16 2) (Vector.replicate 16 3)

def loginBody (username password : String) : Str :=
  ("\x7b\"username\":\"" ++ username ++ "\",\"password\":\"" ++ password ++ "\"\x7d").toList

def usernameBody (username : String) : Str :=
  ("\x7b\"username\":\"" ++ username ++ "\"\x7d").toList

/-- Its one handler of its own answers 200. -/
def demoApp : App Unit where
  glaze := Glaze.sample
    [(loginBody "alice" "user123", ⟨some "alice".toList, some "user123".toList⟩),
     (loginBody "admin" "admin123", ⟨some "admin".toList, some "admin123".toList⟩)]
    [(usernameBody "alice", ⟨some "alice".toList⟩)]
  handler _ _ := .ret (statusResponse .ok)

/-- The application adds a route for users and the built-in endpoints. -/
def setUp : Prog Str (@ApiAns Unit) Response :=
  .op (.addApi .get "/api/user".toList () (some .user)) fun _ =>
    .op .enableAuthEndpoints fun _ =>
      .op .enableAdminEndpoints fun _ => .ret (statusResponse .ok)

def aliceBuffer : Buffer := Vector.replicate 32 1

def adminBuffer : Buffer := Vector.replicate 32 2

def cookieOf (buf : Buffer) : List (Str × Str) :=
  [("Cookie".toList, "session=".toList ++ tokenOf buf)]

/-- Alice logs in, an administrator logs in and removes Alice, Alice comes back. -/
def demoThreads : Nat → Thread Unit
  | 0 => .application setUp
  | 1 => .request ⟨.post, "/api/login".toList, 11, [], loginBody "alice" "user123"⟩
  | 2 => .request ⟨.post, "/api/login".toList, 11, [], loginBody "admin" "admin123"⟩
  | 3 => .request ⟨.delete_, "/api/admin/users".toList, 11, cookieOf adminBuffer,
      usernameBody "alice"⟩
  | _ => .request ⟨.get, "/api/user".toList, 11, cookieOf aliceBuffer, []⟩

def drawing (buf : Buffer) : EngineEnv demoProvider := ⟨0, some buf, none, fun _ => none⟩

def removalRun : Config (engine demoProvider Unit) Str Response :=
  serve demoApp demoThreads ⟨0, demoUsers, TokenStore.empty, Acl.empty, Router.empty⟩
    (List.replicate 11 (0, drawing aliceBuffer) ++ List.replicate 5 (1, drawing aliceBuffer) ++
      List.replicate 5 (2, drawing adminBuffer) ++ List.replicate 5 (3, drawing aliceBuffer) ++
      List.replicate 3 (4, drawing aliceBuffer))

/-- Whoever is let into a guarded handler is in the user table at that moment, with a role
that satisfies the guard. -/
def RolesHold (l : List (Event (engine demoProvider Unit))) : Prop :=
  ∀ pre e post hd ctx user r need, l = pre ++ e :: post → e.op = .call hd ctx →
    ctx.user = some user → r ∈ own pre e.tid → Routed r ctx.request (some (hd, some need)) →
    ∃ role, roleOf e.pre.provider user.username = some role ∧ roleSatisfies role need = true

/-- A step that enters a handler for a user who is not in the table. -/
def servesRemoved (e : Event (engine demoProvider Unit)) : Bool :=
  match e.op with
  | .call _ ctx => match ctx.user with
    | some user => roleOf e.pre.provider user.username = none
    | none => false
  | _ => false

private theorem call_of_servesRemoved {e : Event (engine demoProvider Unit)}
    (h : servesRemoved e = true) :
    ∃ hd ctx user, e.op = .call hd ctx ∧ ctx.user = some user ∧
      roleOf e.pre.provider user.username = none := by
  unfold servesRemoved at h
  split at h
  · rename_i hd ctx hop
    split at h
    · rename_i user huser
      exact ⟨hd, ctx, user, hop, huser, of_decide_eq_true h⟩
    · cases h
  · cases h

/-- A removed user is still served. -/
theorem not_rolesHold_removalRun : ¬ RolesHold removalRun.log := by
  have served : removalRun.log.any servesRemoved = true := by decide +kernel
  intro hold
  obtain ⟨e, he, removed⟩ := List.any_eq_true.mp served
  obtain ⟨hd, ctx, user, hop, huser, gone⟩ := call_of_servesRemoved removed
  obtain ⟨pre, post, hlog⟩ := List.append_of_mem he
  have empty : (⟨0, demoUsers, TokenStore.empty, Acl.empty, Router.empty⟩ :
      EngineState demoProvider Unit).tokens = TokenStore.empty := rfl
  obtain ⟨r, need, hr, routed, -⟩ := roleOfLogin_of_call empty hlog hop huser
  obtain ⟨role, held, -⟩ := hold pre e post hd ctx user r need hlog hop huser hr routed
  rw [gone] at held
  cases held

end Instance

end Webengine.Results.RolesAtLogin
