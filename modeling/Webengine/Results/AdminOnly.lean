/- source: backend/src/WebEngine.cpp (enable_auth_endpoints, enable_admin_endpoints),
   backend/src/Router.cpp, backend/src/AuthHandler.cpp, backend/src/TokenStore.hpp
   digest: What requests can change in an engine that was set up and only serves: rules and
   users for a live Admin session, sessions by login and logout, routes never. -/

import Webengine.Engine.Issuance

set_option autoImplicit false
set_option relaxedAutoImplicit false

namespace Webengine.Results.AdminOnly

open Webengine.Engine.Roles
open Webengine.Engine.Messages
open Webengine.Engine.AccessList
open Webengine.Engine.Credentials
open Webengine.Engine.Payloads
open Webengine.Engine.Routing
open Webengine.Engine.Sessions
open Webengine.Engine.Operations
open Webengine.Engine.AuthEndpoints
open Webengine.Engine.Dispatch
open Webengine.Engine.Stages
open Webengine.Engine.Footprints
open Webengine.Engine.Issuance
open Webengine.Engine.Providers (AuthProvider)
open Webengine.Library.Interleavings
open Webengine.Library.Machines
open Webengine.Library.Programs (Prog)
open Webengine.Library.Texts (cut)

variable {P : AuthProvider} {U : Type}

/-- The calls an engine is set up with, without those that change the role of a route. -/
inductive SetupCall (U : Type)
  | addApi (method : Verb) (path : Str) (u : U) (minRole : Option Role)
  | protectPath (p : Str) (minRole : Role)
  | unprotectPath (p : Str)
  | serveProtectedFiles (urlPrefix fsRoot : Str)
  | enableAuthEndpoints
  | enableAdminEndpoints

def SetupCall.call : SetupCall U → ApiCall U
  | .addApi method path u minRole => .addApi method path u minRole
  | .protectPath p minRole => .protectPath p minRole
  | .unprotectPath p => .unprotectPath p
  | .serveProtectedFiles urlPrefix fsRoot => .serveProtectedFiles urlPrefix fsRoot
  | .enableAuthEndpoints => .enableAuthEndpoints
  | .enableAdminEndpoints => .enableAdminEndpoints

def setup : List (SetupCall U) → Code U Unit
  | [] => pure ()
  | c :: calls => do
    c.call.code
    setup calls

/-- A new engine after its setup. -/
def configured (calls : List (SetupCall U)) (now : TimePoint) (provider : P.State)
    (env : Nat → EngineEnv P) : EngineState P U :=
  (run (engine P U) (setup calls) (fresh now provider) env).state

/-- An application whose handlers answer or throw, and do not touch the engine. -/
def inertApp (glaze : Glaze) (handler : U → RequestContext → Except Str Response) : App U :=
  ⟨glaze, fun u ctx => Prog.ofExcept (handler u ctx)⟩

/-- The exact routes a set-up engine may have: the built-in ones as they are, and any others
for handlers of the application. -/
def Expected (key : Verb × Str) (hr : Handler U × Option Role) : Prop :=
  (∃ u, hr.1 = .user u) ∨ (key, hr) ∈ authRoutes ++ adminRoutes

/-- Built-in handlers are registered as the engine registers them; prefix routes are public
and serve gated files. -/
def Sealed (r : Router (Handler U)) : Prop :=
  r.Holds Expected (fun _ hr => hr.2 = none ∧ ∃ fsRoot p, hr.1 = .protectedFile fsRoot p)

/-- The steps of a setup. -/
def setsUp : Op U → Prop
  | .addRoute method path h minRole => Expected (method, path) (h, minRole)
  | .addPrefixRoute _ _ h minRole => minRole = none ∧ ∃ fsRoot p, h = .protectedFile fsRoot p
  | .aclSet _ _ => True
  | .aclRemove _ => True
  | _ => False

private theorem setup_only (calls : List (SetupCall U)) : (setup calls).Only setsUp := by
  have addApis_only : ∀ routes : List ((Verb × Str) × Handler U × Option Role),
      (∀ x ∈ routes, x ∈ authRoutes ++ adminRoutes) → (addApis routes).Only setsUp := by
    intro routes known
    induction routes with
    | nil => trivial
    | cons x routes ih =>
      exact ⟨Or.inr (known x (by simp)), fun _ => ih fun y hy => known y (by simp [hy])⟩
  induction calls with
  | nil => trivial
  | cons c calls ih =>
    refine Prog.only_bind ?_ fun _ => ih
    cases c with
    | addApi method path u minRole => exact ⟨Or.inl ⟨u, rfl⟩, fun _ => trivial⟩
    | protectPath p minRole => exact ⟨trivial, fun _ => trivial⟩
    | unprotectPath p => exact ⟨trivial, fun _ => trivial⟩
    | serveProtectedFiles urlPrefix fsRoot =>
      exact ⟨⟨rfl, fsRoot, urlPrefix, rfl⟩, fun _ => trivial⟩
    | enableAuthEndpoints =>
      exact addApis_only _ fun x hx => List.mem_append_left _ hx
    | enableAdminEndpoints =>
      exact addApis_only _ fun x hx => List.mem_append_right _ hx

/-- A set-up engine is sealed and has no sessions. -/
theorem sealed_configured (calls : List (SetupCall U)) (now : TimePoint) (provider : P.State)
    (env : Nat → EngineEnv P) :
    Sealed (configured calls now provider env).router ∧
      (configured calls now provider env).tokens = TokenStore.empty := by
  have start : Sealed (Router.empty : Router (Handler U)) := Router.Holds.empty
  refine run_keeps (m := engine P U) (J := fun s : EngineState P U => Sealed s.router ∧
    s.tokens = TokenStore.empty) ?_ (setup_only calls) ⟨start, rfl⟩ env
  rintro env s o ho ⟨sealed_, empty⟩
  cases o with
  | addRoute method path h minRole => exact ⟨Router.Holds.addRoute sealed_ ho, empty⟩
  | addPrefixRoute method p h minRole => exact ⟨Router.Holds.addPrefixRoute sealed_ ho, empty⟩
  | aclSet p minRole => exact ⟨sealed_, empty⟩
  | aclRemove p => exact ⟨sealed_, empty⟩
  | _ => exact ho.elim

section Runs

variable {glaze : Glaze} {handler : U → RequestContext → Except Str Response}
  {reqs : Nat → Request} {s₀ : EngineState P U} {sched : List (Nat × EngineEnv P)}
  {pre post : List (Event (engine P U))} {e : Event (engine P U)}

/-- Only requests, to an application that does not touch the engine. -/
abbrev serving (glaze : Glaze) (handler : U → RequestContext → Except Str Response)
    (reqs : Nat → Request) (s₀ : EngineState P U) (sched : List (Nat × EngineEnv P)) :
    Config (engine P U) Str Response :=
  serve (inertApp glaze handler) (fun t => .request (reqs t)) s₀ sched

theorem inside_builtin (h : (serving glaze handler reqs s₀ sched).log = pre ++ e :: post)
    (inner : ¬ dispatches e.op) :
    ∃ hd ctx l, (∀ u, hd ≠ .user u) ∧
      Inside (inertApp glaze handler) (fun t => .request (reqs t)) pre e hd ctx l := by
  rcases inside_of_log h inner with ⟨⟨p, application⟩, -⟩ | ⟨hd, ctx, l, inside⟩
  · cases application
  · refine ⟨hd, ctx, l, ?_, inside⟩
    rintro u rfl
    -- an inert handler takes no steps at all
    obtain ⟨k, follows⟩ := inside.follows
    change Follows (appCode (Prog.ofExcept (handler u ctx))) l _ at follows
    cases answer : handler u ctx with
    | ok res =>
      rw [answer] at follows
      exact Follows.not_ret_op follows
    | error x =>
      rw [answer] at follows
      exact Follows.not_raise_op follows

private theorem not_registers (h : (serving glaze handler reqs s₀ sched).log = pre ++ e :: post) :
    ¬ registers e.op := by
  intro reg
  have inner : ¬ dispatches e.op := by
    cases ho : e.op <;> rw [ho] at reg <;> first | exact reg.elim | exact id
  obtain ⟨hd, ctx, l, builtin, inside⟩ := inside_builtin h inner
  have may := inside.performs
  cases hd with
  | user u => exact builtin u rfl
  | _ => cases ho : e.op <;> rw [ho] at reg may <;> first | exact reg.elim | exact may.elim

private theorem router_constant (sched : List (Nat × EngineEnv P)) :
    (serving glaze handler reqs s₀ sched).state.router = s₀.router := by
  refine serve_induction (J := fun _ (s : EngineState P U) => s.router = s₀.router) rfl
    (fun sched l e last before => ?_) sched
  rw [Event.post, router_of_not_registers (not_registers last)]
  exact before

theorem router_pre (h : (serving glaze handler reqs s₀ sched).log = pre ++ e :: post) :
    e.pre.router = s₀.router := by
  obtain ⟨sched', k, -, hstate, -⟩ := serve_split h
  rw [← hstate]
  exact router_constant sched'

/-- The exact routes of the engine itself. -/
abbrev builtinRoutes : List ((Verb × Str) × Handler U × Option Role) := authRoutes ++ adminRoutes

/-- The method and path a request is routed by. -/
def routeKey (req : Request) : Verb × Str := (req.method, cut '?' req.target)

private theorem entry_of_inside (sealed_ : Sealed s₀.router)
    (h : (serving glaze handler reqs s₀ sched).log = pre ++ e :: post) {hd : Handler U}
    {ctx : RequestContext} {l : List (Event (engine P U))} (builtin : ∀ u, hd ≠ .user u)
    (noFile : ∀ fsRoot p, hd ≠ .protectedFile fsRoot p)
    (inside : Inside (inertApp glaze handler) (fun t => .request (reqs t)) pre e hd ctx l) :
    ctx.request = reqs e.tid ∧ ∃ l₀ c, own pre e.tid = l₀ ++ c :: l ∧
      (∀ x ∈ l₀ ++ [c], dispatches x.op) ∧
      ((∃ r, l₀ = [r] ∧ (routeKey (reqs e.tid), hd, none) ∈ builtinRoutes) ∨
        ∃ r v need entry, l₀ = [r, v] ∧
          (routeKey (reqs e.tid), hd, some need) ∈ builtinRoutes ∧
          Validated v (reqs e.tid) (some entry) ∧ roleSatisfies entry.role need = true) := by
  obtain ⟨req, l₀, c, ht, split, entered, hc⟩ := inside.request
  cases ht
  have known : ∀ r ∈ l₀, ∀ minRole, Routed r (reqs e.tid) (some (hd, minRole)) →
      (routeKey (reqs e.tid), hd, minRole) ∈ builtinRoutes := by
    intro r hr minRole found
    have hmem : r ∈ pre := by
      refine (mem_of_own (t := e.tid) ?_).1
      rw [split]
      exact List.mem_append_left _ hr
    obtain ⟨before, after, rfl⟩ := List.append_of_mem hmem
    rw [List.append_assoc, List.cons_append] at h
    have select := found.2
    rw [router_pre h] at select
    rcases Router.Holds.select sealed_ select with
      ⟨⟨u, user⟩ | known⟩ | ⟨p, -, -, fsRoot, p', file⟩
    · exact absurd user (builtin u)
    · exact known
    · exact absurd file (noFile fsRoot p')
  refine ⟨entered.request, l₀, c, split, ?_, ?_⟩
  · cases entered with
    | unguarded found => simp [found.1, hc, dispatches]
    | guarded found token live ok => simp [found.1, live.1, hc, dispatches]
  · cases entered with
    | @unguarded r _ found => exact Or.inl ⟨r, rfl, known r (by simp) none found⟩
    | @guarded r v _ need entry found token live ok =>
      exact Or.inr ⟨r, v, need, entry, rfl, known r (by simp) _ found, live, ok⟩

/-- The request was found to be that of an Admin. -/
def AdminSession (pre : List (Event (engine P U))) (t : Nat) (req : Request) : Prop :=
  ∃ v ∈ own pre t, ∃ entry, Validated v req (some entry) ∧ entry.role = .admin

private theorem adminSession_of_inside (sealed_ : Sealed s₀.router)
    (h : (serving glaze handler reqs s₀ sched).log = pre ++ e :: post) {hd : Handler U}
    {ctx : RequestContext} {l : List (Event (engine P U))} {path : Str}
    (admin : ∀ key role, (key, hd, role) ∈ builtinRoutes → key.2 = path ∧ role = some .admin)
    (builtin : ∀ u, hd ≠ .user u) (noFile : ∀ fsRoot p, hd ≠ .protectedFile fsRoot p)
    (inside : Inside (inertApp glaze handler) (fun t => .request (reqs t)) pre e hd ctx l) :
    cut '?' (reqs e.tid).target = path ∧ AdminSession pre e.tid (reqs e.tid) := by
  obtain ⟨-, l₀, c, split, -, ⟨r, -, route⟩ | ⟨r, v, need, entry, rfl, route, live, ok⟩⟩ :=
    entry_of_inside sealed_ h builtin noFile inside
  · cases (admin _ _ route).2
  · obtain ⟨hpath, hneed⟩ := admin _ _ route
    cases hneed
    refine ⟨hpath, v, by rw [split]; simp, entry, live, ?_⟩
    exact le_antisymm (by cases entry.role <;> decide) (roleSatisfies_iff.mp ok)

/-- The steps that change rules or users, each with the handler of the engine that takes it and
the path of that handler's route. -/
def endpointOf : Op U → Option (Handler U × Str)
  | .aclSet _ _ => some (.aclSet, "/api/admin/acl".toList)
  | .aclRemove _ => some (.aclRemove, "/api/admin/acl".toList)
  | .addUser _ _ _ => some (.usersAdd, "/api/admin/users".toList)
  | .removeUser _ => some (.usersRemove, "/api/admin/users".toList)
  | .setUserRole _ _ => some (.usersSetRole, "/api/admin/users".toList)
  | _ => none

theorem endpointOf_spec {o : Op U} {hd : Handler U} {path : Str}
    (owned : endpointOf o = some (hd, path)) :
    ¬ dispatches o ∧ (∀ hd', performs hd' o → hd' = hd ∨ ∃ u, hd' = .user u) ∧
      (∀ fsRoot p, hd ≠ .protectedFile fsRoot p) ∧
      ∀ key role, (key, hd, role) ∈ builtinRoutes → key.2 = path ∧ role = some .admin := by
  cases o <;> cases owned
  all_goals
    refine ⟨id, fun hd' may => ?_, by simp, by simp [authRoutes, adminRoutes]⟩
    cases hd' <;> first | exact Or.inl rfl | exact Or.inr ⟨_, rfl⟩ | exact may.elim

theorem admin_of_endpoint (sealed_ : Sealed s₀.router)
    (h : (serving glaze handler reqs s₀ sched).log = pre ++ e :: post) {hd : Handler U}
    {path : Str} (owned : endpointOf e.op = some (hd, path)) :
    cut '?' (reqs e.tid).target = path ∧ AdminSession pre e.tid (reqs e.tid) := by
  obtain ⟨inner, owner, noFile, admin⟩ := endpointOf_spec owned
  obtain ⟨hd', ctx, l, builtin, inside⟩ := inside_builtin h inner
  rcases owner hd' inside.performs with rfl | ⟨u, user⟩
  · exact adminSession_of_inside sealed_ h admin builtin noFile inside
  · exact absurd user (builtin u)

private theorem admin_of_acl_changed (sealed_ : Sealed s₀.router)
    (h : (serving glaze handler reqs s₀ sched).log = pre ++ e :: post)
    (changed : e.post.acl ≠ e.pre.acl) :
    cut '?' (reqs e.tid).target = "/api/admin/acl".toList ∧
      AdminSession pre e.tid (reqs e.tid) := by
  obtain ⟨t, s, env, o⟩ := e
  cases o with
  | aclSet p minRole => exact admin_of_endpoint sealed_ h rfl
  | aclRemove p => exact admin_of_endpoint sealed_ h rfl
  | _ => exact (changed rfl).elim

private theorem admin_of_users_changed {T : Type} {users : P.State → T}
    (keeps : ∀ choice s username password,
      users (P.authenticate choice s username password).2 = users s)
    (sealed_ : Sealed s₀.router)
    (h : (serving glaze handler reqs s₀ sched).log = pre ++ e :: post)
    (changed : users e.post.provider ≠ users e.pre.provider) :
    cut '?' (reqs e.tid).target = "/api/admin/users".toList ∧
      AdminSession pre e.tid (reqs e.tid) := by
  obtain ⟨t, s, env, o⟩ := e
  cases o with
  | authenticate username password => exact (changed (keeps _ _ _ _)).elim
  | addUser username password role => exact admin_of_endpoint sealed_ h rfl
  | removeUser username => exact admin_of_endpoint sealed_ h rfl
  | setUserRole username role => exact admin_of_endpoint sealed_ h rfl
  | _ => exact (changed rfl).elim

/-- The buffer a step drew. -/
def drawn (e : Event (engine P U)) : Option Buffer :=
  match e.op with
  | .randBytes => e.env.random
  | _ => none

private theorem drawn_of_drew {e : Event (engine P U)} {buf : Buffer} (h : Drew e buf) :
    drawn e = some buf := by
  simp only [drawn, h.1, h.2]

/-- No buffer is drawn twice. -/
def FreshDraws (l : List (Event (engine P U))) : Prop := (l.filterMap drawn).Nodup

theorem FreshDraws.eq_of_drew {l : List (Event (engine P U))} (fresh : FreshDraws l)
    {x y : Event (engine P U)} (hx : x ∈ l) (hy : y ∈ l) {buf : Buffer} (drewX : Drew x buf)
    (drewY : Drew y buf) : x = y := by
  obtain ⟨before, after, rfl⟩ := List.append_of_mem hx
  have seen : drawn y = some buf := drawn_of_drew drewY
  rw [FreshDraws, List.filterMap_append, List.filterMap_cons_some (drawn_of_drew drewX),
    List.nodup_middle, List.nodup_cons, ← List.filterMap_append] at fresh
  rcases List.mem_append.mp hy with hy | hy
  · exact absurd (List.mem_filterMap.mpr ⟨y, List.mem_append_left _ hy, seen⟩) fresh.1
  rcases List.mem_cons.mp hy with rfl | hy
  · rfl
  · exact absurd (List.mem_filterMap.mpr ⟨y, List.mem_append_right _ hy, seen⟩) fresh.1

/-- A login adds one session, of the user the provider accepted, under a new token. -/
structure LoginStep (glaze : Glaze) (pre : List (Event (engine P U))) (e : Event (engine P U))
    (req : Request) : Prop where
  method : req.method = .post
  path : cut '?' req.target = "/api/login".toList
  steps : ∃ r c a b role buf, own pre e.tid = [r, c, a, b] ∧
    Accepted a (loginName glaze req) (loginPassword glaze req) role ∧ Drew b buf ∧
    tokenOf buf ∉ e.pre.tokens.store ∧
    e.post.tokens = e.pre.tokens.insert (time e) (tokenOf buf) (loginName glaze req) role sessionTtl

/-- A logout erases the session of the cookie it presents. -/
structure LogoutStep (pre : List (Event (engine P U))) (e : Event (engine P U)) (req : Request) :
    Prop where
  method : req.method = .post
  path : cut '?' req.target = "/api/logout".toList
  steps : (∃ r c, own pre e.tid = [r, c]) ∧ logoutToken req ≠ [] ∧
    e.post.tokens = e.pre.tokens.revoke (logoutToken req)

private theorem new_token (empty : s₀.tokens = TokenStore.empty)
    (h : (serving glaze handler reqs s₀ sched).log = pre ++ e :: post) (fresh : FreshDraws pre)
    {b : Event (engine P U)} {buf : Buffer} (hb : b ∈ own pre e.tid) (drew : Drew b buf)
    (first : ∀ i ∈ own pre e.tid, ∀ token username role ttl,
      i.op ≠ .insert token username role ttl) :
    tokenOf buf ∉ e.pre.tokens.store := by
  intro mem
  obtain ⟨entry, found⟩ := Option.isSome_iff_exists.mp (AList.lookup_isSome.mpr mem)
  obtain ⟨sched', k, hlog, hstate, -⟩ := serve_split h
  rw [← hstate] at found
  -- an older session of this token was issued by a login that drew the same buffer
  obtain ⟨before, i, between, ttl, rfl, hop, -, -⟩ := hlog ▸ stored_of_lookup empty sched' found
  rw [List.append_assoc, List.cons_append] at h
  obtain ⟨-, -, req, l, c, ctx, a, b', buf', ht, split, -, -, -, -, drew', same⟩ :=
    login_of_insert ⟨entry.username, entry.role⟩ h hop
  have hbuf := tokenOf_injective same
  subst hbuf
  have hb' : b' ∈ own before i.tid := by
    rw [split]
    simp
  have hpre : b' ∈ before ++ i :: between := List.mem_append_left _ (mem_of_own hb').1
  have once : b = b' := fresh.eq_of_drew (mem_of_own hb).1 hpre drew drew'
  have tids : i.tid = e.tid := by
    rw [← (mem_of_own hb').2, ← once, (mem_of_own hb).2]
  exact first i (by simp [own, tids]) _ _ _ _ hop

theorem public_of_inside (sealed_ : Sealed s₀.router)
    (h : (serving glaze handler reqs s₀ sched).log = pre ++ e :: post) {hd : Handler U}
    {ctx : RequestContext} {l : List (Event (engine P U))} (key : Verb × Str)
    (route : ∀ k role, (k, hd, role) ∈ builtinRoutes → k = key ∧ role = none)
    (builtin : ∀ u, hd ≠ .user u) (noFile : ∀ fsRoot p, hd ≠ .protectedFile fsRoot p)
    (inside : Inside (inertApp glaze handler) (fun t => .request (reqs t)) pre e hd ctx l) :
    ctx.request = reqs e.tid ∧ routeKey (reqs e.tid) = key ∧
      ∃ r c, own pre e.tid = r :: c :: l ∧ dispatches r.op ∧ dispatches c.op := by
  obtain ⟨hreq, l₀, c, split, disp, ⟨r, rfl, found⟩ | ⟨r, v, need, entry, rfl, found, -⟩⟩ :=
    entry_of_inside sealed_ h builtin noFile inside
  · exact ⟨hreq, (route _ _ found).1, r, c, split, disp r (by simp), disp c (by simp)⟩
  · cases (route _ _ found).2

private theorem loginStep_of_insert (sealed_ : Sealed s₀.router)
    (empty : s₀.tokens = TokenStore.empty)
    (h : (serving glaze handler reqs s₀ sched).log = pre ++ e :: post) (fresh : FreshDraws pre)
    {token username : Str} {role : Role} {ttl : Duration}
    (hop : e.op = .insert token username role ttl) : LoginStep glaze pre e (reqs e.tid) := by
  have inner : ¬ dispatches e.op := by
    rw [hop]
    exact id
  obtain ⟨hd, ctx, l, builtin, inside⟩ := inside_builtin h inner
  have may := inside.performs
  rw [hop] at may
  cases hd with
  | login =>
    obtain ⟨hreq, key, r, c, split, hr, hc⟩ := public_of_inside sealed_ h
      (.post, "/api/login".toList) (by simp [authRoutes, adminRoutes]) builtin (by simp)
      inside
    obtain ⟨k, follows⟩ := inside.follows
    obtain ⟨a, b, buf, rfl, accepted, drew, rfl, rfl, rfl⟩ := accepted_of_insert follows hop
    rw [hreq] at accepted hop
    refine ⟨congrArg Prod.fst key, congrArg Prod.snd key, r, c, a, b, role, buf, split, accepted,
      drew, ?_, ?_⟩
    · refine new_token empty h fresh (b := b) (by rw [split]; simp) drew ?_
      -- its own steps so far are not insertions
      rw [split]
      intro i hi token username role ttl insertion
      rcases List.mem_cons.mp hi with rfl | hi
      · rw [insertion] at hr
        exact hr.elim
      rcases List.mem_cons.mp hi with rfl | hi
      · rw [insertion] at hc
        exact hc.elim
      rcases List.mem_pair.mp hi with rfl | rfl
      · cases accepted.1.symm.trans insertion
      · cases drew.1.symm.trans insertion
    · rw [time_eq, Event.post, hop]
      rfl
  | _ => exact may.elim

private theorem logoutStep_of_revoke (sealed_ : Sealed s₀.router)
    (h : (serving glaze handler reqs s₀ sched).log = pre ++ e :: post) {token : Str}
    (hop : e.op = .revoke token) : LogoutStep pre e (reqs e.tid) := by
  have inner : ¬ dispatches e.op := by
    rw [hop]
    exact id
  obtain ⟨hd, ctx, l, builtin, inside⟩ := inside_builtin h inner
  have may := inside.performs
  rw [hop] at may
  cases hd with
  | logout =>
    obtain ⟨hreq, key, r, c, split, hr, hc⟩ := public_of_inside sealed_ h
      (.post, "/api/logout".toList) (by simp [authRoutes, adminRoutes]) builtin (by simp)
      inside
    obtain ⟨k, follows⟩ := inside.follows
    change Follows (handleLogout ctx.request) l _ at follows
    rw [handleLogout_eq, hreq] at follows
    split at follows
    · exact absurd follows Follows.not_ret_op
    · rename_i present
      rcases follows.of_op with ⟨rfl, same⟩ | ⟨_, _, _, l, rfl, done⟩
      · injection same with same
        rw [hop] at same
        cases same
        refine ⟨congrArg Prod.fst key, congrArg Prod.snd key, ⟨r, c, split⟩, present, ?_⟩
        rw [Event.post, hop]
        rfl
      · exact absurd done Follows.not_ret_op
  | _ => exact may.elim

private theorem login_or_logout (sealed_ : Sealed s₀.router) (empty : s₀.tokens = TokenStore.empty)
    (h : (serving glaze handler reqs s₀ sched).log = pre ++ e :: post) (fresh : FreshDraws pre)
    (changed : e.post.tokens ≠ e.pre.tokens) :
    LoginStep glaze pre e (reqs e.tid) ∨ LogoutStep pre e (reqs e.tid) := by
  cases hop : e.op with
  | insert token username role ttl => exact Or.inl (loginStep_of_insert sealed_ empty h fresh hop)
  | revoke token => exact Or.inr (logoutStep_of_revoke sealed_ h hop)
  | _ =>
    rw [Event.post, hop] at changed
    exact (changed rfl).elim

end Runs

/-- An engine that was set up, and serves any requests with handlers that do not touch it:
its routes stay, rules and users change only at their endpoints and for an Admin session,
sessions only by a login the provider accepted, each under a new token, and by the logout
that presents their cookie. -/
theorem no_privilege_without_admin (glaze : Glaze)
    (handler : U → RequestContext → Except Str Response) (calls : List (SetupCall U))
    (now : TimePoint) (provider : P.State) (env₀ : Nat → EngineEnv P) (reqs : Nat → Request)
    (sched : List (Nat × EngineEnv P)) {T : Type} (users : P.State → T)
    (keeps : ∀ choice s username password,
      users (P.authenticate choice s username password).2 = users s)
    (fresh : FreshDraws
      (serving glaze handler reqs (configured calls now provider env₀) sched).log) :
    (serving glaze handler reqs (configured calls now provider env₀) sched).state.router =
      (configured calls now provider env₀).router ∧
    ∀ pre e post,
      (serving glaze handler reqs (configured calls now provider env₀) sched).log =
        pre ++ e :: post →
      e.post.router = e.pre.router ∧
      (e.post.acl ≠ e.pre.acl → cut '?' (reqs e.tid).target = "/api/admin/acl".toList ∧
        AdminSession pre e.tid (reqs e.tid)) ∧
      (users e.post.provider ≠ users e.pre.provider →
        cut '?' (reqs e.tid).target = "/api/admin/users".toList ∧
          AdminSession pre e.tid (reqs e.tid)) ∧
      (e.post.tokens ≠ e.pre.tokens →
        LoginStep glaze pre e (reqs e.tid) ∨ LogoutStep pre e (reqs e.tid)) := by
  obtain ⟨sealed_, empty⟩ := sealed_configured calls now provider env₀
  refine ⟨router_constant sched, fun pre e post h => ⟨?_, ?_, ?_, ?_⟩⟩
  · rw [Event.post, router_of_not_registers (not_registers h)]
  · exact admin_of_acl_changed sealed_ h
  · exact admin_of_users_changed keeps sealed_ h
  · have before : FreshDraws pre := by
      rw [FreshDraws, h, List.filterMap_append] at fresh
      exact fresh.of_append_left
    exact login_or_logout sealed_ empty h before

section Instance

/-- A provider that knows one administrator. -/
def oneAdmin : AuthProvider :=
  AuthProvider.readOnly fun (_ : Unit) (s : Unit) username password =>
    (.ok (if username = "root".toList ∧ password = "pw".toList then some .admin else none), s)

def loginBody : Str := "\x7b\"username\":\"root\",\"password\":\"pw\"\x7d".toList

def loginRequest : Request := ⟨.post, "/api/login".toList, 11, [], loginBody⟩

def sampleGlaze : Glaze := Glaze.sample [(loginBody, ⟨some "root".toList, some "pw".toList⟩)] []

/-- The source of randomness yields one buffer. -/
def oneDraw : EngineEnv oneAdmin := ⟨0, some (Vector.replicate 32 7), (), fun _ => none⟩

def noHandler : Empty → RequestContext → Except Str Response := fun u _ => u.elim

/-- The five steps of a login. -/
def loginRun : Config (engine oneAdmin Empty) Str Response :=
  serving sampleGlaze noHandler (fun _ => loginRequest)
    (configured [.enableAuthEndpoints, .enableAdminEndpoints] 0 () fun _ => oneDraw)
    (List.replicate 5 (0, oneDraw))

/-- The theorem at a login of the administrator: it leaves one session and the same routes. -/
theorem routes_stay_in_login :
    loginRun.log.length = 5 ∧ loginRun.state.tokens.store.entries.length = 1 ∧
    loginRun.state.router =
      (configured [.enableAuthEndpoints, .enableAdminEndpoints] 0 () fun _ => oneDraw :
        EngineState oneAdmin Empty).router := by
  have fresh : FreshDraws loginRun.log := by
    unfold FreshDraws
    decide +kernel
  unfold loginRun at fresh
  exact ⟨by decide +kernel, by decide +kernel,
    (no_privilege_without_admin (P := oneAdmin) (U := Empty) sampleGlaze noHandler
      [.enableAuthEndpoints, .enableAdminEndpoints] 0 () (fun _ => oneDraw)
      (fun _ => loginRequest) (List.replicate 5 (0, oneDraw)) id (fun _ _ _ _ => rfl) fresh).1⟩

end Instance

end Webengine.Results.AdminOnly
