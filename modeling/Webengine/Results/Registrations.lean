/- source: backend/src/WebEngine.cpp (add_api, serve_protected_files, enable_auth_endpoints,
   enable_admin_endpoints), backend/src/Router.cpp (dispatch), backend/example/main.cpp
   digest: A set-up engine enters a handler only as it was registered last: for its method and
   path, and behind its role. So no handler of the example reads a user that is not there. -/

import Webengine.Results.AdminOnly
import Webengine.Results.RouterTables
import Webengine.Results.SessionProvenance

set_option autoImplicit false
set_option relaxedAutoImplicit false

namespace Webengine.Results.Registrations

open Webengine.Engine.Roles
open Webengine.Engine.Messages
open Webengine.Engine.Credentials
open Webengine.Engine.Payloads
open Webengine.Engine.Routing
open Webengine.Engine.Sessions
open Webengine.Engine.Operations
open Webengine.Engine.AuthEndpoints
open Webengine.Engine.Dispatch
open Webengine.Engine.Stages
open Webengine.Engine.Footprints
open Webengine.Engine.Providers (AuthProvider)
open Webengine.Library.Interleavings (Config)
open Webengine.Library.LongestMatch (lookup_eq_some_iff)
open Webengine.Library.Machines
open Webengine.Library.Programs (Prog)
open Webengine.Library.Texts (cut)
open Webengine.Results.AdminOnly (SetupCall setup configured inertApp serving routeKey)
open Webengine.Results.RouterTables (RouterCall)
open Webengine.Results.SessionProvenance (SessionOf)

variable {P : AuthProvider} {U : Type}

/-- An exact route, as a call on the router. -/
def exactRoute (route : (Verb × Str) × Handler U × Option Role) : RouterCall (Handler U) :=
  .addRoute route.1.1 route.1.2 route.2.1 route.2.2

/-- What a call of a setup registers. -/
def registers : SetupCall U → List (RouterCall (Handler U))
  | .addApi method path u minRole => [.addRoute method path (.user u) minRole]
  | .protectPath _ _ => []
  | .unprotectPath _ => []
  | .serveProtectedFiles urlPrefix fsRoot =>
    [.addPrefixRoute .get urlPrefix (.protectedFile fsRoot urlPrefix) none]
  | .enableAuthEndpoints => authRoutes.map exactRoute
  | .enableAdminEndpoints => adminRoutes.map exactRoute

/-- The tables a setup stands for: for each method and path, and each prefix, the registration
that came last. -/
def registered (calls : List (SetupCall U)) : Tables (Handler U) :=
  (calls.flatMap registers).foldl RouterCall.applyTables Tables.empty

section Setup

/-- The route table after a program that registers so. -/
abbrev Registers (p : Code U Unit) (rs : List (RouterCall (Handler U))) : Prop :=
  ∀ s : EngineState P U, wp (engine P U) (fun _ => True) p (fun r s' _ =>
    r = .ok () ∧ s'.router.tables = rs.foldl RouterCall.applyTables s.router.tables) s

theorem Registers.bind {p q : Code U Unit} {rs rs' : List (RouterCall (Handler U))}
    (hp : Registers (P := P) p rs) (hq : Registers (P := P) q rs') :
    Registers (P := P) (p >>= fun _ => q) (rs ++ rs') := by
  intro s
  rw [wp_bind]
  refine wp_mono (hp s) ?_
  rintro r s₁ l ⟨rfl, first⟩
  refine wp_mono (hq s₁) ?_
  rintro r s₂ l' ⟨rfl, second⟩
  exact ⟨rfl, by rw [second, first, List.foldl_append]⟩

private theorem registers_addApis (routes : List ((Verb × Str) × Handler U × Option Role)) :
    Registers (P := P) (addApis routes) (routes.map exactRoute) := by
  induction routes with
  | nil => exact fun s => ⟨rfl, rfl⟩
  | cons x routes ih =>
    obtain ⟨⟨method, path⟩, h, minRole⟩ := x
    have first : Registers (P := P) (step (.addRoute method path h minRole))
        [.addRoute method path h minRole] := fun s env _ =>
      ⟨rfl, Router.tables_addRoute s.router method path h minRole⟩
    exact first.bind ih

private theorem registers_call (c : SetupCall U) :
    Registers (P := P) c.call.code (registers c) := by
  cases c with
  | addApi method path u minRole =>
    intro s env _
    exact ⟨rfl, Router.tables_addRoute s.router method path (.user u) minRole⟩
  | protectPath p minRole => exact fun s env _ => ⟨rfl, rfl⟩
  | unprotectPath p => exact fun s env _ => ⟨rfl, rfl⟩
  | serveProtectedFiles urlPrefix fsRoot =>
    intro s env _
    exact ⟨rfl, Router.tables_addPrefixRoute s.router .get urlPrefix _ none⟩
  | enableAuthEndpoints => exact registers_addApis authRoutes
  | enableAdminEndpoints => exact registers_addApis adminRoutes

private theorem registers_setup (calls : List (SetupCall U)) :
    Registers (P := P) (setup calls) (calls.flatMap registers) := by
  induction calls with
  | nil => exact fun s => ⟨rfl, rfl⟩
  | cons c calls ih =>
    rw [List.flatMap_cons]
    exact (registers_call c).bind ih

private theorem tables_configured (calls : List (SetupCall U)) (now : TimePoint)
    (provider : P.State)
    (env : Nat → EngineEnv P) :
    (configured calls now provider env).router.tables = registered calls := by
  have after := run_of_wp (registers_setup (P := P) calls (fresh now provider)) env fun _ => trivial
  exact after.2

private theorem eq_some_of_update {K V : Type} [DecidableEq K] {f : K → Option V} {k key : K}
    {v w : V}
    (h : Function.update f k (some v) key = some w) : key = k ∧ w = v ∨ f key = some w := by
  by_cases same : key = k
  · subst same
    rw [Function.update_self] at h
    exact Or.inl ⟨rfl, (Option.some.inj h).symm⟩
  · rw [Function.update_of_ne same] at h
    exact Or.inr h

private theorem mem_of_tables {H : Type} {rs : List (RouterCall H)}
    (added : ∀ path role, .setRouteRole path role ∉ rs) :
    (∀ key hr, (rs.foldl RouterCall.applyTables Tables.empty).exact key = some hr →
      .addRoute key.1 key.2 hr.1 hr.2 ∈ rs) ∧
    ∀ key hr, (rs.foldl RouterCall.applyTables Tables.empty).prefixed key = some hr →
      .addPrefixRoute key.1 key.2 hr.1 hr.2 ∈ rs := by
  induction rs using List.reverseRecOn with
  | nil => exact ⟨fun key hr none => (nomatch none), fun key hr none => (nomatch none)⟩
  | append_singleton rs r ih =>
    obtain ⟨exact_, prefixed⟩ := ih fun path role old =>
      added path role (List.mem_append_left _ old)
    have last : r ∈ rs ++ [r] := List.mem_append_right _ (List.mem_singleton_self _)
    rw [List.foldl_append]
    refine ⟨fun key hr found => ?_, fun key hr found => ?_⟩
    · cases r with
      | addRoute method path h minRole =>
        rcases eq_some_of_update found with ⟨rfl, rfl⟩ | old
        · exact last
        · exact List.mem_append_left _ (exact_ key hr old)
      | addPrefixRoute method p h minRole => exact List.mem_append_left _ (exact_ key hr found)
      | setRouteRole path role => exact absurd last (added path role)
    · cases r with
      | addRoute method path h minRole => exact List.mem_append_left _ (prefixed key hr found)
      | addPrefixRoute method p h minRole =>
        rcases eq_some_of_update found with ⟨rfl, rfl⟩ | old
        · exact last
        · exact List.mem_append_left _ (prefixed key hr old)
      | setRouteRole path role => exact absurd last (added path role)

theorem mem_of_registered {calls : List (SetupCall U)} {method : Verb} {path : Str}
    {hr : Handler U × Option Role} (h : (registered calls).select method path = some hr) :
    .addRoute method path hr.1 hr.2 ∈ calls.flatMap registers ∨
      ∃ p, p <+: path ∧ .addPrefixRoute method p hr.1 hr.2 ∈ calls.flatMap registers := by
  have added : ∀ path role, .setRouteRole path role ∉ calls.flatMap (registers (U := U)) := by
    intro path role changes
    obtain ⟨c, -, hc⟩ := List.mem_flatMap.mp changes
    cases c <;> simp [registers, exactRoute] at hc
  obtain ⟨exact_, prefixed⟩ := mem_of_tables added
  rcases Option.or_eq_some_iff.mp h with found | ⟨-, found⟩
  · exact Or.inl (exact_ _ _ found)
  · obtain ⟨p, longest, found⟩ := lookup_eq_some_iff.mp found
    exact Or.inr ⟨p, longest.2.1, prefixed _ _ found⟩

end Setup

/-- Who stands behind the entry of a handler: nobody, if its route is public, and else the user of
a login whose session has not ended and whose role suffices. -/
def Behind (app : App U) (threads : Nat → Thread U) (pre : List (Event (engine P U)))
    (req : Request) (user : Option UserInfo) : Option Role → Prop
  | none => user = none
  | some need => ∃ v u, user = some u ∧ roleSatisfies u.role need = true ∧
      SessionOf app threads pre v req u

section Runs

variable {glaze : Glaze} {handler : U → RequestContext → Except Str Response}
  {reqs : Nat → Request} {calls : List (SetupCall U)} {now : TimePoint} {provider : P.State}
  {env : Nat → EngineEnv P} {sched : List (Nat × EngineEnv P)}
  {pre post : List (Event (engine P U))} {e : Event (engine P U)}

/-- What a request is routed to is what was registered. -/
theorem registered_of_routed {r : Event (engine P U)}
    (hr : r ∈ (serving glaze handler reqs (configured calls now provider env) sched).log)
    {req : Request} {found : Option (Handler U × Option Role)} (routed : Routed r req found) :
    (registered calls).select req.method (cut '?' req.target) = found := by
  obtain ⟨before, after, h⟩ := List.append_of_mem hr
  have select := routed.2
  rwa [AdminOnly.router_pre h, Router.select_eq, tables_configured] at select

end Runs

/-- Whatever engine an application sets up, in every run of requests: a handler is entered only
for the method and path it was registered last for, and only for whom its role lets through. -/
theorem entered_as_registered (glaze : Glaze) (handler : U → RequestContext → Except Str Response)
    (calls : List (SetupCall U)) (now : TimePoint) (provider : P.State) (env : Nat → EngineEnv P)
    (reqs : Nat → Request) (sched : List (Nat × EngineEnv P))
    (pre post : List (Event (engine P U))) (e : Event (engine P U)) (hd : Handler U)
    (ctx : RequestContext)
    (h : (serving glaze handler reqs (configured calls now provider env) sched).log =
      pre ++ e :: post) (hop : e.op = .call hd ctx) :
    ctx.request = reqs e.tid ∧ ∃ minRole,
      (registered calls).select (reqs e.tid).method (cut '?' (reqs e.tid).target) =
        some (hd, minRole) ∧
      Behind (inertApp glaze handler) (fun t => .request (reqs t)) pre (reqs e.tid) ctx.user
        minRole := by
  have empty := (AdminOnly.sealed_configured calls now provider env).2
  obtain ⟨req, ht, request, authorized⟩ := SessionProvenance.authorized_of_call empty h hop
  cases ht
  refine ⟨request, ?_⟩
  have seen : ∀ r ∈ own pre e.tid,
      r ∈ (serving glaze handler reqs (configured calls now provider env) sched).log :=
    fun r hr => h ▸ List.mem_append_left _ (mem_of_own hr).1
  rcases authorized with ⟨r, steps, routed, nobody⟩ |
    ⟨r, v, need, user, steps, routed, known, suffices_, session⟩
  · have hr := seen r (by rw [steps]; simp)
    exact ⟨none, registered_of_routed hr routed, nobody⟩
  · have hr := seen r (by rw [steps]; simp)
    exact ⟨some need, registered_of_routed hr routed, v, user, known, suffices_, session⟩

section Example

/-- The endpoints by which the example drives its web server. -/
inductive ServerEndpoint
  | on | off | reset | port | status

/-- The closures the example registers. -/
inductive Endpoint
  | publicData
  | server
  | serverText
  | privateData
  | tiered (level : Str)
  | control (endpoint : ServerEndpoint)

/-- `*ctx.user`. To read a user that is not there is undefined, and stands for an error here. -/
def userOf (ctx : RequestContext) : Except Str UserInfo :=
  match ctx.user with
  | some user => .ok user
  | none => .error "undefined".toList

/-- The handlers of the example. What the server endpoints answer is up to the controller. -/
def exampleHandler (glz : Glaze) (name : Str)
    (control : ServerEndpoint → RequestContext → Response) :
    Endpoint → RequestContext → Except Str Response
  | .publicData, _ => pure (json .ok (glz.writeObj
      [("message".toList, "This is public data. No authentication required.".toList)]))
  | .server, _ => pure (json .ok (glz.writeObj [("server".toList, name)]))
  | .serverText, _ => pure (json .ok
      ("\x7b\"server\":\"".toList ++ name ++ "\"\x7d".toList))
  | .privateData, ctx => do
    let u ← userOf ctx
    pure (json .ok (glz.writeObj [("message".toList, "private data".toList),
      ("user".toList, u.username), ("role".toList, roleName u.role)]))
  | .tiered level, ctx => do
    let u ← userOf ctx
    pure (json .ok (glz.writeObj [("message".toList, level ++ " access granted".toList),
      ("required".toList, level), ("user".toList, u.username), ("role".toList, roleName u.role)]))
  | .control endpoint, ctx => pure (control endpoint ctx)

/-- The calls by which `main` sets up its engine. -/
def exampleSetup : List (SetupCall Endpoint) :=
  [.enableAuthEndpoints,
   .protectPath "/protected/".toList .viewer,
   .serveProtectedFiles "/protected/".toList "/www/protected".toList,
   .addApi .get "/api/public".toList .publicData none,
   .addApi .get "/api/server".toList .server none,
   .addApi .get "/api/server".toList .serverText none,
   .addApi .get "/api/private".toList .privateData (some .admin),
   .addApi .get "/api/viewer".toList (.tiered "viewer".toList) (some .viewer),
   .addApi .get "/api/user".toList (.tiered "user".toList) (some .user),
   .addApi .get "/api/admin".toList (.tiered "admin".toList) (some .admin),
   .enableAdminEndpoints,
   .addApi .post "/api/admin/server/on".toList (.control .on) (some .admin),
   .addApi .post "/api/admin/server/off".toList (.control .off) (some .admin),
   .addApi .post "/api/admin/server/reset".toList (.control .reset) (some .admin),
   .addApi .post "/api/admin/server/port".toList (.control .port) (some .admin),
   .addApi .get "/api/admin/server/status".toList (.control .status) (some .admin)]

/-- An Admin, as the user of a login whose session has not ended. -/
def ByAdmin (app : App U) (threads : Nat → Thread U) (pre : List (Event (engine P U)))
    (req : Request) (user : Option UserInfo) : Prop :=
  ∃ v u, user = some u ∧ u.role = .admin ∧ SessionOf app threads pre v req u

private theorem admin_of_satisfies {role : Role} (h : roleSatisfies role .admin = true) :
    role = .admin := by
  cases role with
  | admin => rfl
  | _ => cases h

/-- A closure that reads the user is registered behind a role, and the control of the server
behind the highest one. -/
def Guards : RouterCall (Handler Endpoint) → Prop
  | .addRoute _ _ (.user .privateData) minRole => minRole.isSome
  | .addRoute _ _ (.user (.tiered _)) minRole => minRole.isSome
  | .addRoute _ _ (.user (.control _)) minRole => minRole = some .admin
  | .addPrefixRoute _ _ (.user _) _ => False
  | _ => True

private theorem exampleSetup_guards : ∀ r ∈ exampleSetup.flatMap registers, Guards r := by
  simp [exampleSetup, registers, authRoutes, adminRoutes, exactRoute, Guards]

/-- In the example, on whatever provider and in every run of requests: no handler reads a user
that is not there, and the server is driven only for the user of an Admin session. -/
theorem example_users_present (glz : Glaze) (name : Str)
    (control : ServerEndpoint → RequestContext → Response) (now : TimePoint) (provider : P.State)
    (env : Nat → EngineEnv P) (reqs : Nat → Request) (sched : List (Nat × EngineEnv P))
    (pre post : List (Event (engine P Endpoint))) (e : Event (engine P Endpoint)) (u : Endpoint)
    (ctx : RequestContext)
    (h : (serving glz (exampleHandler glz name control) reqs
      (configured exampleSetup now provider env) sched).log = pre ++ e :: post)
    (hop : e.op = .call (.user u) ctx) :
    (∃ res, exampleHandler glz name control u ctx = .ok res) ∧
      ∀ endpoint, u = .control endpoint →
        ByAdmin (inertApp glz (exampleHandler glz name control)) (fun t => .request (reqs t)) pre
          (reqs e.tid) ctx.user := by
  obtain ⟨-, minRole, select, behind⟩ := entered_as_registered glz _ exampleSetup now provider env
    reqs sched pre post e (.user u) ctx h hop
  have guards : Guards (.addRoute (reqs e.tid).method (cut '?' (reqs e.tid).target) (.user u)
      minRole) := by
    rcases mem_of_registered select with exact_ | ⟨p, -, prefixed⟩
    · exact exampleSetup_guards _ exact_
    · exact (exampleSetup_guards _ prefixed).elim
  have present : minRole.isSome → ∃ user, userOf ctx = .ok user := by
    intro guarded
    obtain ⟨need, rfl⟩ := Option.isSome_iff_exists.mp guarded
    obtain ⟨v, user, known, -⟩ := behind
    exact ⟨user, by rw [userOf, known]⟩
  refine ⟨?_, ?_⟩
  · cases u with
    | privateData =>
      obtain ⟨user, read⟩ := present guards
      simp only [exampleHandler, read]
      exact ⟨_, rfl⟩
    | tiered level =>
      obtain ⟨user, read⟩ := present guards
      simp only [exampleHandler, read]
      exact ⟨_, rfl⟩
    | _ => exact ⟨_, rfl⟩
  · rintro endpoint rfl
    obtain rfl : minRole = some .admin := guards
    obtain ⟨v, user, known, enough, session⟩ := behind
    exact ⟨v, user, known, admin_of_satisfies enough, session⟩

section Instance

open Webengine.Results.AdminOnly (oneAdmin oneDraw loginRequest sampleGlaze)

/-- A login, then a request for the status of the server with its cookie. -/
def loginThenStatus : Nat → Request
  | 0 => loginRequest
  | _ => ⟨.get, "/api/admin/server/status".toList, 11, [("Cookie".toList,
      "session=".toList ++ tokenOf (Vector.replicate 32 7))], []⟩

def fixedAnswer : ServerEndpoint → RequestContext → Response := fun _ _ => json .ok statusOk

def statusRun (steps : List Nat) : Config (engine oneAdmin Endpoint) Str Response :=
  serving sampleGlaze (exampleHandler sampleGlaze "nginx".toList fixedAnswer) loginThenStatus
    (configured exampleSetup 0 () fun _ => oneDraw) (steps.map fun t => (t, oneDraw))

def statusContext : RequestContext := ⟨loginThenStatus 1, some ⟨"root".toList, .admin⟩⟩

/-- The entry of the handler, the last step of the run. -/
def statusCall : Event (engine oneAdmin Endpoint) where
  tid := 1
  pre := (statusRun [0, 0, 0, 0, 0, 1, 1]).state
  env := oneDraw
  op := .call (.user (.control .status)) statusContext

private theorem statusRun_split : (statusRun ([0, 0, 0, 0, 0, 1, 1] ++ [1])).log =
    (statusRun [0, 0, 0, 0, 0, 1, 1]).log ++ statusCall :: [] := by
  obtain ⟨k, next⟩ : ∃ k, (statusRun [0, 0, 0, 0, 0, 1, 1]).pool 1 =
      .op (.call (.user (.control .status)) statusContext) k := ⟨_, rfl⟩
  have last : statusRun ([0, 0, 0, 0, 0, 1, 1] ++ [1]) =
      (statusRun [0, 0, 0, 0, 0, 1, 1]).step 1 oneDraw := by
    unfold statusRun
    rw [List.map_append]
    exact Config.play_snoc _ _ _
  rw [last, Config.step_op next, statusCall]

/-- The theorem at that run: the status is registered for its path. -/
theorem entered_as_registered_status : ∃ minRole,
    (registered exampleSetup).select .get "/api/admin/server/status".toList =
      some (.user (.control .status), minRole) := by
  have split := statusRun_split
  unfold statusRun at split
  obtain ⟨-, minRole, select, -⟩ := entered_as_registered (P := oneAdmin) sampleGlaze _
    exampleSetup 0 () (fun _ => oneDraw) loginThenStatus _ _ [] statusCall _ statusContext split rfl
  exact ⟨minRole, select⟩

/-- The theorem at that run: the status is asked for by the user who has logged in as an Admin. -/
theorem example_users_present_status :
    ByAdmin (inertApp sampleGlaze (exampleHandler sampleGlaze "nginx".toList fixedAnswer))
      (fun t => .request (loginThenStatus t)) (statusRun [0, 0, 0, 0, 0, 1, 1]).log
      (loginThenStatus 1) (some ⟨"root".toList, .admin⟩) := by
  have split := statusRun_split
  unfold statusRun at split
  exact (example_users_present (P := oneAdmin) sampleGlaze "nginx".toList fixedAnswer 0 ()
    (fun _ => oneDraw) loginThenStatus _ _ [] statusCall _ statusContext split rfl).2 .status rfl

end Instance

end Example

end Webengine.Results.Registrations
