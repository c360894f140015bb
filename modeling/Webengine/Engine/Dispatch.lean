/- source: backend/src/Router.cpp (dispatch), backend/src/WebEngine.cpp
   digest: The public calls of an engine, the code behind every handler, the dispatch of a
   request, and the threads that share one engine. -/

import Webengine.Engine.AdminEndpoints
import Webengine.Library.Interleavings

set_option autoImplicit false
set_option relaxedAutoImplicit false

namespace Webengine.Engine.Dispatch

open Webengine.Engine.Roles
open Webengine.Engine.Messages
open Webengine.Engine.Payloads
open Webengine.Engine.Operations
open Webengine.Engine.AuthEndpoints
open Webengine.Engine.AdminEndpoints
open Webengine.Engine.Providers (AuthProvider)
open Webengine.Library.Programs (Prog)
open Webengine.Library.Interleavings (Config)
open Webengine.Library.Texts (cut)

/-- The public configuration calls, also safe to make while serving. -/
inductive ApiCall (U : Type)
  | addApi (method : Verb) (path : Str) (u : U) (minRole : Option Role)
  | setApiRole (path : Str) (minRole : Option Role)
  | protectPath (p : Str) (minRole : Role)
  | unprotectPath (p : Str)
  | serveProtectedFiles (urlPrefix fsRoot : Str)
  | enableAuthEndpoints
  | enableAdminEndpoints

/-- They all return the engine itself. -/
@[reducible] def ApiAns {U : Type} (_ : ApiCall U) : Type := Unit

/-- What an application adds: its handlers, which may make public calls or throw, and the
JSON library it is linked with. -/
structure App (U : Type) where
  glaze : Glaze
  handler : U → RequestContext → Prog Str (@ApiAns U) Response

variable {U : Type}

/-- The exact routes of `enable_auth_endpoints`. -/
def authRoutes : List ((Verb × Str) × Handler U × Option Role) :=
  [((.post, "/api/login".toList), .login, none),
   ((.post, "/api/logout".toList), .logout, none),
   ((.get, "/auth-check".toList), .check, none)]

/-- The exact routes of `enable_admin_endpoints`. -/
def adminRoutes : List ((Verb × Str) × Handler U × Option Role) :=
  [((.get, "/api/admin/acl".toList), .aclList, some .admin),
   ((.post, "/api/admin/acl".toList), .aclSet, some .admin),
   ((.delete_, "/api/admin/acl".toList), .aclRemove, some .admin),
   ((.get, "/api/admin/users".toList), .usersList, some .admin),
   ((.post, "/api/admin/users".toList), .usersAdd, some .admin),
   ((.delete_, "/api/admin/users".toList), .usersRemove, some .admin),
   ((.patch, "/api/admin/users".toList), .usersSetRole, some .admin)]

/-- One `add_api` for each route of a list. -/
def addApis : List ((Verb × Str) × Handler U × Option Role) → Code U Unit
  | [] => pure ()
  | ((method, path), h, minRole) :: routes => do
    step (.addRoute method path h minRole)
    addApis routes

def ApiCall.code : ApiCall U → Code U Unit
  | .addApi method path u minRole => step (.addRoute method path (.user u) minRole)
  | .setApiRole path minRole => do
    let _ ← step (.setRouteRole path minRole)
  | .protectPath p minRole => step (.aclSet p minRole)
  | .unprotectPath p => step (.aclRemove p)
  | .serveProtectedFiles urlPrefix fsRoot =>
    step (.addPrefixRoute .get urlPrefix (.protectedFile fsRoot urlPrefix) none)
  | .enableAuthEndpoints => addApis authRoutes
  | .enableAdminEndpoints => addApis adminRoutes

/-- Application code as engine code. -/
def appCode {α : Type} (p : Prog Str (@ApiAns U) α) : Code U α := p.interp ApiCall.code

variable (app : App U)

/-- The code behind a handler. -/
def handlerCode : Handler U → RequestContext → Code U Response
  | .login, ctx => handleLogin app.glaze ctx.request
  | .logout, ctx => handleLogout ctx.request
  | .check, ctx => handleCheck ctx.request
  | .aclList, _ => aclList app.glaze
  | .aclSet, ctx => aclSet app.glaze ctx.request
  | .aclRemove, ctx => aclRemove app.glaze ctx.request
  | .usersList, _ => usersList app.glaze
  | .usersAdd, ctx => usersAdd app.glaze ctx.request
  | .usersRemove, ctx => usersRemove app.glaze ctx.request
  | .usersSetRole, ctx => usersSetRole app.glaze ctx.request
  | .protectedFile fsRoot urlPrefix, ctx => handleProtectedFile ctx.request fsRoot urlPrefix
  | .user u, ctx => appCode (app.handler u ctx)

def authenticationRequired : Response :=
  json .unauthorized (app.glaze.error "authentication required".toList)

def insufficientPermissions : Response :=
  json .forbidden (app.glaze.error "insufficient permissions".toList)

def internalServerError : Response :=
  json .internalServerError (app.glaze.error "internal server error".toList)

def routeNotFound : Response := text .notFound "Not Found".toList

/-- Enter a handler; whatever it throws is answered with 500. -/
def invoke (h : Handler U) (ctx : RequestContext) : Code U Response := do
  step (.call h ctx)
  (handlerCode app h ctx).tryCatch fun _ => pure (internalServerError app)

/-- Enforce the role of the copied route, then invoke its handler. -/
def enforce (req : Request) (h : Handler U) : Option Role → Code U Response
  | none => invoke app h ⟨req, none⟩
  | some need => do
    match ← validatedToken req with
    | none => pure (authenticationRequired app)
    | some entry =>
      if roleSatisfies entry.role need then
        invoke app h ⟨req, some ⟨entry.username, entry.role⟩⟩
      else pure (insufficientPermissions app)

/-- Match on the path only, authorize and invoke. -/
def dispatch (req : Request) : Code U Response := do
  match ← step (.route req.method (cut '?' req.target)) with
  | none => pure routeNotFound
  | some (h, minRole) => enforce app req h minRole

/-- The rest of a dispatch after the route table's answer. -/
def routed (req : Request) : Option (Handler U × Option Role) → Code U Response
  | none => .ret routeNotFound
  | some (h, minRole) => enforce app req h minRole

theorem dispatch_eq (req : Request) :
    dispatch app req = .op (.route req.method (cut '?' req.target)) (routed app req) := by
  refine congrArg (Prog.op _) (funext fun found => ?_)
  cases found <;> rfl

/-- What runs on an engine at the same time: requests, and code of the application. -/
inductive Thread (U : Type)
  | request (req : Request)
  | application (p : Prog Str (@ApiAns U) Response)

def Thread.code : Thread U → Code U Response
  | .request req => dispatch app req
  | .application p => appCode p

/-- A run of an engine: any threads, any schedule of their atomic steps. -/
def serve {P : AuthProvider} (threads : Nat → Thread U) (s : EngineState P U)
    (sched : List (Nat × EngineEnv P)) : Config (engine P U) Str Response :=
  (Config.start (fun t => (threads t).code app) s).play sched

end Webengine.Engine.Dispatch
