/- source: backend/src/WebEngine.cpp (WebEngine::Impl), backend/src/TokenStore.hpp,
   backend/src/Router.cpp, backend/src/Acl.hpp
   digest: The shared state of an engine and its atomic steps: every lock-guarded section,
   and every call that leaves the engine, is one. -/

import Webengine.Engine.AccessList
import Webengine.Engine.Providers
import Webengine.Engine.Routing
import Webengine.Engine.Sessions
import Webengine.Library.Machines

set_option autoImplicit false
set_option relaxedAutoImplicit false

namespace Webengine.Engine.Operations

open Webengine.Engine.Roles
open Webengine.Engine.Messages
open Webengine.Engine.AccessList
open Webengine.Engine.Providers
open Webengine.Engine.Routing
open Webengine.Engine.Sessions
open Webengine.Library.Programs (Prog)
open Webengine.Library.Machines (Machine Event)

/-- What can be registered as a handler: the closures of the engine, and `user` for those of
the application. -/
inductive Handler (U : Type)
  | login | logout | check
  | aclList | aclSet | aclRemove
  | usersList | usersAdd | usersRemove | usersSetRole
  | protectedFile (fsRoot urlPrefix : Str)
  | user (u : U)

/-- The atomic steps. `call` and `pass` change nothing: they mark in the history where a
dispatch enters a handler, and where a gate has let a session through. -/
inductive Op (U : Type)
  | route (method : Verb) (path : Str)
  | call (h : Handler U) (ctx : RequestContext)
  | validate (token : Str)
  | randBytes
  | insert (token username : Str) (role : Role) (ttl : Duration)
  | revoke (token : Str)
  | authenticate (username password : Str)
  | supportsManagement
  | addUser (username password : Str) (role : Role)
  | removeUser (username : Str)
  | setUserRole (username : Str) (role : Role)
  | listUsers
  | authorize (role : Role) (path : Str)
  | aclSet (p : Str) (minRole : Role)
  | aclRemove (p : Str)
  | aclList
  | pass (user : UserInfo)
  | openFile (name : Str)
  | addRoute (method : Verb) (path : Str) (h : Handler U) (minRole : Option Role)
  | addPrefixRoute (method : Verb) (p : Str) (h : Handler U) (minRole : Option Role)
  | setRouteRole (path : Str) (minRole : Option Role)

@[reducible] def Ans {U : Type} : Op U → Type
  | .route _ _ => Option (Handler U × Option Role)
  | .call _ _ => Unit
  | .validate _ => Option TokenEntry
  | .randBytes => Option Buffer
  | .insert _ _ _ _ => Unit
  | .revoke _ => Unit
  | .authenticate _ _ => Except Str (Option Role)
  | .supportsManagement => Bool
  | .addUser _ _ _ => Except Str Bool
  | .removeUser _ => Except Str Bool
  | .setUserRole _ _ => Except Str Bool
  | .listUsers => List UserInfo
  | .authorize _ _ => Bool
  | .aclSet _ _ => Unit
  | .aclRemove _ => Unit
  | .aclList => List AclEntry
  | .pass _ => Unit
  | .openFile _ => Option Str
  | .addRoute _ _ _ _ => Unit
  | .addPrefixRoute _ _ _ _ => Unit
  | .setRouteRole _ _ => Bool

/-- Code of the engine: programs over its steps that may throw. -/
abbrev Code (U α : Type) := Prog Str (@Ans U) α

/-- The steady clock, the provider and the members of `WebEngine::Impl` that requests share. -/
structure EngineState (P : AuthProvider) (U : Type) where
  now : TimePoint
  provider : P.State
  tokens : TokenStore
  acl : Acl
  router : Router (Handler U)

/-- The choices of the outside world at one step: how much time has passed since the last
one, the random bytes (or a failure), the provider's choices, the files that can be read. -/
structure EngineEnv (P : AuthProvider) where
  elapsed : Nat
  random : Option Buffer
  choice : P.Choice
  files : Str → Option Str

variable {P : AuthProvider} {U : Type}

def engineStep (env : EngineEnv P) (s₀ : EngineState P U) :
    (o : Op U) → Ans o × EngineState P U :=
  let s := { s₀ with now := s₀.now + env.elapsed }
  fun
  | .route method path => (s.router.select method path, s)
  | .call _ _ => ((), s)
  | .validate token => (s.tokens.validate s.now token, s)
  | .randBytes => (env.random, s)
  | .insert token username role ttl =>
    ((), { s with tokens := s.tokens.insert s.now token username role ttl })
  | .revoke token => ((), { s with tokens := s.tokens.revoke token })
  | .authenticate username password =>
    let r := P.authenticate env.choice s.provider username password
    (r.1, { s with provider := r.2 })
  | .supportsManagement => (P.supportsManagement s.provider, s)
  | .addUser username password role =>
    let r := P.addUser env.choice s.provider username password role
    (r.1, { s with provider := r.2 })
  | .removeUser username =>
    let r := P.removeUser env.choice s.provider username
    (r.1, { s with provider := r.2 })
  | .setUserRole username role =>
    let r := P.setUserRole env.choice s.provider username role
    (r.1, { s with provider := r.2 })
  | .listUsers => (P.listUsers s.provider, s)
  | .authorize role path => (s.acl.authorize role path, s)
  | .aclSet p minRole => ((), { s with acl := s.acl.set p minRole })
  | .aclRemove p => ((), { s with acl := s.acl.remove p })
  | .aclList => (s.acl.list, s)
  | .pass _ => ((), s)
  | .openFile name => (env.files name, s)
  | .addRoute method path h minRole =>
    ((), { s with router := s.router.addRoute method path h minRole })
  | .addPrefixRoute method p h minRole =>
    ((), { s with router := s.router.addPrefixRoute method p h minRole })
  | .setRouteRole path minRole =>
    let r := s.router.setRouteRole path minRole
    (r.1, { s with router := r.2 })

/-- The engine as a machine for its atomic steps. -/
abbrev engine (P : AuthProvider) (U : Type) : Machine (@Ans U) where
  State := EngineState P U
  Env := EngineEnv P
  step := engineStep

/-- A freshly constructed engine around a provider. -/
def fresh (now : TimePoint) (provider : P.State) : EngineState P U :=
  ⟨now, provider, TokenStore.empty, Acl.empty, Router.empty⟩

/-- The clock reading of a step. -/
def time (e : Event (engine P U)) : TimePoint := e.post.now

end Webengine.Engine.Operations
