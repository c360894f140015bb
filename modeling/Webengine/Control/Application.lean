/- source: backend/example/main.cpp, backend/src/WebServerFactory.cpp
   digest: The example application: the environment variables it reads, the controller it makes,
   and the endpoints that drive the controller, as programs of calls on it. -/

import Webengine.Control.Lighttpd
import Webengine.Control.Nginx
import Webengine.Engine.Payloads
import Webengine.Engine.TestProvider

set_option autoImplicit false
set_option relaxedAutoImplicit false

namespace Webengine.Control.Application

open Webengine.Control
open Webengine.Control.Controllers
open Webengine.Control.Host
open Webengine.Engine.Messages
open Webengine.Engine.Payloads
open Webengine.Engine.Roles (Str)
open Webengine.Engine.TestProvider (stoi)
open Webengine.Library.Decimals (integer)
open Webengine.Library.Machines
open Webengine.Library.Programs (Prog)

inductive WebServer
  | nginx | lighttpd
  deriving DecidableEq

def WebServer.name : WebServer → Str
  | .lighttpd => "lighttpd".toList
  | .nginx => "nginx".toList

/-- The name is read without regard to case. -/
def webServerFromString (name : Str) : Option WebServer :=
  let s := name.map Char.toLower
  if s = "nginx".toList then some .nginx
  else if s = "lighttpd".toList then some .lighttpd
  else none

/-- Overrides of the paths of a server; an empty one keeps the default. -/
structure WebServerPaths where
  config : Str
  listenFile : Str
  pidfile : Str
  tempRoot : Str

def override (path default : Str) : Str := if path = [] then default else path

def nginxOptions (paths : WebServerPaths) : Nginx.Options :=
  let o : Nginx.Options := {}
  { o with
    config := override paths.config o.config
    listenFile := override paths.listenFile o.listenFile
    pidfile := override paths.pidfile o.pidfile
    tempRoot := override paths.tempRoot o.tempRoot }

def lighttpdOptions (paths : WebServerPaths) : Lighttpd.Options :=
  let o : Lighttpd.Options := {}
  { o with
    config := override paths.config o.config
    listenFile := override paths.listenFile o.listenFile
    pidfile := override paths.pidfile o.pidfile
    tempRoot := override paths.tempRoot o.tempRoot }

def makeWebServerController (kind : WebServer) (paths : WebServerPaths) : WebServerController :=
  match kind with
  | .lighttpd => Lighttpd.controller (lighttpdOptions paths)
  | .nginx => Nginx.controller (nginxOptions paths)

/-- The server that controller drives. -/
def daemonOf (kind : WebServer) (paths : WebServerPaths) : Daemon :=
  match kind with
  | .lighttpd => Lighttpd.daemon (lighttpdOptions paths)
  | .nginx => Nginx.daemon (nginxOptions paths)

/-- The environment variables; `none` is one that is not set. -/
structure Variables where
  webserver : Option Str
  config : Option Str
  listenFile : Option Str
  pidfile : Option Str
  tempRoot : Option Str
  httpPort : Option Str
  httpsPort : Option Str
  httpPortMin : Option Str
  httpPortMax : Option Str

/-- The number at the front of the text; the fallback where `std::stoi` throws. -/
def envInt (variable_ : Option Str) (fallback : Int) : Int :=
  match variable_ with
  | some v => (stoi v).getD fallback
  | none => fallback

def envStr (variable_ : Option Str) (fallback : Str) : Str := variable_.getD fallback

namespace Variables

variable (vars : Variables)

def kind : WebServer :=
  (webServerFromString (envStr vars.webserver "nginx".toList)).getD .nginx

def paths : WebServerPaths where
  config := envStr vars.config []
  listenFile := envStr vars.listenFile []
  pidfile := envStr vars.pidfile []
  tempRoot := envStr vars.tempRoot []

def http : Int := envInt vars.httpPort 8080

def https : Int := envInt vars.httpsPort 8443

def portMin : Int := envInt vars.httpPortMin 1

def portMax : Int := envInt vars.httpPortMax 65535

end Variables

/-- `static_cast<std::uint16_t>` of an `int`. -/
def toPort (n : Int) : Port := UInt16.ofInt n

/-- The calls of the application on its controller. -/
inductive ServerOp
  | setListenPorts (http https : Port)
  | setListenPort (http : Port)
  | on
  | off
  | reset
  | isRunning
  | httpPort
  | httpsPort
  | lastError

@[reducible] def ServerAns : ServerOp → Type
  | .httpPort => Port
  | .httpsPort => Port
  | .lastError => Str
  | _ => Bool

/-- Code of the application: it catches nothing, and the controller throws nothing. -/
abbrev AppCode (α : Type) := Prog Empty ServerAns α

def call (o : ServerOp) : AppCode (ServerAns o) := Prog.perform o

structure ForceReq where
  force : Option Bool

structure PortReq where
  http : Option Int

/-- The third-party JSON library, with the bodies of these endpoints. -/
structure ServerGlaze extends Glaze where
  readForceReq : Str → Bool × ForceReq
  readPortReq : Str → Bool × PortReq
  writeStatus : (server : Str) → (running : Bool) → (httpPort httpsPort : Port) → Str

variable (glz : ServerGlaze)

/-- `server_result`. -/
def serverResult (ok : Bool) : AppCode Response := do
  if ok then pure (json .ok statusOk)
  else
    let detail ← call .lastError
    pure (json .internalServerError (glz.writeObj
      [("error".toList, "web server command failed".toList), ("detail".toList, detail)]))

def serverOn : AppCode Response := do serverResult glz (← call .on)

/-- The stop has to be confirmed. -/
def serverOff (body : Str) : AppCode Response := do
  let req := glz.readForceReq body
  if req.1 ∨ req.2.force ≠ some true then
    pure (json .conflict (glz.error ("stopping the web server makes this API unreachable since " ++
      "it is the only ingress; resend with force=true to confirm, or use reset").toList))
  else serverResult glz (← call .off)

def serverReset : AppCode Response := do serverResult glz (← call .reset)

/-- POST /api/admin/server/port. -/
def serverPort (portMin portMax : Int) (body : Str) : AppCode Response := do
  let req := glz.readPortReq body
  match req.1, req.2.http with
  | false, some p =>
    if p < portMin ∨ portMax < p then
      pure (json .badRequest (glz.error ("http port must be in the routable range ".toList ++
        integer portMin ++ '-' :: integer portMax)))
    else serverResult glz (← call (.setListenPort (toPort p)))
  | _, _ => pure (json .badRequest (glz.error "required: http (an integer port number)".toList))

def serverStatus (server : Str) : AppCode Response := do
  let running ← call .isRunning
  let httpPort ← call .httpPort
  let httpsPort ← call .httpsPort
  pure (json .ok (glz.writeStatus server running httpPort httpsPort))

/-- The requests to the endpoints under /api/admin/server. -/
inductive ServerRequest
  | on
  | off (body : Str)
  | reset
  | port (body : Str)
  | status

def handle (vars : Variables) : ServerRequest → AppCode Response
  | .on => serverOn glz
  | .off body => serverOff glz body
  | .reset => serverReset glz
  | .port body => serverPort glz vars.portMin vars.portMax body
  | .status => serverStatus glz vars.kind.name

def handleAll (vars : Variables) : List ServerRequest → AppCode (List Response)
  | [] => pure []
  | request :: requests => do
    let response ← handle glz vars request
    let responses ← handleAll vars requests
    pure (response :: responses)

/-- `main` up to `engine.run()`: the listen snippet, then the server. -/
def startUp (vars : Variables) : AppCode Unit := do
  let _ ← call (.setListenPorts (toPort vars.http) (toPort vars.https))
  if !(← call .on) then
    -- the warning on the standard error
    let _ ← call .lastError
  let _ ← call .httpPort

/-- `main`, with the requests `engine.run()` serves before it is told to stop. -/
def main (vars : Variables) (requests : List ServerRequest) : AppCode (List Response) := do
  startUp vars
  let responses ← handleAll glz vars requests
  let _ ← call .off
  pure responses

section Machine

variable (d : Daemon) (c : WebServerController)

/-- A call runs the controller's program to its end; the environment chooses what happens at
each of its steps. -/
def called (p : Code Bool) (env : Nat → Env) (s : State) : Bool × State :=
  match (run (host d) p s env).result with
  | .ok b => (b, (run (host d) p s env).state)
  | .error e => e.elim

def serverStep (env : Nat → Env) (s : State) : (o : ServerOp) → ServerAns o × State
  | .setListenPorts http https => called d (c.setListenPorts http https) env s
  | .setListenPort http => called d (c.setListenPort http) env s
  | .on => called d c.on env s
  | .off => called d c.off env s
  | .reset => called d c.reset env s
  | .isRunning => called d c.isRunning env s
  | .httpPort => (s.http, s)
  | .httpsPort => (s.https, s)
  | .lastError => (s.lastError, s)

/-- A controller as a machine for the calls on it. -/
abbrev controlled : Machine ServerAns where
  State := State
  Env := Nat → Env
  step := serverStep d c

end Machine

/-- Every server is read back from its name. -/
theorem webServerFromString_name (kind : WebServer) :
    webServerFromString kind.name = some kind := by
  cases kind <;> decide

end Webengine.Control.Application
