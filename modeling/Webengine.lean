import Webengine.Results.SharedDescriptors
import Webengine.Results.ConcurrentCommands
import Webengine.Control.Holders
import Webengine.Control.Pipes
import Webengine.Library.Tables
import Webengine.Control.Descriptors
import Webengine.Library.Runs
import Webengine.Results.ServedFiles
import Webengine.Results.AdministeredRules
import Webengine.Results.ExampleService
import Webengine.Results.LiveSessions
import Webengine.Results.Registrations
import Webengine.Results.ServerRequests
import Webengine.Control.Requests
import Webengine.Results.BoundedWaits
import Webengine.Results.ErrorReports
import Webengine.Control.Reports
import Webengine.Library.Traces
import Webengine.Results.WorkerPool
import Webengine.Engine.Serving
import Webengine.Library.LoopHistories
import Webengine.Library.EventLoops
import Webengine.Results.PortChange
import Webengine.Control.Lighttpd
import Webengine.Control.Nginx
import Webengine.Control.Controllers
import Webengine.Control.ProcessUtil
import Webengine.Control.Host
import Webengine.Library.Files
import Webengine.Results.RolesAtLogin
import Webengine.Engine.TestProvider
import Webengine.Results.AdminOnly
import Webengine.Results.SessionProvenance
import Webengine.Engine.Issuance
import Webengine.Results.Containment
import Webengine.Engine.Footprints
import Webengine.Engine.Stages
import Webengine.Results.NginxGate
import Webengine.Results.GateAgreement
import Webengine.Results.ServedResource
import Webengine.Engine.Paths
import Webengine.Engine.Gates
import Webengine.Library.Segments
import Webengine.Library.Interleavings
import Webengine.Results.AclMap
import Webengine.Results.RouterTables
import Webengine.Results.CookieValues
import Webengine.Results.LogoutScope
import Webengine.Results.SessionLives
import Webengine.Results.MutationReports
import Webengine.Results.UserTable
import Webengine.Results.ResponseFraming
import Webengine.Results.StaysUp
import Webengine.Control.Simulation
import Webengine.Results.SameMachine
import Webengine.Results.PortRequests
import Webengine.Results.ServedPorts
import Webengine.Results.LoginBodies
import Webengine.Results.SignalTargets
import Webengine.Control.Application
import Webengine.Results.PortValues
import Webengine.Library.Rounds
import Webengine.Control.Spawning
import Webengine.Results.ChildOutcomes
import Webengine.Results.WholeFiles
import Webengine.Control.Replacement
