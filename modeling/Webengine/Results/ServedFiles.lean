/- source: backend/src/AuthHandler.cpp (handle_protected_file), backend/src/WebEngine.cpp
   (serve_protected_files, protect_path), backend/src/TokenStore.hpp, backend/src/Acl.hpp
   digest: What a request for a gated file does and is answered in a run, from the logins, the
   logouts and the changes of the rules before it. -/

import Webengine.Results.AdministeredRules
import Webengine.Results.Containment

set_option autoImplicit false
set_option relaxedAutoImplicit false

namespace Webengine.Results.ServedFiles

open Webengine.Engine.Roles
open Webengine.Engine.Messages
open Webengine.Engine.AccessList
open Webengine.Engine.Credentials
open Webengine.Engine.Payloads
open Webengine.Engine.Sessions
open Webengine.Engine.Operations
open Webengine.Engine.AuthEndpoints
open Webengine.Engine.Dispatch
open Webengine.Engine.Stages
open Webengine.Engine.Footprints
open Webengine.Engine.Issuance
open Webengine.Engine.Providers (AuthProvider)
open Webengine.Library.Interleavings
open Webengine.Library.LongestMatch (lookup)
open Webengine.Library.Machines
open Webengine.Library.Programs (Prog)
open Webengine.Library.Texts (cut find find_isSome_iff)
open Webengine.Library.Traces (split_of_own)
open Webengine.Results.AdminOnly (SetupCall configured inertApp serving FreshDraws)
open Webengine.Results.AdministeredRules (rules)
open Webengine.Results.Containment (Within within_filePath)
open Webengine.Results.LiveSessions
open Webengine.Results.Registrations (registered)

variable {P : AuthProvider} {U : Type}

/-- At the step `v` of a history the token is that of a login of the user, not logged out and no
older than eight hours. -/
def SessionAt (app : App U) (reqs : Nat → Request) (log : List (Event (engine P U)))
    (v : Event (engine P U)) (token : Str) (user : UserInfo) : Prop :=
  ∃ before i between after, log = before ++ i :: (between ++ v :: after) ∧
    Login app (fun t => .request (reqs t)) before i token user ∧ Alive reqs token i between v

/-- What the rules of the setup, and those changed before the step `a`, say of a role at a path. -/
def Ruled (calls : List (SetupCall U)) (log : List (Event (engine P U))) (a : Event (engine P U))
    (role : Role) (path : Str) (allowed : Bool) : Prop :=
  a.op = .authorize role path ∧ ∃ before after, log = before ++ a :: after ∧
    roleSatisfies role ((lookup (rules calls before) path).getD .admin) = allowed

/-- What a request for a gated file does behind its route, and is answered. -/
inductive Served (app : App U) (reqs : Nat → Request) (calls : List (SetupCall U))
    (log : List (Event (engine P U))) (req : Request) (fsRoot urlPrefix : Str) :
    List (Event (engine P U)) → Response → Prop
  | noToken : extractToken req = [] →
      Served app reqs calls log req fsRoot urlPrefix [] (redirect req)
  | nobody {v : Event (engine P U)} : v.op = .validate (extractToken req) →
      (∀ user, ¬ SessionAt app reqs log v (extractToken req) user) →
      Served app reqs calls log req fsRoot urlPrefix [v] (redirect req)
  | refused {v a : Event (engine P U)} {user : UserInfo} :
      SessionAt app reqs log v (extractToken req) user →
      Ruled calls log a user.role (cut '?' req.target) false →
      Served app reqs calls log req fsRoot urlPrefix [v, a] accessDenied
  | climbs {v a g : Event (engine P U)} {user : UserInfo} :
      SessionAt app reqs log v (extractToken req) user →
      Ruled calls log a user.role (cut '?' req.target) true → g.op = .pass user →
      dotDot <:+: relativePath urlPrefix (cut '?' req.target) →
      Served app reqs calls log req fsRoot urlPrefix [v, a, g] accessDenied
  | opened {v a g f : Event (engine P U)} {user : UserInfo} :
      SessionAt app reqs log v (extractToken req) user →
      Ruled calls log a user.role (cut '?' req.target) true → g.op = .pass user →
      ¬ dotDot <:+: relativePath urlPrefix (cut '?' req.target) →
      f.op = .openFile (filePath fsRoot (servedPath urlPrefix req.target)) →
      Within fsRoot (filePath fsRoot (servedPath urlPrefix req.target)) →
      Served app reqs calls log req fsRoot urlPrefix [v, a, g, f]
        (fileAnswer (servedPath urlPrefix req.target)
          (f.env.files (filePath fsRoot (servedPath urlPrefix req.target))))

section Runs

variable {glaze : Glaze} {handler : U → RequestContext → Except Str Response}
  {reqs : Nat → Request} {calls : List (SetupCall U)} {now : TimePoint} {provider : P.State}
  {env : Nat → EngineEnv P} {sched : List (Nat × EngineEnv P)}
  {pre post : List (Event (engine P U))} {v a : Event (engine P U)}

private theorem sessionAt_of_found
    (h : (serving glaze handler reqs (configured calls now provider env) sched).log =
      pre ++ v :: post) {req : Request} {entry : TokenEntry}
    (validated : Validated v req (some entry)) :
    SessionAt (inertApp glaze handler) reqs
      (serving glaze handler reqs (configured calls now provider env) sched).log v
      (extractToken req) ⟨entry.username, entry.role⟩ := by
  have empty := (AdminOnly.sealed_configured (U := U) calls now provider env).2
  obtain ⟨before, i, between, rfl, login, quiet, inTime⟩ := login_of_validated empty h validated
  refine ⟨before, i, between, post, by rw [h]; simp, login, fun e he out => ?_, inTime⟩
  exact quiet e he (by rw [out.1]; rfl)

private theorem not_sessionAt_of_none
    (fresh : FreshDraws
      (serving glaze handler reqs (configured calls now provider env) sched).log)
    {req : Request} (validated : Validated v req none) (user : UserInfo) :
    ¬ SessionAt (inertApp glaze handler) reqs
      (serving glaze handler reqs (configured calls now provider env) sched).log v
      (extractToken req) user := by
  rintro ⟨before, i, between, after, split, login, alive⟩
  rcases found_iff_alive split fresh user login.stored validated.1 validated with
    ⟨known, -⟩ | ⟨-, ended⟩
  · cases known
  · exact ended alive

private theorem ruled_of_answer
    (h : (serving glaze handler reqs (configured calls now provider env) sched).log =
      pre ++ a :: post) {role : Role} {path : Str} (asked : a.op = .authorize role path)
    {allowed : Bool} (answer : a.pre.acl.authorize role path = allowed) :
    Ruled calls (serving glaze handler reqs (configured calls now provider env) sched).log a role
      path allowed := by
  refine ⟨asked, pre, post, h, ?_⟩
  rw [← AdministeredRules.acl_pre h, ← Acl.authorize_eq]
  exact answer

private theorem serves_of_registered {method : Verb} {path fsRoot p : Str} {minRole : Option Role}
    (route : (registered calls).select method path = some (.protectedFile fsRoot p, minRole)) :
    .serveProtectedFiles p fsRoot ∈ calls ∧ p <+: path := by
  rcases Registrations.mem_of_registered route with entry | ⟨q, under, entry⟩
  all_goals obtain ⟨c, hc, entry⟩ := List.mem_flatMap.mp entry
  · cases c <;> simp [Registrations.registers, Registrations.exactRoute, authRoutes, adminRoutes]
      at entry
  · cases c with
    | serveProtectedFiles urlPrefix root =>
      simp only [Registrations.registers, List.mem_singleton] at entry
      cases entry
      exact ⟨hc, under⟩
    | _ =>
      simp [Registrations.registers, Registrations.exactRoute, authRoutes, adminRoutes] at entry

private theorem served_of_session
    (fresh : FreshDraws
      (serving glaze handler reqs (configured calls now provider env) sched).log)
    {t : Nat} {fsRoot p : Str} {r c : Event (engine P U)} {l : List (Event (engine P U))}
    {found : Option TokenEntry} {res : Response}
    (steps : own (serving glaze handler reqs (configured calls now provider env) sched).log t =
      r :: c :: v :: l)
    (validated : Validated v (reqs t) found)
    (follows : Follows (protectedSession (reqs t) fsRoot p found) l (.ret res)) :
    Served (inertApp glaze handler) reqs calls
      (serving glaze handler reqs (configured calls now provider env) sched).log (reqs t) fsRoot p
      (v :: l) res := by
  obtain ⟨pre, post, split, -⟩ :=
    split_of_own (t := t) (l := [r, c]) (e := v) steps
  cases found with
  | none =>
    obtain ⟨rfl, same⟩ := follows.of_ret
    cases same
    exact .nobody validated.1 (not_sessionAt_of_none fresh validated)
  | some entry =>
    have session := sessionAt_of_found split validated
    obtain ⟨a, l, rfl, answer⟩ := asked ⟨entry.username, entry.role⟩ follows
    obtain ⟨pre', post', split', -⟩ :=
      split_of_own (t := t) (l := [r, c, v]) (e := a) steps
    rcases answer with ⟨⟨hop, ok⟩, rest⟩ | ⟨⟨hop, refused⟩, rest⟩
    · have ruled := ruled_of_answer split' hop ok
      obtain ⟨t₁, s₁, env₁, l, rfl, passed⟩ := Follows.op_ret rest
      split_ifs at passed with climbs
      · obtain ⟨rfl, same⟩ := passed.of_ret
        cases same
        exact .climbs session ruled rfl (find_isSome_iff.mp climbs)
      · have stays := fun h => climbs (find_isSome_iff.mpr h)
        obtain ⟨t₂, s₂, env₂, l, rfl, read⟩ := Follows.op_ret passed
        obtain ⟨rfl, same⟩ := read.of_ret
        cases same
        exact .opened session ruled rfl stays rfl (within_filePath stays fsRoot)
    · obtain ⟨rfl, same⟩ := rest.of_ret
      cases same
      exact .refused session (ruled_of_answer split' hop refused)

end Runs

/-- Gated files are served to those who may read them. In an engine that was set up and serves any
requests, in any interleaving of their steps: a request that was answered at a subtree of gated
files has done just these steps behind its route. It is sent to the login unless its token is that
of a login that was not logged out and is no older than eight hours; it is refused unless the rules
of that moment let the role of this login in at its path, and if it climbs; and else it is answered
from one file, which lies in the directory of the subtree. -/
theorem gated_files_served (glaze : Glaze) (handler : U → RequestContext → Except Str Response)
    (calls : List (SetupCall U)) (now : TimePoint) (provider : P.State) (env : Nat → EngineEnv P)
    (reqs : Nat → Request) (sched : List (Nat × EngineEnv P))
    (fresh : FreshDraws
      (serving glaze handler reqs (configured calls now provider env) sched).log)
    (t : Nat) (fsRoot p : Str) (minRole : Option Role) (res : Response)
    (route : (registered calls).select (reqs t).method (cut '?' (reqs t).target) =
      some (.protectedFile fsRoot p, minRole))
    (done : (serving glaze handler reqs (configured calls now provider env) sched).pool t =
      .ret res) :
    .serveProtectedFiles p fsRoot ∈ calls ∧ p <+: cut '?' (reqs t).target ∧
    ∃ r c l, own (serving glaze handler reqs (configured calls now provider env) sched).log t =
        r :: c :: l ∧
      Served (inertApp glaze handler) reqs calls
        (serving glaze handler reqs (configured calls now provider env) sched).log (reqs t) fsRoot
        p l res := by
  obtain ⟨set, under⟩ := serves_of_registered route
  refine ⟨set, under, ?_⟩
  have looks : performs (.protectedFile fsRoot p : Handler U) (.validate []) := trivial
  obtain rfl : minRole = none := public_of_registered route looks
  obtain ⟨r, c, l, steps, -, -, follows⟩ := entered_public route done
  refine ⟨r, c, l, steps, ?_⟩
  change Follows ((handleProtectedFile (reqs t) fsRoot p).tryCatch _) l _ at follows
  rw [Prog.tryCatch_of_quiet (quiet_handleProtectedFile fsRoot p),
    handleProtectedFile_eq] at follows
  split_ifs at follows with token
  · obtain ⟨rfl, same⟩ := follows.of_ret
    cases same
    exact .noToken token
  · obtain ⟨t', s, env', l, rfl, rest⟩ := Follows.op_ret follows
    exact served_of_session fresh steps ⟨rfl, by rw [time_eq]; rfl⟩ rest

section Instance

open Webengine.Results.AdminOnly (loginRequest noHandler oneAdmin oneDraw sampleGlaze)

def fileSetup : List (SetupCall Empty) :=
  [.enableAuthEndpoints, .protectPath "/protected/".toList .viewer,
    .serveProtectedFiles "/protected/".toList "/www/protected".toList]

/-- A login, then a request for a gated file with its cookie. -/
def loginThenFile : Nat → Request
  | 0 => loginRequest
  | _ => ⟨.get, "/protected/notes.txt".toList, 11, [("Cookie".toList,
      "session=".toList ++ tokenOf (Vector.replicate 32 7))], []⟩

/-- The file is there. -/
def oneFile : EngineEnv oneAdmin where
  elapsed := 0
  random := oneDraw.random
  choice := ()
  files name := if name = "/www/protected/notes.txt".toList then some "hello".toList else none

def fileRun : Config (engine oneAdmin Empty) Str Response :=
  serving sampleGlaze noHandler loginThenFile (configured fileSetup 0 () fun _ => oneDraw)
    ([0, 0, 0, 0, 0, 1, 1, 1, 1, 1, 1].map fun t => (t, oneFile))

/-- The theorem at that run: the file is served to the user who has logged in. -/
theorem gated_files_served_notes : ∃ r c l, own fileRun.log 1 = r :: c :: l ∧
    Served (inertApp sampleGlaze noHandler) loginThenFile fileSetup fileRun.log (loginThenFile 1)
      "/www/protected".toList "/protected/".toList l
      (makeResponse .ok "hello".toList "text/plain".toList) := by
  have fresh : FreshDraws fileRun.log := by
    unfold FreshDraws
    decide +kernel
  have done : fileRun.pool 1 = .ret (makeResponse .ok "hello".toList "text/plain".toList) :=
    Prog.eq_ret_of_returned (by decide +kernel)
  unfold fileRun at fresh done ⊢
  exact (gated_files_served (P := oneAdmin) sampleGlaze noHandler fileSetup 0 () (fun _ => oneDraw)
    loginThenFile _ fresh 1 _ _ none _ rfl done).2.2

end Instance

end Webengine.Results.ServedFiles
