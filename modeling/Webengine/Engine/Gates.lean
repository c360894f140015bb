/- source: backend/src/AuthHandler.cpp (handle_check, handle_protected_file)
   digest: What one gated request does from a given state: who is let through, which file is
   opened, and what is answered. -/

import Webengine.Engine.AuthEndpoints
import Webengine.Library.Segments

set_option autoImplicit false
set_option relaxedAutoImplicit false

namespace Webengine.Engine.Gates

open Webengine.Engine.Roles
open Webengine.Engine.Messages
open Webengine.Engine.AccessList (Acl)
open Webengine.Engine.Credentials
open Webengine.Engine.Sessions
open Webengine.Engine.Operations
open Webengine.Engine.AuthEndpoints
open Webengine.Engine.Providers (AuthProvider)
open Webengine.Library.Machines
open Webengine.Library.Segments
open Webengine.Library.Texts

/-- Paths as the file system spells them. -/
def posix : Spelling Char := ⟨'/', ['.'], ['.', '.']⟩

variable {P : AuthProvider} {U : Type}

/-- The session a request presents, at the next step of the clock. -/
def session (s : EngineState P U) (env : EngineEnv P) (req : Request) : Option TokenEntry :=
  if extractToken req = [] then none
  else s.tokens.validate (s.now + env.elapsed) (extractToken req)

/-- The user a gate let through. -/
def admitted (l : List (Event (engine P U))) : Option UserInfo :=
  l.findSome? fun e => match e.op with
    | .pass user => some user
    | _ => none

/-- The file a gate went on to open. -/
def opened (l : List (Event (engine P U))) : Option Str :=
  l.findSome? fun e => match e.op with
    | .openFile name => some name
    | _ => none

/-- What a gate decides about a request. -/
inductive Verdict
  | unauthenticated
  | denied
  | passed (user : UserInfo)
  deriving DecidableEq

def Verdict.user : Verdict → Option UserInfo
  | .passed user => some user
  | _ => none

/-- The decision for a session under an access list that is asked about a path, if any. -/
def verdict (acl : Acl) : Option TokenEntry → Option Str → Verdict
  | none, _ => .unauthenticated
  | some entry, none => .passed ⟨entry.username, entry.role⟩
  | some entry, some path =>
    if acl.authorize entry.role path then .passed ⟨entry.username, entry.role⟩ else .denied

section Check

variable (s : EngineState P U) (env : Nat → EngineEnv P) (req : Request)

/-- The verdict of /auth-check, which asks about the original URI. -/
def checkVerdict : Verdict :=
  verdict s.acl (session s (env 0) req)
    (if originalUri req = [] then none else some (originalUri req))

def checkResponse : Verdict → Response
  | .unauthenticated => statusResponse .unauthorized
  | .denied => statusResponse .forbidden
  | .passed user => checkOk user

abbrev checkRun : Outcome (engine P U) Str Response := run (engine P U) (handleCheck req) s env

/-- /auth-check answers and lets through as its verdict says. -/
theorem checkRun_spec :
    (checkRun s env req).result = .ok (checkResponse (checkVerdict s env req)) ∧
      admitted (checkRun s env req).log = (checkVerdict s env req).user := by
  rw [checkRun, handleCheck_eq, checkVerdict, session]
  by_cases htok : extractToken req = []
  · simp [htok, checkSession, verdict, checkResponse, Verdict.user, admitted]
  · simp only [htok, if_false, run_op, engineStep]
    cases s.tokens.validate (s.now + (env 0).elapsed) (extractToken req) with
    | none => simp [checkSession, verdict, checkResponse, Verdict.user, admitted]
    | some entry =>
      by_cases huri : originalUri req = []
      · simp [checkSession, checkAnswer, huri, verdict, checkResponse, Verdict.user, admitted,
          run_op]
      · by_cases hacl : s.acl.authorize entry.role (originalUri req) <;>
        simp [checkSession, checkAnswer, huri, hacl, verdict, checkResponse, Verdict.user, admitted,
          run_op, engineStep]

end Check

section ProtectedFile

variable (s : EngineState P U) (env : Nat → EngineEnv P) (req : Request)
  (fsRoot urlPrefix : Str)

/-- The verdict on a gated file, which asks about the request path. -/
def fileVerdict : Verdict := verdict s.acl (session s (env 0) req) (some (cut '?' req.target))

/-- The path below the prefix has two dots in a row. -/
def Escapes : Prop := dotDot <:+: relativePath urlPrefix (cut '?' req.target)

instance : Decidable (Escapes req urlPrefix) := decidable_of_iff _ find_isSome_iff

/-- The file a gated request goes on to. -/
def fileOpened : Verdict → Option Str
  | .passed _ =>
    if Escapes req urlPrefix then none
    else some (filePath fsRoot (servedPath urlPrefix req.target))
  | _ => none

/-- The answer, with what the file system had to say about the file. -/
def fileResponse (content : Option Str) : Verdict → Response
  | .unauthenticated => redirect req
  | .denied => accessDenied
  | .passed _ =>
    if Escapes req urlPrefix then accessDenied
    else fileAnswer (servedPath urlPrefix req.target) content

abbrev fileRun : Outcome (engine P U) Str Response :=
  run (engine P U) (handleProtectedFile req fsRoot urlPrefix) s env

/-- The gated files are answered, opened and let through as the verdict says. -/
theorem fileRun_spec :
    (∃ content, (fileRun s env req fsRoot urlPrefix).result =
      .ok (fileResponse req urlPrefix content (fileVerdict s env req))) ∧
    opened (fileRun s env req fsRoot urlPrefix).log =
      fileOpened req fsRoot urlPrefix (fileVerdict s env req) ∧
    admitted (fileRun s env req fsRoot urlPrefix).log = (fileVerdict s env req).user := by
  rw [fileRun, handleProtectedFile_eq, fileVerdict, session]
  by_cases htok : extractToken req = []
  · simp [htok, protectedSession, verdict, fileResponse, fileOpened, Verdict.user, opened,
      admitted]
  · simp only [htok, if_false, run_op, engineStep]
    cases s.tokens.validate (s.now + (env 0).elapsed) (extractToken req) with
    | none => simp [protectedSession, verdict, fileResponse, fileOpened, Verdict.user, opened,
        admitted]
    | some entry =>
      by_cases hacl : s.acl.authorize entry.role (cut '?' req.target)
      · by_cases hdots : Escapes req urlPrefix
        · have hfind := find_isSome_iff.mpr hdots
          simp [protectedSession, protectedAnswer, hacl, hdots, hfind, verdict, fileResponse,
            fileOpened, Verdict.user, opened, admitted, run_op, engineStep]
        · have hfind := mt find_isSome_iff.mp hdots
          simp [protectedSession, protectedAnswer, hacl, hdots, hfind, verdict, fileResponse,
            fileOpened, Verdict.user, opened, admitted, run_op, engineStep]
      · simp [protectedSession, protectedAnswer, hacl, verdict, fileResponse, fileOpened,
          Verdict.user, opened, admitted, run_op, engineStep]

end ProtectedFile

section OneSession

/-- A provider that accepts nobody. -/
def nobody : AuthProvider :=
  AuthProvider.readOnly fun (_ : Unit) (s : Unit) _ _ => (.ok none, s)

/-- An engine at time 0 with a single session of eight hours, whose token is `t`. -/
def oneSession (acl : Acl) (user : UserInfo) : EngineState nobody Empty where
  now := 0
  provider := ()
  tokens := TokenStore.empty.insert 0 "t".toList user.username user.role sessionTtl
  acl := acl
  router := Routing.Router.empty

/-- The clock stands, nothing is random and no file can be read. -/
def still : Nat → EngineEnv nobody := fun _ => ⟨0, none, (), fun _ => none⟩

/-- A GET with the cookie of that session. -/
def visit (target : Str) (extra : Fields) : Request where
  method := .get
  target := target
  version := 11
  fields := ("Cookie".toList, "session=t".toList) :: extra
  body := []

theorem extractToken_visit (target : Str) (extra : Fields) :
    extractToken (visit target extra) = "t".toList := by
  have cookie : (visit target extra).find "Cookie".toList = some "session=t".toList := rfl
  have value : extractCookie "session=t".toList "session".toList = "t".toList := by decide
  unfold extractToken
  simp only [cookie, value]
  rw [if_pos (by decide)]

@[simp] theorem session_visit (acl : Acl) (user : UserInfo) (target : Str) (extra : Fields) :
    session (oneSession acl user) (still 0) (visit target extra) =
      some ⟨user.username, user.role, sessionTtl⟩ := by
  rw [session, extractToken_visit, if_neg (by decide), TokenStore.validate_eq_some_iff]
  constructor
  · simp [oneSession, TokenStore.insert]
  · have now : (0 : Int) + (0 : Nat) ≤ sessionTtl := by decide
    exact now

end OneSession

end Webengine.Engine.Gates
