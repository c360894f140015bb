/- source: backend/src/AuthHandler.cpp, backend/src/util.hpp (validated_token),
   backend/src/TokenStore.hpp (issue)
   digest: The built-in authentication endpoints and the gated static files, as programs of
   the engine's atomic steps. -/

import Webengine.Engine.Credentials
import Webengine.Engine.Operations
import Webengine.Engine.Payloads

set_option autoImplicit false
set_option relaxedAutoImplicit false

namespace Webengine.Engine.AuthEndpoints

open Webengine.Engine.Roles
open Webengine.Engine.Messages
open Webengine.Engine.Credentials
open Webengine.Engine.Payloads
open Webengine.Engine.Sessions
open Webengine.Engine.Operations
open Webengine.Library.Programs (Prog)
open Webengine.Library.Texts (find cut)

variable {U : Type}

/-- The program of one atomic step. -/
def step (o : Op U) : Code U (Ans o) := Prog.perform o

/-- Resolves and validates the session token of a request. -/
def validatedToken (req : Request) : Code U (Option TokenEntry) :=
  let token := extractToken req
  if token = [] then pure none else step (.validate token)

/-- `TokenStore::issue`: the random bytes are drawn outside the lock. -/
def issue (username : Str) (role : Role) (ttl : Duration) : Code U Str := do
  match ← step .randBytes with
  | none => .raise "TokenStore: RAND_bytes failed".toList
  | some buf =>
    step (.insert (tokenOf buf) username role ttl)
    pure (tokenOf buf)

/-- The default of the third argument of `issue`. -/
def sessionTtl : Duration := hours 8

/-- The extension-to-MIME map of the static files. -/
def contentTypeFor (path : Str) : Str :=
  let ext := if '.' ∈ path then (path.reverse.takeWhile (· ≠ '.')).reverse else []
  if ext = "html".toList ∨ ext = "htm".toList then "text/html".toList
  else if ext = "txt".toList then "text/plain".toList
  else if ext = "css".toList then "text/css".toList
  else if ext = "js".toList then "application/javascript".toList
  else if ext = "json".toList then "application/json".toList
  else if ext = "svg".toList then "image/svg+xml".toList
  else if ext = "png".toList then "image/png".toList
  else if ext = "jpg".toList ∨ ext = "jpeg".toList then "image/jpeg".toList
  else if ext = "ico".toList then "image/x-icon".toList
  else "application/octet-stream".toList

/-- `auth_.authenticate`; what the provider throws goes on as an exception. -/
def authenticate (username password : Str) : Code U (Option Role) := do
  Prog.ofExcept (← step (.authenticate username password))

/-- POST /api/login. -/
def handleLogin (glz : Glaze) (req : Request) : Code U Response := do
  -- the reader's error is dropped: the fields it did not fill are empty
  let body := (glz.readLoginReq req.body).2
  let username := body.username.getD []
  let password := body.password.getD []
  let role ← if username = [] then pure none else authenticate username password
  match role with
  | none => pure (json .unauthorized (glz.error "invalid credentials".toList))
  | some role =>
    let token ← issue username role sessionTtl
    pure ((json .ok statusOk).set "Set-Cookie".toList
      ("session=".toList ++ token ++ "; HttpOnly; SameSite=Strict; Path=/".toList))

/-- The token POST /api/logout revokes: that of the session cookie only. -/
def logoutToken (req : Request) : Str :=
  match req.find "Cookie".toList with
  | some cookie => extractCookie cookie "session".toList
  | none => []

/-- POST /api/logout. -/
def handleLogout (req : Request) : Code U Response := do
  if logoutToken req ≠ [] then step (.revoke (logoutToken req)) else pure ()
  pure ((json .ok statusOk).set "Set-Cookie".toList
    "session=; HttpOnly; SameSite=Strict; Path=/; Max-Age=0".toList)

/-- The answer of /auth-check that lets the request through. -/
def checkOk (user : UserInfo) : Response :=
  ((statusResponse .ok).set "X-User".toList user.username).set "X-Role".toList
    (roleName user.role)

/-- GET /auth-check. -/
def handleCheck (req : Request) : Code U Response := do
  match ← validatedToken req with
  | none => pure (statusResponse .unauthorized)
  | some entry =>
    let uri := (req.find "X-Original-URI".toList).getD []
    let allowed ← if uri = [] then pure true else step (.authorize entry.role uri)
    if allowed then
      step (.pass ⟨entry.username, entry.role⟩)
      pure (checkOk ⟨entry.username, entry.role⟩)
    else pure (statusResponse .forbidden)

/-- The redirect to the login page. -/
def redirect (req : Request) : Response :=
  (({ status := .found, version := req.version, fields := [], body := [] } : Response).set
    "Location".toList "/?reason=unauthenticated".toList).preparePayload

/-- The request path below the prefix, with `index.html` for a directory. -/
def relativePath (urlPrefix path : Str) : Str :=
  let rel := if urlPrefix.length < path.length then path.drop urlPrefix.length else []
  if rel = [] ∨ rel.getLast? = some '/' then rel ++ "index.html".toList else rel

/-- `fs_root` without one trailing slash, a slash, and the relative path. -/
def filePath (fsRoot rel : Str) : Str :=
  (if fsRoot.getLast? = some '/' then fsRoot.dropLast else fsRoot) ++ '/' :: rel

/-- The text no served path may contain. -/
def dotDot : Str := "..".toList

/-- GET of a gated subtree: the session and ACL gate, then the file. -/
def handleProtectedFile (req : Request) (fsRoot urlPrefix : Str) : Code U Response := do
  let path := cut '?' req.target
  match ← validatedToken req with
  | none => pure (redirect req)
  | some entry =>
    if ← step (.authorize entry.role path) then
      step (.pass ⟨entry.username, entry.role⟩)
      let rel := relativePath urlPrefix path
      -- the test for ".." stands before the leading slashes are stripped
      if (find dotDot rel).isSome then pure (text .forbidden "Access denied".toList)
      else
        let rel := rel.dropWhile (· = '/')
        match ← step (.openFile (filePath fsRoot rel)) with
        | none => pure (text .notFound "Not Found".toList)
        | some content => pure (makeResponse .ok content (contentTypeFor rel))
    else pure (text .forbidden "Access denied".toList)

/-! The endpoints as trees of steps, for the proofs. -/

theorem validatedToken_bind {α : Type} (req : Request) (f : Option TokenEntry → Code U α) :
    (validatedToken req >>= f) =
      if extractToken req = [] then f none else .op (.validate (extractToken req)) f := by
  unfold validatedToken
  by_cases h : extractToken req = []
  · simp only [h, if_true]
    rfl
  · simp only [h, if_false]
    rfl

/-- What a login takes from its body. -/
def loginName (glz : Glaze) (req : Request) : Str := (glz.readLoginReq req.body).2.username.getD []

def loginPassword (glz : Glaze) (req : Request) : Str :=
  (glz.readLoginReq req.body).2.password.getD []

def invalidCredentials (glz : Glaze) : Response :=
  json .unauthorized (glz.error "invalid credentials".toList)

def loginOk (token : Str) : Response :=
  (json .ok statusOk).set "Set-Cookie".toList
    ("session=".toList ++ token ++ "; HttpOnly; SameSite=Strict; Path=/".toList)

/-- The rest of a login after the draw of its token. -/
def loginStore (username : Str) (role : Role) : Option Buffer → Code U Response
  | none => .raise "TokenStore: RAND_bytes failed".toList
  | some buf => .op (.insert (tokenOf buf) username role sessionTtl) fun _ =>
    .ret (loginOk (tokenOf buf))

/-- The rest of a login after the provider's answer. -/
def loginIssue (glz : Glaze) (username : Str) : Except Str (Option Role) → Code U Response
  | .error e => .raise e
  | .ok none => .ret (invalidCredentials glz)
  | .ok (some role) => .op .randBytes (loginStore username role)

theorem handleLogin_eq (glz : Glaze) (req : Request) :
    (handleLogin glz req : Code U Response) =
      if loginName glz req = [] then .ret (invalidCredentials glz)
      else .op (.authenticate (loginName glz req) (loginPassword glz req))
        (loginIssue glz (loginName glz req)) := by
  unfold handleLogin
  by_cases h : loginName glz req = []
  · have h' : (glz.readLoginReq req.body).2.username.getD [] = [] := h
    simp only [h, h', if_true]
    rfl
  · have h' : (glz.readLoginReq req.body).2.username.getD [] ≠ [] := h
    simp only [h, h', if_false, authenticate]
    refine congrArg (Prog.op _) (funext fun ans => ?_)
    cases ans with
    | error e => rfl
    | ok role =>
      cases role with
      | none => rfl
      | some role =>
        refine congrArg (Prog.op _) (funext fun buf => ?_)
        cases buf <;> rfl

def logoutOk : Response :=
  (json .ok statusOk).set "Set-Cookie".toList
    "session=; HttpOnly; SameSite=Strict; Path=/; Max-Age=0".toList

theorem handleLogout_eq (req : Request) :
    (handleLogout req : Code U Response) =
      if logoutToken req = [] then .ret logoutOk
      else .op (.revoke (logoutToken req)) fun _ => .ret logoutOk := by
  unfold handleLogout
  by_cases h : logoutToken req = []
  · simp only [h, ne_eq, not_true_eq_false, if_false, if_true]
    rfl
  · simp only [h, ne_eq, not_false_eq_true, if_false, if_true]
    rfl

/-- The rest of an auth check after the ACL's answer. -/
def checkAnswer (entry : TokenEntry) (allowed : Bool) : Code U Response :=
  if allowed then .op (.pass ⟨entry.username, entry.role⟩) fun _ =>
    .ret (checkOk ⟨entry.username, entry.role⟩)
  else .ret (statusResponse .forbidden)

/-- The URI an auth check asks the ACL about; empty if there is none. -/
def originalUri (req : Request) : Str := (req.find "X-Original-URI".toList).getD []

/-- The rest of an auth check after the session's. -/
def checkSession (req : Request) : Option TokenEntry → Code U Response
  | none => .ret (statusResponse .unauthorized)
  | some entry =>
    if originalUri req = [] then checkAnswer entry true
    else .op (.authorize entry.role (originalUri req)) (checkAnswer entry)

theorem handleCheck_eq (req : Request) :
    (handleCheck req : Code U Response) =
      if extractToken req = [] then checkSession req none
      else .op (.validate (extractToken req)) (checkSession req) := by
  unfold handleCheck
  rw [validatedToken_bind]
  have session : ∀ entry : Option TokenEntry, (match entry with
      | none => pure (statusResponse .unauthorized)
      | some entry => do
        let uri := (req.find "X-Original-URI".toList).getD []
        let allowed ← if uri = [] then pure true else step (.authorize entry.role uri)
        if allowed then do
          step (.pass ⟨entry.username, entry.role⟩)
          pure (checkOk ⟨entry.username, entry.role⟩)
        else pure (statusResponse .forbidden) : Code U Response) = checkSession req entry := by
    intro entry
    cases entry with
    | none => rfl
    | some entry =>
      by_cases h : originalUri req = []
      · have h' : (req.find "X-Original-URI".toList).getD [] = [] := h
        simp only [checkSession, h, h', if_true]
        rfl
      · have h' : (req.find "X-Original-URI".toList).getD [] ≠ [] := h
        simp only [checkSession, h, h', if_false]
        refine congrArg (Prog.op _) (funext fun allowed => ?_)
        cases allowed <;> rfl
  split
  · exact session none
  · exact congrArg (Prog.op _) (funext session)

def accessDenied : Response := text .forbidden "Access denied".toList

/-- The answer with the file's content, or without. -/
def fileAnswer (rel : Str) : Option Str → Response
  | none => text .notFound "Not Found".toList
  | some content => makeResponse .ok content (contentTypeFor rel)

/-- The relative path a gated request opens: without its leading slashes. -/
def servedPath (urlPrefix target : Str) : Str :=
  (relativePath urlPrefix (cut '?' target)).dropWhile (· = '/')

/-- The rest of a gated request after the ACL's answer. -/
def protectedAnswer (req : Request) (fsRoot urlPrefix : Str) (entry : TokenEntry)
    (allowed : Bool) : Code U Response :=
  if allowed then
    .op (.pass ⟨entry.username, entry.role⟩) fun _ =>
      if (find dotDot (relativePath urlPrefix (cut '?' req.target))).isSome then
        .ret accessDenied
      else .op (.openFile (filePath fsRoot (servedPath urlPrefix req.target))) fun content =>
        .ret (fileAnswer (servedPath urlPrefix req.target) content)
  else .ret accessDenied

/-- The rest of a gated request after the session's. -/
def protectedSession (req : Request) (fsRoot urlPrefix : Str) :
    Option TokenEntry → Code U Response
  | none => .ret (redirect req)
  | some entry =>
    .op (.authorize entry.role (cut '?' req.target))
      (protectedAnswer req fsRoot urlPrefix entry)

theorem handleProtectedFile_eq (req : Request) (fsRoot urlPrefix : Str) :
    (handleProtectedFile req fsRoot urlPrefix : Code U Response) =
      if extractToken req = [] then protectedSession req fsRoot urlPrefix none
      else .op (.validate (extractToken req)) (protectedSession req fsRoot urlPrefix) := by
  unfold handleProtectedFile
  simp only [validatedToken_bind]
  have session : ∀ entry : Option TokenEntry, (match entry with
      | none => pure (redirect req)
      | some entry => do
        if ← step (.authorize entry.role (cut '?' req.target)) then do
          step (.pass ⟨entry.username, entry.role⟩)
          let rel := relativePath urlPrefix (cut '?' req.target)
          if (find dotDot rel).isSome then pure (text .forbidden "Access denied".toList)
          else do
            let rel := rel.dropWhile (· = '/')
            match ← step (.openFile (filePath fsRoot rel)) with
            | none => pure (text .notFound "Not Found".toList)
            | some content => pure (makeResponse .ok content (contentTypeFor rel))
        else pure (text .forbidden "Access denied".toList) : Code U Response) =
      protectedSession req fsRoot urlPrefix entry := by
    intro entry
    cases entry with
    | none => rfl
    | some entry =>
      refine congrArg (Prog.op _) (funext fun allowed => ?_)
      cases allowed with
      | false => rfl
      | true =>
        refine congrArg (Prog.op _) (funext fun _ => ?_)
        by_cases h : (find dotDot (relativePath urlPrefix (cut '?' req.target))).isSome
        · simp only [h, if_true]
          rfl
        · simp only [h]
          refine congrArg (Prog.op _) (funext fun content => ?_)
          cases content <;> rfl
  split
  · exact session none
  · exact congrArg (Prog.op _) (funext session)

end Webengine.Engine.AuthEndpoints
