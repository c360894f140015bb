/- source: backend/src/util.hpp
   digest: The session cookie and the token a request presents. -/

import Webengine.Engine.Messages
import Webengine.Library.Texts

set_option autoImplicit false
set_option relaxedAutoImplicit false

namespace Webengine.Engine.Credentials

open Webengine.Engine.Roles (Str)
open Webengine.Engine.Messages (Request)
open Webengine.Library.Texts (find cut trim after)

/-- Extracts the value of cookie `name` from a Cookie header; empty if absent. -/
def extractCookie (cookieHeader name : Str) : Str :=
  let search := name ++ ['=']
  match find search cookieHeader with
  | none => []
  | some pos => trim ' ' (cut ';' (cookieHeader.drop (pos + search.length)))

/-- The session cookie first, then an `Authorization: Bearer` header; empty if neither. -/
def extractToken (req : Request) : Str :=
  let bearer :=
    match req.find "Authorization".toList with
    | some hv => if "Bearer ".toList.isPrefixOf hv then hv.drop 7 else []
    | none => []
  match req.find "Cookie".toList with
  | some cookie =>
    let token := extractCookie cookie "session".toList
    if token ≠ [] then token else bearer
  | none => bearer

theorem extractCookie_eq (cookieHeader name : Str) :
    extractCookie cookieHeader name = match after (name ++ ['=']) cookieHeader with
      | none => []
      | some rest => trim ' ' (cut ';' rest) := by
  simp only [extractCookie, after]
  cases find (name ++ ['=']) cookieHeader <;> rfl

end Webengine.Engine.Credentials
