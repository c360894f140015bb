/- source: backend/src/AuthHandler.cpp (handle_check), backend/src/Acl.hpp,
   nginx/nginx.conf (location /protected/, location = /auth-check)
   digest: The auth check is asked about the URI as the client sent it, nginx serves its
   normal form: the decision is about the served file exactly for normal URIs. -/

import Webengine.Engine.Gates

set_option autoImplicit false
set_option relaxedAutoImplicit false

namespace Webengine.Results.NginxGate

open Webengine.Engine.Roles
open Webengine.Engine.Messages
open Webengine.Engine.AccessList
open Webengine.Engine.Sessions
open Webengine.Engine.Operations
open Webengine.Engine.AuthEndpoints (originalUri checkOk)
open Webengine.Engine.Gates
open Webengine.Engine.Providers (AuthProvider)
open Webengine.Library.Hex (hexValue)
open Webengine.Library.Segments
open Webengine.Library.Texts

/-- The location whose files the check guards. -/
def guarded : Str := "/protected/".toList

/-- Where the check answers 200 for the URI `u`, the session is authorized for what nginx
serves, the normal form `n u`. -/
def DecidesOnNormal (n : Str → Str) (u : Str) : Prop :=
  ∀ (P : AuthProvider) (U : Type) (s : EngineState P U) (env : Nat → EngineEnv P)
    (sub : Request) (entry : TokenEntry) (res : Response),
    sub.find "X-Original-URI".toList = some u → session s (env 0) sub = some entry →
    (checkRun s env sub).result = .ok res → res.status = .ok →
    s.acl.authorize entry.role (n u) = true

/-- The sub-request of /auth-check for a URI, with the cookie of the one session. -/
def checkOf (u : Str) : Request := visit "/auth-check".toList [("X-Original-URI".toList, u)]

private theorem originalUri_checkOf (u : Str) : originalUri (checkOf u) = u := rfl

private theorem authorize_of_ok {P : AuthProvider} {U : Type} {s : EngineState P U}
    {env : Nat → EngineEnv P} {sub : Request} {entry : TokenEntry} {res : Response} {u : Str}
    (uri : sub.find "X-Original-URI".toList = some u) (asked : u ≠ [])
    (live : session s (env 0) sub = some entry)
    (answer : (checkRun s env sub).result = .ok res) (ok : res.status = .ok) :
    s.acl.authorize entry.role u = true := by
  have original : originalUri sub = u := by
    rw [originalUri, uri, Option.getD_some]
  rw [(checkRun_spec s env sub).1, checkVerdict, live, original, if_neg asked, verdict] at answer
  by_contra closed
  rw [if_neg closed] at answer
  cases answer
  simp [checkResponse] at ok

/-- For a URI of the guarded location the decision is about what nginx serves exactly if
the URI is its own normal form. -/
theorem decidesOnNormal_iff {n : Str → Str} {u : Str} (reaches : guarded <+: n u) :
    DecidesOnNormal n u ↔ n u = u := by
  constructor
  · intro decides
    by_contra differ
    obtain ⟨acl, raw, normal⟩ := Acl.exists_separating (Ne.symm differ)
    have passed : checkVerdict (oneSession acl ⟨[], .guest⟩) still (checkOf u) =
        .passed ⟨[], .guest⟩ := by
      have allowed : acl.authorize .guest u = true := by
        rw [Acl.authorize]
        exact roleSatisfies_iff.mpr raw.le
      rw [checkVerdict, originalUri_checkOf, checkOf, session_visit]
      split
      · rfl
      · exact if_pos allowed
    have answer := (checkRun_spec (oneSession acl ⟨[], .guest⟩) still (checkOf u)).1
    have allowed := decides nobody Empty (oneSession acl ⟨[], .guest⟩) still (checkOf u) _ _ rfl
      (session_visit _ _ _ _) answer (by rw [passed]; rfl)
    rw [Acl.authorize, show (oneSession acl ⟨[], .guest⟩).acl = acl from rfl, normal] at allowed
    exact absurd allowed (by decide)
  · intro normal P U s env sub entry res uri live answer ok
    have asked : u ≠ [] := by
      rintro rfl
      rw [normal] at reaches
      exact absurd (List.prefix_nil.mp reaches) (by decide)
    rw [normal]
    exact authorize_of_ok uri asked live answer ok

section Normalization

def unescape : Str → Str
  | '%' :: hi :: lo :: rest =>
    match hexValue hi, hexValue lo with
    | some x, some y => Char.ofNat (16 * x + y) :: unescape rest
    | _, _ => '%' :: unescape (hi :: lo :: rest)
  | c :: rest => c :: unescape rest
  | [] => []

/-- As nginx documents `$uri`: the query dropped, escapes decoded, dot segments resolved and
repeated slashes merged. A trailing slash stays. -/
def normalized (u : Str) : Str :=
  let path := unescape (cut '?' u)
  let names := resolve posix path
  let dir : Bool := path.getLast? = some '/'
  '/' :: ['/'].intercalate names ++ (if dir ∧ names ≠ [] then ['/'] else [])

/-- The theorem at a URI in normal form. -/
theorem decidesOnNormal_docs :
    DecidesOnNormal normalized "/protected/docs/a.txt".toList :=
  (decidesOnNormal_iff (by decide)).mpr (by decide)

/-- Viewers may read the protected files, but not those of one directory. -/
def innerRule : Acl :=
  (Acl.empty.set guarded .viewer).set "/protected/secret/".toList .admin

/-- With one letter of the directory escaped the check lets a viewer through to a file only
Admins may read. -/
theorem escaped_letter_passes_inner_rule :
    guarded <+: normalized "/protected/%73ecret/plans.txt".toList ∧
    ¬ DecidesOnNormal normalized "/protected/%73ecret/plans.txt".toList := by
  refine ⟨by decide, fun decides => ?_⟩
  have answer : (checkRun (oneSession innerRule ⟨"val".toList, .viewer⟩) still
      (checkOf "/protected/%73ecret/plans.txt".toList)).result =
      .ok (checkOk ⟨"val".toList, .viewer⟩) := by
    rw [(checkRun_spec _ _ _).1]
    have passed : checkVerdict (oneSession innerRule ⟨"val".toList, .viewer⟩) still
        (checkOf "/protected/%73ecret/plans.txt".toList) = .passed ⟨"val".toList, .viewer⟩ := by
      decide
    rw [passed]
    rfl
  have allowed := decides nobody Empty _ _ _ _ _ rfl (session_visit innerRule
    ⟨"val".toList, .viewer⟩ _ _) answer rfl
  exact absurd allowed (by decide)

end Normalization

end Webengine.Results.NginxGate
