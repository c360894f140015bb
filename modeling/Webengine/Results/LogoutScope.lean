/- source: backend/src/AuthHandler.cpp (handle_logout), backend/src/util.hpp
   digest: Which sessions a logout ends: that of the session cookie, and no other, also if
   the request authenticates with another one. -/

import Webengine.Engine.Gates

set_option autoImplicit false
set_option relaxedAutoImplicit false

namespace Webengine.Results.LogoutScope

open Webengine.Engine.Roles
open Webengine.Engine.Messages
open Webengine.Engine.AccessList (Acl)
open Webengine.Engine.Credentials
open Webengine.Engine.Sessions
open Webengine.Engine.Operations
open Webengine.Engine.AuthEndpoints
open Webengine.Engine.Gates (oneSession still visit)
open Webengine.Engine.Providers (AuthProvider)
open Webengine.Library.Machines

variable {P : AuthProvider} {U : Type}

/-- `validated_token` of a request, in a store at a time. -/
def validatedAt (tokens : TokenStore) (now : TimePoint) (req : Request) : Option TokenEntry :=
  if extractToken req = [] then none else tokens.validate now (extractToken req)

/-- The store a logout leaves. -/
def afterLogout (s : EngineState P U) (env : Nat → EngineEnv P) (req : Request) : TokenStore :=
  (run (engine P U) (handleLogout req) s env).state.tokens

private theorem afterLogout_eq (s : EngineState P U) (env : Nat → EngineEnv P) (req : Request) :
    afterLogout s env req =
      if logoutToken req = [] then s.tokens else s.tokens.revoke (logoutToken req) := by
  unfold afterLogout
  rw [handleLogout_eq]
  split
  · rfl
  · rfl

private theorem extractToken_of_logoutToken {req : Request} (h : logoutToken req ≠ []) :
    extractToken req = logoutToken req := by
  unfold logoutToken at h ⊢
  unfold extractToken
  cases found : req.find "Cookie".toList with
  | none =>
    rw [found] at h
    exact absurd rfl h
  | some cookie =>
    rw [found] at h
    simp only [if_pos h]

private theorem validate_revoke_self (tokens : TokenStore) (now : TimePoint) (token : Str) :
    (tokens.revoke token).validate now token = none := by
  have erased : (tokens.revoke token).store.lookup token = none := AList.lookup_erase _ _
  rw [TokenStore.validate, erased]

private theorem validate_revoke_of_ne (tokens : TokenStore) (now : TimePoint) {token other : Str}
    (h : other ≠ token) : (tokens.revoke token).validate now other = tokens.validate now other := by
  have kept : (tokens.revoke token).store.lookup other = tokens.store.lookup other :=
    AList.lookup_erase_ne h
  rw [TokenStore.validate, TokenStore.validate, kept]

/-- A logout ends the session of a session cookie; without one every session stays, also one
presented by a Bearer header. Tokens the request does not present are never touched. -/
theorem logout_ends_cookie_session (s : EngineState P U) (env : Nat → EngineEnv P)
    (req : Request) :
    (∀ cookie, req.find "Cookie".toList = some cookie →
      extractCookie cookie "session".toList ≠ [] → ∀ now,
        validatedAt (afterLogout s env req) now req = none ∧
          (afterLogout s env req).validate now (extractCookie cookie "session".toList) = none) ∧
    ((∀ cookie, req.find "Cookie".toList = some cookie →
      extractCookie cookie "session".toList = []) → ∀ now token,
        (afterLogout s env req).validate now token = s.tokens.validate now token) ∧
    ∀ now token, token ≠ extractToken req →
      (afterLogout s env req).validate now token = s.tokens.validate now token := by
  rw [afterLogout_eq]
  refine ⟨fun cookie sent present now => ?_, fun absent now token => ?_, fun now token other => ?_⟩
  · have presented : logoutToken req = extractCookie cookie "session".toList := by
      unfold logoutToken
      rw [sent]
    have same := extractToken_of_logoutToken (presented ▸ present)
    rw [if_neg (presented ▸ present), validatedAt, same, presented, if_neg present]
    exact ⟨validate_revoke_self _ _ _, validate_revoke_self _ _ _⟩
  · have nothing : logoutToken req = [] := by
      unfold logoutToken
      cases sent : req.find "Cookie".toList with
      | none => rfl
      | some cookie => exact absent cookie sent
    rw [if_pos nothing]
  · by_cases h : logoutToken req = []
    · rw [if_pos h]
    · rw [extractToken_of_logoutToken h] at other
      rw [if_neg h]
      exact validate_revoke_of_ne _ _ other

/-- The theorem at a session that is live before the logout. -/
theorem logout_ends_cookie_session_alice :
    let s := oneSession Acl.empty ⟨"alice".toList, .user⟩
    let req := visit "/api/logout".toList []
    validatedAt s.tokens 0 req ≠ none ∧
      ∀ now, validatedAt (afterLogout s still req) now req = none := by
  refine ⟨by decide, fun now => ?_⟩
  exact ((logout_ends_cookie_session _ still (visit "/api/logout".toList [])).1 _ rfl
    (by decide) now).1

/-- A logout request that authenticates with a Bearer header. -/
def bearerLogout : Request where
  method := .post
  target := "/api/logout".toList
  version := 11
  fields := [("Authorization".toList, "Bearer t".toList)]
  body := []

/-- Its session is still live after the logout. -/
theorem bearer_session_outlives_logout :
    validatedAt (afterLogout (oneSession Acl.empty ⟨"alice".toList, .user⟩) still bearerLogout) 0
      bearerLogout ≠ none := by
  decide

end Webengine.Results.LogoutScope
