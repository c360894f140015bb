/- source: backend/src/WebEngine.cpp (enable_admin_endpoints)
   digest: The management endpoints for the access list and the users. -/

import Webengine.Engine.AuthEndpoints

set_option autoImplicit false
set_option relaxedAutoImplicit false

namespace Webengine.Engine.AdminEndpoints

open Webengine.Engine.Roles
open Webengine.Engine.Messages
open Webengine.Engine.Payloads
open Webengine.Engine.Operations
open Webengine.Engine.AuthEndpoints (step)
open Webengine.Library.Programs (Prog)

variable {U : Type}

/-- A field that is present and not empty. -/
def nonempty : Option Str → Option Str
  | some s => if s = [] then none else some s
  | none => none

/-- What a handler takes from its body: nothing on a parse error or a missing field. -/
def aclSetArgs : Bool × AclSetReq → Option (Str × Role)
  | (true, _) => none
  | (false, req) => do return (← nonempty req.pathPrefix, ← roleFromString (← req.role))

def prefixArgs : Bool × PrefixReq → Option Str
  | (true, _) => none
  | (false, req) => nonempty req.pathPrefix

def addUserArgs : Bool × AddUserReq → Option (Str × Str × Role)
  | (true, _) => none
  | (false, req) => do
    return (← nonempty req.username, ← nonempty req.password, ← roleFromString (← req.role))

def usernameArgs : Bool × UsernameReq → Option Str
  | (true, _) => none
  | (false, req) => nonempty req.username

def setRoleArgs : Bool × SetRoleReq → Option (Str × Role)
  | (true, _) => none
  | (false, req) => do return (← nonempty req.username, ← roleFromString (← req.role))

section Args

variable {username password p : Str} {role : Role}

private theorem nonempty_eq_some_iff {o : Option Str} {s : Str} :
    nonempty o = some s ↔ o = some s ∧ s ≠ [] := by
  cases o with
  | none => simp [nonempty]
  | some t =>
    by_cases empty : t = []
    · rw [nonempty, if_pos empty]
      refine iff_of_false (by simp) ?_
      rintro ⟨same, full⟩
      exact full (Option.some.inj same ▸ empty)
    · rw [nonempty, if_neg empty]
      constructor
      · intro same
        exact ⟨same, Option.some.inj same ▸ empty⟩
      · exact And.left

theorem prefixArgs_eq_some_iff {r : Bool × PrefixReq} :
    prefixArgs r = some p ↔ r = (false, ⟨some p⟩) ∧ p ≠ [] := by
  obtain ⟨err, given⟩ := r
  cases err with
  | true => simp [prefixArgs]
  | false => simp [prefixArgs, nonempty_eq_some_iff, PrefixReq.ext_iff]

theorem usernameArgs_eq_some_iff {r : Bool × UsernameReq} :
    usernameArgs r = some username ↔ r = (false, ⟨some username⟩) ∧ username ≠ [] := by
  obtain ⟨err, given⟩ := r
  cases err with
  | true => simp [usernameArgs]
  | false => simp [usernameArgs, nonempty_eq_some_iff, UsernameReq.ext_iff]

theorem aclSetArgs_eq_some_iff {r : Bool × AclSetReq} : aclSetArgs r = some (p, role) ↔
    r = (false, ⟨some p, some (roleName role)⟩) ∧ p ≠ [] := by
  obtain ⟨err, given, text⟩ := r
  cases err with
  | true => simp [aclSetArgs]
  | false => simp [aclSetArgs, Option.bind_eq_some_iff, nonempty_eq_some_iff,
      roleFromString_eq_some_iff, and_right_comm]

theorem setRoleArgs_eq_some_iff {r : Bool × SetRoleReq} : setRoleArgs r = some (username, role) ↔
    r = (false, ⟨some username, some (roleName role)⟩) ∧ username ≠ [] := by
  obtain ⟨err, given, text⟩ := r
  cases err with
  | true => simp [setRoleArgs]
  | false => simp [setRoleArgs, Option.bind_eq_some_iff, nonempty_eq_some_iff,
      roleFromString_eq_some_iff, and_right_comm]

theorem addUserArgs_eq_some_iff {r : Bool × AddUserReq} :
    addUserArgs r = some (username, password, role) ↔
      r = (false, ⟨some username, some password, some (roleName role)⟩) ∧
        username ≠ [] ∧ password ≠ [] := by
  obtain ⟨err, given, secret, text⟩ := r
  cases err with
  | true => simp [addUserArgs]
  | false =>
    have members : addUserArgs (false, ⟨given, secret, text⟩) = some (username, password, role) ↔
        (given = some username ∧ username ≠ []) ∧ (secret = some password ∧ password ≠ []) ∧
          text = some (roleName role) := by
      simp [addUserArgs, Option.bind_eq_some_iff, nonempty_eq_some_iff, roleFromString_eq_some_iff]
    rw [members]
    constructor
    · rintro ⟨⟨rfl, named⟩, ⟨rfl, keyed⟩, rfl⟩
      exact ⟨rfl, named, keyed⟩
    · rintro ⟨same, named, keyed⟩
      cases same
      exact ⟨⟨rfl, named⟩, ⟨rfl, keyed⟩, rfl⟩

/-- The mutation a body names at an endpoint: it is read without an error, all members are
present, none is empty, and the role is given by its wire name. -/
inductive Names (glz : Glaze) (body : Str) : Handler U → Op U → Prop
  | aclSet {p : Str} {minRole : Role} : p ≠ [] →
      glz.readAclSetReq body = (false, ⟨some p, some (roleName minRole)⟩) →
      Names glz body .aclSet (.aclSet p minRole)
  | aclRemove {p : Str} : p ≠ [] → glz.readPrefixReq body = (false, ⟨some p⟩) →
      Names glz body .aclRemove (.aclRemove p)
  | usersAdd {username password : Str} {role : Role} : username ≠ [] → password ≠ [] →
      glz.readAddUserReq body = (false, ⟨some username, some password, some (roleName role)⟩) →
      Names glz body .usersAdd (.addUser username password role)
  | usersRemove {username : Str} : username ≠ [] →
      glz.readUsernameReq body = (false, ⟨some username⟩) →
      Names glz body .usersRemove (.removeUser username)
  | usersSetRole {username : Str} {role : Role} : username ≠ [] →
      glz.readSetRoleReq body = (false, ⟨some username, some (roleName role)⟩) →
      Names glz body .usersSetRole (.setUserRole username role)

end Args

variable (glz : Glaze)

def badRequest (message : Str) : Response := json .badRequest (glz.error message)

def userNotFound : Response := json .notFound (glz.error "user not found".toList)

def okResponse : Response := json .ok statusOk

/-- The user endpoints answer 501 for a provider without management. -/
def managed (body : Code U Response) : Code U Response := do
  if ← step .supportsManagement then body
  else pure (json .notImplemented (glz.error "auth provider is read-only".toList))

/-- One call of the provider; what it throws goes on as an exception. -/
def provided {α : Type} (call : Code U (Except Str α)) : Code U α := do
  Prog.ofExcept (← call)

/-- GET /api/admin/acl. -/
def aclList : Code U Response := do
  pure (json .ok (glz.writeAclListView (aclListView (← step .aclList))))

/-- POST /api/admin/acl. -/
def aclSet (req : Request) : Code U Response :=
  match aclSetArgs (glz.readAclSetReq req.body) with
  | none => pure (badRequest glz
      "required: prefix (string), role (admin|user|viewer|guest)".toList)
  | some (p, minRole) => do
    step (.aclSet p minRole)
    pure okResponse

/-- DELETE /api/admin/acl. -/
def aclRemove (req : Request) : Code U Response :=
  match prefixArgs (glz.readPrefixReq req.body) with
  | none => pure (badRequest glz "required: prefix (string)".toList)
  | some p => do
    step (.aclRemove p)
    pure okResponse

/-- GET /api/admin/users. -/
def usersList : Code U Response := do
  pure (json .ok (glz.writeUserListView (userListView (← step .listUsers))))

/-- POST /api/admin/users; the answer of `add_user` is dropped. -/
def usersAdd (req : Request) : Code U Response := managed glz <|
  match addUserArgs (glz.readAddUserReq req.body) with
  | none => pure (badRequest glz
      "required: username, password, role (admin|user|viewer|guest)".toList)
  | some (username, password, role) => do
    let _ ← provided (step (.addUser username password role))
    pure okResponse

/-- DELETE /api/admin/users. -/
def usersRemove (req : Request) : Code U Response := managed glz <|
  match usernameArgs (glz.readUsernameReq req.body) with
  | none => pure (badRequest glz "required: username (string)".toList)
  | some username => do
    if ← provided (step (.removeUser username)) then pure okResponse
    else pure (userNotFound glz)

/-- PATCH /api/admin/users. -/
def usersSetRole (req : Request) : Code U Response := managed glz <|
  match setRoleArgs (glz.readSetRoleReq req.body) with
  | none => pure (badRequest glz
      "required: username, role (admin|user|viewer|guest)".toList)
  | some (username, role) => do
    if ← provided (step (.setUserRole username role)) then pure okResponse
    else pure (userNotFound glz)

end Webengine.Engine.AdminEndpoints
