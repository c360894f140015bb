/- source: backend/src/Router.cpp (dispatch), backend/src/AuthHandler.cpp, backend/src/WebEngine.cpp
   digest: What the engine writes into the header of a response: its own texts, tokens, and the
   name of the user a session is for. -/

import Webengine.Engine.Connection
import Webengine.Engine.Footprints
import Webengine.Library.Decimals

set_option autoImplicit false
set_option relaxedAutoImplicit false

namespace Webengine.Engine.HeaderFields

open Webengine.Engine.Roles
open Webengine.Engine.Messages
open Webengine.Engine.Payloads
open Webengine.Engine.Credentials
open Webengine.Engine.Sessions
open Webengine.Engine.Operations
open Webengine.Engine.AuthEndpoints
open Webengine.Engine.AdminEndpoints
open Webengine.Engine.Dispatch
open Webengine.Engine.Stages
open Webengine.Engine.Connection
open Webengine.Engine.Footprints (configures appCode_only apiCall_only)
open Webengine.Engine.Providers (AuthProvider)
open Webengine.Library.Decimals (isDigit_of_mem_decimal)
open Webengine.Library.Headers
open Webengine.Library.Hex
open Webengine.Library.Interleavings
open Webengine.Library.Programs (Prog)
open Webengine.Library.Texts (cut find)

section Texts

private theorem plain_of_class {p : Char → Bool} {s : Str} (all : ∀ c ∈ s, p c = true)
    (apart : ∀ c, breaks c = true → p c = false) : Plain s := by
  intro c mem
  rw [Bool.eq_false_iff]
  intro bad
  have outside := apart c bad
  rw [all c mem] at outside
  cases outside

private theorem breaks_cases {c : Char} (h : breaks c = true) :
    c = '\r' ∨ c = '\n' ∨ c = '\x00' := by
  simpa [breaks] using h

theorem plain_decimal (n : Nat) : Plain (decimal n) :=
  plain_of_class (p := Char.isDigit) (fun _ mem => isDigit_of_mem_decimal mem) fun c bad => by
    rcases breaks_cases bad with rfl | rfl | rfl <;> rfl

private theorem plain_tokenOf (buf : Buffer) : Plain (tokenOf buf) :=
  plain_of_class (p := fun c => (hexValue c).isSome)
    (fun _ mem => isSome_hexValue_of_mem_hexText mem) fun c bad => by
      rcases breaks_cases bad with rfl | rfl | rfl <;> rfl

theorem plain_append {s t : Str} (hs : Plain s) (ht : Plain t) : Plain (s ++ t) := fun c mem =>
  (List.mem_append.mp mem).elim (hs c) (ht c)

theorem plainFields_preparePayload {res : Response} (h : PlainFields res.fields) :
    PlainFields res.preparePayload.fields :=
  plainFields_set h (by decide) (plain_decimal _)

private theorem plainFields_only {name value : Str} (hn : PlainName name) (hv : Plain value) :
    PlainFields (Fields.set [] name value) :=
  plainFields_set (by simp [PlainFields]) hn hv

private theorem plainFields_makeResponse (status : Status) (body : Str) {contentType : Str}
    (h : Plain contentType) : PlainFields (makeResponse status body contentType).fields :=
  plainFields_preparePayload (plainFields_only (by decide) h)

private theorem plainFields_json (status : Status) (body : Str) :
    PlainFields (json status body).fields :=
  plainFields_makeResponse status body (by decide)

theorem plainFields_text (status : Status) (body : Str) : PlainFields (text status body).fields :=
  plainFields_makeResponse status body (by decide)

private theorem plainFields_statusResponse (status : Status) :
    PlainFields (statusResponse status).fields :=
  plainFields_preparePayload (by simp [PlainFields])

private theorem plain_ite {c : Prop} [Decidable c] {s t : Str} (hs : Plain s) (ht : Plain t) :
    Plain (if c then s else t) := by
  split
  · exact hs
  · exact ht

private theorem plain_contentTypeFor (path : Str) : Plain (contentTypeFor path) := by
  unfold contentTypeFor
  iterate 9 refine plain_ite (by decide) ?_
  decide

private theorem plainFields_loginOk (buf : Buffer) : PlainFields (loginOk (tokenOf buf)).fields :=
  plainFields_set (plainFields_json _ _) (by decide)
    (plain_append (plain_append (by decide) (plain_tokenOf buf)) (by decide))

private theorem plainFields_logoutOk : PlainFields logoutOk.fields :=
  plainFields_set (plainFields_json _ _) (by decide) (by decide)

private theorem plainFields_checkOk {user : UserInfo} (h : Plain user.username) :
    PlainFields (checkOk user).fields := by
  refine plainFields_set (plainFields_set (plainFields_statusResponse .ok) (by decide) h)
    (by decide) ?_
  cases user.role <;> decide

private theorem plainFields_redirect (req : Request) : PlainFields (redirect req).fields :=
  plainFields_preparePayload (plainFields_only (by decide) (by decide))

private theorem plainFields_fileAnswer (rel : Str) (content : Option Str) :
    PlainFields (fileAnswer rel content).fields := by
  cases content with
  | none => exact plainFields_text _ _
  | some content => exact plainFields_makeResponse _ _ (plain_contentTypeFor rel)

end Texts

variable {U : Type} (A : Str → Prop)

/-- The users that a session or the provider tells of are named in `A`. -/
def Told : (o : Op U) → Ans o → Prop
  | .validate _, some entry => A entry.username
  | .authenticate username _, .ok (some _) => A username
  | _, _ => True

/-- Sessions are made for users named in `A`. -/
def Stores : Op U → Prop
  | .insert _ username _ _ => A username
  | _ => True

/-- Code whose responses can be read back, as long as the users are named in `A`. -/
abbrev Writes (p : Code U Response) : Prop :=
  p.Relies (Told A) (Stores A) fun res => PlainFields res.fields

/-- The sessions of an engine, its provider and the handlers of the application write into
headers what is in `A` only: that is how its users are named, and what the handlers write for
the requests in `arrives` and such users. -/
structure Limits {P : AuthProvider} (app : App U) (arrives : Request → Prop)
    (s : EngineState P U) : Prop where
  sessions : ∀ token entry, s.tokens.store.lookup token = some entry → A entry.username
  provider : ∀ choice state username password role,
    (P.authenticate choice state username password).1 = .ok (some role) → A username
  handlers : ∀ u ctx, arrives ctx.request → (∀ user, ctx.user = some user → A user.username) →
    (app.handler u ctx).Relies (fun _ _ => True) (fun _ => True) fun res =>
      ∀ f ∈ res.fields, PlainName f.1 ∧ A f.2

variable {A}

section Endpoints

variable {glz : Glaze} {req : Request}

private theorem stores_of_configures {o : Op U} (h : configures o) : Stores A o := by
  cases o <;> trivial

private theorem writes_validated {found : Option TokenEntry → Code U Response}
    (without : Writes A (found none))
    (with_ : ∀ entry, A entry.username → Writes A (found (some entry))) :
    Writes A (if extractToken req = [] then found none
      else .op (.validate (extractToken req)) found) := by
  split
  · exact without
  · refine ⟨trivial, fun result told => ?_⟩
    cases result with
    | none => exact without
    | some entry => exact with_ entry told

private theorem writes_handleLogin : Writes A (handleLogin glz req : Code U Response) := by
  rw [handleLogin_eq]
  split
  · exact plainFields_json _ _
  · refine ⟨trivial, fun answer told => ?_⟩
    rcases answer with e | _ | role
    · trivial
    · exact plainFields_json _ _
    · refine ⟨trivial, fun drawn _ => ?_⟩
      cases drawn with
      | none => trivial
      | some buf => exact ⟨told, fun _ _ => plainFields_loginOk buf⟩

private theorem writes_handleLogout : Writes A (handleLogout req : Code U Response) := by
  rw [handleLogout_eq]
  split
  · exact plainFields_logoutOk
  · exact ⟨trivial, fun _ _ => plainFields_logoutOk⟩

private theorem writes_handleCheck (plain : ∀ v, A v → Plain v) :
    Writes A (handleCheck req : Code U Response) := by
  rw [handleCheck_eq]
  have answers : ∀ entry allowed, A entry.username →
      Writes A (checkAnswer entry allowed : Code U Response) := by
    intro entry allowed named
    unfold checkAnswer
    split
    · exact ⟨trivial, fun _ _ => plainFields_checkOk (plain _ named)⟩
    · exact plainFields_statusResponse _
  refine writes_validated (plainFields_statusResponse _) fun entry named => ?_
  rw [checkSession]
  split
  · exact answers entry true named
  · exact ⟨trivial, fun allowed _ => answers entry allowed named⟩

private theorem writes_handleProtectedFile (fsRoot urlPrefix : Str) :
    Writes A (handleProtectedFile req fsRoot urlPrefix : Code U Response) := by
  rw [handleProtectedFile_eq]
  refine writes_validated (plainFields_redirect req) fun entry _ => ?_
  refine ⟨trivial, fun allowed _ => ?_⟩
  unfold protectedAnswer
  split
  · refine ⟨trivial, fun _ _ => ?_⟩
    split
    · exact plainFields_text _ _
    · exact ⟨trivial, fun content _ => plainFields_fileAnswer _ content⟩
  · exact plainFields_text _ _

private theorem writes_managed {body : Code U Response} (h : Writes A body) :
    Writes A (managed glz body) := by
  refine ⟨trivial, fun supported _ => ?_⟩
  cases supported with
  | true => exact h
  | false => exact plainFields_json _ _

private theorem writes_provided {α : Type} {found : α → Code U Response}
    (h : ∀ a, Writes A (found a)) (answer : Except Str α) :
    Writes A (Prog.ofExcept answer >>= found) := by
  cases answer with
  | error e => trivial
  | ok a => exact h a

private theorem writes_aclSet : Writes A (aclSet glz req : Code U Response) := by
  unfold aclSet
  split
  · exact plainFields_json _ _
  · exact ⟨trivial, fun _ _ => plainFields_json _ _⟩

private theorem writes_aclRemove : Writes A (aclRemove glz req : Code U Response) := by
  unfold aclRemove
  split
  · exact plainFields_json _ _
  · exact ⟨trivial, fun _ _ => plainFields_json _ _⟩

private theorem writes_usersAdd : Writes A (usersAdd glz req : Code U Response) := by
  refine writes_managed ?_
  split
  · exact plainFields_json _ _
  · have done : ∀ _ : Bool, Writes A (pure okResponse : Code U Response) := fun _ =>
      plainFields_json _ _
    exact ⟨trivial, fun answer _ => writes_provided done answer⟩

private theorem writes_found (done : Bool) :
    Writes A (if done then pure okResponse else pure (userNotFound glz) : Code U Response) := by
  cases done <;> exact plainFields_json _ _

private theorem writes_usersRemove : Writes A (usersRemove glz req : Code U Response) := by
  refine writes_managed ?_
  split
  · exact plainFields_json _ _
  · exact ⟨trivial, fun answer _ => writes_provided writes_found answer⟩

private theorem writes_usersSetRole : Writes A (usersSetRole glz req : Code U Response) := by
  refine writes_managed ?_
  split
  · exact plainFields_json _ _
  · exact ⟨trivial, fun answer _ => writes_provided writes_found answer⟩

end Endpoints

section Dispatch

variable {P : AuthProvider} {app : App U} {arrives : Request → Prop} {s : EngineState P U}

private theorem writes_handlerCode (limits : Limits A app arrives s) (plain : ∀ v, A v → Plain v)
    (h : Handler U) {ctx : RequestContext} (arrived : arrives ctx.request)
    (named : ∀ user, ctx.user = some user → A user.username) :
    Writes A (handlerCode app h ctx) := by
  cases h with
  | login => exact writes_handleLogin
  | logout => exact writes_handleLogout
  | check => exact writes_handleCheck plain
  | aclList => exact ⟨trivial, fun _ _ => plainFields_json _ _⟩
  | aclSet => exact writes_aclSet
  | aclRemove => exact writes_aclRemove
  | usersList => exact ⟨trivial, fun _ _ => plainFields_json _ _⟩
  | usersAdd => exact writes_usersAdd
  | usersRemove => exact writes_usersRemove
  | usersSetRole => exact writes_usersSetRole
  | protectedFile fsRoot urlPrefix => exact writes_handleProtectedFile fsRoot urlPrefix
  | user u =>
    have writes := limits.handlers u ctx arrived named
    have only : ∀ c : ApiCall U, c.code.Only (Stores A) := fun c =>
      (apiCall_only c).mono fun o => stores_of_configures
    have kept : ((app.handler u ctx).interp ApiCall.code).Relies (Told A) (Stores A) _ :=
      Prog.relies_interp only writes
    exact kept.mono fun res fits f hf => ⟨(fits f hf).1, plain _ (fits f hf).2⟩

/-- The response to a request that arrives can be read back. -/
theorem writes_dispatch (limits : Limits A app arrives s) (plain : ∀ v, A v → Plain v)
    {req : Request} (arrived : arrives req) : Writes A (dispatch app req) := by
  have invokes : ∀ (h : Handler U) (user : Option UserInfo),
      (∀ u, user = some u → A u.username) → Writes A (invoke app h ⟨req, user⟩) := by
    intro h user named
    rw [invoke_eq]
    refine ⟨trivial, fun _ _ => ?_⟩
    exact Prog.relies_tryCatch (writes_handlerCode limits plain h arrived named)
      fun _ => plainFields_json _ _
  rw [dispatch_eq]
  refine ⟨trivial, fun found _ => ?_⟩
  rcases found with _ | ⟨h, _ | need⟩
  · exact plainFields_text _ _
  · exact invokes h none (by simp)
  · change Writes A (enforce app req h (some need))
    rw [enforce_eq]
    refine writes_validated (plainFields_json _ _) fun entry named => ?_
    rw [enforced]
    split
    · refine invokes h _ fun user same => ?_
      cases same
      exact named
    · exact plainFields_json _ _

theorem keeps_told (limits : Limits A app arrives s) (env : EngineEnv P) (s' : EngineState P U)
    (o : Op U) (named : ∀ token entry, s'.tokens.store.lookup token = some entry →
      A entry.username) (stores : Stores A o) :
    Told A o (engineStep env s' o).1 ∧ ∀ token entry,
      (engineStep env s' o).2.tokens.store.lookup token = some entry → A entry.username := by
  cases o with
  | validate token =>
    refine ⟨?_, named⟩
    cases found : s'.tokens.validate (s'.now + env.elapsed) token with
    | none =>
      simp only [engineStep, found]
      trivial
    | some entry =>
      simp only [engineStep, found]
      exact named token entry (TokenStore.validate_eq_some_iff.mp found).1
  | authenticate username password =>
    refine ⟨?_, named⟩
    have told := limits.provider env.choice s'.provider username password
    simp only [engineStep]
    cases answer : (P.authenticate env.choice s'.provider username password).1 with
    | error e => trivial
    | ok role =>
      cases role with
      | none => trivial
      | some role => exact told role answer
  | insert token username role ttl =>
    refine ⟨trivial, fun token' entry found => ?_⟩
    simp only [engineStep, TokenStore.insert] at found
    by_cases same : token' = token
    · subst same
      rw [AList.lookup_insert] at found
      cases found
      exact stores
    · rw [AList.lookup_insert_ne same] at found
      exact named token' entry found
  | revoke token =>
    refine ⟨trivial, fun token' entry found => ?_⟩
    simp only [engineStep, TokenStore.revoke] at found
    by_cases same : token' = token
    · subst same
      rw [AList.lookup_erase] at found
      cases found
    · rw [AList.lookup_erase_ne same] at found
      exact named token' entry found
  | _ => exact ⟨trivial, named⟩

end Dispatch

end Webengine.Engine.HeaderFields
