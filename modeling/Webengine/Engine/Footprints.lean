/- source: backend/src/WebEngine.cpp, backend/src/AuthHandler.cpp, backend/src/Router.cpp
   digest: Which steps each handler takes, and from this: what the thread of any step in the
   history of an engine has done before. -/

import Webengine.Engine.Stages

set_option autoImplicit false
set_option relaxedAutoImplicit false

namespace Webengine.Engine.Footprints

open Webengine.Engine.Roles
open Webengine.Engine.Messages
open Webengine.Engine.Payloads
open Webengine.Engine.Credentials
open Webengine.Engine.Sessions
open Webengine.Engine.Operations
open Webengine.Engine.AuthEndpoints
open Webengine.Engine.AdminEndpoints
open Webengine.Engine.Dispatch
open Webengine.Engine.Stages
open Webengine.Engine.Providers (AuthProvider)
open Webengine.Library.Machines
open Webengine.Library.Interleavings
open Webengine.Library.Programs (Prog)
open Webengine.Library.Texts (cut find_isSome_iff)

variable {P : AuthProvider} {U : Type}

/-- The steps of the public calls. A served subtree is registered under its own prefix. -/
def configures : Op U → Prop
  | .addRoute _ _ h _ => ∀ fsRoot p, h ≠ .protectedFile fsRoot p
  | .addPrefixRoute method p h minRole =>
    method = .get ∧ minRole = none ∧ ∃ fsRoot, h = .protectedFile fsRoot p
  | .setRouteRole _ _ => True
  | .aclSet _ _ => True
  | .aclRemove _ => True
  | _ => False

/-- The steps of the code behind a handler. -/
def performs : Handler U → Op U → Prop
  | .login, .authenticate _ _ => True
  | .login, .randBytes => True
  | .login, .insert _ _ _ _ => True
  | .logout, .revoke _ => True
  | .check, .validate _ => True
  | .check, .authorize _ _ => True
  | .check, .pass _ => True
  | .protectedFile _ _, .validate _ => True
  | .protectedFile _ _, .authorize _ _ => True
  | .protectedFile _ _, .pass _ => True
  | .protectedFile _ _, .openFile _ => True
  | .aclList, .aclList => True
  | .aclSet, .aclSet _ _ => True
  | .aclRemove, .aclRemove _ => True
  | .usersList, .listUsers => True
  | .usersAdd, .supportsManagement => True
  | .usersAdd, .addUser _ _ _ => True
  | .usersRemove, .supportsManagement => True
  | .usersRemove, .removeUser _ => True
  | .usersSetRole, .supportsManagement => True
  | .usersSetRole, .setUserRole _ _ => True
  | .user _, o => configures o
  | _, _ => False

/-- The steps a dispatch takes itself. -/
def dispatches : Op U → Prop
  | .route _ _ => True
  | .validate _ => True
  | .call _ _ => True
  | _ => False

/-- The steps that change the route table. -/
def registers : Op U → Prop
  | .addRoute _ _ _ _ => True
  | .addPrefixRoute _ _ _ _ => True
  | .setRouteRole _ _ => True
  | _ => False

theorem router_of_not_registers {o : Op U} (h : ¬ registers o) (env : EngineEnv P)
    (s : EngineState P U) : (engineStep env s o).2.router = s.router := by
  cases o <;> first | rfl | exact (h trivial).elim

section Only

theorem apiCall_only (c : ApiCall U) : (c.code : Code U Unit).Only configures := by
  have addApis_only : ∀ routes : List ((Verb × Str) × Handler U × Option Role),
      (∀ x ∈ routes, ∀ fsRoot p, x.2.1 ≠ .protectedFile fsRoot p) →
      (addApis routes).Only configures := by
    intro routes plain
    induction routes with
    | nil => trivial
    | cons x routes ih =>
      exact ⟨plain x (by simp), fun _ => ih fun y hy => plain y (by simp [hy])⟩
  cases c with
  | addApi method path u minRole => exact ⟨by simp [configures], fun _ => trivial⟩
  | setApiRole path minRole => exact ⟨trivial, fun _ => trivial⟩
  | protectPath p minRole => exact ⟨trivial, fun _ => trivial⟩
  | unprotectPath p => exact ⟨trivial, fun _ => trivial⟩
  | serveProtectedFiles urlPrefix fsRoot => exact ⟨⟨rfl, rfl, fsRoot, rfl⟩, fun _ => trivial⟩
  | enableAuthEndpoints => exact addApis_only _ (by simp [authRoutes])
  | enableAdminEndpoints => exact addApis_only _ (by simp [adminRoutes])

theorem appCode_only {α : Type} (p : Prog Str (@ApiAns U) α) : (appCode p).Only configures :=
  Prog.only_interp apiCall_only p

private theorem managed_only {Q : Op U → Prop} (glz : Glaze) (may : Q .supportsManagement)
    {body : Code U Response} (h : body.Only Q) : (managed glz body).Only Q := by
  refine ⟨may, fun supported => ?_⟩
  cases supported
  · trivial
  · exact h

variable (app : App U)

theorem handlerCode_only (h : Handler U) (ctx : RequestContext) :
    (handlerCode app h ctx).Only (performs h) := by
  cases h with
  | login =>
    change (handleLogin app.glaze ctx.request).Only _
    rw [handleLogin_eq]
    split
    · trivial
    refine ⟨trivial, fun ans => ?_⟩
    cases ans with
    | error e => trivial
    | ok role =>
      cases role with
      | none => trivial
      | some role =>
        refine ⟨trivial, fun buf => ?_⟩
        cases buf
        · trivial
        · exact ⟨trivial, fun _ => trivial⟩
  | logout =>
    change (handleLogout ctx.request).Only _
    rw [handleLogout_eq]
    split
    · trivial
    · exact ⟨trivial, fun _ => trivial⟩
  | check =>
    change (handleCheck ctx.request).Only _
    have answer : ∀ entry allowed,
        (checkAnswer entry allowed : Code U Response).Only (performs .check) := by
      intro entry allowed
      cases allowed
      · trivial
      · exact ⟨trivial, fun _ => trivial⟩
    have session : ∀ found,
        (checkSession ctx.request found : Code U Response).Only (performs .check) := by
      intro found
      cases found with
      | none => trivial
      | some entry =>
        simp only [checkSession]
        split
        · exact answer entry true
        · exact ⟨trivial, answer entry⟩
    rw [handleCheck_eq]
    split
    · exact session none
    · exact ⟨trivial, session⟩
  | protectedFile fsRoot urlPrefix =>
    change (handleProtectedFile ctx.request fsRoot urlPrefix).Only _
    have session : ∀ found, (protectedSession ctx.request fsRoot urlPrefix found :
        Code U Response).Only (performs (.protectedFile fsRoot urlPrefix)) := by
      intro found
      cases found with
      | none => trivial
      | some entry =>
        refine ⟨trivial, fun allowed => ?_⟩
        unfold protectedAnswer
        split
        · refine ⟨trivial, fun _ => ?_⟩
          split
          · trivial
          · exact ⟨trivial, fun _ => trivial⟩
        · trivial
    rw [handleProtectedFile_eq]
    split
    · exact session none
    · exact ⟨trivial, session⟩
  | aclList => exact ⟨trivial, fun _ => trivial⟩
  | aclSet =>
    change (aclSet app.glaze ctx.request).Only _
    unfold AdminEndpoints.aclSet
    split
    · trivial
    · exact ⟨trivial, fun _ => trivial⟩
  | aclRemove =>
    change (aclRemove app.glaze ctx.request).Only _
    unfold AdminEndpoints.aclRemove
    split
    · trivial
    · exact ⟨trivial, fun _ => trivial⟩
  | usersList => exact ⟨trivial, fun _ => trivial⟩
  | usersAdd =>
    refine managed_only _ trivial ?_
    split
    · trivial
    · exact ⟨trivial, fun ans => Prog.only_bind (Prog.only_ofExcept _ _) fun _ => trivial⟩
  | usersRemove =>
    refine managed_only _ trivial ?_
    split
    · trivial
    · refine ⟨trivial, fun ans => Prog.only_bind (Prog.only_ofExcept _ _) fun found => ?_⟩
      split <;> trivial
  | usersSetRole =>
    refine managed_only _ trivial ?_
    split
    · trivial
    · refine ⟨trivial, fun ans => Prog.only_bind (Prog.only_ofExcept _ _) fun found => ?_⟩
      split <;> trivial
  | user u => exact appCode_only _

end Only

section Handlers

variable {req : Request} {l : List (Event (engine P U))} {o : Op U} {k : Ans o → Code U Response}

/-- The provider accepts the credentials for a role. -/
def Accepted (a : Event (engine P U)) (username password : Str) (role : Role) : Prop :=
  a.op = .authenticate username password ∧
    (P.authenticate a.env.choice a.pre.provider username password).1 = .ok (some role)

/-- The random source fills the buffer. -/
def Drew (b : Event (engine P U)) (buf : Buffer) : Prop :=
  b.op = .randBytes ∧ b.env.random = some buf

/-- The access list allows the role at the path. -/
def Allowed (a : Event (engine P U)) (role : Role) (path : Str) : Prop :=
  a.op = .authorize role path ∧ a.pre.acl.authorize role path = true

theorem accepted_of_insert {glz : Glaze} {token username : Str} {role : Role} {ttl : Duration}
    (follows : Follows (handleLogin glz req) l (.op o k))
    (ho : o = .insert token username role ttl) :
    ∃ a b buf, l = [a, b] ∧ Accepted a username (loginPassword glz req) role ∧ Drew b buf ∧
      token = tokenOf buf ∧ username = loginName glz req ∧ ttl = sessionTtl := by
  rw [handleLogin_eq] at follows
  split at follows
  · exact absurd follows Follows.not_ret_op
  obtain ⟨t, s, env, l, rfl, asked⟩ := follows.of_op_ne (by simp [ho])
  change Follows (loginIssue glz (loginName glz req) (P.authenticate env.choice s.provider
    (loginName glz req) (loginPassword glz req)).1) l _ at asked
  cases answer : (P.authenticate env.choice s.provider (loginName glz req)
      (loginPassword glz req)).1 with
  | error e =>
    rw [answer] at asked
    exact absurd asked Follows.not_raise_op
  | ok found =>
    rw [answer] at asked
    cases found with
    | none => exact absurd asked Follows.not_ret_op
    | some r =>
      obtain ⟨t', s', env', l, rfl, drawn⟩ := asked.of_op_ne (by simp [ho])
      change Follows (loginStore (loginName glz req) r env'.random) l _ at drawn
      cases random : env'.random with
      | none =>
        rw [random] at drawn
        exact absurd drawn Follows.not_raise_op
      | some buf =>
        rw [random] at drawn
        rcases drawn.of_op with ⟨rfl, same⟩ | ⟨_, _, _, l, rfl, done⟩
        · injection same with same
          rw [ho] at same
          cases same
          exact ⟨_, _, buf, rfl, ⟨rfl, answer⟩, ⟨rfl, random⟩, rfl, rfl, rfl⟩
        · exact absurd done Follows.not_ret_op

private theorem validated_of_gate (gate : Option TokenEntry → Code U Response) {res : Response}
    (closed : gate none = .ret res)
    (follows : Follows (if extractToken req = [] then gate none
      else .op (.validate (extractToken req)) gate) l (.op o k))
    (ho : .validate (extractToken req) ≠ o) :
    ∃ v entry l', l = v :: l' ∧ Validated v req (some entry) ∧
      Follows (gate (some entry)) l' (.op o k) := by
  split at follows
  · rw [closed] at follows
    exact absurd follows Follows.not_ret_op
  obtain ⟨t, s, env, l', rfl, rest⟩ := follows.of_op_ne ho
  change Follows (gate (s.tokens.validate (s.now + env.elapsed) (extractToken req))) l' _ at rest
  cases live : s.tokens.validate (s.now + env.elapsed) (extractToken req) with
  | none =>
    rw [live, closed] at rest
    exact absurd rest Follows.not_ret_op
  | some entry =>
    rw [live] at rest
    have validated : Validated (⟨t, s, env, .validate (extractToken req)⟩ : Event (engine P U))
        req (some entry) := ⟨rfl, by rw [time_eq]; exact live⟩
    exact ⟨_, entry, l', rfl, validated, rest⟩

/-- A file is opened right after its request was validated and allowed. -/
theorem allowed_of_openFile {fsRoot urlPrefix name : Str}
    (follows : Follows (handleProtectedFile req fsRoot urlPrefix) l (.op o k))
    (ho : o = .openFile name) :
    ∃ v a g entry, l = [v, a, g] ∧ Validated v req (some entry) ∧
      Allowed a entry.role (cut '?' req.target) ∧
      ¬ dotDot <:+: relativePath urlPrefix (cut '?' req.target) ∧
      name = filePath fsRoot (servedPath urlPrefix req.target) := by
  rw [handleProtectedFile_eq] at follows
  obtain ⟨v, entry, l, rfl, validated, session⟩ :=
    validated_of_gate (protectedSession req fsRoot urlPrefix) rfl follows (by simp [ho])
  obtain ⟨t', s', env', l, rfl, answer⟩ := session.of_op_ne (by simp [ho])
  change Follows (protectedAnswer req fsRoot urlPrefix entry
    (s'.acl.authorize entry.role (cut '?' req.target))) l _ at answer
  by_cases allowed : s'.acl.authorize entry.role (cut '?' req.target) = true
  · rw [allowed] at answer
    obtain ⟨t'', s'', env'', l, rfl, passed⟩ := answer.of_op_ne (by simp [ho])
    split at passed
    · exact absurd passed Follows.not_ret_op
    rename_i stays
    rcases passed.of_op with ⟨rfl, same⟩ | ⟨_, _, _, l, rfl, done⟩
    · injection same with same
      rw [ho] at same
      cases same
      refine ⟨v, _, _, entry, rfl, validated, ⟨rfl, allowed⟩, ?_, rfl⟩
      rwa [find_isSome_iff] at stays
    · exact absurd done Follows.not_ret_op
  · rw [Bool.eq_false_iff.mpr allowed] at answer
    exact absurd answer Follows.not_ret_op

private theorem passed_check {entry : TokenEntry} {allowed : Bool} {user : UserInfo}
    (follows : Follows (checkAnswer entry allowed) l (.op o k)) (ho : o = .pass user) :
    user = ⟨entry.username, entry.role⟩ := by
  cases allowed with
  | false => exact absurd follows Follows.not_ret_op
  | true =>
    rcases follows.of_op with ⟨rfl, same⟩ | ⟨_, _, _, l, rfl, done⟩
    · injection same with same
      rw [ho] at same
      injection same
    · exact absurd done Follows.not_ret_op

private theorem passed_protected {fsRoot urlPrefix : Str} {entry : TokenEntry} {allowed : Bool}
    {user : UserInfo}
    (follows : Follows (protectedAnswer req fsRoot urlPrefix entry allowed) l (.op o k))
    (ho : o = .pass user) : user = ⟨entry.username, entry.role⟩ := by
  cases allowed with
  | false => exact absurd follows Follows.not_ret_op
  | true =>
    rcases follows.of_op with ⟨rfl, same⟩ | ⟨_, _, _, l, rfl, rest⟩
    · injection same with same
      rw [ho] at same
      injection same
    · split at rest
      · exact absurd rest Follows.not_ret_op
      · obtain ⟨_, _, _, l, rfl, done⟩ := rest.of_op_ne (by simp [ho])
        exact absurd done Follows.not_ret_op

theorem validated_of_pass {app : App U} {hd : Handler U} {ctx : RequestContext} {user : UserInfo}
    (follows : Follows (handlerCode app hd ctx) l (.op o k)) (ho : o = .pass user) :
    ∃ v entry, v ∈ l ∧ Validated v ctx.request (some entry) ∧
      user = ⟨entry.username, entry.role⟩ := by
  have may := (follows.only (handlerCode_only app hd ctx)).2.1
  rw [ho] at may
  cases hd with
  | check =>
    change Follows (handleCheck ctx.request) l _ at follows
    rw [handleCheck_eq] at follows
    obtain ⟨v, entry, l, rfl, validated, session⟩ :=
      validated_of_gate (checkSession ctx.request) rfl follows (by simp [ho])
    refine ⟨v, entry, by simp, validated, ?_⟩
    simp only [checkSession] at session
    split at session
    · exact passed_check session ho
    · obtain ⟨_, _, _, l, rfl, answer⟩ := session.of_op_ne (by simp [ho])
      exact passed_check answer ho
  | protectedFile fsRoot urlPrefix =>
    change Follows (handleProtectedFile ctx.request fsRoot urlPrefix) l _ at follows
    rw [handleProtectedFile_eq] at follows
    obtain ⟨v, entry, l, rfl, validated, session⟩ :=
      validated_of_gate (protectedSession ctx.request fsRoot urlPrefix) rfl follows
        (by simp [ho])
    refine ⟨v, entry, by simp, validated, ?_⟩
    obtain ⟨_, _, _, l, rfl, answer⟩ := session.of_op_ne (by simp [ho])
    exact passed_protected answer ho
  | _ => exact may.elim

end Handlers

section History

variable {app : App U} {threads : Nat → Thread U} {s₀ : EngineState P U}
  {sched : List (Nat × EngineEnv P)} {pre post : List (Event (engine P U))}
  {e : Event (engine P U)}

/-- The steps of a thread among those of a history. -/
def own (l : List (Event (engine P U))) (t : Nat) : List (Event (engine P U)) :=
  l.filter (fun e => e.tid = t)

/-- What each step of a run keeps holds after the run. -/
theorem serve_induction {J : List (Event (engine P U)) → EngineState P U → Prop}
    (begin_ : J [] s₀)
    (step : ∀ (sched : List (Nat × EngineEnv P)) (l : List (Event (engine P U)))
      (e : Event (engine P U)), (serve app threads s₀ sched).log = l ++ [e] →
      J l e.pre → J (l ++ [e]) e.post)
    (sched : List (Nat × EngineEnv P)) :
    J (serve app threads s₀ sched).log (serve app threads s₀ sched).state :=
  Config.play_log_induction (J := J) begin_ step sched

theorem serve_split (h : (serve app threads s₀ sched).log = pre ++ e :: post) :
    ∃ sched' k, (serve app threads s₀ sched').log = pre ∧
      (serve app threads s₀ sched').state = e.pre ∧
      (serve app threads s₀ sched').pool e.tid = .op e.op k :=
  Config.log_split h

theorem serve_follows (t : Nat) :
    Follows ((threads t).code app) (own (serve app threads s₀ sched).log t)
      ((serve app threads s₀ sched).pool t) :=
  Config.play_follows (m := engine P U) (fun t => (threads t).code app) s₀ sched t

theorem stage_of_serve {t : Nat} {req : Request} (ht : threads t = .request req) :
    Stage app req (own (serve app threads s₀ sched).log t)
      ((serve app threads s₀ sched).pool t) := by
  have follows : Follows _ _ ((serve app threads s₀ sched).pool t) := serve_follows t
  rw [ht] at follows
  exact stage_of_follows follows

private theorem follows_of_log (h : (serve app threads s₀ sched).log = pre ++ e :: post) :
    ∃ k, Follows ((threads e.tid).code app) (own pre e.tid) (.op e.op k) := by
  obtain ⟨sched', k, hlog, -, hpool⟩ := serve_split h
  have follows : Follows _ _ ((serve app threads s₀ sched').pool e.tid) := serve_follows e.tid
  rw [hpool, hlog] at follows
  exact ⟨k, follows⟩

theorem mem_of_own {l : List (Event (engine P U))} {t : Nat} (h : e ∈ own l t) :
    e ∈ l ∧ e.tid = t := by
  simpa [own] using h

private theorem configures_of_log (h : (serve app threads s₀ sched).log = pre ++ e :: post)
    {p : Prog Str (@ApiAns U) Response} (ht : threads e.tid = .application p) :
    configures e.op := by
  obtain ⟨k, follows⟩ := follows_of_log h
  rw [ht] at follows
  exact (follows.only (appCode_only p)).2.1

private theorem stage_of_log (h : (serve app threads s₀ sched).log = pre ++ e :: post)
    {req : Request} (ht : threads e.tid = .request req) :
    ∃ k, Stage app req (own pre e.tid) (.op e.op k) := by
  obtain ⟨k, follows⟩ := follows_of_log h
  rw [ht] at follows
  exact ⟨k, stage_of_follows follows⟩

/-- The step is one of the handler `hd`, entered with `ctx` after the steps `l₀` of its
thread; since then the thread has taken the steps `l`. -/
structure Inside (app : App U) (threads : Nat → Thread U) (pre : List (Event (engine P U)))
    (e : Event (engine P U)) (hd : Handler U) (ctx : RequestContext)
    (l : List (Event (engine P U))) : Prop where
  request : ∃ req l₀ c, threads e.tid = .request req ∧ own pre e.tid = l₀ ++ c :: l ∧
    Entered req l₀ hd ctx ∧ c.op = .call hd ctx
  follows : ∃ k, Follows (handlerCode app hd ctx) l (.op e.op k)

theorem Inside.performs {hd : Handler U} {ctx : RequestContext} {l : List (Event (engine P U))}
    (h : Inside app threads pre e hd ctx l) : performs hd e.op := by
  obtain ⟨k, follows⟩ := h.follows
  exact (follows.only (handlerCode_only app hd ctx)).2.1

/-- A handler is entered only by a request, and only after its steps say so. -/
theorem entered_of_call (h : (serve app threads s₀ sched).log = pre ++ e :: post)
    {hd : Handler U} {ctx : RequestContext} (hop : e.op = .call hd ctx) :
    ∃ req, threads e.tid = .request req ∧ Entered req (own pre e.tid) hd ctx := by
  cases ht : threads e.tid with
  | application p =>
    have configures := configures_of_log h ht
    rw [hop] at configures
    exact configures.elim
  | request req =>
    refine ⟨req, rfl, ?_⟩
    obtain ⟨k, stage⟩ := stage_of_log h ht
    rcases stage.next with ⟨-, ho⟩ | ⟨r, h, need, -, -, ho⟩ | ⟨h, ctx', entered, ho⟩ |
      ⟨l₀, c, l', h, ctx', -, -, -, follows⟩
    · rw [hop] at ho
      cases ho
    · rw [hop] at ho
      cases ho
    · rw [hop] at ho
      cases ho
      exact entered
    · -- no handler enters another
      obtain ⟨k', inner⟩ := follows.of_tryCatch_op
      have may := (inner.only (handlerCode_only app h ctx')).2.1
      rw [hop] at may
      cases h <;> exact may.elim

/-- Every step but those of a dispatch itself is one of a handler, or configures. -/
theorem inside_of_log (h : (serve app threads s₀ sched).log = pre ++ e :: post)
    (inner : ¬ dispatches e.op) :
    ((∃ p, threads e.tid = .application p) ∧ configures e.op) ∨
      ∃ hd ctx l, Inside app threads pre e hd ctx l := by
  cases ht : threads e.tid with
  | application p => exact Or.inl ⟨⟨p, rfl⟩, configures_of_log h ht⟩
  | request req =>
    obtain ⟨k, stage⟩ := stage_of_log h ht
    rcases stage.next with ⟨-, ho⟩ | ⟨r, h, need, -, -, ho⟩ | ⟨h, ctx', entered, ho⟩ |
      ⟨l₀, c, l', h, ctx, split, entered, hc, follows⟩
    · rw [ho] at inner
      exact (inner trivial).elim
    · rw [ho] at inner
      exact (inner trivial).elim
    · rw [ho] at inner
      exact (inner trivial).elim
    · exact Or.inr ⟨h, ctx, l', ⟨req, l₀, c, ht, split, entered, hc⟩, follows.of_tryCatch_op⟩

end History

end Webengine.Engine.Footprints
