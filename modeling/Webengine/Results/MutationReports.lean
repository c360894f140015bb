/- source: backend/src/WebEngine.cpp (enable_admin_endpoints)
   digest: What the answers of the mutating admin endpoints say about the mutation: the truth,
   except that POST /api/admin/users does not hear a provider that refuses. -/

import Webengine.Engine.Stages

set_option autoImplicit false
set_option relaxedAutoImplicit false

namespace Webengine.Results.MutationReports

open Webengine.Engine.Roles
open Webengine.Engine.Messages
open Webengine.Engine.Payloads
open Webengine.Engine.Sessions
open Webengine.Engine.Operations
open Webengine.Engine.AdminEndpoints
open Webengine.Engine.Dispatch
open Webengine.Engine.Stages (guardedCode invoke_eq)
open Webengine.Engine.Providers (AuthProvider)
open Webengine.Library.Machines
open Webengine.Library.Programs (Prog)

variable {P : AuthProvider} {U : Type}

/-- The steps that change the rules or the users. -/
def mutates : Op U → Bool
  | .aclSet _ _ => true
  | .aclRemove _ => true
  | .addUser _ _ _ => true
  | .removeUser _ => true
  | .setUserRole _ _ => true
  | _ => false

/-- The mutating endpoints. -/
inductive Mutator
  | aclSet | aclRemove | usersAdd | usersRemove | usersSetRole

def Mutator.handler : Mutator → Handler U
  | .aclSet => .aclSet
  | .aclRemove => .aclRemove
  | .usersAdd => .usersAdd
  | .usersRemove => .usersRemove
  | .usersSetRole => .usersSetRole

/-- Its method and path. -/
def Mutator.route : Mutator → Verb × Str
  | .aclSet => (.post, "/api/admin/acl".toList)
  | .aclRemove => (.delete_, "/api/admin/acl".toList)
  | .usersAdd => (.post, "/api/admin/users".toList)
  | .usersRemove => (.delete_, "/api/admin/users".toList)
  | .usersSetRole => (.patch, "/api/admin/users".toList)

theorem Mutator.registered (h : Mutator) :
    (h.route, (h.handler : Handler U), some Role.admin) ∈ adminRoutes := by
  cases h <;> simp [adminRoutes, route, handler]

/-- The mutation reported success; those of the access list cannot fail. -/
def Performed (e : Event (engine P U)) : Prop :=
  match e.op with
  | .addUser username password role =>
    (P.addUser e.env.choice e.pre.provider username password role).1 = .ok true
  | .removeUser username => (P.removeUser e.env.choice e.pre.provider username).1 = .ok true
  | .setUserRole username role =>
    (P.setUserRole e.env.choice e.pre.provider username role).1 = .ok true
  | _ => True

/-- What the provider refuses does not change its table. -/
structure Refuses {T : Type} (users : P.State → T) : Prop where
  addUser : ∀ c s username password role, (P.addUser c s username password role).1 = .ok false →
    users (P.addUser c s username password role).2 = users s
  removeUser : ∀ c s username, (P.removeUser c s username).1 = .ok false →
    users (P.removeUser c s username).2 = users s
  setUserRole : ∀ c s username role, (P.setUserRole c s username role).1 = .ok false →
    users (P.setUserRole c s username role).2 = users s

/-- The request of an Admin, in its handler. -/
abbrev adminRun (app : App U) (h : Mutator) (req : Request) (name : Str) (s : EngineState P U)
    (env : Nat → EngineEnv P) : Outcome (engine P U) Str Response :=
  run (engine P U) (invoke app h.handler ⟨req, some ⟨name, .admin⟩⟩) s env

/-- 200 says that exactly the mutation the body names was performed; 400, 404 and 501 say that
nothing was changed. -/
structure Truthful {T : Type} (users : P.State → T) (glz : Glaze) (h : Mutator) (req : Request)
    (s : EngineState P U) (o : Outcome (engine P U) Str Response) : Prop where
  ok : ∀ res, o.result = .ok res → res.status = .ok →
    ∃ e, o.log.filter (fun e => mutates e.op) = [e] ∧ Names glz req.body h.handler e.op ∧
      Performed e
  refused : ∀ res, o.result = .ok res →
    res.status = .badRequest ∨ res.status = .notFound ∨ res.status = .notImplemented →
    users o.state.provider = users s.provider ∧ o.state.acl = s.acl

/-- The provider refuses the user a POST to /api/admin/users names; its `add_user` is the third
step of the run. -/
def AddRefused (glz : Glaze) (h : Mutator) (req : Request) (s : EngineState P U)
    (env : Nat → EngineEnv P) : Prop :=
  h = .usersAdd ∧ P.supportsManagement s.provider = true ∧
    ∃ username password role,
      Names glz req.body h.handler (.addUser username password role : Op U) ∧
      (P.addUser (env 2).choice s.provider username password role).1 = .ok false

section Handlers

variable {T : Type} {users : P.State → T} {glz : Glaze} {h : Mutator} {req : Request}
  {s : EngineState P U} {o : Outcome (engine P U) Str Response} {res : Response}

private theorem Truthful.of_unchanged (result : o.result = .ok res) (refuses : res.status ≠ .ok)
    (provider : users o.state.provider = users s.provider) (acl : o.state.acl = s.acl) :
    Truthful users glz h req s o where
  ok res' answer success := by
    rw [result] at answer
    cases answer
    exact absurd success refuses
  refused _ _ _ := ⟨provider, acl⟩

private theorem Truthful.of_performed (result : o.result = .ok res) (success : res.status = .ok)
    {e : Event (engine P U)} (once : o.log.filter (fun e => mutates e.op) = [e])
    (names : Names glz req.body h.handler e.op) (performed : Performed e) :
    Truthful users glz h req s o where
  ok _ _ _ := ⟨e, once, names, performed⟩
  refused res' answer refuses := by
    rw [result] at answer
    cases answer
    rw [success] at refuses
    simp at refuses

private theorem Truthful.of_thrown (result : o.result = .ok res)
    (thrown : res.status = .internalServerError) : Truthful users glz h req s o where
  ok res' answer success := by
    rw [result] at answer
    cases answer
    rw [thrown] at success
    cases success
  refused res' answer refuses := by
    rw [result] at answer
    cases answer
    rw [thrown] at refuses
    simp at refuses

end Handlers

section Trees

variable (app : App U) (ctx : RequestContext)

private theorem guarded_aclSet : guardedCode app .aclSet ctx =
    match aclSetArgs (app.glaze.readAclSetReq ctx.request.body) with
    | none => .ret (badRequest app.glaze
        "required: prefix (string), role (admin|user|viewer|guest)".toList)
    | some (p, minRole) => .op (.aclSet p minRole) fun _ => .ret okResponse := by
  simp only [guardedCode, handlerCode, aclSet]
  cases aclSetArgs (app.glaze.readAclSetReq ctx.request.body) <;> rfl

private theorem guarded_aclRemove : guardedCode app .aclRemove ctx =
    match prefixArgs (app.glaze.readPrefixReq ctx.request.body) with
    | none => .ret (badRequest app.glaze "required: prefix (string)".toList)
    | some p => .op (.aclRemove p) fun _ => .ret okResponse := by
  simp only [guardedCode, handlerCode, aclRemove]
  cases prefixArgs (app.glaze.readPrefixReq ctx.request.body) <;> rfl

/-- The answer of a read-only provider's endpoints. -/
def readOnlyProvider (glz : Glaze) : Response :=
  json .notImplemented (glz.error "auth provider is read-only".toList)

/-- The answer to what the provider said. -/
def reply (app : App U) (no : Response) : Except Str Bool → Response
  | .ok true => okResponse
  | .ok false => no
  | .error _ => internalServerError app

private theorem guarded_managed {h : Handler U} {body tree : Code U Response}
    (handler : handlerCode app h ctx = managed app.glaze body)
    (same : body.tryCatch (fun _ => .ret (internalServerError app)) = tree) :
    guardedCode app h ctx = .op .supportsManagement fun supported =>
      if supported then tree else .ret (readOnlyProvider app.glaze) := by
  rw [guardedCode, handler, ← same]
  refine congrArg (Prog.op _) (funext fun supported => ?_)
  cases supported <;> rfl

private theorem guarded_usersAdd : guardedCode app .usersAdd ctx =
    .op .supportsManagement fun supported =>
      if supported then
        match addUserArgs (app.glaze.readAddUserReq ctx.request.body) with
        | none => .ret (badRequest app.glaze
            "required: username, password, role (admin|user|viewer|guest)".toList)
        | some (username, password, role) =>
          .op (.addUser username password role) fun ans => .ret (reply app okResponse ans)
      else .ret (readOnlyProvider app.glaze) := by
  refine guarded_managed app ctx rfl ?_
  cases addUserArgs (app.glaze.readAddUserReq ctx.request.body) with
  | none => rfl
  | some a =>
    refine congrArg (Prog.op _) (funext fun ans => ?_)
    cases ans with
    | error x => rfl
    | ok b => cases b <;> rfl

private theorem guarded_usersRemove : guardedCode app .usersRemove ctx =
    .op .supportsManagement fun supported =>
      if supported then
        match usernameArgs (app.glaze.readUsernameReq ctx.request.body) with
        | none => .ret (badRequest app.glaze "required: username (string)".toList)
        | some username =>
          .op (.removeUser username) fun ans => .ret (reply app (userNotFound app.glaze) ans)
      else .ret (readOnlyProvider app.glaze) := by
  refine guarded_managed app ctx rfl ?_
  cases usernameArgs (app.glaze.readUsernameReq ctx.request.body) with
  | none => rfl
  | some a =>
    refine congrArg (Prog.op _) (funext fun ans => ?_)
    cases ans with
    | error x => rfl
    | ok b => cases b <;> rfl

private theorem guarded_usersSetRole : guardedCode app .usersSetRole ctx =
    .op .supportsManagement fun supported =>
      if supported then
        match setRoleArgs (app.glaze.readSetRoleReq ctx.request.body) with
        | none => .ret (badRequest app.glaze
            "required: username, role (admin|user|viewer|guest)".toList)
        | some (username, role) =>
          .op (.setUserRole username role) fun ans => .ret (reply app (userNotFound app.glaze) ans)
      else .ret (readOnlyProvider app.glaze) := by
  refine guarded_managed app ctx rfl ?_
  cases setRoleArgs (app.glaze.readSetRoleReq ctx.request.body) with
  | none => rfl
  | some a =>
    refine congrArg (Prog.op _) (funext fun ans => ?_)
    cases ans with
    | error x => rfl
    | ok b => cases b <;> rfl

end Trees

section Runs

variable {T : Type} {users : P.State → T} (app : App U) (req : Request) (name : Str)
  (s : EngineState P U) (env : Nat → EngineEnv P)

private theorem truthful_op_iff {glz : Glaze} {h : Mutator} {o : Op U} {k : Ans o → Code U Response}
    (quiet : mutates o = false) (provider : (engineStep (env 0) s o).2.provider = s.provider)
    (acl : (engineStep (env 0) s o).2.acl = s.acl) :
    Truthful users glz h req s (run (engine P U) (.op o k) s env) ↔
      Truthful users glz h req (engineStep (env 0) s o).2
        (run (engine P U) (k (engineStep (env 0) s o).1) (engineStep (env 0) s o).2
          (later env)) := by
  have log : ∀ l : List (Event (engine P U)), (⟨0, s, env 0, o⟩ :: l).filter
      (fun e => mutates e.op) = l.filter (fun e => mutates e.op) := by
    intro l
    exact List.filter_cons_of_neg (by simp [quiet])
  rw [run_op]
  constructor
  · rintro ⟨ok, refused⟩
    refine ⟨fun res answer success => ?_, fun res answer refuses => ?_⟩
    · rw [← log]
      exact ok res answer success
    · obtain ⟨sameUsers, sameAcl⟩ := refused res answer refuses
      exact ⟨sameUsers.trans (congrArg users provider).symm, sameAcl.trans acl.symm⟩
  · rintro ⟨ok, refused⟩
    refine ⟨fun res answer success => ?_, fun res answer refuses => ?_⟩
    · rw [log]
      exact ok res answer success
    · obtain ⟨sameUsers, sameAcl⟩ := refused res answer refuses
      exact ⟨sameUsers.trans (congrArg users provider), sameAcl.trans acl⟩

variable (users) in
private theorem truthful_managed_iff (h : Mutator) {body : Code U Response}
    (tree : ∀ ctx, ctx.request = req → guardedCode app h.handler ctx =
      .op .supportsManagement fun supported =>
        if supported then body else .ret (readOnlyProvider app.glaze)) :
    ∃ (s' : EngineState P U) (env' : Nat → EngineEnv P),
      s'.provider = s.provider ∧ env' 0 = env 2 ∧
      (Truthful users app.glaze h req s (adminRun app h req name s env) ↔
        (P.supportsManagement s.provider = true →
          Truthful users app.glaze h req s' (run (engine P U) body s' env'))) := by
  refine ⟨{ s with now := s.now + (env 0).elapsed + (env 1).elapsed }, later (later env), rfl,
    rfl, ?_⟩
  unfold adminRun
  rw [invoke_eq, tree _ rfl, truthful_op_iff req s env rfl rfl rfl,
    truthful_op_iff req _ _ rfl rfl rfl]
  split
  · rename_i supported
    exact ⟨fun truthful _ => truthful, fun truthful => truthful supported⟩
  · rename_i unsupported
    refine ⟨fun _ supported => absurd supported unsupported, fun _ => ?_⟩
    exact .of_unchanged rfl (by simp [readOnlyProvider]) rfl rfl

/-- An endpoint that hands the mutation its body names to the provider tells the truth of what
the provider said, if a refusal is answered as one. -/
private theorem Truthful.of_answer {h : Mutator} {o : Outcome (engine P U) Str Response}
    {no : Response}
    {answer : Except Str Bool} {e : Event (engine P U)}
    (result : o.result = .ok (reply app no answer))
    (once : o.log.filter (fun e => mutates e.op) = [e])
    (names : Names app.glaze req.body h.handler e.op) (performed : answer = .ok true → Performed e)
    (refused : answer = .ok false → no.status ≠ .ok ∧
      users o.state.provider = users s.provider ∧ o.state.acl = s.acl) :
    Truthful users app.glaze h req s o := by
  cases answer with
  | error x => exact .of_thrown result rfl
  | ok b =>
    cases b with
    | true => exact .of_performed result rfl once names (performed rfl)
    | false =>
      obtain ⟨refuses, provider, acl⟩ := refused rfl
      exact .of_unchanged result refuses provider acl

private theorem aclSet_truthful :
    Truthful users app.glaze .aclSet req s (adminRun app .aclSet req name s env) := by
  unfold adminRun
  rw [invoke_eq, Mutator.handler, guarded_aclSet]
  rw [truthful_op_iff req s env rfl rfl rfl]
  cases args : aclSetArgs (app.glaze.readAclSetReq req.body) with
  | none => exact .of_unchanged rfl (by simp [badRequest]) rfl rfl
  | some a =>
    obtain ⟨read, named⟩ := aclSetArgs_eq_some_iff.mp args
    exact .of_performed rfl rfl rfl (.aclSet named read) trivial

private theorem aclRemove_truthful :
    Truthful users app.glaze .aclRemove req s (adminRun app .aclRemove req name s env) := by
  unfold adminRun
  rw [invoke_eq, Mutator.handler, guarded_aclRemove]
  rw [truthful_op_iff req s env rfl rfl rfl]
  cases args : prefixArgs (app.glaze.readPrefixReq req.body) with
  | none => exact .of_unchanged rfl (by simp [badRequest]) rfl rfl
  | some p =>
    obtain ⟨read, named⟩ := prefixArgs_eq_some_iff.mp args
    exact .of_performed rfl rfl rfl (.aclRemove named read) trivial

private theorem usersRemove_truthful (refuses : Refuses users) :
    Truthful users app.glaze .usersRemove req s (adminRun app .usersRemove req name s env) := by
  obtain ⟨s', env', -, -, same⟩ :=
    truthful_managed_iff users app req name s env .usersRemove (fun ctx same => by
      rw [Mutator.handler, guarded_usersRemove, same])
  rw [same]
  intro _
  cases args : usernameArgs (app.glaze.readUsernameReq req.body) with
  | none => exact .of_unchanged rfl (by simp [badRequest]) rfl rfl
  | some username =>
    obtain ⟨read, named⟩ := usernameArgs_eq_some_iff.mp args
    refine .of_answer app req s' rfl rfl (.usersRemove named read) id fun ans =>
      ⟨by simp [userNotFound], ?_, rfl⟩
    exact refuses.removeUser _ _ _ ans

private theorem usersSetRole_truthful (refuses : Refuses users) :
    Truthful users app.glaze .usersSetRole req s
      (adminRun app .usersSetRole req name s env) := by
  obtain ⟨s', env', -, -, same⟩ :=
    truthful_managed_iff users app req name s env .usersSetRole (fun ctx same => by
      rw [Mutator.handler, guarded_usersSetRole, same])
  rw [same]
  intro _
  cases args : setRoleArgs (app.glaze.readSetRoleReq req.body) with
  | none => exact .of_unchanged rfl (by simp [badRequest]) rfl rfl
  | some a =>
    obtain ⟨read, named⟩ := setRoleArgs_eq_some_iff.mp args
    refine .of_answer app req s' rfl rfl (.usersSetRole named read) id fun ans =>
      ⟨by simp [userNotFound], ?_, rfl⟩
    exact refuses.setUserRole _ _ _ _ ans

private theorem usersAdd_truthful (heard : ¬ AddRefused (U := U) app.glaze .usersAdd req s env) :
    Truthful users app.glaze .usersAdd req s (adminRun app .usersAdd req name s env) := by
  obtain ⟨s', env', provider, choice, same⟩ :=
    truthful_managed_iff users app req name s env .usersAdd (fun ctx same => by
      rw [Mutator.handler, guarded_usersAdd, same])
  rw [same]
  intro supported
  cases args : addUserArgs (app.glaze.readAddUserReq req.body) with
  | none => exact .of_unchanged rfl (by simp [badRequest]) rfl rfl
  | some a =>
    obtain ⟨read, named, keyed⟩ := addUserArgs_eq_some_iff.mp args
    refine .of_answer app req s' rfl rfl (.usersAdd named keyed read) id fun ans => ?_
    have told : (P.addUser (env' 0).choice s'.provider a.1 a.2.1 a.2.2).1 = .ok false := ans
    rw [provider, choice] at told
    exact absurd ⟨rfl, supported, _, _, _, .usersAdd named keyed read, told⟩ heard

private theorem AddRefused.not_truthful {h : Mutator} (refused : AddRefused app.glaze h req s env) :
    ¬ Truthful users app.glaze h req s (adminRun app h req name s env) := by
  obtain ⟨rfl, supported, username, password, role, names, ans⟩ := refused
  have args : addUserArgs (app.glaze.readAddUserReq req.body) =
      some (username, password, role) := by
    cases names with
    | usersAdd named keyed read => exact addUserArgs_eq_some_iff.mpr ⟨read, named, keyed⟩
  obtain ⟨s', env', provider, choice, same⟩ :=
    truthful_managed_iff users app req name s env .usersAdd (fun ctx same => by
      rw [Mutator.handler, guarded_usersAdd, same])
  rw [same, args]
  intro truthful
  rw [← provider, ← choice] at ans
  obtain ⟨e, once, -, performed⟩ :=
    (truthful supported).ok okResponse (congrArg _ (congrArg _ ans)) rfl
  obtain rfl := (List.cons.inj once).1
  have told : (P.addUser (env' 0).choice s'.provider username password role).1 = .ok true :=
    performed
  rw [ans] at told
  cases told

end Runs

/-- The mutating admin endpoints report the truth, for every provider whose refusals change
nothing, every access list and every body, exactly when it is not the case that the provider
refuses the user a POST to /api/admin/users names. -/
theorem truthful_iff_not_addRefused {T : Type} (users : P.State → T) (app : App U) (h : Mutator)
    (req : Request) (name : Str) (s : EngineState P U) (env : Nat → EngineEnv P)
    (refuses : Refuses users) :
    Truthful users app.glaze h req s (adminRun app h req name s env) ↔
      ¬ AddRefused app.glaze h req s env := by
  constructor
  · intro truthful refused
    exact refused.not_truthful app req name s env truthful
  · intro heard
    cases h with
    | aclSet => exact aclSet_truthful app req name s env
    | aclRemove => exact aclRemove_truthful app req name s env
    | usersAdd => exact usersAdd_truthful app req name s env heard
    | usersRemove => exact usersRemove_truthful app req name s env refuses
    | usersSetRole => exact usersSetRole_truthful app req name s env refuses

section Instances

/-- A provider with management that knows nobody and takes nobody. -/
def closed : AuthProvider where
  State := List Str
  Choice := Unit
  authenticate _ s _ _ := (.ok none, s)
  supportsManagement _ := true
  addUser _ s _ _ _ := (.ok false, s)
  removeUser _ s _ := (.ok false, s)
  setUserRole _ s _ _ := (.ok false, s)
  listUsers _ := []

private theorem closed_refuses : Refuses (P := closed) id where
  addUser _ _ _ _ _ _ := rfl
  removeUser _ _ _ _ := rfl
  setUserRole _ _ _ _ _ := rfl

/-- The library reads one user from any body. -/
def bobReader : App Empty where
  glaze := { Glaze.sample [] [] with
    readAddUserReq := fun _ =>
      (false, ⟨some "bob".toList, some "pw".toList, some "user".toList⟩)
    readUsernameReq := fun _ => (false, ⟨some "bob".toList⟩) }
  handler u := nomatch u

def emptyEngine : EngineState closed Empty := fresh 0 []

def stillWorld : Nat → EngineEnv closed := fun _ => ⟨0, none, (), fun _ => none⟩

def postUser : Request := ⟨.post, "/api/admin/users".toList, 11, [], "bob".toList⟩

/-- A refused user is reported as added. -/
theorem refused_user_reported_added :
    (adminRun bobReader .usersAdd postUser "root".toList emptyEngine stillWorld).result =
        .ok okResponse ∧
      (adminRun bobReader .usersAdd postUser "root".toList emptyEngine stillWorld).state.provider =
        [] ∧
      ¬ Truthful (P := closed) id bobReader.glaze .usersAdd postUser emptyEngine
        (adminRun bobReader .usersAdd postUser "root".toList emptyEngine stillWorld) := by
  refine ⟨rfl, rfl, AddRefused.not_truthful _ _ _ _ _ ?_⟩
  exact ⟨rfl, rfl, "bob".toList, "pw".toList, .user,
    .usersAdd (by decide) (by decide) rfl, rfl⟩

/-- The theorem at the removal of an unknown user. -/
theorem truthful_iff_not_addRefused_unknown :
    Truthful (P := closed) id bobReader.glaze .usersRemove
        ⟨.delete_, "/api/admin/users".toList, 11, [], "bob".toList⟩ emptyEngine
        (adminRun bobReader .usersRemove
          ⟨.delete_, "/api/admin/users".toList, 11, [], "bob".toList⟩ "root".toList emptyEngine
          stillWorld) := by
  refine (truthful_iff_not_addRefused (P := closed) (U := Empty) id bobReader .usersRemove _ _ _ _
    closed_refuses).mpr ?_
  rintro ⟨h, -⟩
  cases h

end Instances

end Webengine.Results.MutationReports
