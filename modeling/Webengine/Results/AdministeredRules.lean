/- source: backend/src/WebEngine.cpp (protect_path, enable_admin_endpoints), backend/src/Acl.hpp,
   backend/src/AuthHandler.cpp
   digest: What a gate decides in a run: by the rules of the setup and those the administrators
   have changed since, each by a request that was answered 200. -/

import Webengine.Results.AclMap
import Webengine.Results.LiveSessions

set_option autoImplicit false
set_option relaxedAutoImplicit false

namespace Webengine.Results.AdministeredRules

open Webengine.Engine.Roles
open Webengine.Engine.Messages
open Webengine.Engine.AccessList
open Webengine.Engine.Credentials
open Webengine.Engine.Payloads
open Webengine.Engine.Sessions
open Webengine.Engine.Operations
open Webengine.Engine.AuthEndpoints
open Webengine.Engine.AdminEndpoints
open Webengine.Engine.Dispatch
open Webengine.Engine.Stages
open Webengine.Engine.Footprints
open Webengine.Engine.Providers (AuthProvider)
open Webengine.Library.Interleavings
open Webengine.Library.LongestMatch (lookup)
open Webengine.Library.Machines
open Webengine.Library.Programs (Prog)
open Webengine.Library.Texts (cut)
open Webengine.Results.AclMap (AclCall replay lastRule)
open Webengine.Results.AdminOnly (SetupCall setup configured inertApp serving AdminSession)
open Webengine.Results.Registrations (registered)

variable {P : AuthProvider} {U : Type}

/-- The rule a call of the setup sets. -/
def rule : SetupCall U → Option AclCall
  | .protectPath p minRole => some (.set p minRole)
  | .unprotectPath p => some (.remove p)
  | _ => none

/-- The change of the rules a step makes. -/
def change : Op U → Option AclCall
  | .aclSet p minRole => some (.set p minRole)
  | .aclRemove p => some (.remove p)
  | _ => none

def changes (l : List (Event (engine P U))) : List AclCall := l.filterMap fun e => change e.op

/-- The rules of a setup and of the changes since: for each prefix what the last of them says. -/
def rules (calls : List (SetupCall U)) (l : List (Event (engine P U))) : Str → Option Role :=
  lastRule (calls.filterMap rule ++ changes l)

/-- What an answered request has changed, by its route: the change its body names, answered 200;
or nothing, as it was turned away, its body names none, or its route is not for changes. -/
inductive Administered (glaze : Glaze) (req : Request) :
    Option (Handler U × Option Role) → Response → List AclCall → Prop
  | made {hd : Handler U} {minRole : Option Role} {o : Op U} {call : AclCall} {res : Response} :
      Names glaze req.body hd o → change o = some call → res.status = .ok →
      Administered glaze req (some (hd, minRole)) res [call]
  | turnedAway {route : Option (Handler U × Option Role)} {res : Response} :
      res.status = .unauthorized ∨ res.status = .forbidden → Administered glaze req route res []
  | unnamed {hd : Handler U} {minRole : Option Role} {res : Response} :
      (∀ o, ¬ Names glaze req.body hd o) → res.status = .badRequest →
      Administered glaze req (some (hd, minRole)) res []
  | elsewhere {route : Option (Handler U × Option Role)} {res : Response} :
      (∀ minRole, route ≠ some (.aclSet, minRole) ∧ route ≠ some (.aclRemove, minRole)) →
      Administered glaze req route res []

section Setup

private theorem acl_step (env : EngineEnv P) (s : EngineState P U) (o : Op U) :
    (engineStep env s o).2.acl = (change o).toList.foldl AclCall.apply s.acl := by
  cases o <;> rfl

/-- The access list after a program that sets these rules. -/
abbrev SetsRules (p : Code U Unit) (cs : List AclCall) : Prop :=
  ∀ s : EngineState P U, wp (engine P U) (fun _ => True) p (fun r s' _ =>
    r = .ok () ∧ s'.acl = cs.foldl AclCall.apply s.acl) s

theorem SetsRules.bind {p q : Code U Unit} {cs cs' : List AclCall}
    (hp : SetsRules (P := P) p cs) (hq : SetsRules (P := P) q cs') :
    SetsRules (P := P) (p >>= fun _ => q) (cs ++ cs') := by
  intro s
  rw [wp_bind]
  refine wp_mono (hp s) ?_
  rintro r s₁ l ⟨rfl, first⟩
  refine wp_mono (hq s₁) ?_
  rintro r s₂ l' ⟨rfl, second⟩
  exact ⟨rfl, by rw [second, first, List.foldl_append]⟩

private theorem setsRules_addApis (routes : List ((Verb × Str) × Handler U × Option Role)) :
    SetsRules (P := P) (addApis routes) [] := by
  induction routes with
  | nil => exact fun s => ⟨rfl, rfl⟩
  | cons x routes ih =>
    obtain ⟨⟨method, path⟩, h, minRole⟩ := x
    have first : SetsRules (P := P) (step (.addRoute method path h minRole)) [] :=
      fun s env _ => ⟨rfl, rfl⟩
    exact first.bind ih

private theorem setsRules_setup (calls : List (SetupCall U)) :
    SetsRules (P := P) (setup calls) (calls.filterMap rule) := by
  induction calls with
  | nil => exact fun s => ⟨rfl, rfl⟩
  | cons c calls ih =>
    have first : SetsRules (P := P) c.call.code (rule c).toList := by
      cases c with
      | enableAuthEndpoints => exact setsRules_addApis authRoutes
      | enableAdminEndpoints => exact setsRules_addApis adminRoutes
      | _ => exact fun s env _ => ⟨rfl, rfl⟩
    have split : (c :: calls).filterMap rule = (rule c).toList ++ calls.filterMap rule := by
      cases h : rule c with
      | none => simp [h]
      | some call => simp [h]
    rw [split]
    exact first.bind ih

private theorem acl_configured (calls : List (SetupCall U)) (now : TimePoint) (provider : P.State)
    (env : Nat → EngineEnv P) :
    (configured calls now provider env).acl = replay (calls.filterMap rule) := by
  have after := run_of_wp (setsRules_setup (P := P) calls (fresh now provider)) env fun _ => trivial
  exact after.2

end Setup

section Handlers

variable {glaze : Glaze} {handler : U → RequestContext → Except Str Response} {req : Request}
  {l : List (Event (engine P U))} {res : Response}

private theorem change_of_performs {hd : Handler U} {o : Op U} (may : performs hd o)
    (set : hd ≠ .aclSet) (remove : hd ≠ .aclRemove) (user : ∀ u, hd ≠ .user u) :
    change o = none := by
  cases o with
  | aclSet p minRole =>
    cases hd with
    | aclSet => exact absurd rfl set
    | user u => exact absurd rfl (user u)
    | _ => exact may.elim
  | aclRemove p =>
    cases hd with
    | aclRemove => exact absurd rfl remove
    | user u => exact absurd rfl (user u)
    | _ => exact may.elim
  | _ => rfl

private theorem handler_changes (hd : Handler U) (ctx : RequestContext) :
    (handlerCode (inertApp glaze handler) hd ctx).Only fun o =>
      ∀ call, change o = some call → Names glaze ctx.request.body hd o := by
  have other (set : hd ≠ .aclSet) (remove : hd ≠ .aclRemove) (user : ∀ u, hd ≠ .user u) :
      (handlerCode (inertApp glaze handler) hd ctx).Only fun o =>
        ∀ call, change o = some call → Names glaze ctx.request.body hd o :=
    (handlerCode_only (inertApp glaze handler) hd ctx).mono fun o may call changed => by
      rw [change_of_performs may set remove user] at changed
      cases changed
  cases hd with
  | aclSet =>
    change (Engine.AdminEndpoints.aclSet glaze ctx.request).Only _
    unfold Engine.AdminEndpoints.aclSet
    cases args : aclSetArgs (glaze.readAclSetReq ctx.request.body) with
    | none => trivial
    | some x =>
      obtain ⟨read, named⟩ := aclSetArgs_eq_some_iff.mp args
      exact ⟨fun _ _ => .aclSet named read, fun _ => trivial⟩
  | aclRemove =>
    change (Engine.AdminEndpoints.aclRemove glaze ctx.request).Only _
    unfold Engine.AdminEndpoints.aclRemove
    cases args : prefixArgs (glaze.readPrefixReq ctx.request.body) with
    | none => trivial
    | some p =>
      obtain ⟨read, named⟩ := prefixArgs_eq_some_iff.mp args
      exact ⟨fun _ _ => .aclRemove named read, fun _ => trivial⟩
  | user u =>
    change (appCode (Prog.ofExcept (handler u ctx))).Only _
    cases handler u ctx <;> trivial
  | _ => exact other (by simp) (by simp) (by simp)

private theorem changes_of_only {p q : Code U Response} (follows : Follows p l q)
    (only : p.Only fun o => change o = none) : changes l = [] := by
  rw [changes, List.filterMap_eq_nil_iff]
  exact (follows.only only).1

private theorem not_names_aclSet {body : Str} (args : aclSetArgs (glaze.readAclSetReq body) = none)
    (o : Op U) : ¬ Names glaze body .aclSet o := by
  intro names
  cases names with
  | aclSet named read =>
    rw [aclSetArgs_eq_some_iff.mpr ⟨read, named⟩] at args
    cases args

private theorem not_names_aclRemove {body : Str}
    (args : prefixArgs (glaze.readPrefixReq body) = none)
    (o : Op U) : ¬ Names glaze body .aclRemove o := by
  intro names
  cases names with
  | aclRemove named read =>
    rw [prefixArgs_eq_some_iff.mpr ⟨read, named⟩] at args
    cases args

/-- A handler that has answered has made the change its body names, if its route is for changes,
and no other. -/
private theorem administered_of_handler {hd : Handler U} (minRole : Option Role)
    {ctx : RequestContext}
    (follows : Follows (guardedCode (inertApp glaze handler) hd ctx) l (.ret res)) :
    Administered glaze ctx.request (some (hd, minRole)) res (changes l) := by
  have other (set : hd ≠ .aclSet) (remove : hd ≠ .aclRemove) :
      Administered glaze ctx.request (some (hd, minRole)) res (changes l) := by
    have only : (handlerCode (inertApp glaze handler) hd ctx).Only fun o => change o = .none :=
      (handler_changes hd ctx).mono fun o named => by
        by_contra some_
        obtain ⟨call, changed⟩ := Option.ne_none_iff_exists'.mp some_
        cases named call changed with
        | aclSet => exact set rfl
        | aclRemove => exact remove rfl
        | _ => cases changed
    have nothing : changes l = [] := by
      rcases follows.of_tryCatch with ⟨p, handled, -⟩ | ⟨l₁, l₂, x, rfl, handled, rest⟩
      · exact changes_of_only handled only
      · obtain ⟨rfl, -⟩ := rest.of_ret
        rw [List.append_nil]
        exact changes_of_only handled only
    rw [nothing]
    refine .elsewhere fun role => ⟨?_, ?_⟩
    · rintro ⟨⟩
      exact set rfl
    · rintro ⟨⟩
      exact remove rfl
  cases hd with
  | aclSet =>
    change Follows ((Engine.AdminEndpoints.aclSet glaze ctx.request).tryCatch _) l _ at follows
    unfold Engine.AdminEndpoints.aclSet at follows
    cases args : aclSetArgs (glaze.readAclSetReq ctx.request.body) with
    | none =>
      rw [args] at follows
      obtain ⟨rfl, same⟩ := follows.of_ret
      cases same
      exact .unnamed (not_names_aclSet args) rfl
    | some x =>
      rw [args] at follows
      obtain ⟨t, s, env, l, rfl, rest⟩ := Follows.op_ret follows
      obtain ⟨rfl, same⟩ := rest.of_ret
      cases same
      obtain ⟨read, named⟩ := aclSetArgs_eq_some_iff.mp args
      exact .made (.aclSet named read) rfl rfl
  | aclRemove =>
    change Follows ((Engine.AdminEndpoints.aclRemove glaze ctx.request).tryCatch _) l _ at follows
    unfold Engine.AdminEndpoints.aclRemove at follows
    cases args : prefixArgs (glaze.readPrefixReq ctx.request.body) with
    | none =>
      rw [args] at follows
      obtain ⟨rfl, same⟩ := follows.of_ret
      cases same
      exact .unnamed (not_names_aclRemove args) rfl
    | some p =>
      rw [args] at follows
      obtain ⟨t, s, env, l, rfl, rest⟩ := Follows.op_ret follows
      obtain ⟨rfl, same⟩ := rest.of_ret
      cases same
      obtain ⟨read, named⟩ := prefixArgs_eq_some_iff.mp args
      exact .made (.aclRemove named read) rfl rfl
  | _ => exact other (by simp) (by simp)

end Handlers

section Runs

variable {glaze : Glaze} {handler : U → RequestContext → Except Str Response}
  {reqs : Nat → Request} {calls : List (SetupCall U)} {now : TimePoint} {provider : P.State}
  {env : Nat → EngineEnv P} {sched : List (Nat × EngineEnv P)}
  {pre post : List (Event (engine P U))} {e : Event (engine P U)}

private theorem acl_serving (sched : List (Nat × EngineEnv P)) :
    (serving glaze handler reqs (configured calls now provider env) sched).state.acl =
      replay (calls.filterMap rule ++
        changes (serving glaze handler reqs (configured calls now provider env) sched).log) := by
  refine serve_induction (J := fun l (s : EngineState P U) =>
    s.acl = replay (calls.filterMap rule ++ changes l)) ?_ (fun _ l e _ before => ?_) sched
  · simpa [changes] using acl_configured calls now provider env
  · have last : changes (l ++ [e]) = changes l ++ (change e.op).toList := by
      simp only [changes, List.filterMap_append]
      cases h : change e.op <;> simp [h]
    rw [last, ← List.append_assoc, replay, List.foldl_append, ← replay, ← before]
    exact acl_step e.env e.pre e.op

theorem acl_pre (h : (serving glaze handler reqs (configured calls now provider env) sched).log =
    pre ++ e :: post) : e.pre.acl.map = rules calls pre := by
  obtain ⟨sched', k, hlog, hstate, -⟩ := serve_split h
  rw [← hstate, rules, ← AclMap.map_replay, ← hlog]
  exact congrArg Acl.map (acl_serving sched')

private theorem named_of_change
    (h : (serving glaze handler reqs (configured calls now provider env) sched).log =
      pre ++ e :: post) {call : AclCall} (changed : change e.op = some call) :
    (∃ hd minRole, (registered calls).select (reqs e.tid).method
      (cut '?' (reqs e.tid).target) = some (hd, minRole) ∧
      Names glaze (reqs e.tid).body hd e.op) ∧
    cut '?' (reqs e.tid).target = "/api/admin/acl".toList ∧
      AdminSession pre e.tid (reqs e.tid) := by
  obtain ⟨sealed_, -⟩ := AdminOnly.sealed_configured (U := U) calls now provider env
  have owned : ∃ hd, AdminOnly.endpointOf e.op = some (hd, "/api/admin/acl".toList) := by
    cases ho : e.op with
    | aclSet p minRole => exact ⟨_, rfl⟩
    | aclRemove p => exact ⟨_, rfl⟩
    | _ =>
      rw [ho] at changed
      cases changed
  obtain ⟨hd, owned⟩ := owned
  refine ⟨?_, AdminOnly.admin_of_endpoint sealed_ h owned⟩
  obtain ⟨hd', ctx, l, -, inside⟩ :=
    AdminOnly.inside_builtin h (AdminOnly.endpointOf_spec owned).1
  obtain ⟨req, l₀, c, ht, split, entered, -⟩ := inside.request
  cases ht
  have seen : ∀ r ∈ l₀,
      r ∈ (serving glaze handler reqs (configured calls now provider env) sched).log := by
    intro r hr
    have hown : r ∈ own pre e.tid := by
      rw [split]
      exact List.mem_append_left _ hr
    exact h ▸ List.mem_append_left _ (mem_of_own hown).1
  have route : ∃ minRole, (registered calls).select (reqs e.tid).method
      (cut '?' (reqs e.tid).target) = some (hd', minRole) := by
    cases entered with
    | unguarded routed =>
      exact ⟨_, Registrations.registered_of_routed (seen _ (by simp)) routed⟩
    | guarded routed =>
      exact ⟨_, Registrations.registered_of_routed (seen _ (by simp)) routed⟩
  obtain ⟨minRole, route⟩ := route
  obtain ⟨k, follows⟩ := inside.follows
  have named := (follows.only (handler_changes hd' ctx)).2.1 call changed
  rw [entered.request] at named
  exact ⟨hd', minRole, route, named⟩

private theorem changes_of_dispatches {l : List (Event (engine P U))}
    (h : ∀ e ∈ l, dispatches e.op) :
    changes l = [] := by
  rw [changes, List.filterMap_eq_nil_iff]
  intro e he
  have dispatch_ := h e he
  cases ho : e.op <;> rw [ho] at dispatch_ <;> first | exact dispatch_.elim | rfl

private theorem dispatches_of_entered {req : Request} {l : List (Event (engine P U))}
    {hd : Handler U}
    {ctx : RequestContext} (entered : Entered req l hd ctx) : ∀ e ∈ l, dispatches e.op := by
  cases entered with
  | unguarded routed => simp [routed.1, dispatches]
  | guarded routed token live ok => simp [routed.1, live.1, dispatches]

private theorem dispatches_of_turnedAway {app : App U} {req : Request}
    {l : List (Event (engine P U))}
    {res : Response} (away : TurnedAway app req l res) :
    (∀ e ∈ l, dispatches e.op) ∧ (res.status = .unauthorized ∨ res.status = .forbidden) := by
  cases away with
  | noToken routed => exact ⟨by simp [routed.1, dispatches], Or.inl rfl⟩
  | noSession routed live => exact ⟨by simp [routed.1, live.1, dispatches], Or.inl rfl⟩
  | lowRole routed live => exact ⟨by simp [routed.1, live.1, dispatches], Or.inr rfl⟩

private theorem administered_of_answered {t : Nat} {res : Response}
    (done : (serving glaze handler reqs (configured calls now provider env) sched).pool t =
      .ret res) :
    Administered glaze (reqs t)
      ((registered calls).select (reqs t).method (cut '?' (reqs t).target)) res
      (changes (own (serving glaze handler reqs (configured calls now provider env) sched).log
        t)) := by
  have follows : Follows (dispatch (inertApp glaze handler) (reqs t))
      (own (serving glaze handler reqs (configured calls now provider env) sched).log t)
      (.ret res) := done ▸ LiveSessions.dispatched t
  have stage := stage_of_follows follows
  have route : ∀ r ∈ own (serving glaze handler reqs (configured calls now provider env)
      sched).log t, ∀ found, Routed r (reqs t) found →
      (registered calls).select (reqs t).method (cut '?' (reqs t).target) = found :=
    fun r hr found routed => Registrations.registered_of_routed (mem_of_own hr).1 routed
  generalize own (serving glaze handler reqs (configured calls now provider env) sched).log t = l
    at stage route
  generalize hq : Prog.ret res = q at stage
  cases stage with
  | arriving => cases hq
  | notFound routed =>
    rw [changes_of_dispatches (by simp [routed.1, dispatches]), route _ (by simp) _ routed]
    exact .elsewhere fun _ => ⟨by simp, by simp⟩
  | checking routed token =>
    rw [enforce_eq, if_neg token] at hq
    cases hq
  | turnedAway away =>
    cases hq
    obtain ⟨silent, refused⟩ := dispatches_of_turnedAway away
    rw [changes_of_dispatches silent]
    exact .turnedAway refused
  | entering => cases hq
  | @inside l₀ l' c hd ctx _ entered hc inner =>
    subst hq
    have found : ∃ minRole, (registered calls).select (reqs t).method
        (cut '?' (reqs t).target) = some (hd, minRole) := by
      cases entered with
      | unguarded routed => exact ⟨_, route _ (by simp) _ routed⟩
      | guarded routed => exact ⟨_, route _ (by simp) _ routed⟩
    obtain ⟨minRole, found⟩ := found
    have before := changes_of_dispatches (dispatches_of_entered entered)
    have after := administered_of_handler minRole inner
    rw [entered.request] at after
    have entry : change c.op = none := by rw [hc]; rfl
    have same : changes (l₀ ++ c :: l') = changes l' := by
      simp only [changes, List.filterMap_append, List.filterMap_cons, entry] at before ⊢
      rw [before, List.nil_append]
    rw [found, same]
    exact after

end Runs

/-- The gates decide as administered. In an engine that was set up and serves any requests, in any
interleaving of their steps: each decision of the access list, and each listing of it, is by the
rules of the setup and the changes made before; each change is named by the body of its request, at
the endpoint for it and for an Admin session; and a request that was answered 200 at such an
endpoint has made the change its body names, and any other has made none. -/
theorem gates_as_administered (glaze : Glaze) (handler : U → RequestContext → Except Str Response)
    (calls : List (SetupCall U)) (now : TimePoint) (provider : P.State) (env : Nat → EngineEnv P)
    (reqs : Nat → Request) (sched : List (Nat × EngineEnv P)) :
    (∀ pre e post,
      (serving glaze handler reqs (configured calls now provider env) sched).log =
        pre ++ e :: post →
      (∀ role path, e.pre.acl.authorize role path =
        roleSatisfies role ((lookup (rules calls pre) path).getD .admin)) ∧
      (∀ p minRole, ⟨p, minRole⟩ ∈ e.pre.acl.list ↔ rules calls pre p = some minRole) ∧
      ∀ call, change e.op = some call →
        (∃ hd minRole, (registered calls).select (reqs e.tid).method
          (cut '?' (reqs e.tid).target) = some (hd, minRole) ∧
          Names glaze (reqs e.tid).body hd e.op) ∧
        cut '?' (reqs e.tid).target = "/api/admin/acl".toList ∧
        AdminSession pre e.tid (reqs e.tid)) ∧
    ∀ t res, (serving glaze handler reqs (configured calls now provider env) sched).pool t =
        .ret res →
      Administered glaze (reqs t)
        ((registered calls).select (reqs t).method (cut '?' (reqs t).target)) res
        (changes (own (serving glaze handler reqs (configured calls now provider env) sched).log
          t)) := by
  refine ⟨fun pre e post h => ⟨?_, ?_, fun call => named_of_change h⟩, fun t res =>
    administered_of_answered⟩
  · intro role path
    rw [Acl.authorize_eq, acl_pre h]
  · intro p minRole
    rw [Acl.mem_list_iff, acl_pre h]

section Instance

open Webengine.Results.AdminOnly (loginRequest noHandler oneAdmin oneDraw sampleGlaze)

/-- The library reads one rule from any body. -/
def docsGlaze : Glaze where
  __ := sampleGlaze
  readAclSetReq _ := (false, ⟨some "/docs/".toList, some "user".toList⟩)

def ruleSetup : List (SetupCall Empty) :=
  [.protectPath "/protected/".toList .viewer, .unprotectPath "/protected/".toList,
    .enableAuthEndpoints, .enableAdminEndpoints]

/-- A login, then a request for a rule with its cookie. -/
def loginThenRule : Nat → Request
  | 0 => loginRequest
  | _ => ⟨.post, "/api/admin/acl".toList, 11, [("Cookie".toList,
      "session=".toList ++ tokenOf (Vector.replicate 32 7))], []⟩

def ruleRun : Config (engine oneAdmin Empty) Str Response :=
  serving docsGlaze noHandler loginThenRule (configured ruleSetup 0 () fun _ => oneDraw)
    ([0, 0, 0, 0, 0, 1, 1, 1, 1, 1].map fun t => (t, oneDraw))

/-- The theorem at that run: the rule of the body is set. -/
theorem gates_as_administered_docs :
    changes (own ruleRun.log 1) = [.set "/docs/".toList .user] := by
  have done : ruleRun.pool 1 = .ret okResponse := Prog.eq_ret_of_returned (by decide +kernel)
  unfold ruleRun at done ⊢
  have answered := (gates_as_administered (P := oneAdmin) docsGlaze noHandler ruleSetup 0 ()
    (fun _ => oneDraw) loginThenRule _).2 1 _ done
  have route : (registered ruleSetup).select (loginThenRule 1).method
      (cut '?' (loginThenRule 1).target) = some (.aclSet, some .admin) := rfl
  rw [route] at answered
  generalize changes _ = cs at answered ⊢
  cases answered with
  | made named changed ok =>
    cases named with
    | aclSet nonempty read =>
      have args : aclSetArgs (docsGlaze.readAclSetReq (loginThenRule 1).body) =
        some ("/docs/".toList, .user) := rfl
      rw [aclSetArgs_eq_some_iff.mpr ⟨read, nonempty⟩] at args
      cases args
      cases changed
      rfl
  | turnedAway refused => rcases refused with h | h <;> cases h
  | unnamed _ refused => cases refused
  | elsewhere route => exact absurd rfl (route (some .admin)).1

end Instance

end Webengine.Results.AdministeredRules
