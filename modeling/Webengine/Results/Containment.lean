/- source: backend/src/AuthHandler.cpp (handle_protected_file), backend/src/WebEngine.cpp
   (serve_protected_files), backend/src/Router.cpp
   digest: In every run a gated file handler runs only below its own prefix, opens a file only
   behind its gate, and the name it opens leads below the directory it serves. -/

import Webengine.Engine.Footprints
import Webengine.Engine.Paths

set_option autoImplicit false
set_option relaxedAutoImplicit false

namespace Webengine.Results.Containment

open Webengine.Engine.Roles
open Webengine.Engine.Messages
open Webengine.Engine.AccessList
open Webengine.Engine.Routing
open Webengine.Engine.Sessions
open Webengine.Engine.Operations
open Webengine.Engine.AuthEndpoints
open Webengine.Engine.Dispatch
open Webengine.Engine.Stages
open Webengine.Engine.Footprints
open Webengine.Engine.Gates (posix)
open Webengine.Engine.Paths
open Webengine.Engine.Providers (AuthProvider)
open Webengine.Library.Interleavings
open Webengine.Library.Machines
open Webengine.Library.Segments
open Webengine.Library.Texts (cut)

variable {P : AuthProvider} {U : Type}

/-- Gated file handlers are registered for GET only, each as a prefix route of its own
prefix. -/
def SubtreeRoutes (r : Router (Handler U)) : Prop :=
  r.Holds (fun _ hr => ∀ fsRoot p, hr.1 ≠ .protectedFile fsRoot p)
    (fun key hr => ∀ fsRoot p, hr.1 = .protectedFile fsRoot p → key.1 = .get ∧ p = key.2)

theorem SubtreeRoutes.step {s : EngineState P U} (h : SubtreeRoutes s.router) {o : Op U}
    (conf : configures o) (env : EngineEnv P) : SubtreeRoutes (engineStep env s o).2.router := by
  cases o with
  | addRoute method path hd minRole => exact Router.Holds.addRoute h conf
  | addPrefixRoute method p hd minRole =>
    obtain ⟨rfl, rfl, fsRoot, rfl⟩ := conf
    refine Router.Holds.addPrefixRoute h fun fsRoot' p' same => ?_
    cases same
    exact ⟨rfl, rfl⟩
  | setRouteRole path minRole =>
    exact Router.Holds.setRouteRole h (fun _ _ _ _ same => same) path minRole
  | aclSet p minRole => exact h
  | aclRemove p => exact h
  | _ => exact conf.elim

/-- The name leads to the directory or below it, from the same starting point. -/
structure Within (fsRoot name : Str) : Prop where
  below : ∃ segs, resolve posix name = resolve posix fsRoot ++ segs ∧
    ∀ seg ∈ segs, Proper posix seg ∧ seg ≠ posix.up
  start : fsRoot ≠ [] → name.head? = fsRoot.head?

theorem within_filePath {urlPrefix target : Str}
    (stays : ¬ dotDot <:+: relativePath urlPrefix (cut '?' target)) (fsRoot : Str) :
    Within fsRoot (filePath fsRoot (servedPath urlPrefix target)) := by
  have noUp := up_notMem_servedPath stays
  refine ⟨⟨_, resolve_filePath noUp fsRoot, fun seg hseg => ?_⟩, fun h => head?_filePath h _⟩
  refine ⟨proper_of_mem_kept hseg, ?_⟩
  rintro rfl
  exact noUp (kept_subset hseg)

/-- What a thread has done before it opens `name`: entered the handler of a subtree the
request path is in, found the session live and its role allowed at the request path. -/
def Gated (threads : Nat → Thread U) (pre : List (Event (engine P U))) (t : Nat) (name : Str) :
    Prop :=
  ∃ req fsRoot p ctx entry l c v a g, threads t = .request req ∧
    own pre t = l ++ [c, v, a, g] ∧ c.op = .call (.protectedFile fsRoot p) ctx ∧
    ctx.request = req ∧ p <+: cut '?' req.target ∧ Validated v req (some entry) ∧
    Allowed a entry.role (cut '?' req.target) ∧ Within fsRoot name

section Runs

variable {app : App U} {threads : Nat → Thread U} {s₀ : EngineState P U}
  {sched : List (Nat × EngineEnv P)} {pre post : List (Event (engine P U))}
  {e : Event (engine P U)}

private theorem configures_of_registers (h : (serve app threads s₀ sched).log = pre ++ e :: post)
    (reg : registers e.op) : configures e.op := by
  have inner : ¬ dispatches e.op := by
    cases ho : e.op <;> rw [ho] at reg <;> first | exact reg.elim | exact id
  rcases inside_of_log h inner with ⟨-, conf⟩ | ⟨hd, ctx, l, inside⟩
  · exact conf
  · have may := inside.performs
    cases hd with
    | user u => exact may
    | _ => cases ho : e.op <;> rw [ho] at reg may <;> first | exact reg.elim | exact may.elim

private theorem subtreeRoutes_of_run (start : SubtreeRoutes s₀.router)
    (sched : List (Nat × EngineEnv P)) :
    SubtreeRoutes (serve app threads s₀ sched).state.router := by
  refine serve_induction (J := fun _ (s : EngineState P U) => SubtreeRoutes s.router) start
    (fun sched l e last before => ?_) sched
  by_cases reg : registers e.op
  · exact before.step (configures_of_registers last reg) e.env
  · rw [Event.post, router_of_not_registers reg]
    exact before

private theorem under_of_call (start : SubtreeRoutes s₀.router)
    (h : (serve app threads s₀ sched).log = pre ++ e :: post) {fsRoot p : Str}
    {ctx : RequestContext} (hop : e.op = .call (.protectedFile fsRoot p) ctx) :
    threads e.tid = .request ctx.request ∧ ctx.request.method = .get ∧
      p <+: cut '?' ctx.request.target := by
  obtain ⟨req, ht, entered⟩ := entered_of_call h hop
  have looked : ∃ r ∈ pre, ∃ minRole, ctx.request = req ∧
      Routed r req (some (.protectedFile fsRoot p, minRole)) := by
    generalize steps : own pre e.tid = l at entered
    cases entered with
    | @unguarded r hd found =>
      exact ⟨r, (mem_of_own (by rw [steps]; simp)).1, _, rfl, found⟩
    | @guarded r v hd need entry found =>
      exact ⟨r, (mem_of_own (t := e.tid) (by rw [steps]; simp)).1, _, rfl, found⟩
  obtain ⟨r, hr, minRole, rfl, -, found⟩ := looked
  obtain ⟨before, after, rfl⟩ := List.append_of_mem hr
  rw [List.append_assoc, List.cons_append] at h
  obtain ⟨sched', k, -, hstate, -⟩ := serve_split h
  have routes : SubtreeRoutes r.pre.router := by
    rw [← hstate]
    exact subtreeRoutes_of_run start sched'
  rcases Router.Holds.select routes found with exact | ⟨q, hq, prefixed⟩
  · exact absurd rfl (exact fsRoot p)
  · obtain ⟨get, rfl⟩ := prefixed fsRoot p rfl
    exact ⟨ht, get, hq⟩

private theorem gated_of_openFile (start : SubtreeRoutes s₀.router)
    (h : (serve app threads s₀ sched).log = pre ++ e :: post) {name : Str}
    (hop : e.op = .openFile name) : Gated threads pre e.tid name := by
  have inner : ¬ dispatches e.op := by
    rw [hop]
    exact id
  rcases inside_of_log h inner with ⟨-, conf⟩ | ⟨hd, ctx, l', inside⟩
  · rw [hop] at conf
    exact conf.elim
  have may := inside.performs
  rw [hop] at may
  cases hd with
  | protectedFile fsRoot p =>
    obtain ⟨req, l, c, ht, split, entered, hc⟩ := inside.request
    obtain ⟨k, follows⟩ := inside.follows
    obtain ⟨v, a, g, entry, rfl, validated, allowed, stays, rfl⟩ :=
      allowed_of_openFile follows hop
    have entry_ := entered.request
    subst entry_
    obtain ⟨before, after, hpre⟩ : ∃ before after, pre = before ++ c :: after := by
      refine List.append_of_mem (mem_of_own (t := e.tid) ?_).1
      rw [split]
      simp
    have hctid : c.tid = e.tid := by
      refine (mem_of_own (l := pre) ?_).2
      rw [split]
      simp
    rw [hpre, List.append_assoc, List.cons_append] at h
    have under := (under_of_call start h hc).2.2
    exact ⟨ctx.request, fsRoot, p, ctx, entry, l, c, v, a, g, ht, split, hc, rfl, under,
      validated, allowed, within_filePath stays fsRoot⟩
  | _ => exact may.elim

end Runs

/-- For every engine, however its routes were registered and whatever runs on it at the same
time: a gated file handler is entered only by a GET below its prefix, and a file is opened
only behind the gate and within the directory. -/
theorem served_subtree_contained (app : App U) (threads : Nat → Thread U) (now : TimePoint)
    (provider : P.State) (tokens : TokenStore) (acl : Acl) (sched : List (Nat × EngineEnv P)) :
    (∀ pre e post fsRoot p ctx,
      (serve app threads ⟨now, provider, tokens, acl, Router.empty⟩ sched).log =
        pre ++ e :: post → e.op = .call (.protectedFile fsRoot p) ctx →
      threads e.tid = .request ctx.request ∧ ctx.request.method = .get ∧
        p <+: cut '?' ctx.request.target) ∧
    (∀ pre e post name,
      (serve app threads ⟨now, provider, tokens, acl, Router.empty⟩ sched).log =
        pre ++ e :: post → e.op = .openFile name → Gated threads pre e.tid name) := by
  have start : SubtreeRoutes (Router.empty : Router (Handler U)) := Router.Holds.empty
  constructor
  · intro pre e post fsRoot p ctx h hop
    exact under_of_call start h hop
  · intro pre e post name h hop
    exact gated_of_openFile start h hop

end Webengine.Results.Containment
