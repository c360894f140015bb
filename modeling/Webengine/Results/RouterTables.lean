/- source: backend/src/Router.cpp
   digest: After any sequence of registrations the router is a pair of finite maps, and a
   dispatch uses exactly what they hold for its request. -/

import Webengine.Engine.Dispatch
import Mathlib.Data.Set.Insert

set_option autoImplicit false
set_option relaxedAutoImplicit false

namespace Webengine.Results.RouterTables

open Webengine.Engine.Roles
open Webengine.Engine.Messages
open Webengine.Engine.Routing
open Webengine.Engine.Operations
open Webengine.Engine.Dispatch
open Webengine.Engine.Providers (AuthProvider)
open Webengine.Library.Texts (cut)
open Webengine.Library.LongestMatch
open Webengine.Library.Machines

/-- The three registering calls. -/
inductive RouterCall (H : Type)
  | addRoute (method : Verb) (path : Str) (handler : H) (minRole : Option Role)
  | addPrefixRoute (method : Verb) (p : Str) (handler : H) (minRole : Option Role)
  | setRouteRole (path : Str) (minRole : Option Role)

/-- What a call can be about: an exact route or a prefix route. -/
inductive Slot
  | exact (method : Verb) (path : Str)
  | prefixed (method : Verb) (p : Str)

variable {H : Type}

namespace RouterCall

def apply (r : Router H) : RouterCall H → Router H
  | .addRoute method path h minRole => r.addRoute method path h minRole
  | .addPrefixRoute method p h minRole => r.addPrefixRoute method p h minRole
  | .setRouteRole path minRole => (r.setRouteRole path minRole).2

/-- The same call on the pair of finite maps. -/
def applyTables (t : Tables H) : RouterCall H → Tables H
  | .addRoute method path h minRole =>
    { t with exact := Function.update t.exact (method, path) (some (h, minRole)) }
  | .addPrefixRoute method p h minRole =>
    { t with prefixed := Function.update t.prefixed (method, p) (some (h, minRole)) }
  | .setRouteRole path minRole => t.reRole path minRole

/-- A role change is about every exact route of its path. -/
def slots : RouterCall H → Set Slot
  | .addRoute method path _ _ => {.exact method path}
  | .addPrefixRoute method p _ _ => {.prefixed method p}
  | .setRouteRole path _ => {slot | ∃ method, slot = .exact method path}

/-- The calls are about different slots. -/
def Apart (a b : RouterCall H) : Prop := ∀ slot, slot ∈ a.slots → slot ∉ b.slots

private theorem tables_apply (r : Router H) (c : RouterCall H) :
    (c.apply r).tables = c.applyTables r.tables := by
  cases c with
  | addRoute method path h minRole => exact r.tables_addRoute method path h minRole
  | addPrefixRoute method p h minRole => exact r.tables_addPrefixRoute method p h minRole
  | setRouteRole path minRole => exact r.tables_setRouteRole path minRole

end RouterCall

/-- The router after the calls, starting from an empty one. -/
def replay (calls : List (RouterCall H)) : Router H := calls.foldl RouterCall.apply Router.empty

/-- The pair of finite maps after the calls. -/
def tablesAfter (calls : List (RouterCall H)) : Tables H :=
  calls.foldl RouterCall.applyTables Tables.empty

private theorem tables_replay (calls : List (RouterCall H)) :
    (replay calls).tables = tablesAfter calls := by
  induction calls using List.reverseRecOn with
  | nil => rfl
  | append_singleton calls c ih =>
    rw [replay, tablesAfter, List.foldl_append, List.foldl_append]
    simp only [List.foldl_cons, List.foldl_nil]
    rw [RouterCall.tables_apply]
    exact congrArg (fun t => c.applyTables t) ih

private theorem select_replay (calls : List (RouterCall H)) (method : Verb) (path : Str) :
    (replay calls).select method path = (tablesAfter calls).select method path := by
  rw [Router.select_eq, tables_replay]

private theorem update_reRole (t : Tables H) {method : Verb} {path path' : Str}
    (hne : path ≠ path') (v : H × Option Role) (minRole : Option Role) :
    ({ t with exact := Function.update t.exact (method, path) (some v) } : Tables H).reRole
        path' minRole =
      { t.reRole path' minRole with
        exact := Function.update (t.reRole path' minRole).exact (method, path) (some v) } := by
  refine Tables.ext (funext fun key => ?_) rfl
  by_cases h : key = (method, path)
  · subst h
    simp [Tables.reRole, hne]
  · simp [Tables.reRole, Function.update_of_ne h]

private theorem reRole_reRole (t : Tables H) {path path' : Str} (hne : path ≠ path')
    (minRole minRole' : Option Role) :
    (t.reRole path minRole).reRole path' minRole' =
      (t.reRole path' minRole').reRole path minRole := by
  refine Tables.ext (funext fun key => ?_) rfl
  simp only [Tables.reRole]
  by_cases h : key.2 = path
  · simp [h, hne]
  · simp [h]

private theorem applyTables_comm (t : Tables H) {a b : RouterCall H}
    (apart : a.Apart b) :
    b.applyTables (a.applyTables t) = a.applyTables (b.applyTables t) := by
  cases a with
  | addRoute m p h r =>
    cases b with
    | addRoute m' p' h' r' =>
      have hne : (m, p) ≠ (m', p') := by
        rintro ⟨⟩
        exact apart (.exact m p) rfl rfl
      exact Tables.ext (Function.update_comm hne.symm _ _ _).symm rfl
    | addPrefixRoute m' p' h' r' => rfl
    | setRouteRole p' r' =>
      have hne : p ≠ p' := by
        rintro rfl
        exact apart (.exact m p) rfl ⟨m, rfl⟩
      exact update_reRole t hne _ _
  | addPrefixRoute m p h r =>
    cases b with
    | addRoute m' p' h' r' => rfl
    | addPrefixRoute m' p' h' r' =>
      have hne : (m, p) ≠ (m', p') := by
        rintro ⟨⟩
        exact apart (.prefixed m p) rfl rfl
      exact Tables.ext rfl (Function.update_comm hne.symm _ _ _).symm
    | setRouteRole p' r' => rfl
  | setRouteRole p r =>
    cases b with
    | addRoute m' p' h' r' =>
      have hne : p' ≠ p := by
        rintro rfl
        exact apart (.exact m' p') ⟨m', rfl⟩ rfl
      exact (update_reRole t hne _ _).symm
    | addPrefixRoute m' p' h' r' => rfl
    | setRouteRole p' r' =>
      have hne : p ≠ p' := by
        rintro rfl
        exact apart (.exact .get p) ⟨.get, rfl⟩ ⟨.get, rfl⟩
      exact reRole_reRole t hne _ _

private theorem tablesAfter_swap (pre post : List (RouterCall H)) {a b : RouterCall H}
    (apart : a.Apart b) :
    tablesAfter (pre ++ [a, b] ++ post) = tablesAfter (pre ++ [b, a] ++ post) := by
  simp only [tablesAfter, List.foldl_append, List.foldl_cons, List.foldl_nil]
  rw [applyTables_comm _ apart]

section Dispatching

variable {U : Type} {P : AuthProvider}

/-- Two engines that differ at most in how their tables came about. -/
def SameTables (s s' : EngineState P U) : Prop :=
  s.now = s'.now ∧ s.provider = s'.provider ∧ s.tokens = s'.tokens ∧ s.acl = s'.acl ∧
    s.router.tables = s'.router.tables

private theorem setRouteRole_found_congr {r r' : Router H} (h : r.tables = r'.tables)
    (path : Str) (minRole : Option Role) :
    (r.setRouteRole path minRole).1 = (r'.setRouteRole path minRole).1 := by
  rw [Bool.eq_iff_iff, Router.setRouteRole_found, Router.setRouteRole_found, h]

private theorem sameTables_step (env : EngineEnv P) (s s' : EngineState P U) (o : Op U)
    (h : SameTables s s') :
    (engineStep env s o).1 = (engineStep env s' o).1 ∧
      SameTables (engineStep env s o).2 (engineStep env s' o).2 := by
  obtain ⟨now, provider, tokens, acl, router⟩ := s
  obtain ⟨now', provider', tokens', acl', router'⟩ := s'
  obtain ⟨rfl, rfl, rfl, rfl, htab⟩ := h
  cases o with
  | route method path =>
    have hsel : router.select method path = router'.select method path := by
      rw [Router.select_eq, Router.select_eq]
      exact congrArg (fun t => t.select method path) htab
    exact ⟨hsel, rfl, rfl, rfl, rfl, htab⟩
  | addRoute method path handler minRole =>
    refine ⟨rfl, rfl, rfl, rfl, rfl, ?_⟩
    change (router.addRoute _ _ _ _).tables = (router'.addRoute _ _ _ _).tables
    rw [Router.tables_addRoute, Router.tables_addRoute]
    exact congrArg (fun t => RouterCall.applyTables t (.addRoute method path handler minRole)) htab
  | addPrefixRoute method p handler minRole =>
    refine ⟨rfl, rfl, rfl, rfl, rfl, ?_⟩
    change (router.addPrefixRoute _ _ _ _).tables = (router'.addPrefixRoute _ _ _ _).tables
    rw [Router.tables_addPrefixRoute, Router.tables_addPrefixRoute]
    exact congrArg (fun t => RouterCall.applyTables t (.addPrefixRoute method p handler minRole))
      htab
  | setRouteRole path minRole =>
    refine ⟨setRouteRole_found_congr htab path minRole, rfl, rfl, rfl, rfl, ?_⟩
    change (router.setRouteRole _ _).2.tables = (router'.setRouteRole _ _).2.tables
    rw [Router.tables_setRouteRole, Router.tables_setRouteRole]
    exact congrArg (fun t => t.reRole path minRole) htab
  | _ => exact ⟨rfl, rfl, rfl, rfl, rfl, htab⟩

private theorem dispatch_congr (app : App U) (req : Request) {s s' : EngineState P U}
    (h : SameTables s s') (env : Nat → EngineEnv P) :
    (run (engine P U) (dispatch app req) s env).result =
      (run (engine P U) (dispatch app req) s' env).result :=
  run_of_indistinguishable (m := engine P U) (R := SameTables)
    (fun env s s' o => sameTables_step env s s' o) _ h env

/-- The dispatch of `req` looks its route up and goes on with the pair `hr`. -/
def DispatchUses (app : App U) (s : EngineState P U) (req : Request) (env : Nat → EngineEnv P)
    (hr : Handler U × Option Role) : Prop :=
  run (engine P U) (dispatch app req) s env =
    let next := run (engine P U) (enforce app req hr.1 hr.2)
      { s with now := s.now + (env 0).elapsed } (later env)
    { next with log := ⟨0, s, env 0, .route req.method (cut '?' req.target)⟩ :: next.log }

private theorem dispatchUses_of_select (app : App U) {s : EngineState P U} {req : Request}
    {hr : Handler U × Option Role}
    (h : s.router.select req.method (cut '?' req.target) = some hr) (env : Nat → EngineEnv P) :
    DispatchUses app s req env hr := by
  have hans : ((engine P U).step (env 0) s (.route req.method (cut '?' req.target))).1 =
      some hr := h
  rw [DispatchUses, dispatch_eq, run_op, hans]
  rfl

private theorem dispatch_of_no_route (app : App U) {s : EngineState P U} {req : Request}
    (h : s.router.select req.method (cut '?' req.target) = none) (env : Nat → EngineEnv P) :
    (run (engine P U) (dispatch app req) s env).result = .ok routeNotFound := by
  have hans : ((engine P U).step (env 0) s (.route req.method (cut '?' req.target))).1 =
      none := h
  rw [dispatch_eq, run_op, hans]
  rfl

/-- For every sequence of registrations: no prefix is registered twice; a role change
reports whether it found its path; a dispatch uses the exact entry, else the entry of the
longest prefix, else answers 404; and adjacent calls about different routes can be swapped
without any dispatch noticing. -/
theorem router_refines_tables (app : App U) (calls : List (RouterCall (Handler U))) :
    ((replay calls).prefixRoutes.map PrefixRoute.key).Nodup ∧
    (∀ path minRole, ((replay calls).setRouteRole path minRole).1 = true ↔
      ∃ method, ((tablesAfter calls).exact (method, path)).isSome) ∧
    (∀ (s : EngineState P U) (req : Request) (env : Nat → EngineEnv P),
      s.router = replay calls →
      (∀ hr, (tablesAfter calls).exact (req.method, cut '?' req.target) = some hr →
        DispatchUses app s req env hr) ∧
      ((tablesAfter calls).exact (req.method, cut '?' req.target) = none →
        (∀ p hr, Longest (fun p => (tablesAfter calls).prefixed (req.method, p))
            (cut '?' req.target) p →
          (tablesAfter calls).prefixed (req.method, p) = some hr →
          DispatchUses app s req env hr) ∧
        (NoKey (fun p => (tablesAfter calls).prefixed (req.method, p)) (cut '?' req.target) →
          (run (engine P U) (dispatch app req) s env).result = .ok routeNotFound))) ∧
    (∀ pre post a b, calls = pre ++ [a, b] ++ post → a.Apart b →
      ∀ (s : EngineState P U) (req : Request) (env : Nat → EngineEnv P),
        (replay calls).select req.method (cut '?' req.target) =
          (replay (pre ++ [b, a] ++ post)).select req.method (cut '?' req.target) ∧
        (run (engine P U) (dispatch app req) { s with router := replay calls } env).result =
          (run (engine P U) (dispatch app req)
            { s with router := replay (pre ++ [b, a] ++ post) } env).result) := by
  refine ⟨(replay calls).unique, fun path minRole => ?_, fun s req env hs => ⟨?_, ?_⟩, ?_⟩
  · rw [Router.setRouteRole_found, tables_replay]
  · intro hr hexact
    refine dispatchUses_of_select app ?_ env
    rw [hs, select_replay, Tables.select, hexact, Option.some_or]
  · intro hexact
    constructor
    · intro p hr hlong hp
      refine dispatchUses_of_select app ?_ env
      rw [hs, select_replay, Tables.select, hexact, Option.none_or, lookup_of_longest hlong]
      exact hp
    · intro hno
      refine dispatch_of_no_route app ?_ env
      rw [hs, select_replay, Tables.select, hexact, Option.none_or, lookup_eq_none_iff]
      exact hno
  · rintro pre post a b rfl apart s req env
    have htab := tablesAfter_swap pre post apart
    constructor
    · rw [select_replay, select_replay, htab]
    · have same : SameTables { s with router := replay (pre ++ [a, b] ++ post) }
          { s with router := replay (pre ++ [b, a] ++ post) } := by
        refine ⟨rfl, rfl, rfl, rfl, ?_⟩
        rw [tables_replay, tables_replay, htab]
      exact dispatch_congr app req same env

end Dispatching

end Webengine.Results.RouterTables
