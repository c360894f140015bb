/- source: backend/src/Router.hpp, backend/src/Router.cpp
   digest: The route table: exact routes, prefix routes, the choice of a route, and the pair
   of finite maps the table stands for. -/

import Webengine.Engine.Messages
import Webengine.Library.LongestMatch
import Mathlib.Data.List.AList

set_option autoImplicit false
set_option relaxedAutoImplicit false

namespace Webengine.Engine.Routing

open Webengine.Engine.Roles
open Webengine.Engine.Messages (Verb)
open Webengine.Library.KeyedLists
open Webengine.Library.LongestMatch

/-- `handler` stands for a `std::function`; an absent `minRole` makes the route public. -/
structure Route (H : Type) where
  handler : H
  minRole : Option Role

structure PrefixRoute (H : Type) where
  method : Verb
  pathPrefix : Str
  handler : H
  minRole : Option Role

variable {H : Type}

def PrefixRoute.key (pr : PrefixRoute H) : Verb × Str := (pr.method, pr.pathPrefix)

/-- The pair a dispatch copies out of the table. -/
def Route.pair (route : Route H) : H × Option Role := (route.handler, route.minRole)

def PrefixRoute.pair (pr : PrefixRoute H) : H × Option Role := (pr.handler, pr.minRole)

/-- `routes_` and `prefix_routes_`; no method and prefix are registered twice. -/
structure Router (H : Type) where
  routes : AList (fun _ : Verb × Str => Route H)
  prefixRoutes : List (PrefixRoute H)
  unique : (prefixRoutes.map PrefixRoute.key).Nodup

namespace Router

def empty : Router H := ⟨∅, [], List.nodup_nil⟩

/-- Register or replace a handler for (method, path). -/
def addRoute (r : Router H) (method : Verb) (path : Str) (handler : H)
    (minRole : Option Role) : Router H :=
  { r with routes := r.routes.insert (method, path) ⟨handler, minRole⟩ }

/-- Register or replace a prefix handler for `method`. -/
def addPrefixRoute (r : Router H) (method : Verb) (p : Str) (handler : H)
    (minRole : Option Role) : Router H where
  routes := r.routes
  prefixRoutes := put PrefixRoute.key (method, p) (fun pr => { pr with handler, minRole })
    ⟨method, p, handler, minRole⟩ r.prefixRoutes
  unique := by
    apply nodup_put
    · rfl
    · exact fun _ h => h
    · exact r.unique

/-- The body of the loop over `routes_`. -/
def reRole (path : Str) (minRole : Option Role) (key : Verb × Str) (route : Route H) : Route H :=
  if key.2 = path then { route with minRole } else route

/-- Set the minimum role for every method registered at `path`; true if there was one. -/
def setRouteRole (r : Router H) (path : Str) (minRole : Option Role) : Bool × Router H :=
  (r.routes.keys.any (fun key => key.2 = path),
    { r with routes :=
      ⟨r.routes.entries.map (Sigma.map id (reRole path minRole)),
        r.routes.nodupKeys.map₂ _ _⟩ })

/-- The route of a request: the exact one, else the longest matching prefix route. -/
def select (r : Router H) (method : Verb) (path : Str) : Option (H × Option Role) :=
  match r.routes.lookup (method, path) with
  | some route => some (route.handler, route.minRole)
  | none =>
    match scan (fun pr : PrefixRoute H => pr.method = method && pr.pathPrefix.isPrefixOf path)
        (fun pr => pr.pathPrefix.length) r.prefixRoutes with
    | some best => some (best.handler, best.minRole)
    | none => none

end Router

/-- The abstract table: what is registered for a method and a path, or a prefix. -/
@[ext] structure Tables (H : Type) where
  exact : Verb × Str → Option (H × Option Role)
  prefixed : Verb × Str → Option (H × Option Role)

namespace Tables

def empty : Tables H := ⟨fun _ => none, fun _ => none⟩

def select (t : Tables H) (method : Verb) (path : Str) : Option (H × Option Role) :=
  (t.exact (method, path)).or (lookup (fun p => t.prefixed (method, p)) path)

/-- Only the role of every key with the path is replaced. -/
def reRole (t : Tables H) (path : Str) (minRole : Option Role) : Tables H :=
  { t with exact := fun key =>
      if key.2 = path then (t.exact key).map (fun hr => (hr.1, minRole)) else t.exact key }

end Tables

namespace Router

/-- The tables a router stands for. -/
def tables (r : Router H) : Tables H where
  exact key := (r.routes.lookup key).map Route.pair
  prefixed := assoc PrefixRoute.key PrefixRoute.pair r.prefixRoutes

theorem tables_addRoute (r : Router H) (method : Verb) (path : Str) (handler : H)
    (minRole : Option Role) :
    (r.addRoute method path handler minRole).tables =
      { r.tables with
        exact := Function.update r.tables.exact (method, path) (some (handler, minRole)) } := by
  refine Tables.ext (funext fun key => ?_) rfl
  by_cases h : key = (method, path)
  · subst h
    simp [tables, addRoute, Route.pair]
  · simp [tables, addRoute, AList.lookup_insert_ne h, Function.update_of_ne h]

theorem tables_addPrefixRoute (r : Router H) (method : Verb) (p : Str) (handler : H)
    (minRole : Option Role) :
    (r.addPrefixRoute method p handler minRole).tables =
      { r.tables with
        prefixed := Function.update r.tables.prefixed (method, p) (some (handler, minRole)) } := by
  refine Tables.ext rfl ?_
  apply assoc_put
  · rfl
  · rfl
  · exact fun _ h => h
  · exact fun _ => rfl

theorem tables_setRouteRole (r : Router H) (path : Str) (minRole : Option Role) :
    (r.setRouteRole path minRole).2.tables = r.tables.reRole path minRole := by
  refine Tables.ext (funext fun key => ?_) rfl
  have hlook : AList.lookup key (r.setRouteRole path minRole).2.routes =
      (AList.lookup key r.routes).map (reRole path minRole key) :=
    List.dlookup_map₂ key
  simp only [tables, hlook, Tables.reRole, Option.map_map]
  by_cases h : key.2 = path
  · simp only [if_pos h]
    congr 1
    funext route
    simp [reRole, h, Route.pair]
  · simp only [if_neg h]
    congr 1
    funext route
    simp [reRole, h]

/-- The returned flag says whether some method is registered at the path. -/
theorem setRouteRole_found (r : Router H) (path : Str) (minRole : Option Role) :
    (r.setRouteRole path minRole).1 = true ↔ ∃ method, (r.tables.exact (method, path)).isSome := by
  simp only [setRouteRole, List.any_eq_true, decide_eq_true_eq, tables, Option.isSome_map,
    AList.lookup_isSome, AList.mem_keys]
  constructor
  · rintro ⟨⟨method, p⟩, hkey, rfl⟩
    exact ⟨method, hkey⟩
  · rintro ⟨method, hkey⟩
    exact ⟨(method, path), hkey, rfl⟩

private theorem assoc_method (l : List (PrefixRoute H)) (method : Verb) (p : Str) :
    assoc PrefixRoute.pathPrefix PrefixRoute.pair (l.filter (fun pr => pr.method = method)) p =
      assoc PrefixRoute.key PrefixRoute.pair l (method, p) := by
  induction l with
  | nil => rfl
  | cons pr l ih =>
    by_cases hm : pr.method = method
    · simp only [List.filter_cons, hm, decide_true, if_true, assoc_cons, ih, PrefixRoute.key,
        Prod.mk.injEq, true_and]
    · simp only [List.filter_cons, hm, decide_false, Bool.false_eq_true, if_false, assoc_cons, ih,
        PrefixRoute.key, Prod.mk.injEq, false_and]

private theorem unique_method (r : Router H) (method : Verb) :
    ((r.prefixRoutes.filter (fun pr => pr.method = method)).map
      PrefixRoute.pathPrefix).Nodup := by
  have hsub : ((r.prefixRoutes.filter (fun pr => pr.method = method)).map
      PrefixRoute.key).Nodup :=
    r.unique.sublist (List.Sublist.map _ List.filter_sublist)
  have hkey : (r.prefixRoutes.filter (fun pr => pr.method = method)).map PrefixRoute.key =
      ((r.prefixRoutes.filter (fun pr => pr.method = method)).map
        PrefixRoute.pathPrefix).map (Prod.mk method) := by
    rw [List.map_map]
    refine List.map_congr_left fun pr hpr => ?_
    simp only [List.mem_filter, decide_eq_true_eq] at hpr
    simp [PrefixRoute.key, hpr.2]
  rw [hkey] at hsub
  exact hsub.of_map _

/-- The choice of a route is the choice in the abstract tables. -/
theorem select_eq (r : Router H) (method : Verb) (path : Str) :
    r.select method path = r.tables.select method path := by
  have hscan := scan_eq_lookup PrefixRoute.pair
    (fun pr : PrefixRoute H => decide (pr.method = method)) (r.unique_method method) path
  have hmap : assoc PrefixRoute.pathPrefix PrefixRoute.pair
      (r.prefixRoutes.filter (fun pr => pr.method = method)) =
      fun p => r.tables.prefixed (method, p) :=
    funext fun p => assoc_method r.prefixRoutes method p
  rw [hmap] at hscan
  unfold select Tables.select
  rw [← hscan]
  cases hr : AList.lookup (method, path) r.routes with
  | some route => simp [tables, hr, Route.pair]
  | none =>
    simp only [tables, hr, Option.map_none, Option.none_or]
    cases scan (fun pr : PrefixRoute H => pr.method = method && pr.pathPrefix.isPrefixOf path)
      (fun pr => pr.pathPrefix.length) r.prefixRoutes <;> rfl

private theorem mem_of_select {r : Router H} {method : Verb} {path : Str} {hr : H × Option Role}
    (h : r.select method path = some hr) :
    r.tables.exact (method, path) = some hr ∨
      ∃ p, p <+: path ∧ r.tables.prefixed (method, p) = some hr := by
  rw [select_eq, Tables.select] at h
  rcases Option.or_eq_some_iff.mp h with hexact | ⟨-, hpre⟩
  · exact Or.inl hexact
  · obtain ⟨k, hk, hv⟩ := lookup_eq_some_iff.mp hpre
    exact Or.inr ⟨k, hk.2.1, hv⟩

/-- Every exact entry is as `E` asks, and every prefix entry as `Q` does. -/
structure Holds (E Q : Verb × Str → H × Option Role → Prop) (r : Router H) : Prop where
  exact : ∀ key hr, r.tables.exact key = some hr → E key hr
  prefixed : ∀ key hr, r.tables.prefixed key = some hr → Q key hr

namespace Holds

variable {E Q : Verb × Str → H × Option Role → Prop} {r : Router H}

theorem empty : Holds E Q (empty : Router H) := by
  refine ⟨fun key hr found => ?_, fun key hr found => ?_⟩
  · cases found
  · cases found

theorem addRoute (h : Holds E Q r) {method : Verb} {path : Str} {handler : H}
    {minRole : Option Role} (new : E (method, path) (handler, minRole)) :
    Holds E Q (r.addRoute method path handler minRole) := by
  refine ⟨fun key hr found => ?_, h.prefixed⟩
  rw [tables_addRoute] at found
  change Function.update r.tables.exact _ _ key = _ at found
  by_cases hkey : key = (method, path)
  · subst hkey
    rw [Function.update_self] at found
    cases found
    exact new
  · rw [Function.update_of_ne hkey] at found
    exact h.exact key hr found

theorem addPrefixRoute (h : Holds E Q r) {method : Verb} {p : Str} {handler : H}
    {minRole : Option Role} (new : Q (method, p) (handler, minRole)) :
    Holds E Q (r.addPrefixRoute method p handler minRole) := by
  refine ⟨h.exact, fun key hr found => ?_⟩
  rw [tables_addPrefixRoute] at found
  change Function.update r.tables.prefixed _ _ key = _ at found
  by_cases hkey : key = (method, p)
  · subst hkey
    rw [Function.update_self] at found
    cases found
    exact new
  · rw [Function.update_of_ne hkey] at found
    exact h.prefixed key hr found

theorem setRouteRole (h : Holds E Q r)
    (anyRole : ∀ key handler role role', E key (handler, role) → E key (handler, role'))
    (path : Str) (minRole : Option Role) : Holds E Q (r.setRouteRole path minRole).2 := by
  refine ⟨fun key hr found => ?_, fun key hr found => ?_⟩
  · rw [tables_setRouteRole] at found
    simp only [Tables.reRole] at found
    split at found
    · obtain ⟨⟨handler, role⟩, was, heq⟩ := Option.map_eq_some_iff.mp found
      cases heq
      exact anyRole key handler role minRole (h.exact key _ was)
    · exact h.exact key hr found
  · rw [tables_setRouteRole] at found
    exact h.prefixed key hr found

theorem select (h : Holds E Q r) {method : Verb} {path : Str} {hr : H × Option Role}
    (found : r.select method path = some hr) :
    E (method, path) hr ∨ ∃ p, p <+: path ∧ Q (method, p) hr := by
  rcases mem_of_select found with exact | ⟨p, hp, prefixed⟩
  · exact Or.inl (h.exact _ _ exact)
  · exact Or.inr ⟨p, hp, h.prefixed _ _ prefixed⟩

end Holds

end Router

end Webengine.Engine.Routing
