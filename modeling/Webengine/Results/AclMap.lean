/- source: backend/src/Acl.hpp
   digest: After any sequence of calls the access list is the finite map of the last rules,
   and authorization is the longest-prefix lookup in it. -/

import Webengine.Engine.AccessList

set_option autoImplicit false
set_option relaxedAutoImplicit false

namespace Webengine.Results.AclMap

open Webengine.Engine.Roles
open Webengine.Engine.AccessList
open Webengine.Library.LongestMatch

/-- The two mutating calls. -/
inductive AclCall
  | set (pathPrefix : Str) (minRole : Role)
  | remove (pathPrefix : Str)

namespace AclCall

def apply (acl : Acl) : AclCall → Acl
  | .set p r => acl.set p r
  | .remove p => acl.remove p

/-- The rule a call is about. -/
def about : AclCall → Str
  | .set p _ => p
  | .remove p => p

/-- The role the call leaves for its rule. -/
def leaves : AclCall → Option Role
  | .set _ r => some r
  | .remove _ => none

end AclCall

/-- The list after the calls, starting from an empty one. -/
def replay (calls : List AclCall) : Acl := calls.foldl AclCall.apply Acl.empty

/-- The role of the last call about a prefix: none if it removed the rule, or if there
was no such call. -/
def lastRule (calls : List AclCall) (p : Str) : Option Role :=
  (calls.filter (fun c => c.about = p)).getLast?.bind AclCall.leaves

private theorem replay_snoc (calls : List AclCall) (c : AclCall) :
    replay (calls ++ [c]) = c.apply (replay calls) := by
  simp [replay]

private theorem map_apply (acl : Acl) (c : AclCall) :
    (c.apply acl).map = Function.update acl.map c.about c.leaves := by
  cases c with
  | set p r => exact Acl.map_set acl p r
  | remove p => exact Acl.map_remove acl p

private theorem lastRule_snoc (calls : List AclCall) (c : AclCall) :
    lastRule (calls ++ [c]) = Function.update (lastRule calls) c.about c.leaves := by
  funext p
  by_cases h : p = c.about
  · subst h
    simp [lastRule]
  · simp [lastRule, Function.update_of_ne h, Ne.symm h]

/-- The vector stands for the map of the last rules. -/
theorem map_replay (calls : List AclCall) : (replay calls).map = lastRule calls := by
  induction calls using List.reverseRecOn with
  | nil => rfl
  | append_singleton calls c ih => rw [replay_snoc, map_apply, ih, lastRule_snoc]

private theorem mem_list_replay (calls : List AclCall) (e : AclEntry) :
    e ∈ (replay calls).list ↔ lastRule calls e.pathPrefix = some e.minRole := by
  rw [Acl.mem_list_iff, map_replay]

private theorem authorize_replay (calls : List AclCall) (role : Role) (path : Str) :
    (replay calls).authorize role path =
      roleSatisfies role ((lookup (lastRule calls) path).getD .admin) := by
  rw [Acl.authorize_eq, map_replay]

private theorem authorize_of_same_rules {calls calls' : List AclCall}
    (same : ∀ p, calls.filter (fun c => c.about = p) = calls'.filter (fun c => c.about = p))
    (role : Role) (path : Str) :
    (replay calls).authorize role path = (replay calls').authorize role path := by
  have hmap : lastRule calls = lastRule calls' := by
    funext p
    rw [lastRule, lastRule, same p]
  rw [authorize_replay, authorize_replay, hmap]

/-- A call that changes an answer is about a beginning of the path, and no longer rule
begins the path. -/
private theorem authorize_changed {calls : List AclCall} {c : AclCall} {role : Role} {path : Str}
    (changed : (replay (calls ++ [c])).authorize role path ≠ (replay calls).authorize role path) :
    c.about <+: path ∧
      ∀ p, (lastRule calls p).isSome → p <+: path → p.length ≤ c.about.length := by
  have other : ∀ p, p ≠ c.about → lastRule calls p = lastRule (calls ++ [c]) p := by
    intro p hp
    rw [lastRule_snoc, Function.update_of_ne hp]
  rw [authorize_replay, authorize_replay] at changed
  constructor
  · by_contra hpre
    have agree : lookup (lastRule calls) path = lookup (lastRule (calls ++ [c])) path := by
      refine lookup_congr fun q hq => other q ?_
      rintro rfl
      exact hpre hq
    exact changed (by rw [agree])
  · intro p hp hpp
    by_contra hlt
    exact changed (by rw [lookup_eq_of_longer other hp hpp (by omega)])

/-- For every sequence of calls the access list is the finite map of the last rules: its
listing, its answers, their independence of the order of calls about different prefixes,
and how far a call reaches. -/
theorem acl_refines_map (calls : List AclCall) :
    ((replay calls).list.map AclEntry.pathPrefix).Nodup ∧
    (∀ p r, ⟨p, r⟩ ∈ (replay calls).list ↔ lastRule calls p = some r) ∧
    (∀ role path p r, Longest (lastRule calls) path p → lastRule calls p = some r →
      (replay calls).authorize role path = roleSatisfies role r) ∧
    (∀ role path, NoKey (lastRule calls) path →
      (replay calls).authorize role path = roleSatisfies role .admin) ∧
    (∀ calls', (∀ p, calls.filter (fun c => c.about = p) =
        calls'.filter (fun c => c.about = p)) →
      ∀ role path, (replay calls).authorize role path = (replay calls').authorize role path) ∧
    (∀ c role path,
      (replay (calls ++ [c])).authorize role path ≠ (replay calls).authorize role path →
      c.about <+: path ∧
        ∀ p, (lastRule calls p).isSome → p <+: path → p.length ≤ c.about.length) := by
  refine ⟨(replay calls).unique, fun p r => mem_list_replay calls ⟨p, r⟩, ?_, ?_, ?_, ?_⟩
  · intro role path p r hlong hr
    rw [authorize_replay, lookup_of_longest hlong, hr, Option.getD_some]
  · intro role path hno
    rw [authorize_replay, lookup_eq_none_iff.mpr hno, Option.getD_none]
  · intro calls' same role path
    exact authorize_of_same_rules same role path
  · intro c role path changed
    exact authorize_changed changed

end Webengine.Results.AclMap
