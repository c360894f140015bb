/- source: backend/src/Acl.hpp
   digest: The path-prefix access list, and the finite map it stands for. -/

import Webengine.Engine.Roles
import Webengine.Library.LongestMatch

set_option autoImplicit false
set_option relaxedAutoImplicit false

namespace Webengine.Engine.AccessList

open Webengine.Engine.Roles
open Webengine.Library.KeyedLists
open Webengine.Library.LongestMatch

structure AclEntry where
  pathPrefix : Str
  minRole : Role
  deriving DecidableEq

/-- The vector of rules; no prefix has two of them. -/
structure Acl where
  entries : List AclEntry
  unique : (entries.map AclEntry.pathPrefix).Nodup

namespace Acl

def empty : Acl := ⟨[], List.nodup_nil⟩

/-- The role a path requires: that of the longest matching rule, else Admin. -/
def required (acl : Acl) (path : Str) : Role :=
  match scan (fun e : AclEntry => e.pathPrefix.isPrefixOf path)
      (fun e => e.pathPrefix.length) acl.entries with
  | some best => best.minRole
  | none => .admin

/-- True if `role` is privileged enough for `path` under the matching rule. -/
def authorize (acl : Acl) (role : Role) (path : Str) : Bool :=
  roleSatisfies role (acl.required path)

/-- Upsert a rule. -/
def set (acl : Acl) (p : Str) (minRole : Role) : Acl where
  entries := put AclEntry.pathPrefix p (fun e => { e with minRole }) ⟨p, minRole⟩ acl.entries
  unique := by
    apply nodup_put
    · rfl
    · exact fun _ h => h
    · exact acl.unique

def remove (acl : Acl) (p : Str) : Acl where
  entries := acl.entries.filter (fun e => e.pathPrefix ≠ p)
  unique := nodup_remove p acl.unique

def list (acl : Acl) : List AclEntry := acl.entries

/-- The finite map from prefixes to roles the vector stands for. -/
def map (acl : Acl) : Str → Option Role := assoc AclEntry.pathPrefix AclEntry.minRole acl.entries

theorem ext {a b : Acl} (h : a.entries = b.entries) : a = b := by
  cases a
  cases b
  simp_all

@[simp] theorem map_empty : empty.map = fun _ => none := rfl

@[simp] theorem map_set (acl : Acl) (p : Str) (r : Role) :
    (acl.set p r).map = Function.update acl.map p (some r) := by
  apply assoc_put
  · rfl
  · rfl
  · exact fun _ h => h
  · exact fun _ => rfl

@[simp] theorem map_remove (acl : Acl) (p : Str) :
    (acl.remove p).map = Function.update acl.map p none :=
  assoc_remove p acl.entries

theorem mem_list_iff (acl : Acl) (e : AclEntry) :
    e ∈ acl.list ↔ acl.map e.pathPrefix = some e.minRole := by
  unfold map
  rw [assoc_eq_some_iff acl.unique]
  constructor
  · intro he
    exact ⟨e, he, rfl, rfl⟩
  · rintro ⟨a, ha, hp, hr⟩
    obtain rfl : a = e := by
      cases a
      cases e
      simp_all
    exact ha

private theorem required_eq (acl : Acl) (path : Str) :
    acl.required path = (lookup acl.map path).getD .admin := by
  rw [map, ← scan_all_eq_lookup acl.unique]
  unfold required
  split
  · rename_i h
    rw [h]
    rfl
  · rename_i h
    rw [h]
    rfl

theorem authorize_eq (acl : Acl) (role : Role) (path : Str) :
    acl.authorize role path = roleSatisfies role ((lookup acl.map path).getD .admin) := by
  rw [authorize, required_eq]

theorem required_of_longest {acl : Acl} {path p : Str} {r : Role}
    (h : Longest acl.map path p) (hr : acl.map p = some r) : acl.required path = r := by
  rw [required_eq, lookup_of_longest h, hr, Option.getD_some]

theorem required_of_noKey {acl : Acl} {path : Str} (h : NoKey acl.map path) :
    acl.required path = .admin := by
  rw [required_eq, lookup_eq_none_iff.mpr h, Option.getD_none]

theorem required_self {acl : Acl} {path : Str} {r : Role} (h : acl.map path = some r) :
    acl.required path = r :=
  required_of_longest ⟨by rw [h]; rfl, List.prefix_refl _, fun _ _ hq => hq.length_le⟩ h

/-- Guests everywhere but at one path, and Admins there. -/
def guarding (p : Str) : Acl := (empty.set [] .guest).set p .admin

private theorem required_guarding {p path : Str} (h : ¬ p <+: path) :
    (guarding p).required path = .guest := by
  have hp : p ≠ [] := by
    rintro rfl
    exact h List.nil_prefix
  have hmap : (guarding p).map [] = some .guest := by
    simp [guarding, Function.update_of_ne (Ne.symm hp)]
  refine required_of_longest ⟨by rw [hmap]; rfl, List.nil_prefix, fun q hq hqp => ?_⟩ hmap
  by_contra hlen
  have hq0 : q ≠ [] := by
    rintro rfl
    simp at hlen
  have hqne : q ≠ p := by
    rintro rfl
    exact h hqp
  simp [guarding, Function.update_of_ne hqne, Function.update_of_ne hq0] at hq

private theorem required_guarding_self (p : Str) : (guarding p).required p = .admin :=
  required_self (by simp [guarding])

/-- Two different paths can be given requirements as far apart as the roles go. -/
theorem exists_separating {p q : Str} (h : p ≠ q) :
    ∃ acl : Acl, acl.required p = .guest ∧ acl.required q = .admin := by
  by_cases hqp : q <+: p
  · -- then `p` does not begin `q`, and a rule for `p` alone leaves `q` to the default
    refine ⟨empty.set p .guest, required_self (by simp), required_of_noKey fun r hr => ?_⟩
    have hne : r ≠ p := by
      rintro rfl
      exact h (hr.eq_of_length (le_antisymm hr.length_le hqp.length_le))
    simp [Function.update_of_ne hne]
  · exact ⟨guarding q, required_guarding hqp, required_guarding_self q⟩

end Acl

end Webengine.Engine.AccessList
