/- source: backend/include/webengine/Role.hpp
   digest: The access levels, their order and their names. -/

import Mathlib.Order.Lattice
import Mathlib.Order.Defs.LinearOrder

set_option autoImplicit false
set_option relaxedAutoImplicit false

namespace Webengine.Engine.Roles

/-- `std::string`. -/
abbrev Str := List Char

inductive Role
  | guest | viewer | user | admin
  deriving DecidableEq, Repr

/-- The numeric values are meaningful in the source. -/
def Role.value : Role → Nat
  | .guest => 0
  | .viewer => 1
  | .user => 2
  | .admin => 3

private theorem value_injective : Function.Injective Role.value := by
  intro a b h
  cases a <;> cases b <;> simp_all [Role.value]

instance : LinearOrder Role := LinearOrder.lift' Role.value value_injective

def roleName : Role → Str
  | .admin => "admin".toList
  | .user => "user".toList
  | .viewer => "viewer".toList
  | .guest => "guest".toList

def roleFromString (s : Str) : Option Role :=
  if s = "admin".toList then some .admin
  else if s = "user".toList then some .user
  else if s = "viewer".toList then some .viewer
  else if s = "guest".toList then some .guest
  else none

/-- True when `held` is privileged enough to satisfy a `need` requirement. -/
def roleSatisfies (held need : Role) : Bool := need.value ≤ held.value

theorem roleSatisfies_iff {held need : Role} : roleSatisfies held need ↔ need ≤ held := by
  simp only [roleSatisfies, decide_eq_true_eq]
  exact Iff.rfl

@[simp] theorem roleSatisfies_guest (held : Role) : roleSatisfies held .guest = true := by
  cases held <;> rfl

theorem roleSatisfies_right_injective {need need' : Role}
    (h : ∀ held, roleSatisfies held need = roleSatisfies held need') : need = need' := by
  have le : need' ≤ need := roleSatisfies_iff.mp (by
    rw [← h need]; exact roleSatisfies_iff.mpr le_rfl)
  have ge : need ≤ need' := roleSatisfies_iff.mp (by
    rw [h need']; exact roleSatisfies_iff.mpr le_rfl)
  exact le_antisymm ge le

theorem roleFromString_roleName (r : Role) : roleFromString (roleName r) = some r := by
  cases r <;> decide

theorem roleFromString_eq_some_iff {s : Str} {r : Role} :
    roleFromString s = some r ↔ s = roleName r := by
  constructor
  · intro read
    unfold roleFromString at read
    split_ifs at read with admin user viewer guest <;> cases read <;> assumption
  · rintro rfl
    exact roleFromString_roleName r

end Webengine.Engine.Roles
