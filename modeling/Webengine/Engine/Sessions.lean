/- source: backend/src/TokenStore.hpp
   digest: The session-token store and the hex text of its tokens. -/

import Webengine.Engine.Roles
import Webengine.Library.Hex
import Mathlib.Data.List.AList

set_option autoImplicit false
set_option relaxedAutoImplicit false

namespace Webengine.Engine.Sessions

open Webengine.Engine.Roles (Str Role)
open Webengine.Library.Hex (hexText hexText_injective)

/-- `steady_clock::time_point`, in nanoseconds. -/
abbrev TimePoint := Int

/-- A duration, in nanoseconds. -/
abbrev Duration := Int

def seconds (n : Int) : Duration := n * 1000000000

def hours (n : Int) : Duration := seconds (n * 3600)

/-- What one successful call of `RAND_bytes` fills in. -/
abbrev Buffer := Vector UInt8 32

/-- The token text of a buffer: `std::hex << std::setw(2) << std::setfill('0')` of each
byte. -/
def tokenOf (buf : Buffer) : Str := hexText buf.toList

structure TokenEntry where
  username : Str
  role : Role
  expiresAt : TimePoint
  deriving DecidableEq

structure TokenStore where
  store : AList (fun _ : Str => TokenEntry)

namespace TokenStore

def empty : TokenStore := ⟨∅⟩

/-- The locked part of `issue`: `store_[token] = {username, role, now + ttl}`. -/
def insert (tokens : TokenStore) (now : TimePoint) (token username : Str) (role : Role)
    (ttl : Duration) : TokenStore :=
  ⟨tokens.store.insert token ⟨username, role, now + ttl⟩⟩

def validate (tokens : TokenStore) (now : TimePoint) (token : Str) : Option TokenEntry :=
  match tokens.store.lookup token with
  | none => none
  | some entry => if entry.expiresAt < now then none else some entry

def revoke (tokens : TokenStore) (token : Str) : TokenStore := ⟨tokens.store.erase token⟩

theorem validate_eq_some_iff {tokens : TokenStore} {now : TimePoint} {token : Str}
    {entry : TokenEntry} : tokens.validate now token = some entry ↔
      tokens.store.lookup token = some entry ∧ now ≤ entry.expiresAt := by
  unfold validate
  cases tokens.store.lookup token with
  | none => simp
  | some e =>
    simp only [Option.some.injEq]
    by_cases h : e.expiresAt < now
    · simp only [h, if_true, reduceCtorEq, false_iff, not_and, not_le]
      rintro rfl
      exact h
    · simp only [h, if_false, Option.some.injEq]
      constructor
      · rintro rfl
        exact ⟨rfl, not_lt.mp h⟩
      · exact And.left

end TokenStore

theorem tokenOf_injective : Function.Injective tokenOf := by
  intro a b h
  exact Vector.toList_inj.mp (hexText_injective h)

end Webengine.Engine.Sessions
