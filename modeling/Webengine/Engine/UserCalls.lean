/- source: backend/include/webengine/TestAuthProvider.hpp
   digest: The calls of the in-memory provider step by step: every locked section is one step,
   and so is the slow work on passwords outside the lock. -/

import Webengine.Engine.TestProvider
import Webengine.Library.Interleavings

set_option autoImplicit false
set_option relaxedAutoImplicit false

namespace Webengine.Engine.UserCalls

open Webengine.Engine.Roles
open Webengine.Engine.Messages (UserInfo)
open Webengine.Engine.TestProvider
open Webengine.Library.Interleavings
open Webengine.Library.Machines
open Webengine.Library.Programs (Prog)

/-- The steps: hashing and verification outside the lock, and the locked sections. `hash` is
given what `RAND_bytes` left, if it succeeded. -/
inductive TableOp
  | hash (salt : Option Salt) (password : Str)
  | verify (password stored : Str)
  | find (username : Str)
  | upsert (username : Str) (record : UserRecord)
  | erase (username : Str)
  | setRole (username : Str) (role : Role)
  | list

@[reducible] def TableAns : TableOp → Type
  | .hash _ _ => Option Str
  | .verify _ _ => Bool
  | .find _ => Option UserRecord
  | .upsert _ _ => Unit
  | .erase _ => Bool
  | .setRole _ _ => Bool
  | .list => List UserInfo

def tableStep (F : Kdf) (_ : Unit) (users : UserTable) : (o : TableOp) → TableAns o × UserTable
  | .hash salt password => (salt.map fun salt => pbkdf2Hash F salt password, users)
  | .verify password stored => (pbkdf2Verify F password stored, users)
  | .find username => (users.lookup username, users)
  | .upsert username record => ((), users.insert username record)
  | .erase username => removeUser users username
  | .setRole username role => setUserRole users username role
  | .list => (listUsers users, users)

/-- The user table as a machine for these steps. -/
abbrev table (F : Kdf) : Machine TableAns where
  State := UserTable
  Env := Unit
  step := tableStep F

abbrev TableCode (α : Type) := Prog Str TableAns α

/-- One step. -/
abbrev step (o : TableOp) : TableCode (TableAns o) := Prog.perform o

/-- The public calls; an add comes with what its `RAND_bytes` gives. -/
inductive UserCall
  | addUser (salt : Option Salt) (username password : Str) (role : Role)
  | removeUser (username : Str)
  | setUserRole (username : Str) (role : Role)
  | authenticate (username password : Str)
  | listUsers

inductive UserAnswer
  | done (success : Bool)
  | role (found : Option Role)
  | users (list : List UserInfo)
  deriving DecidableEq

/-- `seed_user`: the hash is computed outside the lock. -/
def seedUserCode (salt : Option Salt) (username password : Str) (role : Role) :
    TableCode Unit := do
  match ← step (.hash salt password) with
  | none => .raise "TestAuthProvider: RAND_bytes failed".toList
  | some hash => step (.upsert username ⟨hash, role⟩)

/-- `authenticate`: the record is copied under the lock and verified outside it. -/
def authenticateCode (username password : Str) : TableCode (Option Role) := do
  match ← step (.find username) with
  | none => pure none
  | some record =>
    if ← step (.verify password record.passwordHash) then
      pure (some record.role)
    else pure none

def UserCall.code : UserCall → TableCode UserAnswer
  | .addUser salt username password role => do
    seedUserCode salt username password role
    pure (.done true)
  | .removeUser username => do pure (.done (← step (.erase username)))
  | .setUserRole username role => do
    pure (.done (← step (.setRole username role)))
  | .authenticate username password => do pure (.role (← authenticateCode username password))
  | .listUsers => do pure (.users (← step .list))

/-- The steps under the lock. -/
def locked : TableOp → Bool
  | .hash _ _ => false
  | .verify _ _ => false
  | .find _ => true
  | .upsert _ _ => true
  | .erase _ => true
  | .setRole _ _ => true
  | .list => true

variable (F : Kdf)

/-- The locked section of a call; an add without a salt does not come to it. -/
def UserCall.lockedStep : UserCall → Option TableOp
  | .addUser salt username password role =>
    salt.map fun salt => .upsert username ⟨pbkdf2Hash F salt password, role⟩
  | .removeUser username => some (.erase username)
  | .setUserRole username role => some (.setRole username role)
  | .authenticate username _ => some (.find username)
  | .listUsers => some .list

/-- The call made at once on a table: its answer, or the exception, and the table it leaves. -/
def atomic (users : UserTable) : UserCall → Except Str UserAnswer × UserTable
  | .addUser salt username password role =>
    let r := addUser F salt users username password role
    (r.1.map .done, r.2)
  | .removeUser username =>
    let r := removeUser users username
    (.ok (.done r.1), r.2)
  | .setUserRole username role =>
    let r := setUserRole users username role
    (.ok (.done r.1), r.2)
  | .authenticate username password =>
    (.ok (.role (authenticate F users username password)), users)
  | .listUsers => (.ok (.users (listUsers users)), users)

private theorem code_addUser (salt : Option Salt) (username password : Str) (role : Role) :
    (UserCall.addUser salt username password role).code =
      .op (.hash salt password) fun hashed => match hashed with
        | none => .raise "TestAuthProvider: RAND_bytes failed".toList
        | some hash => .op (.upsert username ⟨hash, role⟩) fun _ => .ret (.done true) := by
  refine congrArg (Prog.op _) (funext fun hashed => ?_)
  cases hashed <;> rfl

private theorem code_authenticate (username password : Str) :
    (UserCall.authenticate username password).code =
      .op (.find username) fun found => match found with
        | none => .ret (.role none)
        | some record => .op (.verify password record.passwordHash) fun verified =>
          .ret (.role (if verified then some record.role else none)) := by
  refine congrArg (Prog.op _) (funext fun found => ?_)
  cases found with
  | none => rfl
  | some record =>
    refine congrArg (Prog.op _) (funext fun verified => ?_)
    cases verified <;> rfl

/-- Run alone a call does what the provider does in one step. -/
theorem run_code (users : UserTable) (env : Nat → Unit) (call : UserCall) :
    (run (table F) call.code users env).result = (atomic F users call).1 ∧
      (run (table F) call.code users env).state = (atomic F users call).2 := by
  cases call with
  | addUser salt username password role => cases salt <;> exact ⟨rfl, rfl⟩
  | removeUser username => exact ⟨rfl, rfl⟩
  | setUserRole username role => exact ⟨rfl, rfl⟩
  | authenticate username password =>
    rw [code_authenticate, run_op, atomic, authenticate]
    simp only [tableStep]
    cases users.lookup username <;> exact ⟨rfl, rfl⟩
  | listUsers => exact ⟨rfl, rfl⟩

theorem state_of_not_locked {o : TableOp} (h : locked o = false) (users : UserTable) :
    (tableStep F () users o).2 = users := by
  cases o with
  | hash salt password => rfl
  | verify password stored => rfl
  | _ => cases h

theorem state_of_lockedStep {call : UserCall} {o : TableOp} (h : call.lockedStep F = some o)
    (users : UserTable) : (tableStep F () users o).2 = (atomic F users call).2 := by
  cases call with
  | addUser salt username password role =>
    cases salt with
    | none => cases h
    | some salt =>
      cases h
      rfl
  | _ =>
    cases h
    rfl

section Follows

variable {F} {call : UserCall} {l : List (Event (table F))}

theorem lockedStep_of_follows {o : TableOp} {k : TableAns o → TableCode UserAnswer}
    (follows : Follows call.code l (.op o k)) (h : locked o = true) :
    call.lockedStep F = some o := by
  cases call with
  | addUser salt username password role =>
    rw [code_addUser] at follows
    obtain ⟨t, s, env, l', rfl, rest⟩ := follows.of_op_ne (by
      rintro rfl
      cases h)
    cases salt with
    | none => exact absurd rest Follows.not_raise_op
    | some salt =>
      rcases rest.of_op with ⟨rfl, same⟩ | ⟨t, s, env, l', rfl, last⟩
      · injection same with same
        rw [same]
        rfl
      · exact absurd last Follows.not_ret_op
  | authenticate username password =>
    rw [code_authenticate] at follows
    rcases follows.of_op with ⟨rfl, same⟩ | ⟨t, s, env, l', rfl, rest⟩
    · injection same with same
      rw [same]
      rfl
    · simp only [tableStep] at rest
      cases found : s.lookup username with
      | none =>
        rw [found] at rest
        exact absurd rest Follows.not_ret_op
      | some record =>
        rw [found] at rest
        rcases rest.of_op with ⟨rfl, same⟩ | ⟨t, s, env, l', rfl, last⟩
        · injection same with same
          rw [same] at h
          cases h
        · exact absurd last Follows.not_ret_op
  | _ =>
    rcases follows.of_op with ⟨rfl, same⟩ | ⟨t, s, env, l', rfl, rest⟩
    · injection same with same
      rw [same]
      rfl
    · exact absurd rest Follows.not_ret_op

/-- A call that has returned took its locked section once, and returned what the call would
have returned if it had been made at once there. -/
theorem atomic_of_follows {answer : UserAnswer} (follows : Follows call.code l (.ret answer)) :
    ∃ e, l.filter (fun e => locked e.op) = [e] ∧ call.lockedStep F = some e.op ∧
      (atomic F e.pre call).1 = .ok answer := by
  cases call with
  | addUser salt username password role =>
    rw [code_addUser] at follows
    obtain ⟨t, s, env, l', rfl, rest⟩ := follows.op_ret
    cases salt with
    | none => cases rest.of_raise.2
    | some salt =>
      obtain ⟨t, s', env, l', rfl, last⟩ := rest.op_ret
      obtain ⟨rfl, same⟩ := last.of_ret
      cases same
      exact ⟨_, rfl, rfl, rfl⟩
  | authenticate username password =>
    rw [code_authenticate] at follows
    obtain ⟨t, s, env, l', rfl, rest⟩ := follows.op_ret
    refine ⟨⟨t, s, env, .find username⟩, ?_⟩
    simp only [tableStep] at rest
    cases found : s.lookup username with
    | none =>
      rw [found] at rest
      obtain ⟨rfl, same⟩ := rest.of_ret
      cases same
      exact ⟨rfl, rfl, by simp only [atomic, authenticate, found]⟩
    | some record =>
      rw [found] at rest
      obtain ⟨t', s', env', l', rfl, last⟩ := rest.op_ret
      obtain ⟨rfl, same⟩ := last.of_ret
      cases same
      refine ⟨rfl, rfl, ?_⟩
      simp only [atomic, authenticate, found]
      rfl
  | _ =>
    obtain ⟨t, s, env, l', rfl, rest⟩ := follows.op_ret
    obtain ⟨rfl, same⟩ := rest.of_ret
    cases same
    exact ⟨_, rfl, rfl, rfl⟩

theorem length_of_follows_op {o : TableOp} {k : TableAns o → TableCode UserAnswer}
    (follows : Follows call.code l (.op o k)) : l.length ≤ 1 := by
  cases call with
  | addUser salt username password role =>
    rw [code_addUser] at follows
    rcases follows.of_op with ⟨rfl, -⟩ | ⟨t, s, env, l', rfl, rest⟩
    · exact Nat.zero_le 1
    cases salt with
    | none => exact absurd rest Follows.not_raise_op
    | some salt =>
      rcases rest.of_op with ⟨rfl, -⟩ | ⟨t, s, env, l', rfl, last⟩
      · exact le_refl 1
      · exact absurd last Follows.not_ret_op
  | authenticate username password =>
    rw [code_authenticate] at follows
    rcases follows.of_op with ⟨rfl, -⟩ | ⟨t, s, env, l', rfl, rest⟩
    · exact Nat.zero_le 1
    simp only [tableStep] at rest
    cases found : s.lookup username with
    | none =>
      rw [found] at rest
      exact absurd rest Follows.not_ret_op
    | some record =>
      rw [found] at rest
      rcases rest.of_op with ⟨rfl, -⟩ | ⟨t, s, env, l', rfl, last⟩
      · exact le_refl 1
      · exact absurd last Follows.not_ret_op
  | _ =>
    rcases follows.of_op with ⟨rfl, -⟩ | ⟨t, s, env, l', rfl, rest⟩
    · exact Nat.zero_le 1
    · exact absurd rest Follows.not_ret_op

theorem addUser_of_follows_raise {msg : Str} (follows : Follows call.code l (.raise msg)) :
    ∃ username password role, call = .addUser none username password role := by
  cases call with
  | addUser salt username password role =>
    rw [code_addUser] at follows
    cases salt with
    | none => exact ⟨username, password, role, rfl⟩
    | some salt =>
      rcases follows.of_op with ⟨-, same⟩ | ⟨t, s, env, l', rfl, rest⟩
      · cases same
      rcases rest.of_op with ⟨-, same⟩ | ⟨t, s, env, l', rfl, last⟩
      · cases same
      · cases last.of_ret.2
  | authenticate username password =>
    rw [code_authenticate] at follows
    rcases follows.of_op with ⟨-, same⟩ | ⟨t, s, env, l', rfl, rest⟩
    · cases same
    simp only [tableStep] at rest
    cases found : s.lookup username with
    | none =>
      rw [found] at rest
      cases rest.of_ret.2
    | some record =>
      rw [found] at rest
      rcases rest.of_op with ⟨-, same⟩ | ⟨t, s, env, l', rfl, last⟩
      · cases same
      · cases last.of_ret.2
  | _ =>
    rcases follows.of_op with ⟨-, same⟩ | ⟨t, s, env, l', rfl, rest⟩
    · cases same
    · cases rest.of_ret.2

end Follows

end Webengine.Engine.UserCalls
