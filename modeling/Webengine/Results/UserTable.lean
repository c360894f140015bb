/- source: backend/include/webengine/TestAuthProvider.hpp
   digest: The in-memory provider is the table of accounts its calls say it is, in every
   interleaving, and what it stores of a password decodes to what was encoded. -/

import Webengine.Engine.UserCalls

set_option autoImplicit false
set_option relaxedAutoImplicit false

namespace Webengine.Results.UserTable

open Webengine.Engine.Roles
open Webengine.Engine.Messages (UserInfo)
open Webengine.Engine.TestProvider
open Webengine.Engine.UserCalls
open Webengine.Library.Hex (hexText)
open Webengine.Library.Interleavings
open Webengine.Library.Machines
open Webengine.Library.Programs (Prog)

/-- What is known of a present user: the password and the salt of the latest insert, and the
role of that insert or of a later change. -/
structure Account where
  password : Str
  salt : Salt
  role : Role

abbrev Ledger := Str → Option Account

/-- What a call means for the accounts. -/
def Ledger.after (L : Ledger) : UserCall → Ledger
  | .addUser (some salt) username password role =>
    Function.update L username (some ⟨password, salt, role⟩)
  | .removeUser username => Function.update L username none
  | .setUserRole username role =>
    Function.update L username ((L username).map fun a => { a with role := role })
  | _ => L

/-- The accounts after construction. -/
def seedLedger (admin alice viewer : Salt) : Ledger :=
  Ledger.after (Ledger.after (Ledger.after (fun _ => none)
    (.addUser (some admin) "admin".toList "admin123".toList .admin))
    (.addUser (some alice) "alice".toList "user123".toList .user))
    (.addUser (some viewer) "viewer".toList "viewer123".toList .viewer)

variable (F : Kdf)

/-- The accounts after a history: the calls that made a locked section, in that order. -/
def ledger (calls : Nat → UserCall) (L : Ledger) (l : List (Event (table F))) : Ledger :=
  (l.filter fun e => locked e.op).foldl (fun L e => L.after (calls e.tid)) L

/-- The record of an account. -/
def Account.record (a : Account) : UserRecord := ⟨pbkdf2Hash F a.salt a.password, a.role⟩

/-- The table holds the records of the accounts, and no other. -/
def Represents (L : Ledger) (users : UserTable) : Prop :=
  ∀ username, users.lookup username = (L username).map (Account.record F)

/-- The answer of a call on these accounts. -/
def Answers (L : Ledger) : UserCall → UserAnswer → Prop
  | .addUser _ _ _ _, .done success => success = true
  | .removeUser username, .done success => success = (L username).isSome
  | .setUserRole username _, .done success => success = (L username).isSome
  | .authenticate username password, .role found => ∀ r, found = some r ↔
      ∃ a, L username = some a ∧
        F password a.salt.toList iterations = F a.password a.salt.toList iterations ∧ a.role = r
  | .listUsers, .users list => (list.map UserInfo.username).Nodup ∧
      ∀ username r, ⟨username, r⟩ ∈ list ↔ ∃ a, L username = some a ∧ a.role = r
  | _, _ => False

section Accounts

variable {F} {L : Ledger} {users : UserTable}

private theorem represents_insert (h : Represents F L users) (username : Str) (a : Account) :
    Represents F (Function.update L username (some a)) (users.insert username (a.record F)) := by
  intro other
  by_cases same : other = username
  · subst same
    rw [AList.lookup_insert, Function.update_self, Option.map_some]
  · rw [AList.lookup_insert_ne same, Function.update_of_ne same]
    exact h other

private theorem represents_erase (h : Represents F L users) (username : Str) :
    Represents F (Function.update L username none) (users.erase username) := by
  intro other
  by_cases same : other = username
  · subst same
    rw [AList.lookup_erase, Function.update_self, Option.map_none]
  · rw [AList.lookup_erase_ne same, Function.update_of_ne same]
    exact h other

private theorem represents_seeded (admin alice viewer : Salt) :
    Represents F (seedLedger admin alice viewer) (seeded F admin alice viewer) := by
  have empty : Represents F (fun _ => none) ∅ := fun _ => rfl
  exact represents_insert (represents_insert (represents_insert empty _ ⟨_, admin, .admin⟩) _
    ⟨_, alice, .user⟩) _ ⟨_, viewer, .viewer⟩

private theorem represents_atomic (h : Represents F L users) (call : UserCall) :
    Represents F (L.after call) (atomic F users call).2 := by
  cases call with
  | addUser salt username password role =>
    cases salt with
    | none => exact h
    | some salt => exact represents_insert h username ⟨password, salt, role⟩
  | removeUser username => exact represents_erase h username
  | setUserRole username role =>
    have held := h username
    have after : L.after (.setUserRole username role) =
        Function.update L username ((L username).map fun a => { a with role := role }) := rfl
    rw [after, atomic, setUserRole]
    cases account : L username with
    | none =>
      rw [account] at held
      simp only [held, Option.map_none]
      rw [← account, Function.update_eq_self]
      exact h
    | some a =>
      rw [account] at held
      simp only [held, Option.map_some]
      exact represents_insert h username { a with role := role }
  | authenticate username password => exact h
  | listUsers => exact h

private theorem authenticate_iff (h : Represents F L users) (username password : Str) (r : Role) :
    authenticate F users username password = some r ↔ ∃ a, L username = some a ∧
      F password a.salt.toList iterations = F a.password a.salt.toList iterations ∧
      a.role = r := by
  unfold authenticate
  rw [h username]
  cases L username with
  | none => simp
  | some a =>
    have verified := pbkdf2Verify_pbkdf2Hash F a.salt a.password password
    simp only [Option.map_some, Account.record, verified, Option.ite_none_right_eq_some,
      Option.some.injEq, exists_eq_left']

private theorem nodup_listUsers (users : UserTable) :
    ((listUsers users).map UserInfo.username).Nodup := by
  have keys : (listUsers users).map UserInfo.username = users.keys := by
    simp [listUsers, AList.keys, List.keys]
  rw [keys]
  exact users.keys_nodup

private theorem mem_listUsers_iff (h : Represents F L users) (username : Str) (r : Role) :
    ⟨username, r⟩ ∈ listUsers users ↔ ∃ a, L username = some a ∧ a.role = r := by
  have held := h username
  constructor
  · intro mem
    obtain ⟨⟨name, record⟩, entry, same⟩ := List.mem_map.mp mem
    cases same
    have found : users.lookup name = some record := AList.mem_lookup_iff.mpr entry
    rw [found] at held
    obtain ⟨a, account, same⟩ := Option.map_eq_some_iff.mp held.symm
    exact ⟨a, account, congrArg UserRecord.role same⟩
  · rintro ⟨a, account, rfl⟩
    rw [account, Option.map_some] at held
    exact List.mem_map.mpr ⟨⟨username, a.record F⟩, AList.mem_lookup_iff.mp held, rfl⟩

private theorem answers_atomic (h : Represents F L users) {call : UserCall} {answer : UserAnswer}
    (returned : (atomic F users call).1 = .ok answer) : Answers F L call answer := by
  cases call with
  | addUser salt username password role =>
    cases salt with
    | none => cases returned
    | some salt =>
      cases returned
      rfl
  | removeUser username =>
    cases returned
    change (users.lookup username).isSome = (L username).isSome
    rw [h username, Option.isSome_map]
  | setUserRole username role =>
    cases returned
    change (setUserRole users username role).1 = (L username).isSome
    unfold setUserRole
    rw [h username]
    cases L username <;> rfl
  | authenticate username password =>
    cases returned
    exact authenticate_iff h username password
  | listUsers =>
    cases returned
    exact ⟨nodup_listUsers users, mem_listUsers_iff h⟩

end Accounts

/-- A run of calls on a table: any interleaving of their steps. -/
def tableRun (calls : Nat → UserCall) (users : UserTable) (sched : List Nat) :
    Config (table F) Str UserAnswer :=
  (Config.start (fun t => (calls t).code) users).play (sched.map fun t => (t, ()))

section Runs

variable {F} {calls : Nat → UserCall} {users₀ : UserTable} {L₀ : Ledger}

private theorem ledger_snoc (l : List (Event (table F))) (e : Event (table F)) :
    ledger F calls L₀ (l ++ [e]) =
      if locked e.op then (ledger F calls L₀ l).after (calls e.tid)
      else ledger F calls L₀ l := by
  unfold ledger
  rw [List.filter_append]
  cases h : locked e.op <;> simp [h]

/-- In every interleaving the table holds the records of the accounts. -/
private theorem represents_play (calls : Nat → UserCall) (start : Represents F L₀ users₀)
    (sched : List (Nat × Unit)) :
    Represents F
      (ledger F calls L₀ ((Config.start (m := table F) (fun t => (calls t).code) users₀).play
        sched).log)
      ((Config.start (m := table F) (fun t => (calls t).code) users₀).play sched).state := by
  refine Config.play_log_induction (m := table F)
    (J := fun l users => Represents F (ledger F calls L₀ l) users) start ?_ sched
  intro sched l e last before
  rw [ledger_snoc]
  have split : ((Config.start (m := table F) (fun t => (calls t).code) users₀).play sched).log =
      l ++ e :: [] := last
  obtain ⟨sched', k, hlog, -, hpool⟩ := Config.log_split split
  have follows := Config.play_follows (m := table F) (fun t => (calls t).code) users₀ sched' e.tid
  rw [hpool] at follows
  cases lk : locked e.op with
  | false =>
    rw [if_neg Bool.false_ne_true, Event.post, state_of_not_locked F lk]
    exact before
  | true =>
    rw [if_pos rfl, Event.post, state_of_lockedStep F (lockedStep_of_follows follows lk)]
    exact represents_atomic before (calls e.tid)

end Runs

/-- The provider is the table of accounts its calls say it is. From construction, in every
interleaving, the table holds exactly the records of the accounts that the locked sections so
far have made; a call that has returned took one locked section, and its answer is that of the
accounts there; and a call that was scheduled twice has returned, unless its `RAND_bytes` failed,
which alone makes a call throw. -/
theorem user_table_is_ledger (F : Kdf) (admin alice viewer : Salt) (calls : Nat → UserCall)
    (sched : List Nat) :
    Represents F (ledger F calls (seedLedger admin alice viewer)
        (tableRun F calls (seeded F admin alice viewer) sched).log)
      (tableRun F calls (seeded F admin alice viewer) sched).state ∧
    (∀ t answer, (tableRun F calls (seeded F admin alice viewer) sched).pool t = .ret answer →
      ∃ pre e post,
        (tableRun F calls (seeded F admin alice viewer) sched).log = pre ++ e :: post ∧
        ((tableRun F calls (seeded F admin alice viewer) sched).own t).filter
          (fun e => locked e.op) = [e] ∧
        Answers F (ledger F calls (seedLedger admin alice viewer) pre) (calls t) answer) ∧
    (∀ t, (∀ username password role, calls t ≠ .addUser none username password role) →
      2 ≤ sched.count t →
        ∃ answer, (tableRun F calls (seeded F admin alice viewer) sched).pool t = .ret answer) ∧
    ∀ t msg, (tableRun F calls (seeded F admin alice viewer) sched).pool t = .raise msg →
      ∃ username password role, calls t = .addUser none username password role := by
  have follows : ∀ t, Follows (calls t).code
      ((tableRun F calls (seeded F admin alice viewer) sched).own t)
      ((tableRun F calls (seeded F admin alice viewer) sched).pool t) := fun t =>
    Config.play_follows (m := table F) (fun t => (calls t).code) (seeded F admin alice viewer)
      (sched.map fun t => (t, ())) t
  have thrown : ∀ t msg, (tableRun F calls (seeded F admin alice viewer) sched).pool t =
      .raise msg → ∃ username password role, calls t = .addUser none username password role := by
    intro t msg raised
    exact addUser_of_follows_raise (raised ▸ follows t)
  refine ⟨represents_play calls (represents_seeded admin alice viewer) _, ?_, ?_, thrown⟩
  · intro t answer returned
    obtain ⟨e, once, -, result⟩ := atomic_of_follows (returned ▸ follows t)
    have mem : e ∈ (tableRun F calls (seeded F admin alice viewer) sched).log := by
      have own : e ∈ ((tableRun F calls (seeded F admin alice viewer) sched).own t).filter
          (fun e => locked e.op) := by
        rw [once]
        exact List.mem_singleton_self e
      exact List.mem_of_mem_filter (List.mem_of_mem_filter own)
    obtain ⟨pre, post, split⟩ := List.append_of_mem mem
    obtain ⟨sched', k, hlog, hstate, -⟩ := Config.log_split split
    have held := represents_play calls (represents_seeded (F := F) admin alice viewer) sched'
    rw [hlog, hstate] at held
    exact ⟨pre, e, post, split, once, answers_atomic held result⟩
  · intro t drawn twice
    cases ended : (tableRun F calls (seeded F admin alice viewer) sched).pool t with
    | ret answer => exact ⟨answer, rfl⟩
    | raise msg =>
      obtain ⟨username, password, role, call⟩ := thrown t msg ended
      exact absurd call (drawn username password role)
    | op o k =>
      have short := length_of_follows_op (ended ▸ follows t)
      have taken := Config.own_length_of_op (m := table F) ended
      rw [List.map_map, Function.comp_def, List.map_id'] at taken
      change ((tableRun F calls (seeded F admin alice viewer) sched).own t).length =
        sched.count t at taken
      omega

/-- A user is added and logs in, in turns. -/
def addThenLogin : Nat → UserCall
  | 0 => .addUser (some (Vector.replicate 16 7)) "bob".toList "pw".toList .user
  | _ => .authenticate "bob".toList "pw".toList

/-- A key derivation that looks at the length of the password. -/
def lengthKdf : Kdf := fun password _ _ => Vector.replicate 32 (UInt8.ofNat password.length)

def bobRun : Config (table lengthKdf) Str UserAnswer :=
  tableRun lengthKdf addThenLogin (seeded lengthKdf (Vector.replicate 16 0)
    (Vector.replicate 16 0) (Vector.replicate 16 0)) [0, 2, 0, 1, 2, 1]

/-- The theorem at that run: the login is accepted, as the accounts say at its lookup. -/
theorem user_table_is_ledger_bob : bobRun.pool 1 = .ret (.role (some .user)) ∧
    ∃ pre e post, bobRun.log = pre ++ e :: post ∧ Answers lengthKdf
      (ledger lengthKdf addThenLogin (seedLedger (Vector.replicate 16 0)
        (Vector.replicate 16 0) (Vector.replicate 16 0)) pre)
      (addThenLogin 1) (.role (some .user)) := by
  have returned : bobRun.pool 1 = .ret (.role (some .user)) :=
    Prog.eq_ret_of_returned (by decide +kernel)
  obtain ⟨pre, e, post, split, -, answers⟩ := (user_table_is_ledger lengthKdf _ _ _ addThenLogin
    [0, 2, 0, 1, 2, 1]).2.1 1 _ returned
  exact ⟨returned, pre, e, post, split, answers⟩

/-- For every key derivation and every salt: a password is accepted against the stored hash of
another exactly if both derive the same key; the hash is split into the count, the salt and the
key it was made of; and every byte string is read back from its digits. -/
theorem stored_hashes_decode (F : Kdf) (salt : Salt) :
    (∀ p q : Str, pbkdf2Verify F q (pbkdf2Hash F salt p) = true ↔
      F q salt.toList 200000 = F p salt.toList 200000) ∧
    (∀ p : Str, Stores (pbkdf2Hash F salt p) 200000 salt.toList
      (F p salt.toList 200000).toList) ∧
    ∀ bytes : List UInt8, fromHex (hexText bytes) = bytes := by
  refine ⟨fun p q => ?_, fun p => ?_, fromHex_hexText⟩
  · exact pbkdf2Verify_pbkdf2Hash F salt p q
  · exact stores_pbkdf2Hash F salt p

end Webengine.Results.UserTable
