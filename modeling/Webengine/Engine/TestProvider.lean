/- source: backend/include/webengine/TestAuthProvider.hpp
   digest: The in-memory provider: salted password hashes as texts, and the user table. -/

import Webengine.Engine.Providers
import Webengine.Library.Decimals
import Webengine.Library.Hex
import Webengine.Library.Texts
import Mathlib.Data.List.AList

set_option autoImplicit false
set_option relaxedAutoImplicit false

namespace Webengine.Engine.TestProvider

open Webengine.Engine.Roles
open Webengine.Engine.Messages (UserInfo)
open Webengine.Engine.Providers (AuthProvider)
open Webengine.Library.Decimals (decimal isSpace scanInt scanInt_eq_some_iff StartsWith)
open Webengine.Library.Hex
open Webengine.Library.Texts (find find_append_mark)

abbrev Salt := Vector UInt8 16

abbrev Key := Vector UInt8 32

/-- `PKCS5_PBKDF2_HMAC` with SHA-256: a key from password, salt and iteration count. -/
abbrev Kdf := Str → List UInt8 → Int → Key

def iterations : Nat := 200000

/-- `int` has 32 bits. -/
def intMin : Int := -2147483648

def intMax : Int := 2147483647

/-- `std::stoi`; `none` where it throws. -/
def stoi (s : Str) : Option Int :=
  match scanInt s with
  | none => none
  | some n => if intMin ≤ n ∧ n ≤ intMax then some n else none

theorem stoi_eq_some_iff {s : Str} {n : Int} :
    stoi s = some n ↔ StartsWith s n ∧ intMin ≤ n ∧ n ≤ intMax := by
  rw [← scanInt_eq_some_iff, stoi]
  cases scanInt s with
  | none => simp
  | some k =>
    constructor
    · intro read
      dsimp only at read
      split_ifs at read with inside
      cases read
      exact ⟨rfl, inside⟩
    · rintro ⟨same, inside⟩
      cases same
      exact if_pos inside

/-- `sscanf(s, "%02x", &b)` for a `b` that was zero, and the cast to a byte. -/
def scanHexByte (s : Str) : UInt8 :=
  let field := (s.dropWhile isSpace).take 2
  let digits (t : Str) : Nat := hexNumber (t.takeWhile fun c => (hexValue c).isSome)
  match field with
  | '-' :: t => UInt8.ofInt (-(digits t : Int))
  | '+' :: t => UInt8.ofNat (digits t)
  | t => UInt8.ofNat (digits t)

/-- One byte for every two characters; an odd one at the end is dropped. -/
def fromHex : Str → List UInt8
  | a :: b :: rest => scanHexByte (a :: b :: rest) :: fromHex rest
  | _ => []

variable (F : Kdf)

/-- "iterations:salt_hex:key_hex". -/
def pbkdf2Hash (salt : Salt) (password : Str) : Str :=
  decimal iterations ++ ':' :: hexText salt.toList ++
    ':' :: hexText (F password salt.toList iterations).toList

/-- Split at the first two colons, derive the key again and compare. -/
def pbkdf2Verify (password stored : Str) : Bool :=
  match find [':'] stored with
  | none => false
  | some p1 =>
    match find [':'] (stored.drop (p1 + 1)) with
    | none => false
    | some n =>
      match stoi (stored.take p1) with
      | none => false
      | some count =>
        let salt := fromHex ((stored.drop (p1 + 1)).take n)
        let expected := fromHex (stored.drop (p1 + 1 + (n + 1)))
        if expected.length ≠ 32 then false
        else (F password salt count).toList = expected

/-- The texts before, between and after the first two colons. -/
def hashFields (stored : Str) : Option (Str × Str × Str) :=
  match find [':'] stored with
  | none => none
  | some p1 =>
    match find [':'] (stored.drop (p1 + 1)) with
    | none => none
    | some n =>
      some (stored.take p1, (stored.drop (p1 + 1)).take n, stored.drop (p1 + 1 + (n + 1)))

private theorem hashFields_append {count salt : Str} (plain : ':' ∉ count) (inner : ':' ∉ salt)
    (key : Str) :
    hashFields (count ++ ':' :: (salt ++ ':' :: key)) = some (count, salt, key) := by
  have rest : (count ++ ':' :: (salt ++ ':' :: key)).drop (count.length + 1) =
      salt ++ ':' :: key := by
    simp
  have tail : (count ++ ':' :: (salt ++ ':' :: key)).drop
      (count.length + 1 + (salt.length + 1)) = key := by
    rw [← List.drop_drop, rest]
    simp
  unfold hashFields
  simp only [find_append_mark plain, rest, find_append_mark inner, tail, List.take_left]

/-- The text is split at its first two colons into an iteration count, a salt and a key. -/
def Stores (stored : Str) (count : Int) (salt key : List UInt8) : Prop :=
  ∃ first second third, hashFields stored = some (first, second, third) ∧
    stoi first = some count ∧ fromHex second = salt ∧ fromHex third = key

/-- What a text stores is all that the verification looks at. -/
private theorem Stores.verify_iff {F : Kdf} {stored : Str} {count : Int} {salt : List UInt8}
    {key : Key}
    (h : Stores stored count salt key.toList) (password : Str) :
    pbkdf2Verify F password stored = true ↔ F password salt count = key := by
  obtain ⟨first, middle, third, fields, number, saltRead, keyRead⟩ := h
  unfold hashFields at fields
  unfold pbkdf2Verify
  cases colon : find [':'] stored with
  | none =>
    rw [colon] at fields
    cases fields
  | some p1 =>
    simp only [colon] at fields
    cases next : find [':'] (stored.drop (p1 + 1)) with
    | none =>
      rw [next] at fields
      cases fields
    | some n =>
      simp only [next, Option.some.injEq, Prod.mk.injEq] at fields
      obtain ⟨rfl, rfl, rfl⟩ := fields
      simp only [next, number, saltRead, keyRead, Vector.length_toList, ne_eq, not_true_eq_false,
        if_false, decide_eq_true_eq]
      exact Vector.toList_inj

private theorem scanHexByte_hexByte (b : UInt8) (rest : Str) :
    scanHexByte (hexByte b ++ rest) = b := by
  have number := hexNumber_hexByte b
  have digits := @isSome_hexValue_of_mem b
  obtain ⟨x, y, pair⟩ := List.length_eq_two.mp (length_hexByte b)
  rw [pair] at number digits ⊢
  have hx : (hexValue x).isSome := digits List.mem_cons_self
  have hy : (hexValue y).isSome := digits (by simp)
  have blank : isSpace x = false := by
    rw [Bool.eq_false_iff]
    intro space
    simp only [isSpace, List.mem_cons, List.not_mem_nil, or_false, decide_eq_true_eq] at space
    rcases space with rfl | rfl | rfl | rfl | rfl | rfl <;> exact absurd hx (by decide)
  have all : [x, y].takeWhile (fun c => (hexValue c).isSome) = [x, y] := by simp [hx, hy]
  have field : (([x, y] ++ rest).dropWhile isSpace).take 2 = [x, y] := by simp [blank]
  unfold scanHexByte
  dsimp only
  rw [field]
  split
  · rename_i t minus
    cases minus
    exact absurd hx (by decide)
  · rename_i t plus
    cases plus
    exact absurd hx (by decide)
  · rw [all, number]
    exact UInt8.ofNat_toNat

theorem fromHex_hexText (bytes : List UInt8) : fromHex (hexText bytes) = bytes := by
  induction bytes with
  | nil => rfl
  | cons b bytes ih =>
    have scanned := scanHexByte_hexByte b (hexText bytes)
    obtain ⟨x, y, pair⟩ := List.length_eq_two.mp (length_hexByte b)
    rw [pair] at scanned
    have text : hexText (b :: bytes) = x :: y :: hexText bytes := by
      rw [hexText, List.flatMap_cons, pair]
      rfl
    rw [text, fromHex, ih]
    exact congrArg (· :: bytes) scanned

private theorem notMem_hexText {bytes : List UInt8} : ':' ∉ hexText bytes := by
  intro mem
  exact absurd (isSome_hexValue_of_mem_hexText mem) (by decide)

theorem stores_pbkdf2Hash (salt : Salt) (password : Str) :
    Stores (pbkdf2Hash F salt password) iterations salt.toList
      (F password salt.toList iterations).toList := by
  have plain : ':' ∉ decimal iterations := by decide
  have count : stoi (decimal iterations) = some (iterations : Int) := by decide
  have text : pbkdf2Hash F salt password = decimal iterations ++ ':' :: (hexText salt.toList ++
      ':' :: hexText (F password salt.toList iterations).toList) := by
    rw [pbkdf2Hash, List.append_assoc, List.cons_append]
  refine ⟨_, _, _, ?_, count, fromHex_hexText _, fromHex_hexText _⟩
  rw [text]
  exact hashFields_append plain notMem_hexText _

/-- A password is verified against a stored text exactly if it derives the key that the
stored one does under the stored salt. -/
theorem pbkdf2Verify_pbkdf2Hash (salt : Salt) (password other : Str) :
    pbkdf2Verify F other (pbkdf2Hash F salt password) = true ↔
      F other salt.toList iterations = F password salt.toList iterations :=
  (stores_pbkdf2Hash F salt password).verify_iff other

structure UserRecord where
  passwordHash : Str
  role : Role

/-- `users_`. -/
abbrev UserTable := AList (fun _ : Str => UserRecord)

/-- `seed_user`, for the salt `RAND_bytes` gave: the hash, then the locked upsert. -/
def seedUser (salt : Salt) (users : UserTable) (username password : Str) (role : Role) :
    UserTable :=
  users.insert username ⟨pbkdf2Hash F salt password, role⟩

/-- `authenticate`: the lookup is its only locked section; the check of the copied hash
follows outside. -/
def authenticate (users : UserTable) (username password : Str) : Option Role :=
  match users.lookup username with
  | none => none
  | some record => if pbkdf2Verify F password record.passwordHash then some record.role else none

/-- `add_user`, for the salt `RAND_bytes` gave, if it did. -/
def addUser (salt : Option Salt) (users : UserTable) (username password : Str) (role : Role) :
    Except Str Bool × UserTable :=
  match salt with
  | none => (.error "TestAuthProvider: RAND_bytes failed".toList, users)
  | some salt => (.ok true, seedUser F salt users username password role)

def removeUser (users : UserTable) (username : Str) : Bool × UserTable :=
  ((users.lookup username).isSome, users.erase username)

def setUserRole (users : UserTable) (username : Str) (role : Role) : Bool × UserTable :=
  match users.lookup username with
  | none => (false, users)
  | some record => (true, users.insert username { record with role := role })

/-- The order of `unordered_map` is not specified; here it is that of the entries. -/
def listUsers (users : UserTable) : List UserInfo :=
  users.entries.map fun e => ⟨e.1, e.2.role⟩

/-- The provider, over a key derivation. -/
def testAuthProvider : AuthProvider where
  State := UserTable
  Choice := Option Salt
  authenticate _ users username password := (.ok (authenticate F users username password), users)
  supportsManagement _ := true
  addUser := addUser F
  removeUser _ users username :=
    let r := removeUser users username
    (.ok r.1, r.2)
  setUserRole _ users username role :=
    let r := setUserRole users username role
    (.ok r.1, r.2)
  listUsers := listUsers

/-- The table after construction, for the salts of the three accounts. -/
def seeded (admin alice viewer : Salt) : UserTable :=
  let users := seedUser F admin ∅ "admin".toList "admin123".toList .admin
  let users := seedUser F alice users "alice".toList "user123".toList .user
  seedUser F viewer users "viewer".toList "viewer123".toList .viewer

/-- The role the table holds for a user. -/
def roleOf (users : UserTable) (username : Str) : Option Role :=
  (users.lookup username).map UserRecord.role

theorem roleOf_of_authenticate {users : UserTable} {username password : Str} {role : Role}
    (accepted : authenticate F users username password = some role) :
    roleOf users username = some role := by
  unfold authenticate at accepted
  unfold roleOf
  cases found : users.lookup username with
  | none =>
    rw [found] at accepted
    cases accepted
  | some record =>
    rw [found] at accepted
    by_cases verified : pbkdf2Verify F password record.passwordHash = true
    · simp only [verified, if_true, Option.some.injEq] at accepted
      rw [Option.map_some, accepted]
    · simp only [verified, Bool.false_eq_true, if_false, reduceCtorEq] at accepted

end Webengine.Engine.TestProvider
