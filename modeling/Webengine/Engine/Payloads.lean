/- source: backend/src/WebEngine.cpp, backend/src/AuthHandler.cpp
   digest: The JSON request and response shapes, and what the engine asks of glaze. -/

import Webengine.Engine.AccessList
import Webengine.Engine.Messages

set_option autoImplicit false
set_option relaxedAutoImplicit false

namespace Webengine.Engine.Payloads

open Webengine.Engine.Roles
open Webengine.Engine.AccessList (AclEntry)
open Webengine.Engine.Messages (UserInfo)

structure AclEntryView where
  pathPrefix : Str
  minRole : Str

structure AclListView where
  entries : List AclEntryView

structure UserView where
  username : Str
  role : Str

structure UserListView where
  users : List UserView

structure LoginReq where
  username : Option Str
  password : Option Str

structure AclSetReq where
  pathPrefix : Option Str
  role : Option Str

@[ext] structure PrefixReq where
  pathPrefix : Option Str

structure AddUserReq where
  username : Option Str
  password : Option Str
  role : Option Str

@[ext] structure UsernameReq where
  username : Option Str

structure SetRoleReq where
  username : Option Str
  role : Option Str

/-- The third-party JSON library. A reader reports whether there was an error, and leaves
the target as far as it was filled; `writeObj` serialises an object with text members. -/
structure Glaze where
  readLoginReq : Str → Bool × LoginReq
  readAclSetReq : Str → Bool × AclSetReq
  readPrefixReq : Str → Bool × PrefixReq
  readAddUserReq : Str → Bool × AddUserReq
  readUsernameReq : Str → Bool × UsernameReq
  readSetRoleReq : Str → Bool × SetRoleReq
  writeObj : List (Str × Str) → Str
  writeAclListView : AclListView → Str
  writeUserListView : UserListView → Str

def aclListView (entries : List AclEntry) : AclListView :=
  ⟨entries.map fun e => ⟨e.pathPrefix, roleName e.minRole⟩⟩

def userListView (users : List UserInfo) : UserListView :=
  ⟨users.map fun u => ⟨u.username, roleName u.role⟩⟩

/-- `glz::write_json(glz::obj{"error", message})`. -/
def Glaze.error (glz : Glaze) (message : Str) : Str := glz.writeObj [("error".toList, message)]

section Samples

private def quoted (s : Str) : Str := '"' :: s ++ ['"']

private def object (members : List (Str × Str)) : Str :=
  "\x7b".toList ++ [','].intercalate (members.map fun m => quoted m.1 ++ ':' :: m.2) ++
    "\x7d".toList

private def array (items : List Str) : Str := '[' :: [','].intercalate items ++ [']']

/-- A library as it behaves on a few bodies, and on texts that need no escapes: any other
body is an error. -/
def Glaze.sample (logins : List (Str × LoginReq)) (usernames : List (Str × UsernameReq)) :
    Glaze where
  readLoginReq body := match logins.lookup body with
    | some req => (false, req)
    | none => (true, ⟨none, none⟩)
  readAclSetReq _ := (true, ⟨none, none⟩)
  readPrefixReq _ := (true, ⟨none⟩)
  readAddUserReq _ := (true, ⟨none, none, none⟩)
  readUsernameReq body := match usernames.lookup body with
    | some req => (false, req)
    | none => (true, ⟨none⟩)
  readSetRoleReq _ := (true, ⟨none, none⟩)
  writeObj members := object (members.map fun m => (m.1, quoted m.2))
  writeAclListView view := object [("entries".toList, array (view.entries.map fun e =>
    object [("prefix".toList, quoted e.pathPrefix), ("min_role".toList, quoted e.minRole)]))]
  writeUserListView view := object [("users".toList, array (view.users.map fun u =>
    object [("username".toList, quoted u.username), ("role".toList, quoted u.role)]))]

end Samples

/-- The body of every plain success answer. -/
def statusOk : Str := "\x7b\"status\":\"ok\"\x7d".toList

end Webengine.Engine.Payloads
