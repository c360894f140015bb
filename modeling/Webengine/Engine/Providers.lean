/- source: backend/include/webengine/AuthProvider.hpp
   digest: The pluggable source of authentication data. -/

import Webengine.Engine.Messages

set_option autoImplicit false
set_option relaxedAutoImplicit false

namespace Webengine.Engine.Providers

open Webengine.Engine.Roles
open Webengine.Engine.Messages (UserInfo)

/-- An implementation of the interface, over a state of its own. `Choice` is what the
outside world decides in one call (a salt, a remote answer); a call may throw. -/
structure AuthProvider where
  State : Type
  Choice : Type
  authenticate : Choice → State → Str → Str → Except Str (Option Role) × State
  supportsManagement : State → Bool
  addUser : Choice → State → Str → Str → Role → Except Str Bool × State
  removeUser : Choice → State → Str → Except Str Bool × State
  setUserRole : Choice → State → Str → Role → Except Str Bool × State
  listUsers : State → List UserInfo

/-- A provider that overrides only `authenticate`: the other methods are the base class's. -/
def AuthProvider.readOnly {State Choice : Type}
    (authenticate : Choice → State → Str → Str → Except Str (Option Role) × State) :
    AuthProvider where
  State := State
  Choice := Choice
  authenticate := authenticate
  supportsManagement _ := false
  addUser _ s _ _ _ := (.ok false, s)
  removeUser _ s _ := (.ok false, s)
  setUserRole _ s _ _ := (.ok false, s)
  listUsers _ := []

end Webengine.Engine.Providers
