/- source: backend/include/webengine/Http.hpp
   digest: Requests, responses and the response builders, as far as the engine reads and
   writes them. -/

import Webengine.Engine.Roles

set_option autoImplicit false
set_option relaxedAutoImplicit false

namespace Webengine.Engine.Messages

open Webengine.Engine.Roles (Str Role)

/-- `http::verb`. -/
inductive Verb
  | unknown | delete_ | get | head | post | put | connect | options | trace | copy | lock
  | mkcol | move | propfind | proppatch | search | unlock | bind | rebind | unbind | acl
  | report | mkactivity | checkout | merge | msearch | notify | subscribe | unsubscribe
  | patch | purge | mkcalendar | link | unlink
  deriving DecidableEq

/-- The members of `http::status` the engine answers with. -/
inductive Status
  | ok | found | badRequest | unauthorized | forbidden | notFound | conflict
  | internalServerError | notImplemented
  deriving DecidableEq

def Status.code : Status → Nat
  | .ok => 200
  | .found => 302
  | .badRequest => 400
  | .unauthorized => 401
  | .forbidden => 403
  | .notFound => 404
  | .conflict => 409
  | .internalServerError => 500
  | .notImplemented => 501

/-- Header fields in the order they were inserted. -/
abbrev Fields := List (Str × Str)

/-- Field names are compared without regard to case. -/
def iequals (a b : Str) : Bool := a.map Char.toLower = b.map Char.toLower

/-- `basic_fields::find`: the value of the first field with that name. -/
def Fields.find (fs : Fields) (name : Str) : Option Str :=
  (List.find? (fun f => iequals f.1 name) fs).map Prod.snd

/-- `basic_fields::set`: replaces every field with that name by one at the end. -/
def Fields.set (fs : Fields) (name value : Str) : Fields :=
  List.filter (fun f => !iequals f.1 name) fs ++ [(name, value)]

private theorem iequals_self (a : Str) : iequals a a = true := by simp [iequals]

theorem Fields.find_set (fs : Fields) (name value : Str) :
    (fs.set name value).find name = some value := by
  have others : List.find? (fun f => iequals f.1 name)
      (List.filter (fun f => !iequals f.1 name) fs) = none := by
    rw [List.find?_eq_none]
    intro f hf
    simpa using (List.mem_filter.mp hf).2
  rw [find, set, List.find?_append, others, List.find?_singleton]
  simp [iequals_self]

theorem Fields.filter_set {p : Str × Str → Bool} (fields : Fields) {name value : Str}
    (apart : ∀ f, p f = true → iequals f.1 name = false) (new : p (name, value) = false) :
    List.filter p (fields.set name value) = List.filter p fields := by
  rw [Fields.set, List.filter_append, List.filter_filter, List.filter_cons_of_neg (by simp [new]),
    List.filter_nil, List.append_nil]
  refine List.filter_congr fun f _ => ?_
  cases holds : p f with
  | false => rfl
  | true =>
    rw [apart f holds]
    rfl

structure Request where
  method : Verb
  target : Str
  version : Nat
  fields : Fields
  body : Str

def Request.find (req : Request) (name : Str) : Option Str := req.fields.find name

structure Response where
  status : Status
  version : Nat
  fields : Fields
  body : Str
  deriving DecidableEq

def Response.set (res : Response) (name value : Str) : Response :=
  { res with fields := res.fields.set name value }

/-- `std::to_string` of a number that is not negative. -/
def decimal (n : Nat) : Str := Nat.toDigits 10 n

/-- For these statuses `prepare_payload` sets Content-Length to the size of the body. -/
def Response.preparePayload (res : Response) : Response :=
  res.set "Content-Length".toList (decimal res.body.length)

/-- `UserInfo`: a username paired with its role. -/
structure UserInfo where
  username : Str
  role : Role
  deriving DecidableEq

/-- `user` is set iff the route declared a minimum role. -/
structure RequestContext where
  request : Request
  user : Option UserInfo

def makeResponse (status : Status) (body contentType : Str) : Response :=
  ({ status, version := 11, fields := [], body } : Response)
    |>.set "Content-Type".toList contentType
    |>.preparePayload

def json (status : Status) (body : Str) : Response :=
  makeResponse status body "application/json".toList

def text (status : Status) (body : Str) : Response :=
  makeResponse status body "text/plain".toList

/-- A bodiless response carrying only a status code. -/
def statusResponse (status : Status) : Response :=
  ({ status, version := 11, fields := [], body := [] } : Response).preparePayload

@[simp] theorem status_set (res : Response) (name value : Str) :
    (res.set name value).status = res.status := rfl

@[simp] theorem status_preparePayload (res : Response) :
    res.preparePayload.status = res.status := rfl

@[simp] theorem status_json (status : Status) (body : Str) :
    (json status body).status = status := rfl

@[simp] theorem status_text (status : Status) (body : Str) :
    (text status body).status = status := rfl

@[simp] theorem status_makeResponse (status : Status) (body contentType : Str) :
    (makeResponse status body contentType).status = status := rfl

@[simp] theorem status_statusResponse (status : Status) :
    (statusResponse status).status = status := rfl

end Webengine.Engine.Messages
