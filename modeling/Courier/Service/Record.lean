import Courier.Json.Record

set_option autoImplicit false

/-! # What the service sends

The service keeps records of its own. It does not look into dates: they are texts to it.
-/

namespace Courier.Service

open Json

/-- A repository as the service lists it. -/
structure Repository where
  name : String
  description : String
  owner : String
  lastChange : String
  createdAt : Option String
  frozen : Bool
deriving Repr, DecidableEq

/-- How a repository stands in a document; the date it was created at is left out when there is none. -/
def Repository.record : Record Repository where
  name := "Repository"
  types := [String, String, String, String, Option String, Bool]
  fields :=
    .cons { name := "name", shape := .text } <|
    .cons { name := "description", shape := .text } <|
    .cons { name := "owner", shape := .text } <|
    .cons { name := "lastChange", shape := .text } <|
    .cons { name := "createdAt", shape := .optional .text, absence := .inObject none,
            omitted := Option.isNone } <|
    .cons { name := "frozen", shape := .flag } .nil
  build := fun (name, description, owner, lastChange, createdAt, frozen, ()) =>
    { name, description, owner, lastChange, createdAt, frozen }
  row r := (r.name, r.description, r.owner, r.lastChange, r.createdAt, r.frozen, ())

/-- A user account as the service lists it. -/
structure User where
  username : String
  displayName : Option String
  canAdmin : Bool
  repositories : List String
deriving Repr, DecidableEq

/-- How a user stands in a document. -/
def User.record : Record User where
  name := "User"
  types := [String, Option String, Bool, List String]
  fields :=
    .cons { name := "username", shape := .text } <|
    .cons { name := "displayName", shape := .optional .text, absence := .inObject none } <|
    .cons { name := "canAdmin", shape := .flag } <|
    .cons { name := "repositories", shape := .list .text } .nil
  build := fun (username, displayName, canAdmin, repositories, ()) =>
    { username, displayName, canAdmin, repositories }
  row u := (u.username, u.displayName, u.canAdmin, u.repositories, ())

/-- The headers of a request that the service tells back, each as far as it is there. -/
structure SeenHeaders where
  authorization : Option String
  acceptCharset : Option String
  cacheControl : Option String
  contentType : Option String
  contentLength : Option String
deriving Repr, DecidableEq

/-- How seen headers stand in a document. -/
def SeenHeaders.record : Record SeenHeaders where
  name := "SeenHeaders"
  types := .replicate 5 (Option String)
  fields :=
    .cons { name := "authorization", shape := .optional .text, absence := .inObject none } <|
    .cons { name := "acceptCharset", shape := .optional .text, absence := .inObject none } <|
    .cons { name := "cacheControl", shape := .optional .text, absence := .inObject none } <|
    .cons { name := "contentType", shape := .optional .text, absence := .inObject none } <|
    .cons { name := "contentLength", shape := .optional .text, absence := .inObject none } .nil
  build := fun (authorization, acceptCharset, cacheControl, contentType, contentLength, ()) =>
    { authorization, acceptCharset, cacheControl, contentType, contentLength }
  row h :=
    (h.authorization, h.acceptCharset, h.cacheControl, h.contentType, h.contentLength, ())

structure Upload where
  headers : SeenHeaders
  body : String
deriving Repr, DecidableEq

/-- How an upload stands in a document. -/
def Upload.record : Record Upload where
  name := "Upload"
  types := [SeenHeaders, String]
  fields :=
    .cons { name := "headers", shape := SeenHeaders.record.shape } <|
    .cons { name := "body", shape := .text } .nil
  build := fun (headers, body, ()) => { headers, body }
  row u := (u.headers, u.body, ())

end Courier.Service
