import Courier.Json.Dates
import Courier.Json.Record

set_option autoImplicit false

/-! # Repositories and users

What a repository server lists: repositories by their clone addresses, and user accounts.
-/

namespace Courier

open Json

structure Repository where
  name : String
  description : String
  owner : String
  lastChange : Instant
  createdAt : Option Instant
  frozen : Bool
deriving Repr, DecidableEq

/-- How a repository stands in a document. Only its name and its last change must be there; the date it
was created at is left out when there is none. -/
def Repository.record : Record Repository where
  name := "Repository"
  types := [String, String, String, Instant, Option Instant, Bool]
  fields :=
    .cons { name := "name", shape := .text } <|
    .cons { name := "description", shape := .text, absence := .anywhere "" } <|
    .cons { name := "owner", shape := .text, absence := .anywhere "" } <|
    .cons { name := "lastChange", shape := .instant } <|
    .cons { name := "createdAt", shape := .optional .instant, absence := .anywhere none,
            omitted := Option.isNone } <|
    .cons { name := "frozen", shape := .flag, absence := .anywhere false } .nil
  build := fun (name, description, owner, lastChange, createdAt, frozen, ()) =>
    { name, description, owner, lastChange, createdAt, frozen }
  row r := (r.name, r.description, r.owner, r.lastChange, r.createdAt, r.frozen, ())

structure User where
  username : String
  displayName : Option String
  canAdmin : Bool
  repositories : List String
deriving Repr, DecidableEq

/-- How a user stands in a document. Only the user name must be there. -/
def User.record : Record User where
  name := "User"
  types := [String, Option String, Bool, List String]
  fields :=
    .cons { name := "username", shape := .text } <|
    .cons { name := "displayName", shape := .optional .text, absence := .anywhere none } <|
    .cons { name := "canAdmin", shape := .flag, absence := .anywhere false } <|
    .cons { name := "repositories", shape := .list .text, absence := .anywhere [] } .nil
  build := fun (username, displayName, canAdmin, repositories, ()) =>
    { username, displayName, canAdmin, repositories }
  row u := (u.username, u.displayName, u.canAdmin, u.repositories, ())

/-- Repositories by their clone addresses. -/
abbrev Catalog := Table Repository

namespace Json.Shape

def repository : Shape Repository := Repository.record.shape

def user : Shape User := User.record.shape

def catalog : Shape Catalog := .table .repository

def users : Shape (List User) := .list .user

end Json.Shape

end Courier
