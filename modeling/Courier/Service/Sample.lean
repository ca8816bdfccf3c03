import Courier.Service.Record
import Courier.Table

set_option autoImplicit false

/-! # What the service knows

Two accounts, of which one may read the protected users, and two repositories.
-/

namespace Courier.Service

structure Account where
  username : String
  secret : String
deriving Repr, DecidableEq

def admin : Account := ⟨"admin", "admin"⟩

/-- Known, but not allowed to read the protected users. -/
def guest : Account := ⟨"guest", "guest"⟩

def accounts : List Account := [admin, guest]

def repositories : List (String × Repository) := [
  ("https://localhost/git/tools.git", {
    name := "tools.git"
    description := "build tooling"
    owner := admin.username
    lastChange := "2011-06-15T10:30:00Z"
    createdAt := some "2010-01-02T03:04:05Z"
    frozen := false }),
  ("https://localhost/git/docs.git", {
    name := "docs.git"
    description := ""
    owner := guest.username
    lastChange := "2011-07-01T00:00:00Z"
    createdAt := none
    frozen := true })]

def users : List User := [
  { username := admin.username
    displayName := some "Administrator"
    canAdmin := true
    repositories := [] },
  { username := guest.username
    displayName := none
    canAdmin := false
    repositories := ["docs.git"] }]

open Json

/-- The repositories as one object, members in the order of their names at every level. -/
def repositoriesValue : Value :=
  let sorted (members : List (String × Value)) : Value := .object (Table.ofList members).entries
  sorted (repositories.map fun (url, r) =>
    (url, sorted (Repository.record.fields.members (Repository.record.row r))))

def usersValue : Value := .array (users.map User.record.shape.write)

end Courier.Service
