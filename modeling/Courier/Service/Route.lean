import Courier.Http.Url
import Courier.Text.Decimal
import Courier.Text.Hex

set_option autoImplicit false

/-! # Routes of the service

A path leads to a resource, or to none. Paths are compared as they are sent, without undoing escapes; only
the last part of a status path is taken with its escapes undone.
-/

namespace Courier.Service

inductive Route where
  | repositories
  | users
  | empty
  | malformed
  | headers
  | guarded
  | upload
  /-- The status that the rest of the path names. -/
  | status (segment : List Char)
deriving Repr, DecidableEq

namespace Route

/-- The paths that lead to one resource. -/
def fixed : List (String × Route) := [
  ("/repositories", .repositories),
  ("/users", .users),
  ("/empty", .empty),
  ("/malformed", .malformed),
  ("/headers", .headers),
  ("/protected", .guarded),
  ("/upload", .upload)]

/-- What all paths of a status begin with. -/
def statusStart : List Char := "/status/".toList

/-- The resource that a path leads to. -/
def ofPath? (path : List Char) : Option Route :=
  match fixed.find? fun (text, _) => text.toList == path with
  | some (_, route) => some route
  | none =>
    if path.take statusStart.length == statusStart then
      let segment := path.drop statusStart.length
      if segment.isEmpty || segment.contains '/' then none else some (.status segment)
    else none

end Route

/-! ## The status in a path -/

/-- The bytes of a text with its escapes undone; what is no whole escape stays as it is. -/
def unescape : List Char → List UInt8
  | [] => []
  | c :: rest =>
    if c = '%' then
      match rest with
      | a :: b :: after =>
        match Hex.value? a, Hex.value? b with
        | some high, some low => UInt8.ofNat (high * 16 + low) :: unescape after
        | _, _ => 0x25 :: unescape (a :: b :: after)
      | short => 0x25 :: unescape short
    else String.utf8EncodeChar c ++ unescape rest

/-- The number of 16 bits that a text gives; a plus sign may stand before it. -/
def number16? : List Char → Option Nat
  | [] => none
  | c :: rest => if c = '+' then Decimal.word? 16 rest else Decimal.word? 16 (c :: rest)

/-- Why a path names no status. -/
inductive PathFault where
  | notText
  | notNumber (text : String)
deriving Repr, DecidableEq

def PathFault.message : PathFault → String
  | .notText => "Invalid URL: Invalid UTF-8 in `code`"
  | .notNumber text => s!"Invalid URL: Cannot parse `{text}` to a `u16`"

/-- The status that the last part of a path names; a number that can be no status gives 400. -/
def statusOf (segment : List Char) : Except PathFault Nat :=
  match Utf8.decode (unescape segment) with
  | .error _ => .error .notText
  | .ok text =>
    match number16? text with
    | none => .error (.notNumber (String.ofList text))
    | some n => .ok (if 100 ≤ n ∧ n ≤ 999 then n else 400)

end Courier.Service
