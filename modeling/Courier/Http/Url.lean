import Courier.Text.Utf8

set_option autoImplicit false

/-! # Addresses

An address names a scheme, an authority and what is asked for there: a path, and perhaps a query. The
fragment is not sent and is dropped. Nothing is escaped or made shorter on the way, so the characters of
path and query must be ones that may stand in a request; beyond ASCII any may.
-/

namespace Courier

/-- What is asked for at a server. -/
structure Target where
  path : List Char
  query : Option (List Char)
deriving Repr, DecidableEq

namespace Target

def isPathChar (c : Char) : Bool :=
  let n := c.toNat
  n == 0x21 || n == 0x22 || (0x24 ≤ n && n ≤ 0x3B) || n == 0x3D || (0x40 ≤ n && n ≤ 0x5F)
    || (0x61 ≤ n && n != 0x7F)

def isQueryChar (c : Char) : Bool :=
  let n := c.toNat
  n == 0x21 || (0x24 ≤ n && n ≤ 0x3B) || n == 0x3D || (0x3F ≤ n && n != 0x7F)

/-- Splits a text at the first of the given character. -/
def splitAt (mark : Char) (s : List Char) : List Char × Option (List Char) :=
  match s.span (· != mark) with
  | (before, []) => (before, none)
  | (before, _ :: after) => (before, some after)

/-- The target that the end of an address gives; without a path it is the root. -/
def ofChars? (s : List Char) : Option Target :=
  let (path, query) := splitAt '?' (splitAt '#' s).1
  let path := if path.isEmpty then ['/'] else path
  if path.all isPathChar && (query.getD []).all isQueryChar then some ⟨path, query⟩ else none

def text (t : Target) : String :=
  String.ofList (t.path ++ (t.query.map fun q => '?' :: q).getD [])

end Target

/-- An address of a server; the letters of its scheme are small ones. -/
structure Url where
  scheme : List Char
  authority : List Char
  target : Target
deriving Repr, DecidableEq

namespace Url

def sizeLimit : Nat := 65534

def isSchemeChar (c : Char) : Bool := c.isAlphanum || c == '+' || c == '-' || c == '.'

/-- The scheme of an address and what follows it. -/
def scheme? (s : List Char) : Option (List Char × List Char) :=
  match s.span isSchemeChar with
  | (scheme, ':' :: '/' :: '/' :: rest) => some (scheme.map Char.toLower, rest)
  | _ => none

/-- A character that does not end an authority. -/
def isAuthorityChar (c : Char) : Bool := c != '/' && c != '?' && c != '#'

/-- The address that a text gives. -/
def ofChars? (s : List Char) : Option Url := do
  if sizeLimit < Utf8.size s then none
  let (scheme, rest) ← scheme? s
  let (authority, rest) := rest.span isAuthorityChar
  if authority.isEmpty then none
  let target ← Target.ofChars? rest
  return ⟨scheme, authority, target⟩

end Url

end Courier
