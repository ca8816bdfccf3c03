import Courier.Client.Exchange
import Courier.Http.Url

set_option autoImplicit false

/-! # Sites

A site is where a server listens. Addresses that begin with its scheme and its authority lead to it, and
no others do.
-/

namespace Courier

/-- A character of the name or the number of a host. -/
def isHostChar (c : Char) : Bool := c.isAlphanum || c == '.' || c == '-'

/-- A host, and perhaps a port after a colon: no user comes before it, and no blank or control is in it. -/
def isAuthority (s : List Char) : Bool :=
  let (host, port) := s.span isHostChar
  !host.isEmpty &&
    match port with
    | [] => true
    | mark :: digits => mark == ':' && (Decimal.word? 16 digits).isSome

/-- Where a server listens, and whether its connections are secured by a certificate, which no client can
verify. The authority leaves room for a path. -/
structure Site where
  authority : String
  secure : Bool
  authority_sound : isAuthority authority.toList := by decide
  authority_size : Utf8.size authority.toList ≤ 300 := by decide
deriving Repr, DecidableEq

namespace Site

def scheme (site : Site) : String := if site.secure then "https" else "http"

def base (site : Site) : String := site.scheme ++ "://" ++ site.authority

def target (site : Site) (url : String) : Except Disruption Target :=
  match Url.ofChars? url.toList with
  | none => .error (.badUri url)
  | some u =>
    if u.scheme == site.scheme.toList && u.authority == site.authority.toList then .ok u.target
    else .error .connectionFailed

end Site

end Courier
