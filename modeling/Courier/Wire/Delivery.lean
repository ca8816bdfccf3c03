import Courier.Http.Body
import Courier.Service.Basic
import Courier.Wire.Site

set_option autoImplicit false

/-! # The way of a request to a server

A request is looked at before it is sent: its address must be one of the site, and its headers ones that
can be sent, which do not contradict each other or the body. On the way the names of headers lose the case
of their letters, and their values the blanks at both ends. A body that is not told the length of gets a
header that tells it.
-/

namespace Courier

namespace Headers

def unsendable? (headers : Headers) : Option (String × String) :=
  headers.find? fun (name, value) => !isName name || !isValue value

/-- The first header with a name, if there is one, shows as text. -/
def isShown (headers : Headers) (name : String) : Bool :=
  (headers.get? name).all fun value => value.toList.all isPlain

/-- The headers that every request has: those that it does not bring are added on the way. -/
def customary : List String := ["host", "user-agent", "accept", "accept-encoding"]

end Headers

namespace Request

/-- The body is sent in chunks: that is the one coding that a header tells. -/
def isChunked (request : Request) : Bool :=
  (request.headers.getAll "transfer-encoding").any fun value => Headers.isChunks value.toList

/-- The length of the body that the headers tell. It may be told once only, by digits and nothing else. -/
def length? (request : Request) : Except Disruption (Option Nat) :=
  match request.headers.getAll "content-length" with
  | [] => .ok none
  | [value] =>
    match Decimal.word? 64 value.toList with
    | some length => .ok (some length)
    | none => .error (.badHeader value)
  | _ => .error (.badHeader "content-length")

/-- The bytes of the body that are sent. A GET brings none, and must not say that it does; a POST that says
so brings none either, and any other length must be that of the body. Chunks tell their lengths
themselves. -/
def sentBody (request : Request) (length : Option Nat) : Except Disruption (List UInt8) :=
  let body := request.body.getD []
  match request.method with
  | .get =>
    if request.isChunked || length.any (0 < ·) then .error (.protocol "a GET has no body") else .ok []
  | .post =>
    if request.isChunked then .ok body
    else
      match length with
      | none => .ok body
      | some length =>
        if length = 0 then .ok []
        else if length = body.length then .ok body
        else .error (.protocol "the body has another length")

def outgoing (request : Request) : Except Disruption (List UInt8) :=
  match request.headers.unsendable? with
  | some (name, _) => .error (.badHeader name)
  | none =>
    if 1 < (request.headers.getAll "host").length || !request.headers.isShown "host" then
      .error (.badHeader "host")
    else if !request.headers.isShown "authorization" then .error (.badHeader "authorization")
    else
      match request.length? with
      | .error disruption => .error disruption
      | .ok length => request.sentBody length

/-- The headers of a request as they arrive; a POST tells the length of its body, unless that comes in
chunks. -/
def arriving (request : Request) : Headers :=
  let headers := request.headers.map Headers.arrived
  match request.method with
  | .get => headers
  | .post =>
    if request.isChunked || (request.headers.get? "content-length").isSome then headers
    else headers ++ [("content-length", Decimal.text (request.body.getD []).length)]

def headerCount (request : Request) : Nat :=
  request.arriving.length
    + Headers.customary.countP fun name => (request.headers.get? name).isNone

end Request

/-- The request as it arrives at a site, if it is sent at all. -/
def Site.deliver (site : Site) (trust : Trust) (request : Request) :
    Except Disruption Service.Inquiry :=
  match request.outgoing with
  | .error disruption => .error disruption
  | .ok body =>
    match site.target request.url with
    | .error disruption => .error disruption
    | .ok target =>
      if site.secure && trust.verifies then .error (.tls "invalid peer certificate")
      else .ok {
        method := request.method.name
        target := target
        headers := request.arriving
        body := body }

end Courier
