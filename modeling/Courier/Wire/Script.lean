import Courier.Wire.Arrival
import Courier.Wire.Delivery

set_option autoImplicit false

/-! # Servers that give one answer

A scripted server gives the same answer, whatever it is asked. It sends the headers it was given as they
are, so they need not fit the body, nor be headers at all.
-/

namespace Courier

/-- How a server marks the end of a body. -/
inductive Framing where
  /-- The length is told. -/
  | length
  /-- The connection is closed. -/
  | close
  /-- Each piece tells its length. -/
  | chunked
  /-- A length is told, and ten bytes fewer are sent. -/
  | truncated
  /-- There is no answer at all. -/
  | silent
deriving Repr, DecidableEq

/-- An answer that a server is to give. -/
structure Script where
  status : Status
  headers : Headers
  body : List UInt8
  framing : Framing
deriving Repr, DecidableEq

namespace Script

def framingHeaders (script : Script) : Headers :=
  match script.framing with
  | .length => [("content-length", Decimal.text script.body.length)]
  | .truncated => [("content-length", Decimal.text (script.body.length + 10))]
  | .chunked => [("transfer-encoding", "chunked")]
  | .close => []
  | .silent => []

/-- What follows the headers. -/
def sentBody (script : Script) : List UInt8 :=
  match script.framing with
  | .chunked => Chunked.write script.body
  | _ => script.body

def bytes (script : Script) : List UInt8 :=
  Head.write (script.headers ++ script.framingHeaders ++ [("connection", "close")])
    ++ script.sentBody

def outcome (script : Script) : Outcome :=
  match script.framing with
  | .silent => .error (.disrupted (.protocol "connection closed"))
  | _ => Answer.read script.status script.bytes

def network (script : Script) (site : Site) (trust : Trust) : Network (Option Service.Inquiry) :=
  fun request last =>
    match site.deliver trust request with
    | .error disruption => (.error (.disrupted disruption), last)
    | .ok inquiry => (script.outcome, some inquiry)

end Script

end Courier
