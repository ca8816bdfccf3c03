import Courier.Wire.Arrival
import Courier.Wire.Delivery

set_option autoImplicit false

/-! # The service over a connection

Before the service sees a request, its headers must be few enough, and its body must come in a way that
has an end. What it answers goes back with the length of its body, which is left out where a status has
none. A status that only announces another answer cannot go back: a fault of the service takes its place,
except for 101, after which another protocol would begin.
-/

namespace Courier.Service

def headerLimit : Nat := 100

/-- The coding that is put on a body last, if there is any, is that in chunks. -/
def hasEnd (headers : Headers) : Bool := headers.codings.getLast?.all Headers.isChunks

/-- The headers that the service sees: after a coding of the body its length is not listened to. -/
def heard (headers : Headers) : Headers :=
  let (before, after) := headers.span fun header => header.1 != "transfer-encoding"
  before ++ Headers.without after "content-length"

/-- The answer to a request that has arrived with `count` headers, and what the service keeps from then
on. -/
def receive (store : Store) (count : Nat) (inquiry : Inquiry) : Reply × Store :=
  if headerLimit < count then (.bare 431, store)
  else if !hasEnd inquiry.headers then (.bare 400, store)
  else handle store { inquiry with headers := heard inquiry.headers }

/-- What goes back of an answer. -/
def Reply.returned (reply : Reply) : Reply :=
  if reply.status < 200 && reply.status != 101 then .bare 500 else reply

/-- An answer as it comes back. -/
def Reply.arrive (reply : Reply) : Answer :=
  let bytes := Utf8.encode reply.body.toList
  { status := reply.status
    headers :=
      (reply.contentType.map fun value => ("content-type", value)).toList
        ++ (reply.allow.map fun value => ("allow", value)).toList
        ++ [("content-length", Decimal.text bytes.length)]
    body := BodyRead.ofBody (.ok (if reply.status.isBodiless then [] else bytes)) }

/-- The service at a site, for clients with a trust policy. -/
def network (site : Site) (trust : Trust) : Network Store := fun request store =>
  match site.deliver trust request with
  | .error disruption => (.error (.disrupted disruption), store)
  | .ok inquiry =>
    let (reply, store) := receive store request.headerCount inquiry
    (.ok reply.returned.arrive, store)

end Courier.Service
