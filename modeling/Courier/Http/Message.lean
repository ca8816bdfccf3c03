import Courier.Http.Header
import Courier.Text.Utf8

set_option autoImplicit false

/-! # Requests and responses

Both are plain data. A request carries every header it is sent with; a response, every header that can
be told as text, and its body only if it was asked for.
-/

namespace Courier

/-- The method of a request: a fetch is a GET, a send is a POST. -/
inductive Method where
  | get
  | post
deriving Repr, DecidableEq

def Method.name : Method → String
  | .get => "GET"
  | .post => "POST"

structure Request where
  method : Method
  url : String
  headers : Headers
  body : Option (List UInt8)
deriving Repr, DecidableEq

def Request.header? (request : Request) (name : String) : Option String := request.headers.get? name

/-- The number by which a server tells how a request went. -/
abbrev Status := Nat

/-- A status that tells that a request has succeeded. -/
def Status.isSuccess (status : Status) : Bool := 200 ≤ status && status < 300

structure Response where
  status : Status
  headers : Headers
  body : String
deriving Repr, DecidableEq

def Response.header? (response : Response) (name : String) : Option String :=
  response.headers.get? name

def Response.isSuccess (response : Response) : Bool := response.status.isSuccess

end Courier
