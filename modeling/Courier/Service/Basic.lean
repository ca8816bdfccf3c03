import Courier.Base64
import Courier.Http.Message
import Courier.Service.Route
import Courier.Service.Sample

set_option autoImplicit false

/-! # The service

The service answers one request after another. It lists what it knows, tells a request its own headers,
guards one resource by accounts, answers with any status that is asked for, and keeps every text that is
uploaded. Only an upload changes what it keeps.
-/

namespace Courier.Service

open Json

structure Inquiry where
  method : String
  target : Target
  headers : Headers
  body : List UInt8
deriving Repr, DecidableEq

structure Reply where
  status : Status
  contentType : Option String := none
  allow : Option String := none
  body : String := ""
deriving Repr, DecidableEq

/-- The uploads that the service keeps, the oldest first. -/
abbrev Store := List Upload

namespace Reply

def document (v : Value) : Reply where
  status := 200
  contentType := some "application/json"
  body := v.compact

def text (status : Status) (body : String) : Reply where
  status := status
  contentType := some "text/plain; charset=utf-8"
  body := body

def bare (status : Status) : Reply where
  status := status

/-- The answer to a method that the resource does not know. -/
def wrongMethod (allowed : String) : Reply where
  status := 405
  allow := some allowed

/-- The answer without its body. -/
def headOnly (reply : Reply) : Reply := { reply with body := "" }

end Reply

/-! ## What a request tells of itself -/

/-- The value of the first header with a name, if that shows as text. -/
def plainHeader? (headers : Headers) (name : String) : Option String :=
  (headers.get? name).filter fun value => value.toList.all Headers.isPlain

/-- The headers that the service tells back. -/
def seen (headers : Headers) : SeenHeaders where
  authorization := plainHeader? headers "authorization"
  acceptCharset := plainHeader? headers "accept-charset"
  cacheControl := plainHeader? headers "cache-control"
  contentType := plainHeader? headers "content-type"
  contentLength := plainHeader? headers "content-length"

/-- The token that the service expects of an account. -/
def basicToken (username secret : String) : String :=
  String.ofList (Base64.encode (Utf8.encode (username ++ ":" ++ secret).toList))

/-- The account that a Basic header gives the token of. -/
def account? (headers : Headers) : Option Account := do
  let value ← plainHeader? headers "authorization"
  let scheme := "Basic ".toList
  let chars := value.toList
  if chars.take scheme.length = scheme then
    accounts.find? fun account =>
      (basicToken account.username account.secret).toList = chars.drop scheme.length
  else none

/-! ## Resources -/

/-- The document that breaks off. -/
def malformedText : String := "\x7b\"name\": \"tools.git\", \"lastChange\": "

/-- The guarded users, for the one account that may read them. -/
def guarded (headers : Headers) : Reply :=
  match account? headers with
  | none => .bare 401
  | some account => if account.username = admin.username then .document usersValue else .bare 403

def status (segment : List Char) : Reply :=
  match statusOf segment with
  | .ok status => .text status s!"status {status}"
  | .error fault => .text 400 fault.message

def lastUpload (store : Store) : Reply :=
  match store.getLast? with
  | some upload => .document (Upload.record.shape.write upload)
  | none => .bare 404

/-- The largest body of an upload, in bytes. -/
def bodyLimit : Nat := 2097152

def upload (inquiry : Inquiry) : Reply × Option Upload :=
  if bodyLimit < inquiry.body.length then
    (.text 413 "Failed to buffer the request body: length limit exceeded", none)
  else
    match Utf8.decode inquiry.body with
    | .error fault => (.text 400 s!"Request body didn't contain valid UTF-8: {fault.message}", none)
    | .ok cs => (.bare 201, some ⟨seen inquiry.headers, String.ofList cs⟩)

/-! ## Answering -/

/-- The answer of a resource that can be read: whole to GET, without its body to HEAD. -/
def readOnly (method allowed : String) (reply : Reply) : Reply :=
  if method = "GET" then reply
  else if method = "HEAD" then reply.headOnly
  else .wrongMethod allowed

/-- The answer of a resource that any method may ask for. HEAD wants no body, and a CONNECT that succeeds
leaves no room for one. -/
def anyMethod (method : String) (reply : Reply) : Reply :=
  if method = "HEAD" ∨ (method = "CONNECT" ∧ reply.status.isSuccess) then reply.headOnly else reply

/-- What most resources allow. -/
def reading : String := "GET,HEAD"

/-- The answer to a request for a resource, and what the service keeps from then on. -/
def answer (store : Store) (inquiry : Inquiry) : Route → Reply × Store
  | .repositories => (readOnly inquiry.method reading (.document repositoriesValue), store)
  | .users => (readOnly inquiry.method reading (.document usersValue), store)
  | .empty => (readOnly inquiry.method reading (.bare 200), store)
  | .malformed => (readOnly inquiry.method reading (.text 200 malformedText), store)
  | .headers =>
    (readOnly inquiry.method reading
      (.document (SeenHeaders.record.shape.write (seen inquiry.headers))), store)
  | .guarded => (readOnly inquiry.method reading (guarded inquiry.headers), store)
  | .status segment => (anyMethod inquiry.method (status segment), store)
  | .upload =>
    if inquiry.method = "POST" then
      let (reply, kept) := upload inquiry
      (reply, store ++ kept.toList)
    else (readOnly inquiry.method s!"POST,{reading}" (lastUpload store), store)

/-- The answer to a request, and what the service keeps from then on. -/
def handle (store : Store) (inquiry : Inquiry) : Reply × Store :=
  match Route.ofPath? inquiry.target.path with
  | some route => answer store inquiry route
  | none => (.bare 404, store)

/-- The answers to requests, one after the other, and what the service keeps in the end. -/
def run (store : Store) : List Inquiry → List Reply × Store
  | [] => ([], store)
  | inquiry :: inquiries =>
    let (reply, store) := handle store inquiry
    let (replies, store) := run store inquiries
    (reply :: replies, store)

end Courier.Service
