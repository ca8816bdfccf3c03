import Courier.Client.Event

set_option autoImplicit false

/-! # One exchange with a server

A request is handed to a network, and what comes back is an answer or the reason why there is none. The
body of an answer comes in pieces, and reading it may fail at any of them. An answer with any status is a
response. The body is read for a GET only.
-/

namespace Courier

/-- What one read of a body gives. -/
inductive BodyRead where
  | piece (bytes : List UInt8)
  | failed (reason : String)
deriving Repr, DecidableEq

/-- What a server sends back. The body is told by the reads that would be made of it. -/
structure Answer where
  status : Status
  headers : Headers
  body : List BodyRead
deriving Repr, DecidableEq

/-- What comes of a request. -/
abbrev Outcome := Except NetworkFailure Answer

/-- Where requests go: it gives the outcome of one, and may change by it. -/
abbrev Network (σ : Type) := Request → σ → Outcome × σ

/-- Joins the pieces of a body until a read fails, gives an empty piece, or nothing is left to read; `acc`
holds the bytes so far, the last one first. -/
def joinReads (acc : List UInt8) : List BodyRead → Except Failure (List UInt8)
  | [] => .ok acc.reverse
  | .failed reason :: _ => .error (.io reason)
  | .piece [] :: _ => .ok acc.reverse
  | .piece (b :: bs) :: reads => joinReads ((b :: bs).reverseAux acc) reads

/-- The text of a body. Only the whole of it has to be UTF-8, so a character may be cut between pieces. -/
def bodyText (reads : List BodyRead) : Except Failure String :=
  match joinReads [] reads with
  | .error failure => .error failure
  | .ok bytes =>
    match Utf8.decode bytes with
    | .ok cs => .ok (String.ofList cs)
    | .error fault => .error (.invalidUtf8 fault)

def plainHeaders (headers : Headers) : Headers :=
  headers.filter fun header => header.2.toList.all Headers.isPlain

/-- The response that an answer is, when its body has been read or passed over. -/
def Answer.response (answer : Answer) (body : String) : Response :=
  ⟨answer.status, plainHeaders answer.headers, body⟩

/-- What a client makes of the outcome of a request. -/
def Request.conclude (request : Request) (outcome : Outcome) : Except Failure Response :=
  match outcome with
  | .error failure => .error (.ofNetwork request.url failure)
  | .ok answer =>
    match request.method with
    | .get => (bodyText answer.body).map answer.response
    | .post => .ok (answer.response "")

/-- What a client makes and tells of the outcome of a request. -/
def Request.report (request : Request) (outcome : Outcome) : Report Response :=
  match request.conclude outcome with
  | .error failure => ⟨.error failure, [.sending request.method request.url]⟩
  | .ok response => ⟨.ok response,
      [.sending request.method request.url,
       .received response.status (Utf8.size response.body.toList) request.url]⟩

end Courier
