import Courier.Http.Body
import Courier.Wire.Site

set_option autoImplicit false

/-! # The way of an answer to a client

An answer comes as bytes: its headers, and then its body. A client reads the headers at once, and the body
when it is asked for. It undoes the compression of a body, and then the headers that tell of it, and of a
length that is no longer true, are taken away.
-/

namespace Courier

/-- The reads that are made of a body: it comes in one piece, and without bytes there is no piece. -/
def BodyRead.ofBody : Except Extent.Fault (List UInt8) → List BodyRead
  | .ok [] => []
  | .ok (b :: bytes) => [.piece (b :: bytes)]
  | .error fault => [.failed fault.message]

def decompress (body : Except Extent.Fault (List UInt8)) : Except Extent.Fault (List UInt8) :=
  match body with
  | .error fault => .error fault
  | .ok bytes =>
    match Gzip.decode? bytes with
    | some bytes => .ok bytes
    | none => .error .badCompression

namespace Answer

/-- The answer that headers give together with what follows them. -/
def ofParts (status : Status) (headers : Headers) (extent : Extent) (bytes : List UInt8) : Answer :=
  let body := extent.cut bytes
  if headers.isCompressed then
    ⟨status, (headers.without "content-encoding").without "content-length",
      BodyRead.ofBody (decompress body)⟩
  else ⟨status, headers, BodyRead.ofBody body⟩

/-- What comes of a status and the bytes after it. -/
def read (status : Status) (bytes : List UInt8) : Outcome :=
  match Head.read bytes with
  | .error fault => .error (.disrupted (.protocol fault.message))
  | .ok (headers, rest) =>
    match Extent.of status headers with
    | .error fault => .error (.disrupted (.protocol fault.message))
    | .ok extent => .ok (ofParts status headers extent rest)

end Answer

end Courier
