import Courier.Gzip
import Courier.Http.Chunked
import Courier.Http.Head
import Courier.Http.Message

set_option autoImplicit false

/-! # The body of an answer

Where the body of an answer ends is told by its status and its headers. Some statuses have no body at all;
chunks come before a length that is told as well; and without either the body goes on until the
connection is closed, except for a redirection, which then has none. The bytes of a body may be
compressed, and a client undoes that.
-/

namespace Courier

/-- A status whose answers have no body, whatever their headers say. -/
def Status.isBodiless (status : Status) : Bool := status < 200 || status == 204 || status == 304

/-- A status that sends a client elsewhere. -/
def Status.isRedirection (status : Status) : Bool := 300 ≤ status && status < 400

namespace Headers

/-- The length that headers tell. They may tell it again and again, in one header or in several, but it
must be the same each time. -/
def length? (headers : Headers) : Except Head.Fault (Option Nat) :=
  match members (headers.getAll "content-length") with
  | [] => .ok none
  | first :: others =>
    match Decimal.word? 64 first with
    | none => .error .badLength
    | some length =>
      if others.all fun other => Decimal.word? 64 other == some length then .ok (some length)
      else .error .badLength

/-- The name of the coding in chunks, whatever the case of its letters. -/
def isChunks (coding : List Char) : Bool := coding.map Char.toLower == "chunked".toList

def codings (headers : Headers) : List (List Char) := members (headers.getAll "transfer-encoding")

/-- One of the codings of the body is that in chunks. -/
def isChunked (headers : Headers) : Bool := headers.codings.any isChunks

/-- The bytes of the body are compressed. -/
def isCompressed (headers : Headers) : Bool := headers.get? "content-encoding" == some "gzip"

def without (headers : Headers) (name : String) : Headers :=
  headers.filter fun header => !sameName header.1 name

end Headers

/-- Where a body ends. -/
inductive Extent where
  /-- There is none. -/
  | nothing
  /-- After so many bytes. -/
  | after (count : Nat)
  /-- After the last chunk. -/
  | chunks
  /-- Where the connection is closed. -/
  | close
deriving Repr, DecidableEq

namespace Extent

/-- Why a body cannot be read to its end. -/
inductive Fault where
  | cutShort
  | badChunk
  | badCompression
deriving Repr, DecidableEq

def Fault.message : Fault → String
  | .cutShort => "the body is cut short"
  | .badChunk => "the body is not in chunks"
  | .badCompression => "the body is not compressed data"

/-- Where the body of an answer ends. A length that the headers tell must make sense, even where it does not
count. -/
def of (status : Status) (headers : Headers) : Except Head.Fault Extent :=
  match headers.length? with
  | .error fault => .error fault
  | .ok length =>
    if status.isBodiless then .ok .nothing
    else if headers.isChunked then .ok .chunks
    else
      match length with
      | some length => .ok (.after length)
      | none => if status.isRedirection then .ok .nothing else .ok .close

/-- The body that bytes begin with, when nothing follows them. -/
def cut (bytes : List UInt8) : Extent → Except Fault (List UInt8)
  | .nothing => .ok []
  | .after count =>
    let body := bytes.take count
    if body.length = count then .ok body else .error .cutShort
  | .chunks =>
    match Chunked.read? bytes with
    | some (body, _) => .ok body
    | none => .error .badChunk
  | .close => .ok bytes

end Extent

end Courier
