import Courier.Http.Message
import Courier.Settings

set_option autoImplicit false

/-! # Failures

A call fails with what went wrong, and nothing of it is lost on the way. Four statuses have failures of
their own, because a caller acts on them: 401 asks for credentials, 403 tells that these are not enough,
405 and 501 that the server does not take such a request at all.
-/

namespace Courier

inductive Disruption where
  | hostNotFound
  | redirectFailed
  | tooManyRedirects
  | connectionFailed
  | bodyExceedsLimit (limit : Nat)
  | badUri (reason : String)
  | badHeader (reason : String)
  | protocol (reason : String)
  | tls (reason : String)
  | io (reason : String)
  /-- A time limit has passed; `limit` tells which. -/
  | timeout (limit : String)
deriving Repr, DecidableEq

def Disruption.message : Disruption → String
  | .hostNotFound => "host not found"
  | .redirectFailed => "redirect failed"
  | .tooManyRedirects => "too many redirects"
  | .connectionFailed => "connection failed"
  | .bodyExceedsLimit limit => s!"the response body is larger than request limit: {limit}"
  | .badUri reason => s!"bad uri: {reason}"
  | .badHeader reason => s!"http: {reason}"
  | .protocol reason => s!"protocol: {reason}"
  | .tls reason => reason
  | .io reason => s!"io: {reason}"
  | .timeout limit => s!"timeout: {limit}"

/-- Why a request came to no response: it did not get through, or the status of the answer was reported
as a failure in its place. -/
inductive NetworkFailure where
  | statusCode (status : Status)
  | disrupted (disruption : Disruption)
deriving Repr, DecidableEq

def NetworkFailure.message : NetworkFailure → String
  | .statusCode status => s!"http status: {status}"
  | .disrupted disruption => disruption.message

inductive Failure where
  | unauthorized (url : String)
  | forbidden (url : String)
  | notAllowed (url : String)
  | unknownRequest (url : String)
  /-- Any other status that is no success. -/
  | otherStatus (url : String) (status : Status)
  /-- The request came to no response. -/
  | network (failure : NetworkFailure)
  /-- The body could not be read to its end. -/
  | io (reason : String)
  | invalidUtf8 (fault : Utf8.Fault)
  | payload (fault : PayloadFault)
  /-- The client could not be made from its settings. -/
  | settings (fault : SettingsFault)
deriving Repr, DecidableEq

namespace Failure

def message : Failure → String
  | .unauthorized url => s!"unauthorized: {url}"
  | .forbidden url => s!"forbidden: {url}"
  | .notAllowed url => s!"not allowed: {url}"
  | .unknownRequest url => s!"unknown request: {url}"
  | .otherStatus url status => s!"HTTP {status} from {url}"
  | .network failure => s!"transport failure: {failure.message}"
  | .io reason => s!"i/o failure: {reason}"
  | .invalidUtf8 fault => s!"response body is not valid UTF-8: {fault.message}"
  | .payload fault => fault.message
  | .settings fault => s!"invalid transport configuration: {fault.message}"

/-- The failure that a status of `url` is. -/
def ofStatus (url : String) (status : Status) : Failure :=
  if status = 401 then .unauthorized url
  else if status = 403 then .forbidden url
  else if status = 405 then .notAllowed url
  else if status = 501 then .unknownRequest url
  else .otherStatus url status

/-- The failure of a request to `url` that came to no response; a status is told as one. -/
def ofNetwork (url : String) : NetworkFailure → Failure
  | .statusCode status => ofStatus url status
  | .disrupted disruption => .network (.disrupted disruption)

/-- The status behind a failure, if the server gave one. -/
def status? : Failure → Option Status
  | .unauthorized _ => some 401
  | .forbidden _ => some 403
  | .notAllowed _ => some 405
  | .unknownRequest _ => some 501
  | .otherStatus _ status => some status
  | _ => none

/-- The address that the status was given for. -/
def url? : Failure → Option String
  | .unauthorized url => some url
  | .forbidden url => some url
  | .notAllowed url => some url
  | .unknownRequest url => some url
  | .otherStatus url _ => some url
  | _ => none

/-- The failure is one of the four that a caller acts on. -/
def isClassified : Failure → Bool
  | .unauthorized _ => true
  | .forbidden _ => true
  | .notAllowed _ => true
  | .unknownRequest _ => true
  | _ => false

end Failure

/-- The status has a failure of its own. -/
def Status.isClassified (status : Status) : Bool :=
  status == 401 || status == 403 || status == 405 || status == 501

end Courier
