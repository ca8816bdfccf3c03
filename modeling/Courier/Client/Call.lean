import Courier.Client.Basic
import Courier.Client.Exchange

set_option autoImplicit false

/-! # Calls

A call builds one request, and makes a result of what comes back. Fetching wants a success and gives the
text, or the data that the text holds; sending gives the status, whatever it is, unless it is one of the
four that a caller acts on.
-/

namespace Courier

open Json

inductive Call : Type → Type 1 where
  | fetchText (url : String) (credentials : Option Credentials) : Call String
  | sendText (url text : String) (credentials : Option Credentials) : Call Status
  /-- The data of a text; none for an empty text. -/
  | fetch {α : Type} (shape : Shape α) (url : String) (credentials : Option Credentials) :
    Call (Option α)
  /-- Data, and what writes their payload. -/
  | send {β : Type} (write : β → Except DraftFault String) (data : β) (url : String)
    (credentials : Option Credentials) : Call Status
  | execute (request : Request) : Call Response

/-- A status that is taken for a failure. -/
def rejection {α : Type} (url : String) (status : Status) : Report α :=
  let failure := Failure.ofStatus url status
  ⟨.error failure, [.rejected failure url status]⟩

/-- The text of a response, if it is a success. -/
def Response.text (response : Response) (url : String) : Report String :=
  if response.isSuccess then .done response.body else rejection url response.status

/-- The data of a text; an empty text holds none. -/
def decodeText {α : Type} (shape : Shape α) (text : String) : Report (Option α) :=
  if text.isEmpty then .done none
  else
    match shape.decode text with
    | .ok a => .done (some a)
    | .error fault => .failed (.payload fault)

/-- The status of a response, unless a caller has to act on it. -/
def Response.accepted (response : Response) (url : String) : Report Status :=
  if response.status.isClassified then rejection url response.status else .done response.status

namespace Call

/-- The request of a call; there is none when its data cannot be written. -/
def request? (client : Client) {α : Type} : Call α → Except Failure Request
  | .fetchText url credentials => .ok (client.fetchRequest url credentials)
  | .sendText url text credentials => .ok (client.sendRequest url text credentials)
  | .fetch _ url credentials => .ok (client.fetchRequest url credentials)
  | .send write data url credentials =>
    match encodeWith write data with
    | .ok text => .ok (client.sendRequest url text credentials)
    | .error fault => .error (.payload fault)
  | .execute request => .ok request

/-- What a call makes of a response. -/
def conclude {α : Type} : Call α → Response → Report α
  | .fetchText url _, response => response.text url
  | .sendText url _ _, response => response.accepted url
  | .fetch shape url _, response => (response.text url).andThen (decodeText shape)
  | .send _ _ url _, response => response.accepted url
  | .execute _, response => .done response

def run (client : Client) {α σ : Type} (call : Call α) (network : Network σ) (state : σ) :
    Report α × σ :=
  match call.request? client with
  | .error failure => (.failed failure, state)
  | .ok request =>
    let (outcome, state) := network request state
    ((request.report outcome).andThen call.conclude, state)

end Call

end Courier
