import Courier.Proofs.Fetching
import Courier.Proofs.Uploads

set_option autoImplicit false

/-! # The service behind a network

A network reaches a path of the service from an address if whatever it answers there is a reply of the service
(`Network.Reaches`). On the way there headers may be put to a request, and on the way back a reply may be cut into
pieces; what the service keeps is read off the state of the network by a function. The replies then tell what a
client makes of them: a document gives the data in it, and a bare status that is no success gives its failure.
-/

namespace Courier

open Json Service

/-! ## There and back -/

def seenNames : List String :=
  ["authorization", "accept-charset", "cache-control", "content-type", "content-length"]

/-- A request as it comes to a path. Of its headers those that the service looks at are as they were sent. -/
structure Request.ArrivesAs (request : Request) (path : List Char) (inquiry : Inquiry) : Prop where
  method : inquiry.method = request.method.name
  path : inquiry.target.path = path
  headers : ∀ name ∈ seenNames, inquiry.headers.get? name = request.headers.get? name
  body : inquiry.body = request.body.getD []

/-- A reply as it comes back, with its status and all bytes of its body. -/
structure Service.Reply.ReturnsAs (reply : Reply) (answer : Answer) : Prop where
  status : answer.status = reply.status
  body : Delivers answer.body (Utf8.encode reply.body.toList)

/-- The client builds the request to fetch from an address or to send to it. -/
inductive Client.Builds (client : Client) (url : String) : Request → Prop where
  | fetch (credentials : Option Credentials) : Builds client url (client.fetchRequest url credentials)
  | send (text : String) (credentials : Option Credentials) :
    Builds client url (client.sendRequest url text credentials)

/-- What the network answers to the requests of a client for an address are replies of the service at a path, which
keeps `kept state` in each state of the network; and where one of the requests is answered, every fetch is. -/
structure Network.Reaches {σ : Type} (network : Network σ) (client : Client) (url : String) (path : List Char)
    (kept : σ → Store) : Prop where
  served : ∀ {request : Request} {state : σ} {answer : Answer}, client.Builds url request →
    (network request state).1 = .ok answer →
    ∃ inquiry, request.ArrivesAs path inquiry ∧ (handle (kept state) inquiry).1.ReturnsAs answer ∧
      kept (network request state).2 = (handle (kept state) inquiry).2
  steady : ∀ {request : Request} {state : σ} {answer : Answer}, client.Builds url request →
    (network request state).1 = .ok answer → ∀ credentials later,
    ∃ other, (network (client.fetchRequest url credentials) later).1 = .ok other

/-! ## What the service sees -/

theorem Service.plainHeader?_some {headers : Headers} {name value : String} (h : headers.get? name = some value)
    (plain : value.toList.all Headers.isPlain = true) : plainHeader? headers name = some value := by
  unfold plainHeader?
  rw [h, Option.filter_some, if_pos plain]

theorem Service.plainHeader?_none {headers : Headers} {name : String} (h : headers.get? name = none) :
    plainHeader? headers name = none := by
  unfold plainHeader?
  rw [h]
  rfl

/-- A header that the client sends is seen, if it shows. -/
theorem Request.ArrivesAs.plainHeader?_eq {request : Request} {path : List Char} {inquiry : Inquiry}
    (arrives : request.ArrivesAs path inquiry) {name : String} (seen : name ∈ seenNames) {value? : Option String}
    (sent : request.headers.get? name = value?)
    (plain : ∀ value, value? = some value → value.toList.all Headers.isPlain = true) :
    plainHeader? inquiry.headers name = value? := by
  have told := (arrives.headers name seen).trans sent
  cases value? with
  | none => exact plainHeader?_none told
  | some value => exact plainHeader?_some told (plain value rfl)

/-! ## What is made of a reply -/

theorem document_ne_empty (v : Value) : (Reply.document v).body ≠ "" := by
  intro empty
  -- Any written value begins with some character.
  obtain ⟨c, t, ht, -⟩ := Tree.render_head .compact 0 v
  have chars : (Reply.document v).body.toList = c :: t := by
    show (String.ofList (v.render .compact 0)).toList = _
    rw [String.toList_ofList, ht]
  rw [empty] at chars
  cases chars

section Fetch

variable {α σ : Type} {client : Client} {network : Network σ} {state : σ} {url : String} {shape : Shape α}
  {credentials : Option Credentials} {answer : Answer}

theorem fetch_document (answered : (network (client.fetchRequest url credentials) state).1 = .ok answer) {v : Value}
    {a : α} (returns : (Reply.document v).ReturnsAs answer) (holds : shape.decode (Reply.document v).body = .ok a) :
    ((Call.fetch shape url credentials).run client network state).1.result = .ok (some a) := by
  refine (Call.fetch_eq_some_iff client _ _ _ answered).2 ⟨?_, _, document_ne_empty v, returns.body, holds⟩
  rw [returns.status]
  show 200 ≤ 200 ∧ 200 ≤ 299
  decide

theorem fetch_bare (answered : (network (client.fetchRequest url credentials) state).1 = .ok answer) {status : Status}
    (returns : (Reply.bare status).ReturnsAs answer) (noSuccess : 300 ≤ status) :
    ((Call.fetch shape url credentials).run client network state).1.result
      = .error (Failure.ofStatus url status) := by
  have told : answer.status = status := returns.status
  have body : bodyText answer.body = .ok "" := bodyText_eq_ok_iff.2 returns.body
  have failing : ¬status.isSuccess = true := fun h =>
    absurd (Status.isSuccess_iff.1 h).2 (Nat.not_le.2 (Nat.lt_of_lt_of_le (by decide) noSuccess))
  have failed : ((Call.fetchText url credentials).run client network state).1.result
      = .error (Failure.ofStatus url status) := by
    rw [Call.result_fetchText client url credentials answered, body, told]
    exact if_neg failing
  rw [Call.result_fetch, failed]
  rfl

end Fetch

end Courier
