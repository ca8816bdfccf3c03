import Courier.Proofs.Credentials
import Courier.Proofs.Session
import Mathlib.Data.List.Forall2

set_option autoImplicit false

/-! # Secrets stay in the `Authorization` header

Two sessions are compared whose calls differ in nothing but secrets, each with servers of its own. If the
servers answer alike, then nobody who sees results, failures and events can tell the sessions apart
(`Session.Sight`), and the requests are the same up to the values of `Authorization` headers.

One call is dealt with first: what a call hands to the network has the secret in no other place
(`Call.SameButSecrets.request?`), and what it makes of an outcome does not look at its credentials
(`Call.SameButSecrets.conclude`). Sessions follow call by call.
-/

namespace Courier

open Json

/-! ## What may differ -/

/-- Credentials of one user. Their secrets may differ. -/
def Credentials.SameUser (c d : Credentials) : Prop := c.username = d.username

structure Headers.SameButToken (header header' : String × String) : Prop where
  name : header.1 = header'.1
  value : Headers.sameName header.1 "Authorization" = false → header.2 = header'.2

/-- One request, but for the values of `Authorization` headers. -/
structure Request.SameButToken (request request' : Request) : Prop where
  method : request.method = request'.method
  url : request.url = request'.url
  headers : List.Forall₂ Headers.SameButToken request.headers request'.headers
  body : request.body = request'.body

/-- One call, but for the secrets of its credentials. A call that executes a request brings no credentials;
those that are in the request may differ. -/
inductive Call.SameButSecrets : {α : Type} → Call α → Call α → Prop where
  | fetchText (url : String) {c d : Option Credentials} (user : Option.Rel Credentials.SameUser c d) :
    SameButSecrets (.fetchText url c) (.fetchText url d)
  | sendText (url text : String) {c d : Option Credentials}
    (user : Option.Rel Credentials.SameUser c d) :
    SameButSecrets (.sendText url text c) (.sendText url text d)
  | fetch {α : Type} (shape : Shape α) (url : String) {c d : Option Credentials}
    (user : Option.Rel Credentials.SameUser c d) : SameButSecrets (.fetch shape url c) (.fetch shape url d)
  | send {β : Type} (write : β → Except DraftFault String) (data : β) (url : String)
    {c d : Option Credentials} (user : Option.Rel Credentials.SameUser c d) :
    SameButSecrets (.send write data url c) (.send write data url d)
  | execute {request request' : Request} (same : request.SameButToken request') :
    SameButSecrets (.execute request) (.execute request')

/-- One call, whatever the type of its result, but for the secrets of its credentials. -/
inductive AnyCall.SameButSecrets : AnyCall → AnyCall → Prop where
  | mk {α : Type} {call call' : Call α} (same : call.SameButSecrets call') :
    SameButSecrets ⟨call⟩ ⟨call'⟩

/-! ## What may be seen -/

def Call.credentials? {α : Type} : Call α → Option Credentials
  | .fetchText _ credentials => credentials
  | .sendText _ _ credentials => credentials
  | .fetch _ _ credentials => credentials
  | .send _ _ _ credentials => credentials
  | .execute _ => none

/-- What is seen of a session: the client and its credentials as messages show them, what the client has
logged when it was made, and for each call the result or the failure with all events on the way to it. The
texts of failures and events are made of these and of nothing else. -/
structure Session.Sight where
  client : String
  credentials : List (Option String)
  opening : List Event
  reports : List AnyReport

/-- What is seen of the session in which a client makes calls over a network. -/
def Session.sight {σ : Type} (client : Client) (network : Network σ) (calls : List AnyCall) (state : σ) :
    Session.Sight where
  client := client.shown
  credentials := calls.map fun call => call.call.credentials?.map Credentials.shown
  opening := client.openingEvents
  reports := (Session.run client network calls state).1

/-! ## Requests -/

section Requests

variable {c d : Option Credentials}

theorem Headers.SameButToken.refl (header : String × String) : Headers.SameButToken header header :=
  ⟨rfl, fun _ => rfl⟩

theorem Headers.sameButToken_refl (headers : Headers) :
    List.Forall₂ Headers.SameButToken headers headers :=
  List.forall₂_same.2 fun header _ => .refl header

theorem Client.sameButToken_standingHeaders (client : Client) (user : Option.Rel Credentials.SameUser c d) :
    List.Forall₂ Headers.SameButToken (client.standingHeaders c) (client.standingHeaders d) := by
  unfold standingHeaders
  refine List.rel_append (Headers.sameButToken_refl _) ?_
  cases user with
  | none => exact .nil
  | @some c d _ =>
    have token : Headers.sameName "Authorization" "Authorization" = true := by decide
    exact .cons ⟨rfl, fun other => absurd (token.symm.trans other) (by decide)⟩ .nil

theorem Client.sameButToken_fetchRequest (client : Client) (url : String)
    (user : Option.Rel Credentials.SameUser c d) :
    (client.fetchRequest url c).SameButToken (client.fetchRequest url d) where
  method := rfl
  url := rfl
  headers := .cons (.refl _) (client.sameButToken_standingHeaders user)
  body := rfl

theorem Client.sameButToken_sendRequest (client : Client) (url text : String)
    (user : Option.Rel Credentials.SameUser c d) :
    (client.sendRequest url text c).SameButToken (client.sendRequest url text d) where
  method := rfl
  url := rfl
  headers := .cons (.refl _) (.cons (.refl _) (client.sameButToken_standingHeaders user))
  body := rfl

/-- What is made and told of an outcome depends on the method and the address of the request. -/
theorem Request.SameButToken.report {request request' : Request} (same : request.SameButToken request')
    (outcome : Outcome) : request.report outcome = request'.report outcome := by
  unfold Request.report Request.conclude
  rw [same.method, same.url]

end Requests

/-! ## One call -/

namespace Call.SameButSecrets

variable {α σ τ : Type} {call call' : Call α}

/-- Two calls that differ in secrets have requests that differ in tokens, or they have none for the same
reason. -/
theorem request? (same : call.SameButSecrets call') (client : Client) :
    (∃ failure, call.request? client = .error failure ∧ call'.request? client = .error failure) ∨
      ∃ request request', call.request? client = .ok request ∧ call'.request? client = .ok request' ∧
        request.SameButToken request' := by
  cases same with
  | fetchText url user => exact .inr ⟨_, _, rfl, rfl, client.sameButToken_fetchRequest url user⟩
  | sendText url text user => exact .inr ⟨_, _, rfl, rfl, client.sameButToken_sendRequest url text user⟩
  | fetch _ url user => exact .inr ⟨_, _, rfl, rfl, client.sameButToken_fetchRequest url user⟩
  | send write data url user =>
    unfold Call.request?
    simp only
    -- The data are written before the credentials are looked at.
    cases encodeWith write data with
    | error fault => exact .inl ⟨_, rfl, rfl⟩
    | ok text => exact .inr ⟨_, _, rfl, rfl, client.sameButToken_sendRequest url text user⟩
  | execute request => exact .inr ⟨_, _, rfl, rfl, request⟩

theorem conclude (same : call.SameButSecrets call') : call.conclude = call'.conclude := by
  cases same with
  | fetchText url _ => rfl
  | sendText url text _ => rfl
  | fetch shape url _ => rfl
  | send write data url _ => rfl
  | execute _ => rfl

theorem shown (same : call.SameButSecrets call') :
    call.credentials?.map Credentials.shown = call'.credentials?.map Credentials.shown := by
  have shown {c d : Option Credentials} (user : Option.Rel Credentials.SameUser c d) :
      c.map Credentials.shown = d.map Credentials.shown := by
    cases user with
    | none => rfl
    | @some c d user =>
      have user : c.username = d.username := user
      show some c.shown = some d.shown
      unfold Credentials.shown
      rw [user]
  cases same with
  | fetchText url user => exact shown user
  | sendText url text user => exact shown user
  | fetch shape url user => exact shown user
  | send write data url user => exact shown user
  | execute _ => rfl

/-- What one call comes to, and what it exchanges, when both calls have the same outcome. -/
theorem run (same : call.SameButSecrets call') (client : Client) (network : Network σ)
    (network' : Network τ) (state : σ) (state' : τ)
    (answered : (call.exchange? client network state).map Prod.snd
      = (call'.exchange? client network' state').map Prod.snd) :
    (call.run client network state).1 = (call'.run client network' state').1 := by
  unfold Call.run
  unfold Call.exchange? at answered
  rcases same.request? client with ⟨failure, none, none'⟩ | ⟨request, request', one, one', tokens⟩
  · rw [none, none']
  · rw [one, one'] at answered
    have outcome : (network request state).1 = (network' request' state').1 := Option.some.inj answered
    rw [one, one']
    show (request.report (network request state).1).andThen call.conclude
      = (request'.report (network' request' state').1).andThen call'.conclude
    rw [outcome, tokens.report, same.conclude]

/-- Whether there is an exchange, and its request up to the token, does not depend on the networks. -/
theorem exchange? (same : call.SameButSecrets call') (client : Client) (network : Network σ)
    (network' : Network τ) (state : σ) (state' : τ) :
    (call.exchange? client network state = none ∧ call'.exchange? client network' state' = none) ∨
      ∃ request request', request.SameButToken request' ∧
        call.exchange? client network state = some (request, (network request state).1) ∧
        call'.exchange? client network' state' = some (request', (network' request' state').1) := by
  unfold Call.exchange?
  rcases same.request? client with ⟨failure, none, none'⟩ | ⟨request, request', one, one', tokens⟩
  · rw [none, none']
    exact .inl ⟨rfl, rfl⟩
  · rw [one, one']
    exact .inr ⟨request, request', tokens, rfl, rfl⟩

end Call.SameButSecrets

/-! ## Sessions -/

/-- The network does not look at tokens: it treats requests alike that differ in nothing else. -/
def Network.Blind {σ : Type} (network : Network σ) : Prop :=
  ∀ (request request' : Request) (state : σ), request.SameButToken request' →
    network request state = network request' state

/-- A network that has its outcomes in store, whatever it is asked. -/
def Network.stored : Network (List Outcome) := fun _ outcomes =>
  match outcomes with
  | [] => (.error (.disrupted .connectionFailed), [])
  | outcome :: outcomes => (outcome, outcomes)

theorem Network.stored_blind : Network.stored.Blind := fun _ _ _ _ => rfl

namespace Session

variable {σ τ : Type} (client : Client) {calls calls' : List AnyCall}

/-- Sessions whose calls differ in secrets, and whose exchanges have the same outcomes, come to the same in
every call. Their requests differ in tokens. -/
theorem run_of_sameButSecrets (network : Network σ) (network' : Network τ) (state : σ) (state' : τ)
    (same : List.Forall₂ AnyCall.SameButSecrets calls calls')
    (answered : (exchanges client network calls state).map Prod.snd
      = (exchanges client network' calls' state').map Prod.snd) :
    (run client network calls state).1 = (run client network' calls' state').1 ∧
      List.Forall₂ Request.SameButToken ((exchanges client network calls state).map Prod.fst)
        ((exchanges client network' calls' state').map Prod.fst) := by
  induction same generalizing state state' with
  | nil => exact ⟨rfl, .nil⟩
  | cons first rest ih =>
    obtain ⟨first⟩ := first
    simp only [exchanges, List.map_append] at answered ⊢
    -- Both first calls have an exchange, or both have none; so the outcomes part at the same place.
    rcases first.exchange? client network network' state state' with
      ⟨none, none'⟩ | ⟨request, request', tokens, one, one'⟩
    · have report := first.run client network network' state state' (by rw [none, none'])
      rw [none, none'] at answered ⊢
      obtain ⟨reports, requests⟩ := ih _ _ answered
      refine ⟨?_, requests⟩
      simp only [run, report, reports]
    · rw [one, one'] at answered ⊢
      obtain ⟨outcome, answered⟩ := List.cons.inj answered
      have report := first.run client network network' state state' (by
        rw [one, one']
        exact congrArg some outcome)
      obtain ⟨reports, requests⟩ := ih _ _ answered
      refine ⟨?_, .cons tokens requests⟩
      simp only [run, report, reports]

theorem shown_of_sameButSecrets (same : List.Forall₂ AnyCall.SameButSecrets calls calls') :
    (calls.map fun call => call.call.credentials?.map Credentials.shown)
      = calls'.map fun call => call.call.credentials?.map Credentials.shown := by
  induction same with
  | nil => rfl
  | cons first rest ih =>
    obtain ⟨first⟩ := first
    rw [List.map_cons, List.map_cons, ih]
    exact congrArg (· :: _) first.shown

/-- A network that does not look at tokens gives the same outcomes in both sessions. -/
theorem answered_of_blind {network : Network σ} (blind : network.Blind) (state : σ)
    (same : List.Forall₂ AnyCall.SameButSecrets calls calls') :
    (exchanges client network calls state).map Prod.snd
      = (exchanges client network calls' state).map Prod.snd := by
  induction same generalizing state with
  | nil => rfl
  | cons first rest ih =>
    obtain ⟨first⟩ := first
    simp only [exchanges, List.map_append]
    unfold Call.exchange? Call.run
    rcases first.request? client with ⟨failure, none, none'⟩ | ⟨request, request', one, one', tokens⟩
    · rw [none, none', ih]
    · rw [one, one']
      simp only [blind request request' state tokens, ih]
      rfl

/-- What is seen of a session, and what its requests are up to tokens, does not depend on the secrets of the
credentials. The calls may be any, and the servers may be others, as long as each request has the same
outcome in both sessions. -/
theorem secrets_kept (network : Network σ) (network' : Network τ) (state : σ) (state' : τ)
    (same : List.Forall₂ AnyCall.SameButSecrets calls calls')
    (answered : (exchanges client network calls state).map Prod.snd
      = (exchanges client network' calls' state').map Prod.snd) :
    sight client network calls state = sight client network' calls' state' ∧
      List.Forall₂ Request.SameButToken ((exchanges client network calls state).map Prod.fst)
        ((exchanges client network' calls' state').map Prod.fst) := by
  obtain ⟨reports, requests⟩ := run_of_sameButSecrets client network network' state state' same answered
  refine ⟨?_, requests⟩
  unfold sight
  rw [shown_of_sameButSecrets same, reports]

/-- Five calls of different kinds, one of them with data that cannot be sent: nothing that is seen of them
tells the one secret from the other, though the headers do. -/
theorem secrets_kept_of_five_calls :
    let client : Client := ⟨{}, rfl⟩
    let calls (c : Credentials) : List AnyCall :=
      [⟨.fetchText "http://localhost/a" (some c)⟩,
        ⟨.sendText "http://localhost/b" "text" (some c)⟩,
        ⟨.fetch .text "http://localhost/c" (some c)⟩,
        ⟨.send Draft.text (.object [(.list [], .null)]) "http://localhost/d" (some c)⟩,
        ⟨.execute (client.fetchRequest "http://localhost/e" (some c))⟩]
    let outcomes : List Outcome :=
      [.ok ⟨401, [], []⟩, .ok ⟨403, [], []⟩, .ok ⟨200, [], [.piece [0x22]]⟩,
        .error (.disrupted (.timeout "global"))]
    let c : Credentials := ⟨"alice", "swordfish", by decide, by decide⟩
    let d : Credentials := ⟨"alice", "open sesame", by decide, by decide⟩
    sight client Network.stored (calls c) outcomes = sight client Network.stored (calls d) outcomes ∧
      List.Forall₂ Request.SameButToken
        ((exchanges client Network.stored (calls c) outcomes).map Prod.fst)
        ((exchanges client Network.stored (calls d) outcomes).map Prod.fst) ∧
      (exchanges client Network.stored (calls c) outcomes).length = 4 ∧
      c.header ≠ d.header := by
  intro client calls outcomes c d
  have user : Option.Rel Credentials.SameUser (some c) (some d) := .some rfl
  have same : List.Forall₂ AnyCall.SameButSecrets (calls c) (calls d) :=
    .cons ⟨.fetchText _ user⟩ <| .cons ⟨.sendText _ _ user⟩ <| .cons ⟨.fetch _ _ user⟩ <|
    .cons ⟨.send _ _ _ user⟩ <| .cons ⟨.execute (client.sameButToken_fetchRequest _ user)⟩ .nil
  have answered := answered_of_blind client Network.stored_blind outcomes same
  obtain ⟨seen, requests⟩ := secrets_kept client Network.stored Network.stored outcomes outcomes same answered
  refine ⟨seen, requests, rfl, ?_⟩
  rw [Ne, Credentials.header_eq_iff]
  decide

end Session

end Courier
