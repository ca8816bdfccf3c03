import Courier.Proofs.Sending

set_option autoImplicit false

/-! # How a call comes to its result

All calls go the same way: there is a request, unless the data of the call cannot be written
(`Call.request?_eq_error_iff`); the exchange gives a response or a failure, which has a status only if the network
reports one in place of an answer (`Request.conclude_eq_error`); and the status of the response is taken for a
failure or not, by what the call is for (`Call.conclude_cases`). Results about every call are read off these three
steps; a failure of a call is one of six kinds (`Call.FailsBy`).
-/

namespace Courier

open Json

namespace Call

variable {α : Type}

/-! ## What is told of a call -/

inductive Purpose where
  | fetching
  | sending
  | executing
deriving Repr, DecidableEq

def purpose : Call α → Purpose
  | .fetchText .. => .fetching
  | .sendText .. => .sending
  | .fetch .. => .fetching
  | .send .. => .sending
  | .execute _ => .executing

def url : Call α → String
  | .fetchText url _ => url
  | .sendText url _ _ => url
  | .fetch _ url _ => url
  | .send _ _ url _ => url
  | .execute request => request.url

def method : Call α → Method
  | .fetchText .. => .get
  | .sendText .. => .post
  | .fetch .. => .get
  | .send .. => .post
  | .execute request => request.method

def Unwritable : Call α → PayloadFault → Prop
  | .send write data _ _, fault => encodeWith write data = .error fault
  | _, _ => False

/-- The statuses that are taken for a failure. -/
def Purpose.Refuses : Purpose → Status → Prop
  | .fetching, status => ¬(200 ≤ status ∧ status ≤ 299)
  | .sending, status => status = 401 ∨ status = 403 ∨ status = 405 ∨ status = 501
  | .executing, _ => False

theorem method_of_sending {call : Call α} (h : call.purpose = .sending) : call.method = .post := by
  cases call with
  | sendText url text credentials => rfl
  | send write data url credentials => rfl
  | _ => cases h

/-! ## The request -/

variable {client : Client} {call : Call α}

theorem request?_send {β : Type} (write : β → Except DraftFault String) (data : β) (url : String)
    (credentials : Option Credentials) :
    (send write data url credentials).request? client =
      ((encodeWith write data).mapError .payload).map fun text => client.sendRequest url text credentials := by
  unfold request?
  cases written : encodeWith write data with
  | ok text =>
    simp only [written]
    rfl
  | error fault =>
    simp only [written]
    rfl

theorem request?_eq_error_iff {failure : Failure} :
    call.request? client = .error failure ↔ ∃ fault, call.Unwritable fault ∧ failure = .payload fault := by
  cases call with
  | send write data url credentials =>
    rw [request?_send, Except.map_eq_error_iff, Except.mapError_eq_error_iff]
    simp only [Unwritable, eq_comm]
  | _ => simp [request?, Unwritable]

theorem told_of_request? {request : Request} (h : call.request? client = .ok request) :
    request.method = call.method ∧ request.url = call.url := by
  cases call with
  | send write data url credentials =>
    rw [request?_send] at h
    obtain ⟨text, -, rfl⟩ := Except.map_eq_ok_iff.1 h
    exact ⟨rfl, rfl⟩
  | _ =>
    obtain rfl := Except.ok.inj h
    exact ⟨rfl, rfl⟩

end Call

/-! ## The response -/

/-- A status always comes with an answer: none is reported as a failure in place of one. -/
def Outcome.KeepsStatus (outcome : Outcome) : Prop := ∀ status, outcome ≠ .error (.statusCode status)

/-- All exchanges over the network are such. -/
def Network.KeepsStatus {σ : Type} (network : Network σ) : Prop :=
  ∀ request state, Outcome.KeepsStatus (network request state).1

/-- Without a response there is no status, unless one is reported in its place. A body is read for a GET only, so
nothing can be wrong with one for a POST. -/
theorem Request.conclude_eq_error {request : Request} {outcome : Outcome} {failure : Failure}
    (h : request.conclude outcome = .error failure) :
    (∃ status, outcome = .error (.statusCode status) ∧ failure = .ofStatus request.url status) ∨
      (∃ disruption, failure = .network (.disrupted disruption)) ∨
      (request.method = .get ∧ ((∃ reason, failure = .io reason) ∨ ∃ fault, failure = .invalidUtf8 fault)) := by
  cases outcome with
  | error report =>
    cases report with
    | statusCode status => exact .inl ⟨status, rfl, (Except.error.inj h).symm⟩
    | disrupted disruption => exact .inr (.inl ⟨disruption, (Except.error.inj h).symm⟩)
  | ok answer =>
    right
    unfold conclude at h
    cases method : request.method with
    | get =>
      rw [method] at h
      have h : (bodyText answer.body).map answer.response = .error failure := h
      refine .inr ⟨rfl, ?_⟩
      rcases bodyText_cases answer.body with ⟨text, -, read⟩ | ⟨-, fault, -, -, read⟩ | ⟨reason, -, read⟩
      all_goals rw [read] at h
      · cases h
      · exact .inr ⟨fault, (Except.error.inj h).symm⟩
      · exact .inl ⟨reason, (Except.error.inj h).symm⟩
    | post =>
      rw [method] at h
      cases h

theorem Request.body_of_post {request : Request} {outcome : Outcome} {response : Response}
    (h : request.conclude outcome = .ok response) (post : request.method = .post) : response.body = "" := by
  cases outcome with
  | error disruption => cases h
  | ok answer =>
    unfold conclude at h
    rw [post] at h
    obtain rfl := Except.ok.inj h
    rfl

namespace Call

variable {α : Type} {call : Call α}

/-- A response tells nothing of itself, unless its status is refused. -/
theorem text_cases (response : Response) (url : String) :
    (Purpose.fetching.Refuses response.status ∧ response.text url = rejection url response.status) ∨
      (¬Purpose.fetching.Refuses response.status ∧ response.text url = .done response.body) := by
  unfold Response.text
  by_cases success : response.isSuccess = true
  · have inRange := Status.isSuccess_iff.1 success
    exact .inr ⟨fun refused => refused inRange, if_pos success⟩
  · exact .inl ⟨fun inRange => success (Status.isSuccess_iff.2 inRange), if_neg success⟩

theorem accepted_cases (response : Response) (url : String) :
    (Purpose.sending.Refuses response.status ∧ response.accepted url = rejection url response.status) ∨
      (¬Purpose.sending.Refuses response.status ∧ response.accepted url = .done response.status) := by
  unfold Response.accepted
  by_cases classified : response.status.isClassified = true
  · exact .inl ⟨Status.isClassified_iff.1 classified, if_pos classified⟩
  · exact .inr ⟨fun refused => classified (Status.isClassified_iff.2 refused), if_neg classified⟩

theorem decodeText_cases (shape : Shape α) (text : String) :
    (∃ found, decodeText shape text = .done found) ∨ ∃ fault, decodeText shape text = .failed (.payload fault) := by
  unfold decodeText
  split
  · exact .inl ⟨none, rfl⟩
  · split
    · exact .inl ⟨_, rfl⟩
    · exact .inr ⟨_, rfl⟩

/-- A report of a result alone tells nothing and does not fail. -/
theorem quiet_of_done {report : Report α} {a : α} (h : report = .done a) (told : Failure → Prop) :
    report.events = [] ∧ ∀ failure, report.result = .error failure → told failure := by
  rw [h]
  exact ⟨rfl, fun _ fails => nomatch fails⟩

/-- What a call makes of a response. Either the status is one that it takes for a failure, and that is told; or
there is nothing to tell, and if it fails all the same, it is a fetch whose text holds no data. -/
theorem conclude_cases (call : Call α) (response : Response) :
    (call.purpose.Refuses response.status ∧ call.conclude response = rejection call.url response.status) ∨
      (¬call.purpose.Refuses response.status ∧ (call.conclude response).events = [] ∧
        ∀ failure, (call.conclude response).result = .error failure →
          call.purpose = .fetching ∧ ∃ fault, failure = .payload fault) := by
  cases call with
  | fetchText url credentials =>
    exact (text_cases response url).imp id fun ⟨accepted, text⟩ => ⟨accepted, quiet_of_done text _⟩
  | fetch shape url credentials =>
    show (_ ∧ (response.text url).andThen (decodeText shape) = _) ∨
      (_ ∧ ((response.text url).andThen (decodeText shape)).events = [] ∧
        ∀ failure, ((response.text url).andThen (decodeText shape)).result = _ → _)
    rcases text_cases response url with ⟨refused, text⟩ | ⟨accepted, text⟩
    all_goals rw [text]
    · exact .inl ⟨refused, rfl⟩
    · refine .inr ⟨accepted, ?_⟩
      show (decodeText shape response.body).events = [] ∧
        ∀ failure, (decodeText shape response.body).result = _ → _
      rcases decodeText_cases shape response.body with ⟨found, decoded⟩ | ⟨fault, decoded⟩
      · exact quiet_of_done decoded _
      · rw [decoded]
        exact ⟨rfl, fun failure same => ⟨rfl, fault, (Except.error.inj same).symm⟩⟩
  | sendText url text credentials =>
    exact (accepted_cases response url).imp id fun ⟨accepted, status⟩ => ⟨accepted, quiet_of_done status _⟩
  | send write data url credentials =>
    exact (accepted_cases response url).imp id fun ⟨accepted, status⟩ => ⟨accepted, quiet_of_done status _⟩
  | execute request => exact .inr ⟨id, quiet_of_done rfl _⟩

/-! ## The result -/

section Run

variable {σ : Type} {client : Client} (network : Network σ) (state : σ)

theorem run_of_request {request : Request} (h : call.request? client = .ok request) :
    (call.run client network state).1 = (request.report (network request state).1).andThen call.conclude := by
  unfold run
  rw [h]

theorem run_of_unwritable {fault : PayloadFault} (h : call.Unwritable fault) :
    (call.run client network state).1 = .failed (.payload fault) := by
  have noRequest : call.request? client = .error (.payload fault) :=
    request?_eq_error_iff.2 ⟨fault, h, rfl⟩
  unfold run
  rw [noRequest]

inductive FailsBy (call : Call α) : Failure → Prop where
  | unwritable {fault : PayloadFault} (h : call.Unwritable fault) : FailsBy call (.payload fault)
  | disrupted (disruption : Disruption) : FailsBy call (.network (.disrupted disruption))
  | unread (get : call.method = .get) (reason : String) : FailsBy call (.io reason)
  | noText (get : call.method = .get) (fault : Utf8.Fault) : FailsBy call (.invalidUtf8 fault)
  | refused {status : Status} (h : call.purpose.Refuses status) : FailsBy call (.ofStatus call.url status)
  | noData (h : call.purpose = .fetching) (fault : PayloadFault) : FailsBy call (.payload fault)

/-- A call fails in no other way, unless the network reports a status in place of an answer. -/
theorem failsBy_of_run {failure : Failure} (h : (call.run client network state).1.result = .error failure) :
    call.FailsBy failure ∨ ¬network.KeepsStatus ∧ ∃ status, failure = .ofStatus call.url status := by
  cases built : call.request? client with
  | error cause =>
    obtain ⟨fault, unwritable, -⟩ := request?_eq_error_iff.1 built
    rw [run_of_unwritable network state unwritable] at h
    obtain rfl := Except.error.inj h
    exact .inl (.unwritable unwritable)
  | ok request =>
    rw [run_of_request network state built, Report.result_andThen, Request.result_report] at h
    cases concluded : request.conclude (network request state).1 with
    | error cause =>
      rw [concluded] at h
      obtain rfl := Except.error.inj h
      obtain ⟨method, url⟩ := told_of_request? built
      rcases Request.conclude_eq_error concluded with
        ⟨status, reported, rfl⟩ | ⟨disruption, rfl⟩ | ⟨get, ⟨reason, rfl⟩ | ⟨fault, rfl⟩⟩
      · rw [url]
        exact .inr ⟨fun keeps => keeps request state status reported, status, rfl⟩
      · exact .inl (.disrupted disruption)
      · exact .inl (.unread (method.symm.trans get) reason)
      · exact .inl (.noText (method.symm.trans get) fault)
    | ok response =>
      rw [concluded] at h
      have h : (call.conclude response).result = .error failure := h
      rcases conclude_cases call response with ⟨refused, rejected⟩ | ⟨-, -, noData⟩
      · rw [rejected] at h
        obtain rfl := Except.error.inj h
        exact .inl (.refused refused)
      · obtain ⟨fetching, fault, rfl⟩ := noData failure h
        exact .inl (.noData fetching fault)

end Run

end Call

end Courier
