import Courier.Proofs.Client.Call
import Courier.Proofs.Session
import Courier.Proofs.Text.Utf8

set_option autoImplicit false

/-! # What calls log

Events are compared by what is seen of them: level, message and fields (`LogLine`). The lines of a call are told by
what comes of it: one for the request, one for the response if executing the request comes to one, and a warning if
the failure of the call has a status (`Call.Logs`). A status can get into a failure in two ways, from an answer and
from what the network reports. Of the second one nobody would be warned, so networks are considered in which a status
always comes with an answer (`Network.KeepsStatus`). Over a session the lines are accounted for call by call
(`Session.Accounts`).
-/

namespace Courier

/-! ## What is seen of events -/

structure LogLine where
  level : Level
  message : String
  fields : List (String × String)
deriving Repr, DecidableEq

def Event.line (event : Event) : LogLine := ⟨event.level, event.message, event.fields⟩

def Report.lines {α : Type} (report : Report α) : List LogLine := report.events.map Event.line

namespace LogLine

def ofRequest (method : Method) (url : String) : LogLine :=
  ⟨.debug, "sending request", [("method", method.name), ("url", url)]⟩

def ofResponse (status : Status) (bytes : Nat) (url : String) : LogLine :=
  ⟨.debug, "response received",
    [("status", Decimal.text status), ("bytes", Decimal.text bytes), ("url", url)]⟩

def ofFailure (failure : Failure) (url : String) (status : Status) : LogLine :=
  ⟨.warn, "request rejected: " ++ failure.message, [("url", url), ("status", Decimal.text status)]⟩

def isWarning (line : LogLine) : Bool := line.level == .warn

end LogLine

/-! ## One call -/

/-- A network in which every exchange has the same outcome. -/
def Network.giving (outcome : Outcome) : Network Unit := fun _ state => (outcome, state)

/-- What executing a request comes to when the exchange has an outcome. -/
def Request.executed (client : Client) (request : Request) (outcome : Outcome) : Except Failure Response :=
  ((Call.execute request).run client (.giving outcome) ()).1.result

/-- The call warns of its failure, which has a status. -/
def Call.Warns {α : Type} (call : Call α) (report : Report α) (line : LogLine) : Prop :=
  call.purpose ≠ .executing ∧
    ∃ failure status, report.result = .error failure ∧ failure.status? = some status ∧
      failure.url? = some call.url ∧ line = .ofFailure failure call.url status

/-- The lines of a call that has a request: one for the request, one for the response if there is one, and one
for the failure if it has a status. The last one is the only warning. -/
structure Call.Logs {α : Type} (call : Call α) (executed : Except Failure Response) (report : Report α)
    (received? warning? : Option LogLine) : Prop where
  lines : report.lines = .ofRequest call.method call.url :: (received?.toList ++ warning?.toList)
  warnings : report.lines.filter LogLine.isWarning = warning?.toList
  received : ∀ line, received? = some line ↔
    ∃ response, executed = .ok response ∧
      line = .ofResponse response.status (Utf8.encode response.body.toList).length call.url
  posted : call.method = .post → ∀ line, received? = some line →
    ∃ status, line = .ofResponse status 0 call.url
  warning : ∀ line, warning? = some line ↔ call.Warns report line
  executing : call.purpose = .executing → warning? = none
  undecoded : ∀ fault, report.result = .error (.payload fault) → warning? = none

theorem Request.executed_eq (client : Client) (request : Request) (outcome : Outcome) :
    request.executed client outcome = request.conclude outcome := by
  show (Report.andThen (request.report outcome) Report.done).result = _
  rw [Report.result_andThen, Request.result_report]
  cases request.conclude outcome with
  | error failure => rfl
  | ok response => rfl

/-- The line of a response tells the bytes of its text. -/
def Response.line (response : Response) (url : String) : LogLine :=
  .ofResponse response.status (Utf8.encode response.body.toList).length url

theorem Request.lines_of_response {request : Request} {outcome : Outcome} {response : Response}
    (h : request.conclude outcome = .ok response) :
    (request.report outcome).lines = [.ofRequest request.method request.url, response.line request.url] := by
  unfold report Response.line
  rw [h, Utf8.length_encode]
  rfl

theorem Request.lines_of_failure {request : Request} {outcome : Outcome} {failure : Failure}
    (h : request.conclude outcome = .error failure) :
    (request.report outcome).lines = [.ofRequest request.method request.url] := by
  unfold report
  rw [h]
  rfl

/-- Of a response without a body no bytes are told. -/
theorem Response.line_of_noBody {response : Response} (noBody : response.body = "") (url : String) :
    response.line url = .ofResponse response.status 0 url := by
  unfold line
  rw [noBody]
  rfl

/-- Without a response there is no status in the failure. -/
theorem Request.status?_of_conclude {request : Request} {outcome : Outcome} {failure : Failure}
    (keeps : outcome.KeepsStatus) (h : request.conclude outcome = .error failure) : failure.status? = none := by
  rcases conclude_eq_error h with ⟨status, reported, -⟩ | ⟨disruption, rfl⟩ | ⟨-, ⟨reason, rfl⟩ | ⟨fault, rfl⟩⟩
  · exact absurd reported (keeps status)
  all_goals rfl

theorem Report.lines_andThen {α β : Type} {report : Report α} {a : α} (h : report.result = .ok a)
    (next : α → Report β) : (report.andThen next).lines = report.lines ++ (next a).lines := by
  unfold andThen lines
  rw [h]
  exact List.map_append

theorem Report.andThen_of_error {α β : Type} {report : Report α} {failure : Failure}
    (h : report.result = .error failure) (next : α → Report β) :
    report.andThen next = ⟨.error failure, report.events⟩ := by
  unfold andThen
  rw [h]

namespace Call

variable {α : Type} {client : Client} {call : Call α} {executed : Except Failure Response} {report : Report α}

/-- The line of a response that executing gives is not a warning. -/
theorem isWarning_of_received {response? : Option Response} {line : LogLine}
    (h : line ∈ (response?.map (Response.line · call.url)).toList) : line.isWarning = false := by
  obtain ⟨response, -, rfl⟩ := Option.map_eq_some_iff.1 (Option.mem_toList.1 h)
  rfl

/-- What the accounts of a call have in common, whether there is a warning or not. `response?` is the response of
the exchange, if there is one. -/
theorem logs_of_lines (response? : Option Response) {warning? : Option LogLine}
    (found : ∀ response, response? = some response ↔ executed = .ok response)
    (noBody : call.method = .post → ∀ response, response? = some response → response.body = "")
    (lines : report.lines = .ofRequest call.method call.url ::
      ((response?.map (Response.line · call.url)).toList ++ warning?.toList))
    (warns : ∀ line, warning? = some line → line.isWarning = true)
    (warning : ∀ line, warning? = some line ↔ call.Warns report line) :
    call.Logs executed report (response?.map (Response.line · call.url)) warning? where
  lines := lines
  warnings := by
    have quiet : (response?.map (Response.line · call.url)).toList.filter LogLine.isWarning = [] :=
      List.filter_eq_nil_iff.2 fun line mem => by simp [isWarning_of_received mem]
    have all : warning?.toList.filter LogLine.isWarning = warning?.toList :=
      List.filter_eq_self.2 fun line mem => warns line (Option.mem_toList.1 mem)
    rw [lines, List.filter_cons_of_neg Bool.false_ne_true, List.filter_append, quiet, all, List.nil_append]
  received line := by
    rw [Option.map_eq_some_iff]
    exact exists_congr fun response => and_congr (found response) eq_comm
  posted post line same := by
    obtain ⟨response, one, rfl⟩ := Option.map_eq_some_iff.1 same
    exact ⟨response.status, response.line_of_noBody (noBody post response one) _⟩
  warning := warning
  executing executes := by
    refine Option.eq_none_iff_forall_ne_some.2 fun line same => ?_
    exact ((warning line).1 same).1 executes
  undecoded fault failed := by
    refine Option.eq_none_iff_forall_ne_some.2 fun line same => ?_
    obtain ⟨-, failure, status, other, told, -⟩ := (warning line).1 same
    obtain rfl := Except.error.inj (failed.symm.trans other)
    cases told

/-- Where no failure has a status, there is no warning. -/
theorem unwarned (noStatus : ∀ failure, report.result = .error failure → failure.status? = none) (line : LogLine) :
    none = some line ↔ call.Warns report line := by
  refine iff_of_false (fun none => by cases none) ?_
  rintro ⟨-, failure, status, failed, told, -⟩
  rw [noStatus failure failed] at told
  cases told

/-- A status that is taken for a failure is warned of. -/
theorem warned_of_refused {status : Status} (refused : call.purpose.Refuses status)
    (failed : report.result = .error (.ofStatus call.url status)) (line : LogLine) :
    some (LogLine.ofFailure (.ofStatus call.url status) call.url status) = some line ↔
      call.Warns report line := by
  have calling : call.purpose ≠ .executing := by
    intro executing
    rw [executing] at refused
    exact refused
  constructor
  · intro same
    exact ⟨calling, _, _, failed, Failure.status?_ofStatus _ _, Failure.url?_ofStatus _ _,
      (Option.some.inj same).symm⟩
  · rintro ⟨-, failure, told, other, same, -, rfl⟩
    obtain rfl := Except.error.inj (failed.symm.trans other)
    rw [Failure.status?_ofStatus] at same
    rw [Option.some.inj same]

section Exchange

variable {request : Request} (built : call.request? client = .ok request) {outcome : Outcome}
include built

theorem exists_logs_of_failure (keeps : outcome.KeepsStatus) {failure : Failure}
    (concluded : request.conclude outcome = .error failure) :
    ∃ received? warning?, call.Logs (.error failure)
      ((request.report outcome).andThen call.conclude) received? warning? := by
  obtain ⟨method, url⟩ := told_of_request? built
  have failed : (request.report outcome).result = .error failure := by rw [Request.result_report, concluded]
  have sent := Request.lines_of_failure concluded
  rw [method, url] at sent
  rw [Report.andThen_of_error failed]
  refine ⟨_, none, logs_of_lines none (by simp) (fun _ _ => nofun) sent (fun _ => nofun) (unwarned ?_)⟩
  intro other same
  obtain rfl := Except.error.inj same
  exact Request.status?_of_conclude keeps concluded

theorem exists_logs_of_response {response : Response} (concluded : request.conclude outcome = .ok response) :
    ∃ received? warning?, call.Logs (.ok response)
      ((request.report outcome).andThen call.conclude) received? warning? := by
  obtain ⟨method, url⟩ := told_of_request? built
  have responded : (request.report outcome).result = .ok response := by rw [Request.result_report, concluded]
  have sent := Request.lines_of_response concluded
  rw [method, url] at sent
  have lines := Report.lines_andThen responded call.conclude
  have result : ((request.report outcome).andThen call.conclude).result = (call.conclude response).result := by
    rw [Report.result_andThen, responded]
    rfl
  rw [sent] at lines
  have found (other : Response) :
      some response = some other ↔ (.ok response : Except Failure Response) = .ok other := by simp
  have noBody (post : call.method = .post) (other : Response) (same : some response = some other) :
      other.body = "" := by
    rw [← Option.some.inj same]
    exact Request.body_of_post concluded (method.trans post)
  rcases conclude_cases call response with ⟨refused, rejected⟩ | ⟨-, quiet, noStatus⟩
  · rw [rejected] at lines result
    exact ⟨_, some (.ofFailure (.ofStatus call.url response.status) call.url response.status),
      logs_of_lines (some response) found noBody lines (fun line same => by rw [← Option.some.inj same]; rfl)
        (warned_of_refused refused result)⟩
  · have none : (call.conclude response).lines = [] := by
      unfold Report.lines
      rw [quiet]
      rfl
    rw [none] at lines
    refine ⟨_, Option.none, logs_of_lines (some response) found noBody lines (fun _ => nofun) (unwarned ?_)⟩
    intro failure failed
    rw [result] at failed
    obtain ⟨-, fault, rfl⟩ := noStatus failure failed
    rfl

theorem exists_logs (keeps : outcome.KeepsStatus) :
    ∃ received? warning?, call.Logs (request.executed client outcome)
      ((request.report outcome).andThen call.conclude) received? warning? := by
  rw [request.executed_eq]
  cases concluded : request.conclude outcome with
  | error failure => exact exists_logs_of_failure built keeps concluded
  | ok response => exact exists_logs_of_response built concluded

end Exchange

end Call

/-! ## One call after the other -/

namespace Session

/-- The calls of a session, what has gone over the network, and what is reported of the calls. A call whose data
cannot be written has no exchange and no event. -/
inductive Accounts (client : Client) : List AnyCall → List Exchange → List AnyReport → Prop where
  | nil : Accounts client [] [] []
  | unwritten {call : AnyCall} {fault : PayloadFault} {calls : List AnyCall} {exchanges : List Exchange}
      {reports : List AnyReport} (unwritable : call.call.Unwritable fault)
      (others : Accounts client calls exchanges reports) :
      Accounts client (call :: calls) exchanges (⟨(⟨.error (.payload fault), []⟩ : Report call.Result)⟩ :: reports)
  | sent {call : AnyCall} {request : Request} {outcome : Outcome} {report : Report call.Result}
      {received? warning? : Option LogLine} {calls : List AnyCall} {exchanges : List Exchange}
      {reports : List AnyReport} (built : call.call.request? client = .ok request)
      (logs : call.call.Logs (request.executed client outcome) report received? warning?)
      (others : Accounts client calls exchanges reports) :
      Accounts client (call :: calls) ((request, outcome) :: exchanges) (⟨report⟩ :: reports)

section Run

variable {σ : Type} (client : Client) {network : Network σ} (keeps : network.KeepsStatus)
include keeps

theorem Accounts.cons (call : AnyCall) (state : σ) {calls : List AnyCall}
    {exchanges : List Exchange} {reports : List AnyReport} (others : Accounts client calls exchanges reports) :
    Accounts client (call :: calls) ((call.call.exchange? client network state).toList ++ exchanges)
      (⟨(call.call.run client network state).1⟩ :: reports) := by
  cases built : call.call.request? client with
  | error failure =>
    obtain ⟨fault, unwritable, -⟩ := Call.request?_eq_error_iff.1 built
    have noExchange : call.call.exchange? client network state = none := by
      unfold Call.exchange?
      rw [built]
    rw [noExchange, Call.run_of_unwritable network state unwritable]
    exact .unwritten unwritable others
  | ok request =>
    have exchange : call.call.exchange? client network state = some (request, (network request state).1) := by
      unfold Call.exchange?
      rw [built]
    obtain ⟨received?, warning?, logs⟩ := Call.exists_logs built (keeps request state)
    rw [exchange, Call.run_of_request network state built]
    exact .sent built logs others

/-- Every event of a session is accounted for, whatever is called and whatever comes of it. -/
theorem run_accounts (calls : List AnyCall) (state : σ) :
    Accounts client calls (exchanges client network calls state) (run client network calls state).1 := by
  induction calls generalizing state with
  | nil => exact .nil
  | cons call calls ih => exact .cons client keeps call state (ih _)

end Run

/-- Data that refuse to be written, and a text that is not taken without credentials: nothing of the page is read,
and the status is warned of. -/
theorem run_accounts_of_refused_text :
    let client : Client := ⟨{}, rfl⟩
    let network : Network Unit := .giving (.ok ⟨401, [], [.piece [0x3C]]⟩)
    let calls : List AnyCall :=
      [⟨.send (fun _ => .error (.refused "no")) () "http://localhost/upload" none⟩,
        ⟨.sendText "http://localhost/upload" "é" none⟩]
    Accounts client calls (exchanges client network calls ()) (run client network calls ()).1 ∧
      (run client network calls ()).1.map (fun report => report.report.lines) = [[],
        [⟨.debug, "sending request", [("method", "POST"), ("url", "http://localhost/upload")]⟩,
          ⟨.debug, "response received", [("status", "401"), ("bytes", "0"), ("url", "http://localhost/upload")]⟩,
          ⟨.warn, "request rejected: unauthorized: http://localhost/upload",
            [("url", "http://localhost/upload"), ("status", "401")]⟩]] := by
  intro client network calls
  have keeps : network.KeepsStatus := fun request state status => nofun
  refine ⟨run_accounts client keeps calls (), ?_⟩
  rfl

end Session

end Courier
