import Courier.Client.Call
import Courier.Proofs.Json.Success
import Courier.Proofs.Text.Utf8

set_option autoImplicit false

/-! # What a fetch comes to

The body of an answer is read first, whatever the status is; then the status is looked at, and last the
text. So a body that is cut short or no text fails in any case, a status that is no success comes before
all that the text says, and of the text only its emptiness and its data matter.
-/

namespace Courier

open Json

/-! ## Reading a body to its end -/

/-- The reads give the bytes and reach the end of the body: no read fails before it. -/
inductive Delivers : List BodyRead → List UInt8 → Prop where
  | closed : Delivers [] []
  | ended {reads : List BodyRead} : Delivers (.piece [] :: reads) []
  | piece {b : UInt8} {bs bytes : List UInt8} {reads : List BodyRead} (more : Delivers reads bytes) :
      Delivers (.piece (b :: bs) :: reads) (b :: (bs ++ bytes))

/-- The reads of a body are joined exactly if they reach its end. -/
theorem joinReads_eq_ok_iff {reads : List BodyRead} {acc bytes : List UInt8} :
    joinReads acc reads = .ok bytes ↔ ∃ tail, Delivers reads tail ∧ bytes = acc.reverse ++ tail := by
  induction reads generalizing acc with
  | nil =>
    constructor
    · intro h
      exact ⟨[], .closed, by rw [List.append_nil]; exact (Except.ok.inj h).symm⟩
    · rintro ⟨tail, delivers, rfl⟩
      cases delivers
      rw [List.append_nil]
      rfl
  | cons read reads ih =>
    match read with
    | .failed reason =>
      constructor
      · intro h
        cases h
      · rintro ⟨tail, delivers, -⟩
        cases delivers
    | .piece [] =>
      -- An empty piece is the end, whatever reads were to come.
      constructor
      · intro h
        exact ⟨[], .ended, by rw [List.append_nil]; exact (Except.ok.inj h).symm⟩
      · rintro ⟨tail, delivers, rfl⟩
        cases delivers
        rw [List.append_nil]
        rfl
    | .piece (b :: bs) =>
      have reversed : ((b :: bs).reverseAux acc).reverse = acc.reverse ++ (b :: bs) := by
        simp [List.reverseAux_eq]
      rw [joinReads, ih, reversed]
      constructor
      · rintro ⟨tail, delivers, rfl⟩
        exact ⟨b :: (bs ++ tail), .piece delivers, by simp⟩
      · rintro ⟨tail, delivers, rfl⟩
        cases delivers with
        | piece more => exact ⟨_, more, by simp⟩

theorem joinReads_nil_eq_ok_iff {reads : List BodyRead} {bytes : List UInt8} :
    joinReads [] reads = .ok bytes ↔ Delivers reads bytes := by
  rw [joinReads_eq_ok_iff]
  simp

theorem io_of_joinReads_eq_error {reads : List BodyRead} {acc : List UInt8} {failure : Failure}
    (h : joinReads acc reads = .error failure) : ∃ reason, failure = .io reason := by
  induction reads generalizing acc with
  | nil => cases h
  | cons read reads ih =>
    match read with
    | .failed reason => exact ⟨reason, (Except.error.inj h).symm⟩
    | .piece [] => cases h
    | .piece (b :: bs) => exact ih h

theorem Delivers.unique {reads : List BodyRead} {bytes bytes' : List UInt8} (h : Delivers reads bytes)
    (h' : Delivers reads bytes') : bytes = bytes' :=
  Except.ok.inj ((joinReads_nil_eq_ok_iff.2 h).symm.trans (joinReads_nil_eq_ok_iff.2 h'))

/-- What can come of a body: its text, bytes that are no text, or a read that fails before the end. -/
theorem bodyText_cases (reads : List BodyRead) :
    (∃ text, Delivers reads (Utf8.encode text.toList) ∧ bodyText reads = .ok text) ∨
    (∃ bytes fault, Delivers reads bytes ∧ (∀ cs, Utf8.encode cs ≠ bytes) ∧
      bodyText reads = .error (.invalidUtf8 fault)) ∨
    (∃ reason, (∀ bytes, ¬Delivers reads bytes) ∧ bodyText reads = .error (.io reason)) := by
  cases read : joinReads [] reads with
  | error failure =>
    obtain ⟨reason, rfl⟩ := io_of_joinReads_eq_error read
    refine .inr (.inr ⟨reason, fun bytes delivers => ?_, by simp only [bodyText, read]⟩)
    rw [joinReads_nil_eq_ok_iff.2 delivers] at read
    cases read
  | ok bytes =>
    have delivers := joinReads_nil_eq_ok_iff.1 read
    cases decoded : Utf8.decode bytes with
    | error fault =>
      refine .inr (.inl ⟨bytes, fault, delivers, fun cs text => ?_, by simp only [bodyText, read, decoded]⟩)
      rw [Utf8.decode_eq_ok_iff.2 text] at decoded
      cases decoded
    | ok cs =>
      refine .inl ⟨String.ofList cs, ?_, by simp only [bodyText, read, decoded]⟩
      rw [String.toList_ofList, Utf8.decode_eq_ok_iff.1 decoded]
      exact delivers

theorem bodyText_eq_ok_iff {reads : List BodyRead} {text : String} :
    bodyText reads = .ok text ↔ Delivers reads (Utf8.encode text.toList) := by
  rcases bodyText_cases reads with ⟨text', delivers, h⟩ | ⟨bytes, fault, delivers, noText, h⟩ |
    ⟨reason, cut, h⟩
  · rw [h]
    constructor
    · intro same
      rw [← Except.ok.inj same]
      exact delivers
    · intro delivers'
      rw [String.toList_inj.1 (Utf8.encode_injective (delivers.unique delivers'))]
  · rw [h]
    constructor
    · intro same
      cases same
    · intro delivers'
      exact absurd (delivers'.unique delivers) (noText text.toList)
  · rw [h]
    constructor
    · intro same
      cases same
    · intro delivers'
      exact absurd delivers' (cut _)

theorem bodyText_ne_payload (reads : List BodyRead) (fault : PayloadFault) :
    bodyText reads ≠ .error (.payload fault) := by
  rcases bodyText_cases reads with ⟨text, -, h⟩ | ⟨bytes, other, -, -, h⟩ | ⟨reason, -, h⟩
  all_goals
    rw [h]
    simp

/-! ## The status and its failure -/

theorem Status.isSuccess_iff {status : Status} :
    status.isSuccess = true ↔ 200 ≤ status ∧ status ≤ 299 := by
  simp only [Status.isSuccess, Bool.and_eq_true, decide_eq_true_eq]
  exact and_congr_right fun _ => Nat.lt_succ_iff

namespace Failure

theorem ofStatus_cases (url : String) (status : Status) :
    (status = 401 ∧ ofStatus url status = .unauthorized url) ∨
    (status = 403 ∧ ofStatus url status = .forbidden url) ∨
    (status = 405 ∧ ofStatus url status = .notAllowed url) ∨
    (status = 501 ∧ ofStatus url status = .unknownRequest url) ∨
    ((status ≠ 401 ∧ status ≠ 403 ∧ status ≠ 405 ∧ status ≠ 501) ∧
      ofStatus url status = .otherStatus url status) := by
  unfold ofStatus
  by_cases unauthorized : status = 401
  · exact .inl ⟨unauthorized, if_pos unauthorized⟩
  rw [if_neg unauthorized]
  by_cases forbidden : status = 403
  · exact .inr (.inl ⟨forbidden, if_pos forbidden⟩)
  rw [if_neg forbidden]
  by_cases notAllowed : status = 405
  · exact .inr (.inr (.inl ⟨notAllowed, if_pos notAllowed⟩))
  rw [if_neg notAllowed]
  by_cases unknown : status = 501
  · exact .inr (.inr (.inr (.inl ⟨unknown, if_pos unknown⟩)))
  rw [if_neg unknown]
  exact .inr (.inr (.inr (.inr ⟨⟨unauthorized, forbidden, notAllowed, unknown⟩, rfl⟩)))

theorem status?_ofStatus (url : String) (status : Status) :
    (ofStatus url status).status? = some status := by
  rcases ofStatus_cases url status with ⟨rfl, h⟩ | ⟨rfl, h⟩ | ⟨rfl, h⟩ | ⟨rfl, h⟩ | ⟨-, h⟩
  all_goals
    rw [h]
    rfl

theorem url?_ofStatus (url : String) (status : Status) : (ofStatus url status).url? = some url := by
  rcases ofStatus_cases url status with ⟨-, h⟩ | ⟨-, h⟩ | ⟨-, h⟩ | ⟨-, h⟩ | ⟨-, h⟩
  all_goals
    rw [h]
    rfl

theorem ofStatus_ne {failure : Failure} (untold : failure.status? = none) (url : String)
    (status : Status) : ofStatus url status ≠ failure := by
  rintro rfl
  rw [status?_ofStatus] at untold
  cases untold

end Failure

/-! ## The steps of a call -/

theorem Report.result_andThen {α β : Type} (report : Report α) (next : α → Report β) :
    (report.andThen next).result = report.result.bind fun a => (next a).result := by
  unfold Report.andThen
  cases report.result with
  | error failure => rfl
  | ok a => rfl

theorem Request.result_report (request : Request) (outcome : Outcome) :
    (request.report outcome).result = request.conclude outcome := by
  unfold Request.report
  cases request.conclude outcome with
  | error failure => rfl
  | ok response => rfl

theorem Response.result_text (response : Response) (url : String) :
    (response.text url).result = if response.isSuccess then .ok response.body
      else .error (Failure.ofStatus url response.status) := by
  unfold Response.text
  split
  · rfl
  · rfl

section Fetch

variable {α σ : Type} (client : Client) (shape : Shape α) (url : String)
  (credentials : Option Credentials) {network : Network σ} {state : σ} {answer : Answer}

/-- The text of an answer: first its body is read, then its status is looked at. -/
theorem Call.result_fetchText
    (arrives : (network (client.fetchRequest url credentials) state).1 = .ok answer) :
    ((Call.fetchText url credentials).run client network state).1.result =
      (bodyText answer.body).bind fun text =>
        if answer.status.isSuccess then .ok text else .error (Failure.ofStatus url answer.status) := by
  -- The answer is reported on before its status is looked at, and the report needs the body.
  show (Report.andThen _ _).result = _
  rw [Report.result_andThen, Request.result_report]
  rw [show (network (client.fetchRequest url credentials) state).1 = _ from arrives]
  show ((bodyText answer.body).map answer.response).bind _ = _
  cases bodyText answer.body with
  | error failure => rfl
  | ok text => exact Response.result_text (answer.response text) url

/-- The data of an answer are those of its text. -/
theorem Call.result_fetch :
    ((Call.fetch shape url credentials).run client network state).1.result =
      ((Call.fetchText url credentials).run client network state).1.result.bind fun text =>
        (decodeText shape text).result := by
  -- Both calls conclude from the same report, and the one that decodes goes on from the text.
  have conclude : (Call.fetch shape url credentials).conclude
      = fun response => (response.text url).andThen (decodeText shape) := rfl
  show (Report.andThen _ ((Call.fetch shape url credentials).conclude)).result
    = (Report.andThen _ _).result.bind _
  rw [Report.result_andThen, Report.result_andThen, conclude]
  cases (Request.report _ _).result with
  | error failure => rfl
  | ok response => exact Report.result_andThen _ _

/-! ## The result -/

/-- There is a text exactly for a success whose body is read to its end and is the bytes of the text. -/
theorem Call.fetchText_eq_ok_iff
    (arrives : (network (client.fetchRequest url credentials) state).1 = .ok answer) (text : String) :
    ((Call.fetchText url credentials).run client network state).1.result = .ok text ↔
      (200 ≤ answer.status ∧ answer.status ≤ 299) ∧
        Delivers answer.body (Utf8.encode text.toList) := by
  rw [result_fetchText client url credentials arrives, ← bodyText_eq_ok_iff, ← Status.isSuccess_iff]
  cases bodyText answer.body with
  | error failure =>
    refine ⟨fun h => ?_, fun h => ?_⟩
    · cases h
    · cases h.2
  | ok text' =>
    show (if answer.status.isSuccess then _ else _) = _ ↔ _
    by_cases h : answer.status.isSuccess = true
    · rw [if_pos h]
      exact ⟨fun same => ⟨h, same⟩, fun same => same.2⟩
    · rw [if_neg h]
      refine ⟨fun fails => ?_, fun same => absurd same.1 h⟩
      cases fails

/-- There are data, or none, exactly if there is a text that holds them. -/
theorem Call.fetch_eq_ok_iff {found : Option α} :
    ((Call.fetch shape url credentials).run client network state).1.result = .ok found ↔
      ∃ text, ((Call.fetchText url credentials).run client network state).1.result = .ok text ∧
        (decodeText shape text).result = .ok found := by
  rw [result_fetch]
  cases ((Call.fetchText url credentials).run client network state).1.result with
  | error failure =>
    refine ⟨fun h => ?_, fun ⟨text, h, _⟩ => ?_⟩
    · cases h
    · cases h
  | ok text =>
    constructor
    · intro h
      exact ⟨text, rfl, h⟩
    · rintro ⟨text', same, h⟩
      rw [Except.ok.inj same]
      exact h

theorem result_decodeText {text : String} (h : text ≠ "") :
    (decodeText shape text).result =
      match shape.decode text with
      | .ok a => .ok (some a)
      | .error fault => .error (.payload fault) := by
  have notEmpty : text.isEmpty = false := by simpa using h
  unfold decodeText
  rw [notEmpty, if_neg (by decide)]
  cases shape.decode text with
  | error fault => rfl
  | ok a => rfl

theorem Call.fetch_eq_none_iff
    (arrives : (network (client.fetchRequest url credentials) state).1 = .ok answer) :
    ((Call.fetch shape url credentials).run client network state).1.result = .ok none ↔
      (200 ≤ answer.status ∧ answer.status ≤ 299) ∧ Delivers answer.body [] := by
  rw [fetch_eq_ok_iff]
  have textIff := fetchText_eq_ok_iff client url credentials arrives
  constructor
  · rintro ⟨t, ht, holds⟩
    by_cases empty : t = ""
    · subst empty
      exact (textIff "").1 ht
    · rw [result_decodeText shape empty] at holds
      split at holds
      · cases holds
      · cases holds
  · intro h
    exact ⟨"", (textIff "").2 h, rfl⟩

theorem Call.fetch_eq_some_iff
    (arrives : (network (client.fetchRequest url credentials) state).1 = .ok answer) {a : α} :
    ((Call.fetch shape url credentials).run client network state).1.result = .ok (some a) ↔
      (200 ≤ answer.status ∧ answer.status ≤ 299) ∧
        ∃ t, t ≠ "" ∧ Delivers answer.body (Utf8.encode t.toList) ∧ shape.decode t = .ok a := by
  rw [fetch_eq_ok_iff]
  constructor
  · rintro ⟨t, ht, holds⟩
    obtain ⟨success, delivers⟩ := (fetchText_eq_ok_iff client url credentials arrives t).1 ht
    by_cases empty : t = ""
    · subst empty
      cases holds
    · rw [result_decodeText shape empty] at holds
      refine ⟨success, t, empty, delivers, ?_⟩
      split at holds
      · next b decoded => rw [decoded, Option.some.inj (Except.ok.inj holds)]
      · cases holds
  · rintro ⟨success, t, notEmpty, delivers, decoded⟩
    refine ⟨t, (fetchText_eq_ok_iff client url credentials arrives t).2 ⟨success, delivers⟩, ?_⟩
    rw [result_decodeText shape notEmpty, decoded]

theorem Call.fetch_of_decode_error
    (arrives : (network (client.fetchRequest url credentials) state).1 = .ok answer)
    (success : 200 ≤ answer.status ∧ answer.status ≤ 299) {text : String} (notEmpty : text ≠ "")
    (delivers : Delivers answer.body (Utf8.encode text.toList)) {fault : PayloadFault}
    (failed : shape.decode text = .error fault) :
    ((Call.fetch shape url credentials).run client network state).1.result = .error (.payload fault) := by
  rw [result_fetch, (fetchText_eq_ok_iff client url credentials arrives text).2 ⟨success, delivers⟩]
  show (decodeText shape text).result = _
  rw [result_decodeText shape notEmpty, failed]

theorem Call.fetchText_ne_payload
    (arrives : (network (client.fetchRequest url credentials) state).1 = .ok answer)
    (fault : PayloadFault) :
    ((Call.fetchText url credentials).run client network state).1.result
      ≠ .error (.payload fault) := by
  rw [result_fetchText client url credentials arrives]
  intro h
  cases body : bodyText answer.body with
  | error failure =>
    rw [body] at h
    exact bodyText_ne_payload answer.body fault (by rw [body, Except.error.inj h])
  | ok t =>
    rw [body] at h
    have h : (if answer.status.isSuccess then Except.ok t
      else .error (Failure.ofStatus url answer.status)) = .error (.payload fault) := h
    split at h
    · cases h
    · exact Failure.ofStatus_ne rfl _ _ (Except.error.inj h)

/-- A fetch fails by the spelling of the text exactly for a success with a body that holds no data. -/
theorem Call.fetch_malformed_iff
    (arrives : (network (client.fetchRequest url credentials) state).1 = .ok answer) :
    (∃ fault, ((Call.fetch shape url credentials).run client network state).1.result
        = .error (.payload (.malformed fault))) ↔
      (200 ≤ answer.status ∧ answer.status ≤ 299) ∧
        ∃ t, t ≠ "" ∧ Delivers answer.body (Utf8.encode t.toList) ∧ ∀ a, shape.decode t ≠ .ok a := by
  have textIff := fetchText_eq_ok_iff client url credentials arrives
  constructor
  · rintro ⟨fault, failed⟩
    rw [result_fetch] at failed
    cases ht : ((Call.fetchText url credentials).run client network state).1.result with
    | error failure =>
      rw [ht] at failed
      refine absurd ?_ (fetchText_ne_payload client url credentials arrives (.malformed fault))
      rw [ht, Except.error.inj failed]
    | ok t =>
      obtain ⟨success, delivers⟩ := (textIff t).1 ht
      rw [ht] at failed
      have failed : (decodeText shape t).result = .error (.payload (.malformed fault)) := failed
      by_cases empty : t = ""
      · subst empty
        cases failed
      · refine ⟨success, t, empty, delivers, fun a decoded => ?_⟩
        rw [result_decodeText shape empty, decoded] at failed
        cases failed
  · rintro ⟨success, t, notEmpty, delivers, undecoded⟩
    obtain ⟨fault, malformed⟩ := Shape.decode_eq_malformed undecoded
    exact ⟨fault, fetch_of_decode_error client shape url credentials arrives success notEmpty delivers malformed⟩

/-- What a fetch comes to, whatever answer arrives. The text is there exactly if the status is a success
and the reads of the body reach its end and give the bytes of a text. The data are those that the text
holds, there are none for an empty text, and a text that holds no data is the one reason for a fault of
the payload. A whole text with any other status is never decoded: both calls fail by the status, and tell
it and the address. -/
theorem Call.fetch_outcome
    (arrives : (network (client.fetchRequest url credentials) state).1 = .ok answer) :
    let text := ((Call.fetchText url credentials).run client network state).1.result
    let data := ((Call.fetch shape url credentials).run client network state).1.result
    let success := 200 ≤ answer.status ∧ answer.status ≤ 299
    let delivers := fun text : String => Delivers answer.body (Utf8.encode text.toList)
    (∀ t, text = .ok t ↔ success ∧ delivers t) ∧
    (data = .ok none ↔ success ∧ Delivers answer.body []) ∧
    (∀ a, data = .ok (some a) ↔ success ∧ ∃ t, t ≠ "" ∧ delivers t ∧ shape.decode t = .ok a) ∧
    ((∃ fault, data = .error (.payload (.malformed fault))) ↔
      success ∧ ∃ t, t ≠ "" ∧ delivers t ∧ ∀ a, shape.decode t ≠ .ok a) ∧
    ∀ t, delivers t → ¬success → ∃ failure, text = .error failure ∧ data = .error failure ∧
      failure.status? = some answer.status ∧ failure.url? = some url ∧
      ((answer.status = 401 ∧ failure = .unauthorized url) ∨
        (answer.status = 403 ∧ failure = .forbidden url) ∨
        (answer.status = 405 ∧ failure = .notAllowed url) ∨
        (answer.status = 501 ∧ failure = .unknownRequest url) ∨
        ((answer.status ≠ 401 ∧ answer.status ≠ 403 ∧ answer.status ≠ 405 ∧ answer.status ≠ 501) ∧
          failure = .otherStatus url answer.status)) := by
  intro text data success delivers
  refine ⟨?_, ?_, ?_, ?_, ?_⟩
  · intro t
    exact fetchText_eq_ok_iff client url credentials arrives t
  · exact fetch_eq_none_iff client shape url credentials arrives
  · intro a
    exact fetch_eq_some_iff client shape url credentials arrives
  · exact fetch_malformed_iff client shape url credentials arrives
  · intro t whole noSuccess
    have fails : text = .error (Failure.ofStatus url answer.status) := by
      rw [show text = _ from result_fetchText client url credentials arrives,
        bodyText_eq_ok_iff.2 whole]
      exact if_neg fun h => noSuccess (Status.isSuccess_iff.1 h)
    have passed : data = text.bind fun t => (decodeText shape t).result :=
      result_fetch client shape url credentials
    refine ⟨Failure.ofStatus url answer.status, fails, ?_, Failure.status?_ofStatus _ _,
      Failure.url?_ofStatus _ _, Failure.ofStatus_cases _ _⟩
    rw [passed, fails]
    rfl

end Fetch

/-- A character may be cut between two pieces of the body. -/
theorem Call.fetchText_of_pieces :
    let answer : Answer := ⟨200, [], [.piece [0xC3], .piece [0xA9]]⟩
    let network : Network Unit := fun _ state => (.ok answer, state)
    let client : Client := ⟨{}, rfl⟩
    ((Call.fetchText "http://localhost/empty" none).run client network ()).1.result = .ok "é" := by
  intro answer network client
  have bytes : Utf8.encode "é".toList = [0xC3, 0xA9] := by decide
  have arrives : (network (client.fetchRequest "http://localhost/empty" none) ()).1 = .ok answer := rfl
  refine ((Call.fetch_outcome client Shape.text _ none arrives).1 "é").2 ⟨by decide, ?_⟩
  show Delivers answer.body (Utf8.encode "é".toList)
  rw [bytes]
  exact .piece (.piece .closed)

end Courier
