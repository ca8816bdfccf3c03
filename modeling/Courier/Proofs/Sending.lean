import Courier.Proofs.Fetching
import Courier.Proofs.Payload

set_option autoImplicit false

/-! # What sending comes to

A send is concluded from the status of the answer alone; the body is never read. Data are sent as the text
of their payload, whatever writes them, so a call that sends data is a call that sends that text
(`Call.run_send_of_encode`). Data without a payload are not sent, and the call ends before the network is asked. A
draft has none exactly if somewhere in it a member is named by something that has no text (`Draft.Nameless`). What a
call hands to a network is told by one that keeps a list of it (`Network.recording`).
-/

namespace Courier

open Json

/-! ## Drafts that cannot be written -/

namespace Json.Draft

/-- Somewhere in a draft a member is named by something that has no text. -/
inductive Nameless : Draft → Prop where
  | name {members : List (Key × Draft)} {member : Key × Draft} (mem : member ∈ members)
      (noText : member.1.text? = none) : Nameless (.object members)
  | member {members : List (Key × Draft)} {member : Key × Draft} (mem : member ∈ members)
      (deeper : Nameless member.2) : Nameless (.object members)
  | item {items : List Draft} {item : Draft} (mem : item ∈ items) (deeper : Nameless item) :
      Nameless (.array items)

theorem settleItems_isOk_iff {items : List Draft} :
    (∃ vs, settleItems items = .ok vs) ↔ ∀ item ∈ items, ∃ v, item.settle = .ok v := by
  induction items with
  | nil => simp [settleItems]
  | cons item items ih =>
    rw [List.forall_mem_cons, ← ih, settleItems]
    cases item.settle with
    | error fault => simp [bind, Except.bind]
    | ok v =>
      cases settleItems items with
      | error fault => simp [bind, Except.bind]
      | ok vs => simp [bind, Except.bind, pure, Except.pure]

/-- Members are settled if each of them has a name with a text, and is settled itself. -/
theorem settleMembers_isOk_iff {members : List (Key × Draft)} :
    (∃ vs, settleMembers members = .ok vs) ↔
      ∀ member ∈ members, member.1.text? ≠ none ∧ ∃ v, member.2.settle = .ok v := by
  induction members with
  | nil => simp [settleMembers]
  | cons member members ih =>
    obtain ⟨key, item⟩ := member
    rw [List.forall_mem_cons, ← ih, settleMembers]
    cases key.text? with
    | none => simp
    | some name =>
      cases item.settle with
      | error fault => simp [bind, Except.bind]
      | ok v =>
        cases settleMembers members with
        | error fault => simp [bind, Except.bind]
        | ok vs => simp [bind, Except.bind, pure, Except.pure]

theorem settle_array_isOk_iff {items : List Draft} :
    (∃ v, settle (.array items) = .ok v) ↔ ∀ item ∈ items, ∃ v, item.settle = .ok v := by
  rw [← settleItems_isOk_iff, settle]
  cases settleItems items with
  | error fault => simp [Except.map]
  | ok vs => simp [Except.map]

theorem settle_object_isOk_iff {members : List (Key × Draft)} :
    (∃ v, settle (.object members) = .ok v) ↔
      ∀ member ∈ members, member.1.text? ≠ none ∧ ∃ v, member.2.settle = .ok v := by
  rw [← settleMembers_isOk_iff, settle]
  cases settleMembers members with
  | error fault => simp [Except.map]
  | ok vs => simp [Except.map]

/-- A name without a text is met, wherever it stands. -/
theorem Nameless.not_settles {draft : Draft} (h : draft.Nameless) : ¬∃ v, draft.settle = .ok v := by
  induction h with
  | name mem noText =>
    rw [settle_object_isOk_iff]
    exact fun settles => (settles _ mem).1 noText
  | member mem _ ih =>
    rw [settle_object_isOk_iff]
    exact fun settles => ih (settles _ mem).2
  | item mem _ ih =>
    rw [settle_array_isOk_iff]
    exact fun settles => ih (settles _ mem)

/-- Nothing else keeps a draft from being written. -/
theorem settles_of_not_nameless (draft : Draft) (h : ¬draft.Nameless) : ∃ v, draft.settle = .ok v := by
  match draft with
  | .null => exact ⟨.null, rfl⟩
  | .boolean b => exact ⟨.boolean b, rfl⟩
  | .number n => exact ⟨.number n, rfl⟩
  | .string s => exact ⟨.string s, rfl⟩
  | .array items =>
    rw [settle_array_isOk_iff]
    intro item mem
    exact settles_of_not_nameless item fun deeper => h (.item mem deeper)
  | .object members =>
    rw [settle_object_isOk_iff]
    intro member mem
    refine ⟨fun noText => h (.name mem noText), ?_⟩
    exact settles_of_not_nameless member.2 fun deeper => h (.member mem deeper)
termination_by sizeOf draft
decreasing_by
  · have smaller := List.sizeOf_lt_of_mem mem
    simp only [Tree.array.sizeOf_spec]
    omega
  · have smaller := List.sizeOf_lt_of_mem mem
    obtain ⟨key, item⟩ := member
    simp only [Tree.object.sizeOf_spec, Prod.mk.sizeOf_spec] at smaller ⊢
    omega

mutual

theorem fault_of_settle (draft : Draft) {fault : DraftFault} (h : draft.settle = .error fault) :
    fault = .keyWithoutText := by
  cases draft with
  | array items => exact fault_of_settleItems items (Except.map_eq_error_iff.1 h)
  | object members => exact fault_of_settleMembers members (Except.map_eq_error_iff.1 h)
  | _ => cases h

theorem fault_of_settleItems (items : List Draft) {fault : DraftFault} (h : settleItems items = .error fault) :
    fault = .keyWithoutText := by
  cases items with
  | nil => cases h
  | cons item items =>
    rcases Except.bind_eq_error_iff.1 h with first | ⟨v, -, h⟩
    · exact fault_of_settle item first
    rcases Except.bind_eq_error_iff.1 h with others | ⟨vs, -, h⟩
    · exact fault_of_settleItems items others
    · cases h

theorem fault_of_settleMembers (members : List (Key × Draft)) {fault : DraftFault}
    (h : settleMembers members = .error fault) : fault = .keyWithoutText := by
  cases members with
  | nil => cases h
  | cons member members =>
    obtain ⟨key, item⟩ := member
    rw [settleMembers] at h
    split at h
    · exact (Except.error.inj h).symm
    rcases Except.bind_eq_error_iff.1 h with first | ⟨v, -, h⟩
    · exact fault_of_settle item first
    rcases Except.bind_eq_error_iff.1 h with others | ⟨vs, -, h⟩
    · exact fault_of_settleMembers members others
    · cases h

end

/-- A draft has no text exactly if one of its names has none, at whatever depth. -/
theorem text_eq_error_iff {draft : Draft} {fault : DraftFault} :
    draft.text = .error fault ↔ draft.Nameless ∧ fault = .keyWithoutText := by
  unfold text
  rw [Except.map_eq_error_iff]
  constructor
  · intro failed
    refine ⟨?_, fault_of_settle draft failed⟩
    by_contra named
    obtain ⟨v, settles⟩ := settles_of_not_nameless draft named
    rw [failed] at settles
    cases settles
  · rintro ⟨nameless, rfl⟩
    cases settled : draft.settle with
    | ok v => exact absurd ⟨v, settled⟩ nameless.not_settles
    | error fault => rw [fault_of_settle draft settled]

end Json.Draft

/-! ## What is handed to a network -/

section Recording

variable {α σ : Type} (client : Client) (network : Network σ)

/-- The network with a list of the requests that it has been handed, in their order. -/
def Network.recording : Network (σ × List Request) := fun request (state, requests) =>
  ((network request state).1, (network request state).2, requests ++ [request])

/-- A call hands over the one request that it is made of, if there is one. -/
theorem Call.run_recording (call : Call α) (state : σ) (requests : List Request) :
    call.run client network.recording (state, requests) =
      ((call.run client network state).1, (call.run client network state).2,
        requests ++ (call.request? client).toOption.toList) := by
  unfold Call.run
  cases call.request? client with
  | error failure => simp [Except.toOption]
  | ok request => rfl

end Recording

/-! ## The calls that send -/

theorem Status.isClassified_iff {status : Status} :
    status.isClassified = true ↔ status = 401 ∨ status = 403 ∨ status = 405 ∨ status = 501 := by
  simp only [Status.isClassified, Bool.or_eq_true, beq_iff_eq, or_assoc]

section Send

variable {σ : Type} (client : Client) (url text : String) (credentials : Option Credentials)
  (network : Network σ) (state : σ)

/-- The status of the answer alone tells what comes of sending a text. -/
theorem Call.result_sendText {answer : Answer}
    (arrives : (network (client.sendRequest url text credentials) state).1 = .ok answer) :
    ((Call.sendText url text credentials).run client network state).1.result =
      if answer.status.isClassified then .error (Failure.ofStatus url answer.status)
      else .ok answer.status := by
  show (Report.andThen _ _).result = _
  rw [Report.result_andThen, Request.result_report,
    show (network (client.sendRequest url text credentials) state).1 = _ from arrives]
  show ((answer.response "").accepted url).result = _
  unfold Response.accepted
  show (if answer.status.isClassified then _ else _ : Report Status).result = _
  split
  · rfl
  · rfl

theorem Call.result_sendText_of_failure {failure : NetworkFailure}
    (h : (network (client.sendRequest url text credentials) state).1 = .error failure) :
    ((Call.sendText url text credentials).run client network state).1.result =
      .error (.ofNetwork url failure) := by
  show (Report.andThen _ _).result = _
  rw [Report.result_andThen, Request.result_report,
    show (network (client.sendRequest url text credentials) state).1 = _ from h]
  rfl

/-- The status of an answer is the result, unless it is one that a caller has to act on. -/
theorem Call.sendText_eq_ok_iff (status : Status) :
    ((Call.sendText url text credentials).run client network state).1.result = .ok status ↔
      ∃ answer, (network (client.sendRequest url text credentials) state).1 = .ok answer ∧
        answer.status = status ∧ status.isClassified = false := by
  cases outcome : (network (client.sendRequest url text credentials) state).1 with
  | error failure =>
    rw [result_sendText_of_failure client url text credentials network state outcome]
    simp
  | ok answer =>
    rw [result_sendText client url text credentials network state outcome]
    by_cases classified : answer.status.isClassified = true
    · rw [if_pos classified]
      constructor
      · intro h
        cases h
      · rintro ⟨answer', same, rfl, notClassified⟩
        rw [← Except.ok.inj same, classified] at notClassified
        cases notClassified
    · rw [if_neg classified]
      constructor
      · intro h
        obtain rfl := Except.ok.inj h
        exact ⟨answer, rfl, rfl, by simpa using classified⟩
      · rintro ⟨answer', same, rfl, -⟩
        rw [Except.ok.inj same]

section Data

variable {α : Type} {write : α → Except DraftFault String} {a : α}

/-- Data that have a payload are sent as that text. -/
theorem Call.run_send_of_encode {text : String} (h : encodeWith write a = .ok text) :
    (Call.send write a url credentials).run client network state
      = (Call.sendText url text credentials).run client network state := by
  have request : (Call.send write a url credentials).request? client
      = .ok (client.sendRequest url text credentials) := by
    unfold Call.request?
    simp only [h]
  unfold Call.run
  rw [request]
  rfl

theorem Call.run_send_of_error {fault : PayloadFault} (h : encodeWith write a = .error fault) :
    (Call.send write a url credentials).run client network state = (.failed (.payload fault), state) := by
  unfold Call.run Call.request?
  simp only [h]

theorem Call.run_send (shape : Shape α) (a : α) :
    (Call.send Draft.text (.ofValue (shape.write a)) url credentials).run client network state
      = (Call.sendText url (shape.encode a) credentials).run client network state :=
  Call.run_send_of_encode client url credentials network state (Draft.encode_ofValue _)

end Data

end Send

/-- What a send comes to, whatever answer arrives. The result is the status of the answer, unless it is one
of the four that a caller has to act on; then it is the failure of that status, with the address as it was
given. So the headers and the body of the answer make no difference. Data that have a payload, whatever writes
them, are sent as that text: the same request is handed to the network, and the same comes of it. If they have
none, then that is the failure, nothing is handed over, and the network is left as it was. A draft has none
exactly if a name in it has no text. -/
theorem Call.send_outcome {σ : Type} (client : Client) (url : String) (credentials : Option Credentials)
    (network : Network σ) (state : σ) :
    (∀ text answer, (network (client.sendRequest url text credentials) state).1 = .ok answer →
      let result := ((Call.sendText url text credentials).run client network state).1.result
      ((answer.status = 401 ∧ result = .error (.unauthorized url)) ∨
        (answer.status = 403 ∧ result = .error (.forbidden url)) ∨
        (answer.status = 405 ∧ result = .error (.notAllowed url)) ∨
        (answer.status = 501 ∧ result = .error (.unknownRequest url)) ∨
        ((answer.status ≠ 401 ∧ answer.status ≠ 403 ∧ answer.status ≠ 405 ∧ answer.status ≠ 501) ∧
          result = .ok answer.status)) ∧
      ∀ (σ' : Type) (network' : Network σ') (state' : σ') (answer' : Answer),
        (network' (client.sendRequest url text credentials) state').1 = .ok answer' →
        answer'.status = answer.status →
        ((Call.sendText url text credentials).run client network' state').1.result = result) ∧
    (∀ {α : Type} (write : α → Except DraftFault String) (a : α),
      (∀ text, encodeWith write a = .ok text →
        (Call.send write a url credentials).run client network state
          = (Call.sendText url text credentials).run client network state ∧
        ((Call.send write a url credentials).run client network.recording (state, [])).2.2
          = [client.sendRequest url text credentials] ∧
        ((Call.sendText url text credentials).run client network.recording (state, [])).2.2
          = [client.sendRequest url text credentials]) ∧
      ∀ fault, encodeWith write a = .error fault →
        (∃ cause, write a = .error cause ∧ fault = .unwritable cause) ∧
        (Call.send write a url credentials).run client network state
          = (.failed (.payload fault), state) ∧
        ((Call.send write a url credentials).run client network.recording (state, [])).2.2 = []) ∧
    ∀ (draft : Draft) fault, draft.text = .error fault ↔ draft.Nameless ∧ fault = .keyWithoutText := by
  refine ⟨?_, fun write a => ⟨?_, ?_⟩, fun draft fault => Draft.text_eq_error_iff⟩
  · intro text answer arrives result
    have told : result = if answer.status.isClassified then .error (Failure.ofStatus url answer.status)
        else .ok answer.status := result_sendText client url text credentials network state arrives
    refine ⟨?_, fun σ' network' state' answer' arrives' same => ?_⟩
    · rw [told]
      rcases Failure.ofStatus_cases url answer.status with
        ⟨status, failure⟩ | ⟨status, failure⟩ | ⟨status, failure⟩ | ⟨status, failure⟩ | ⟨others, -⟩
      · exact .inl ⟨status, by rw [failure, status]; rfl⟩
      · exact .inr (.inl ⟨status, by rw [failure, status]; rfl⟩)
      · exact .inr (.inr (.inl ⟨status, by rw [failure, status]; rfl⟩))
      · exact .inr (.inr (.inr (.inl ⟨status, by rw [failure, status]; rfl⟩)))
      · have notClassified : ¬answer.status.isClassified = true := by
          rw [Status.isClassified_iff]
          tauto
        exact .inr (.inr (.inr (.inr ⟨others, if_neg notClassified⟩)))
    · rw [result_sendText client url text credentials network' state' arrives', same, told]
  · intro text encoded
    have recorded : (Call.send write a url credentials).run client network.recording (state, [])
        = (Call.sendText url text credentials).run client network.recording (state, []) :=
      run_send_of_encode client url credentials network.recording (state, []) encoded
    have requests : ((Call.sendText url text credentials).run client network.recording (state, [])).2.2
        = [client.sendRequest url text credentials] := by
      rw [run_recording]
      rfl
    refine ⟨run_send_of_encode client url credentials network state encoded, ?_, requests⟩
    rw [recorded, requests]
  · intro fault failed
    refine ⟨?_, run_send_of_error client url credentials network state failed, ?_⟩
    · obtain ⟨cause, refused, same⟩ := Except.mapError_eq_error_iff.1 failed
      exact ⟨cause, refused, same.symm⟩
    · rw [run_send_of_error client url credentials network.recording (state, []) failed]

/-- A refusal is told from its status, though its body is cut short. A map keyed by integers is sent as its
payload, and one keyed by a list is not sent, deep inside an array though it is. -/
theorem Call.send_outcome_of_refusal :
    let client : Client := ⟨{}, rfl⟩
    let url := "http://localhost/upload"
    let network : Network Nat := fun _ count =>
      (.ok ⟨403, [("content-length", "9")], [.piece [0xFF], .failed "the body is cut short"]⟩, count + 1)
    let numbered : Draft := .object [(.integer 7, .null)]
    let keyed : Draft := .array [.null, .object [(.text "map", .object [(.list [.null], .null)])]]
    ((Call.sendText url "hi" none).run client network 0).1.result = .error (.forbidden url) ∧
      (Call.send Draft.text numbered url none).run client network 0
        = (Call.sendText url "\x7b\n  \"7\": null\n\x7d" none).run client network 0 ∧
      (Call.send Draft.text keyed url none).run client network 0
        = (.failed (.payload (.unwritable .keyWithoutText)), 0) ∧
      (Call.send (fun _ => .error (.refused "no")) 7 url none).run client network 0
        = (.failed (.payload (.unwritable (.refused "no"))), 0) := by
  intro client url network numbered keyed
  obtain ⟨ofText, ofData, ofDraft⟩ := Call.send_outcome client url none network 0
  have forbidden := (ofText "hi" _ rfl).1
  have written : encodeWith Draft.text numbered = .ok "\x7b\n  \"7\": null\n\x7d" := by cbv
  have nameless : keyed.Nameless := .item (.tail _ (.head _)) (.member (.head _) (.name (.head _) rfl))
  have failed : encodeWith Draft.text keyed = .error (.unwritable .keyWithoutText) := by
    rw [encodeWith, (ofDraft keyed _).2 ⟨nameless, rfl⟩]
    rfl
  refine ⟨?_, ((ofData _ numbered).1 _ written).1, ((ofData _ keyed).2 _ failed).2.1,
    ((ofData _ 7).2 _ rfl).2.1⟩
  simpa using forbidden

end Courier
