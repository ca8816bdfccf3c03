import Courier.Proofs.Sending

set_option autoImplicit false

/-! # Statuses that are no success

A fetch whose status is no success fails, and a send of such a status fails if a caller has to act on it. A
send tells the status whatever stands in the body of the answer. A fetch does so only for a body that is a
text and comes whole: the body is read before the status is looked at, and its own failure wins
(`Call.fetch_failure`).
-/

namespace Courier

open Json

section Fetch

variable {α σ : Type} (client : Client) (shape : Shape α) (url : String)
  (credentials : Option Credentials) {network : Network σ} {state : σ} {answer : Answer}

theorem Call.fetch_of_fetchText_error {failure : Failure}
    (h : ((Call.fetchText url credentials).run client network state).1.result = .error failure) :
    ((Call.fetch shape url credentials).run client network state).1.result = .error failure := by
  rw [result_fetch, h]
  rfl

/-- When the status is no success, the body decides which failure there is: that of the status, of bytes
that are no text, or of a body that is cut short. -/
theorem Call.fetchText_of_noSuccess
    (arrives : (network (client.fetchRequest url credentials) state).1 = .ok answer)
    (noSuccess : ¬(200 ≤ answer.status ∧ answer.status ≤ 299)) :
    let result := ((Call.fetchText url credentials).run client network state).1.result
    (∃ text : String, Delivers answer.body (Utf8.encode text.toList) ∧
      result = .error (Failure.ofStatus url answer.status)) ∨
    (∃ bytes fault, Delivers answer.body bytes ∧ (∀ cs, Utf8.encode cs ≠ bytes) ∧
      result = .error (.invalidUtf8 fault)) ∨
    ∃ reason, (∀ bytes, ¬Delivers answer.body bytes) ∧ result = .error (.io reason) := by
  intro result
  have read : result = _ := result_fetchText client url credentials arrives
  rcases bodyText_cases answer.body with ⟨text, delivers, body⟩ |
    ⟨bytes, fault, delivers, noText, body⟩ | ⟨reason, cut, body⟩
  · refine .inl ⟨text, delivers, ?_⟩
    rw [read, body]
    -- The body is read, so the status is looked at.
    exact if_neg fun h => noSuccess (Status.isSuccess_iff.1 h)
  · refine .inr (.inl ⟨bytes, fault, delivers, noText, ?_⟩)
    rw [read, body]
    rfl
  · refine .inr (.inr ⟨reason, cut, ?_⟩)
    rw [read, body]
    rfl

/-- What a fetch fails with when the status is no success. Both calls fail alike. The failure is that of the
status exactly if the body comes whole and is a text; bytes that are no text, and a body that is cut short,
have failures of their own, which do not tell the status. So all bodies that are texts lead to the same
failure. A send tells a status that a caller has to act on whatever the body is. -/
theorem Call.fetch_failure
    (arrives : (network (client.fetchRequest url credentials) state).1 = .ok answer)
    (noSuccess : ¬(200 ≤ answer.status ∧ answer.status ≤ 299)) :
    (∃ failure,
      ((Call.fetchText url credentials).run client network state).1.result = .error failure ∧
      ((Call.fetch shape url credentials).run client network state).1.result = .error failure ∧
      (failure = Failure.ofStatus url answer.status ↔
        ∃ text : String, Delivers answer.body (Utf8.encode text.toList)) ∧
      ((∃ fault, failure = .invalidUtf8 fault) ↔
        ∃ bytes, Delivers answer.body bytes ∧ ∀ cs, Utf8.encode cs ≠ bytes) ∧
      ((∃ reason, failure = .io reason) ↔ ∀ bytes, ¬Delivers answer.body bytes)) ∧
    ∀ (text : String) (sent : Answer) (σ' : Type) (network' : Network σ') (state' : σ'),
      (network' (client.sendRequest url text credentials) state').1 = .ok sent →
      sent.status = answer.status → answer.status.isClassified = true →
      ((Call.sendText url text credentials).run client network' state').1.result
        = .error (Failure.ofStatus url answer.status) := by
  refine ⟨?_, fun text sent σ' network' state' arrives' same classified => ?_⟩
  · -- The three kinds of bodies exclude each other, and so do the three failures.
    rcases fetchText_of_noSuccess client url credentials arrives noSuccess with
      ⟨text, delivers, failed⟩ | ⟨bytes, fault, delivers, noText, failed⟩ | ⟨reason, cut, failed⟩
    · refine ⟨_, failed, fetch_of_fetchText_error client shape url credentials failed,
        iff_of_true rfl ⟨text, delivers⟩, iff_of_false ?_ ?_, iff_of_false ?_ ?_⟩
      · rintro ⟨fault, h⟩
        exact Failure.ofStatus_ne rfl _ _ h
      · rintro ⟨bytes, delivers', noText⟩
        exact noText text.toList (delivers.unique delivers')
      · rintro ⟨reason, h⟩
        exact Failure.ofStatus_ne rfl _ _ h
      · exact fun cut => cut _ delivers
    · refine ⟨_, failed, fetch_of_fetchText_error client shape url credentials failed,
        iff_of_false ?_ ?_, iff_of_true ⟨fault, rfl⟩ ⟨bytes, delivers, noText⟩, iff_of_false ?_ ?_⟩
      · exact fun h => Failure.ofStatus_ne rfl _ _ h.symm
      · rintro ⟨text, delivers'⟩
        exact noText text.toList (delivers'.unique delivers)
      · rintro ⟨reason, h⟩
        cases h
      · exact fun cut => cut _ delivers
    · refine ⟨_, failed, fetch_of_fetchText_error client shape url credentials failed,
        iff_of_false ?_ ?_, iff_of_false ?_ ?_, iff_of_true ⟨reason, rfl⟩ cut⟩
      · exact fun h => Failure.ofStatus_ne rfl _ _ h.symm
      · rintro ⟨text, delivers⟩
        exact cut _ delivers
      · rintro ⟨fault, h⟩
        cases h
      · rintro ⟨bytes, delivers, -⟩
        exact cut _ delivers
  · rw [result_sendText client url text credentials network' state' arrives', same, if_pos classified]

end Fetch

/-- When the page for the status 401 is cut short, a fetch does not tell the status, and a send does. -/
theorem Call.fetch_failure_of_cut_page :
    let client : Client := ⟨{}, rfl⟩
    let url := "http://localhost/users"
    let network : Network Unit := fun _ state =>
      (.ok ⟨401, [], [.piece [0x3C], .failed "the body is cut short"]⟩, state)
    (∃ reason, ((Call.fetchText url none).run client network ()).1.result = .error (.io reason)) ∧
      ((Call.sendText url "" none).run client network ()).1.result = .error (.unauthorized url) := by
  intro client url network
  have arrives : (network (client.fetchRequest url none) ()).1
      = .ok ⟨401, [], [.piece [0x3C], .failed "the body is cut short"]⟩ := rfl
  obtain ⟨⟨failure, fetched, -, -, -, cut⟩, sends⟩ :=
    Call.fetch_failure client Shape.users url none arrives (by decide)
  refine ⟨?_, sends "" _ Unit network () rfl rfl rfl⟩
  obtain ⟨reason, rfl⟩ := cut.2 fun bytes delivers => by
    cases delivers with
    | piece more => cases more
  exact ⟨reason, fetched⟩

/-- Two pages for the status 401 that a fetch does not tell alike: a byte that is no text hides the status,
and an empty page does not. A send tells it for both. -/
theorem Call.fetch_depends_on_page :
    let client : Client := ⟨{}, rfl⟩
    let url := "http://localhost/users"
    let network (page : List BodyRead) : Network Unit := fun _ state => (.ok ⟨401, [], page⟩, state)
    let fetched (page : List BodyRead) :=
      ((Call.fetchText url none).run client (network page) ()).1.result
    let sent (page : List BodyRead) :=
      ((Call.sendText url "" none).run client (network page) ()).1.result
    fetched [.piece [0xFF]] = .error (.invalidUtf8 (.invalid 0 1)) ∧
      fetched [] = .error (Failure.ofStatus url 401) ∧
      fetched [.piece [0xFF]] ≠ fetched [] ∧
      ∀ page, sent page = .error (Failure.ofStatus url 401) := by
  intro client url network fetched sent
  have arrives (page : List BodyRead) :
      (network page (client.fetchRequest url none) ()).1 = .ok ⟨401, [], page⟩ := rfl
  have noText : fetched [.piece [0xFF]] = .error (.invalidUtf8 (.invalid 0 1)) := by
    rw [show fetched [.piece [0xFF]] = _ from Call.result_fetchText client url none (arrives _)]
    cbv
  have empty : fetched [] = .error (Failure.ofStatus url 401) := by
    rw [show fetched [] = _ from Call.result_fetchText client url none (arrives _)]
    cbv
  refine ⟨noText, empty, ?_, fun page => rfl⟩
  rw [noText, empty]
  intro same
  cases same

end Courier
