import Courier.Proofs.Client.Call

set_option autoImplicit false

/-! # What a failure tells of itself

A caller looks at a failure in three ways: it asks for the status, for the address, and whether it is one of the
four that are acted on. The answers fit together (`Failure.Consistent`), however the failure has been made: from a
status, from what the network reports, from settings, or by a call. A call fails in one of six ways
(`Call.FailsBy`), so each of them is looked at once.
-/

namespace Courier

namespace Failure

/-- What a failure tells fits together: a status is told exactly with an address, which is the one that was given;
the four failures of their own are those of the four statuses, and no other failure has one of these; and no
status is hidden in a report of the network. -/
structure Consistent (given : Option String) (failure : Failure) : Prop where
  together : failure.status?.isSome = failure.url?.isSome
  verbatim : ∀ url, failure.url? = some url → given = some url
  classified : failure.isClassified = true ↔
    ∃ status, failure.status? = some status ∧ (status = 401 ∨ status = 403 ∨ status = 405 ∨ status = 501)
  unclassified : ∀ url status, failure = .otherStatus url status →
    status ≠ 401 ∧ status ≠ 403 ∧ status ≠ 405 ∧ status ≠ 501
  unhidden : ∀ status, failure ≠ .network (.statusCode status)

/-! ## How failures are made -/

theorem ofStatus_eq_otherStatus {url other : String} {status told : Status}
    (h : ofStatus url status = .otherStatus other told) :
    told = status ∧ status ≠ 401 ∧ status ≠ 403 ∧ status ≠ 405 ∧ status ≠ 501 := by
  rcases ofStatus_cases url status with ⟨-, same⟩ | ⟨-, same⟩ | ⟨-, same⟩ | ⟨-, same⟩ | ⟨others, same⟩
  all_goals rw [same] at h
  · cases h
  · cases h
  · cases h
  · cases h
  · exact ⟨(otherStatus.inj h).2.symm, others⟩

theorem isClassified_ofStatus (url : String) (status : Status) :
    (ofStatus url status).isClassified = true ↔ status = 401 ∨ status = 403 ∨ status = 405 ∨ status = 501 := by
  rcases ofStatus_cases url status with ⟨rfl, same⟩ | ⟨rfl, same⟩ | ⟨rfl, same⟩ | ⟨rfl, same⟩ | ⟨others, same⟩
  all_goals rw [same]
  case inr.inr.inr.inr => exact iff_of_false Bool.false_ne_true (by tauto)
  all_goals exact iff_of_true rfl (by decide)

theorem consistent_ofStatus (url : String) (status : Status) : (ofStatus url status).Consistent (some url) where
  together := by rw [status?_ofStatus, url?_ofStatus, Option.isSome_some, Option.isSome_some]
  verbatim told same := (url?_ofStatus url status).symm.trans same
  classified := by
    rw [isClassified_ofStatus, status?_ofStatus]
    constructor
    · exact fun four => ⟨status, rfl, four⟩
    · rintro ⟨told, same, four⟩
      rwa [Option.some.inj same]
  unclassified other told same := by
    obtain ⟨rfl, others⟩ := ofStatus_eq_otherStatus same
    exact others
  unhidden told := ofStatus_ne rfl url status

/-- A failure that tells no status tells nothing else either. -/
theorem consistent_of_untold {given : Option String} {failure : Failure} (status : failure.status? = none)
    (unhidden : ∀ status, failure ≠ .network (.statusCode status)) : failure.Consistent given := by
  have untold : failure.url? = none ∧ failure.isClassified = false ∧
      ∀ url status, failure ≠ .otherStatus url status := by
    cases failure with
    | unauthorized url => cases status
    | forbidden url => cases status
    | notAllowed url => cases status
    | unknownRequest url => cases status
    | otherStatus url status => cases status
    | network report => exact ⟨rfl, rfl, fun _ _ => nofun⟩
    | io reason => exact ⟨rfl, rfl, fun _ _ => nofun⟩
    | invalidUtf8 fault => exact ⟨rfl, rfl, fun _ _ => nofun⟩
    | payload fault => exact ⟨rfl, rfl, fun _ _ => nofun⟩
    | settings fault => exact ⟨rfl, rfl, fun _ _ => nofun⟩
  obtain ⟨url, classified, others⟩ := untold
  exact
    { together := by
        rw [status, url]
        rfl
      verbatim := fun told same => by
        rw [url] at same
        cases same
      classified := by
        rw [classified, status]
        exact iff_of_false Bool.false_ne_true fun ⟨told, same, _⟩ => by cases same
      unclassified := fun told other same => absurd same (others told other)
      unhidden := unhidden }

/-- A status that the network reports is told like one of an answer. -/
theorem consistent_ofNetwork (url : String) (report : NetworkFailure) :
    (ofNetwork url report).Consistent (some url) := by
  cases report with
  | statusCode status => exact consistent_ofStatus url status
  | disrupted disruption => exact consistent_of_untold rfl fun _ => nofun

end Failure

theorem Client.settings_of_makeOn_error {settings : Settings} {objection : Option TlsFault} {failure : Failure}
    (h : makeOn settings objection = .error failure) : ∃ fault, failure = .settings fault := by
  unfold makeOn at h
  split at h
  · exact ⟨_, (Except.error.inj h).symm⟩
  · cases objection with
    | some fault => exact ⟨_, (Except.error.inj h).symm⟩
    | none => cases h

theorem Client.consistent_of_makeOn {settings : Settings} {objection : Option TlsFault} {failure : Failure}
    (h : makeOn settings objection = .error failure) : failure.Consistent none := by
  obtain ⟨fault, rfl⟩ := settings_of_makeOn_error h
  exact Failure.consistent_of_untold rfl fun _ => nofun

/-! ## What calls fail with -/

namespace Call

variable {α : Type} {call : Call α} {failure : Failure}

theorem FailsBy.consistent (h : call.FailsBy failure) : failure.Consistent (some call.url) := by
  cases h with
  | unwritable _ => exact Failure.consistent_of_untold rfl fun _ => nofun
  | disrupted disruption => exact Failure.consistent_of_untold rfl fun _ => nofun
  | unread _ reason => exact Failure.consistent_of_untold rfl fun _ => nofun
  | noText _ fault => exact Failure.consistent_of_untold rfl fun _ => nofun
  | refused _ => exact Failure.consistent_ofStatus call.url _
  | noData _ fault => exact Failure.consistent_of_untold rfl fun _ => nofun

/-- A send looks at the status alone, and takes only the four for a failure. -/
theorem FailsBy.of_sending (h : call.FailsBy failure) (sending : call.purpose = .sending) :
    (∀ url status, failure ≠ .otherStatus url status) ∧ (∀ fault, failure ≠ .invalidUtf8 fault) ∧
      ∀ reason, failure ≠ .io reason := by
  have post : call.method ≠ .get := by
    rw [method_of_sending sending]
    decide
  cases h with
  | unwritable _ => exact ⟨fun _ _ => nofun, fun _ => nofun, fun _ => nofun⟩
  | disrupted disruption => exact ⟨fun _ _ => nofun, fun _ => nofun, fun _ => nofun⟩
  | unread get reason => exact absurd get post
  | noText get fault => exact absurd get post
  | refused refused =>
    rw [sending] at refused
    refine ⟨fun url status same => ?_, fun fault => Failure.ofStatus_ne rfl _ _, fun reason =>
      Failure.ofStatus_ne rfl _ _⟩
    obtain ⟨-, other⟩ := Failure.ofStatus_eq_otherStatus same
    rcases refused with four | four | four | four
    · exact other.1 four
    · exact other.2.1 four
    · exact other.2.2.1 four
    · exact other.2.2.2 four
  | noData fetching fault =>
    rw [sending] at fetching
    cases fetching

/-- A fetch takes no success for a failure. -/
theorem FailsBy.of_fetching (h : call.FailsBy failure) (fetching : call.purpose = .fetching) (url : String)
    (status : Status) (same : failure = .otherStatus url status) : ¬(200 ≤ status ∧ status ≤ 299) := by
  cases h with
  | unwritable _ => cases same
  | disrupted disruption => cases same
  | unread _ reason => cases same
  | noText _ fault => cases same
  | refused refused =>
    rw [fetching] at refused
    obtain ⟨rfl, -⟩ := Failure.ofStatus_eq_otherStatus same
    exact refused
  | noData _ fault => cases same

end Call

/-! ## The result -/

/-- What every failure tells fits together, wherever it comes from. The failure of a status tells the address that
it was given for; the settings of a client and the ciphers under it have none, so neither has the failure of
making one; and a call tells no address but its own. Where a status always comes with an answer, a send never fails
by a body or by a status other than the four, and a fetch never by a success. -/
theorem failures_consistent :
    (∀ url status, (Failure.ofStatus url status).Consistent (some url)) ∧
    (∀ url report, (Failure.ofNetwork url report).Consistent (some url)) ∧
    (∀ settings objection failure, Client.makeOn settings objection = .error failure → failure.Consistent none) ∧
    ∀ {α σ : Type} (client : Client) (call : Call α) (network : Network σ) (state : σ) (failure : Failure),
      (call.run client network state).1.result = .error failure →
      failure.Consistent (some call.url) ∧
      (network.KeepsStatus →
        (call.purpose = .sending → (∀ url status, failure ≠ .otherStatus url status) ∧
          (∀ fault, failure ≠ .invalidUtf8 fault) ∧ ∀ reason, failure ≠ .io reason) ∧
        (call.purpose = .fetching → ∀ url status, failure = .otherStatus url status →
          ¬(200 ≤ status ∧ status ≤ 299))) := by
  refine ⟨Failure.consistent_ofStatus, Failure.consistent_ofNetwork, ?_, ?_⟩
  · intro settings objection failure failed
    exact Client.consistent_of_makeOn failed
  · intro α σ client call network state failure failed
    rcases Call.failsBy_of_run network state failed with fails | ⟨reports, status, rfl⟩
    · exact ⟨fails.consistent, fun _ => ⟨fails.of_sending, fails.of_fetching⟩⟩
    · exact ⟨Failure.consistent_ofStatus _ _, fun keeps => absurd keeps reports⟩

/-- A page that is missing, a text that is not taken without credentials, and settings without a limit. -/
theorem failures_consistent_of_missing_page :
    let client : Client := ⟨{}, rfl⟩
    let network : Network Unit := fun request state =>
      (.ok ⟨if request.method = .get then 404 else 401, [], []⟩, state)
    let fetch : Call String := .fetchText "http://localhost/page" none
    let send : Call Status := .sendText "http://localhost/page" "a" none
    (fetch.run client network ()).1.result = .error (.otherStatus "http://localhost/page" 404) ∧
      (Failure.otherStatus "http://localhost/page" 404).Consistent (some "http://localhost/page") ∧
      ¬(200 ≤ 404 ∧ 404 ≤ 299) ∧
      (send.run client network ()).1.result = .error (.unauthorized "http://localhost/page") ∧
      (Failure.unauthorized "http://localhost/page").Consistent (some "http://localhost/page") ∧
      (∀ reason, Failure.unauthorized "http://localhost/page" ≠ .io reason) ∧
      Client.makeOn { callLimit := 0 } (some .noCiphers) = .error (.settings .noCallLimit) ∧
      (Failure.settings .noCallLimit).Consistent none := by
  intro client network fetch send
  have missing : (fetch.run client network ()).1.result = .error (.otherStatus "http://localhost/page" 404) := by
    decide +kernel
  have refused : (send.run client network ()).1.result = .error (.unauthorized "http://localhost/page") := rfl
  have unmade : Client.makeOn { callLimit := 0 } (some .noCiphers) = .error (.settings .noCallLimit) := rfl
  obtain ⟨-, -, making, calling⟩ := failures_consistent
  have keeps : network.KeepsStatus := fun request state status => nofun
  obtain ⟨whole, fetching⟩ := calling client fetch network () _ missing
  obtain ⟨whole', sending⟩ := calling client send network () _ refused
  exact ⟨missing, whole, (fetching keeps).2 rfl _ _ rfl, refused, whole', ((sending keeps).1 rfl).2.2, unmade,
    making _ _ _ unmade⟩

end Courier
