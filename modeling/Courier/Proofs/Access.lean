import Courier.Proofs.Client.Headers
import Courier.Proofs.Credentials
import Courier.Proofs.Wire.Service
import Mathlib.Data.List.Find

set_option autoImplicit false

/-! # Who may read the guarded users

A token joins a user name and a secret by a colon. Two pairs can have one token, as `a:b` with `c` has that
of `a` with `b:c`; but no account has a colon in its name or its secret, so its token is that of no other
pair (`basicToken_eq_iff`). So the service knows who asks exactly if a client has been given the pair of an
account, and this decides what a fetch of the guarded users comes to (`fetch_guarded`).
-/

namespace Courier

open Json

/-! ## Pairs -/

namespace Credentials

def ofPair? (pair : Option (String × String)) : Option Credentials :=
  pair.bind fun (username, secret) => of? username secret

end Credentials

namespace Service

/-! ## Accounts -/

/-- A client and the service make the same token of a name and a secret. -/
theorem basicToken_eq (username secret : String) : basicToken username secret = Courier.basicToken username secret :=
  rfl

theorem accounts_plain : ∀ account ∈ accounts,
    ':' ∉ account.username.toList ∧ ':' ∉ account.secret.toList := by
  decide

theorem accounts_filled : ∀ account ∈ accounts, account.username ≠ "" ∧ account.secret ≠ "" := by
  decide

/-- A request with the header of credentials is that of the account with the same name and secret. -/
theorem account?_header {headers : Headers} {c : Credentials}
    (told : plainHeader? headers "authorization" = some c.header) :
    account? headers = accounts.find? fun account => account = ⟨c.username, c.secret⟩ := by
  have chars : c.header.toList = "Basic ".toList ++ (basicToken c.username c.secret).toList :=
    String.toList_append
  have one : ∀ account ∈ accounts,
      decide ((basicToken account.username account.secret).toList = (basicToken c.username c.secret).toList)
        = decide (account = ⟨c.username, c.secret⟩) := by
    intro account known
    obtain ⟨plain, plain'⟩ := accounts_plain account known
    rw [decide_eq_decide, String.toList_inj, basicToken_eq, basicToken_eq, basicToken_eq_iff plain plain',
      Account.mk.injEq]
  unfold account?
  rw [told, Option.bind_eq_bind, Option.bind_some]
  simp only [chars, List.take_left', List.drop_left', if_true]
  exact List.find?_congr one

theorem account?_none {headers : Headers} (untold : plainHeader? headers "authorization" = none) :
    account? headers = none := by
  unfold account?
  rw [untold]
  rfl

theorem find?_account_eq_some_iff {wanted account : Account} :
    (accounts.find? fun known => known = wanted) = some account ↔ account ∈ accounts ∧ account = wanted := by
  constructor
  · intro found
    exact ⟨List.mem_of_find?_eq_some found, by simpa using List.find?_some found⟩
  · rintro ⟨known, rfl⟩
    obtain ⟨first, found⟩ := Option.isSome_iff_exists.1
      (List.find?_isSome.2 ⟨account, known, decide_eq_true rfl⟩ :
        (accounts.find? fun known => known = account).isSome = true)
    have same : first = account := by simpa using List.find?_some found
    rw [found, same]

section Access

variable {client : Client} {url : String} {path : List Char} {inquiry : Inquiry}

/-- A client is known as an account exactly if it has been given the name and the secret of the account. -/
theorem account?_eq_some_iff {pair : Option (String × String)}
    (arrives : (client.fetchRequest url (Credentials.ofPair? pair)).ArrivesAs path inquiry) (account : Account) :
    account? inquiry.headers = some account ↔
      account ∈ accounts ∧ pair = some (account.username, account.secret) := by
  have told : plainHeader? inquiry.headers "authorization"
      = (Credentials.ofPair? pair).map Credentials.header := by
    refine arrives.plainHeader?_eq (by decide) ?_ fun value sent => ?_
    · rw [← (client.dressed_fetch (Credentials.ofPair? pair) url).get?_authorization]
      exact Headers.get?_congr (by decide) _
    · obtain ⟨c, -, rfl⟩ := Option.map_eq_some_iff.1 sent
      exact c.header_plain
  cases pair with
  | none =>
    rw [account?_none told]
    simp
  | some given =>
    obtain ⟨username, secret⟩ := given
    have credentials : Credentials.ofPair? (some (username, secret)) = Credentials.of? username secret := rfl
    rw [credentials] at told
    rcases Credentials.of?_cases username secret with ⟨c, filled, rfl, rfl⟩ | ⟨none, empty⟩
    · rw [filled] at told
      rw [account?_header told, find?_account_eq_some_iff]
      obtain ⟨name, word⟩ := account
      simp [eq_comm]
    · rw [none] at told
      rw [account?_none told]
      -- An account has no empty part.
      refine iff_of_false (by simp) ?_
      rintro ⟨known, same⟩
      obtain ⟨rfl, rfl⟩ := Prod.mk.inj (Option.some.inj same)
      obtain ⟨name, word⟩ := accounts_filled account known
      exact empty.elim name word

/-! ## The guarded users -/

def guardedPath : List Char := "/protected".toList

def User.received (user : User) : Courier.User where
  username := user.username
  displayName := user.displayName
  canAdmin := user.canAdmin
  repositories := user.repositories

theorem usersValue_eq : usersValue = Shape.users.write (users.map User.received) := rfl

theorem handle_guarded (store : Store) {inquiry : Inquiry} (get : inquiry.method = "GET")
    (path : inquiry.target.path = guardedPath) : (handle store inquiry).1 = guarded inquiry.headers := by
  have route : Route.ofPath? inquiry.target.path = some .guarded := by
    rw [path]
    decide
  unfold handle
  rw [route]
  exact if_pos get

section Fetch

variable {σ : Type} {network : Network σ} {kept : σ → Store} {state : σ}

/-- What a fetch of the guarded users comes to, by the account that asks. -/
theorem result_fetch_guarded (reaches : network.Reaches client url guardedPath kept) {credentials : Option Credentials}
    (answered : ∃ answer, (network (client.fetchRequest url credentials) state).1 = .ok answer) :
    ∃ inquiry, (client.fetchRequest url credentials).ArrivesAs guardedPath inquiry ∧
      ((Call.fetch .users url credentials).run client network state).1.result =
        match account? inquiry.headers with
        | none => .error (.unauthorized url)
        | some account =>
          if account.username = admin.username then .ok (some (users.map User.received))
          else .error (.forbidden url) := by
  obtain ⟨answer, answered⟩ := answered
  obtain ⟨inquiry, arrives, returns, -⟩ := reaches.served (.fetch credentials) answered
  refine ⟨inquiry, arrives, ?_⟩
  rw [handle_guarded (kept state) arrives.method arrives.path] at returns
  unfold guarded at returns
  cases asking : account? inquiry.headers with
  | none =>
    rw [asking] at returns
    exact fetch_bare answered returns (by decide)
  | some account =>
    simp only [asking] at returns ⊢
    by_cases may : account.username = admin.username
    · rw [if_pos may] at returns ⊢
      refine fetch_document answered returns ?_
      rw [usersValue_eq]
      exact decode_document Shape.users_faithful (by decide) _
    · rw [if_neg may] at returns ⊢
      exact fetch_bare answered returns (by decide)

/-- Each pair is that of the one account, that of the other, or that of nobody. -/
theorem fetch_guarded_cases (reaches : network.Reaches client url guardedPath kept) {pair : Option (String × String)}
    (answered : ∃ answer, (network (client.fetchRequest url (Credentials.ofPair? pair)) state).1 = .ok answer) :
    let fetched := ((Call.fetch .users url (Credentials.ofPair? pair)).run client network state).1.result
    (pair = some ("admin", "admin") ∧ fetched = .ok (some (users.map User.received))) ∨
    (pair = some ("guest", "guest") ∧ fetched = .error (.forbidden url)) ∨
    (pair ≠ some ("admin", "admin") ∧ pair ≠ some ("guest", "guest") ∧ fetched = .error (.unauthorized url)) := by
  intro fetched
  obtain ⟨inquiry, arrives, result⟩ := result_fetch_guarded reaches answered
  have who := account?_eq_some_iff arrives
  have result : fetched = _ := result
  by_cases asAdmin : pair = some ("admin", "admin")
  · rw [(who admin).2 ⟨by decide, asAdmin⟩] at result
    exact .inl ⟨asAdmin, result⟩
  by_cases asGuest : pair = some ("guest", "guest")
  · rw [(who guest).2 ⟨by decide, asGuest⟩] at result
    exact .inr (.inl ⟨asGuest, result⟩)
  -- Whoever is known is one of the two.
  have nobody : account? inquiry.headers = none := by
    refine Option.eq_none_iff_forall_ne_some.2 fun account known => ?_
    obtain ⟨one, given⟩ := (who account).1 known
    simp only [accounts, List.mem_cons, List.not_mem_nil, or_false] at one
    rcases one with rfl | rfl
    · exact asAdmin given
    · exact asGuest given
  rw [nobody] at result
  exact .inr (.inr ⟨asAdmin, asGuest, result⟩)

/-- Over any network that reaches them, the guarded users are fetched exactly with the name and the secret of the
one account that may read them. With those of the other account the fetch is forbidden, and without credentials, or
with any other pair, it is unauthorized. No other pair has a header that the service takes for that of an account,
since the two sides make the same header of a pair. -/
theorem fetch_guarded (reaches : network.Reaches client url guardedPath kept) (pair : Option (String × String))
    (answered : ∃ answer, (network (client.fetchRequest url (Credentials.ofPair? pair)) state).1 = .ok answer) :
    let fetched := ((Call.fetch .users url (Credentials.ofPair? pair)).run client network state).1.result
    (fetched = .ok (some (users.map User.received)) ↔ pair = some ("admin", "admin")) ∧
    (fetched = .error (.forbidden url) ↔ pair = some ("guest", "guest")) ∧
    (fetched = .error (.unauthorized url) ↔
      pair ≠ some ("admin", "admin") ∧ pair ≠ some ("guest", "guest")) ∧
    (∀ inquiry, (client.fetchRequest url (Credentials.ofPair? pair)).ArrivesAs guardedPath inquiry →
      ∀ account, account? inquiry.headers = some account ↔
        account ∈ accounts ∧ pair = some (account.username, account.secret)) ∧
    ∀ c : Credentials, c.header = "Basic " ++ basicToken c.username c.secret := by
  intro fetched
  have who (inquiry : Inquiry)
      (arrives : (client.fetchRequest url (Credentials.ofPair? pair)).ArrivesAs guardedPath inquiry) :=
    account?_eq_some_iff arrives
  have agree (c : Credentials) : c.header = "Basic " ++ basicToken c.username c.secret := by
    rw [basicToken_eq]
    rfl
  -- The three cases exclude each other, and so do the three results.
  rcases fetch_guarded_cases reaches answered with
    ⟨asAdmin, found⟩ | ⟨asGuest, found⟩ | ⟨notAdmin, notGuest, found⟩
  · have found : fetched = .ok (some (users.map User.received)) := found
    refine ⟨iff_of_true found asAdmin, ?_, ?_, who, agree⟩
    · simp [found, asAdmin]
    · simp [found, asAdmin]
  · have found : fetched = .error (.forbidden url) := found
    refine ⟨?_, iff_of_true found asGuest, ?_, who, agree⟩
    · simp [found, asGuest]
    · simp [found, asGuest]
  · have found : fetched = .error (.unauthorized url) := found
    refine ⟨?_, ?_, iff_of_true found ⟨notAdmin, notGuest⟩, who, agree⟩
    · simp [found, notAdmin]
    · simp [found, notGuest]

end Fetch

end Access

/-- The two accounts, and a stranger whose name has the colon of the first one in it, at a site whose connections are
secured by a certificate that the client does not verify. -/
theorem fetch_guarded_by_three :
    let client : Client := ⟨{}, rfl⟩
    let site : Site := { authority := "localhost:8080", secure := true }
    let url := site.base ++ "/protected"
    let fetched (username secret : String) :=
      ((Call.fetch .users url (Credentials.ofPair? (some (username, secret)))).run client
        (network site client.settings.trust) []).1.result
    fetched "admin" "admin" = .ok (some [⟨"admin", some "Administrator", true, []⟩,
      ⟨"guest", none, false, ["docs.git"]⟩]) ∧
    fetched "guest" "guest" = .error (.forbidden "https://localhost:8080/protected") ∧
    fetched "admin:admin" "admin" = .error (.unauthorized "https://localhost:8080/protected") := by
  intro client site url fetched
  have fixed : ("/protected", .guarded) ∈ Route.fixed := by decide
  have trusted : (site.secure && client.settings.trust.verifies) = false := rfl
  have reaches := network_reaches client site client.settings.trust fixed
  have answered (pair : Option (String × String)) :=
    network_answers fixed trusted (.fetch (Credentials.ofPair? pair)) (client.outgoing_fetchRequest _ url) []
  exact ⟨(fetch_guarded reaches (some ("admin", "admin")) (answered _)).1.2 rfl,
    (fetch_guarded reaches (some ("guest", "guest")) (answered _)).2.1.2 rfl,
    (fetch_guarded reaches (some ("admin:admin", "admin")) (answered _)).2.2.1.2 ⟨by decide, by decide⟩⟩

end Service

end Courier
