import Courier.Proofs.Client.Request
import Courier.Proofs.Wire.Answers

set_option autoImplicit false

/-! # What the service sees of a client

A site knows its own addresses, so a request of a client to one of them arrives, unless its connection is
one that the client does not trust. It arrives with few headers, and with no coding of the body, so the
service is asked with the headers that were sent. Before that, a connection may refuse a request, and then
nothing changes. So the network of a site reaches each fixed path of the service (`network_reaches`).
-/

namespace Courier

/-! ## Addresses of a site -/

namespace Site

theorem scheme_cases (site : Site) : site.scheme = "http" ∨ site.scheme = "https" := by
  unfold scheme
  cases site.secure with
  | true => exact .inr rfl
  | false => exact .inl rfl

theorem ne_of_isAlphanum {c d : Char} (hc : c.isAlphanum = true) (hd : d.isAlphanum = false) : c ≠ d := by
  rintro rfl
  rw [hc] at hd
  cases hd

/-- Neither a host nor the digits of a port have a character in them that ends an authority. -/
theorem isAuthorityChar_of_plain {c : Char} (h : isHostChar c = true ∨ c = ':' ∨ c.isDigit = true) :
    Url.isAuthorityChar c = true := by
  have ofLetter (letter : c.isAlphanum = true) : Url.isAuthorityChar c = true := by
    unfold Url.isAuthorityChar
    simp only [Bool.and_eq_true, bne_iff_ne]
    exact ⟨⟨ne_of_isAlphanum letter (by decide), ne_of_isAlphanum letter (by decide)⟩,
      ne_of_isAlphanum letter (by decide)⟩
  rcases h with host | rfl | digit
  · unfold isHostChar at host
    simp only [Bool.or_eq_true, beq_iff_eq] at host
    rcases host with (letter | rfl) | rfl
    · exact ofLetter letter
    · decide
    · decide
  · decide
  · exact ofLetter (by rw [Char.isAlphanum, digit, Bool.or_true])

theorem authority_of_isAuthority {s : List Char} (h : isAuthority s = true) :
    s ≠ [] ∧ ∀ c ∈ s, Url.isAuthorityChar c = true := by
  unfold isAuthority at h
  rw [List.span_eq_takeWhile_dropWhile, Bool.and_eq_true] at h
  obtain ⟨host, port⟩ := h
  have parts : s.takeWhile isHostChar ++ s.dropWhile isHostChar = s := List.takeWhile_append_dropWhile
  constructor
  · rintro rfl
    cases host
  · intro c hc
    rw [← parts] at hc
    rcases List.mem_append.1 hc with inHost | inPort
    · exact isAuthorityChar_of_plain (.inl (List.mem_takeWhile_imp inHost))
    · cases found : s.dropWhile isHostChar with
      | nil =>
        rw [found] at inPort
        cases inPort
      | cons mark digits =>
        rw [found] at inPort port
        have port : (mark == ':' && (Decimal.word? 16 digits).isSome) = true := port
        rw [Bool.and_eq_true, beq_iff_eq] at port
        obtain ⟨rfl, number⟩ := port
        rcases List.mem_cons.1 inPort with rfl | later
        · exact isAuthorityChar_of_plain (.inr (.inl rfl))
        · exact isAuthorityChar_of_plain (.inr (.inr (Decimal.isDigit_of_word? number c later)))

theorem toList_base (site : Site) (path : String) :
    (site.base ++ path).toList
      = site.scheme.toList ++ [':', '/', '/'] ++ (site.authority.toList ++ path.toList) := by
  unfold base
  rw [String.toList_append, String.toList_append, String.toList_append, List.append_assoc]
  rfl

theorem size_base_le (site : Site) {path : String} (short : Utf8.size path.toList ≤ 1000) :
    Utf8.size (site.base ++ path).toList ≤ Url.sizeLimit := by
  have scheme : Utf8.size site.scheme.toList ≤ 5 := by
    rcases site.scheme_cases with h | h
    · rw [h]; decide
    · rw [h]; decide
  have mark : Utf8.size [':', '/', '/'] = 3 := by decide
  have authority := site.authority_size
  rw [toList_base, Utf8.size_append, Utf8.size_append, Utf8.size_append, mark]
  unfold Url.sizeLimit
  omega

theorem scheme?_base (site : Site) (path : String) :
    Url.scheme? (site.base ++ path).toList = some (site.scheme.toList, site.authority.toList ++ path.toList) := by
  rw [toList_base]
  rcases site.scheme_cases with h | h
  · rw [h]; rfl
  · rw [h]; rfl

/-- An address of the site leads to what its path names, if it is not too long. -/
theorem target_base (site : Site) {path : String} {target : Target} {rest : List Char}
    (absolute : path.toList = '/' :: rest) (short : Utf8.size path.toList ≤ 1000)
    (named : Target.ofChars? path.toList = some target) :
    site.target (site.base ++ path) = .ok target := by
  have notSpecial : Url.isAuthorityChar '/' = false := by decide
  obtain ⟨notEmpty, plain⟩ := authority_of_isAuthority site.authority_sound
  -- No slash stands in the authority, so it ends where the path begins.
  have authorityRead : (site.authority.toList ++ path.toList).span Url.isAuthorityChar
      = (site.authority.toList, path.toList) := by
    rw [absolute]
    exact span_append_cons plain notSpecial rest
  have read : Url.ofChars? (site.base ++ path).toList
      = some ⟨site.scheme.toList, site.authority.toList, target⟩ := by
    unfold Url.ofChars?
    rw [if_neg (Nat.not_lt.2 (site.size_base_le short)), scheme?_base]
    simp only [Option.bind_eq_bind, Option.bind_some, authorityRead, named]
    rw [if_neg (by simpa using notEmpty)]
    rfl
  unfold Site.target
  rw [read]
  simp

end Site

namespace Service

/-! ## What a connection lets through -/

theorem receive_plain {store : Store} {count : Nat} {inquiry : Inquiry} (few : count ≤ headerLimit)
    (plain : ∀ header ∈ inquiry.headers, Headers.sameName header.1 "transfer-encoding" = false) :
    receive store count inquiry = handle store inquiry := by
  have noCoding : inquiry.headers.getAll "transfer-encoding" = [] := Headers.getAll_eq_nil plain
  have ends : hasEnd inquiry.headers = true := by
    unfold hasEnd Headers.codings
    rw [noCoding]
    rfl
  have others : ∀ header ∈ inquiry.headers, (header.1 != "transfer-encoding") = true := by
    intro header hh
    rw [bne_iff_ne]
    intro same
    have different := plain header hh
    rw [same] at different
    exact absurd different (by decide)
  -- Headers are only dropped after a coding, and there is none.
  have kept : heard inquiry.headers = inquiry.headers := by
    unfold heard
    rw [List.span_eq_takeWhile_dropWhile]
    show inquiry.headers.takeWhile _ ++ Headers.without (inquiry.headers.dropWhile _) _ = _
    rw [List.takeWhile_eq_self_iff.2 others, List.dropWhile_eq_nil_iff.2 others]
    exact List.append_nil _
  unfold receive
  rw [if_neg (Nat.not_lt.2 few), ends, kept]
  rfl

/-- What a connection refuses, and what the service does not accept, changes nothing. -/
theorem receive_other {store : Store} {count : Nat} {inquiry : Inquiry}
    (h : ¬Accepted inquiry (receive store count inquiry).1) : (receive store count inquiry).2 = store := by
  unfold receive at h ⊢
  by_cases many : headerLimit < count
  · rw [if_pos many]
  · rw [if_neg many] at h ⊢
    by_cases endless : (!hasEnd inquiry.headers) = true
    · rw [if_pos endless]
    · rw [if_neg endless] at h ⊢
      exact handle_other h

/-- The answers to requests that arrive one after the other, each with a count of headers, and what the
service keeps in the end. -/
def receiveAll (store : Store) : List (Nat × Inquiry) → List Reply × Store
  | [] => ([], store)
  | (count, inquiry) :: arrivals =>
    let (reply, store) := receive store count inquiry
    let (replies, store) := receiveAll store arrivals
    (reply :: replies, store)

theorem receiveAll_other {store : Store} {arrivals : List (Nat × Inquiry)}
    (h : ∀ p ∈ arrivals.zip (receiveAll store arrivals).1, ¬Accepted p.1.2 p.2) :
    (receiveAll store arrivals).2 = store := by
  induction arrivals generalizing store with
  | nil => rfl
  | cons arrival arrivals ih =>
    obtain ⟨count, inquiry⟩ := arrival
    have same : (receive store count inquiry).2 = store :=
      receive_other (h ((count, inquiry), (receive store count inquiry).1) List.mem_cons_self)
    have rest : (receiveAll (receive store count inquiry).2 arrivals).2
        = (receive store count inquiry).2 :=
      ih fun p hp => h p (List.mem_cons_of_mem _ hp)
    show (receiveAll (receive store count inquiry).2 arrivals).2 = store
    rw [rest, same]

/-! ## Requests of a client -/

section Client

variable {client : Client} {credentials : Option Credentials}

theorem length_arrivedStanding : (client.arrivedStanding credentials).length ≤ 4 := by
  unfold Client.arrivedStanding
  simp only [List.length_append, List.length_cons, List.length_nil]
  have agent := Option.length_toList_le (o := client.settings.agent.map fun agent =>
    ("user-agent", String.ofList (Headers.trim agent.toList)))
  have token := Option.length_toList_le (o := credentials.map fun c => ("authorization", c.header))
  omega

/-- A request of a client gets through as it is: few headers come before its standing ones, and none of
them tells of a coding. -/
theorem receive_request {store : Store} {request : Request} {inquiry : Inquiry} {first : Headers}
    (arrives : inquiry.headers = request.arriving)
    (headers : request.arriving = first ++ client.arrivedStanding credentials) (few : first.length ≤ 2)
    (plain : ∀ header ∈ first, Headers.sameName header.1 "transfer-encoding" = false) :
    receive store request.headerCount inquiry = handle store inquiry := by
  apply receive_plain
  · -- Two headers at most, four that are standing, and four that are put to them.
    have standing := @length_arrivedStanding client credentials
    have added := List.countP_le_length (p := fun name => (request.headers.get? name).isNone)
      (l := Headers.customary)
    have customary : Headers.customary.length = 4 := rfl
    unfold Request.headerCount headerLimit
    rw [headers, List.length_append]
    omega
  · intro header hh
    rw [arrives, headers] at hh
    rcases List.mem_append.1 hh with hh | hh
    · exact plain header hh
    · have named : ∀ name ∈ ["cache-control", "pragma", "user-agent", "authorization"],
          Headers.sameName name "transfer-encoding" = false := by decide
      exact named _ (client.name_of_mem_arrivedStanding credentials hh)

end Client

end Service

/-! ## Requests that arrive -/

section Requests

variable {client : Client} {url : String} {request : Request}

/-- The standing headers arrive under the same names, and with the same values, but for that of the agent. -/
theorem Client.alike_standing (client : Client) (credentials : Option Credentials) {wanted : String}
    (other : Headers.sameName "User-Agent" wanted = false) :
    List.Forall₂ (fun a b => Headers.sameName a.1 b.1 = true ∧ (Headers.sameName a.1 wanted = true → a.2 = b.2))
      (client.standingHeaders credentials) (client.arrivedStanding credentials) := by
  unfold standingHeaders arrivedStanding
  refine List.rel_append (List.rel_append ?_ ?_) ?_
  · exact .cons ⟨by decide, fun _ => rfl⟩ (.cons ⟨by decide, fun _ => rfl⟩ .nil)
  · cases client.settings.agent with
    | none => exact .nil
    | some agent =>
      refine .cons ⟨show Headers.sameName "User-Agent" "user-agent" = true by decide, fun same => ?_⟩ .nil
      exact absurd (other.symm.trans same) (by decide)
  · cases credentials with
    | none => exact .nil
    | some c =>
      exact .cons ⟨show Headers.sameName "Authorization" "authorization" = true by decide, fun _ => rfl⟩ .nil

/-- How a request of a client arrives: with one or two headers of its own kind, and the standing ones. -/
theorem Client.Builds.arriving (builds : client.Builds url request) :
    ∃ own first credentials, request.headers = own ++ client.standingHeaders credentials ∧
      request.arriving = first ++ client.arrivedStanding credentials ∧ first.length ≤ 2 ∧
      (∀ header ∈ first, Headers.sameName header.1 "transfer-encoding" = false) ∧
      List.Forall₂ (fun a b => Headers.sameName a.1 b.1 = true ∧ a.2 = b.2) own first := by
  cases builds with
  | fetch credentials =>
    refine ⟨[("Accept-Charset", "UTF-8")], _, credentials, rfl, client.arriving_fetchRequest credentials url,
      by decide, by decide, ?_⟩
    exact .cons ⟨by decide, rfl⟩ .nil
  | send text credentials =>
    refine ⟨[_, _], _, credentials, rfl, client.arriving_sendRequest credentials url text, by simp, ?_, ?_⟩
    · intro header hh
      simp only [List.mem_cons, List.not_mem_nil, or_false] at hh
      rcases hh with rfl | rfl
      · decide
      · show Headers.sameName "content-length" "transfer-encoding" = false
        decide
    · exact .cons ⟨by decide, rfl⟩ <|
        .cons ⟨show Headers.sameName "Content-Length" "content-length" = true by decide, rfl⟩ .nil

/-- The headers that the service looks at are not changed on the way. -/
theorem Client.Builds.get?_arriving (builds : client.Builds url request) {name : String} (seen : name ∈ seenNames) :
    request.arriving.get? name = request.headers.get? name := by
  have other : ∀ name ∈ seenNames, Headers.sameName "User-Agent" name = false := by decide
  obtain ⟨own, first, credentials, headers, arriving, -, -, alike⟩ := builds.arriving
  rw [headers, arriving]
  refine (Headers.get?_of_alike (List.rel_append ?_ (client.alike_standing credentials (other name seen)))).symm
  exact alike.imp fun _ _ same => ⟨same.1, fun _ => same.2⟩

/-- If a request of a client leaves at all, then with its whole body. -/
theorem Client.Builds.outgoing_eq (builds : client.Builds url request) {body : List UInt8}
    (leaves : request.outgoing = .ok body) : body = request.body.getD [] := by
  cases builds with
  | fetch credentials =>
    rw [client.outgoing_fetchRequest] at leaves
    exact (Except.ok.inj leaves).symm
  | send text credentials =>
    rw [client.outgoing_sendRequest] at leaves
    split at leaves
    · exact (Except.ok.inj leaves).symm
    · cases leaves

namespace Site

variable {site : Site} {trust : Trust} {target : Target}

/-- A request of a client that is delivered arrives over a connection that is trusted, and whole. -/
theorem deliver_eq_ok (known : site.target url = .ok target) (builds : client.Builds url request)
    {inquiry : Service.Inquiry} (delivered : site.deliver trust request = .ok inquiry) :
    (site.secure && trust.verifies) = false ∧
      inquiry = ⟨request.method.name, target, request.arriving, request.body.getD []⟩ := by
  have there : request.url = url := by cases builds <;> rfl
  unfold deliver at delivered
  cases leaves : request.outgoing with
  | error disruption =>
    rw [leaves] at delivered
    cases delivered
  | ok body =>
    rw [leaves] at delivered
    simp only [there, known] at delivered
    split at delivered
    · cases delivered
    · next trusted =>
      rw [← builds.outgoing_eq leaves]
      exact ⟨by simpa using trusted, (Except.ok.inj delivered).symm⟩

/-- What leaves is delivered over a connection that is trusted. -/
theorem exists_deliver_eq_ok (known : site.target url = .ok target) (builds : client.Builds url request)
    (trusted : (site.secure && trust.verifies) = false) {body : List UInt8} (leaves : request.outgoing = .ok body) :
    ∃ inquiry, site.deliver trust request = .ok inquiry := by
  have there : request.url = url := by cases builds <;> rfl
  unfold deliver
  rw [leaves]
  simp only [there, known, trusted]
  exact ⟨_, rfl⟩

end Site

end Requests

/-! ## What a site reaches -/

namespace Service

theorem delivers_ofBody (bytes : List UInt8) : Delivers (BodyRead.ofBody (.ok bytes)) bytes := by
  cases bytes with
  | nil => exact .closed
  | cons b bs =>
    have delivers : Delivers [.piece (b :: bs)] (b :: (bs ++ [])) := .piece .closed
    rw [List.append_nil] at delivers
    exact delivers

/-- A reply goes back as it is, if its status has a body. -/
theorem returnsAs_arrive {reply : Reply} (bodied : reply.status.isBodiless = false) :
    reply.ReturnsAs reply.returned.arrive := by
  have returned : reply.returned = reply := by
    unfold Status.isBodiless at bodied
    simp only [Bool.or_eq_false_iff, decide_eq_false_iff_not] at bodied
    unfold Reply.returned
    exact if_neg (by simp [bodied.1.1])
  rw [returned]
  refine ⟨rfl, ?_⟩
  show Delivers (BodyRead.ofBody (.ok (if reply.status.isBodiless then [] else _))) _
  rw [bodied]
  exact delivers_ofBody _

theorem isBodiless_readOnly {method allowed : String} {reply : Reply} (bodied : reply.status.isBodiless = false) :
    (readOnly method allowed reply).status.isBodiless = false := by
  unfold readOnly
  split
  · exact bodied
  · split
    · exact bodied
    · rfl

theorem isBodiless_answer (store : Store) (inquiry : Inquiry) {route : Route}
    (fixed : ∀ segment, route ≠ .status segment) :
    (answer store inquiry route).1.status.isBodiless = false := by
  cases route with
  | status segment => exact absurd rfl (fixed segment)
  | guarded =>
    refine isBodiless_readOnly ?_
    unfold guarded
    split
    · rfl
    · split <;> rfl
  | upload =>
    simp only [answer]
    split
    · show (upload inquiry).1.status.isBodiless = false
      unfold upload
      split
      · rfl
      · split <;> rfl
    · refine isBodiless_readOnly ?_
      unfold lastUpload
      split <;> rfl
  | _ => exact isBodiless_readOnly rfl

theorem target_fixed (site : Site) {path : String} {route : Route} (fixed : (path, route) ∈ Route.fixed) :
    site.target (site.base ++ path) = .ok ⟨path.toList, none⟩ := by
  have facts : ∀ p ∈ Route.fixed, p.1.toList = '/' :: p.1.toList.tail ∧ Utf8.size p.1.toList ≤ 1000 ∧
      Target.ofChars? p.1.toList = some ⟨p.1.toList, none⟩ := by decide
  obtain ⟨absolute, short, named⟩ := facts _ fixed
  exact site.target_base absolute short named

/-- Over a connection that is trusted, what leaves is answered. -/
theorem network_answers {client : Client} {site : Site} {trust : Trust} {path : String} {route : Route}
    (fixed : (path, route) ∈ Route.fixed) (trusted : (site.secure && trust.verifies) = false) {request : Request}
    (builds : client.Builds (site.base ++ path) request) {body : List UInt8} (leaves : request.outgoing = .ok body)
    (store : Store) : ∃ answer, (network site trust request store).1 = .ok answer := by
  obtain ⟨inquiry, arrives⟩ := Site.exists_deliver_eq_ok (target_fixed site fixed) builds trusted leaves
  unfold network
  rw [arrives]
  exact ⟨_, rfl⟩

theorem deliver_of_answered {site : Site} {trust : Trust} {request : Request} {store : Store} {answer : Answer}
    (answered : (network site trust request store).1 = .ok answer) :
    ∃ inquiry, site.deliver trust request = .ok inquiry := by
  unfold network at answered
  cases arrives : site.deliver trust request with
  | error disruption =>
    rw [arrives] at answered
    cases answered
  | ok inquiry => exact ⟨inquiry, rfl⟩

theorem handle_fixed (store : Store) {path : String} {route : Route} (fixed : (path, route) ∈ Route.fixed)
    {inquiry : Inquiry} (there : inquiry.target.path = path.toList) :
    handle store inquiry = answer store inquiry route := by
  have leads : ∀ p ∈ Route.fixed, Route.ofPath? p.1.toList = some p.2 := by decide
  unfold handle
  rw [there, leads _ fixed]

/-- What is answered from the address of a fixed path is the reply of the service there. -/
theorem network_serves {client : Client} {site : Site} {trust : Trust} {path : String} {route : Route}
    (fixed : (path, route) ∈ Route.fixed) {request : Request} (builds : client.Builds (site.base ++ path) request)
    {store : Store} {answer : Answer} (answered : (network site trust request store).1 = .ok answer) :
    ∃ inquiry, request.ArrivesAs path.toList inquiry ∧ (handle store inquiry).1.ReturnsAs answer ∧
      (network site trust request store).2 = (handle store inquiry).2 := by
  obtain ⟨inquiry, arrives⟩ := deliver_of_answered answered
  obtain ⟨-, rfl⟩ := Site.deliver_eq_ok (target_fixed site fixed) builds arrives
  obtain ⟨own, first, credentials, -, arriving, few, plain, -⟩ := builds.arriving
  let inquiry : Inquiry := ⟨request.method.name, ⟨path.toList, none⟩, request.arriving, request.body.getD []⟩
  have received : receive store request.headerCount inquiry = handle store inquiry :=
    receive_request rfl arriving few plain
  have resource : ∀ segment, route ≠ .status segment := by
    rintro segment rfl
    simp [Route.fixed] at fixed
  unfold network at answered ⊢
  simp only [arrives] at answered ⊢
  rw [received] at answered ⊢
  refine ⟨inquiry, ⟨rfl, rfl, fun name seen => builds.get?_arriving seen, rfl⟩, ?_, rfl⟩
  rw [← Except.ok.inj answered]
  apply returnsAs_arrive
  rw [handle_fixed store fixed rfl]
  exact isBodiless_answer store inquiry resource

/-- The network of a site reaches each fixed path of the service from the address of the path, for every client. If
connections are not trusted, then because nothing is ever answered. -/
theorem network_reaches (client : Client) (site : Site) (trust : Trust) {path : String} {route : Route}
    (fixed : (path, route) ∈ Route.fixed) :
    (network site trust).Reaches client (site.base ++ path) path.toList id where
  served builds answered := network_serves fixed builds answered
  steady builds answered credentials later := by
    obtain ⟨inquiry, arrives⟩ := deliver_of_answered answered
    obtain ⟨trusted, -⟩ := Site.deliver_eq_ok (target_fixed site fixed) builds arrives
    exact network_answers fixed trusted (.fetch credentials) (client.outgoing_fetchRequest credentials _) later

end Service

end Courier
