import Courier.Proofs.Client.Request
import Courier.Proofs.Http.Head

set_option autoImplicit false

/-! # The headers of a request

Whatever a client is made from and given, the headers of its requests have different names, all of them
tokens, and values of plain ASCII (`Headers.WellFormed`). So each is found under its own name, and a reader
of the head finds these headers and no others: no agent, user name, secret or text can bring one in.
-/

namespace Courier

/-! ## Headers that can be sent and told apart -/

def IsPlainByte (b : UInt8) : Prop := b = 0x20 ∨ b = 0x09 ∨ (0x21 ≤ b ∧ b ≤ 0x7E)

/-- Headers with different names, all of them tokens, and with values of plain bytes. -/
structure Headers.WellFormed (headers : Headers) : Prop where
  distinct : headers.Pairwise fun a b => sameName a.1 b.1 = false
  names : ∀ header ∈ headers, isName header.1 = true
  values : ∀ header ∈ headers, ∀ b ∈ Utf8.encode header.2.toList, IsPlainByte b

/-- The headers of a request are well-formed and can be told from each other: each is found under every
spelling of its name, and no other is; a reader of the head gives them back and leaves what follows it. Of
the agent and the credentials they tell what is given. -/
structure Request.WellBuilt (request : Request) (agent : Option String)
    (credentials : Option Credentials) : Prop where
  wellFormed : request.headers.WellFormed
  readable : ∀ rest, Head.lines request.headers.length (Head.write request.headers ++ rest)
    = .ok (request.headers.map Headers.arrived, rest)
  found : ∀ name value spelled, (name, value) ∈ request.headers → Headers.sameName name spelled = true →
    request.header? spelled = some value
  absent : ∀ spelled, (∀ header ∈ request.headers, Headers.sameName header.1 spelled = false) →
    request.header? spelled = none
  agent : ∀ spelled, Headers.sameName "User-Agent" spelled = true → request.header? spelled = agent
  authorization : ∀ spelled, Headers.sameName "Authorization" spelled = true →
    request.header? spelled = credentials.map Credentials.header

namespace Headers

theorem isPlainByte_of_plain {value : String} (h : value.toList.all isPlain = true) :
    ∀ b ∈ Utf8.encode value.toList, IsPlainByte b := by
  rw [List.all_eq_true] at h
  intro b hb
  have ascii : ∀ c ∈ value.toList, c.toNat < 0x80 := by
    intro c hc
    have small := lt_of_isPlain (h c hc)
    omega
  rw [Utf8.encode_ascii ascii] at hb
  obtain ⟨c, hc, rfl⟩ := List.mem_map.1 hb
  have plain := h c hc
  have small := ascii c hc
  unfold isPlain isVisible at plain
  simp only [Bool.or_eq_true, Bool.and_eq_true, beq_iff_eq, decide_eq_true_eq] at plain
  unfold IsPlainByte
  rcases plain with (rfl | rfl) | ⟨low, high⟩
  · exact .inl rfl
  · exact .inr (.inl rfl)
  · refine .inr (.inr ⟨?_, ?_⟩)
    · rw [UInt8.le_iff_toNat_le, Utf8.toNat_ofNat (by omega)]
      exact low
    · rw [UInt8.le_iff_toNat_le, Utf8.toNat_ofNat (by omega)]
      exact high

end Headers

namespace Client

variable {client : Client} {credentials : Option Credentials} {first headers : Headers}

/-- Headers that end with the standing ones. Those before them are plain, and all names are different, also
from those that standing headers can have and do not have here. -/
structure Dressed (client : Client) (credentials : Option Credentials) (first headers : Headers) :
    Prop where
  whole : headers = first ++ client.standingHeaders credentials
  plain : ∀ header ∈ first, Headers.IsPlainHeader header
  distinct : (first.map Prod.fst ++ standingNames).Pairwise fun a b => Headers.sameName a b = false

theorem dressed_fetch (client : Client) (credentials : Option Credentials) (url : String) :
    Dressed client credentials [("Accept-Charset", "UTF-8")] (client.fetchRequest url credentials).headers where
  whole := rfl
  plain := by decide
  distinct := by decide

theorem dressed_send (client : Client) (credentials : Option Credentials) (url text : String) :
    Dressed client credentials
      [("Content-Type", "text/plain; charset=UTF-8"),
        ("Content-Length", Decimal.text (Utf8.size text.toList))]
      (client.sendRequest url text credentials).headers where
  whole := rfl
  plain := sendHeaders_plain _
  distinct := by
    have names : ["Content-Type", "Content-Length", "Cache-Control", "Pragma", "User-Agent",
        "Authorization"].Pairwise fun a b => Headers.sameName a b = false := by decide
    exact names

namespace Dressed

variable (dressed : Dressed client credentials first headers)

include dressed

theorem plain_all : ∀ header ∈ headers, Headers.IsPlainHeader header := by
  intro header hh
  rw [dressed.whole] at hh
  rcases List.mem_append.1 hh with hh | hh
  · exact dressed.plain header hh
  · exact client.standingHeaders_plain credentials header hh

theorem wellFormed : headers.WellFormed where
  distinct := by
    have names : (headers.map Prod.fst).Sublist (first.map Prod.fst ++ standingNames) := by
      rw [dressed.whole, List.map_append]
      exact (List.Sublist.refl _).append (client.names_standingHeaders credentials)
    exact List.pairwise_map.1 (dressed.distinct.sublist names)
  names header hh := (dressed.plain_all header hh).1
  values header hh := Headers.isPlainByte_of_plain (dressed.plain_all header hh).2

/-- None of the first headers has a name that standing ones can have. -/
theorem getAll_first {name : String} (standing : name ∈ standingNames) :
    Headers.getAll first name = [] :=
  Headers.getAll_eq_nil fun header hh =>
    (List.pairwise_append.1 dressed.distinct).2.2 header.1 (List.mem_map_of_mem hh) name standing

theorem get?_agent : headers.get? "User-Agent" = client.settings.agent := by
  rw [dressed.whole, Headers.get?_append_of_other (dressed.getAll_first (by decide)),
    Headers.get?_eq_head?_getAll, client.getAll_standingHeaders_agent credentials, Option.head?_toList]

theorem get?_authorization : headers.get? "Authorization" = credentials.map Credentials.header := by
  have spelled : Headers.sameName "Authorization" "authorization" = true := by decide
  rw [dressed.whole, Headers.get?_append_of_other (dressed.getAll_first (by decide)),
    Headers.get?_congr spelled, Headers.get?_eq_head?_getAll,
    client.getAll_standingHeaders_authorization credentials, Option.head?_toList]

end Dressed

theorem Dressed.wellBuilt {request : Request}
    (dressed : Dressed client credentials first request.headers) :
    request.WellBuilt client.settings.agent credentials where
  wellFormed := dressed.wellFormed
  readable := Head.lines_write dressed.plain_all (Nat.le_refl _)
  found _ _ _ := Headers.get?_of_mem dressed.wellFormed.distinct
  absent _ := Headers.get?_eq_none
  agent spelled same := by
    rw [← dressed.get?_agent]
    exact (Headers.get?_congr same _).symm
  authorization spelled same := by
    rw [← dressed.get?_authorization]
    exact (Headers.get?_congr same _).symm

theorem settings_of_make {settings : Settings} {provider : TlsProvider}
    (made : make settings provider = .ok client) : client.settings = settings := by
  unfold make makeOn at made
  split at made
  · cases made
  · split at made
    · cases made
    · cases made
      rfl

theorem get?_fetchRequest_length (client : Client) (credentials : Option Credentials) (url : String) :
    (client.fetchRequest url credentials).headers.get? "Content-Length" = none := by
  rw [Headers.get?_eq_head?_getAll, (client.dressed_fetch credentials url).whole, Headers.getAll_append,
    client.getAll_standingHeaders_other credentials (by decide)]
  rfl

/-- The requests of a client are built well, whatever settings it has been made from, and whatever text,
user name and secret it is given: a text is sent as its UTF-8, and its length in bytes is told. -/
theorem requests_wellBuilt {settings : Settings} {provider : TlsProvider} {client : Client}
    (made : make settings provider = .ok client) (url text : String) (credentials : Option Credentials) :
    let fetch := client.fetchRequest url credentials
    let send := client.sendRequest url text credentials
    fetch.WellBuilt settings.agent credentials ∧ send.WellBuilt settings.agent credentials ∧
    send.body = some (Utf8.encode text.toList) ∧
    ∀ spelled, Headers.sameName "Content-Length" spelled = true →
      send.header? spelled = some (Decimal.text (Utf8.encode text.toList).length) ∧
      fetch.header? spelled = none := by
  intro fetch send
  rw [← settings_of_make made]
  refine ⟨(client.dressed_fetch credentials url).wellBuilt,
    (client.dressed_send credentials url text).wellBuilt, rfl, ?_⟩
  intro spelled same
  constructor
  · rw [Utf8.length_encode]
    exact (client.dressed_send credentials url text).wellBuilt.found _ _ _
      (List.mem_cons_of_mem _ List.mem_cons_self) same
  · rw [← client.get?_fetchRequest_length credentials url]
    exact (Headers.get?_congr same _).symm

/-- Neither an end of a line in a user name nor a null in a secret gets into a head. -/
theorem requests_wellBuilt_of_controls :
    ∃ client : Client,
      make { agent := some "probe/1.0" } .standard = .ok client ∧
      let credentials : Credentials := ⟨"ada\r\nHost: elsewhere", "\x00", by decide, by decide⟩
      let send := client.sendRequest "http://localhost/upload" "é" (some credentials)
      send.headers.WellFormed ∧ send.header? "USER-AGENT" = some "probe/1.0" ∧
        send.header? "authorization" = some credentials.header ∧
        send.header? "content-length" = some "2" := by
  let settings : Settings := { agent := some "probe/1.0" }
  have sound : settings.fault? = none := by decide
  have made : make settings .standard = .ok ⟨settings, sound⟩ := rfl
  refine ⟨⟨settings, sound⟩, made, ?_⟩
  intro credentials send
  obtain ⟨-, built, -, length⟩ :=
    requests_wellBuilt made "http://localhost/upload" "é" (some credentials)
  exact ⟨built.wellFormed, built.agent _ (by decide), built.authorization _ (by decide),
    (length _ (by decide)).1⟩

end Client

end Courier
