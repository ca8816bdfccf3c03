import Courier.Base64.Lemmas
import Courier.Client.Basic
import Courier.Proofs.Http.Header
import Courier.Proofs.Text.Decimal
import Courier.Text.Utf8.Lemmas
import Courier.Wire.Service

set_option autoImplicit false

/-! # The requests of a client get through

A client puts only headers into its requests that can be sent: its own are fixed texts and numerals, the
name it gives of itself has been looked at when it was made, and credentials are Base64. So both kinds of
requests leave, and what a server sees of them is known header by header.
-/

namespace Courier

/-! ## Numerals and tokens -/

namespace Decimal

theorem isVisible_of_mem_digits {c : Char} {n : Nat} (h : c ∈ digits n) : Headers.isVisible c = true :=
  Headers.isVisible_of_isDigit (isDigit_of_mem_digits h)

theorem text_visible (n : Nat) : ∀ c ∈ (text n).toList, Headers.isVisible c = true := by
  unfold text
  rw [String.toList_ofList]
  exact fun c => isVisible_of_mem_digits

theorem text_plain (n : Nat) : (text n).toList.all Headers.isPlain = true := by
  rw [List.all_eq_true]
  exact fun c hc => Headers.isPlain_of_isVisible (text_visible n c hc)

/-- The digits of a number are read back, if it has no more bits than are allowed. -/
theorem word?_digits (bits n : Nat) :
    word? bits (digits n) = if n < Nat.pow 2 bits then some n else none := by
  have notEmpty : (digits n).isEmpty = false := by
    simpa using digits_ne_nil n
  have all : (digits n).all Char.isDigit = true := by
    rw [List.all_eq_true]
    exact fun c => isDigit_of_mem_digits
  unfold word?
  rw [notEmpty, all, if_neg (by decide), value_digits]

theorem isDigit_of_word? {bits : Nat} {s : List Char} (h : (word? bits s).isSome = true) :
    ∀ c ∈ s, c.isDigit = true := by
  unfold word? at h
  split at h
  · cases h
  · next some =>
    rw [Bool.or_eq_true, not_or, Bool.not_eq_true', Bool.not_eq_false, List.all_eq_true] at some
    exact some.2

end Decimal

theorem Base64.isVisible_letter {n : Nat} (h : n < 64) : Headers.isVisible (letter n) = true := by
  have all : ∀ n : Fin 64, Headers.isVisible (letter n) = true := by decide
  exact all ⟨n, h⟩

theorem Base64.isVisible_of_mem_encode {bytes : List UInt8} {c : Char} (h : c ∈ encode bytes) :
    Headers.isVisible c = true := by
  have pad : Headers.isVisible '=' = true := by decide
  fun_induction encode bytes with
  | case1 => cases h
  | case2 a n =>
    have bound := a.toNat_lt
    simp only [List.mem_cons, List.not_mem_nil, or_false] at h
    rcases h with rfl | rfl | rfl | rfl
    · exact isVisible_letter (by omega)
    · exact isVisible_letter (by omega)
    · exact pad
    · exact pad
  | case3 a b n =>
    have boundA := a.toNat_lt
    have boundB := b.toNat_lt
    simp only [List.mem_cons, List.not_mem_nil, or_false] at h
    rcases h with rfl | rfl | rfl | rfl
    · exact isVisible_letter (by omega)
    · exact isVisible_letter (by omega)
    · exact isVisible_letter (by omega)
    · exact pad
  | case4 a b c rest n ih =>
    have boundA := a.toNat_lt
    have boundB := b.toNat_lt
    have boundC := c.toNat_lt
    simp only [List.mem_cons] at h
    rcases h with rfl | rfl | rfl | rfl | h
    · exact isVisible_letter (by omega)
    · exact isVisible_letter (by omega)
    · exact isVisible_letter (by omega)
    · exact isVisible_letter (by omega)
    · exact ih h

theorem Base64.encode_ne_nil {bytes : List UInt8} (h : bytes ≠ []) : encode bytes ≠ [] := by
  intro none
  -- Decoding undoes encoding, so nothing else is encoded as nothing is.
  have same : decode (encode bytes) = decode (encode []) := congrArg decode none
  rw [decode_encode, decode_encode] at same
  exact h (Option.some.inj same)

namespace Credentials

variable (c : Credentials)

theorem header_chars : ∃ s last, c.header.toList = 'B' :: (s ++ [last]) ∧
    Headers.isVisible last = true ∧ ∀ d ∈ s, Headers.isPlain d = true := by
  let token := Base64.encode (Utf8.encode (c.username ++ ":" ++ c.secret).toList)
  have notEmpty : token ≠ [] := by
    -- There is a colon, at least.
    refine Base64.encode_ne_nil fun none => ?_
    have none : (c.username ++ ":" ++ c.secret).toList = [] := Utf8.encode_injective none
    simp at none
  have visible : ∀ d ∈ token, Headers.isVisible d = true := fun d => Base64.isVisible_of_mem_encode
  have chars : c.header.toList = "Basic ".toList ++ token := by
    show ("Basic " ++ String.ofList token).toList = _
    rw [String.toList_append, show (String.ofList token).toList = token from String.toList_ofList]
  obtain ⟨start, last, split⟩ : ∃ start last, token = start ++ [last] :=
    ⟨_, _, (List.dropLast_concat_getLast notEmpty).symm⟩
  refine ⟨"asic ".toList ++ start, last, ?_, visible last (by simp [split]), ?_⟩
  · rw [chars, split, List.append_assoc]
    rfl
  · intro d hd
    rcases List.mem_append.1 hd with hd | hd
    · have all : "asic ".toList.all Headers.isPlain = true := by decide
      exact List.all_eq_true.1 all d hd
    · exact Headers.isPlain_of_isVisible (visible d (by simp [split, hd]))

theorem header_plain : c.header.toList.all Headers.isPlain = true := by
  obtain ⟨s, last, chars, visible, plain⟩ := c.header_chars
  rw [chars, List.all_eq_true]
  intro d hd
  simp only [List.mem_cons, List.mem_append, List.not_mem_nil, or_false] at hd
  rcases hd with rfl | hd | rfl
  · decide
  · exact plain d hd
  · exact Headers.isPlain_of_isVisible visible

theorem trim_header : Headers.trim c.header.toList = c.header.toList := by
  obtain ⟨s, last, chars, visible, -⟩ := c.header_chars
  rw [chars]
  exact Headers.trim_visible (by decide) visible s

end Credentials

/-! ## What a client sends -/

namespace Client

variable (client : Client) (credentials : Option Credentials)

theorem agent_plain {agent : String} (h : client.settings.agent = some agent) :
    agent.toList.all Headers.isPlain = true := by
  -- A client is made of settings without a fault, and the name is what is looked at last.
  have sound := client.sound
  unfold Settings.fault? at sound
  split at sound
  · cases sound
  split at sound
  · cases sound
  split at sound
  · cases sound
  rw [h] at sound
  simp only [ite_eq_left_iff, reduceCtorEq, imp_false, Bool.not_eq_true, Bool.not_eq_false] at sound
  unfold Settings.isAgent at sound
  rw [Bool.and_eq_true] at sound
  exact sound.2

def arrivedStanding : Headers :=
  [("cache-control", "no-cache"), ("pragma", "no-cache")]
    ++ (client.settings.agent.map fun agent =>
      ("user-agent", String.ofList (Headers.trim agent.toList))).toList
    ++ (credentials.map fun c => ("authorization", c.header)).toList

theorem name_of_mem_arrivedStanding {header : String × String}
    (h : header ∈ client.arrivedStanding credentials) :
    header.1 ∈ ["cache-control", "pragma", "user-agent", "authorization"] := by
  unfold arrivedStanding at h
  simp only [List.mem_append, List.mem_cons, List.not_mem_nil, or_false, Option.mem_toList,
    Option.map_eq_some_iff] at h
  rcases h with ((rfl | rfl) | ⟨agent, -, rfl⟩) | ⟨c, -, rfl⟩
  all_goals simp

theorem map_arrived_standingHeaders :
    (client.standingHeaders credentials).map Headers.arrived = client.arrivedStanding credentials := by
  have header (c : Credentials) :
      Headers.arrived ("Authorization", c.header) = ("authorization", c.header) :=
    Headers.arrived_of_trim (by decide) c.trim_header
  have name (agent : String) : Headers.arrived ("User-Agent", agent)
      = ("user-agent", String.ofList (Headers.trim agent.toList)) := by
    unfold Headers.arrived
    rw [show String.ofList ("User-Agent".toList.map Char.toLower) = "user-agent" by decide]
  unfold standingHeaders arrivedStanding
  rw [List.map_append, List.map_append]
  congr 1
  · congr 1
    cases client.settings.agent with
    | none => rfl
    | some agent => exact congrArg (fun h => [h]) (name agent)
  · cases credentials with
    | none => rfl
    | some c => exact congrArg (fun h => [h]) (header c)

theorem arriving_fetchRequest (url : String) :
    (client.fetchRequest url credentials).arriving
      = [("accept-charset", "UTF-8")] ++ client.arrivedStanding credentials := by
  show List.map Headers.arrived (_ :: client.standingHeaders credentials) = _
  rw [List.map_cons, map_arrived_standingHeaders]
  rfl

/-- A request to send as it arrives. The length is told by the client, so none is added. -/
theorem arriving_sendRequest (url text : String) :
    (client.sendRequest url text credentials).arriving
      = [("content-type", "text/plain; charset=UTF-8"),
          ("content-length", Decimal.text (Utf8.size text.toList))]
        ++ client.arrivedStanding credentials := by
  -- The client tells the length itself, so none is put to it on the way.
  have told : ((client.sendRequest url text credentials).headers.get? "content-length").isSome = true := by
    unfold sendRequest
    rw [Headers.get?_cons, if_neg (by decide), Headers.get?_cons, if_pos (by decide)]
    rfl
  have length : Headers.arrived ("Content-Length", Decimal.text (Utf8.size text.toList))
      = ("content-length", Decimal.text (Utf8.size text.toList)) :=
    Headers.arrived_of_trim (by decide) (Headers.trim_of_all_visible (Decimal.text_visible _))
  unfold Request.arriving
  rw [told, Bool.or_true]
  show List.map Headers.arrived (_ :: _ :: client.standingHeaders credentials) = _
  rw [List.map_cons, List.map_cons, map_arrived_standingHeaders, length]
  rfl

/-! ## It can be sent -/

theorem standingHeaders_plain : ∀ header ∈ client.standingHeaders credentials,
    Headers.IsPlainHeader header := by
  intro header hh
  unfold standingHeaders at hh
  simp only [List.mem_append, List.mem_cons, List.not_mem_nil, or_false, Option.mem_toList,
    Option.map_eq_some_iff] at hh
  rcases hh with ((rfl | rfl) | ⟨agent, hagent, rfl⟩) | ⟨c, -, rfl⟩
  · decide
  · decide
  · exact ⟨show Headers.isName "User-Agent" = true by decide, client.agent_plain hagent⟩
  · exact ⟨show Headers.isName "Authorization" = true by decide, c.header_plain⟩

/-- The headers that a text is sent with, the standing ones apart, are plain. -/
theorem sendHeaders_plain (size : Nat) :
    ∀ header ∈ [("Content-Type", "text/plain; charset=UTF-8"), ("Content-Length", Decimal.text size)],
      Headers.IsPlainHeader header := by
  intro header hh
  simp only [List.mem_cons, List.not_mem_nil, or_false] at hh
  rcases hh with rfl | rfl
  · decide
  · exact ⟨show Headers.isName "Content-Length" = true by decide, Decimal.text_plain size⟩

def standingNames : List String := ["Cache-Control", "Pragma", "User-Agent", "Authorization"]

/-- The standing headers have each of their names once at most, in this order. -/
theorem names_standingHeaders :
    ((client.standingHeaders credentials).map Prod.fst).Sublist standingNames := by
  have once {α : Type} (name : String) (value : α → String) (o : Option α) :
      (((o.map fun a => (name, value a)).toList).map Prod.fst).Sublist [name] := by
    cases o with
    | none => exact List.nil_sublist _
    | some a => exact List.Sublist.refl _
  unfold standingHeaders
  rw [List.map_append, List.map_append]
  exact ((List.Sublist.refl _).append (once "User-Agent" id client.settings.agent)).append
    (once "Authorization" Credentials.header credentials)

theorem getAll_standingHeaders_other {wanted : String}
    (other : ∀ name ∈ standingNames,
      Headers.sameName name wanted = false) :
    Headers.getAll (client.standingHeaders credentials) wanted = [] := by
  apply Headers.getAll_eq_nil
  intro header hh
  exact other header.1 ((client.names_standingHeaders credentials).subset (List.mem_map_of_mem hh))

/-- What the standing headers hold under a name: the text of one of the two fixed ones, or what the agent or
the credentials give. -/
theorem getAll_standingHeaders (wanted : String) :
    Headers.getAll (client.standingHeaders credentials) wanted
      = Headers.getAll [("Cache-Control", "no-cache"), ("Pragma", "no-cache")] wanted
        ++ (if Headers.sameName "User-Agent" wanted then client.settings.agent.toList else [])
        ++ (if Headers.sameName "Authorization" wanted
            then (credentials.map Credentials.header).toList else []) := by
  have agent : Headers.getAll (client.settings.agent.map fun agent => ("User-Agent", agent)).toList wanted
      = if Headers.sameName "User-Agent" wanted then client.settings.agent.toList else [] := by
    have found := Headers.getAll_optional "User-Agent" id client.settings.agent wanted
    rwa [Option.map_id_fun, id] at found
  unfold standingHeaders
  rw [Headers.getAll_append, Headers.getAll_append, agent, Headers.getAll_optional "Authorization"]

theorem getAll_standingHeaders_authorization :
    Headers.getAll (client.standingHeaders credentials) "authorization"
      = (credentials.map Credentials.header).toList := by
  rw [getAll_standingHeaders, if_neg (by decide), if_pos (by decide)]
  rfl

theorem getAll_standingHeaders_agent :
    Headers.getAll (client.standingHeaders credentials) "User-Agent" = client.settings.agent.toList := by
  rw [getAll_standingHeaders, if_pos (by decide), if_neg (by decide), List.append_nil]
  rfl

/-- The headers of a request can be sent if those before the standing ones can, and have other names than
those that are looked into. -/
theorem outgoing_of_plain {request : Request} {first : Headers}
    (headers : request.headers = first ++ client.standingHeaders credentials)
    (plain : ∀ header ∈ first, Headers.IsPlainHeader header)
    (host : Headers.getAll first "host" = []) (authorization : Headers.getAll first "authorization" = []) :
    request.outgoing = match request.length? with
      | .error disruption => .error disruption
      | .ok length => request.sentBody length := by
  have unsendable : request.headers.unsendable? = none := by
    unfold Headers.unsendable?
    rw [List.find?_eq_none]
    rintro ⟨name, value⟩ hh
    rw [headers] at hh
    have named : Headers.IsPlainHeader (name, value) := by
      rcases List.mem_append.1 hh with hh | hh
      · exact plain (name, value) hh
      · exact client.standingHeaders_plain credentials (name, value) hh
    simp [named.1, Headers.isValue_of_plain named.2]
  have noHost : Headers.getAll request.headers "host" = [] := by
    rw [headers, Headers.getAll_append, host, client.getAll_standingHeaders_other credentials (by decide)]
    rfl
  -- Of the headers that are looked into, only the credentials can be there.
  have token : Headers.getAll request.headers "authorization"
      = (credentials.map Credentials.header).toList := by
    rw [headers, Headers.getAll_append, authorization,
      client.getAll_standingHeaders_authorization credentials]
    rfl
  have hostShown : request.headers.isShown "host" = true := by
    unfold Headers.isShown
    rw [Headers.get?_eq_head?_getAll, noHost]
    rfl
  have tokenShown : request.headers.isShown "authorization" = true := by
    unfold Headers.isShown
    rw [Headers.get?_eq_head?_getAll, token]
    cases credentials with
    | none => rfl
    | some c =>
      rw [Option.map_some, Option.toList_some, List.head?_cons, Option.all_some]
      exact c.header_plain
  unfold Request.outgoing
  simp only [unsendable, noHost, hostShown, tokenShown]
  rfl

theorem outgoing_fetchRequest (url : String) :
    (client.fetchRequest url credentials).outgoing = .ok [] := by
  have headers : (client.fetchRequest url credentials).headers
      = [("Accept-Charset", "UTF-8")] ++ client.standingHeaders credentials := rfl
  have others {wanted : String} (first : Headers.sameName "Accept-Charset" wanted = false)
      (standing : ∀ name ∈ standingNames,
        Headers.sameName name wanted = false) :
      Headers.getAll (client.fetchRequest url credentials).headers wanted = [] := by
    rw [headers, List.singleton_append, Headers.getAll_cons, first,
      client.getAll_standingHeaders_other credentials standing]
    rfl
  have length : (client.fetchRequest url credentials).length? = .ok none := by
    unfold Request.length?
    rw [others (by decide) (by decide)]
  have chunked : (client.fetchRequest url credentials).isChunked = false := by
    unfold Request.isChunked
    rw [others (by decide) (by decide)]
    rfl
  rw [client.outgoing_of_plain credentials headers (by decide) (by decide) (by decide), length]
  show Request.sentBody _ none = _
  unfold Request.sentBody
  rw [chunked]
  rfl

/-- A request to send is sent with all the bytes of its text, unless there are too many to tell. -/
theorem outgoing_sendRequest (url text : String) :
    (client.sendRequest url text credentials).outgoing =
      if Utf8.size text.toList < 0x10000000000000000 then .ok (Utf8.encode text.toList)
      else .error (.badHeader (Decimal.text (Utf8.size text.toList))) := by
  let size := Utf8.size text.toList
  have headers : (client.sendRequest url text credentials).headers
      = [("Content-Type", "text/plain; charset=UTF-8"), ("Content-Length", Decimal.text size)]
        ++ client.standingHeaders credentials := rfl
  have told : Headers.getAll (client.sendRequest url text credentials).headers "content-length"
      = [Decimal.text size] := by
    rw [headers, List.cons_append, List.singleton_append, Headers.getAll_cons, if_neg (by decide),
      Headers.getAll_cons, if_pos (by decide), client.getAll_standingHeaders_other credentials (by decide)]
  have others {wanted : String} (type : Headers.sameName "Content-Type" wanted = false)
      (length : Headers.sameName "Content-Length" wanted = false) :
      Headers.getAll [("Content-Type", "text/plain; charset=UTF-8"),
        ("Content-Length", Decimal.text size)] wanted = [] := by
    rw [Headers.getAll_cons, type, Headers.getAll_cons, length]
    rfl
  have chunked : (client.sendRequest url text credentials).isChunked = false := by
    unfold Request.isChunked
    rw [headers, Headers.getAll_append, others (by decide) (by decide),
      client.getAll_standingHeaders_other credentials (by decide)]
    rfl
  have length : (client.sendRequest url text credentials).length? =
      if size < 0x10000000000000000 then .ok (some size) else .error (.badHeader (Decimal.text size)) := by
    have read : Decimal.word? 64 (Decimal.text size).toList
        = if size < Nat.pow 2 64 then some size else none := by
      unfold Decimal.text
      rw [String.toList_ofList, Decimal.word?_digits]
    unfold Request.length?
    by_cases fits : size < 0x10000000000000000
    · rw [if_pos (show size < Nat.pow 2 64 from fits)] at read
      simp only [told, read, if_pos fits]
    · rw [if_neg (show ¬size < Nat.pow 2 64 from fits)] at read
      simp only [told, read, if_neg fits]
  rw [client.outgoing_of_plain credentials headers (sendHeaders_plain size) (others (by decide) (by decide))
    (others (by decide) (by decide)), length]
  by_cases fits : size < 0x10000000000000000
  · rw [if_pos fits, if_pos fits]
    show Request.sentBody _ (some size) = _
    unfold Request.sentBody
    rw [chunked]
    show (if size = 0 then Except.ok [] else if size = (Utf8.encode text.toList).length then _ else _) = _
    have whole : size = (Utf8.encode text.toList).length := (Utf8.length_encode _).symm
    -- A body of no bytes is not sent at all, which makes no difference for a text.
    by_cases empty : size = 0
    · have none : Utf8.encode text.toList = [] := List.length_eq_zero_iff.1 (whole ▸ empty)
      rw [if_pos empty, none]
    · rw [if_neg empty, if_pos whole]
      rfl
  · rw [if_neg fits, if_neg fits]

end Client

end Courier
