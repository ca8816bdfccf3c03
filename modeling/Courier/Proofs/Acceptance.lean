import Courier.Proofs.Client.Headers
import Courier.Proofs.Failures
import Courier.Proofs.Json.Natural
import Courier.Proofs.Json.Positional
import Courier.Proofs.Json.Rendered
import Courier.Proofs.Objects
import Courier.Proofs.Text.Utf8

set_option autoImplicit false

/-! # Which settings make a client

Settings make a client exactly if they hold together (`Settings.Acceptable`) and there is no objection to the
ciphers; nothing of them is changed on the way (`Client.makeOn_eq_ok_iff`). Where the settings come from a document,
a time limit is the number whose numeral stands there, or the document is refused. A document may be an object or an
array, and what counts of either is the text that it tells for each setting (`Settings.Document`).
-/

namespace Courier

open Json

/-! ## The name of a client -/

/-- The first byte of a character is the character itself if it is one of ASCII. -/
theorem Utf8.exists_first_byte (c : Char) :
    ∃ b ∈ String.utf8EncodeChar c, b.toNat < 0x80 → c = Char.ofNat b.toNat := by
  obtain ⟨b, bs, split, read⟩ := readChar_encodeChar 0 c []
  rw [List.append_nil] at split
  refine ⟨b, by rw [split]; exact List.mem_cons_self, fun ascii => ?_⟩
  rw [readChar, if_pos ascii] at read
  exact (Prod.mk.inj (Except.ok.inj read)).1.symm

theorem IsPlainByte.isPlain {b : UInt8} (h : IsPlainByte b) :
    b.toNat < 0x80 ∧ Headers.isPlain (Char.ofNat b.toNat) = true := by
  rcases h with rfl | rfl | ⟨low, high⟩
  · decide
  · decide
  · have low : 0x21 ≤ b.toNat := UInt8.le_iff_toNat_le.1 low
    have high : b.toNat ≤ 0x7E := UInt8.le_iff_toNat_le.1 high
    have self : (Char.ofNat b.toNat).toNat = b.toNat := Utf8.toNat_charOfNat (.inl (by omega))
    refine ⟨by omega, Headers.isPlain_of_isVisible ?_⟩
    unfold Headers.isVisible
    rw [self]
    simp only [Bool.and_eq_true, decide_eq_true_eq]
    exact ⟨low, high⟩

/-- A text shows in ASCII exactly if each of its bytes does. -/
theorem Headers.plain_iff_bytes {value : String} :
    value.toList.all isPlain = true ↔ ∀ b ∈ Utf8.encode value.toList, IsPlainByte b := by
  constructor
  · exact isPlainByte_of_plain
  · intro bytes
    rw [List.all_eq_true]
    intro c hc
    obtain ⟨b, hb, self⟩ := Utf8.exists_first_byte c
    obtain ⟨ascii, plain⟩ := (bytes b (List.mem_flatMap.2 ⟨c, hc, hb⟩)).isPlain
    rw [self ascii]
    exact plain

/-! ## Settings that hold together -/

namespace Settings

/-- Settings hold together: connecting may take at least a second and no longer than the whole call, and the name of
the client, if it has one, is a text of spaces, tabs and visible characters of ASCII. -/
structure Acceptable (s : Settings) : Prop where
  connecting : 1 ≤ s.connectLimit.toNat
  within : s.connectLimit.toNat ≤ s.callLimit.toNat
  agent : ∀ agent, s.agent = some agent →
    agent ≠ "" ∧ ∀ c ∈ agent.toList, c = ' ' ∨ c = '\t' ∨ ('!' ≤ c ∧ c ≤ '~')

theorem isAgent_iff {agent : String} : isAgent agent = true ↔
    agent ≠ "" ∧ ∀ c ∈ agent.toList, c = ' ' ∨ c = '\t' ∨ ('!' ≤ c ∧ c ≤ '~') := by
  unfold isAgent
  simp only [Bool.and_eq_true, Bool.not_eq_true', List.all_eq_true, Headers.isPlain_iff, ne_eq]
  exact and_congr_left' (by simp)

/-- Nothing is wrong with settings exactly if they hold together. -/
theorem fault?_eq_none_iff {s : Settings} : s.fault? = none ↔ s.Acceptable := by
  have zero (n : UInt64) : n = 0 ↔ n.toNat = 0 := UInt64.toNat_inj.symm
  have told : s.Acceptable ↔ 1 ≤ s.connectLimit.toNat ∧ s.connectLimit.toNat ≤ s.callLimit.toNat ∧
      ∀ agent, s.agent = some agent → isAgent agent = true := by
    simp only [isAgent_iff]
    exact ⟨fun h => ⟨h.connecting, h.within, h.agent⟩, fun h => ⟨h.1, h.2.1, h.2.2⟩⟩
  rw [told]
  unfold fault?
  by_cases connecting : s.connectLimit = 0
  · rw [if_pos connecting]
    have := (zero _).1 connecting
    exact iff_of_false (fun none => by cases none) fun h => by omega
  rw [if_neg connecting]
  by_cases calling : s.callLimit = 0
  · rw [if_pos calling]
    have := (zero _).1 calling
    exact iff_of_false (fun none => by cases none) fun h => by omega
  rw [if_neg calling]
  by_cases crossed : s.callLimit < s.connectLimit
  · rw [if_pos crossed]
    have := UInt64.lt_iff_toNat_lt.1 crossed
    exact iff_of_false (fun none => by cases none) fun h => by omega
  rw [if_neg crossed]
  have some : 1 ≤ s.connectLimit.toNat := by
    have := mt (zero _).2 connecting
    omega
  have within : s.connectLimit.toNat ≤ s.callLimit.toNat := by
    have := mt UInt64.lt_iff_toNat_lt.2 crossed
    omega
  rw [and_iff_right some, and_iff_right within]
  cases s.agent with
  | none => simp
  | some agent => simp

end Settings

/-! ## Making a client -/

namespace Client

variable {settings : Settings} {objection : Option TlsFault}

theorem makeOn_eq_ok_iff {client : Client} :
    makeOn settings objection = .ok client ↔
      settings.Acceptable ∧ objection = none ∧ client.settings = settings := by
  rw [← Settings.fault?_eq_none_iff]
  unfold makeOn
  constructor
  · intro made
    split at made
    · cases made
    · next sound =>
      cases objection with
      | some fault => cases made
      | none =>
        obtain rfl := Except.ok.inj made
        exact ⟨sound, rfl, rfl⟩
  · rintro ⟨sound, rfl, rfl⟩
    split
    · next fault wrong =>
      rw [sound] at wrong
      cases wrong
    · rfl

/-- Settings with a fault make no client, whatever the ciphers are. -/
theorem makeOn_of_fault {fault : SettingsFault} (h : settings.fault? = some fault) :
    makeOn settings objection = .error (.settings fault) := by
  unfold makeOn
  split
  · next other wrong => rw [Option.some.inj (h.symm.trans wrong)]
  · next sound =>
    rw [h] at sound
    cases sound

end Client

/-! ## Settings in a document -/

namespace Settings

/-- The texts of the values that a document tells for the settings; a setting may be left out. -/
structure ValueTexts where
  connectLimit : Option String
  callLimit : Option String
  trust : Option String
  agent : Option String

/-- The text is a document that tells of the settings: an object with no more than one member of each of their
names, in any order and with others among them, or an array of values in the order of the settings. -/
inductive Document (told : ValueTexts) (text : String) : Prop where
  | object {entries : List Entry} (object : ObjectText entries text) (named : Named entries)
      (connectLimit : valuesUnder "connect_timeout_secs" entries = told.connectLimit.toList)
      (callLimit : valuesUnder "timeout_secs" entries = told.callLimit.toList)
      (trust : valuesUnder "trust" entries = told.trust.toList)
      (agent : valuesUnder "user_agent" entries = told.agent.toList) : Document told text
  | array {values : List String} (array : ArrayText values text) (few : values.length ≤ 4)
      (connectLimit : told.connectLimit = values[0]?) (callLimit : told.callLimit = values[1]?)
      (trust : told.trust = values[2]?) (agent : told.agent = values[3]?) : Document told text

/-- Each setting is the one that is told, or the usual one if none is. -/
structure ValueTexts.DecodedAs (told : ValueTexts) (s : Settings) : Prop where
  connectLimit : DecodedOrElse .natural (some 10) told.connectLimit s.connectLimit
  callLimit : DecodedOrElse .natural (some 30) told.callLimit s.callLimit
  trust : DecodedOrElse .trust (some .trustAll) told.trust s.trust
  agent : DecodedOrElse (.optional .text) (some none) told.agent s.agent

/-- A document is decoded as the settings that it tells of, and as no others. -/
theorem Document.decode_iff {told : ValueTexts} {text : String} (h : Document told text) (s : Settings) :
    Shape.settings.decode text = .ok s ↔ told.DecodedAs s := by
  cases h with
  | object object named connectLimit callLimit trust agent =>
    refine (Record.decode_object_iff Shape.settings_ready object s).trans ((and_iff_right named).trans ?_)
    constructor
    · rintro ⟨⟨c, l, t, a, ⟨⟩⟩, ⟨h₁, h₂, h₃, h₄, -⟩, rfl⟩
      exact ⟨(decodedUnder_iff_orElse connectLimit _ _ c).1 h₁, (decodedUnder_iff_orElse callLimit _ _ l).1 h₂,
        (decodedUnder_iff_orElse trust _ _ t).1 h₃, (decodedUnder_iff_orElse agent _ _ a).1 h₄⟩
    · rintro ⟨h₁, h₂, h₃, h₄⟩
      refine ⟨record.row s, ⟨?_, ?_, ?_, ?_, trivial⟩, rfl⟩
      · exact (decodedUnder_iff_orElse connectLimit _ _ _).2 h₁
      · exact (decodedUnder_iff_orElse callLimit _ _ _).2 h₂
      · exact (decodedUnder_iff_orElse trust _ _ _).2 h₃
      · exact (decodedUnder_iff_orElse agent _ _ _).2 h₄
  | @array values array few connectLimit callLimit trust agent =>
    have first : values.head? = told.connectLimit := by rw [connectLimit, List.head?_eq_getElem?]
    have second : values.tail.head? = told.callLimit := by
      rw [callLimit, List.head?_eq_getElem?, List.getElem?_tail]
    have third : values.tail.tail.head? = told.trust := by
      rw [trust, List.head?_eq_getElem?, List.getElem?_tail, List.getElem?_tail]
    have fourth : values.tail.tail.tail.head? = told.agent := by
      rw [agent, List.head?_eq_getElem?, List.getElem?_tail, List.getElem?_tail, List.getElem?_tail]
    have last : values.tail.tail.tail.tail = [] := by
      apply List.eq_nil_of_length_eq_zero
      simp only [List.length_tail]
      omega
    refine (Record.decode_array_iff Shape.settings_ready
      (Shape.settings_ready_at (by decide) (by decide)) array s).trans ?_
    constructor
    · rintro ⟨⟨c, l, t, a, ⟨⟩⟩, ⟨h₁, h₂, h₃, h₄, -⟩, rfl⟩
      exact ⟨first ▸ h₁, second ▸ h₂, third ▸ h₃, fourth ▸ h₄⟩
    · rintro ⟨h₁, h₂, h₃, h₄⟩
      exact ⟨record.row s, ⟨first ▸ h₁, second ▸ h₂, third ▸ h₃, fourth ▸ h₄, last⟩, rfl⟩

/-! ## Time limits in a document -/

inductive Limit where
  | connecting
  | calling
deriving Repr, DecidableEq

namespace Limit

def told : Limit → ValueTexts → Option String
  | .connecting, told => told.connectLimit
  | .calling, told => told.callLimit

def others : Limit → ValueTexts → ValueTexts
  | .connecting, told => { told with connectLimit := none }
  | .calling, told => { told with callLimit := none }

def seconds : Limit → Settings → UInt64
  | .connecting, s => s.connectLimit
  | .calling, s => s.callLimit

def span : Limit → Settings → Span
  | .connecting, s => s.connectSpan
  | .calling, s => s.callSpan

def set : Limit → UInt64 → Settings → Settings
  | .connecting, seconds, s => { s with connectLimit := seconds }
  | .calling, seconds, s => { s with callLimit := seconds }

theorem total_span (limit : Limit) (s : Settings) :
    (limit.span s).total = (limit.seconds s).toNat * 1000000000 := by
  have whole (seconds : UInt64) : (Span.ofSeconds seconds).total = seconds.toNat * 1000000000 :=
    Nat.add_zero _
  cases limit with
  | connecting => exact whole s.connectLimit
  | calling => exact whole s.callLimit

theorem toNat_of_decodedAs {limit : Limit} {told : ValueTexts} {n : Nat}
    (numeral : limit.told told = some (Decimal.text n))
    {s : Settings} (h : told.DecodedAs s) : (limit.seconds s).toNat = n := by
  cases limit with
  | connecting =>
    have stands := h.connectLimit
    rw [show told.connectLimit = _ from numeral] at stands
    exact Shape.natural_decode_iff.1 stands
  | calling =>
    have stands := h.callLimit
    rw [show told.callLimit = _ from numeral] at stands
    exact Shape.natural_decode_iff.1 stands

/-- A numeral of 64 bits is the only thing that is needed of a limit. -/
theorem decodedAs_set {limit : Limit} {told : ValueTexts} {n : Nat} (numeral : limit.told told = some (Decimal.text n))
    {s : Settings} (others : (limit.others told).DecodedAs s) (bound : n < 2 ^ 64) :
    told.DecodedAs (limit.set (UInt64.ofNat n) s) := by
  have decoded : Shape.natural.decode (Decimal.text n) = .ok (UInt64.ofNat n) :=
    Shape.natural_decode_iff.2 (UInt64.toNat_ofNat_of_lt' bound)
  cases limit with
  | connecting =>
    refine ⟨?_, others.callLimit, others.trust, others.agent⟩
    rw [show told.connectLimit = _ from numeral]
    exact decoded
  | calling =>
    refine ⟨others.connectLimit, ?_, others.trust, others.agent⟩
    rw [show told.callLimit = _ from numeral]
    exact decoded

end Limit

end Settings

/-! ## The result -/

/-- Which settings make a client, and which limits can come from a document. Settings make a client exactly if they
hold together and there is no objection to the ciphers; the client has the settings as they are. What keeps it from
being made is told as a fault of settings, and it is one of the settings, if they have any, even if the ciphers are
of no use either. A time limit that a document tells by a numeral is exactly the number of it, and so is the span
of time that is made of it; if the number has more than 64 bits, the document is refused. -/
theorem settings_accepted :
    (∀ (settings : Settings) (objection : Option TlsFault),
      ((∃ client, Client.makeOn settings objection = .ok client) ↔ settings.Acceptable ∧ objection = none) ∧
      (∀ client, Client.makeOn settings objection = .ok client → client.settings = settings) ∧
      (∀ failure, Client.makeOn settings objection = .error failure → ∃ fault, failure = .settings fault) ∧
      (¬settings.Acceptable → ∃ fault, settings.fault? = some fault ∧
        Client.makeOn settings objection = .error (.settings fault))) ∧
    (∀ agent : String, (∀ c ∈ agent.toList, c = ' ' ∨ c = '\t' ∨ ('!' ≤ c ∧ c ≤ '~')) ↔
      ∀ b ∈ Utf8.encode agent.toList, IsPlainByte b) ∧
    ∀ (limit : Settings.Limit) (told : Settings.ValueTexts) (text : String) (n : Nat),
      Settings.Document told text → limit.told told = some (Decimal.text n) →
      (∀ s, Shape.settings.decode text = .ok s →
        (limit.seconds s).toNat = n ∧ (limit.span s).total = n * 1000000000) ∧
      ((∃ s, (limit.others told).DecodedAs s) → ((∃ s, Shape.settings.decode text = .ok s) ↔ n < 2 ^ 64)) ∧
      (2 ^ 64 ≤ n → ∃ fault, Shape.settings.decode text = .error (.malformed fault)) := by
  refine ⟨?_, ?_, ?_⟩
  · intro settings objection
    refine ⟨?_, ?_, ?_, ?_⟩
    · constructor
      · rintro ⟨client, made⟩
        obtain ⟨acceptable, free, -⟩ := Client.makeOn_eq_ok_iff.1 made
        exact ⟨acceptable, free⟩
      · rintro ⟨acceptable, free⟩
        have sound : settings.fault? = none := Settings.fault?_eq_none_iff.2 acceptable
        exact ⟨⟨settings, sound⟩, Client.makeOn_eq_ok_iff.2 ⟨acceptable, free, rfl⟩⟩
    · intro client made
      exact (Client.makeOn_eq_ok_iff.1 made).2.2
    · intro failure
      exact Client.settings_of_makeOn_error
    · intro unacceptable
      obtain ⟨fault, wrong⟩ := Option.ne_none_iff_exists'.1 (mt Settings.fault?_eq_none_iff.1 unacceptable)
      exact ⟨fault, wrong, Client.makeOn_of_fault wrong⟩
  · intro agent
    rw [← Headers.plain_iff_bytes, List.all_eq_true]
    simp only [Headers.isPlain_iff]
  · intro limit told text n document numeral
    have exactly : ∀ s, Shape.settings.decode text = .ok s → (limit.seconds s).toNat = n := fun s decoded =>
      Settings.Limit.toNat_of_decodedAs numeral ((document.decode_iff s).1 decoded)
    have bounded : ∀ s, Shape.settings.decode text = .ok s → n < 2 ^ 64 := by
      intro s decoded
      rw [← exactly s decoded]
      exact (limit.seconds s).toNat_lt
    refine ⟨?_, ?_, ?_⟩
    · intro s decoded
      refine ⟨exactly s decoded, ?_⟩
      rw [limit.total_span, exactly s decoded]
    · rintro ⟨s, others⟩
      constructor
      · rintro ⟨s', decoded⟩
        exact bounded s' decoded
      · intro bound
        exact ⟨_, (document.decode_iff _).2 (Settings.Limit.decodedAs_set numeral others bound)⟩
    · intro large
      apply Shape.decode_eq_malformed
      intro s decoded
      exact absurd (bounded s decoded) (Nat.not_lt.2 large)

/-- The largest limit of 64 bits, after a member of another name, and the next number. -/
theorem settings_accepted_at_limit :
    let document (n : Nat) := "\x7b\"x\":\"a\", \"timeout_secs\":" ++ Decimal.text n ++ "\x7d"
    (∃ s, Shape.settings.decode (document (2 ^ 64 - 1)) = .ok s ∧ s.callLimit.toNat = 2 ^ 64 - 1 ∧
        s.callSpan.total = (2 ^ 64 - 1) * 1000000000) ∧
      (∃ fault, Shape.settings.decode (document (2 ^ 64)) = .error (.malformed fault)) ∧
      (∃ client, Client.makeOn { callLimit := 10, agent := some "a\tb" } none = .ok client) ∧
      Client.makeOn { callLimit := 9 } (some .noCiphers) = .error (.settings (.limitsCrossed 10 9)) := by
  intro document
  let told (n : Nat) : Settings.ValueTexts := ⟨none, some (Decimal.text n), none, none⟩
  have other : Member.IsEntry ⟨[], ['x'], [], ⟨[], "\"a\"".toList, []⟩⟩ ⟨some "x", "\"a\""⟩ :=
    Member.isEntry_of_read ⟨blanks_nil, blanks_nil, blanks_nil, blanks_nil⟩ (by decide +kernel) wellFormed_letter
  have name : Literal.read ("timeout_secs".toList ++ ['"']) = .ok ("timeout_secs", []) := by decide +kernel
  have limit (n : Nat) : Member.IsEntry ⟨[' '], "timeout_secs".toList, [], ⟨[], Decimal.digits n, []⟩⟩
      ⟨some "timeout_secs", Decimal.text n⟩ :=
    Member.isEntry_of_read ⟨blanks_space, blanks_nil, blanks_nil, blanks_nil⟩ name
      (.numeral (Numeral.whole_digits n).unsigned)
  have object (n : Nat) :
      ObjectText [⟨some "x", "\"a\""⟩, ⟨some "timeout_secs", Decimal.text n⟩] (document n) := by
    refine ⟨[], "\"x\":\"a\", \"timeout_secs\":".toList ++ Decimal.digits n, [], _, ?_, blanks_nil, blanks_nil,
      ?_, .cons other (.cons (limit n) .nil)⟩
    · simp only [document, Decimal.text, String.toList_append, String.toList_ofList]
      rfl
    · show _ = _
      simp [Member.text, Item.text]
  have tells (n : Nat) : Settings.Document (told n) (document n) :=
    .object (object n) (by simp [Named]) rfl rfl rfl rfl
  have usual (n : Nat) : ((Settings.Limit.calling).others (told n)).DecodedAs {} := ⟨rfl, rfl, rfl, rfl⟩
  obtain ⟨clients, -, documents⟩ := settings_accepted
  obtain ⟨exactly, succeeds, -⟩ := documents .calling _ _ (2 ^ 64 - 1) (tells _) rfl
  obtain ⟨-, -, refused⟩ := documents .calling _ _ (2 ^ 64) (tells _) rfl
  obtain ⟨s, decoded⟩ := (succeeds ⟨_, usual _⟩).2 (by decide)
  have agent : ({ callLimit := 10, agent := some "a\tb" } : Settings).Acceptable :=
    Settings.fault?_eq_none_iff.1 (by decide)
  have crossed : ¬({ callLimit := 9 } : Settings).Acceptable := fun h => absurd h.within (by decide)
  obtain ⟨fault, wrong, unmade⟩ := (clients _ (some .noCiphers)).2.2.2 crossed
  obtain rfl : fault = .limitsCrossed 10 9 := (Option.some.inj wrong).symm
  exact ⟨⟨s, decoded, exactly s decoded⟩, refused (by decide), (clients _ none).1.2 ⟨agent, rfl⟩, unmade⟩

end Courier
