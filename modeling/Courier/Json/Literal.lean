import Courier.Json.Fault
import Courier.Text.Hex

set_option autoImplicit false

/-! # Texts of a document

A text stands between double quotes. Inside, controls must be escaped; an escape is a backslash and a
letter, or a backslash, `u` and the four hex digits of a UTF-16 unit, and a character beyond the basic
plane takes two such units. `read` gives the text; `skip` only looks for its end and does not ask
whether the units make up characters.
-/

namespace Courier.Json.Literal

/-! ## Escapes -/

/-- The character that a letter after the backslash stands for. -/
def shortEscape? (c : Char) : Option Char :=
  if c = '"' then some '"'
  else if c = '\\' then some '\\'
  else if c = '/' then some '/'
  else if c = 'b' then some '\x08'
  else if c = 'f' then some '\x0c'
  else if c = 'n' then some '\n'
  else if c = 'r' then some '\r'
  else if c = 't' then some '\t'
  else none

/-- The unit that four hex digits give. -/
def hexUnit? (a b c d : Char) : Option Nat :=
  match Hex.value? a, Hex.value? b, Hex.value? c, Hex.value? d with
  | some a, some b, some c, some d => some (((a * 16 + b) * 16 + c) * 16 + d)
  | _, _, _, _ => none

/-- What is wrong when a text does not begin with four hex digits: four bytes are taken, if there are as
many. -/
def hexFault (s : List Char) : Fault :=
  let size := Utf8.size s
  if size < 4 then ⟨.endInString, .fixed 0⟩ else ⟨.invalidEscape, .fixed (size - 4)⟩

def readUnit (s : List Char) : Scan Nat :=
  match s with
  | a :: b :: c :: d :: rest =>
    match hexUnit? a b c d with
    | some unit => .ok (unit, rest)
    | none => .error (hexFault s)
  | _ => .error (hexFault s)

/-- A first unit of two. -/
def isLeading (unit : Nat) : Bool := 0xD800 ≤ unit && unit < 0xDC00

/-- A second unit of two. -/
def isTrailing (unit : Nat) : Bool := 0xDC00 ≤ unit && unit < 0xE000

def combine (leading trailing : Nat) : Char :=
  Char.ofNat (0x10000 + (leading - 0xD800) * 0x400 + (trailing - 0xDC00))

/-- Reads the escape of a second unit. Where it should start, one byte is taken that is none of it. -/
def readSecond : List Char → Scan Nat
  | [] => .error (.before .endInString [])
  | c :: rest =>
    if c = '\\' then
      match rest with
      | [] => .error (.before .endInString [])
      | u :: rest =>
        if u = 'u' then readUnit rest else .error (.within .endOfHexEscape (u :: rest))
    else .error (.within .endOfHexEscape (c :: rest))

/-- Reads the character that one unit or two give, from after the first `u`. -/
def readCode (s : List Char) : Scan Char :=
  match readUnit s with
  | .error fault => .error fault
  | .ok (unit, rest) =>
    if isTrailing unit then .error (.before .loneSurrogate rest)
    else if isLeading unit then
      match readSecond rest with
      | .error fault => .error fault
      | .ok (trailing, rest) =>
        if isTrailing trailing then .ok (combine unit trailing, rest)
        else .error (.before .loneSurrogate rest)
    else .ok (Char.ofNat unit, rest)

/-- Reads an escape, from after its backslash. -/
def readEscape : List Char → Scan Char
  | [] => .error (.before .endInString [])
  | c :: rest =>
    if c = 'u' then readCode rest
    else
      match shortEscape? c with
      | some plain => .ok (plain, rest)
      | none => .error (.within .invalidEscape (c :: rest))

/-- Passes over an escape, from after its backslash. -/
def skipEscape : List Char → Except Fault (List Char)
  | [] => .error (.before .endInString [])
  | c :: rest =>
    if c = 'u' then
      match readUnit rest with
      | .error fault => .error fault
      | .ok (_, rest) => .ok rest
    else
      match shortEscape? c with
      | some _ => .ok rest
      | none => .error (.within .invalidEscape (c :: rest))

/-! ## An escape takes at least one character -/

theorem length_readUnit {s rest : List Char} {unit : Nat} (h : readUnit s = .ok (unit, rest)) :
    rest.length < s.length := by
  unfold readUnit at h
  split at h
  · split at h
    · cases h
      simp only [List.length_cons]
      omega
    · cases h
  · cases h

theorem length_readSecond {s rest : List Char} {unit : Nat} (h : readSecond s = .ok (unit, rest)) :
    rest.length < s.length := by
  unfold readSecond at h
  split at h
  · cases h
  · split at h
    · split at h
      · cases h
      · split at h
        · have := length_readUnit h
          simp only [List.length_cons]
          omega
        · cases h
    · cases h

theorem length_readCode {s rest : List Char} {c : Char} (h : readCode s = .ok (c, rest)) :
    rest.length < s.length := by
  unfold readCode at h
  split at h
  · cases h
  · next first =>
    have shorter := length_readUnit first
    split at h
    · cases h
    · split at h
      · split at h
        · cases h
        · next second =>
          have := length_readSecond second
          split at h
          · obtain ⟨_, rfl⟩ := Prod.mk.inj (Except.ok.inj h)
            omega
          · cases h
      · cases h
        exact shorter

theorem length_readEscape {s rest : List Char} {c : Char} (h : readEscape s = .ok (c, rest)) :
    rest.length < s.length := by
  cases s with
  | nil => simp [readEscape] at h
  | cons d tail =>
    rw [readEscape] at h
    split at h
    · exact Nat.lt_succ_of_lt (length_readCode h)
    · cases plain : shortEscape? d with
      | none => simp only [plain] at h; cases h
      | some _ => simp only [plain] at h; cases h; exact Nat.lt_succ_self _

theorem length_skipEscape {s rest : List Char} (h : skipEscape s = .ok rest) :
    rest.length < s.length := by
  cases s with
  | nil => simp [skipEscape] at h
  | cons d tail =>
    rw [skipEscape] at h
    split at h
    · cases unit : readUnit tail with
      | error _ => simp only [unit] at h; cases h
      | ok read =>
        simp only [unit] at h
        cases h
        exact Nat.lt_succ_of_lt (length_readUnit unit)
    · cases plain : shortEscape? d with
      | none => simp only [plain] at h; cases h
      | some _ => simp only [plain] at h; cases h; exact Nat.lt_succ_self _

/-! ## Texts -/

/-- Reads on to the closing quote; `acc` holds the characters so far, the last one first. -/
def readFrom (acc : List Char) : List Char → Scan String
  | [] => .error (.before .endInString [])
  | c :: rest =>
    if c = '"' then .ok (String.ofList acc.reverse, rest)
    else if c = '\\' then
      match h : readEscape rest with
      | .error fault => .error fault
      | .ok (plain, after) =>
        have := length_readEscape h
        readFrom (plain :: acc) after
    else if c.toNat < 0x20 then .error (.within .controlCharacter (c :: rest))
    else readFrom (c :: acc) rest
termination_by s => s.length
decreasing_by all_goals simp only [List.length_cons]; omega

/-- Reads a text, from after its opening quote. -/
def read (s : List Char) : Scan String := readFrom [] s

def skip : List Char → Except Fault (List Char)
  | [] => .error (.before .endInString [])
  | c :: rest =>
    if c = '"' then .ok rest
    else if c = '\\' then
      match h : skipEscape rest with
      | .error fault => .error fault
      | .ok after =>
        have := length_skipEscape h
        skip after
    else if c.toNat < 0x20 then .error (.before .controlCharacter (c :: rest))
    else skip rest
termination_by s => s.length
decreasing_by all_goals simp only [List.length_cons]; omega

/-! ## One step of reading, one step of passing over -/

theorem readFrom_quote (acc rest : List Char) :
    readFrom acc ('"' :: rest) = .ok (String.ofList acc.reverse, rest) := by
  simp [readFrom]

theorem readFrom_escaped {acc rest after : List Char} {plain : Char}
    (h : readEscape rest = .ok (plain, after)) :
    readFrom acc ('\\' :: rest) = readFrom (plain :: acc) after := by
  rw [readFrom, if_neg (by decide), if_pos rfl]
  split
  · next bad => rw [h] at bad; cases bad
  · next good => rw [h] at good; cases good; rfl

theorem readFrom_plain {acc rest : List Char} {c : Char} (notQuote : c ≠ '"') (notEscape : c ≠ '\\')
    (notControl : 0x20 ≤ c.toNat) : readFrom acc (c :: rest) = readFrom (c :: acc) rest := by
  rw [readFrom, if_neg notQuote, if_neg notEscape, if_neg (Nat.not_lt.2 notControl)]

theorem skip_quote (rest : List Char) : skip ('"' :: rest) = .ok rest := by
  simp [skip]

theorem skip_escaped {rest after : List Char} (h : skipEscape rest = .ok after) :
    skip ('\\' :: rest) = skip after := by
  rw [skip, if_neg (by decide), if_pos rfl]
  split
  · next bad => rw [h] at bad; cases bad
  · next good => rw [h] at good; cases good; rfl

theorem skip_plain {rest : List Char} {c : Char} (notQuote : c ≠ '"') (notEscape : c ≠ '\\')
    (notControl : 0x20 ≤ c.toNat) : skip (c :: rest) = skip rest := by
  rw [skip, if_neg notQuote, if_neg notEscape, if_neg (Nat.not_lt.2 notControl)]

end Courier.Json.Literal
