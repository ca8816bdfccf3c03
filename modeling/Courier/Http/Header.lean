set_option autoImplicit false

/-! # Headers

A message carries a list of headers. Their names are looked up without regard to the case of ASCII
letters, and of several headers with one name the first counts.
-/

namespace Courier

/-- The headers of a message, in order: names and values. -/
abbrev Headers := List (String × String)

namespace Headers

def sameName (a b : String) : Bool := a.toList.map Char.toLower == b.toList.map Char.toLower

def get? (headers : Headers) (name : String) : Option String :=
  (headers.find? fun header => sameName header.1 name).map Prod.snd

def getAll (headers : Headers) (name : String) : List String :=
  (headers.filter fun header => sameName header.1 name).map Prod.snd

/-! ## Names and values -/

/-- A character of a token, the form that the name of a header must have. -/
def isTokenChar (c : Char) : Bool :=
  c.isAlphanum || c ∈ ['!', '#', '$', '%', '&', '\x27', '*', '+', '-', '.', '^', '_', '\x60', '|', '~']

def isName (s : String) : Bool := !s.isEmpty && s.toList.all isTokenChar

def isVisible (c : Char) : Bool := 0x21 ≤ c.toNat && c.toNat ≤ 0x7E

/-- A character that shows in a text of ASCII: a visible one, the space or the tab. -/
def isPlain (c : Char) : Bool := c == ' ' || c == '\t' || isVisible c

/-- A character that the value of a header may hold: any but the controls, the tab apart. -/
def isValueChar (c : Char) : Bool := c == '\t' || (0x20 ≤ c.toNat && c.toNat != 0x7F)

/-- The text can be the value of a header. -/
def isValue (s : String) : Bool := s.toList.all isValueChar

/-! ## What counts of a value -/

/-- A blank in the value of a header. -/
def isSpace (c : Char) : Bool := c == ' ' || c == '\t'

/-- A text without the blanks at its ends. -/
def trim (s : List Char) : List Char :=
  ((s.dropWhile isSpace).reverse.dropWhile isSpace).reverse

/-- The header as it arrives: its name has small letters only, and its value has no blanks at its ends. -/
def arrived (header : String × String) : String × String :=
  (String.ofList (header.1.toList.map Char.toLower), String.ofList (trim header.2.toList))

/-- The members of a list that values give together: they are set apart by commas, and the blanks around
them do not count. -/
def members (values : List String) : List (List Char) :=
  values.flatMap fun value => (value.toList.splitOn ',').map trim

end Headers

end Courier
