import Courier.Json.Container.Lemmas
import Courier.Json.Literal
import Mathlib.Data.List.Forall2

set_option autoImplicit false

/-! # The grammar of documents

What a text must look like to be that of a value is told here without a reader (`WellFormed`). Numbers
and nesting are not bounded, and an escape by number may name half of a character: such a literal is well
formed (`Literal.Inside`) but spells no text (`Literal.Spells`). Of an object it is told what its members are
called and which texts their values have (`ObjectText`).
-/

namespace Courier.Json

/-! ## Literals -/

namespace Literal

/-- What stands between the quotes of a literal: characters, and escapes by a letter or by a number. -/
inductive Inside : List Char → Prop where
  | nil : Inside []
  | plain {c : Char} {s : List Char} (notQuote : c ≠ '"') (notEscape : c ≠ '\\')
      (notControl : 0x20 ≤ c.toNat) (more : Inside s) : Inside (c :: s)
  | short {letter c : Char} {s : List Char} (meant : shortEscape? letter = some c) (more : Inside s) :
      Inside ('\\' :: letter :: s)
  | unit {a b c d : Char} {n : Nat} {s : List Char} (number : hexUnit? a b c d = some n) (more : Inside s) :
      Inside ('\\' :: 'u' :: a :: b :: c :: d :: s)

/-- What stands between the quotes of a literal, and the text that it spells. A character beyond the basic
plane takes the numbers of two halves, and a half by itself spells nothing. -/
inductive Spells : List Char → List Char → Prop where
  | nil : Spells [] []
  | plain {c : Char} {s cs : List Char} (notQuote : c ≠ '"') (notEscape : c ≠ '\\')
      (notControl : 0x20 ≤ c.toNat) (more : Spells s cs) : Spells (c :: s) (c :: cs)
  | short {letter c : Char} {s cs : List Char} (meant : shortEscape? letter = some c) (more : Spells s cs) :
      Spells ('\\' :: letter :: s) (c :: cs)
  | unit {a b c d : Char} {n : Nat} {s cs : List Char} (number : hexUnit? a b c d = some n)
      (whole : isLeading n = false ∧ isTrailing n = false) (more : Spells s cs) :
      Spells ('\\' :: 'u' :: a :: b :: c :: d :: s) (Char.ofNat n :: cs)
  | pair {a b c d a' b' c' d' : Char} {m n : Nat} {s cs : List Char} (first : hexUnit? a b c d = some m)
      (second : hexUnit? a' b' c' d' = some n) (leading : isLeading m = true) (trailing : isTrailing n = true)
      (more : Spells s cs) :
      Spells ('\\' :: 'u' :: a :: b :: c :: d :: '\\' :: 'u' :: a' :: b' :: c' :: d' :: s)
        (combine m n :: cs)

end Literal

/-! ## Numerals -/

namespace Numeral

def Digits (ds : List Char) : Prop := ds ≠ [] ∧ ∀ c ∈ ds, c.isDigit = true

/-- An integer part: no zero comes before another digit. -/
inductive Whole : List Char → Prop where
  | zero : Whole ['0']
  | digits {c : Char} {ds : List Char} (digit : c.isDigit = true) (notZero : c ≠ '0')
      (more : ∀ d ∈ ds, d.isDigit = true) : Whole (c :: ds)

/-- The digits of a fraction and its text, which may be left out. -/
inductive Fraction : List Char → List Char → Prop where
  | none : Fraction [] []
  | some {ds : List Char} (digits : Digits ds) : Fraction ds ('.' :: ds)

/-- An exponent, which may be left out. -/
inductive Exponent : List Char → Prop where
  | none : Exponent []
  | some {letter : Char} {sign ds : List Char} (isLetter : letter = 'e' ∨ letter = 'E')
      (isSign : sign = [] ∨ sign = ['+'] ∨ sign = ['-']) (digits : Digits ds) :
      Exponent (letter :: (sign ++ ds))

def Unsigned (s : List Char) : Prop :=
  ∃ whole ds fraction exponent, s = whole ++ (fraction ++ exponent) ∧
    Whole whole ∧ Fraction ds fraction ∧ Exponent exponent

end Numeral

/-! ## Values -/

/-- The text of a value in a container, and the blanks around it. -/
structure Item where
  before : List Char
  value : List Char
  after : List Char

/-- The text of a member of an object: its name between quotes, which blanks may stand before and behind, a
colon, and the item after it. -/
structure Member where
  before : List Char
  name : List Char
  gap : List Char
  item : Item

def Item.text (i : Item) : List Char := i.before ++ (i.value ++ i.after)

def Member.text (m : Member) : List Char :=
  m.before ++ '"' :: (m.name ++ '"' :: (m.gap ++ ':' :: m.item.text))

def Item.Spaced (i : Item) : Prop := Blanks i.before ∧ Blanks i.after

def Member.Spaced (m : Member) : Prop := Blanks m.before ∧ Blanks m.gap ∧ m.item.Spaced

/-- The parts of a container after the first one, each behind a comma. -/
def moreParts (parts : List (List Char)) : List Char := parts.flatMap fun part => ',' :: part

@[simp]
theorem moreParts_nil : moreParts [] = [] := rfl

@[simp]
theorem moreParts_cons (part : List Char) (parts : List (List Char)) :
    moreParts (part :: parts) = ',' :: (part ++ moreParts parts) := rfl

/-- What stands between the brackets of a container: its parts, parted by commas, or only blanks. -/
def Parted (parts : List (List Char)) (s : List Char) : Prop :=
  match parts with
  | [] => Blanks s
  | part :: parts => s = part ++ moreParts parts

/-- The text of a value, without blanks around it. -/
inductive WellFormed : List Char → Prop where
  | null : WellFormed ['n', 'u', 'l', 'l']
  | true : WellFormed ['t', 'r', 'u', 'e']
  | false : WellFormed ['f', 'a', 'l', 's', 'e']
  | numeral {s : List Char} (unsigned : Numeral.Unsigned s) : WellFormed s
  | negative {s : List Char} (unsigned : Numeral.Unsigned s) : WellFormed ('-' :: s)
  | literal {s : List Char} (inside : Literal.Inside s) : WellFormed ('"' :: (s ++ ['"']))
  | array {items : List Item} {s : List Char} (parted : Parted (items.map Item.text) s)
      (spaced : ∀ i ∈ items, i.Spaced) (values : ∀ i ∈ items, WellFormed i.value) :
      WellFormed ('[' :: (s ++ [']']))
  | object {members : List Member} {s : List Char} (parted : Parted (members.map Member.text) s)
      (spaced : ∀ m ∈ members, m.Spaced) (names : ∀ m ∈ members, Literal.Inside m.name)
      (values : ∀ m ∈ members, WellFormed m.item.value) :
      WellFormed ('{' :: (s ++ ['}']))

/-! ## Objects -/

/-- A member of an object: the text that its name spells, if it does, and the text of its value. -/
structure Entry where
  name? : Option String
  value : String
deriving Repr, DecidableEq

/-- The text of a member is that of an entry. -/
structure Member.IsEntry (m : Member) (e : Entry) : Prop where
  spaced : m.Spaced
  inside : Literal.Inside m.name
  name : ∀ name : String, e.name? = some name ↔ Literal.Spells m.name name.toList
  wellFormed : WellFormed m.item.value
  value : e.value.toList = m.item.value

/-- The text is a document that is an object with the given members. -/
def ObjectText (entries : List Entry) (text : String) : Prop :=
  ∃ (before inside after : List Char) (members : List Member),
    text.toList = before ++ '{' :: (inside ++ '}' :: after) ∧ Blanks before ∧ Blanks after ∧
      Parted (members.map Member.text) inside ∧ List.Forall₂ Member.IsEntry members entries

end Courier.Json
