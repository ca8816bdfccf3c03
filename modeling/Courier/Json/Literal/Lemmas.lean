import Courier.Json.Literal
import Courier.Json.Writer

set_option autoImplicit false

/-! # Reading a text that has been written

Whatever the characters of a text are, its literal reads back to it, and reading stops right after the
closing quote. The same holds of passing over it.
-/

namespace Courier

theorem Hex.value?_digit {n : Nat} (h : n < 16) : Hex.value? (Hex.digit n) = some n := by
  have all : ∀ n : Fin 16, Hex.value? (Hex.digit n) = some n.val := by decide
  exact all ⟨n, h⟩

namespace Json.Literal

/-- The four digits that are written for a control give back its number. -/
theorem readUnit_control {n : Nat} (h : n < 0x20) (rest : List Char) :
    readUnit ('0' :: '0' :: Hex.digit (n / 16) :: Hex.digit (n % 16) :: rest) = .ok (n, rest) := by
  have zero : Hex.value? '0' = some 0 := by decide
  have high : Hex.value? (Hex.digit (n / 16)) = some (n / 16) := Hex.value?_digit (by omega)
  have low : Hex.value? (Hex.digit (n % 16)) = some (n % 16) := Hex.value?_digit (by omega)
  have sum : n / 16 * 16 + n % 16 = n := by omega
  simp [readUnit, hexUnit?, zero, high, low, sum]

theorem readEscape_control {c : Char} (h : c.toNat < 0x20) (rest : List Char) :
    readEscape ('u' :: '0' :: '0' :: Hex.digit (c.toNat / 16) :: Hex.digit (c.toNat % 16) :: rest)
      = .ok (c, rest) := by
  have notTrailing : isTrailing c.toNat = false := by simp [isTrailing]; omega
  have notLeading : isLeading c.toNat = false := by simp [isLeading]; omega
  simp [readEscape, readCode, readUnit_control h, notTrailing, notLeading]

/-- A character is either written as an escape that reads back to it, or as it is. -/
theorem escape_cases (c : Char) :
    (∃ e : List Char, escape c = '\\' :: e ∧ ∀ rest, readEscape (e ++ rest) = .ok (c, rest)) ∨
      (escape c = [c] ∧ c ≠ '"' ∧ c ≠ '\\' ∧ 0x20 ≤ c.toNat) := by
  -- The letters of the short escapes, one by one.
  have short : ∀ letter plain : Char, letter ≠ 'u' → shortEscape? letter = some plain →
      ∀ rest, readEscape ([letter] ++ rest) = .ok (plain, rest) := by
    intro letter plain notHex meant rest
    simp [readEscape, notHex, meant]
  unfold escape
  split
  · next h => exact .inl ⟨['"'], rfl, by subst h; exact short _ _ (by decide) (by decide)⟩
  split
  · next h => exact .inl ⟨['\\'], rfl, by subst h; exact short _ _ (by decide) (by decide)⟩
  split
  · next h => exact .inl ⟨['b'], rfl, by subst h; exact short _ _ (by decide) (by decide)⟩
  split
  · next h => exact .inl ⟨['t'], rfl, by subst h; exact short _ _ (by decide) (by decide)⟩
  split
  · next h => exact .inl ⟨['n'], rfl, by subst h; exact short _ _ (by decide) (by decide)⟩
  split
  · next h => exact .inl ⟨['f'], rfl, by subst h; exact short _ _ (by decide) (by decide)⟩
  split
  · next h => exact .inl ⟨['r'], rfl, by subst h; exact short _ _ (by decide) (by decide)⟩
  split
  · next control => exact .inl ⟨_, rfl, readEscape_control control⟩
  · next notQuote notEscape _ _ _ _ _ notControl =>
    exact .inr ⟨rfl, notQuote, notEscape, Nat.not_lt.1 notControl⟩

theorem readFrom_escape (acc : List Char) (c : Char) (rest : List Char) :
    readFrom acc (escape c ++ rest) = readFrom (c :: acc) rest := by
  rcases escape_cases c with ⟨e, written, reads⟩ | ⟨written, notQuote, notEscape, notControl⟩
  · rw [written]
    exact readFrom_escaped (reads rest)
  · rw [written]
    exact readFrom_plain notQuote notEscape notControl

theorem readFrom_flatMap_escape (acc cs rest : List Char) :
    readFrom acc (cs.flatMap escape ++ '"' :: rest)
      = .ok (String.ofList (acc.reverse ++ cs), rest) := by
  induction cs generalizing acc with
  | nil => simp [readFrom_quote]
  | cons c cs ih => simp [List.flatMap_cons, List.append_assoc, readFrom_escape, ih]

/-- Reading a literal, from after its opening quote, gives the text it was written for. -/
theorem read_flatMap_escape (s : String) (rest : List Char) :
    read (s.toList.flatMap escape ++ '"' :: rest) = .ok (s, rest) := by
  rw [read, readFrom_flatMap_escape]
  simp

end Json.Literal

end Courier
