import Courier.Text.Decimal
import Mathlib.Algebra.Ring.Nat
import Mathlib.Data.List.TakeDrop
import Mathlib.Data.List.Basic

set_option autoImplicit false

/-! # Digits and the number they stand for

The digits of a number stand for it (`value_digits`), and so do they with zeros before them. No number but
zero begins with a zero (`digits_head_ne_zero`). A reader that takes the digits at the head of a text takes
exactly the ones that were written, if no digit follows them (`span_digits`). A number has one numeral of
each width that is wide enough (`Padded.unique`).
-/

namespace Courier.Decimal

/-! ## What digits are written -/

/-- The digits are ten characters in a row. -/
theorem isDigit_bounds {c : Char} (h : c.isDigit = true) : 48 ≤ c.toNat ∧ c.toNat ≤ 57 := by
  simpa [Char.isDigit, UInt32.le_iff_toNat_le] using h

theorem digits_ne_nil (n : Nat) : digits n ≠ [] := Nat.toDigits_ne_nil

theorem isDigit_of_mem_digits {c : Char} {n : Nat} (h : c ∈ digits n) : c.isDigit = true :=
  Nat.isDigit_of_mem_toDigits (by decide) (by decide) h

theorem digits_eq_cons (n : Nat) :
    ∃ c ds, digits n = c :: ds ∧ c.isDigit = true ∧ ∀ d ∈ ds, d.isDigit = true := by
  obtain ⟨c, ds, hds⟩ := List.exists_cons_of_ne_nil (digits_ne_nil n)
  have all : ∀ d ∈ c :: ds, d.isDigit = true := by
    intro d hd
    rw [← hds] at hd
    exact isDigit_of_mem_digits hd
  exact ⟨c, ds, hds, all c List.mem_cons_self, fun d hd => all d (List.mem_cons_of_mem _ hd)⟩

theorem ne_of_isDigit {c d : Char} (hc : c.isDigit = true) (hd : d.isDigit = false) : c ≠ d := by
  rintro rfl
  rw [hc] at hd
  cases hd

theorem digits_of_lt {n : Nat} (h : n < 10) : digits n = [Nat.digitChar n] :=
  Nat.toDigits_of_lt_base h

/-- The last digit is the remainder by ten; those before it are the digits of the quotient. -/
theorem digits_of_ge {n : Nat} (h : 10 ≤ n) : digits n = digits (n / 10) ++ [Nat.digitChar (n % 10)] :=
  Nat.toDigits_of_base_le (by decide) h

/-- The number of digits, for numbers of four digits and fewer. -/
theorem length_digits_le {n : Nat} (h : n ≤ 9999) : (digits n).length ≤ 4 :=
  (Nat.length_toDigits_le_iff (by decide) (by decide)).2 (by omega)

/-- Only zero begins with a zero. -/
theorem digits_head_ne_zero {n : Nat} (h : 0 < n) : (digits n).head? ≠ some '0' := by
  -- The induction takes away the last digit, so the first one is met when no other is left.
  induction n using Nat.strongRecOn with
  | ind n ih =>
    by_cases small : n < 10
    · rw [digits_of_lt small]
      intro zero
      have : n = 0 := by simpa using zero
      omega
    · rw [digits_of_ge (by omega), List.head?_append_of_ne_nil _ (digits_ne_nil _)]
      exact ih (n / 10) (by omega) (by omega)

/-! ## What digits stand for -/

theorem value_eq_ofDigitChars (ds : List Char) : value ds = Nat.ofDigitChars 10 ds 0 := by
  unfold value digitValue
  rw [Nat.ofDigitChars_eq_foldl]
  congr 1
  funext n c
  show n * 10 + (c.toNat - 48) = 10 * n + (c.toNat - 48)
  omega

theorem value_digits (n : Nat) : value (digits n) = n := by
  rw [value_eq_ofDigitChars]
  exact Nat.ofDigitChars_ten_toDigits

/-- Zeros before digits change nothing. -/
theorem value_zeros_append (count : Nat) (ds : List Char) :
    value (List.replicate count '0' ++ ds) = value ds := by
  rw [value_eq_ofDigitChars, value_eq_ofDigitChars, Nat.ofDigitChars_append]
  simp

/-! ## Taking digits from a text -/

def NoDigit (s : List Char) : Prop := ∀ c ∈ s.head?, c.isDigit = false

theorem noDigit_cons {c : Char} (h : c.isDigit = false) (s : List Char) : NoDigit (c :: s) := by
  intro d hd
  obtain rfl : c = d := by simpa using hd
  exact h

theorem takeWhile_digits {ds rest : List Char} (hds : ∀ c ∈ ds, c.isDigit = true) (hrest : NoDigit rest) :
    (ds ++ rest).takeWhile Char.isDigit = ds := by
  rw [List.takeWhile_append_of_pos hds]
  cases rest with
  | nil => simp
  | cons c rest => simp [hrest c (by simp)]

/-- The digits at the head of a text and what follows them, when these are digits and a text that does not
begin with one. -/
theorem span_digits {ds rest : List Char} (hds : ∀ c ∈ ds, c.isDigit = true) (hrest : NoDigit rest) :
    (ds ++ rest).span Char.isDigit = (ds, rest) := by
  rw [List.span_eq_takeWhile_dropWhile, takeWhile_digits hds hrest]
  congr 1
  rw [List.dropWhile_append_of_pos hds]
  cases rest with
  | nil => rfl
  | cons c rest => simp [hrest c (by simp)]

/-! ## Numerals of a width -/

theorem digitValue_lt {c : Char} (h : c.isDigit = true) : digitValue c < 10 := by
  have bounds := isDigit_bounds h
  unfold digitValue
  omega

theorem digitValue_injective {c d : Char} (hc : c.isDigit = true) (hd : d.isDigit = true)
    (same : digitValue c = digitValue d) : c = d := by
  have boundsc := isDigit_bounds hc
  have boundsd := isDigit_bounds hd
  unfold digitValue at same
  rw [← Char.ofNat_toNat c, ← Char.ofNat_toNat d, show c.toNat = d.toNat by omega]

/-- Digits after a number move it up by as many places, and add less than one to the last place moved. -/
theorem foldl_digits_bounds {ds : List Char} (hds : ∀ c ∈ ds, c.isDigit = true) (n : Nat) :
    n * 10 ^ ds.length ≤ ds.foldl (fun n c => n * 10 + digitValue c) n ∧
      ds.foldl (fun n c => n * 10 + digitValue c) n < (n + 1) * 10 ^ ds.length := by
  induction ds generalizing n with
  | nil => simp
  | cons c ds ih =>
    have digit := digitValue_lt (hds c List.mem_cons_self)
    obtain ⟨low, high⟩ := ih (fun d hd => hds d (List.mem_cons_of_mem _ hd)) (n * 10 + digitValue c)
    rw [List.length_cons, Nat.pow_succ', ← Nat.mul_assoc, ← Nat.mul_assoc]
    constructor
    · exact Nat.le_trans (Nat.mul_le_mul_right _ (Nat.le_add_right _ _)) low
    · exact Nat.lt_of_lt_of_le high (Nat.mul_le_mul_right _ (by omega))

theorem foldl_digits_injective {ds es : List Char} (hds : ∀ c ∈ ds, c.isDigit = true)
    (hes : ∀ c ∈ es, c.isDigit = true) (length : ds.length = es.length) {m n : Nat}
    (same : ds.foldl (fun n c => n * 10 + digitValue c) m = es.foldl (fun n c => n * 10 + digitValue c) n) :
    m = n ∧ ds = es := by
  induction ds generalizing es m n with
  | nil =>
    obtain rfl := List.length_eq_zero_iff.1 length.symm
    exact ⟨same, rfl⟩
  | cons c ds ih =>
    obtain ⟨d, es, rfl⟩ := List.exists_cons_of_length_eq_add_one length.symm
    obtain ⟨hc, hds⟩ := List.forall_mem_cons.1 hds
    obtain ⟨hd, hes⟩ := List.forall_mem_cons.1 hes
    -- Both numbers have been moved up by the same places, so the digit that has come in is told.
    obtain ⟨first, rfl⟩ := ih hds hes (Nat.succ.inj length) same
    have first : m * 10 + digitValue c = n * 10 + digitValue d := first
    have ltc := digitValue_lt hc
    have ltd := digitValue_lt hd
    rw [digitValue_injective hc hd (by omega)]
    exact ⟨by omega, rfl⟩

/-- Digits, `width` of them, that stand for `n`. -/
structure Padded (width n : Nat) (ds : List Char) : Prop where
  digits : ∀ c ∈ ds, c.isDigit = true
  length : ds.length = width
  value : value ds = n

namespace Padded

variable {width width' n : Nat} {ds es : List Char}

theorem unique (h : Padded width n ds) (h' : Padded width n es) : ds = es :=
  (foldl_digits_injective h.digits h'.digits (h.length.trans h'.length.symm)
    (h.value.trans h'.value.symm)).2

theorem lt (h : Padded width n ds) : n < 10 ^ width := by
  have bound := (foldl_digits_bounds h.digits 0).2
  rw [h.length, Nat.zero_add, Nat.one_mul] at bound
  exact h.value ▸ bound

/-- A number that begins with no zero has no smaller width. -/
theorem le_of_head (h : Padded (width + 1) n ds) (noZero : ds.head? ≠ some '0') : 10 ^ width ≤ n := by
  obtain ⟨c, cs, rfl⟩ := List.exists_cons_of_length_eq_add_one h.length
  obtain ⟨hc, hcs⟩ := List.forall_mem_cons.1 h.digits
  have length : cs.length = width := Nat.succ.inj h.length
  have positive : 1 ≤ digitValue c := by
    refine Nat.one_le_iff_ne_zero.2 fun zero => noZero ?_
    rw [digitValue_injective hc (show '0'.isDigit = true by decide) zero]
    rfl
  have low := (foldl_digits_bounds hcs (0 * 10 + digitValue c)).1
  rw [length] at low
  have value : cs.foldl (fun n c => n * 10 + digitValue c) (0 * 10 + digitValue c) = n := h.value
  calc 10 ^ width = 1 * 10 ^ width := (Nat.one_mul _).symm
    _ ≤ (0 * 10 + digitValue c) * 10 ^ width := Nat.mul_le_mul_right _ (by omega)
    _ ≤ n := value ▸ low

end Padded

end Courier.Decimal
