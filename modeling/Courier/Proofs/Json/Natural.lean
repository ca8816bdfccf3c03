import Courier.Proofs.Json.Locality

set_option autoImplicit false

/-! # Natural numbers in decimal

The numeral of a natural number is read as that number if it has 64 bits, and not at all otherwise: it is never
taken for another one (`Shape.natural_decode_iff`). The reader takes digits only as long as they fit, so an integer
is made of a numeral only if no digit is left over (`Numeral.absorb_eq_nil`); of a longer one a double is made, and
a double is no natural number.
-/

namespace Courier.Json

namespace Numeral

open Decimal

/-- Nothing is read of the digits of a number but the number. -/
theorem read_digits_eq_integer {n : Nat} {rest after : List Char} {m : Int} {inRange : Number.InRange m}
    (ends : EndsPart rest) (h : read false (digits n ++ rest) = .ok (.integer m inRange, after)) : m = n := by
  unfold read at h
  simp only [readWhole_append (whole_digits n) (noDigit_of_endsPart ends), readFraction_none ends,
    readExponent_none _ ends, bind, Except.bind] at h
  split at h
  · next number assembled =>
    obtain ⟨rfl, -⟩ := Prod.mk.inj (Except.ok.inj h)
    obtain ⟨-, -, -, told⟩ := assemble_eq_integer assembled
    rw [told, if_neg Bool.false_ne_true, value_digits]
  · cases h

end Numeral

theorem readNatural_digits (depth n : Nat) (rest : List Char) :
    readNatural depth (Decimal.digits n ++ rest) = narrow (Numeral.read false (Decimal.digits n ++ rest)) := by
  obtain ⟨c, ds, hds, digit, -⟩ := Decimal.digits_eq_cons n
  have notMinus : c ≠ '-' := Decimal.ne_of_isDigit digit (by decide)
  have begins : dropSpace (c :: (ds ++ rest)) = c :: (ds ++ rest) :=
    dropSpace_cons (not_isSpace_of_isDigit digit) _
  rw [hds, List.cons_append]
  unfold readNatural afterSpace
  rw [begins]
  simp only [if_neg notMinus, if_pos digit]

namespace Shape

/-- A numeral is decoded as the number that it is of, and as no other. -/
theorem natural_decode_iff {n : Nat} {k : UInt64} :
    natural.decode (Decimal.text n) = .ok k ↔ k.toNat = n := by
  have chars : (Decimal.text n).toList = Decimal.digits n ++ [] := by
    rw [Decimal.text, String.toList_ofList, List.append_nil]
  rw [decode_eq_ok_iff, chars]
  constructor
  · rintro ⟨rest, taken, -⟩
    have taken : narrow (Numeral.read false (Decimal.digits n ++ [])) = .ok (k, rest) :=
      (readNatural_digits nestingLimit n []).symm.trans taken
    obtain ⟨m, inRange, read, -, rfl⟩ := narrow_eq_ok_iff.1 taken
    obtain rfl := Numeral.read_digits_eq_integer endsPart_nil read
    have below : n < 2 ^ 64 := by omega
    rw [Int.toNat_natCast, UInt64.toNat_ofNat_of_lt' below]
  · rintro rfl
    have bound := k.toNat_lt
    have inRange : Number.InRange (if false = true then -(k.toNat : Int) else k.toNat) := by
      rw [if_neg Bool.false_ne_true]
      omega
    have read := Numeral.read_digits bound inRange (fun minus => Bool.false_ne_true minus.1) endsPart_nil
    refine ⟨[], (readNatural_digits nestingLimit _ []).trans ?_, rfl⟩
    refine narrow_eq_ok_iff.2 ⟨_, inRange, read, ?_, ?_⟩
    · exact Int.natCast_nonneg _
    · rw [if_neg Bool.false_ne_true, Int.toNat_natCast, UInt64.ofNat_toNat]

end Shape

end Courier.Json
