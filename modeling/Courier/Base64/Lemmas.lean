import Courier.Base64

set_option autoImplicit false

/-! # Reading Base64 that has been written

Writing loses nothing, so two lists of bytes with one text are the same.
-/

namespace Courier.Base64

theorem value?_letter {n : Nat} (h : n < 64) : value? (letter n) = some n := by
  have all : ∀ n : Fin 64, value? (letter n) = some n.val := by decide
  exact all ⟨n, h⟩

theorem letter_ne_pad {n : Nat} (h : n < 64) : letter n ≠ '=' := by
  have all : ∀ n : Fin 64, letter n ≠ '=' := by decide
  exact all ⟨n, h⟩

/-- A byte is told by its number, whatever multiple of 256 is added. -/
theorem ofNat_eq {n : Nat} {b : UInt8} (h : n % 256 = b.toNat) : UInt8.ofNat n = b := by
  apply UInt8.toNat_inj.1
  rw [UInt8.toNat_ofNat']
  exact h

theorem decode_encode (bytes : List UInt8) : decode (encode bytes) = some bytes := by
  fun_induction encode bytes with
  | case1 => rfl
  | case2 a n =>
    have boundA := a.toNat_lt
    have first := value?_letter (n := n / 4) (by omega)
    have second := value?_letter (n := n % 4 * 16) (by omega)
    have whole : n / 4 * 64 + n % 4 * 16 = n * 16 := by omega
    have byteA : UInt8.ofNat (n * 16 / 16) = a := ofNat_eq (by omega)
    simp only [decode, first, second, Option.bind_eq_bind, Option.bind_some, whole, byteA]
    simp
  | case3 a b n =>
    have boundA := a.toNat_lt
    have boundB := b.toNat_lt
    have first := value?_letter (n := n / 1024) (by omega)
    have second := value?_letter (n := n / 16 % 64) (by omega)
    have third := value?_letter (n := n % 16 * 4) (by omega)
    have noPad := letter_ne_pad (n := n % 16 * 4) (by omega)
    have whole : (n / 1024 * 64 + n / 16 % 64) * 64 + n % 16 * 4 = n * 4 := by omega
    have byteA : UInt8.ofNat (n * 4 / 1024) = a := ofNat_eq (by omega)
    have byteB : UInt8.ofNat (n * 4 / 4) = b := ofNat_eq (by omega)
    simp only [decode, first, second, third, Option.bind_eq_bind, Option.bind_some, whole, byteA,
      byteB]
    simp
  | case4 a b c rest n ih =>
    have boundA := a.toNat_lt
    have boundB := b.toNat_lt
    have boundC := c.toNat_lt
    have first := value?_letter (n := n / 262144) (by omega)
    have second := value?_letter (n := n / 4096 % 64) (by omega)
    have third := value?_letter (n := n / 64 % 64) (by omega)
    have fourth := value?_letter (n := n % 64) (by omega)
    have noPad := letter_ne_pad (n := n % 64) (by omega)
    have whole : ((n / 262144 * 64 + n / 4096 % 64) * 64 + n / 64 % 64) * 64 + n % 64 = n := by
      omega
    have byteA : UInt8.ofNat (n / 65536) = a := ofNat_eq (by omega)
    have byteB : UInt8.ofNat (n / 256) = b := ofNat_eq (by omega)
    have byteC : UInt8.ofNat n = c := ofNat_eq (by omega)
    -- The last letter is no padding, so the four are read as a whole group.
    rw [decode]
    · simp only [first, second, third, fourth, Option.bind_eq_bind, Option.bind_some, whole, ih,
        byteA, byteB, byteC]
    · intro _ pad
      exact absurd pad noPad
    · intro pad
      exact absurd pad noPad

theorem encode_injective {s t : List UInt8} (h : encode s = encode t) : s = t :=
  Option.some.inj (by rw [← decode_encode s, h, decode_encode])

end Courier.Base64
