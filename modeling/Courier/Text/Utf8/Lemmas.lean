import Courier.Text.Utf8

set_option autoImplicit false

/-! # Reading bytes that spell a text

The bytes of a text read back to it, and no other bytes do.
-/

namespace Courier.Utf8

@[simp] theorem encode_nil : encode [] = [] := rfl

theorem encode_cons (c : Char) (cs : List Char) :
    encode (c :: cs) = String.utf8EncodeChar c ++ encode cs := by
  simp [encode]

theorem encode_append (s t : List Char) : encode (s ++ t) = encode s ++ encode t := by
  simp [encode]

@[simp] theorem size_nil : size [] = 0 := rfl

theorem foldl_utf8Size (n : Nat) (cs : List Char) :
    cs.foldl (fun n c => n + c.utf8Size) n = n + size cs := by
  unfold size
  induction cs generalizing n with
  | nil => rfl
  | cons c cs ih =>
    rw [List.foldl_cons, List.foldl_cons, ih, ih (0 + c.utf8Size)]
    omega

theorem size_cons (c : Char) (cs : List Char) : size (c :: cs) = c.utf8Size + size cs := by
  rw [← foldl_utf8Size]
  simp [size]

theorem size_append (s t : List Char) : size (s ++ t) = size s + size t := by
  induction s with
  | nil => simp
  | cons c s ih => rw [List.cons_append, size_cons, size_cons, ih, Nat.add_assoc]

theorem length_encode (cs : List Char) : (encode cs).length = size cs := by
  induction cs with
  | nil => rfl
  | cons c cs ih => simp [encode_cons, size_cons, String.length_utf8EncodeChar, ih]

/-! ## One character -/

theorem toNat_ofNat {n : Nat} (h : n < 256) : (UInt8.ofNat n).toNat = n := by
  rw [UInt8.toNat_ofNat', Nat.mod_eq_of_lt h]

/-- The bytes of a character read back to it, whatever follows them. -/
theorem readChar_encodeChar (index : Nat) (c : Char) (rest : List UInt8) :
    ∃ b bs, String.utf8EncodeChar c ++ rest = b :: bs ∧ readChar index b bs = .ok (c, rest) := by
  have valid : c.toNat < 55296 ∨ 57343 < c.toNat ∧ c.toNat < 1114112 := c.valid
  have self : Char.ofNat c.toNat = c := Char.ofNat_toNat c
  have same {n : Nat} (h : n = c.toNat) : Char.ofNat n = c := h ▸ self
  unfold String.utf8EncodeChar
  simp only [show c.val.toNat = c.toNat from rfl]
  split
  · -- One byte.
    have b : (UInt8.ofNat c.toNat).toNat = c.toNat := toNat_ofNat (by omega)
    simp only [List.cons_append, List.nil_append]
    refine ⟨_, _, rfl, ?_⟩
    rw [readChar, if_pos (by omega), b, self]
  split
  · -- Two bytes: the lead byte is not below 0xC2.
    have b : (UInt8.ofNat (c.toNat / 64 % 32 + 192)).toNat = c.toNat / 64 + 192 := by
      rw [toNat_ofNat (by omega)]; omega
    have b₁ : (UInt8.ofNat (c.toNat % 64 + 128)).toNat = c.toNat % 64 + 128 := toNat_ofNat (by omega)
    simp only [List.cons_append, List.nil_append]
    refine ⟨_, _, rfl, ?_⟩
    rw [readChar, if_neg (by omega), if_neg (by omega), if_pos (by omega), readTwo,
      if_pos (by rw [IsContinuation]; omega), assemble, List.foldl_cons,
      List.foldl_nil, b, b₁, same (by omega)]
  split
  · -- Three bytes: the second one tells shorter forms and surrogates.
    have b : (UInt8.ofNat (c.toNat / 4096 % 16 + 224)).toNat = c.toNat / 4096 + 224 := by
      rw [toNat_ofNat (by omega)]; omega
    have b₁ : (UInt8.ofNat (c.toNat / 64 % 64 + 128)).toNat = c.toNat / 64 % 64 + 128 :=
      toNat_ofNat (by omega)
    have b₂ : (UInt8.ofNat (c.toNat % 64 + 128)).toNat = c.toNat % 64 + 128 := toNat_ofNat (by omega)
    simp only [List.cons_append, List.nil_append]
    refine ⟨_, _, rfl, ?_⟩
    rw [readChar, if_neg (by omega), if_neg (by omega), if_neg (by omega), if_pos (by omega),
      readThree,
      if_neg (by rw [StartsThree, b, b₁]; split <;> split <;> omega),
      if_pos (by rw [IsContinuation]; omega), assemble, List.foldl_cons, List.foldl_cons,
      List.foldl_nil, b, b₁, b₂, same (by omega)]
  · -- Four bytes: the second one tells shorter forms and what is above U+10FFFF.
    have b : (UInt8.ofNat (c.toNat / 262144 % 8 + 240)).toNat = c.toNat / 262144 + 240 := by
      rw [toNat_ofNat (by omega)]; omega
    have b₁ : (UInt8.ofNat (c.toNat / 4096 % 64 + 128)).toNat = c.toNat / 4096 % 64 + 128 :=
      toNat_ofNat (by omega)
    have b₂ : (UInt8.ofNat (c.toNat / 64 % 64 + 128)).toNat = c.toNat / 64 % 64 + 128 :=
      toNat_ofNat (by omega)
    have b₃ : (UInt8.ofNat (c.toNat % 64 + 128)).toNat = c.toNat % 64 + 128 := toNat_ofNat (by omega)
    simp only [List.cons_append, List.nil_append]
    refine ⟨_, _, rfl, ?_⟩
    rw [readChar, if_neg (by omega), if_neg (by omega), if_neg (by omega), if_neg (by omega),
      if_pos (by omega), readFour, if_neg (by rw [StartsFour, b, b₁]; split <;> split <;> omega),
      if_neg (by rw [IsContinuation]; omega), if_pos (by rw [IsContinuation]; omega), assemble,
      List.foldl_cons, List.foldl_cons, List.foldl_cons, List.foldl_nil, b, b₁, b₂, b₃,
      same (by omega)]

theorem decodeFrom_encodeChar (index : Nat) (acc : List Char) (c : Char) (rest : List UInt8) :
    decodeFrom index acc (String.utf8EncodeChar c ++ rest)
      = decodeFrom (index + c.utf8Size) (c :: acc) rest := by
  obtain ⟨b, bs, split, read⟩ := readChar_encodeChar index c rest
  rw [split, decodeFrom_cons read]

/-! ## Whole texts -/

theorem decodeFrom_encode (index : Nat) (acc cs : List Char) :
    decodeFrom index acc (encode cs) = .ok (acc.reverse ++ cs) := by
  induction cs generalizing index acc with
  | nil => simp [decodeFrom]
  | cons c cs ih => rw [encode_cons, decodeFrom_encodeChar, ih]; simp

theorem decode_encode (cs : List Char) : decode (encode cs) = .ok cs := by
  rw [decode, decodeFrom_encode]
  simp

theorem encode_injective {s t : List Char} (h : encode s = encode t) : s = t :=
  Except.ok.inj (by rw [← decode_encode s, h, decode_encode])

end Courier.Utf8
