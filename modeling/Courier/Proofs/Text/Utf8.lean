import Courier.Text.Utf8.Lemmas

set_option autoImplicit false

/-! # Bytes that read as a text are the bytes of that text

Reading refuses longer forms of a character, surrogates, and what is above U+10FFFF. So the bytes that are
taken for a character are those that the character is written by, and the bytes that are read to their end
are those of the text.
-/

namespace Courier.Utf8

/-! ## One character -/

theorem toNat_charOfNat {n : Nat} (valid : n < 0xD800 ∨ 0xDFFF < n ∧ n < 0x110000) :
    (Char.ofNat n).val.toNat = n := by
  unfold Char.ofNat
  rw [dif_pos valid]
  rfl

theorem ofNat_eq_byte {n : Nat} {b : UInt8} (h : n = b.toNat) : UInt8.ofNat n = b := by
  rw [h, UInt8.ofNat_toNat]

theorem encodeChar_readTwo {index : Nat} {b : UInt8} {bs rest : List UInt8} {c : Char}
    (lead : 0xC2 ≤ b.toNat ∧ b.toNat < 0xE0) (h : readTwo index b bs = .ok (c, rest)) :
    String.utf8EncodeChar c ++ rest = b :: bs := by
  cases bs with
  | nil => exact absurd h (by simp [readTwo])
  | cons b₁ bs =>
    rw [readTwo] at h
    by_cases second : IsContinuation b₁
    · rw [if_pos second] at h
      obtain ⟨rfl, rfl⟩ := Prod.mk.inj (Except.ok.inj h)
      obtain ⟨low, high⟩ := second
      -- The lead is 0xC2 or more, so the number has more than seven bits.
      have code := toNat_charOfNat (n := b.toNat % 32 * 64 + b₁.toNat % 64) (by omega)
      rw [assemble, List.foldl_cons, List.foldl_nil]
      unfold String.utf8EncodeChar
      simp only [code]
      rw [if_neg (by omega), if_pos (by omega), ofNat_eq_byte (b := b) (by omega),
        ofNat_eq_byte (b := b₁) (by omega)]
      rfl
    · rw [if_neg second] at h
      cases h

theorem encodeChar_readThree {index : Nat} {b : UInt8} {bs rest : List UInt8} {c : Char}
    (lead : 0xE0 ≤ b.toNat ∧ b.toNat < 0xF0) (h : readThree index b bs = .ok (c, rest)) :
    String.utf8EncodeChar c ++ rest = b :: bs := by
  match bs, h with
  | b₁ :: b₂ :: bs, h =>
    rw [readThree] at h
    by_cases second : StartsThree b b₁
    · rw [if_neg (not_not_intro second)] at h
      by_cases third : IsContinuation b₂
      · rw [if_pos third] at h
        obtain ⟨rfl, rfl⟩ := Prod.mk.inj (Except.ok.inj h)
        obtain ⟨low, high⟩ := third
        -- The bounds on the second byte leave out shorter forms and surrogates.
        have bounds : 0x80 ≤ b₁.toNat ∧ b₁.toNat < 0xC0 ∧ (b.toNat = 0xE0 → 0xA0 ≤ b₁.toNat) ∧
            (b.toNat = 0xED → b₁.toNat < 0xA0) := by
          obtain ⟨least, most⟩ := second
          split at least <;> split at most <;> omega
        have code := toNat_charOfNat
          (n := (b.toNat % 16 * 64 + b₁.toNat % 64) * 64 + b₂.toNat % 64) (by omega)
        rw [assemble, List.foldl_cons, List.foldl_cons, List.foldl_nil]
        unfold String.utf8EncodeChar
        simp only [code]
        rw [if_neg (by omega), if_neg (by omega), if_pos (by omega), ofNat_eq_byte (b := b) (by omega),
          ofNat_eq_byte (b := b₁) (by omega), ofNat_eq_byte (b := b₂) (by omega)]
        rfl
      · rw [if_neg third] at h
        cases h
    · rw [if_pos second] at h
      cases h

theorem encodeChar_readFour {index : Nat} {b : UInt8} {bs rest : List UInt8} {c : Char}
    (lead : 0xF0 ≤ b.toNat ∧ b.toNat < 0xF5) (h : readFour index b bs = .ok (c, rest)) :
    String.utf8EncodeChar c ++ rest = b :: bs := by
  match bs, h with
  | b₁ :: b₂ :: b₃ :: bs, h =>
    rw [readFour] at h
    by_cases second : StartsFour b b₁
    · rw [if_neg (not_not_intro second)] at h
      by_cases third : IsContinuation b₂
      · rw [if_neg (not_not_intro third)] at h
        by_cases fourth : IsContinuation b₃
        · rw [if_pos fourth] at h
          obtain ⟨rfl, rfl⟩ := Prod.mk.inj (Except.ok.inj h)
          obtain ⟨low₂, high₂⟩ := third
          obtain ⟨low₃, high₃⟩ := fourth
          -- The bounds on the second byte leave out shorter forms and what is above U+10FFFF.
          have bounds : 0x80 ≤ b₁.toNat ∧ b₁.toNat < 0xC0 ∧ (b.toNat = 0xF0 → 0x90 ≤ b₁.toNat) ∧
              (b.toNat = 0xF4 → b₁.toNat < 0x90) := by
            obtain ⟨least, most⟩ := second
            split at least <;> split at most <;> omega
          have code := toNat_charOfNat
            (n := ((b.toNat % 8 * 64 + b₁.toNat % 64) * 64 + b₂.toNat % 64) * 64 + b₃.toNat % 64)
            (by omega)
          rw [assemble, List.foldl_cons, List.foldl_cons, List.foldl_cons, List.foldl_nil]
          unfold String.utf8EncodeChar
          simp only [code]
          rw [if_neg (by omega), if_neg (by omega), if_neg (by omega), ofNat_eq_byte (b := b) (by omega),
            ofNat_eq_byte (b := b₁) (by omega), ofNat_eq_byte (b := b₂) (by omega),
            ofNat_eq_byte (b := b₃) (by omega)]
          rfl
        · rw [if_neg fourth] at h
          cases h
      · rw [if_pos third] at h
        cases h
    · rw [if_pos second] at h
      cases h

theorem encodeChar_readChar {index : Nat} {b : UInt8} {bs rest : List UInt8} {c : Char}
    (h : readChar index b bs = .ok (c, rest)) : String.utf8EncodeChar c ++ rest = b :: bs := by
  unfold readChar at h
  split at h
  · next one =>
    obtain ⟨rfl, rfl⟩ := Prod.mk.inj (Except.ok.inj h)
    have code := toNat_charOfNat (n := b.toNat) (by omega)
    unfold String.utf8EncodeChar
    simp only [code]
    rw [if_pos (by omega), UInt8.ofNat_toNat]
    rfl
  split at h
  · cases h
  split at h
  · exact encodeChar_readTwo (by omega) h
  split at h
  · exact encodeChar_readThree (by omega) h
  split at h
  · exact encodeChar_readFour (by omega) h
  · cases h

/-! ## Whole texts -/

theorem encode_decodeFrom {index : Nat} {acc : List Char} {bytes : List UInt8} {cs : List Char}
    (h : decodeFrom index acc bytes = .ok cs) : encode cs = encode acc.reverse ++ bytes := by
  -- The induction is on the number of bytes, since a character takes more than one of them.
  induction n : bytes.length using Nat.strongRecOn generalizing index acc bytes with
  | ind n ih =>
    cases bytes with
    | nil =>
      rw [decodeFrom] at h
      rw [Except.ok.inj h, List.append_nil]
    | cons b bs =>
      cases read : readChar index b bs with
      | error fault =>
        rw [decodeFrom] at h
        split at h
        · cases h
        · next good => rw [read] at good; cases good
      | ok taken =>
        obtain ⟨c, rest⟩ := taken
        rw [decodeFrom_cons read] at h
        have shorter := length_readChar read
        subst n
        rw [ih rest.length (by rw [List.length_cons]; omega) h rfl, List.reverse_cons, encode_append,
          encode_cons, encode_nil, List.append_nil, List.append_assoc, encodeChar_readChar read]

theorem encode_of_decode {bytes : List UInt8} {cs : List Char} (h : decode bytes = .ok cs) :
    encode cs = bytes := by
  rw [encode_decodeFrom h]
  rfl

/-- Bytes read as a text exactly if they are those of the text. -/
theorem decode_eq_ok_iff {bytes : List UInt8} {cs : List Char} :
    decode bytes = .ok cs ↔ encode cs = bytes := by
  constructor
  · exact encode_of_decode
  · rintro rfl
    exact decode_encode cs

end Courier.Utf8
