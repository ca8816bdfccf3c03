set_option autoImplicit false

/-! # UTF-8 text as a list of bytes

A text is written character by character. Reading walks the bytes once and stops at the first byte
that belongs to no character; the fault then says where that character would have started, and
whether more bytes could have completed it.
-/

namespace Courier.Utf8

def encode (cs : List Char) : List UInt8 := cs.flatMap String.utf8EncodeChar

def size (cs : List Char) : Nat := cs.foldl (fun n c => n + c.utf8Size) 0

/-- Why a list of bytes is not a text. -/
inductive Fault where
  /-- The first `length` bytes from `index` on can start no character, whatever follows them. -/
  | invalid (index length : Nat)
  /-- The bytes end inside a character that starts at `index`. -/
  | incomplete (index : Nat)
deriving Repr, DecidableEq

def Fault.message : Fault → String
  | .invalid index length =>
    s!"invalid utf-8 sequence of {length} bytes from index {index}"
  | .incomplete index => s!"incomplete utf-8 byte sequence from index {index}"

/-- A byte `10xxxxxx`, which continues a character. -/
def IsContinuation (b : UInt8) : Prop := 0x80 ≤ b.toNat ∧ b.toNat < 0xC0

/-- Whether `second` may follow `lead` in a character of three bytes: no shorter form of the same
character exists, and the character is no surrogate. -/
def StartsThree (lead second : UInt8) : Prop :=
  (if lead.toNat = 0xE0 then 0xA0 else 0x80) ≤ second.toNat ∧
    second.toNat < if lead.toNat = 0xED then 0xA0 else 0xC0

/-- Whether `second` may follow `lead` in a character of four bytes: no shorter form of the same
character exists, and the character is not above U+10FFFF. -/
def StartsFour (lead second : UInt8) : Prop :=
  (if lead.toNat = 0xF0 then 0x90 else 0x80) ≤ second.toNat ∧
    second.toNat < if lead.toNat = 0xF4 then 0x90 else 0xC0

instance (b : UInt8) : Decidable (IsContinuation b) := by unfold IsContinuation; infer_instance

instance (lead second : UInt8) : Decidable (StartsThree lead second) := by
  unfold StartsThree; infer_instance

instance (lead second : UInt8) : Decidable (StartsFour lead second) := by
  unfold StartsFour; infer_instance

/-- The payload bits of a lead byte followed by those of its continuation bytes. -/
def assemble (lead : Nat) (continuation : List UInt8) : Char :=
  Char.ofNat (continuation.foldl (fun code b => code * 64 + b.toNat % 64) lead)

/-! ## One character

Each reader gets the number of the lead byte, the lead byte, and the bytes after it. -/

def readTwo (index : Nat) (b : UInt8) : List UInt8 → Except Fault (Char × List UInt8)
  | [] => .error (.incomplete index)
  | b₁ :: rest =>
    if IsContinuation b₁ then .ok (assemble (b.toNat % 32) [b₁], rest)
    else .error (.invalid index 1)

def readThree (index : Nat) (b : UInt8) : List UInt8 → Except Fault (Char × List UInt8)
  | [] => .error (.incomplete index)
  | [b₁] => .error (if StartsThree b b₁ then .incomplete index else .invalid index 1)
  | b₁ :: b₂ :: rest =>
    if ¬StartsThree b b₁ then .error (.invalid index 1)
    else if IsContinuation b₂ then .ok (assemble (b.toNat % 16) [b₁, b₂], rest)
    else .error (.invalid index 2)

def readFour (index : Nat) (b : UInt8) : List UInt8 → Except Fault (Char × List UInt8)
  | [] => .error (.incomplete index)
  | [b₁] => .error (if StartsFour b b₁ then .incomplete index else .invalid index 1)
  | [b₁, b₂] =>
    .error (if ¬StartsFour b b₁ then .invalid index 1
      else if IsContinuation b₂ then .incomplete index
      else .invalid index 2)
  | b₁ :: b₂ :: b₃ :: rest =>
    if ¬StartsFour b b₁ then .error (.invalid index 1)
    else if ¬IsContinuation b₂ then .error (.invalid index 2)
    else if IsContinuation b₃ then .ok (assemble (b.toNat % 8) [b₁, b₂, b₃], rest)
    else .error (.invalid index 3)

def readChar (index : Nat) (b : UInt8) (bs : List UInt8) : Except Fault (Char × List UInt8) :=
  if b.toNat < 0x80 then .ok (Char.ofNat b.toNat, bs)
  else if b.toNat < 0xC2 then .error (.invalid index 1)
  else if b.toNat < 0xE0 then readTwo index b bs
  else if b.toNat < 0xF0 then readThree index b bs
  else if b.toNat < 0xF5 then readFour index b bs
  else .error (.invalid index 1)

theorem length_readChar {index : Nat} {b : UInt8} {bs rest : List UInt8} {c : Char}
    (h : readChar index b bs = .ok (c, rest)) : rest.length ≤ bs.length := by
  unfold readChar readTwo readThree readFour at h
  (repeat' split at h) <;> simp only [Except.ok.injEq, Prod.mk.injEq, reduceCtorEq] at h
  -- What is left was read, and it is followed by a part of what followed the lead byte.
  all_goals
    obtain ⟨_, rfl⟩ := h
    grind

/-! ## Whole texts -/

/-- Reads on from byte number `index`; `acc` holds the characters before it, the last one first. -/
def decodeFrom (index : Nat) (acc : List Char) : List UInt8 → Except Fault (List Char)
  | [] => .ok acc.reverse
  | b :: bs =>
    match h : readChar index b bs with
    | .error fault => .error fault
    | .ok (c, rest) =>
      have := length_readChar h
      decodeFrom (index + c.utf8Size) (c :: acc) rest
termination_by bytes => bytes.length
decreasing_by simp only [List.length_cons]; omega

def decode (bytes : List UInt8) : Except Fault (List Char) := decodeFrom 0 [] bytes

theorem decodeFrom_cons {index : Nat} {acc : List Char} {b : UInt8} {bs rest : List UInt8} {c : Char}
    (h : readChar index b bs = .ok (c, rest)) :
    decodeFrom index acc (b :: bs) = decodeFrom (index + c.utf8Size) (c :: acc) rest := by
  rw [decodeFrom]
  split
  · next bad => rw [h] at bad; cases bad
  · next good =>
    obtain ⟨rfl, rfl⟩ := Prod.mk.inj (Except.ok.inj (h.symm.trans good))
    rfl

end Courier.Utf8
