set_option autoImplicit false

/-! # Text of one byte a character

The heads of messages are bytes, of which only those of ASCII have a settled meaning. Each byte is taken
for the character of its number, so that no byte is lost.
-/

namespace Courier.Latin

def charOf (b : UInt8) : Char := Char.ofNat b.toNat

def decode (bytes : List UInt8) : List Char := bytes.map charOf

end Courier.Latin
