import Courier.Text.Unprintable

set_option autoImplicit false

/-! # Quoted text

Messages show a text between double quotes, so that its end is plain to see and every character of
it can be told. The quote and the backslash are escaped, four controls have a letter, and a character
that does not show is given by its number.
-/

namespace Courier.Quoted

def escape (c : Char) : List Char :=
  if c = '"' then ['\\', '"']
  else if c = '\\' then ['\\', '\\']
  else if c = '\n' then ['\\', 'n']
  else if c = '\r' then ['\\', 'r']
  else if c = '\t' then ['\\', 't']
  else if c = '\x00' then ['\\', '0']
  else if isUnprintable c then ['\\', 'u', '\x7b'] ++ Nat.toDigits 16 c.toNat ++ ['\x7d']
  else [c]

end Quoted

def quoted (text : String) : String :=
  String.ofList ('"' :: text.toList.flatMap Quoted.escape ++ ['"'])

end Courier
