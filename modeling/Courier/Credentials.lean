import Courier.Base64
import Courier.Text.Quoted
import Courier.Text.Utf8

set_option autoImplicit false

/-! # Credentials

A user name and a secret, sent as the token of a Basic `Authorization` header: the two parted by a colon,
as the Base64 of their UTF-8 bytes. Who has credentials always sends that header, so neither part may be
empty. A text that shows credentials never shows the secret.
-/

namespace Courier

def basicToken (username secret : String) : String :=
  String.ofList (Base64.encode (Utf8.encode (username ++ ":" ++ secret).toList))

/-- A user name and a secret, neither of them empty. -/
structure Credentials where
  username : String
  secret : String
  username_ne : username ≠ ""
  secret_ne : secret ≠ ""
deriving DecidableEq

namespace Credentials

def of? (username secret : String) : Option Credentials :=
  if h : username ≠ "" ∧ secret ≠ "" then some ⟨username, secret, h.1, h.2⟩ else none

/-- The value of the `Authorization` header. -/
def header (c : Credentials) : String := "Basic " ++ basicToken c.username c.secret

def shown (c : Credentials) : String :=
  "Credentials \x7b username: " ++ quoted c.username ++ ", secret: \"<redacted>\" \x7d"

end Credentials

end Courier
