import Courier.Client.Event
import Courier.Credentials

set_option autoImplicit false

/-! # Clients and the requests they send

A client is made from settings that hold together. It fetches by GET and sends by POST; every header of a
request is decided before anything is sent.
-/

namespace Courier

/-- A client; nothing is wrong with its settings. -/
structure Client where
  settings : Settings
  sound : settings.fault? = none

namespace Client

/-- Makes a client. The settings are looked at first, and then what the library that connections are secured by
has to object to the provider of ciphers. -/
def makeOn (settings : Settings) (objection : Option TlsFault) : Except Failure Client :=
  match h : settings.fault? with
  | some fault => .error (.settings fault)
  | none =>
    match objection with
    | some fault => .error (.settings (.tls fault))
    | none => .ok ⟨settings, h⟩

/-- Makes a client with a provider of ciphers. -/
def make (settings : Settings) (provider : TlsProvider) : Except Failure Client :=
  makeOn settings provider.fault?

/-- What a client logs when it has been made. -/
def openingEvents (client : Client) : List Event := [.ready client.settings.trust]

def shown (client : Client) : String :=
  s!"Transport \x7b config: {client.settings.shown} \x7d"

def charset : String := "UTF-8"

/-- The headers that every request ends with. -/
def standingHeaders (client : Client) (credentials : Option Credentials) : Headers :=
  [("Cache-Control", "no-cache"), ("Pragma", "no-cache")]
    ++ (client.settings.agent.map fun agent => ("User-Agent", agent)).toList
    ++ (credentials.map fun c => ("Authorization", c.header)).toList

def fetchRequest (client : Client) (url : String) (credentials : Option Credentials) : Request where
  method := .get
  url := url
  headers := ("Accept-Charset", charset) :: client.standingHeaders credentials
  body := none

def sendRequest (client : Client) (url text : String) (credentials : Option Credentials) :
    Request where
  method := .post
  url := url
  headers :=
    ("Content-Type", s!"text/plain; charset={charset}")
      :: ("Content-Length", Decimal.text (Utf8.size text.toList))
      :: client.standingHeaders credentials
  body := some (Utf8.encode text.toList)

end Client

end Courier
