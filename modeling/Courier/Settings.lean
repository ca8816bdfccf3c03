import Courier.Payload
import Courier.Http.Header
import Courier.Json.Choice
import Courier.Json.Record

set_option autoImplicit false

/-! # Settings of a client

A client has a time limit for connecting and one for a whole call, a trust policy for certificates, and
perhaps a name that it gives of itself. Settings may come from a document, in which all of them may be
left out. A client is only made from settings that hold together, on a provider of ciphers that can serve
a connection.
-/

namespace Courier

open Json

/-! ## Trust -/

inductive Trust where
  /-- Any certificate of any host. -/
  | trustAll
  /-- A valid one that was issued for the host. -/
  | verified
deriving Repr, DecidableEq

namespace Trust

/-- Whether certificates are looked into. -/
def verifies : Trust → Bool
  | .trustAll => false
  | .verified => true

def shown : Trust → String
  | .trustAll => "TrustAll"
  | .verified => "Verified"

def choices : Choices Trust where
  all := [.trustAll, .verified]
  name
    | .trustAll => "trust_all"
    | .verified => "verified"

end Trust

def Json.Shape.trust : Shape Trust := .choice Trust.choices

/-! ## Spans of time -/

structure Span where
  seconds : UInt64
  nanos : UInt32
deriving Repr, DecidableEq

namespace Span

def ofSeconds (seconds : UInt64) : Span := ⟨seconds, 0⟩

def total (span : Span) : Nat := span.seconds.toNat * 1000000000 + span.nanos.toNat

end Span

/-! ## Settings -/

/-- The settings of a client; time limits are in seconds. -/
structure Settings where
  connectLimit : UInt64 := 10
  callLimit : UInt64 := 30
  trust : Trust := .trustAll
  agent : Option String := none
deriving Repr, DecidableEq

namespace Settings

/-- How settings stand in a document. Any of them may be left out. -/
def record : Record Settings where
  name := "TransportConfig"
  types := [UInt64, UInt64, Trust, Option String]
  fields :=
    .cons { name := "connect_timeout_secs", shape := .natural, absence := .anywhere 10 } <|
    .cons { name := "timeout_secs", shape := .natural, absence := .anywhere 30 } <|
    .cons { name := "trust", shape := .trust, absence := .anywhere .trustAll } <|
    .cons { name := "user_agent", shape := .optional .text, absence := .anywhere none } .nil
  build := fun (connectLimit, callLimit, trust, agent, ()) =>
    { connectLimit, callLimit, trust, agent }
  row s := (s.connectLimit, s.callLimit, s.trust, s.agent, ())

def connectSpan (s : Settings) : Span := .ofSeconds s.connectLimit

def callSpan (s : Settings) : Span := .ofSeconds s.callLimit

/-- Settings as messages show them. -/
def shown (s : Settings) : String :=
  let agent := match s.agent with
    | none => "None"
    | some agent => s!"Some({quoted agent})"
  s!"TransportConfig \x7b connect_timeout_secs: {s.connectLimit}, timeout_secs: {s.callLimit}, "
    ++ s!"trust: {s.trust.shown}, user_agent: {agent} \x7d"

end Settings

def Json.Shape.settings : Shape Settings := Settings.record.shape

/-! ## What can be wrong with them -/

/-- Why a provider of ciphers cannot serve a connection. -/
inductive TlsFault where
  | noKeyExchange
  | noCiphers
  /-- A reason of the library that connections are secured by. -/
  | other (reason : String)
deriving Repr, DecidableEq

def TlsFault.message : TlsFault → String
  | .noKeyExchange => "unexpected error: no kx groups configured"
  | .noCiphers => "unexpected error: no usable cipher suites configured"
  | .other reason => reason

/-- Why no client can be made. -/
inductive SettingsFault where
  | noConnectLimit
  | noCallLimit
  | limitsCrossed (connectLimit callLimit : UInt64)
  | badAgent (agent : String)
  | tls (fault : TlsFault)
  /-- A reason of the caller's own. -/
  | other (reason : String)
deriving Repr, DecidableEq

def SettingsFault.message : SettingsFault → String
  | .noConnectLimit => "connect timeout must be at least one second"
  | .noCallLimit => "call timeout must be at least one second"
  | .limitsCrossed connectLimit callLimit =>
    s!"connect timeout ({connectLimit}s) exceeds call timeout ({callLimit}s)"
  | .badAgent agent => s!"user agent {quoted agent} is not a valid header value"
  | .tls fault => s!"TLS setup failed: {fault.message}"
  | .other reason => reason

namespace Settings

/-- The text can be sent as the name of a client. -/
def isAgent (agent : String) : Bool := !agent.isEmpty && agent.toList.all Headers.isPlain

/-- The first thing that is wrong with settings. -/
def fault? (s : Settings) : Option SettingsFault :=
  if s.connectLimit = 0 then some .noConnectLimit
  else if s.callLimit = 0 then some .noCallLimit
  else if s.callLimit < s.connectLimit then some (.limitsCrossed s.connectLimit s.callLimit)
  else
    match s.agent with
    | some agent => if isAgent agent then none else some (.badAgent agent)
    | none => none

end Settings

/-! ## Ciphers -/

/-- A version of the protocol that a connection is secured by. -/
inductive TlsVersion where
  | tls12
  | tls13
deriving Repr, DecidableEq

/-- What a provider of ciphers has: the version that each of its ciphers is for, and the number of its
ways to exchange keys. -/
structure TlsProvider where
  ciphers : List TlsVersion
  keyExchanges : Nat
deriving Repr, DecidableEq

namespace TlsProvider

/-- The provider that is used unless another one is given. -/
def standard : TlsProvider := ⟨.replicate 3 .tls13 ++ .replicate 6 .tls12, 3⟩

/-- Why the provider cannot serve a connection. -/
def fault? (provider : TlsProvider) : Option TlsFault :=
  if provider.ciphers.isEmpty then some .noCiphers
  else if provider.keyExchanges = 0 then some .noKeyExchange
  else none

end TlsProvider

end Courier
