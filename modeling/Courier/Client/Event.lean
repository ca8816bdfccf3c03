import Courier.Failure

set_option autoImplicit false

/-! # What a client logs

A client tells what it does: that it is ready, that it sends a request, that a response has come, and
that a status has been taken for a failure.
-/

namespace Courier

inductive Level where
  | debug
  | warn
deriving Repr, DecidableEq

def Level.name : Level → String
  | .debug => "DEBUG"
  | .warn => "WARN"

inductive Event where
  | ready (trust : Trust)
  | sending (method : Method) (url : String)
  /-- A response has come; `bytes` of its body have been read. -/
  | received (status : Status) (bytes : Nat) (url : String)
  /-- The status of a response has been taken for a failure. -/
  | rejected (failure : Failure) (url : String) (status : Status)
deriving Repr, DecidableEq

namespace Event

def level : Event → Level
  | .rejected .. => .warn
  | _ => .debug

def message : Event → String
  | .ready _ => "transport ready"
  | .sending _ _ => "sending request"
  | .received _ _ _ => "response received"
  | .rejected failure _ _ => s!"request rejected: {failure.message}"

def fields : Event → List (String × String)
  | .ready trust => [("trust", trust.shown)]
  | .sending method url => [("method", method.name), ("url", url)]
  | .received status bytes url =>
    [("status", Decimal.text status), ("bytes", Decimal.text bytes), ("url", url)]
  | .rejected _ url status => [("url", url), ("status", Decimal.text status)]

end Event

/-- What a step of a client comes to: a result or a failure, and the events on the way to it. -/
structure Report (α : Type) where
  result : Except Failure α
  events : List Event

namespace Report

variable {α β : Type}

def done (a : α) : Report α := ⟨.ok a, []⟩

def failed (failure : Failure) : Report α := ⟨.error failure, []⟩

/-- Goes on with the result, if there is one. -/
def andThen (report : Report α) (next : α → Report β) : Report β :=
  match report.result with
  | .ok a => { next a with events := report.events ++ (next a).events }
  | .error failure => ⟨.error failure, report.events⟩

end Report

end Courier
