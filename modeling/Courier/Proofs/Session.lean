import Courier.Client.Call

set_option autoImplicit false

/-! # Sessions

A session is a list of calls that one client makes over one network, one after the other. Calls of one
session have results of different types, so a call is held together with the type of its result. What has
gone over the network is told by one that notes every request with what came of it (`Network.noting`): for
each call of the session these are its request and the outcome of it, if the call has a request
(`Session.run_noting`).
-/

namespace Courier

structure AnyCall where
  {Result : Type}
  call : Call Result

structure AnyReport where
  {Result : Type}
  report : Report Result

abbrev Exchange := Request × Outcome

/-- The network with a list of its exchanges, in their order. -/
def Network.noting {σ : Type} (network : Network σ) : Network (σ × List Exchange) :=
  fun request (state, notes) =>
    ((network request state).1, (network request state).2,
      notes ++ [(request, (network request state).1)])

section Session

variable {α σ : Type} (client : Client) (network : Network σ)

/-! ## One call -/

/-- The exchange of a call; there is none without a request. -/
def Call.exchange? (call : Call α) (state : σ) : Option Exchange :=
  match call.request? client with
  | .error _ => none
  | .ok request => some (request, (network request state).1)

theorem Call.run_noting (call : Call α) (state : σ) (notes : List Exchange) :
    call.run client network.noting (state, notes) =
      ((call.run client network state).1, (call.run client network state).2,
        notes ++ (call.exchange? client network state).toList) := by
  unfold Call.run Call.exchange?
  cases call.request? client with
  | error failure => simp
  | ok request => rfl

/-! ## One call after the other -/

namespace Session

def run : List AnyCall → σ → List AnyReport × σ
  | [], state => ([], state)
  | call :: calls, state =>
    let (report, state) := call.call.run client network state
    let (reports, state) := run calls state
    (⟨report⟩ :: reports, state)

def exchanges : List AnyCall → σ → List Exchange
  | [], _ => []
  | call :: calls, state =>
    (call.call.exchange? client network state).toList
      ++ exchanges calls (call.call.run client network state).2

/-- The exchanges of a session are the ones that are noted, after those that have been noted before. Noting
changes nothing else. -/
theorem run_noting (calls : List AnyCall) (state : σ) (notes : List Exchange) :
    run client network.noting calls (state, notes) =
      ((run client network calls state).1, (run client network calls state).2,
        notes ++ exchanges client network calls state) := by
  induction calls generalizing state notes with
  | nil => simp [run, exchanges]
  | cons call calls ih => simp only [run, Call.run_noting, exchanges, ih, List.append_assoc]

end Session

end Session

end Courier
