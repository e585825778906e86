import BoxClient.Http.Connection
/-!
Getting a connection. A resolver answers a list of candidate addresses; the first that accepts is
used and remembered. The next call tries the remembered address before it asks the resolver again.
A refusal by all of them leaves the memory as it was.
-/
namespace BoxClient

/-- What the network does when it is asked, at one moment: how each address answers, and what the
resolver answers for the host. -/
structure Network (α : Type) where
  /-- A new connection, or the reason why there is none. -/
  dial : α → Except String Http.Connection
  /-- The candidates in the order in which to try them, or the reason why there are none. -/
  resolve : Except String (List α)

structure Endpoint where
  host : String
  port : UInt16
  deriving DecidableEq

def Endpoint.text (e : Endpoint) : String := e.host ++ ":" ++ toString e.port

inductive ConnectFault where
  | unresolved (reason : String)
  | noAddress
  | unreachable (lastReason : String)
  deriving DecidableEq, Repr

def ConnectFault.message (e : Endpoint) : ConnectFault → String
  | unresolved reason => "Failed to resolve " ++ e.text ++ ": " ++ reason
  | noAddress => "No addresses found for " ++ e.text
  | unreachable lastReason => "Failed to connect to " ++ e.text ++ ": " ++ lastReason

structure Attempt (α : Type) where
  result : Except ConnectFault (α × Http.Connection)
  /-- The remembered address after it. -/
  cached : Option α
  /-- How often the resolver was asked. -/
  lookups : Nat
  /-- The addresses that were dialled, in this order. -/
  dialled : List α

namespace Network

variable {α : Type}

/-- The first candidate that accepts, or the reason of the last that did not; and the candidates
that were dialled for it. -/
def firstAccepting (n : Network α) :
    (reason : String) → List α → Except String (α × Http.Connection) × List α
  | reason, [] => (.error reason, [])
  | _, a :: candidates =>
    match n.dial a with
    | .ok connection => (.ok (a, connection), [a])
    | .error reason =>
      let (outcome, dialled) := n.firstAccepting reason candidates
      (outcome, a :: dialled)

def resolveAndDial (n : Network α) : Except ConnectFault (α × Http.Connection) × List α :=
  match n.resolve with
  | .error reason => (.error (.unresolved reason), [])
  | .ok [] => (.error .noAddress, [])
  | .ok candidates =>
    let (outcome, dialled) := n.firstAccepting "" candidates
    (outcome.mapError .unreachable, dialled)

/-- Connects without a remembered address that accepts. -/
def connectFresh (n : Network α) (cached : Option α) : Attempt α :=
  match n.resolveAndDial with
  | (.ok (a, connection), dialled) => ⟨.ok (a, connection), some a, 1, dialled⟩
  | (.error f, dialled) => ⟨.error f, cached, 1, dialled⟩

/-- Connects, to the remembered address if that accepts. -/
def connect (n : Network α) (cached : Option α) : Attempt α :=
  match cached with
  | none => n.connectFresh none
  | some a =>
    match n.dial a with
    | .ok connection => ⟨.ok (a, connection), some a, 0, [a]⟩
    | .error _ =>
      let attempt := n.connectFresh (some a)
      { attempt with dialled := a :: attempt.dialled }

end Network
end BoxClient
