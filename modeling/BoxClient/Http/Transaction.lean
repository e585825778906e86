import BoxClient.Http.Request
import BoxClient.Http.Response
import BoxClient.Json.Decode
/-!
One exchange over one connection. A transaction sends at most one request and reads at most one
response. Reading takes the connection out of it: it passes to the response as long as that holds
the stream, and is released otherwise, whatever the outcome. Operations give their result and the
transaction after it.
-/
namespace BoxClient.Http

inductive Holder where
  | transaction
  | response
  | nobody
  deriving DecidableEq, Repr

abbrev Decoder := Bytes → Except Error Json.Value

structure Transaction where
  connection : Connection
  /-- What is done with the bodies of responses. Without it they stay streams. -/
  decoder : Option Decoder
  holder : Holder := .transaction
  sent : Bool := false

namespace Transaction

def isOpen (t : Transaction) : Bool := t.holder = .transaction

def isReleased (t : Transaction) : Bool := t.holder = .nobody

def alreadySent : Error := .protocol "Request already sent on this transaction"

def closed : Error := .protocol "Transaction is closed"

def release (t : Transaction) : Transaction := { t with holder := .nobody }

def transmit (t : Transaction) (bs : Bytes) : Except Error Unit × Transaction :=
  match t.connection.write bs with
  | (.error reason, connection) => (.error (.io reason), { t with connection, sent := true })
  | (.ok (), connection) =>
    let (outcome, connection) := connection.flush
    (outcome.mapError .io, { t with connection, sent := true })

/-- Sends a request. A refused request changes nothing. -/
def send (t : Transaction) (r : Request) : Except Error Unit × Transaction :=
  if t.sent then (.error alreadySent, t)
  else
    match r.encode with
    | .error refusal => (.error (.refused refusal), t)
    | .ok bs => if t.isOpen then t.transmit bs else (.error closed, t)

def decodeRest (decode : Decoder) (i : Inlet) : Except Error Json.Value := do
  decode (← i.rest.mapError Error.io)

def receive (t : Transaction) : Except Error Response × Transaction :=
  match readHead t.connection.inlet with
  | .error e => (.error e, t.release)
  | .ok (head, inlet) =>
    match t.decoder with
    | some decode => ((decodeRest decode inlet).map fun v => ⟨head, .decoded v⟩, t.release)
    | none =>
      (.ok ⟨head, .stream⟩,
        { t with connection := { t.connection with inlet }, holder := .response })

/-- Reads the response, which is possible once. -/
def read (t : Transaction) : Except Error Response × Transaction :=
  if t.isOpen then t.receive else (.error closed, t)

/-- Releases the connection; there may be none any more. -/
def close (t : Transaction) : Except Error Unit × Transaction :=
  if t.isOpen then
    let (outcome, connection) := t.connection.shutdown
    (outcome.mapError .io, { t with connection }.release)
  else (.ok (), t)

/-- The body as a value. A stream is read to its end as JSON and released. -/
def json (t : Transaction) (r : Response) : Except Error Json.Value × Transaction :=
  match r.body with
  | .decoded v => (.ok v, t)
  | .stream => (decodeRest Json.decode t.connection.inlet, t.release)

/-- The bytes of a body that is a stream, to its end; a decoded body gives its value. -/
def body (t : Transaction) (r : Response) : Except Error (Json.Value ⊕ Bytes) × Transaction :=
  match r.body with
  | .decoded v => (.ok (.inl v), t)
  | .stream => ((t.connection.inlet.rest.mapError Error.io).map .inr, t.release)

/-- Lets go of a response, and so of its stream. -/
def drop (t : Transaction) (r : Response) : Transaction :=
  match r.body with
  | .decoded _ => t
  | .stream => t.release

end Transaction
end BoxClient.Http
