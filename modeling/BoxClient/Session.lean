import BoxClient.Http.Transaction
import BoxClient.Network
import BoxClient.Query.Wire
import BoxClient.QueryResult
import BoxClient.Report
import BoxClient.Text.Percent
/-!
Sessions: the operations on one base of one server. Each call checks its arguments, makes a
connection of its own, exchanges one request for one reply, and looks for a report of the server in
it. Nothing is tried twice.
-/
namespace BoxClient

def defaultPort : UInt16 := 4567

def defaultUserAgent : String := "higgla-rs/0.1.0"

structure Options where
  endpoint : Endpoint := ⟨"localhost", defaultPort⟩
  base : String := "default"
  userAgent : String := defaultUserAgent
  deriving DecidableEq

/-- A session and the address that it remembers. -/
structure Session (α : Type) where
  options : Options
  cached : Option α := none

/-- The outcome of a call: its result, the session after it, how often the resolver was asked, the
address that was connected to with the bytes that it received, and the addresses that were dialled.
-/
structure Call (α β : Type) where
  result : Except Error β
  session : Session α
  lookups : Nat := 0
  contact : Option (α × Bytes) := none
  dialled : List α := []

namespace Call

variable {α β γ : Type}

def bind (c : Call α β) (f : β → Except Error γ) : Call α γ :=
  { c with result := c.result.bind f }

section
variable (c : Call α β) (f : β → Except Error γ)

@[simp] theorem bind_result : (c.bind f).result = c.result >>= f := rfl

@[simp] theorem bind_session : (c.bind f).session = c.session := rfl

@[simp] theorem bind_lookups : (c.bind f).lookups = c.lookups := rfl

@[simp] theorem bind_contact : (c.bind f).contact = c.contact := rfl

@[simp] theorem bind_dialled : (c.bind f).dialled = c.dialled := rfl

@[simp] theorem bind_bind {δ : Type} (g : γ → Except Error δ) :
    (c.bind f).bind g = c.bind fun b => f b >>= g := by
  obtain ⟨result, session, lookups, contact, dialled⟩ := c
  cases result <;> rfl

end

end Call

def storeMessage (boxes : List Box) : Except Refusal (Table Box) := do
  if boxes = [] then throw .noBoxes
  boxes.foldlM (fun message box =>
    if message.contains box.id then throw (.repeatedBox box.id)
    else return message.insert box.id box) []

/-- Names that begin with an underscore are the protocol's. -/
def checkQueryName (name : String) : Except Refusal Unit :=
  if name = "" ∨ name.toList.head? = some '_' then .error (.badQueryName name) else .ok ()

def queryMessage (queries : List (String × Query)) : Except Refusal (Table Query) := do
  let message ← queries.foldlM (fun (message : Table Query) (name, q) => do
    checkQueryName name
    q.validate
    if message.contains name then throw (.repeatedQuery name)
    return message.insert name q) []
  if message = [] then throw .noQueries
  return message

def idMessage (ids : List String) : Except Refusal (List String) := do
  if ids = [] then throw .noIds
  if ids.contains "" then throw .emptyId
  return ids

namespace Session

open Http Json

variable {α : Type}

def ofOptions (options : Options) : Except Refusal (Session α) :=
  if options.base = "" then .error .emptyBase else .ok { options }

def path (s : Session α) : String := "/" ++ Percent.encode s.options.base

def countPath (s : Session α) : String := s.path ++ "/count"

def forget (s : Session α) : Session α := { s with cached := none }

def headers (s : Session α) (body : Body) : List Header :=
  let type := if body.isJson then [("Content-Type", "application/json")] else []
  let length :=
    if body.payload = "" then []
    else [("Content-Length", toString body.payload.utf8ByteSize)]
  ("User-Agent", s.options.userAgent) :: (type ++ length)

def request (s : Session α) (method : Method) (path : String) (body : Body) : Request :=
  ⟨method.text, path, s.headers body, .text body.payload⟩

def connect (s : Session α) (n : Network α) : Call α Connection :=
  let attempt := n.connect s.cached
  let session := { s with cached := attempt.cached }
  match attempt.result with
  | .error f =>
    let e := Error.connection (f.message s.options.endpoint)
    ⟨.error e, session, attempt.lookups, none, attempt.dialled⟩
  | .ok (a, connection) =>
    ⟨.ok connection, session, attempt.lookups, some (a, connection.written), attempt.dialled⟩

def newTransaction (connection : Connection) : Transaction :=
  { connection, decoder := some Json.decode }

@[simp] theorem newTransaction_connection (c : Connection) :
    (newTransaction c).connection = c := rfl

@[simp] theorem newTransaction_isOpen (c : Connection) : (newTransaction c).isOpen = true := rfl

@[simp] theorem newTransaction_sent (c : Connection) : (newTransaction c).sent = false := rfl

def create (s : Session α) (n : Network α) : Call α Transaction :=
  (s.connect n).bind fun connection => .ok (newTransaction connection)

/-- Sends a request and reads the value of the reply; with it the bytes that were sent. -/
def converse (t : Transaction) (r : Request) : Except Error Value × Bytes :=
  match t.send r with
  | (.error e, t) => (.error e, t.connection.written)
  | (.ok (), t) =>
    match t.read with
    | (.error e, t) => (.error e, t.connection.written)
    | (.ok response, t) => ((t.json response).1, t.connection.written)

/-- One request and its reply. `submitted` are the boxes that the request carries. -/
def exchange (s : Session α) (n : Network α) (method : Method) (path : String) (body : Body)
    (submitted : List Box) : Call α Value :=
  let call := s.create n
  match call.result with
  | .error e => { call with result := .error e }
  | .ok t =>
    let (reply, sent) := converse t (s.request method path body)
    let result := do
      let v ← reply
      Report.check v submitted
      return v
    { call with result, contact := call.contact.map fun c => (c.1, sent) }

/-- A call that ends before anything is done. -/
def refuse {β : Type} (s : Session α) (r : Refusal) : Call α β :=
  { result := .error (.refused r), session := s }

def get (s : Session α) (n : Network α) (ids : List String) : Call α Value :=
  match idMessage ids with
  | .error r => s.refuse r
  | .ok ids => s.exchange n .get s.path (.json (.array (ids.map .string))) []

def store (s : Session α) (n : Network α) (boxes : List Box) : Call α Value :=
  match storeMessage boxes with
  | .error r => s.refuse r
  | .ok message => s.exchange n .post s.path (.json (.object (message.mapValues Box.toValue))) boxes

def sendQuery (s : Session α) (n : Network α) (queries : List (String × Query)) : Call α Value :=
  match queryMessage queries with
  | .error r => s.refuse r
  | .ok message => s.exchange n .get s.path (.json (.object (message.mapValues Query.toValue))) []

/-- Sends named queries and reads their results. -/
def query (s : Session α) (n : Network α) (queries : List (String × Query)) :
    Call α (Table QueryResult) :=
  (s.sendQuery n queries).bind fun v => (tableOfValue QueryResult.form v).mapError Error.unfit

def count (s : Session α) (n : Network α) (queries : List (String × Query)) :
    Call α (Table UInt64) :=
  match queryMessage queries with
  | .error r => s.refuse r
  | .ok message =>
    let body := Body.json (.object (message.mapValues Query.templatesValue))
    (s.exchange n .get s.countPath body []).bind fun v =>
      (tableOfValue Form.uint64 v).mapError Error.unfit

def send (s : Session α) (n : Network α) (method : Method) (path : String) (message : Body) :
    Call α Value :=
  s.exchange n method path message []

end Session
end BoxClient
