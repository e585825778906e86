import BoxClient.Proofs.Http.Framing
import BoxClient.Proofs.Network
import BoxClient.Proofs.Refusal
import BoxClient.Proofs.Session
/-!
The operations of a session as one. Each of them is refused for its arguments before anything is
done, or it is one exchange whose reply is then read; what the exchange sends does not depend on the
reply.
-/
namespace BoxClient

open Http Json Outcome

inductive Operation where
  | get (ids : List String)
  | store (boxes : List Box)
  | sendQuery (queries : List (String × Query))
  | query (queries : List (String × Query))
  | count (queries : List (String × Query))
  | send (method : Method) (path : String) (body : Body)

inductive Reply where
  | value (v : Value)
  | results (t : Table QueryResult)
  | counts (t : Table UInt64)

namespace Operation

def submitted : Operation → List Box
  | store boxes => boxes
  | _ => []

/-- What a value says in reply to an operation: a result under each name of a query, a number under
each name of a count, and in reply to any other operation just what it is. -/
def Reads : Operation → Value → Reply → Prop
  | query _, v, reply => ∃ results, reply = .results results ∧
      IsTable QueryResult.IsReadAs v results
  | count _, v, reply => ∃ counts, reply = .counts counts ∧
      IsTable (fun v n => v = .number (.natural n)) v counts
  | _, v, reply => reply = .value v

/-- What an operation makes of a value that reports no error. -/
def accept : Operation → Value → Except Error Reply
  | query _, v =>
    (tableOfValue QueryResult.form v).mapError Error.unfit >>= fun t => .ok (.results t)
  | count _, v => (tableOfValue Form.uint64 v).mapError Error.unfit >>= fun t => .ok (.counts t)
  | _, v => .ok (.value v)

end Operation

structure Message where
  method : Method
  path : String
  body : Body
  deriving DecidableEq

namespace Session

variable {α : Type}

def answer (s : Session α) (n : Network α) : Operation → Call α Reply
  | .get ids => (s.get n ids).bind fun v => .ok (.value v)
  | .store boxes => (s.store n boxes).bind fun v => .ok (.value v)
  | .sendQuery queries => (s.sendQuery n queries).bind fun v => .ok (.value v)
  | .query queries => (s.query n queries).bind fun t => .ok (.results t)
  | .count queries => (s.count n queries).bind fun t => .ok (.counts t)
  | .send method path body => (s.send n method path body).bind fun v => .ok (.value v)

/-- Carries an operation out. What it gives is left out here, why it fails is not. -/
def perform (s : Session α) (n : Network α) (op : Operation) : Call α Unit :=
  (s.answer n op).bind fun _ => .ok ()

def message (s : Session α) : Operation → Except Refusal Message
  | .get ids => do
    let ids ← idMessage ids
    return ⟨.get, s.path, .json (.array (ids.map .string))⟩
  | .store boxes => do
    let boxes ← storeMessage boxes
    return ⟨.post, s.path, .json (.object (boxes.mapValues Box.toValue))⟩
  | .sendQuery queries | .query queries => do
    let queries ← queryMessage queries
    return ⟨.get, s.path, .json (.object (queries.mapValues Query.toValue))⟩
  | .count queries => do
    let queries ← queryMessage queries
    return ⟨.get, s.countPath, .json (.object (queries.mapValues Query.templatesValue))⟩
  | .send method path body => .ok ⟨method, path, body⟩

def requestFor (s : Session α) (m : Message) : Request := s.request m.method m.path m.body

/-- An operation is refused before anything is done, or it is one exchange of its message, and the
operation accepts the value of the reply. -/
theorem answer_cases (s : Session α) (n : Network α) (op : Operation) :
    (∃ refusal, s.message op = .error refusal ∧ s.answer n op = s.refuse refusal) ∨
    (∃ m, s.message op = .ok m ∧
      s.answer n op = (s.exchange n m.method m.path m.body op.submitted).bind op.accept) := by
  cases op with
  | get ids =>
    rw [answer, get, message]
    cases idMessage ids with
    | error refusal => exact .inl ⟨refusal, rfl, rfl⟩
    | ok ids => exact .inr ⟨_, rfl, rfl⟩
  | store boxes =>
    rw [answer, store, message]
    cases storeMessage boxes with
    | error refusal => exact .inl ⟨refusal, rfl, rfl⟩
    | ok message => exact .inr ⟨_, rfl, rfl⟩
  | sendQuery queries =>
    rw [answer, sendQuery, message]
    cases queryMessage queries with
    | error refusal => exact .inl ⟨refusal, rfl, rfl⟩
    | ok message => exact .inr ⟨_, rfl, rfl⟩
  | query queries =>
    rw [answer, query, Call.bind_bind, sendQuery, message]
    cases queryMessage queries with
    | error refusal => exact .inl ⟨refusal, rfl, rfl⟩
    | ok message => exact .inr ⟨_, rfl, rfl⟩
  | count queries =>
    rw [answer, count, message]
    cases queryMessage queries with
    | error refusal => exact .inl ⟨refusal, rfl, rfl⟩
    | ok message => exact .inr ⟨_, rfl, Call.bind_bind _ _ _⟩
  | send method path body => exact .inr ⟨⟨method, path, body⟩, rfl, rfl⟩

theorem unrefused_accept (op : Operation) (v : Value) : Unrefused (op.accept v) := by
  have hread {β : Type} (form : Form β) : Unrefused ((tableOfValue form v).mapError Error.unfit) :=
    unrefused_mapError (fun _ _ => by simp [Error.unfit]) _
  cases op with
  | query queries => exact (hread QueryResult.form).bind fun _ => unrefused_ok _
  | count queries => exact (hread Form.uint64).bind fun _ => unrefused_ok _
  | _ => exact unrefused_ok _

/-- An operation is refused before anything is done, or it is one exchange of its message and what
is made of the reply. -/
theorem perform_cases (s : Session α) (n : Network α) (op : Operation) :
    (∃ refusal, s.message op = .error refusal ∧ s.perform n op = s.refuse refusal) ∨
    (∃ m submitted f, s.message op = .ok m ∧ (∀ v, Unrefused (f v)) ∧
      s.perform n op = (s.exchange n m.method m.path m.body submitted).bind f) := by
  rw [perform]
  rcases s.answer_cases n op with ⟨refusal, hm, he⟩ | ⟨m, hm, he⟩
  · rw [he]
    exact .inl ⟨refusal, hm, rfl⟩
  · rw [he, Call.bind_bind]
    exact .inr ⟨m, _, _, hm, fun v => (unrefused_accept op v).bind fun _ => unrefused_ok (), rfl⟩

/-- An exchange whose request is accepted does not fail for its arguments. -/
theorem unrefused_converse {c : Connection} {r : Request} {bs : Bytes} (h : r.encode = .ok bs) :
    Unrefused (converse (newTransaction c) r).1 := by
  rcases (converse_accepted h).2 with ⟨-, -, he⟩ | ⟨-, reason, he⟩
  · rw [he]
    exact ((failsAs_readHead _).bind fun p => failsAs_decodeRest p.2).unrefused
  · rw [he]
    exact fun _ => nofun

/-- Without a connection nothing is sent, and the fault of the attempt is the error. -/
theorem exchange_unconnected {s : Session α} {n : Network α} {f : ConnectFault}
    (h : (n.connect s.cached).result = .error f) (method : Method) (path : String) (body : Body)
    (submitted : List Box) :
    s.exchange n method path body submitted =
      ⟨.error (.connection (f.message s.options.endpoint)),
        { s with cached := (n.connect s.cached).cached }, (n.connect s.cached).lookups, none,
        (n.connect s.cached).dialled⟩ := by
  simp only [exchange, create, connect, h, Call.bind]
  rfl

/-- On a connection the reply is checked for a report on the submitted boxes. -/
theorem exchange_connected {s : Session α} {n : Network α} {a : α} {c : Connection}
    (h : (n.connect s.cached).result = .ok (a, c)) (method : Method) (path : String) (body : Body)
    (submitted : List Box) :
    s.exchange n method path body submitted =
      ⟨(converse (newTransaction c) (s.request method path body)).1 >>=
          fun v => Report.check v submitted >>= fun _ => .ok v,
        { s with cached := (n.connect s.cached).cached }, (n.connect s.cached).lookups,
        some (a, (converse (newTransaction c) (s.request method path body)).2),
        (n.connect s.cached).dialled⟩ := by
  simp only [exchange, create, connect, h, Call.bind]
  rfl

/-- The texts that go into the head of the request as they are keep to their places in it. -/
def Sendable (s : Session α) (op : Operation) : Prop :=
  OneLine s.options.userAgent ∧ ∀ method path body, op = .send method path body →
    Request.IsToken path

/-- The session makes up no path that is not a token; only a free message can bring one. -/
theorem isToken_path_of_message {s : Session α} {op : Operation} {m : Message}
    (hsend : ∀ method path body, op = .send method path body → Request.IsToken path)
    (h : s.message op = .ok m) : Request.IsToken m.path := by
  cases op with
  | get ids =>
    obtain ⟨_, -, he⟩ := bind_eq_ok.mp h
    cases he
    exact s.isToken_path
  | store boxes =>
    obtain ⟨_, -, he⟩ := bind_eq_ok.mp h
    cases he
    exact s.isToken_path
  | sendQuery queries =>
    obtain ⟨_, -, he⟩ := bind_eq_ok.mp h
    cases he
    exact s.isToken_path
  | query queries =>
    obtain ⟨_, -, he⟩ := bind_eq_ok.mp h
    cases he
    exact s.isToken_path
  | count queries =>
    obtain ⟨_, -, he⟩ := bind_eq_ok.mp h
    cases he
    exact s.isToken_countPath
  | send method path body =>
    cases h
    exact hsend method path body rfl

/-- A call in which nothing is done: the resolver is not asked, no address is dialled and none is
connected to, and the session remembers what it remembered. -/
structure IsQuiet {β : Type} (s : Session α) (call : Call α β) : Prop where
  lookups : call.lookups = 0
  dialled : call.dialled = []
  contact : call.contact = none
  session : call.session = s

/-- An operation that fails for its arguments does nothing, provided that the texts for the head of
the request keep to their places in it. Where they do not, a connection may be made before the
request is refused; nothing is written to it. -/
theorem quiet_of_invalidArgument {s : Session α} {n : Network α} {op : Operation} {reason : String}
    (h : (s.perform n op).result = .error (.invalidArgument reason)) :
    (s.Sendable op → s.IsQuiet (s.perform n op)) ∧
      (s.IsQuiet (s.perform n op) ∨ ∃ a c, (n.connect s.cached).result = .ok (a, c) ∧
        (s.perform n op).contact = some (a, c.written)) := by
  rcases s.perform_cases n op with ⟨refusal, -, hperform⟩ | ⟨m, submitted, f, hm, hf, hperform⟩
  · have hquiet : s.IsQuiet (s.perform n op) := by
      rw [hperform]
      exact ⟨rfl, rfl, rfl, rfl⟩
    exact ⟨fun _ => hquiet, .inl hquiet⟩
  cases hconnect : (n.connect s.cached).result with
  | error fault =>
    rw [hperform, exchange_unconnected hconnect] at h
    cases h
  | ok p =>
    obtain ⟨a, c⟩ := p
    rw [hperform, exchange_connected hconnect] at h ⊢
    cases hencode : (s.request m.method m.path m.body).encode with
    | error refusal =>
      rw [converse_refused hencode]
      refine ⟨fun hsendable => ?_, .inr ⟨a, c, rfl, rfl⟩⟩
      rw [s.encode_request hsendable.1 (isToken_path_of_message hsendable.2 hm)] at hencode
      cases hencode
    | ok bs =>
      have hunrefused := (unrefused_converse hencode (c := c)).bind fun v =>
        (unrefused_check v submitted).bind fun _ => unrefused_ok v
      exact absurd h (hunrefused.bind hf reason)

/-- A lookup of no ids is refused at once. -/
theorem get_nothing_quiet :
    let s : Session Unit := ⟨{}, none⟩
    (s.perform (Network.replying []) (.get [])).result =
        .error (.invalidArgument "No ids to look up") ∧
      s.Sendable (.get []) ∧ s.IsQuiet (s.perform (Network.replying []) (.get [])) := by
  intro s
  have hresult : (s.perform (Network.replying []) (.get [])).result =
      .error (.invalidArgument "No ids to look up") := by decide +kernel
  have hsendable : s.Sendable (.get []) := ⟨by decide, nofun⟩
  exact ⟨hresult, hsendable, (quiet_of_invalidArgument hresult).1 hsendable⟩

/-- A path with a space and a user agent with a line break are arguments that are refused, but only
after the resolver was asked and a connection was made, whose address is then remembered. -/
theorem refused_after_connecting :
    let s : Session Unit := ⟨{}, none⟩
    let call := s.perform (Network.replying []) (.send .get "/a b" .empty)
    let s' : Session Unit := ⟨{ userAgent := "a\r\nb" }, none⟩
    let call' := s'.perform (Network.replying []) (.get ["x"])
    (call.result = .error (.invalidArgument "Illegal request line 'GET /a b'") ∧
      call.lookups = 1 ∧ call.contact = some ((), []) ∧ call.session.cached = some ()) ∧
    (call'.result = .error (.invalidArgument "Illegal value for header 'User-Agent'") ∧
      call'.lookups = 1 ∧ call'.contact = some ((), []) ∧ call'.session.cached = some ()) := by
  decide +kernel

end Session
end BoxClient
