import BoxClient.Proofs.Answer
/-!
An operation is one attempt to connect. Once its arguments are accepted, the network comes into it
only through that attempt: what is done with the connection depends on the connection alone, and a
failure of the attempt is the failure of the operation.
-/
namespace BoxClient

open Http Json Outcome

/-- Goes on with a new connection: what comes of it, and the bytes that its peer then has. -/
def Call.proceed {α β : Type} (call : Call α Connection)
    (f : Connection → Except Error β × Bytes) : Call α β :=
  match call.result with
  | .error e => { call with result := .error e }
  | .ok c => { call with
      result := (f c).1
      contact := call.contact.map fun p => (p.1, (f c).2) }

section
variable {α β γ : Type} {call : Call α Connection} {f : Connection → Except Error β × Bytes}

@[simp] theorem Call.proceed_session : (call.proceed f).session = call.session := by
  rw [proceed]
  split <;> rfl

@[simp] theorem Call.proceed_lookups : (call.proceed f).lookups = call.lookups := by
  rw [proceed]
  split <;> rfl

@[simp] theorem Call.proceed_bind (g : β → Except Error γ) :
    (call.proceed f).bind g = call.proceed fun c => ((f c).1.bind g, (f c).2) := by
  rw [proceed, proceed]
  split <;> rfl

theorem Call.unrefused_proceed (hcall : Unrefused call.result) (hf : ∀ c, Unrefused (f c).1) :
    Unrefused (call.proceed f).result := by
  rw [proceed]
  split
  · rename_i e he
    intro reason h
    cases h
    exact hcall reason he
  · exact hf _

end

namespace Session

variable {α β : Type} {s : Session α} {n : Network α} {op : Operation} {m : Message}

/-- An attempt fails with a connection error, or it gives the connection of an address. -/
theorem connect_ends (s : Session α) (n : Network α) :
    let attempt := n.connect s.cached
    let session : Session α := { s with cached := attempt.cached }
    (∃ reason, s.connect n =
      ⟨.error (.connection reason), session, attempt.lookups, none, attempt.dialled⟩) ∨
    ∃ a c, s.connect n =
      ⟨.ok c, session, attempt.lookups, some (a, c.written), attempt.dialled⟩ := by
  cases hconnect : (n.connect s.cached).result with
  | error fault =>
    refine .inl ⟨fault.message s.options.endpoint, ?_⟩
    simp only [connect, hconnect]
  | ok p =>
    refine .inr ⟨p.1, p.2, ?_⟩
    simp only [connect, hconnect]

@[simp] theorem connect_options (s : Session α) (n : Network α) :
    (s.connect n).session.options = s.options := by
  rcases s.connect_ends n with ⟨reason, he⟩ | ⟨a, c, he⟩
  · rw [he]
  · rw [he]

/-- An attempt to connect may fail, but never for the arguments. -/
theorem unrefused_connect (s : Session α) (n : Network α) : Unrefused (s.connect n).result := by
  rcases s.connect_ends n with ⟨reason, he⟩ | ⟨a, c, he⟩
  · rw [he]
    exact fun _ => nofun
  · rw [he]
    exact unrefused_ok c

/-- A new connection on which nothing is done is left as it is. -/
theorem connect_bind_eq_proceed (s : Session α) (n : Network α) (g : Connection → Except Error β) :
    (s.connect n).bind g = (s.connect n).proceed fun c => (g c, c.written) := by
  rcases s.connect_ends n with ⟨reason, he⟩ | ⟨a, c, he⟩
  · rw [he]
    rfl
  · rw [he]
    rfl

/-- What an operation makes of a new connection, and the bytes that the peer then has. -/
def conduct (s : Session α) (op : Operation) (m : Message) (c : Connection) :
    Except Error Reply × Bytes :=
  let (reply, sent) := converse (newTransaction c) (s.requestFor m)
  (reply >>= op.judge, sent)

/-- Arguments are checked first, before the session connects. -/
theorem answer_of_refused {refusal : Refusal} (h : s.message op = .error refusal) :
    s.answer n op = s.refuse refusal := by
  rcases s.answer_cases n op with ⟨refusal', hm, he⟩ | ⟨m, hm, -⟩
  · rw [h] at hm
    cases hm
    exact he
  · rw [h] at hm
    cases hm

/-- An operation whose arguments are accepted goes on with one attempt to connect. -/
theorem answer_eq_proceed (h : s.message op = .ok m) (n : Network α) :
    s.answer n op = (s.connect n).proceed (s.conduct op m) := by
  rcases s.answer_cases n op with ⟨refusal, hm, -⟩ | ⟨m', hm, he⟩
  · rw [h] at hm
    cases hm
  obtain rfl : m = m' := Except.ok.inj (h.symm.trans hm)
  rw [he]
  -- Whether the attempt itself succeeds is all that the network decides.
  cases hconnect : (n.connect s.cached).result with
  | error fault =>
    rw [exchange_unconnected hconnect]
    simp only [connect, hconnect, Call.proceed]
    rfl
  | ok p =>
    obtain ⟨a, c⟩ := p
    rw [exchange_connected hconnect]
    simp only [connect, hconnect, Call.proceed, conduct, Call.bind, requestFor, Option.map_some]
    congr 1
    cases (converse (newTransaction c) (s.request m.method m.path m.body)).1 with
    | error e => rfl
    | ok v =>
      rw [ok_bind, ok_bind, Operation.judge]
      cases Report.check v op.submitted <;> rfl

/-- With an accepted request nothing that an operation goes on with is blamed on its arguments. -/
theorem unrefused_conduct {bs : Bytes} (hencode : (s.requestFor m).encode = .ok bs)
    (c : Connection) : Unrefused (s.conduct op m c).1 :=
  (unrefused_converse hencode).bind fun v =>
    (unrefused_check v op.submitted).bind fun _ => unrefused_accept op v

end Session
end BoxClient
