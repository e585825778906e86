import BoxClient.Proofs.Operation
/-!
What a peer receives. An operation is connected to at most one address, and what is written there is
the head of its message, line by line, and the payload behind an empty line.
-/
namespace BoxClient.Session

open Http Outcome

variable {α : Type}

/-- The lines of the head for a message: the request line, the user agent, the type of a payload
that is JSON, and the length in bytes of a payload that is not empty. -/
def headLines (s : Session α) (m : Message) : List String :=
  [m.method.text ++ " " ++ m.path ++ " HTTP/1.0", "User-Agent: " ++ s.options.userAgent] ++
    (if m.body.isJson then ["Content-Type: application/json"] else []) ++
    (if m.body.payload = "" then []
      else ["Content-Length: " ++ toString (Utf8.encode m.body.payload).length])

/-- The bytes up to the first empty line are the head for the message, those behind it the text of
its body. -/
def IsFramed (s : Session α) (m : Message) (bs : Bytes) : Prop :=
  splitHead? bs = some (joinLines (s.headLines m), Utf8.encode m.body.payload)

theorem headLines_request (s : Session α) (m : Message) :
    (s.requestFor m).headLines = s.headLines m := by
  have hline : m.method.text ++ " " ++ m.path ++ " " ++ version =
      m.method.text ++ " " ++ m.path ++ " HTTP/1.0" := by
    rw [String.append_assoc]
    rfl
  have hagent : "User-Agent" ++ ": " = "User-Agent: " := rfl
  have hlength : "Content-Length" ++ ": " = "Content-Length: " := rfl
  simp only [requestFor, request, Request.headLines, headers, headLines, hline, Utf8.length_encode]
  split <;> split <;> simp [hagent, hlength]

/-- A request that is accepted has the lines and the body of its message. -/
theorem isFramed_of_encode {s : Session α} {m : Message} {bs : Bytes}
    (h : (s.requestFor m).encode = .ok bs) : s.IsFramed m bs := by
  have hsplit := Request.splitHead?_of_encode h
  rwa [headLines_request] at hsplit

/-- An operation is connected to at most one address, and to none if its arguments are refused. That
address receives what its connection takes of a request that is framed for the message of the
operation, or nothing, if the texts for the head do not keep to their places. -/
theorem perform_framed {s : Session α} {n : Network α} (op : Operation)
    (hnew : ∀ a c, n.dial a = .ok c → c.written = []) :
    ((s.perform n op).dialled.filter n.accepts).length ≤ 1 ∧
      ∀ a sent, (s.perform n op).contact = some (a, sent) →
        (s.perform n op).dialled.filter n.accepts = [a] ∧
          ∃ m c, s.message op = .ok m ∧ n.dial a = .ok c ∧
            ((∃ bs, (s.requestFor m).encode = .ok bs ∧ s.IsFramed m bs ∧ sent = c.takes bs) ∨
              (∃ refusal, (s.requestFor m).encode = .error refusal) ∧ sent = []) := by
  rcases s.perform_cases n op with ⟨refusal, hm, hperform⟩ | ⟨m, submitted, f, hm, -, hperform⟩
  · rw [hperform]
    exact ⟨Nat.zero_le 1, nofun⟩
  have hdialled := n.connect_dialled_accepts s.cached
  cases hconnect : (n.connect s.cached).result with
  | error fault =>
    rw [hconnect] at hdialled
    rw [hperform, exchange_unconnected hconnect]
    simp only [Call.bind_dialled, hdialled]
    exact ⟨Nat.zero_le 1, nofun⟩
  | ok p =>
    obtain ⟨a, c⟩ := p
    have hdial := Network.dial_of_connect hconnect
    rw [hconnect] at hdialled
    rw [hperform, exchange_connected hconnect]
    simp only [Call.bind_dialled, Call.bind_contact, hdialled]
    refine ⟨Nat.le_refl 1, fun a' sent hcontact => ?_⟩
    injection hcontact with hcontact
    injection hcontact with ha hsent
    subst ha
    refine ⟨rfl, m, c, hm, hdial, ?_⟩
    cases hencode : (s.requestFor m).encode with
    | error refusal =>
      refine .inr ⟨⟨refusal, rfl⟩, ?_⟩
      rw [← hsent, show s.request m.method m.path m.body = s.requestFor m from rfl,
        converse_refused hencode]
      exact hnew a c hdial
    | ok bs =>
      refine .inl ⟨bs, rfl, isFramed_of_encode hencode, ?_⟩
      rw [← hsent, show s.request m.method m.path m.body = s.requestFor m from rfl,
        (converse_accepted hencode).1, hnew a c hdial, List.nil_append]

/-- A lookup of one id of two bytes, as it is received. -/
theorem get_framed :
    let s : Session Unit := ⟨{}, none⟩
    let n := Network.replying []
    let m : Message := ⟨.get, "/default", .json (.array [.string "é"])⟩
    let sent := Utf8.encode ("GET /default HTTP/1.0\r\nUser-Agent: higgla-rs/0.1.0\r\n" ++
      "Content-Type: application/json\r\nContent-Length: 6\r\n\r\n[\"é\"]")
    (∀ a c, n.dial a = .ok c → c.written = []) ∧ s.message (.get ["é"]) = .ok m ∧
      (s.perform n (.get ["é"])).contact = some ((), sent) ∧
      (s.perform n (.get ["é"])).dialled.filter n.accepts = [()] ∧ s.IsFramed m sent := by
  intro s n m sent
  have hnew : ∀ a c, n.dial a = .ok c → c.written = [] := by
    intro a c h
    cases h
    rfl
  have hmessage : s.message (.get ["é"]) = .ok m := by decide +kernel
  have hcontact : (s.perform n (.get ["é"])).contact = some ((), sent) := by decide +kernel
  obtain ⟨-, hreceived⟩ := perform_framed (s := s) (.get ["é"]) hnew
  obtain ⟨haccepts, m', c, hm, hdial, hsent⟩ := hreceived () sent hcontact
  obtain rfl : m = m' := Except.ok.inj (hmessage.symm.trans hm)
  cases hdial
  rcases hsent with ⟨bs, -, hframed, hsent⟩ | ⟨-, hsent⟩
  · obtain rfl : sent = bs := hsent
    exact ⟨hnew, hmessage, hcontact, haccepts, hframed⟩
  · exact absurd hsent (by decide +kernel)

end BoxClient.Session
