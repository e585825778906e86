import BoxClient.Proofs.Operation
/-!
What an operation makes of a reply. The head must be one, and that is all it counts for: which
outcome an operation has is decided by the bytes behind it, first as JSON, then as a report of the
server, then as what the operation asked for. Status, reason and headers do not matter.
-/
namespace BoxClient

open Http Json Outcome

/-- The bytes of a reply behind a head within the limit. -/
def IsBody (reply body : Bytes) : Prop :=
  ∃ bs head, reply = bs ++ body ∧ bs.length ≤ headLimit ∧ IsHead bs head

section
variable {op : Operation} {v : Value}

/-- What is accepted is exactly what says what the operation asked for. -/
theorem Operation.accept_eq_ok_iff (hv : v.Canonical) {given : Reply} :
    op.accept v = .ok given ↔ op.Reads v given := by
  cases op with
  | query queries =>
    simp [accept, Reads, queryResults_eq_ok_iff hv, eq_comm (a := given), and_comm]
  | count queries =>
    simp [accept, Reads, counts_eq_ok_iff hv, eq_comm (a := given), and_comm]
  | _ =>
    simp only [accept, Reads, Except.ok.injEq]
    exact eq_comm

/-- A value that is not accepted has not the form of a reply. -/
theorem Operation.accept_error {e : Error} (h : op.accept v = .error e) :
    ∃ m, e = .serialization m := by
  have hread {β : Type} {form : Form β} {f : Table β → Reply}
      (h : ((tableOfValue form v).mapError Error.unfit >>= fun t => .ok (f t)) = .error e) :
      ∃ m, e = .serialization m := by
    rcases bind_eq_error.mp h with h | ⟨t, -, h⟩
    · obtain ⟨m, -, rfl⟩ := mapError_eq_error.mp h
      exact ⟨_, rfl⟩
    · cases h
  cases op with
  | query queries => exact hread h
  | count queries => exact hread h
  | _ => cases h

/-- A value that says no such thing is a misfit. -/
theorem Operation.accept_not_ok (hv : v.Canonical) (h : ¬ ∃ given, op.Reads v given) :
    ∃ m, op.accept v = .error (.serialization m) := by
  cases haccept : op.accept v with
  | ok given => exact absurd ⟨given, (accept_eq_ok_iff hv).mp haccept⟩ h
  | error e =>
    obtain ⟨m, rfl⟩ := accept_error haccept
    exact ⟨m, rfl⟩

end

def Operation.judge (op : Operation) (v : Value) : Except Error Reply :=
  Report.check v op.submitted >>= fun _ => op.accept v

section
variable {op : Operation} {v : Value}

/-- A report decides before anything else in the value is looked at. -/
theorem Operation.judge_report (op : Operation) {report : Value}
    (h : v.member? Report.errorKey = some report) :
    ∃ e, Report.check v op.submitted = .error e ∧ op.judge v = .error e ∧
      e.isServerError = true := by
  obtain ⟨e, hcheck, hserver⟩ := Report.check_error h op.submitted
  exact ⟨e, hcheck, by rw [judge, hcheck]; rfl, hserver⟩

theorem Operation.judge_accept (h : v.member? Report.errorKey = none) :
    op.judge v = op.accept v := by
  rw [judge, Report.check_ok h]
  rfl

/-- A value that is judged is never blamed on the form of the head. -/
theorem Operation.judge_ne_protocol (m : String) : op.judge v ≠ .error (.protocol m) := by
  intro h
  cases hreport : v.member? Report.errorKey with
  | none =>
    rw [judge_accept hreport] at h
    obtain ⟨m', he⟩ := accept_error h
    cases he
  | some report =>
    obtain ⟨e, -, hjudge, hserver⟩ := op.judge_report hreport
    rw [hjudge] at h
    cases h
    cases hserver

/-- Judging a value gives an error of the server exactly if it has the key of errors. -/
theorem Operation.judge_server_iff :
    (∃ e, op.judge v = .error e ∧ e.isServerError = true) ↔
      ∃ report, v.member? Report.errorKey = some report := by
  cases hreport : v.member? Report.errorKey with
  | none =>
    refine iff_of_false ?_ nofun
    rintro ⟨e, h, hserver⟩
    rw [judge_accept hreport] at h
    obtain ⟨m, rfl⟩ := accept_error h
    cases hserver
  | some report =>
    obtain ⟨e, -, hjudge, hserver⟩ := op.judge_report hreport
    exact iff_of_true ⟨e, hjudge, hserver⟩ ⟨report, rfl⟩

end

namespace Session

variable {α : Type} {s s' : Session α} {n n' : Network α} {op : Operation}
  {reply reply' body : Bytes}

/-- The request of an operation is sent in full, and this is all that is sent back. -/
def IsAnswered (s : Session α) (n : Network α) (op : Operation) (reply : Bytes) : Prop :=
  ∃ m a c bs, s.message op = .ok m ∧ (n.connect s.cached).result = .ok (a, c) ∧
    (s.requestFor m).encode = .ok bs ∧ c.takes bs = bs ∧ c.flushFailure = none ∧
    c.inlet.delivery = ⟨reply, none⟩

/-- An answered operation judges what is read behind the head. -/
theorem answer_eq_judge (h : s.IsAnswered n op reply) :
    ∃ i : Inlet, i.delivery = ⟨reply, none⟩ ∧
      (s.answer n op).result =
        (readHead i >>= fun p => Transaction.decodeRest Json.decode p.2) >>= op.judge := by
  obtain ⟨m, a, c, bs, hm, hconnect, hencode, htakes, hflush, hreply⟩ := h
  refine ⟨c.inlet, hreply, ?_⟩
  rcases s.answer_cases n op with ⟨refusal, hm', -⟩ | ⟨m', hm', he⟩
  · rw [hm] at hm'
    cases hm'
  · obtain rfl : m = m' := Except.ok.inj (hm.symm.trans hm')
    rw [he, exchange_connected hconnect, ← converse_taken hencode htakes hflush]
    show ((converse _ (s.requestFor m)).1 >>= _) >>= _ = _
    cases (converse (newTransaction c) (s.requestFor m)).1 with
    | error e => rfl
    | ok v =>
      rw [ok_bind, ok_bind, Operation.judge]
      cases Report.check v op.submitted <;> rfl

/-- An answered operation judges the value of the body, whatever head is in front of it. -/
theorem answer_of_isBody (h : s.IsAnswered n op reply) (hbody : IsBody reply body) :
    (s.answer n op).result = Json.decode body >>= op.judge := by
  obtain ⟨i, hi, he⟩ := answer_eq_judge h
  obtain ⟨bs, head, rfl, hlimit, hhead⟩ := hbody
  rw [he, readHead_decodeRest hi hhead hlimit]

theorem answer_without_head (h : s.IsAnswered n op reply) (hnone : ¬ ∃ body, IsBody reply body) :
    ∃ m, (s.answer n op).result = .error (.protocol m) := by
  obtain ⟨i, hi, he⟩ := answer_eq_judge h
  cases hread : readHead i with
  | error e =>
    obtain ⟨f, rfl⟩ := readHead_error (by rw [hi]) hread
    exact ⟨f.message, by rw [he, hread]; rfl⟩
  | ok p =>
    obtain ⟨bs, hhead, hlimit, hbytes, -⟩ := isHead_of_readHead hread
    rw [hi] at hbytes
    exact absurd ⟨_, bs, p.1, hbytes, hlimit, hhead⟩ hnone

/-- The protocol is broken exactly if no head within the limit can be read off the reply. -/
theorem answer_protocol_iff (h : s.IsAnswered n op reply) :
    (∃ m, (s.answer n op).result = .error (.protocol m)) ↔ ¬ ∃ body, IsBody reply body := by
  refine ⟨?_, answer_without_head h⟩
  rintro ⟨m, he⟩ ⟨body, hbody⟩
  rw [answer_of_isBody h hbody] at he
  rcases bind_eq_error.mp he with he | ⟨v, -, he⟩
  · obtain ⟨m', he⟩ := Json.decode_error he
    cases he
  · exact Operation.judge_ne_protocol m he

/-- An error of the server has its origin in a report in the body, and only there. -/
theorem answer_server_iff (h : s.IsAnswered n op reply) :
    (∃ e, (s.answer n op).result = .error e ∧ e.isServerError = true) ↔
      ∃ body v report, IsBody reply body ∧ Json.decode body = .ok v ∧
        v.member? Report.errorKey = some report := by
  constructor
  · rintro ⟨e, he, hserver⟩
    by_cases hbody : ∃ body, IsBody reply body
    · obtain ⟨body, hbody⟩ := hbody
      rw [answer_of_isBody h hbody] at he
      rcases bind_eq_error.mp he with he | ⟨v, hv, he⟩
      · obtain ⟨m, rfl⟩ := Json.decode_error he
        cases hserver
      · obtain ⟨report, hreport⟩ := Operation.judge_server_iff.mp ⟨e, he, hserver⟩
        exact ⟨body, v, report, hbody, hv, hreport⟩
    · obtain ⟨m, hprotocol⟩ := answer_without_head h hbody
      rw [hprotocol] at he
      cases he
      cases hserver
  · rintro ⟨body, v, report, hbody, hv, hreport⟩
    rw [answer_of_isBody h hbody, hv, ok_bind]
    exact Operation.judge_server_iff.mpr ⟨report, hreport⟩

/-- The outcome of an operation whose request was sent in full. Without a head in the reply the
protocol is broken, and only then. Otherwise the bytes behind the head decide alone, whatever
session asked and whatever the head says: what is no JSON is a serialization error, a value with the
key of errors is the error that it reports, and any other gives what it says in reply to the
operation; if it says nothing in reply to it, that is a serialization error again. It is the
server's own error exactly in the case of a report. -/
theorem answer_determined (h : s.IsAnswered n op reply) :
    ((∃ m, (s.answer n op).result = .error (.protocol m)) ↔ ¬ ∃ body, IsBody reply body) ∧
    (∀ body, IsBody reply body →
      (∀ e, Json.decode body = .error e →
        (s.answer n op).result = .error e ∧ ∃ m, e = .serialization m) ∧
      ∀ v, Json.decode body = .ok v →
        (∀ report, v.member? Report.errorKey = some report →
          ∃ e, Report.check v op.submitted = .error e ∧ (s.answer n op).result = .error e) ∧
        (v.member? Report.errorKey = none →
          (∀ given, (s.answer n op).result = .ok given ↔ op.Reads v given) ∧
          ((¬ ∃ given, op.Reads v given) →
            ∃ m, (s.answer n op).result = .error (.serialization m)))) ∧
    (∀ (s' : Session α) (n' : Network α) reply' body, s'.IsAnswered n' op reply' →
      IsBody reply body → IsBody reply' body → (s'.answer n' op).result = (s.answer n op).result) ∧
    ((∃ e, (s.answer n op).result = .error e ∧ e.isServerError = true) ↔
      ∃ body v report, IsBody reply body ∧ Json.decode body = .ok v ∧
        v.member? Report.errorKey = some report) := by
  refine ⟨answer_protocol_iff h, fun body hbody => ⟨fun e he => ?_, fun v hv => ⟨?_, ?_⟩⟩, ?_,
    answer_server_iff h⟩
  · exact ⟨by rw [answer_of_isBody h hbody, he]; rfl, Json.decode_error he⟩
  · intro report hreport
    obtain ⟨e, hcheck, hjudge, -⟩ := op.judge_report hreport
    exact ⟨e, hcheck, by rw [answer_of_isBody h hbody, hv]; exact hjudge⟩
  · intro hnone
    have hcanonical := canonical_of_decode hv
    have hresult : (s.answer n op).result = op.accept v := by
      rw [answer_of_isBody h hbody, hv, ok_bind, Operation.judge_accept hnone]
    rw [hresult]
    exact ⟨fun given => Operation.accept_eq_ok_iff hcanonical, Operation.accept_not_ok hcanonical⟩
  · intro s' n' reply' body h' hbody hbody'
    rw [answer_of_isBody h hbody, answer_of_isBody h' hbody']

/-- A new session is answered by a peer that sends its reply at once. -/
theorem isAnswered_sending (hm : (message (⟨{}, none⟩ : Session Unit) op).isOk = true)
    (hop : ∀ method path body, op ≠ .send method path body) (reply : Bytes) :
    (⟨{}, none⟩ : Session Unit).IsAnswered (Network.sending reply) op reply := by
  cases hmessage : message (⟨{}, none⟩ : Session Unit) op with
  | error refusal =>
    rw [hmessage] at hm
    cases hm
  | ok m =>
    have hpath : Request.IsToken m.path :=
      isToken_path_of_message (fun method path body he => absurd he (hop method path body)) hmessage
    exact ⟨m, (), _, _, hmessage, rfl, encode_request _ (by decide) hpath, rfl, rfl,
      delivery_ofBytes reply⟩

theorem isBody_plainHead (body : Bytes) : IsBody (plainHead ++ body) body :=
  ⟨plainHead, _, rfl, by decide, isHead_plainHead⟩

/-- A box that is stored at the wrong revision, as a friendly and as an unfriendly head tell it; a
query that is answered with one box and no total; and counts, one of which is no number. -/
theorem answer_each_way :
    let s : Session Unit := ⟨{}, none⟩
    let q : Query := ⟨[[]], none, none⟩
    let store := Operation.store [⟨"a", 3, [], []⟩]
    let conflict := Utf8.encode "\x7b\"error\":\"conflict\"\x7d"
    let busy := Utf8.encode "HTTP/1.1 503 Busy\r\nContent-Length: 7\r\n\r\n" ++ conflict
    let found := Utf8.encode
      "\x7b\"q\":\x7b\"_count\":1,\"_data\":[\x7b\"_id\":\"a\",\"x\":true\x7d],\"y\":0\x7d\x7d"
    let counts := Utf8.encode "\x7b\"q\":7\x7d"
    let uncounted := Utf8.encode "\x7b\"p\":7,\"q\":\"7\"\x7d"
    (s.IsAnswered (.replying conflict) store (plainHead ++ conflict) ∧
      (s.answer (.replying conflict) store).result = .error (.versionConflict "a" 3)) ∧
    (s.IsAnswered (.sending busy) store busy ∧
      (s.answer (.sending busy) store).result = .error (.versionConflict "a" 3)) ∧
    (s.IsAnswered (.replying found) (.query [("q", q)]) (plainHead ++ found) ∧
      (s.answer (.replying found) (.query [("q", q)])).result =
        .ok (.results [("q", ⟨1, 0, [⟨"a", 0, [], [("x", .boolean true)]⟩]⟩)])) ∧
    (s.IsAnswered (.replying counts) (.count [("q", q)]) (plainHead ++ counts) ∧
      (s.answer (.replying counts) (.count [("q", q)])).result = .ok (.counts [("q", 7)])) ∧
    s.IsAnswered (.replying uncounted) (.count [("q", q)]) (plainHead ++ uncounted) ∧
      ∃ m, (s.answer (.replying uncounted) (.count [("q", q)])).result =
        .error (.serialization m) := by
  intro s q store conflict busy found counts uncounted
  have hstore : (s.message store).isOk = true := by decide +kernel
  have hquery : (s.message (.query [("q", q)])).isOk = true := by decide +kernel
  have hcount : (s.message (.count [("q", q)])).isOk = true := by decide +kernel
  have hconflict := isAnswered_sending hstore (fun _ _ _ => nofun) (plainHead ++ conflict)
  have hbusy := isAnswered_sending hstore (fun _ _ _ => nofun) busy
  have hfound := isAnswered_sending hquery (fun _ _ _ => nofun) (plainHead ++ found)
  have hcounts := isAnswered_sending hcount (fun _ _ _ => nofun) (plainHead ++ counts)
  have huncounted := isAnswered_sending hcount (fun _ _ _ => nofun) (plainHead ++ uncounted)
  -- The two heads in front of the conflict.
  have hbody : IsBody busy conflict := by
    have hstatus : IsLine (Utf8.encode "HTTP/1.1 503 Busy\r\n") "HTTP/1.1 503 Busy".toList :=
      ⟨Utf8.encode "HTTP/1.1 503 Busy\r", by decide, by decide, by decide⟩
    have hlength : IsLine (Utf8.encode "Content-Length: 7\r\n") "Content-Length: 7".toList :=
      ⟨Utf8.encode "Content-Length: 7\r", by decide, by decide, by decide⟩
    have hheader : IsHeader "Content-Length: 7".toList ("Content-Length", "7") :=
      ⟨"Content-Length".toList, " 7".toList, by decide, by decide, ⟨'C', by decide, by decide⟩,
        by decide⟩
    have hlast : IsLine (Utf8.encode "\r\n") [] := ⟨[0x0d], by decide, by decide, by decide⟩
    exact ⟨_, ⟨503, "Busy", [("Content-Length", "7")]⟩, rfl, by decide, _, [_], _, by decide,
      ⟨_, hstatus, by decide⟩, .cons ⟨_, hlength, hheader⟩ .nil, hlast⟩
  have hdecode : Json.decode conflict = .ok (.object [("error", .string "conflict")]) := by
    decide +kernel
  obtain ⟨-, hdecided, hsame, -⟩ := answer_determined hconflict
  obtain ⟨e, hcheck, hresult⟩ :=
    ((hdecided conflict (isBody_plainHead conflict)).2 _ hdecode).1 (.string "conflict") rfl
  cases hcheck
  have hresult' := (hsame s (.sending busy) busy conflict hbusy (isBody_plainHead conflict)
    hbody).trans hresult
  -- The page of the query, without a total and with a member that is none of its parts.
  let page : Table Value := [("_count", .number (.natural 1)),
    ("_data", .array [.object [("_id", .string "a"), ("x", .boolean true)]]),
    ("y", .number (.natural 0))]
  have hpage : QueryResult.IsReadAs (.object page)
      ⟨1, 0, [⟨"a", 0, [], [("x", .boolean true)]⟩]⟩ :=
    ⟨rfl, rfl, _, rfl, .cons ⟨_, rfl, rfl, .inr ⟨rfl, rfl⟩, .inr ⟨rfl, rfl⟩, rfl⟩ .nil⟩
  have hdecode : Json.decode found = .ok (.object [("q", .object page)]) := by decide +kernel
  obtain ⟨-, hdecided, -⟩ := answer_determined hfound
  have hresults := (((hdecided found (isBody_plainHead found)).2 _ hdecode).2 rfl).1
  -- The counts.
  have hdecode : Json.decode counts = .ok (.object [("q", .number (.natural 7))]) := by
    decide +kernel
  obtain ⟨-, hdecided, -⟩ := answer_determined hcounts
  have hnumbers := (((hdecided counts (isBody_plainHead counts)).2 _ hdecode).2 rfl).1
  have hdecode : Json.decode uncounted =
      .ok (.object [("p", .number (.natural 7)), ("q", .string "7")]) := by decide +kernel
  obtain ⟨-, hdecided, -⟩ := answer_determined huncounted
  have hnone := (((hdecided uncounted (isBody_plainHead uncounted)).2 _ hdecode).2 rfl).2
  refine ⟨⟨hconflict, hresult⟩, ⟨hbusy, hresult'⟩,
    ⟨hfound, (hresults _).mpr ⟨_, rfl, _, rfl, .cons ⟨rfl, hpage⟩ .nil⟩⟩,
    ⟨hcounts, (hnumbers _).mpr ⟨_, rfl, _, rfl, .cons ⟨rfl, rfl⟩ .nil⟩⟩, huncounted, hnone ?_⟩
  rintro ⟨given, numbers, -, t, ⟨⟩, _ | ⟨-, _ | ⟨⟨-, ⟨⟩⟩, -⟩⟩⟩

end Session
end BoxClient
