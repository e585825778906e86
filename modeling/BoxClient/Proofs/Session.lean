import BoxClient.Proofs.Http.HeadGrammar
import BoxClient.Proofs.Http.Request
import BoxClient.Proofs.Http.Transaction
import BoxClient.Proofs.Records
import BoxClient.Proofs.Report
import BoxClient.Proofs.Text.Percent
import BoxClient.Session
/-!
Replies of success. What a call makes of a reply is decided by the value of its body alone. A reply
whose keys are the names or ids that were sent is handed on as it is, unless one of them is the key
under which the server reports an error: that one is taken for a report.
-/
namespace BoxClient

open Http Json Outcome

theorem isLineBreak_eq_false_of_le {c : Char} (h : 0x20 ≤ c.toNat) : isLineBreak c = false := by
  have hr : c ≠ '\r' := by
    rintro rfl
    exact absurd h (by decide)
  have hn : c ≠ '\n' := by
    rintro rfl
    exact absurd h (by decide)
  simp [isLineBreak, hr, hn]

theorem oneLine_toString (n : Nat) : OneLine (toString n) := by
  intro c hc
  have hdigit : c.isDigit := by
    rw [Nat.toString_eq_repr, Nat.repr, String.toList_ofList] at hc
    exact Nat.isDigit_of_mem_toDigits (by decide) (by decide) hc
  have hzero : '0'.toNat ≤ c.toNat := (Char.isDigit_iff_toNat.mp hdigit).1
  exact isLineBreak_eq_false_of_le (le_trans (by decide) hzero)

theorem isToken_of_isVisible {token : String} (hne : token ≠ "")
    (h : ∀ c ∈ token.toList, Percent.IsVisible c) : Request.IsToken token := by
  refine ⟨hne, fun c hc => isLineBreak_eq_false_of_le (le_trans (by decide) (h c hc).1), ?_⟩
  intro hspace
  exact absurd (h ' ' hspace).1 (by decide)

@[simp] theorem isToken_method (method : Method) : Request.IsToken method.text := by
  cases method <;> exact ⟨by decide, by decide, by decide⟩

namespace Session

variable {α : Type} (s : Session α)

/-- Encoding leaves nothing in a path that could end a line or a token. -/
theorem isVisible_of_mem_path {c : Char} (h : c ∈ s.path.toList) : Percent.IsVisible c := by
  rw [path, String.toList_append, List.mem_append] at h
  rcases h with h | h
  · obtain rfl : c = '/' := by simpa using h
    exact ⟨by decide, by decide⟩
  · exact Percent.isVisible_of_mem_encode h

@[simp] theorem isToken_path : Request.IsToken s.path := by
  refine isToken_of_isVisible ?_ fun c hc => s.isVisible_of_mem_path hc
  intro h
  simpa [path] using congrArg String.length h

@[simp] theorem isToken_countPath : Request.IsToken s.countPath := by
  refine isToken_of_isVisible ?_ fun c hc => ?_
  · intro h
    simpa [countPath] using congrArg String.length h
  · rw [countPath, String.toList_append, List.mem_append] at hc
    rcases hc with hc | hc
    · exact s.isVisible_of_mem_path hc
    · have hsuffix : "/count".toList.all fun c => 0x21 ≤ c.toNat && c.toNat ≤ 0x7e := by decide
      simpa [Percent.IsVisible] using List.all_eq_true.mp hsuffix c hc

/-- With a user agent that keeps to its line a request is accepted. -/
theorem encode_request {method : Method} {path : String} {body : Body}
    (hagent : OneLine s.options.userAgent) (hpath : Request.IsToken path) :
    (s.request method path body).encode = .ok (s.request method path body).bytes := by
  refine Request.encode_eq_ok_iff.mpr ⟨⟨isToken_method method, hpath, ?_⟩, rfl⟩
  have hnames : ∀ name ∈ ["User-Agent", "Content-Type", "Content-Length"],
      name ≠ "" ∧ OneLine name := by decide
  simp only [List.forall_mem_cons] at hnames
  obtain ⟨⟨hagent₁, hagent₂⟩, ⟨htype₁, htype₂⟩, ⟨hlength₁, hlength₂⟩, -⟩ := hnames
  intro h hh
  simp only [request, headers, List.mem_cons, List.mem_append] at hh
  rcases hh with rfl | hh | hh
  · exact ⟨hagent₁, hagent₂, hagent⟩
  · split at hh
    · obtain rfl := List.mem_singleton.mp hh
      exact ⟨htype₁, htype₂, by decide⟩
    · cases hh
  · split at hh
    · cases hh
    · obtain rfl := List.mem_singleton.mp hh
      exact ⟨hlength₁, hlength₂, oneLine_toString _⟩

theorem converse_send_error {t t' : Transaction} {r : Request} {e : Error}
    (h : t.send r = (.error e, t')) : converse t r = (.error e, t'.connection.written) := by
  rw [converse, h]

/-- Once a request is sent, the reply is read and nothing more is written. -/
theorem converse_send_ok {t t' : Transaction} {r : Request} (h : t.send r = (.ok (), t')) :
    converse t r = (t'.read.1 >>= fun response => (t'.read.2.json response).1,
      t'.connection.written) := by
  obtain ⟨-, -, hwritten⟩ := t'.read_settles
  rw [converse, h, ← hwritten]
  dsimp only
  obtain ⟨outcome, t''⟩ := t'.read
  cases outcome <;> rfl

/-- A decoding transaction gives the value of what is behind the head. -/
theorem read_json_eq_readHead {t : Transaction} {decode : Decoder} (hopen : t.isOpen = true)
    (hdecoder : t.decoder = some decode) :
    (t.read.1 >>= fun response => (t.read.2.json response).1) =
      readHead t.connection.inlet >>= fun p => Transaction.decodeRest decode p.2 := by
  rw [Transaction.read_open hopen]
  cases hread : readHead t.connection.inlet with
  | error e =>
    rw [Transaction.receive_error hread]
    rfl
  | ok p =>
    rw [Transaction.receive_decoded hdecoder hread, ok_bind]
    cases Transaction.decodeRest decode p.2 <;> rfl

section
variable {c : Connection} {r : Request} {refusal : Refusal} {bs : Bytes}

/-- A request that is refused is not sent. -/
theorem converse_refused (h : r.encode = .error refusal) :
    converse (newTransaction c) r = (.error (.refused refusal), c.written) := by
  have hsend : (newTransaction c).send r = (.error (.refused refusal), newTransaction c) := by
    simp [Transaction.send, h]
  exact converse_send_error hsend

/-- The peer has what it takes of a request that is accepted. What comes of it is read of the reply
if the peer takes all of it, and is a failure of the connection otherwise. -/
theorem converse_accepted (h : r.encode = .ok bs) :
    (converse (newTransaction c) r).2 = c.written ++ c.takes bs ∧
    (c.takes bs = bs ∧ c.flushFailure = none ∧ (converse (newTransaction c) r).1 =
        (readHead c.inlet >>= fun p => Transaction.decodeRest Json.decode p.2) ∨
      ¬ (c.takes bs = bs ∧ c.flushFailure = none) ∧
        ∃ reason, (converse (newTransaction c) r).1 = .error (.io reason)) := by
  have hsend := Transaction.send_eq_transmit (newTransaction_sent c) (newTransaction_isOpen c) h
  have hok := (newTransaction c).transmit_eq_ok_iff bs
  obtain ⟨flushes, hsnd⟩ := (newTransaction c).transmit_snd bs
  rcases htransmit : (newTransaction c).transmit bs with ⟨outcome, t⟩
  rw [htransmit] at hsend hok hsnd
  obtain rfl : t = _ := hsnd
  cases outcome with
  | error e =>
    obtain ⟨reason, rfl⟩ := Transaction.transmit_error (congrArg Prod.fst htransmit)
    rw [converse_send_error hsend]
    exact ⟨rfl, .inr ⟨hok.not.mp nofun, reason, rfl⟩⟩
  | ok u =>
    obtain ⟨htakes, hflush⟩ := hok.mp rfl
    rw [converse_send_ok hsend]
    exact ⟨rfl, .inl ⟨htakes, hflush, read_json_eq_readHead rfl rfl⟩⟩

/-- A request that is taken is answered with what the peer sends. -/
theorem converse_taken (hencode : r.encode = .ok bs) (htakes : c.takes bs = bs)
    (hflush : c.flushFailure = none) : (converse (newTransaction c) r).1 =
      readHead c.inlet >>= fun p => Transaction.decodeRest Json.decode p.2 := by
  rcases (converse_accepted hencode).2 with ⟨-, -, he⟩ | ⟨hnot, -⟩
  · exact he
  · exact absurd ⟨htakes, hflush⟩ hnot

end

/-- What is behind a head within the limit is the body. -/
theorem readHead_decodeRest {i : Inlet} {bs body : Bytes} {head : Head}
    (hreply : i.delivery = ⟨bs ++ body, none⟩) (hhead : IsHead bs head)
    (hlimit : bs.length ≤ headLimit) :
    (readHead i >>= fun p => Transaction.decodeRest Json.decode p.2) = Json.decode body := by
  have hbytes : i.delivery.bytes = bs ++ body := by rw [hreply]
  obtain ⟨inlet, hread, hrest⟩ := readHead_of_isHead hhead hlimit hbytes
  rw [hread, ok_bind, Transaction.decodeRest_eq, hrest, hreply]
  rfl

/-- The session reaches a peer that takes any request and replies with a head and this body. -/
def Answers (n : Network α) (body : Bytes) : Prop :=
  ∃ a c bs head, (n.connect s.cached).result = .ok (a, c) ∧ c.room = none ∧
    c.flushFailure = none ∧ c.inlet.delivery = ⟨bs ++ body, none⟩ ∧ IsHead bs head ∧
    bs.length ≤ headLimit

/-- A call hands on the value of the body, unless that is a report. -/
theorem exchange_result {n : Network α} {text : Bytes} {method : Method} {path : String}
    {body : Body} (submitted : List Box) (hanswers : s.Answers n text)
    (hagent : OneLine s.options.userAgent) (hpath : Request.IsToken path) :
    (s.exchange n method path body submitted).result =
      Json.decode text >>= fun v => (Report.check v submitted).map fun _ => v := by
  obtain ⟨a, c, bs, head, hconnect, hroom, hflush, hreply, hhead, hlimit⟩ := hanswers
  have htakes : c.takes (s.request method path body).bytes = (s.request method path body).bytes :=
    (c.takes_eq_iff _).mpr fun n hn => by rw [hroom] at hn; cases hn
  have hconverse := (converse_taken (s.encode_request hagent hpath) htakes hflush).trans
    (readHead_decodeRest hreply hhead hlimit)
  simp only [exchange, create, connect, hconnect, Call.bind, Except.bind]
  rw [← hconverse]
  rfl

end Session

/-- A value that neither lists reports nor tells of a conflict. -/
def Report.IsOrdinary (v : Value) : Prop := (∀ vs, v ≠ .array vs) ∧ v ≠ .string Report.conflict

/-- A result is neither a list nor a text. -/
theorem IsResult.ordinary {v : Value} {result : QueryResult} (h : IsResult v result) :
    Report.IsOrdinary v := by
  obtain ⟨t, vs, rfl, -⟩ := h
  exact ⟨fun vs => nofun, nofun⟩

theorem Report.ordinary_natural {v : Value} {n : UInt64} (h : v = .number (.natural n)) :
    Report.IsOrdinary v := by
  subst h
  exact ⟨fun vs => nofun, nofun⟩

theorem Report.ordinary_ok : Report.IsOrdinary (.string "ok") := ⟨fun vs => nofun, by decide⟩

/-- Under the key of errors an ordinary value is an error of the server. -/
theorem Report.check_server {v report : Value} (h : v.member? Report.errorKey = some report)
    (hreport : Report.IsOrdinary report) (submitted : List Box) :
    ∃ m, Report.check v submitted = .error (.server m) := by
  obtain ⟨hlist, hconflict⟩ := hreport
  refine Report.check_undecided h ?_ submitted
  rintro (htext | ⟨reports, hreports, -⟩)
  · exact hconflict (Option.some.inj (h.symm.trans htext))
  · exact hlist reports (Option.some.inj (h.symm.trans hreports))

/-- An object that has under each name of the table what says the entry of that name. -/
def IsTable {β : Type} (Says : Value → β → Prop) (v : Value) (table : Table β) : Prop :=
  ∃ t : Table Value, v = .object t ∧
    List.Forall₂ (fun p q => p.1 = q.1 ∧ Says p.2 q.2) t table

/-- A table is read from an object if each of its entries is. -/
theorem tableOfValue_eq_ok_iff {β : Type} {form : Form β} {Says : Value → β → Prop} {v : Value}
    {table : Table β} (hv : v.Canonical)
    (hform : ∀ v : Value, v.Canonical → ∀ b, form.ofValue v = .ok b ↔ Says v b) :
    tableOfValue form v = .ok table ↔ IsTable Says v table := by
  have hone (p : String × Value) (q : String × β) :
      (do return (p.1, ← form.ofValue p.2) : Except Misfit (String × β)) = .ok q ↔
        p.1 = q.1 ∧ form.ofValue p.2 = .ok q.2 := by
    simp [Prod.ext_iff]
    grind
  cases hv with
  | @object t _ hvalues =>
    rw [tableOfValue, mapM_eq_ok_iff, IsTable]
    simp only [hone, Value.object.injEq, exists_eq_left']
    exact forall₂_congr_of_mem fun p hp q => and_congr_right fun _ => hform _ (hvalues p hp) _
  | _ => exact iff_of_false nofun nofun

theorem queryResults_eq_ok_iff {v : Value} {results : Table QueryResult} (hv : v.Canonical) :
    tableOfValue QueryResult.form v = .ok results ↔ IsTable QueryResult.IsReadAs v results :=
  tableOfValue_eq_ok_iff hv fun _ hv _ => QueryResult.ofValue_eq_ok_iff hv

theorem counts_eq_ok_iff {v : Value} {counts : Table UInt64} (hv : v.Canonical) :
    tableOfValue Form.uint64 v = .ok counts ↔
      IsTable (fun v n => v = .number (.natural n)) v counts :=
  tableOfValue_eq_ok_iff hv fun _ _ _ => uint64_eq_ok_iff

/-- The result is the expected one, but for a name under which the server reports errors: then it
is an error of the server. -/
def UnlessReport {β : Type} (names : List String) (result : Except Error β) (expected : β) : Prop :=
  (Report.errorKey ∉ names → result = .ok expected) ∧
    (Report.errorKey ∈ names → ∃ m, result = .error (.server m))

namespace Session

variable {α : Type} {s : Session α} {n : Network α} {text : Bytes} {t : Table Value}

/-- An object with these names is handed on, unless one of them is the key of errors. -/
theorem exchange_unlessReport {names : List String} {method : Method} {path : String} {body : Body}
    (submitted : List Box) (hanswers : s.Answers n text) (hagent : OneLine s.options.userAgent)
    (hpath : Request.IsToken path) (hbody : Json.decode text = .ok (.object t))
    (hnames : ∀ name, name ∈ t.names ↔ name ∈ names)
    (hvalues : ∀ p ∈ t, Report.IsOrdinary p.2) :
    UnlessReport names (s.exchange n method path body submitted).result (.object t) := by
  rw [UnlessReport, ← hnames, s.exchange_result submitted hanswers hagent hpath, hbody, ok_bind]
  constructor
  · intro hnone
    have hmember : (Value.object t).member? Report.errorKey = none :=
      Table.find?_eq_none_iff.mpr hnone
    rw [Report.check_ok hmember]
    rfl
  · intro herror
    obtain ⟨report, hreport⟩ := Table.mem_names.mp herror
    have hsorted : t.Sorted := by
      cases canonical_of_decode hbody with
      | object hsorted _ => exact hsorted
    have hmember : (Value.object t).member? Report.errorKey = some report :=
      Table.find?_of_mem hsorted hreport
    obtain ⟨m, hm⟩ := Report.check_server hmember (hvalues _ hreport) submitted
    exact ⟨m, by rw [hm]; rfl⟩

/-- What follows a call that hands an object on follows in the same way. -/
theorem bind_unlessReport {β : Type} {names : List String} {call : Call α Value} {v : Value}
    {f : Value → Except Error β} {b : β} (h : UnlessReport names call.result v)
    (hf : f v = .ok b) : UnlessReport names (call.bind f).result b := by
  constructor
  · intro hnone
    rw [Call.bind, h.1 hnone]
    exact hf
  · intro herror
    obtain ⟨m, hm⟩ := h.2 herror
    exact ⟨m, by rw [Call.bind, hm]; rfl⟩

/-- A reply of success to accepted names or ids, with exactly these as its keys, is handed on as
what it says, whatever the boxes in it are. The exception is the key of errors: it is accepted as a
name and as an id, and a reply that has it is taken for a report of the server. -/
theorem success_unlessReport (hagent : OneLine s.options.userAgent) (hanswers : s.Answers n text)
    (hbody : Json.decode text = .ok (.object t)) :
    (∀ queries message results, queryMessage queries = .ok message →
      (∀ name, name ∈ t.names ↔ name ∈ queries.map (·.1)) →
      List.Forall₂ (fun p q => p.1 = q.1 ∧ IsResult p.2 q.2) t results →
        UnlessReport (queries.map (·.1)) (s.query n queries).result results) ∧
    (∀ queries message counts, queryMessage queries = .ok message →
      (∀ name, name ∈ t.names ↔ name ∈ queries.map (·.1)) →
      List.Forall₂ (fun p q => p.1 = q.1 ∧ p.2 = .number (.natural q.2)) t counts →
        UnlessReport (queries.map (·.1)) (s.count n queries).result counts) ∧
    (∀ boxes message, storeMessage boxes = .ok message →
      (∀ name, name ∈ t.names ↔ name ∈ boxes.map Box.id) →
      (∀ p ∈ t, p.2 = .string "ok") →
        UnlessReport (boxes.map Box.id) (s.store n boxes).result (.object t)) := by
  refine ⟨?_, ?_, ?_⟩
  · intro queries message results haccepted hnames hresults
    have hvalues := (List.forall₂_and_left _ _).mp (hresults.imp fun p q h => ⟨h.2.ordinary, h⟩)
    have hread : tableOfValue QueryResult.form (.object t) = .ok results :=
      (queryResults_eq_ok_iff (canonical_of_decode hbody)).mpr
        ⟨t, rfl, hresults.imp fun p q h => ⟨h.1, h.2.isReadAs⟩⟩
    rw [query, sendQuery, haccepted]
    refine bind_unlessReport (exchange_unlessReport [] hanswers hagent s.isToken_path hbody hnames
      hvalues.1) ?_
    rw [hread]
    rfl
  · intro queries message counts haccepted hnames hcounts
    have hvalues := (List.forall₂_and_left _ _).mp
      (hcounts.imp fun p q h => ⟨Report.ordinary_natural h.2, h⟩)
    have hread : tableOfValue Form.uint64 (.object t) = .ok counts :=
      (counts_eq_ok_iff (canonical_of_decode hbody)).mpr ⟨t, rfl, hcounts⟩
    rw [count, haccepted]
    refine bind_unlessReport (exchange_unlessReport [] hanswers hagent s.isToken_countPath hbody
      hnames hvalues.1) ?_
    rw [hread]
    rfl
  · intro boxes message haccepted hnames hvalues
    rw [store, haccepted]
    refine exchange_unlessReport boxes hanswers hagent s.isToken_path hbody hnames ?_
    intro p hp
    rw [hvalues p hp]
    exact Report.ordinary_ok

end Session

def Network.sending (reply : Bytes) : Network Unit where
  dial _ := .ok { inlet := .ofBytes reply }
  resolve := .ok [()]

def plainHead : Bytes := Utf8.encode "HTTP/1.0 200 OK\n\n"

theorem isHead_plainHead : IsHead plainHead ⟨200, "OK", []⟩ := by
  have hstatus : IsLine (Utf8.encode "HTTP/1.0 200 OK\n") "HTTP/1.0 200 OK".toList :=
    ⟨Utf8.encode "HTTP/1.0 200 OK", by decide, by decide, by decide⟩
  have hlast : IsLine (Utf8.encode "\n") [] := ⟨[], by decide, by decide, by decide⟩
  exact ⟨_, [], _, by decide, ⟨_, hstatus, by decide⟩, .nil, hlast⟩

def Network.replying (body : Bytes) : Network Unit := Network.sending (plainHead ++ body)

namespace Session

/-- Such a network is one that answers. -/
theorem answers_replying (options : Options) (body : Bytes) :
    Session.Answers ⟨options, none⟩ (Network.replying body) body :=
  ⟨(), _, _, _, rfl, rfl, rfl, delivery_ofBytes _, isHead_plainHead, by decide⟩

/-- A count under a harmless name. -/
theorem count_success :
    let s : Session Unit := ⟨{}, none⟩
    let text := Utf8.encode "\x7b\"q\":7\x7d"
    OneLine s.options.userAgent ∧ s.Answers (Network.replying text) text ∧
      Json.decode text = .ok (.object [("q", .number (.natural 7))]) ∧
      (s.count (Network.replying text) [("q", { templates := [[]] })]).result = .ok [("q", 7)] := by
  intro s text
  have hagent : OneLine s.options.userAgent := by decide
  have hanswers : s.Answers (Network.replying text) text := answers_replying {} text
  have hbody : Json.decode text = .ok (.object [("q", .number (.natural 7))]) := by decide +kernel
  obtain ⟨-, hcount, -⟩ := success_unlessReport hagent hanswers hbody
  have haccepted : queryMessage [("q", { templates := [[]] })] =
      .ok [("q", { templates := [[]] })] := by decide +kernel
  have hresult := hcount _ _ [("q", 7)] haccepted (fun name => Iff.rfl) (.cons ⟨rfl, rfl⟩ .nil)
  exact ⟨hagent, hanswers, hbody, hresult.1 (by decide)⟩

/-- A query and a box that are named like the key of errors are accepted, and the replies that say
how many boxes match and that the box is stored are taken for errors of the server. -/
theorem error_name_reported :
    let s : Session Unit := ⟨{}, none⟩
    let counts := Utf8.encode "\x7b\"error\":7\x7d"
    let stored := Utf8.encode "\x7b\"error\":\"ok\"\x7d"
    (queryMessage [("error", { templates := [[]] })] = .ok [("error", { templates := [[]] })] ∧
      s.Answers (Network.replying counts) counts ∧
      Json.decode counts = .ok (.object [("error", .number (.natural 7))]) ∧
      (s.count (Network.replying counts) [("error", { templates := [[]] })]).result =
        .error (.server "7")) ∧
    (storeMessage [⟨"error", 0, [], []⟩] = .ok [("error", ⟨"error", 0, [], []⟩)] ∧
      s.Answers (Network.replying stored) stored ∧
      Json.decode stored = .ok (.object [("error", .string "ok")]) ∧
      (s.store (Network.replying stored) [⟨"error", 0, [], []⟩]).result =
        .error (.server "ok")) := by
  refine ⟨⟨?_, answers_replying {} _, ?_, ?_⟩, ⟨?_, answers_replying {} _, ?_, ?_⟩⟩
  · decide +kernel
  · decide +kernel
  · decide +kernel
  · decide +kernel
  · decide +kernel
  · decide +kernel

end Session
end BoxClient
