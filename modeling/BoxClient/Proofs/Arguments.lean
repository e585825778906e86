import BoxClient.Proofs.Attempt
import BoxClient.Proofs.Payload
/-!
Which arguments are refused. An operation looks through all that it is given before it does
anything: malformed arguments are refused with nothing done, and with any others it makes exactly
one attempt to connect and is not refused later.
-/
namespace BoxClient

open Http Json Outcome

def IsBadName (name : String) : Prop := name = "" ∨ ∃ rest, name = "_" ++ rest

def Query.IsIdle (q : Query) : Prop := q.templates = [] ∨ q.count = some 0

namespace Operation

/-- What is wrong with the arguments of an operation. Nothing is with those of a free message. -/
def IsMalformed : Operation → Prop
  | get ids => ids = [] ∨ "" ∈ ids
  | store boxes => boxes = [] ∨ ¬ (boxes.map Box.id).Nodup
  | sendQuery queries | query queries | count queries =>
    queries = [] ∨ (∃ p ∈ queries, IsBadName p.1) ∨ (∃ p ∈ queries, p.2.IsIdle) ∨
      ¬ (queries.map (·.1)).Nodup
  | send .. => False

end Operation

@[simp] theorem checkQueryName_eq_ok_iff {name : String} :
    checkQueryName name = .ok () ↔ ¬ IsBadName name := by
  have hunderscore : name.toList.head? = some '_' ↔ ∃ rest, name = "_" ++ rest := by
    constructor
    · intro h
      obtain ⟨cs, hcs⟩ := List.head?_eq_some_iff.mp h
      exact ⟨String.ofList cs, String.toList_inj.mp (by simp [hcs])⟩
    · rintro ⟨rest, rfl⟩
      rw [String.toList_append]
      rfl
  rw [checkQueryName, ite_error_eq_ok, hunderscore, IsBadName]
  exact and_iff_left rfl

@[simp] theorem Query.validate_eq_ok_iff {q : Query} : q.validate = .ok () ↔ ¬ q.IsIdle := by
  rw [validate, ite_error_eq_ok, ite_error_eq_ok, IsIdle, not_or]
  exact and_congr_right fun _ => and_iff_left rfl

theorem exists_idMessage_iff {ids : List String} :
    (∃ ids', idMessage ids = .ok ids') ↔ ¬ (ids = [] ∨ "" ∈ ids) := by
  simp [idMessage]

/-- A batch is accepted if there is a box in it and no id twice. -/
theorem exists_storeMessage_iff {boxes : List Box} :
    (∃ message, storeMessage boxes = .ok message) ↔
      ¬ (boxes = [] ∨ ¬ (boxes.map Box.id).Nodup) := by
  have hnames : Table.names (boxes.map fun box => (box.id, box)) = boxes.map Box.id := by
    rw [Table.names, List.map_map]
    rfl
  simp only [storeMessage_eq_ok_iff, hnames, not_or, not_not]
  constructor
  · rintro ⟨message, hne, hnodup, -⟩
    exact ⟨hne, hnodup⟩
  · rintro ⟨hne, hnodup⟩
    exact ⟨_, hne, hnodup, rfl⟩

/-- Queries are accepted if there are any, if none is idle, and if their names are allowed and
differ. -/
theorem exists_queryMessage_iff {queries : List (String × Query)} :
    (∃ message, queryMessage queries = .ok message) ↔ ¬ (queries = [] ∨
      (∃ p ∈ queries, IsBadName p.1) ∨ (∃ p ∈ queries, p.2.IsIdle) ∨
        ¬ (queries.map (·.1)).Nodup) := by
  simp only [queryMessage_eq_ok_iff, checkQueryName_eq_ok_iff, Query.validate_eq_ok_iff, not_or,
    not_exists, not_and, not_not, Table.names]
  constructor
  · rintro ⟨message, hvalid, hne, hnodup, -⟩
    exact ⟨hne, fun p hp => (hvalid p hp).1, fun p hp => (hvalid p hp).2, hnodup⟩
  · rintro ⟨hne, hnames, hqueries, hnodup⟩
    exact ⟨_, fun p hp => ⟨hnames p hp, hqueries p hp⟩, hne, hnodup, rfl⟩

namespace Session

variable {α : Type} {s : Session α} {op : Operation}

/-- An operation has a message exactly if its arguments are not malformed. -/
theorem exists_message_iff : (∃ m, s.message op = .ok m) ↔ ¬ op.IsMalformed := by
  have hbind {β : Type} (x : Except Refusal β) (f : β → Message) :
      (∃ m, (x >>= fun b => .ok (f b)) = .ok m) ↔ ∃ b, x = .ok b := by
    cases x <;> simp
  cases op with
  | get ids => exact (hbind _ _).trans exists_idMessage_iff
  | store boxes => exact (hbind _ _).trans exists_storeMessage_iff
  | sendQuery queries => exact (hbind _ _).trans exists_queryMessage_iff
  | query queries => exact (hbind _ _).trans exists_queryMessage_iff
  | count queries => exact (hbind _ _).trans exists_queryMessage_iff
  | send method path body => exact iff_of_true ⟨_, rfl⟩ not_false

/-- Malformed arguments are refused, whatever the network is like. -/
theorem answer_of_malformed (h : op.IsMalformed) (n : Network α) :
    ∃ refusal, s.answer n op = s.refuse refusal := by
  cases hm : s.message op with
  | error refusal => exact ⟨refusal, answer_of_refused hm⟩
  | ok m => exact absurd h (exists_message_iff.mp ⟨m, hm⟩)

/-- An operation with good arguments makes one attempt to connect and is not refused. -/
theorem answer_of_not_malformed (hagent : OneLine s.options.userAgent)
    (hsend : ∀ method path body, op = .send method path body → Request.IsToken path)
    (h : ¬ op.IsMalformed) : ∃ f, ∀ n : Network α,
      s.answer n op = (s.connect n).proceed f ∧ Unrefused (s.answer n op).result := by
  obtain ⟨m, hm⟩ := exists_message_iff.mpr h
  have hencode : (s.requestFor m).encode = .ok (s.requestFor m).bytes :=
    s.encode_request hagent (isToken_path_of_message hsend hm)
  refine ⟨s.conduct op m, fun n => ?_⟩
  rw [answer_eq_proceed hm]
  exact ⟨rfl, Call.unrefused_proceed (s.unrefused_connect n) (unrefused_conduct hencode)⟩

/-- An operation is refused exactly if its arguments are malformed, and then nothing is done.
Otherwise it is one attempt to connect and what it makes of the connection, whatever the network. -/
theorem refuses_malformed (hagent : OneLine s.options.userAgent)
    (hop : ∀ method path body, op ≠ .send method path body) :
    (∀ n : Network α, (∃ reason, (s.answer n op).result = .error (.invalidArgument reason)) ↔
      op.IsMalformed) ∧
    (op.IsMalformed → ∀ n : Network α, s.IsQuiet (s.answer n op)) ∧
    (¬ op.IsMalformed → ∃ f, ∀ n : Network α, s.answer n op = (s.connect n).proceed f) := by
  have hgood := answer_of_not_malformed hagent
    fun method path body he => absurd he (hop method path body)
  refine ⟨fun n => ⟨?_, ?_⟩, ?_, ?_⟩
  · rintro ⟨reason, hreason⟩
    -- A peer or a dead network is never reported as an invalid argument.
    by_contra h
    obtain ⟨f, hf⟩ := hgood h
    exact (hf n).2 reason hreason
  · intro h
    obtain ⟨refusal, he⟩ := answer_of_malformed h n
    rw [he]
    exact ⟨refusal.message, rfl⟩
  · intro h n
    obtain ⟨refusal, he⟩ := answer_of_malformed h n
    rw [he]
    exact ⟨rfl, rfl, rfl, rfl⟩
  · intro h
    obtain ⟨f, hf⟩ := hgood h
    exact ⟨f, fun n => (hf n).1⟩

/-- A batch in which an id returns behind another one is refused, also where a peer would answer. A
count of a query with one template that asks for anything is one attempt to connect. -/
theorem refuses_malformed_distant :
    let s : Session Unit := ⟨{}, none⟩
    let n := Network.replying []
    let store := Operation.store [⟨"a", 1, [], []⟩, ⟨"b", 0, [], []⟩, ⟨"a", 2, [], []⟩]
    let count := Operation.count [("q", ⟨[[]], none, some 0⟩)]
    OneLine s.options.userAgent ∧
      ((∃ reason, (s.answer n store).result = .error (.invalidArgument reason)) ∧
        s.IsQuiet (s.answer n store)) ∧
      (¬ ∃ reason, (s.answer n count).result = .error (.invalidArgument reason)) ∧
      ∃ f, s.answer n count = (s.connect n).proceed f := by
  intro s n store count
  have hagent : OneLine s.options.userAgent := by decide
  have hstore : store.IsMalformed := .inr (by decide)
  have hcount : ¬ count.IsMalformed := by
    rintro (h | ⟨p, hp, h⟩ | ⟨p, hp, h⟩ | h)
    · cases h
    · obtain rfl := List.mem_singleton.mp hp
      exact absurd (checkQueryName_eq_ok_iff.not.mpr (not_not.mpr h)) (by decide)
    · obtain rfl := List.mem_singleton.mp hp
      exact absurd (Query.validate_eq_ok_iff.not.mpr (not_not.mpr h)) (by decide)
    · exact absurd (List.nodup_singleton "q") h
  obtain ⟨hrefused, hquiet, -⟩ := @refuses_malformed _ s store hagent fun _ _ _ => nofun
  obtain ⟨hrefused', -, hconnects⟩ := @refuses_malformed _ s count hagent fun _ _ _ => nofun
  obtain ⟨f, hf⟩ := hconnects hcount
  exact ⟨hagent, ⟨(hrefused n).mpr hstore, hquiet hstore n⟩, (hrefused' n).not.mpr hcount,
    f, hf n⟩

end Session
end BoxClient
