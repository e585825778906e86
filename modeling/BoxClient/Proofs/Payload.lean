import BoxClient.Proofs.Sent
import BoxClient.Proofs.Wire
/-!
Nothing of what a caller submits is lost on the wire. A batch that is accepted has every id or name
once, so its table holds every box or query under its own; the peer decodes the payload to the
value of that table, and every member of it to what was submitted.
-/
namespace BoxClient

open Http Json Outcome

theorem not_contains_iff {β : Type} {t : Table β} {name : String} :
    ¬ t.contains name = true ↔ t.find? name = none := by
  simp [Table.contains]

/-- Entries that are checked and taken one by one, each under a new name, make the table of all of
them. -/
theorem foldlM_insert_eq_ok_iff {β γ : Type} {f : Table β → γ → Except Refusal (Table β)}
    (entry : γ → String × β) (Valid : γ → Prop)
    (hf : ∀ t a t', f t a = .ok t' ↔
      Valid a ∧ t.find? (entry a).1 = none ∧ t' = t.insert (entry a).1 (entry a).2)
    {as : List γ} {t t' : Table β} :
    as.foldlM f t = .ok t' ↔
      (∀ a ∈ as, Valid a ∧ t.find? (entry a).1 = none) ∧
        (Table.names (as.map entry)).Nodup ∧ t' = t.insertAll (as.map entry) := by
  induction as generalizing t with
  | nil => simp [Table.names, Table.insertAll, eq_comm]
  | cons a as ih =>
    have hnew (b : γ) : (t.insert (entry a).1 (entry a).2).find? (entry b).1 = none ↔
        (entry b).1 ≠ (entry a).1 ∧ t.find? (entry b).1 = none := by
      rw [Table.find?_insert]
      split <;> simp [*]
    have hnodup : (Table.names ((a :: as).map entry)).Nodup ↔
        (∀ b ∈ as, (entry b).1 ≠ (entry a).1) ∧ (Table.names (as.map entry)).Nodup := by
      simp [Table.names]
    rw [List.foldlM_cons, bind_eq_ok, hnodup]
    simp only [hf, ih, List.forall_mem_cons]
    constructor
    · rintro ⟨_, ⟨ha, hfresh, rfl⟩, hvalid, hnodup, rfl⟩
      simp only [hnew] at hvalid
      exact ⟨⟨⟨ha, hfresh⟩, fun b hb => ⟨(hvalid b hb).1, (hvalid b hb).2.2⟩⟩,
        ⟨fun b hb => (hvalid b hb).2.1, hnodup⟩, rfl⟩
    · rintro ⟨⟨⟨ha, hfresh⟩, hvalid⟩, ⟨hne, hnodup⟩, rfl⟩
      refine ⟨_, ⟨ha, hfresh, rfl⟩, fun b hb => ⟨(hvalid b hb).1, ?_⟩, hnodup, rfl⟩
      exact (hnew b).mpr ⟨hne b hb, (hvalid b hb).2⟩

/-- A batch is accepted if it has a box and no id twice. -/
theorem storeMessage_eq_ok_iff {boxes : List Box} {message : Table Box} :
    storeMessage boxes = .ok message ↔ boxes ≠ [] ∧
      (Table.names (boxes.map fun box => (box.id, box))).Nodup ∧
      message = Table.ofList (boxes.map fun box => (box.id, box)) := by
  simp only [storeMessage, throw_eq, error_bind, pure_eq, ite_error_eq_ok]
  rw [foldlM_insert_eq_ok_iff (fun box => (box.id, box)) fun _ => True]
  · simp [Table.ofList]
  · intro t box t'
    rw [ite_error_eq_ok, Except.ok.injEq, not_contains_iff, true_and, eq_comm (a := t')]

/-- Queries are accepted if there is one, each has a good name and is valid, and no name is used
twice. -/
theorem queryMessage_eq_ok_iff {queries : List (String × Query)} {message : Table Query} :
    queryMessage queries = .ok message ↔
      (∀ p ∈ queries, checkQueryName p.1 = .ok () ∧ p.2.validate = .ok ()) ∧ queries ≠ [] ∧
      (Table.names queries).Nodup ∧ message = Table.ofList queries := by
  have hempty : Table.ofList queries = [] ↔ queries = [] := by
    cases queries with
    | nil => exact iff_of_true rfl rfl
    | cons p queries =>
      refine iff_of_false (fun h => ?_) (by simp)
      have hp : p.1 ∈ (Table.ofList (p :: queries)).names :=
        Table.mem_names_ofList.mpr List.mem_cons_self
      rw [h] at hp
      cases hp
  have hstep (t : Table Query) (p : String × Query) (t' : Table Query) :
      (do
        checkQueryName p.1
        p.2.validate
        if t.contains p.1 then throw (.repeatedQuery p.1)
        return t.insert p.1 p.2) = Except.ok t' ↔
      (checkQueryName p.1 = .ok () ∧ p.2.validate = .ok ()) ∧ t.find? p.1 = none ∧
        t' = t.insert p.1 p.2 := by
    simp only [bind_eq_ok, throw_eq, error_bind, pure_eq, ite_error_eq_ok, Except.ok.injEq,
      not_contains_iff, eq_comm (a := t')]
    simp [Unique.exists_iff, and_assoc]
  simp only [queryMessage, bind_eq_ok, throw_eq, error_bind, pure_eq, ite_error_eq_ok,
    Except.ok.injEq]
  constructor
  · rintro ⟨message', hfold, hne, rfl⟩
    obtain ⟨hvalid, hnodup, rfl⟩ := (foldlM_insert_eq_ok_iff id _ hstep).mp hfold
    rw [List.map_id] at hnodup hne ⊢
    exact ⟨fun p hp => (hvalid p hp).1, hempty.not.mp hne, hnodup, rfl⟩
  · rintro ⟨hvalid, hne, hnodup, rfl⟩
    refine ⟨_, (foldlM_insert_eq_ok_iff id _ hstep).mpr ⟨fun p hp => ⟨hvalid p hp, rfl⟩, ?_, ?_⟩,
      hempty.not.mpr hne, rfl⟩
    · rwa [List.map_id]
    · rw [List.map_id, Table.ofList]

/-- Ids go out as they are, repeated ones too. -/
theorem idMessage_eq_ok {ids ids' : List String} (h : idMessage ids = .ok ids') : ids = ids' := by
  simp only [idMessage, throw_eq, error_bind, pure_eq, ite_error_eq_ok, Except.ok.injEq] at h
  exact h.2.2

namespace Session

variable {α : Type} {s : Session α} {n : Network α} {op : Operation}

/-- The session reaches a new peer that takes any request. -/
def Reaches (s : Session α) (n : Network α) (a : α) : Prop :=
  ∃ c, (n.connect s.cached).result = .ok (a, c) ∧ c.room = none ∧ c.written = []

/-- The arguments of the operation are accepted and this value is what it has to send. -/
def Submits (s : Session α) (op : Operation) (v : Value) : Prop :=
  ∃ method path, s.message op = .ok ⟨method, path, .json v⟩

/-- The peer at an address receives one request, and the payload of it decodes to this value. -/
def Delivers (s : Session α) (n : Network α) (op : Operation) (a : α) (v : Value) : Prop :=
  ∃ sent head payload, (s.perform n op).contact = some (a, sent) ∧
    splitHead? sent = some (head, payload) ∧ Json.decode payload = .ok v

/-- What is submitted is delivered in normal form. -/
theorem delivers_normal {a : α} {v : Value} (hagent : OneLine s.options.userAgent)
    (hreaches : s.Reaches n a) (hsubmits : s.Submits op v) (hfits : v.Fits nestingLimit)
    (hop : ∀ method path body, op ≠ .send method path body) : s.Delivers n op a v.normal := by
  obtain ⟨method, path, hm⟩ := hsubmits
  obtain ⟨c, hconnect, hroom, hwritten⟩ := hreaches
  have hpath : Request.IsToken path :=
    isToken_path_of_message (fun method path body he => absurd he (hop method path body)) hm
  have hencode : (s.request method path (.json v)).encode =
      .ok (s.request method path (.json v)).bytes := s.encode_request hagent hpath
  have htakes : c.takes (s.request method path (.json v)).bytes =
      (s.request method path (.json v)).bytes := by rw [Connection.takes, hroom]
  rcases s.perform_cases n op with ⟨refusal, hm', -⟩ | ⟨m, submitted, f, hm', -, hperform⟩
  · rw [hm] at hm'
    cases hm'
  · rw [hm] at hm'
    cases hm'
    refine ⟨_, _, _, ?_, Request.splitHead?_of_encode hencode, Json.decode_text hfits⟩
    rw [hperform, exchange_connected hconnect]
    show some (a, _) = _
    rw [(converse_accepted hencode).1, htakes, hwritten, List.nil_append]

section
variable {a : α} (hagent : OneLine s.options.userAgent) (hreaches : s.Reaches n a)
include hagent hreaches

/-- The ids of a lookup are delivered in their order. -/
theorem delivers_ids {ids : List String} {v : Value} (hsubmits : s.Submits (.get ids) v)
    (hfits : v.Fits nestingLimit) : s.Delivers n (.get ids) a (.array (ids.map .string)) := by
  have hdelivers := delivers_normal hagent hreaches hsubmits hfits fun _ _ _ => nofun
  have hstrings : ∀ w ∈ ids.map Value.string, w.Canonical := by
    intro w hw
    obtain ⟨id, -, rfl⟩ := List.mem_map.mp hw
    exact .string id
  obtain ⟨method, path, hm⟩ := hsubmits
  obtain ⟨ids', hids, he⟩ := bind_eq_ok.mp hm
  obtain rfl := idMessage_eq_ok hids
  cases he
  rwa [Value.Canonical.normal_eq (.array hstrings)] at hdelivers

/-- The values of a table from a list with different names are delivered under these names, and the
peer finds under each the value of what the list has there. -/
theorem delivers_table {β : Type} {ps : Table β} {value : β → Value}
    (hsubmits : s.Submits op (.object ((Table.ofList ps).mapValues value)))
    (hfits : (Value.object ((Table.ofList ps).mapValues value)).Fits nestingLimit)
    (hop : ∀ method path body, op ≠ .send method path body) (hnodup : ps.names.Nodup)
    (hvalue : ∀ p ∈ ps, (value p.2).Canonical) :
    ∃ t : Table Value, s.Delivers n op a (.object t) ∧
      (∀ name, name ∈ t.names ↔ name ∈ ps.names) ∧ ∀ p ∈ ps, t.find? p.1 = some (value p.2) := by
  have hcanonical : (Value.object ((Table.ofList ps).mapValues value)).Canonical := by
    refine .object ((Table.sorted_ofList ps).mapValues value) fun p hp => ?_
    obtain ⟨q, hq, rfl⟩ := List.mem_map.mp hp
    exact hvalue q (Table.mem_of_mem_ofList hq)
  have hdelivers := delivers_normal hagent hreaches hsubmits hfits hop
  rw [hcanonical.normal_eq] at hdelivers
  refine ⟨_, hdelivers, fun name => ?_, fun p hp => ?_⟩
  · rw [Table.names_mapValues, Table.mem_names_ofList]
  · rw [Table.find?_mapValues, Table.find?_ofList hnodup, Table.find?_of_mem_nodup hnodup hp]
    rfl

/-- Every box of a batch is delivered under its id. -/
theorem delivers_boxes {boxes : List Box} {v : Value} (hsubmits : s.Submits (.store boxes) v)
    (hfits : v.Fits nestingLimit) (hboxes : ∀ box ∈ boxes, box.Reachable) :
    ∃ t : Table Value, s.Delivers n (.store boxes) a (.object t) ∧
      (∀ name, name ∈ t.names ↔ name ∈ boxes.map Box.id) ∧
      ∀ box ∈ boxes, ∃ w, t.find? box.id = some w ∧ Box.form.decodeValue w = .ok box := by
  obtain ⟨method, path, hm⟩ := id hsubmits
  obtain ⟨message, hmessage, he⟩ := bind_eq_ok.mp hm
  obtain ⟨-, hnodup, rfl⟩ := storeMessage_eq_ok_iff.mp hmessage
  cases he
  have hvalues : ∀ p ∈ boxes.map fun box => (box.id, box), p.2.toValue.Canonical := by
    intro p hp
    obtain ⟨box, hbox, rfl⟩ := List.mem_map.mp hp
    exact Box.canonical_toValue (hboxes box hbox).isFields
  obtain ⟨t, hdelivers, hnames, hfind⟩ :=
    delivers_table hagent hreaches hsubmits hfits (fun _ _ _ => nofun) hnodup hvalues
  refine ⟨t, hdelivers, fun name => ?_, fun box hbox => ?_⟩
  · rw [hnames, Table.names, List.map_map]
    rfl
  · refine ⟨_, hfind (box.id, box) (List.mem_map_of_mem hbox), ?_⟩
    rw [Form.decodeValue, Box.ofValue_toValue (hboxes box hbox).isFields]
    rfl

/-- Every query is delivered under its name. -/
theorem delivers_queries {queries : List (String × Query)} {v : Value}
    (hop : op = .sendQuery queries ∨ op = .query queries) (hsubmits : s.Submits op v)
    (hfits : v.Fits nestingLimit) (hqueries : ∀ p ∈ queries, p.2.Reachable) :
    ∃ t : Table Value, s.Delivers n op a (.object t) ∧
      (∀ name, name ∈ t.names ↔ name ∈ queries.map (·.1)) ∧
      ∀ p ∈ queries, ∃ w, t.find? p.1 = some w ∧ Query.form.decodeValue w = .ok p.2 := by
  have hsend : ∀ method path body, op ≠ .send method path body := by
    rcases hop with rfl | rfl <;> exact fun _ _ _ => nofun
  have hsame : s.message op = s.message (.sendQuery queries) := by
    rcases hop with rfl | rfl <;> rfl
  obtain ⟨method, path, hm⟩ := id hsubmits
  rw [hsame] at hm
  obtain ⟨message, hmessage, he⟩ := bind_eq_ok.mp hm
  obtain ⟨-, -, hnodup, rfl⟩ := queryMessage_eq_ok_iff.mp hmessage
  cases he
  obtain ⟨t, hdelivers, hnames, hfind⟩ := delivers_table hagent hreaches hsubmits hfits hsend hnodup
    fun p hp => Query.canonical_toValue (hqueries p hp).canonical
  refine ⟨t, hdelivers, hnames, fun p hp => ⟨_, hfind p hp, ?_⟩⟩
  rw [Form.decodeValue, Query.ofValue_toValue]
  rfl

/-- For a count the templates of every query are delivered under its name. -/
theorem delivers_templates {queries : List (String × Query)} {v : Value}
    (hsubmits : s.Submits (.count queries) v) (hfits : v.Fits nestingLimit)
    (hqueries : ∀ p ∈ queries, p.2.Reachable) :
    ∃ t : Table Value, s.Delivers n (.count queries) a (.object t) ∧
      (∀ name, name ∈ t.names ↔ name ∈ queries.map (·.1)) ∧
      ∀ p ∈ queries, t.find? p.1 = some (.array (p.2.templates.map .object)) := by
  obtain ⟨method, path, hm⟩ := id hsubmits
  obtain ⟨message, hmessage, he⟩ := bind_eq_ok.mp hm
  obtain ⟨-, -, hnodup, rfl⟩ := queryMessage_eq_ok_iff.mp hmessage
  cases he
  exact delivers_table hagent hreaches hsubmits hfits (fun _ _ _ => nofun) hnodup
    fun p hp => Query.canonical_templatesValue (hqueries p hp).canonical

end

/-- Nothing of what is submitted is lost: to a peer that the session reaches the ids of a lookup are
delivered in their order; every box of a batch, and every query, under its own id or name beside no
others, and read there as what it was; and for a count the templates of every query under its name.
-/
theorem delivers_submitted {a : α} (hagent : OneLine s.options.userAgent)
    (hreaches : s.Reaches n a) :
    (∀ ids v, s.Submits (.get ids) v → v.Fits nestingLimit →
      s.Delivers n (.get ids) a (.array (ids.map .string))) ∧
    (∀ boxes v, s.Submits (.store boxes) v → v.Fits nestingLimit →
      (∀ box ∈ boxes, box.Reachable) →
      ∃ t : Table Value, s.Delivers n (.store boxes) a (.object t) ∧
        (∀ name, name ∈ t.names ↔ name ∈ boxes.map Box.id) ∧
        ∀ box ∈ boxes, ∃ w, t.find? box.id = some w ∧ Box.form.decodeValue w = .ok box) ∧
    (∀ op queries v, op = .sendQuery queries ∨ op = .query queries → s.Submits op v →
      v.Fits nestingLimit → (∀ p ∈ queries, p.2.Reachable) →
      ∃ t : Table Value, s.Delivers n op a (.object t) ∧
        (∀ name, name ∈ t.names ↔ name ∈ queries.map (·.1)) ∧
        ∀ p ∈ queries, ∃ w, t.find? p.1 = some w ∧ Query.form.decodeValue w = .ok p.2) ∧
    (∀ queries v, s.Submits (.count queries) v → v.Fits nestingLimit →
      (∀ p ∈ queries, p.2.Reachable) →
      ∃ t : Table Value, s.Delivers n (.count queries) a (.object t) ∧
        (∀ name, name ∈ t.names ↔ name ∈ queries.map (·.1)) ∧
        ∀ p ∈ queries, t.find? p.1 = some (.array (p.2.templates.map .object))) := by
  refine ⟨fun ids v hsubmits hfits => ?_, fun boxes v hsubmits hfits hboxes => ?_,
    fun op queries v hop hsubmits hfits hqueries => ?_,
    fun queries v hsubmits hfits hqueries => ?_⟩
  · exact delivers_ids hagent hreaches hsubmits hfits
  · exact delivers_boxes hagent hreaches hsubmits hfits hboxes
  · exact delivers_queries hagent hreaches hop hsubmits hfits hqueries
  · exact delivers_templates hagent hreaches hsubmits hfits hqueries

/-- A lookup that names an id twice, a batch of two boxes, a query and a count, as delivered. -/
theorem delivers_one_of_each :
    let s : Session Unit := ⟨{}, none⟩
    let n := Network.replying []
    let template : Template := [("x", .number (.natural 1))]
    let b : Box := ⟨"b", 2, ["x"], template⟩
    let c : Box := ⟨"a", 0, [], []⟩
    let q : Query := ⟨[template], some 5, none⟩
    OneLine s.options.userAgent ∧ s.Reaches n () ∧
      s.Delivers n (.get ["b", "a", "b"]) () (.array [.string "b", .string "a", .string "b"]) ∧
      (∃ t : Table Value, s.Delivers n (.store [b, c]) () (.object t) ∧
        (∀ name, name ∈ t.names ↔ name ∈ ["b", "a"]) ∧
        ∀ box ∈ [b, c], ∃ w, t.find? box.id = some w ∧ Box.form.decodeValue w = .ok box) ∧
      (∃ t : Table Value, s.Delivers n (.query [("q", q)]) () (.object t) ∧
        (∀ name, name ∈ t.names ↔ name ∈ ["q"]) ∧
        ∃ w, t.find? "q" = some w ∧ Query.form.decodeValue w = .ok q) ∧
      (∃ t : Table Value, s.Delivers n (.count [("q", q)]) () (.object t) ∧
        (∀ name, name ∈ t.names ↔ name ∈ ["q"]) ∧
        t.find? "q" = some (.array [.object template])) := by
  intro s n template b c q
  have hagent : OneLine s.options.userAgent := by decide
  have hreaches : s.Reaches n () := ⟨_, rfl, rfl, rfl⟩
  obtain ⟨hget, hstore, hquery, hcount⟩ := delivers_submitted hagent hreaches
  have hb : Box.form.read 3 (Utf8.encode b.text) = .ok (b, []) := by decide +kernel
  have hc : Box.form.read 3 (Utf8.encode c.text) = .ok (c, []) := by decide +kernel
  have hboxes : ∀ box ∈ [b, c], box.Reachable := by
    simp only [List.forall_mem_cons]
    exact ⟨.read hb, .read hc, nofun⟩
  have hq : Query.form.read 4 (Utf8.encode q.text) = .ok (q, []) := by decide +kernel
  have hqueries : ∀ p ∈ [("q", q)], p.2.Reachable := by
    intro p hp
    obtain rfl := List.mem_singleton.mp hp
    exact .read hq
  obtain ⟨t, hdelivers, hnames, hfind⟩ := hstore [b, c]
    (.object [("a", c.toValue), ("b", b.toValue)]) ⟨.post, "/default", by decide +kernel⟩
    (by decide +kernel) hboxes
  obtain ⟨u, hdelivers', hnames', hfind'⟩ := hquery (.query [("q", q)]) [("q", q)]
    (.object [("q", q.toValue)]) (.inr rfl) ⟨.get, "/default", by decide +kernel⟩
    (by decide +kernel) hqueries
  obtain ⟨w, hdelivers'', hnames'', hfind''⟩ := hcount [("q", q)]
    (.object [("q", q.templatesValue)]) ⟨.get, "/default/count", by decide +kernel⟩
    (by decide +kernel) hqueries
  have hlookup := hget ["b", "a", "b"] (.array [.string "b", .string "a", .string "b"])
    ⟨.get, "/default", by decide +kernel⟩ (by decide +kernel)
  exact ⟨hagent, hreaches, hlookup, ⟨t, hdelivers, hnames, hfind⟩,
    ⟨u, hdelivers', hnames', hfind' ("q", q) List.mem_cons_self⟩,
    ⟨w, hdelivers'', hnames'', hfind'' ("q", q) List.mem_cons_self⟩⟩

end Session

end BoxClient
