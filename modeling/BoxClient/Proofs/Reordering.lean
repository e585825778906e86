import BoxClient.Proofs.Payload
/-!
In what order independent arguments are given does not matter. The boxes of a batch, the queries of
a request and the fields of a new box become tables, whose order is their own; whether they are
accepted is a question to each of them and to their names together; and a report finds its box in
the batch by the id, which only one of them has.
-/
namespace BoxClient

open Http Json Outcome

theorem ne_nil_of_perm {β : Type} {l l' : List β} (h : l.Perm l') (hne : l ≠ []) : l' ≠ [] :=
  fun he => hne (List.perm_nil.mp (he ▸ h))

/-- A batch is a table by id, and a table has an order of its own. -/
theorem storeMessage_perm {boxes boxes' : List Box} (h : boxes.Perm boxes') {message : Table Box}
    (hmessage : storeMessage boxes = .ok message) : storeMessage boxes' = .ok message := by
  obtain ⟨hne, hnodup, rfl⟩ := storeMessage_eq_ok_iff.mp hmessage
  have hpairs := h.map fun box => (box.id, box)
  exact storeMessage_eq_ok_iff.mpr ⟨ne_nil_of_perm h hne, (hpairs.map _).nodup_iff.mp hnodup,
    Table.ofList_perm hpairs hnodup⟩

theorem queryMessage_perm {queries queries' : List (String × Query)} (h : queries.Perm queries')
    {message : Table Query} (hmessage : queryMessage queries = .ok message) :
    queryMessage queries' = .ok message := by
  obtain ⟨hvalid, hne, hnodup, rfl⟩ := queryMessage_eq_ok_iff.mp hmessage
  exact queryMessage_eq_ok_iff.mpr ⟨fun p hp => hvalid p (h.mem_iff.mpr hp), ne_nil_of_perm h hne,
    (h.map _).nodup_iff.mp hnodup, Table.ofList_perm h hnodup⟩

theorem Box.prepare_perm {id : String} {revision : UInt64} {index : List String}
    {fields fields' : List (String × Value)} {box : Box} (h : fields.Perm fields')
    (hnodup : (Table.names fields).Nodup) (hbox : Box.prepare id revision index fields = .ok box) :
    Box.prepare id revision index fields' = .ok box := by
  obtain ⟨hid, hindex, hfields, rfl⟩ := Box.prepare_eq_ok_iff.mp hbox
  exact Box.prepare_eq_ok_iff.mpr ⟨hid, hindex, fun p hp => hfields p (h.mem_iff.mpr hp),
    by rw [Table.ofList_perm h hnodup]⟩

namespace Report

/-- A box is found in a batch as it is under its id. -/
theorem find?_id (boxes : List Box) (id : String) :
    boxes.find? (·.id = id) = Table.find? (boxes.map fun box => (box.id, box)) id := by
  induction boxes with
  | nil => rfl
  | cons box boxes ih =>
    rw [List.find?_cons, List.map_cons, Table.find?_cons, ih]
    by_cases he : box.id = id
    · simp [he]
    · simp [he, Ne.symm he]

section
variable {boxes boxes' : List Box} (h : boxes.Perm boxes')
include h

theorem soleId?_perm : soleId? boxes = soleId? boxes' := by
  have hlength := h.length_eq
  match boxes, boxes' with
  | [], [] => rfl
  | [box], [box'] => rw [List.singleton_perm_singleton.mp h]
  | _ :: _ :: _, _ :: _ :: _ => rfl
  | [], _ :: _ | _ :: _, [] | [_], _ :: _ :: _ | _ :: _ :: _, [_] => simp at hlength

variable (hnodup : (Table.names (boxes.map fun box => (box.id, box))).Nodup)
include hnodup

/-- An error is about the box with its id, wherever that stands in the batch. -/
theorem check_perm (reply : Value) : check reply boxes = check reply boxes' := by
  have hfind (id : String) : boxes.find? (·.id = id) = boxes'.find? (·.id = id) := by
    rw [find?_id, find?_id, Table.find?_perm (h.map _) hnodup]
  have hconflict (report : Value) : conflictError report boxes = conflictError report boxes' := by
    simp only [conflictError, soleId?_perm h, hfind]
  simp only [check, hconflict]

end

end Report

namespace Session

variable {α β : Type} (s : Session α) (n : Network α)

/-- Both calls are refused for their arguments, or they are the same: in what they give, in what
they leave behind and in what they send. -/
def Alike (c c' : Call α β) : Prop :=
  (∃ r r', c = s.refuse r ∧ c' = s.refuse r') ∨ c = c'

theorem alike_store {boxes boxes' : List Box} (h : boxes.Perm boxes') :
    s.Alike (s.store n boxes) (s.store n boxes') := by
  have hmessage (message : Table Box) :
      storeMessage boxes = .ok message ↔ storeMessage boxes' = .ok message :=
    ⟨fun hm => storeMessage_perm h hm, fun hm => storeMessage_perm h.symm hm⟩
  rcases cases_of_ok_iff hmessage with ⟨r, r', hr, hr'⟩ | ⟨message, hm, hm'⟩
  · exact .inl ⟨r, r', by rw [store, hr], by rw [store, hr']⟩
  · obtain ⟨-, hnodup, -⟩ := storeMessage_eq_ok_iff.mp hm
    have hcheck := Report.check_perm h hnodup
    exact .inr (by rw [store, store, hm, hm']; simp only [exchange, hcheck])

/-- Calls that begin with the message of queries do not depend on the order of these. -/
theorem alike_queries {queries queries' : List (String × Query)} (h : queries.Perm queries')
    (call : Table Query → Call α β) :
    s.Alike
      (match queryMessage queries with
        | .error r => s.refuse r
        | .ok message => call message)
      (match queryMessage queries' with
        | .error r => s.refuse r
        | .ok message => call message) := by
  have hmessage (message : Table Query) :
      queryMessage queries = .ok message ↔ queryMessage queries' = .ok message :=
    ⟨fun hm => queryMessage_perm h hm, fun hm => queryMessage_perm h.symm hm⟩
  rcases cases_of_ok_iff hmessage with ⟨r, r', hr, hr'⟩ | ⟨message, hm, hm'⟩
  · exact .inl ⟨r, r', by rw [hr], by rw [hr']⟩
  · exact .inr (by rw [hm, hm'])

/-- What is done with the results of calls that are alike does not tell them apart. -/
theorem Alike.bind {γ : Type} {s : Session α} {c c' : Call α β} (h : s.Alike c c')
    (f : β → Except Error γ) : s.Alike (c.bind f) (c'.bind f) := by
  rcases h with ⟨r, r', rfl, rfl⟩ | rfl
  · exact .inl ⟨r, r', rfl, rfl⟩
  · exact .inr rfl

/-- Calls that are alike are the same if one of them is not refused. -/
theorem Alike.eq {s : Session α} {c c' : Call α β} (h : s.Alike c c')
    (hc : ∀ reason, c.result ≠ .error (.invalidArgument reason)) : c = c' := by
  rcases h with ⟨r, r', rfl, rfl⟩ | h
  · exact absurd rfl (hc r.message)
  · exact h

/-- The order of the boxes of a batch, of named queries, and of fields with different names does
not matter: on both orders the arguments are refused, or the same is sent and the same comes of it.
-/
theorem order_irrelevant :
    (∀ boxes boxes', boxes.Perm boxes' → s.Alike (s.store n boxes) (s.store n boxes')) ∧
    (∀ queries queries', queries.Perm queries' →
      s.Alike (s.sendQuery n queries) (s.sendQuery n queries') ∧
      s.Alike (s.query n queries) (s.query n queries') ∧
      s.Alike (s.count n queries) (s.count n queries')) ∧
    ∀ id revision index fields fields', fields.Perm fields' → (Table.names fields).Nodup →
      (∃ r r', Box.prepare id revision index fields = .error r ∧
        Box.prepare id revision index fields' = .error r') ∨
      ∃ box, Box.prepare id revision index fields = .ok box ∧
        Box.prepare id revision index fields' = .ok box := by
  refine ⟨fun boxes boxes' h => s.alike_store n h, fun queries queries' h => ?_,
    fun id revision index fields fields' h hnodup => cases_of_ok_iff fun box => ?_⟩
  · have hsend : s.Alike (s.sendQuery n queries) (s.sendQuery n queries') :=
      s.alike_queries h _
    exact ⟨hsend, hsend.bind _, s.alike_queries h _⟩
  · exact ⟨Box.prepare_perm h hnodup, Box.prepare_perm h.symm ((h.map _).nodup_iff.mp hnodup)⟩

/-- A batch of two boxes, two queries and two fields in both orders. The reply is a conflict over
the box that stands last in one batch and first in the other. -/
theorem order_irrelevant_conflict :
    let s : Session Unit := ⟨{}, none⟩
    let n := Network.replying (Utf8.encode "\x7b\"error\":\"conflict\",\"_id\":\"b\"\x7d")
    let a : Box := ⟨"a", 3, [], []⟩
    let b : Box := ⟨"b", 7, [], [("x", .null)]⟩
    let q : Query := ⟨[[]], none, none⟩
    (s.store n [a, b]).result = .error (.versionConflict "b" 7) ∧
      s.store n [a, b] = s.store n [b, a] ∧
      s.query n [("p", q), ("q", q)] = s.query n [("q", q), ("p", q)] ∧
      ∃ box, Box.prepare "c" 0 [] [("x", .null), ("y", .boolean true)] = .ok box ∧
        Box.prepare "c" 0 [] [("y", .boolean true), ("x", .null)] = .ok box := by
  intro s n a b q
  obtain ⟨hstore, hqueries, hprepare⟩ := order_irrelevant s n
  have hconflict : (s.store n [a, b]).result = .error (.versionConflict "b" 7) := by
    decide +kernel
  have hquery : (s.query n [("p", q), ("q", q)]).result = .error (.versionConflict "b" 0) := by
    decide +kernel
  refine ⟨hconflict, ?_, ?_, ?_⟩
  · refine (hstore [a, b] [b, a] (.swap b a [])).eq fun reason => ?_
    rw [hconflict]
    nofun
  · refine (hqueries _ _ (.swap _ _ [])).2.1.eq fun reason => ?_
    rw [hquery]
    nofun
  · rcases hprepare "c" 0 [] [("x", .null), ("y", .boolean true)]
      [("y", .boolean true), ("x", .null)] (.swap _ _ []) (by decide) with ⟨r, _, hr, -⟩ | hbox
    · cases hr
    · exact hbox

end Session
end BoxClient
