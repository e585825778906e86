import BoxClient.Proofs.Json.Routes
/-!
Boxes read from a text and boxes read from the value of that text. Both are made of the members of
one object, as the text has them or as its table keeps them. The table has forgotten repetitions:
one of a key of the protocol is reported on the way through the text only, and of the fields with
one name the last stands on both ways.
-/
namespace BoxClient.Box

open Json Outcome

/-- What follows a key is taken as its value would be. -/
theorem Draft.read_takes (n : Nat) : Takes (Draft.read n) (Value.reader n) Draft.take := by
  intro d key bs d' r
  by_cases hid : key = idKey
  · simp only [Draft.read, Draft.take, if_pos hid]
    exact slot_takes string_agrees fun id => { d with id }
  by_cases hrevision : key = revisionKey
  · simp only [Draft.read, Draft.take, if_neg hid, if_pos hrevision]
    exact slot_takes (unsigned_agrees _ _) fun revision => { d with revision }
  by_cases hindex : key = indexKey
  · simp only [Draft.read, Draft.take, if_neg hid, if_neg hrevision, if_pos hindex]
    exact slot_takes (list_agrees string_agrees) fun index => { d with index }
  · have hfield := entry_takes (Value.reader n) (ε := Misfit) d.fields key bs
    simp only [Draft.read, Draft.take, if_neg hid, if_neg hrevision, if_neg hindex, bind_eq_ok,
      Prod.exists, hfield, pure_eq, Except.ok.injEq, Prod.mk.injEq]
    constructor
    · rintro ⟨_, _, ⟨r₁, v, hcolon, hv, rfl⟩, rfl, rfl⟩
      exact ⟨r₁, v, hcolon, hv, rfl⟩
    · rintro ⟨r₁, v, hcolon, hv, rfl⟩
      exact ⟨_, r, ⟨r₁, v, hcolon, hv, rfl⟩, rfl, rfl⟩

section
variable {n : Nat} {bs r text : Bytes} {box : Box} {v : Value} {ps : Table Value}

/-- A box is read from members that are taken one after the other. -/
theorem form_read_eq_ok_iff : form.read n bs = .ok (box, r) ↔
    ∃ ps, ReadsMembers n bs ps r ∧
      ∃ d, ps.foldlM (fun d p => Draft.take d p.1 p.2) {} = .ok d ∧ d.finish = .ok box := by
  have hmembers (m : Nat) (r' : Bytes) : readMembers m r' = .ok (box, r) ↔
      ∃ ps, memberList (Value.reader m) r' true r' = .ok (ps, r) ∧
        ∃ d, ps.foldlM (fun d p => Draft.take d p.1 p.2) {} = .ok d ∧ d.finish = .ok box := by
    simp only [readMembers, objectOf, bind_eq_ok, Prod.exists, members_takes (Draft.read_takes m)]
    constructor
    · rintro ⟨d, r₁, ⟨ps, hps, hd⟩, h⟩
      cases hfinish : d.finish with
      | error m => rw [hfinish] at h; cases h
      | ok box' =>
        rw [hfinish] at h
        cases h
        exact ⟨ps, hps, d, hd, hfinish⟩
    · rintro ⟨ps, hps, d, hd, hfinish⟩
      exact ⟨d, r, ⟨ps, hps, hd⟩, by rw [hfinish]⟩
  constructor
  · intro h
    simp only [form] at h
    split at h
    · rename_i r' hskip
      cases n with
      | zero => cases h
      | succ m =>
        obtain ⟨ps, hps, hbox⟩ := (hmembers m r').mp h
        exact ⟨ps, ⟨m, r', rfl, hskip, hps⟩, hbox⟩
    · exact absurd h mismatch_ne_ok
  · rintro ⟨ps, ⟨m, r', rfl, hskip, hps⟩, hbox⟩
    simp only [form, hskip]
    exact (hmembers m r').mpr ⟨ps, hps, hbox⟩

/-- The members of a text make a box if their table does and no key of the protocol is repeated. -/
theorem decode_eq_ok_iff : form.decode text = .ok box ↔
    ∃ ps, HasMembers text ps ∧ Once reservedKeys ps ∧ IsBox (.object (Table.ofList ps)) box := by
  simp only [Form.decode_eq_ok_iff, form_read_eq_ok_iff, finish_eq_ok_iff, HasMembers]
  constructor
  · rintro ⟨r, ⟨ps, hps, hbox⟩, hr⟩
    exact ⟨ps, ⟨r, hps, hr⟩, hbox⟩
  · rintro ⟨ps, ⟨r, hps, hr⟩, hbox⟩
    exact ⟨r, ⟨ps, hps, hbox⟩, hr⟩

/-- The value of a text is read as a box if the table of its members is one. -/
theorem decodeValue_eq_ok_iff (hv : Json.decode text = .ok v) :
    form.decodeValue v = .ok box ↔
      ∃ ps, HasMembers text ps ∧ v = .object (Table.ofList ps) ∧ IsBox v box := by
  rw [Form.decodeValue, mapError_eq_ok]
  constructor
  · intro h
    cases v with
    | object t =>
      obtain ⟨ps, hps, rfl⟩ := decode_object_iff.mp hv
      exact ⟨ps, hps, rfl, (ofValue_eq_ok_iff (Table.sorted_ofList ps)).mp h⟩
    | _ => cases h
  · rintro ⟨ps, -, rfl, hbox⟩
    exact (ofValue_eq_ok_iff (Table.sorted_ofList ps)).mpr hbox

theorem decode_eq_error (h : ∀ box, form.decode text ≠ .ok box) :
    ∃ reason, form.decode text = .error (.serialization reason) := by
  cases hread : form.readText text with
  | error f => exact ⟨_, by rw [Form.decode, hread]; rfl⟩
  | ok box => exact absurd (by rw [Form.decode, hread]; rfl) (h box)

/-- Of the members that are fields of one name the last is in the box. -/
theorem get?_eq_some_iff (h : IsBox (.object (Table.ofList ps)) box) {field : String} {w : Value}
    (hfield : isReserved field = false) :
    box.get? field = some w ↔
      ∃ before after, ps = before ++ (field, w) :: after ∧ field ∉ Table.names after := by
  obtain ⟨_, he, -, -, -, hfields⟩ := h
  cases he
  rw [get?, hfields, Table.find?_filter (fun name => !isReserved name), hfield,
    Table.find?_ofList_last]
  exact Table.find?_reverse_eq_some_iff

end

/-- A box that is read from a text is read from the value of the text too. A box that is read from
the value is read from the text, unless that repeats a key of the protocol: then the text is
refused. Repeated fields count with the last. -/
theorem decode_agrees (text : Bytes) (box : Box) :
    (form.decode text = .ok box →
      ∃ v, Json.decode text = .ok v ∧ form.decodeValue v = .ok box) ∧
    ∀ v, Json.decode text = .ok v → form.decodeValue v = .ok box →
      ∃ ps, HasMembers text ps ∧ v = .object (Table.ofList ps) ∧
        (Once reservedKeys ps → form.decode text = .ok box) ∧
        (¬ Once reservedKeys ps → ∃ reason, form.decode text = .error (.serialization reason)) ∧
        ∀ field w, isReserved field = false → (box.get? field = some w ↔
          ∃ before after, ps = before ++ (field, w) :: after ∧ field ∉ Table.names after) := by
  constructor
  · intro h
    obtain ⟨ps, hps, -, hbox⟩ := decode_eq_ok_iff.mp h
    have hv := decode_object_iff.mpr ⟨ps, hps, rfl⟩
    exact ⟨_, hv, (decodeValue_eq_ok_iff hv).mpr ⟨ps, hps, rfl, hbox⟩⟩
  · intro v hv h
    obtain ⟨ps, hps, rfl, hbox⟩ := (decodeValue_eq_ok_iff hv).mp h
    refine ⟨ps, hps, rfl, fun honce => decode_eq_ok_iff.mpr ⟨ps, hps, honce, hbox⟩, ?_,
      fun _ _ hfield => get?_eq_some_iff hbox hfield⟩
    intro hrepeated
    refine decode_eq_error fun box' hbox' => ?_
    obtain ⟨ps', hps', honce, -⟩ := decode_eq_ok_iff.mp hbox'
    rw [hps.unique hps'] at hrepeated
    exact hrepeated honce

/-- An id behind an escape, a revision at the border and a field that is given twice agree on both
ways; a revision that is given twice does not. -/
theorem decode_agrees_repeated :
    let plain := Utf8.encode
      "\x7b\"\\u005fid\":\"a\",\"_rev\":18446744073709551615,\"x\":1,\"x\":2\x7d"
    let twice := Utf8.encode "\x7b\"_id\":\"a\",\"_rev\":1,\"_rev\":2\x7d"
    (∃ v, Json.decode plain = .ok v ∧
      form.decodeValue v = .ok ⟨"a", 18446744073709551615, [], [("x", .number (.natural 2))]⟩) ∧
    (∃ v, Json.decode twice = .ok v ∧ form.decodeValue v = .ok ⟨"a", 2, [], []⟩) ∧
    ∃ reason, form.decode twice = .error (.serialization reason) := by
  intro plain twice
  have hplain : form.decode plain =
      .ok ⟨"a", 18446744073709551615, [], [("x", .number (.natural 2))]⟩ := by decide +kernel
  have hv : Json.decode twice =
      .ok (.object [("_id", .string "a"), ("_rev", .number (.natural 2))]) := by decide +kernel
  have hbox : form.decodeValue (.object [("_id", .string "a"), ("_rev", .number (.natural 2))]) =
      .ok ⟨"a", 2, [], []⟩ := by decide +kernel
  have htwice : HasMembers twice [("_id", .string "a"), ("_rev", .number (.natural 1)),
      ("_rev", .number (.natural 2))] :=
    ⟨[], ⟨126, _, rfl, rfl, by decide +kernel⟩, rfl⟩
  obtain ⟨ps, hps, -, -, hrefused, -⟩ := (decode_agrees twice _).2 _ hv hbox
  rw [← htwice.unique hps] at hrefused
  exact ⟨(decode_agrees plain _).1 hplain, ⟨_, hv, hbox⟩, hrefused (by decide)⟩

end BoxClient.Box
