import BoxClient.Proofs.Editing
/-!
Boxes that are read from a value and written back. The object that comes out has every member of the
object that went in, under its own key, and beside these at most the revision and the index that
were left out. An edit in between changes the one member that it is about.
-/
namespace BoxClient

open Json Outcome

/-- An object with these members and no others. -/
def Json.Value.IsObject (v : Value) (lookup : String → Option Value) : Prop :=
  ∃ t : Table Value, v = .object t ∧ t.Sorted ∧ t.find? = lookup

namespace Box

/-- What stands for a member that an object leaves out. -/
def default? (key : String) : Option Value :=
  if key = revisionKey then some (.number (.natural 0))
  else if key = indexKey then some (.array [])
  else none

section
variable {box box' : Box} {t : Table Value} {field key : String} {x : Value}
  {previous : Option Value}

/-- A member that is written is one of the object that was read, or one that this leaves out. -/
theorem find?_members_of_isBox (h : IsBox (.object t) box) :
    Table.find? box.members = fun key => (t.find? key).or (default? key) := by
  obtain ⟨_, he, hid, hrevision, hindex, hfields⟩ := h
  cases he
  funext key
  rw [find?_members, default?]
  by_cases hkey : key = idKey
  · rw [if_pos hkey, hkey, hid]
    rfl
  rw [if_neg hkey]
  by_cases hkey : key = revisionKey
  · rw [if_pos hkey, if_pos hkey, hkey]
    rcases hrevision with hrevision | ⟨hrevision, hzero⟩
    · rw [hrevision]
      rfl
    · rw [hrevision, hzero]
      rfl
  rw [if_neg hkey, if_neg hkey]
  by_cases hkey : key = indexKey
  · rw [if_pos hkey, if_pos hkey, hkey]
    rcases hindex with hindex | ⟨hindex, hnil⟩
    · rw [hindex]
      rfl
    · rw [hindex, hnil]
      rfl
  rw [if_neg hkey, if_neg hkey, hfields, Table.find?_filter fun key => !isReserved key]
  have hfree : isReserved key = false := by simp [isReserved, reservedKeys, *]
  simp [hfree]

/-- The members of a box are those of its value: none is written twice. -/
theorem isObject_toValue (h : IsSeparate box.fields) :
    box.toValue.IsObject (Table.find? box.members) :=
  ⟨_, rfl, Table.sorted_ofList _, funext (Table.find?_ofList (nodup_members h))⟩

/-- What is under the key of a field is what the box has in that field. -/
theorem find?_members_of_field (hfield : isReserved field = false) :
    Table.find? box.members field = box.get? field := by
  obtain ⟨hid, hrevision, hindex⟩ := Draft.ne_of_not_reserved hfield
  rw [find?_members, if_neg hid, if_neg hrevision, if_neg hindex, get?]

/-- Only the member that is set changes. -/
theorem find?_members_insert (h : box.insert field x = .ok (previous, box')) :
    Table.find? box'.members = Function.update (Table.find? box.members) field (some x) := by
  obtain ⟨hfield, -, rfl⟩ := insert_eq_ok_iff.mp h
  obtain ⟨hid, hrevision, hindex⟩ := Draft.ne_of_not_reserved hfield
  funext key
  rw [Function.update_apply, find?_members, find?_members, Table.find?_insert]
  by_cases hkey : key = field
  · simp [hkey, hid, hrevision, hindex]
  · simp [hkey]

/-- Only the member that is taken away changes. -/
theorem find?_members_erase (hfield : isReserved field = false) :
    Table.find? (box.erase field).2.members =
      Function.update (Table.find? box.members) field none := by
  obtain ⟨hid, hrevision, hindex⟩ := Draft.ne_of_not_reserved hfield
  funext key
  rw [Function.update_apply, find?_members, find?_members, erase, Table.find?_erase,
    Function.update_apply]
  by_cases hkey : key = field
  · simp [hkey, hid, hrevision, hindex]
  · simp [hkey]

/-- No field stands under a key of the protocol, so there is none to erase. -/
theorem erase_reserved (h : IsSeparate box.fields) (hfield : isReserved field = true) :
    box.erase field = (none, box) := by
  have hne : ∀ p ∈ box.fields, p.1 ≠ field := by
    intro p hp he
    have hfree := h.unreserved p hp
    rw [he, hfield] at hfree
    cases hfree
  have hall : box.fields.erase field = box.fields :=
    List.filter_eq_self.mpr fun p hp => decide_eq_true (hne p hp)
  have hnone : box.get? field = none := by
    refine Table.find?_eq_none_iff.mpr fun hmem => ?_
    obtain ⟨v, hv⟩ := Table.mem_names.mp hmem
    exact hne _ hv rfl
  rw [erase, hall, hnone]

end

/-- A box that is read from a value comes from an object, and its own value is that object: every
member is there under its key and as it was, a revision of zero and an empty index are added if they
were left out, and nothing else. Whatever edits follow, inserting a field then changes the value
under the key of the field and nowhere else, erasing a field takes that member away and no other,
and both give the value that was there; erasing under a key of the protocol changes nothing. -/
theorem writeBack_keeps {v : Value} {box : Box} (hv : v.Canonical)
    (h : form.decodeValue v = .ok box) :
    (∃ lookup, v.IsObject lookup ∧
      box.toValue.IsObject fun key => (lookup key).or (default? key)) ∧
    ∀ edits, ∃ lookup, (box.run edits).toValue.IsObject lookup ∧
      (∀ field x previous box', (box.run edits).insert field x = .ok (previous, box') →
        previous = lookup field ∧
          box'.toValue.IsObject (Function.update lookup field (some x))) ∧
      ∀ field previous box', (box.run edits).erase field = (previous, box') →
        (isReserved field = false → previous = lookup field ∧
          box'.toValue.IsObject (Function.update lookup field none)) ∧
        (isReserved field = true →
          previous = none ∧ box'.toValue = (box.run edits).toValue) := by
  have hseparate := isSeparate_of_decodeValue h
  constructor
  · rw [Form.decodeValue, mapError_eq_ok] at h
    cases hv with
    | @object t hsorted _ =>
      have hbox := (ofValue_eq_ok_iff hsorted).mp h
      refine ⟨t.find?, ⟨t, rfl, hsorted, rfl⟩, ?_⟩
      rw [← find?_members_of_isBox hbox]
      exact isObject_toValue hseparate
    | _ => cases h
  · intro edits
    have hnow := (follows_run box edits).isSeparate hseparate
    refine ⟨_, isObject_toValue hnow, fun field x previous box' hinsert => ?_,
      fun field previous box' herase => ⟨fun hfield => ?_, fun hfield => ?_⟩⟩
    · obtain ⟨hfield, hprevious, -⟩ := insert_eq_ok_iff.mp hinsert
      rw [find?_members_of_field hfield, ← find?_members_insert hinsert]
      exact ⟨hprevious, isObject_toValue ((follows_insert hinsert).isSeparate hnow)⟩
    · rw [find?_members_of_field hfield, ← find?_members_erase hfield, herase]
      have hbox' := (follows_erase (box.run edits) field).isSeparate hnow
      rw [herase] at hbox'
      exact ⟨(congrArg Prod.fst herase).symm, isObject_toValue hbox'⟩
    · rw [erase_reserved hnow hfield] at herase
      cases herase
      exact ⟨rfl, rfl⟩

/-- A box without revision and index, with an empty key and a key of the protocol inside a field:
read and written back, and with a field replaced, or its id erased, after a name was indexed. -/
theorem writeBack_keeps_bare :
    let address : Value := .array [.object [("_rev", .boolean true)]]
    let t : Table Value := [("", .null), ("_id", .string "mke"), ("address", address)]
    let box : Box := ⟨"mke", 0, [], [("", .null), ("address", address)]⟩
    let now : Box := { box with index := ["address"] }
    let u : Table Value := [("", .null), ("_id", .string "mke"),
      ("_index", .array [.string "address"]), ("_rev", .number (.natural 0)), ("address", address)]
    (Value.object t).Canonical ∧ form.decodeValue (.object t) = .ok box ∧
      (box.toValue.IsObject fun key => (t.find? key).or (default? key)) ∧
      now.toValue = .object u ∧
      (∃ box', now.insert "address" .null = .ok (some address, box') ∧
        box'.toValue.IsObject (Function.update u.find? "address" (some .null))) ∧
      (∃ box', now.erase "" = (some .null, box') ∧
        box'.toValue.IsObject (Function.update u.find? "" none)) ∧
      ∃ box', now.erase "_id" = (none, box') ∧ box'.toValue = .object u := by
  intro address t box now u
  have hread : Json.decode (Utf8.encode
      "\x7b\"address\":[\x7b\"_rev\":true\x7d],\"_id\":\"mke\",\"\":null\x7d") =
      .ok (.object t) := by decide +kernel
  have hcanonical := canonical_of_decode hread
  have hbox : form.decodeValue (.object t) = .ok box := by decide +kernel
  have hnow : box.run [.addIndex "address"] = now := by decide +kernel
  have hvalue : now.toValue = .object u := by decide +kernel
  obtain ⟨⟨_, ⟨_, he, -, rfl⟩, hback⟩, hedits⟩ := writeBack_keeps hcanonical hbox
  cases he
  obtain ⟨_, ⟨_, he', -, rfl⟩, hinsert, herase⟩ := hedits [.addIndex "address"]
  rw [hnow] at he' hinsert herase
  cases hvalue.symm.trans he'
  exact ⟨hcanonical, hbox, hback, hvalue, ⟨_, rfl, (hinsert "address" .null _ _ rfl).2⟩,
    ⟨_, rfl, ((herase "" _ _ rfl).1 (by decide)).2⟩,
    ⟨_, rfl, ((herase "_id" _ _ rfl).2 (by decide)).2.trans hvalue⟩⟩

end Box
end BoxClient
