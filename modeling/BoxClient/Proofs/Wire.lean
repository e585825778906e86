import BoxClient.Proofs.Json.Forms
import BoxClient.Proofs.Reachable
/-!
Boxes, queries and results survive the wire, on both routes: from their text and from their value.
The text of each is that of an object with its members in the order in which they are written; the
value is the normal form of that object. Boxes need that no field stands under a key of the
protocol, which holds of every box that a program can come by.
-/
namespace BoxClient

open Json Outcome

section
variable {α : Type} {form : Form α}

theorem list_ofValue_map {as : List α} {f : α → Value}
    (h : ∀ a ∈ as, form.ofValue (f a) = .ok a) :
    (Form.list form).ofValue (.array (as.map f)) = .ok as := by
  refine list_eq_ok_iff.mpr ⟨_, rfl, ?_⟩
  rw [List.forall₂_map_left_iff, List.forall₂_same]
  exact h

@[simp] theorem uint32_ofValue (n : UInt32) :
    Form.uint32.ofValue (.number (.natural n.toUInt64)) = .ok n := by
  have hn : n.toUInt64.toNat < Nat.pow 2 32 := n.toNat_lt
  simp only [Form.uint32, Form.unsigned, Form.convertNumber, if_pos hn, UInt32.toUInt32_toUInt64]

end

namespace Box

section
variable {box : Box} {t : Table Value} {d d' : Draft} {key : String} {v : Value} {n : Nat}

/-- A member is gathered from its text as it is from its value. -/
theorem Draft.reads (hfits : v.Fits n) (hv : v.Canonical) (key : String) :
    ReadsMember (Draft.read n) Draft.take key v := by
  intro d d' htake r hr
  rw [Draft.read]
  rw [Draft.take] at htake
  by_cases hid : key = idKey
  · rw [if_pos hid] at htake ⊢
    exact slot_reads (string_readsText v) hfits htake r hr
  rw [if_neg hid] at htake ⊢
  by_cases hrevision : key = revisionKey
  · rw [if_pos hrevision] at htake ⊢
    exact slot_reads (uint64_readsText v) hfits htake r hr
  rw [if_neg hrevision] at htake ⊢
  by_cases hindex : key = indexKey
  · rw [if_pos hindex] at htake ⊢
    exact slot_reads (list_readsText fun _ _ w _ => string_readsText w) hfits htake r hr
  rw [if_neg hindex] at htake ⊢
  cases htake
  rw [entry_reads (Value.reader_reads hfits) d.fields key r hr, hv.normal_eq]
  rfl

theorem form_readsText (ht : ∀ p ∈ t, p.2.Canonical) : form.ReadsText (.object t) := by
  intro n box hfits hbox r hr
  obtain ⟨n, rfl, hmembers⟩ := Value.fits_object.mp hfits
  obtain ⟨d, hfold, hfinish⟩ := bind_eq_ok.mp hbox
  have hreads := objectOf_reads
    (fun p hp => Draft.reads (hmembers p hp) (ht p hp) p.1) hfold r hr
  rw [Value.tail_chars_object]
  show readMembers n (Utf8.ofChars (Value.object t).chars.tail ++ r) = _
  rw [readMembers, hreads, ok_bind]
  dsimp only
  rw [hfinish]

theorem Draft.take_fields (ht : ∀ p ∈ t, isReserved p.1 = false) (d : Draft) :
    t.foldlM (fun d p => Draft.take d p.1 p.2) d =
      .ok { d with fields := d.fields.insertAll t } := by
  induction t generalizing d with
  | nil => rfl
  | cons p t ih =>
    rw [List.forall_mem_cons] at ht
    rw [List.foldlM_cons, Draft.take_field ht.1, ok_bind, ih ht.2]
    rfl

theorem ofValue_members (h : IsFields box.fields) :
    form.ofValue (.object box.members) = .ok box := by
  have hindex : (Form.list .string).ofValue (.array (box.index.map .string)) = .ok box.index :=
    listString_eq_ok_iff.mpr rfl
  have hfold : box.members.foldlM (fun d p => Draft.take d p.1 p.2) {} =
      .ok ⟨some box.id, some box.revision, some box.index, box.fields⟩ := by
    rw [members, List.foldlM_cons, Draft.take_id.mpr ⟨rfl, box.id, rfl, rfl⟩, ok_bind,
      List.foldlM_cons, Draft.take_revision.mpr ⟨rfl, box.revision, rfl, rfl⟩, ok_bind,
      List.foldlM_cons, Draft.take_index.mpr ⟨rfl, box.index, hindex, rfl⟩, ok_bind,
      Draft.take_fields h.unreserved]
    rw [show Table.insertAll [] box.fields = box.fields from Table.ofList_of_sorted h.sorted]
  show (_ >>= Draft.finish) = _
  rw [hfold]
  rfl

theorem not_mem_names_fields (h : IsSeparate box.fields) (key : String)
    (hkey : isReserved key = true) :
    key ∉ Table.names box.fields := by
  rw [Table.mem_names]
  intro hmem
  obtain ⟨v, hv⟩ := hmem
  have hfree := h.unreserved _ hv
  rw [hkey] at hfree
  cases hfree

/-- No two members have one name, as no field stands under a key of the protocol. -/
theorem nodup_members (h : IsSeparate box.fields) : (Table.names box.members).Nodup := by
  have hid := not_mem_names_fields h idKey (by decide)
  have hrevision := not_mem_names_fields h revisionKey (by decide)
  have hindex := not_mem_names_fields h indexKey (by decide)
  have hnames : Table.names box.members =
      idKey :: revisionKey :: indexKey :: Table.names box.fields := rfl
  rw [hnames]
  simp only [List.nodup_cons, List.mem_cons, not_or]
  exact ⟨⟨Draft.revision_ne_id.symm, Draft.index_ne_id.symm, hid⟩,
    ⟨Draft.index_ne_revision.symm, hrevision⟩, hindex, h.sorted.nodup_names⟩

theorem find?_members (box : Box) (key : String) :
    Table.find? box.members key =
      if key = idKey then some (.string box.id)
      else if key = revisionKey then some (.number (.natural box.revision))
      else if key = indexKey then some (.array (box.index.map .string))
      else box.fields.find? key := by
  simp only [members, Table.find?_cons]

/-- What a box writes says what the box is. -/
theorem isBox_toValue (h : IsFields box.fields) : IsBox box.toValue box := by
  have hfind (key : String) : (Table.ofList box.members).find? key = Table.find? box.members key :=
    Table.find?_ofList (nodup_members h.separate) key
  refine ⟨_, rfl, ?_, .inl ?_, .inl ?_, ?_⟩
  · rw [hfind]
    rfl
  · rw [hfind]
    rfl
  · rw [hfind]
    rfl
  · refine h.sorted.ext ((Table.sorted_ofList _).filter _) fun key => ?_
    rw [Table.find?_filter (fun name => !isReserved name), hfind]
    cases hkey : isReserved key with
    | true => exact Table.find?_eq_none_iff.mpr (not_mem_names_fields h.separate key hkey)
    | false =>
      obtain ⟨hid, hrevision, hindex⟩ := Draft.ne_of_not_reserved hkey
      rw [find?_members, if_neg hid, if_neg hrevision, if_neg hindex]
      rfl

theorem canonical_members (h : IsFields box.fields) : ∀ p ∈ box.members, p.2.Canonical := by
  have hindex : ∀ v ∈ box.index.map Value.string, v.Canonical := by
    intro v hv
    obtain ⟨name, -, rfl⟩ := List.mem_map.mp hv
    exact .string name
  simp only [members, List.forall_mem_cons]
  exact ⟨.string _, .number _, .array hindex, h.canonical⟩

/-- The value of a box is the normal form of the object that is written. -/
theorem normal_members (h : IsFields box.fields) :
    (Value.object box.members).normal = box.toValue := by
  rw [Value.normal, Value.normalMembers_eq,
    Value.normal_mapValues fun p hp => (canonical_members h p hp).normal_eq, toValue]

theorem canonical_toValue (h : IsFields box.fields) : box.toValue.Canonical :=
  .object (Table.sorted_ofList _) fun p hp => canonical_members h p (Table.mem_of_mem_ofList hp)

theorem ofValue_toValue (h : IsFields box.fields) : form.ofValue box.toValue = .ok box :=
  (canonical_toValue h).ofValue_box_iff.mpr (isBox_toValue h)

end

end Box

namespace Query

section
variable {q : Query} {d : Draft} {key : String} {v : Value} {n : Nat}

@[simp] theorem count_ne_templates : countKey ≠ templatesKey := by decide

@[simp] theorem offset_ne_templates : offsetKey ≠ templatesKey := by decide

@[simp] theorem offset_ne_count : offsetKey ≠ countKey := by decide

theorem canonical_templatesValue (h : q.Canonical) : q.templatesValue.Canonical := by
  refine .array fun v hv => ?_
  obtain ⟨t, ht, rfl⟩ := List.mem_map.mp hv
  exact h t ht

/-- The templates are gathered from their text as they are from their value. -/
theorem Draft.reads_templates (hfits : v.Fits n) (hv : v.Canonical) :
    ReadsMember (Draft.read n) Draft.take templatesKey v := by
  have htables : ∀ vs, v = .array vs → ∀ w ∈ vs, Form.table.ReadsText w := by
    rintro vs rfl w hw
    cases hv with
    | array hvs => exact table_readsText (hvs w hw)
  intro d d' htake r hr
  rw [Draft.take, if_pos rfl] at htake
  rw [Draft.read, if_pos rfl]
  exact slot_reads (list_readsText htables) hfits htake r hr

/-- A page number is gathered from its text as it is from its value. -/
theorem Draft.reads_page {m : Number} (hfits : (Value.number m).Fits n)
    (hkey : key = countKey ∨ key = offsetKey) :
    ReadsMember (Draft.read n) Draft.take key (.number m) := by
  have hreads := optional_readsText_number (uint32_readsText (.number m))
  intro d d' htake r hr
  rw [Draft.read]
  rw [Draft.take] at htake
  rcases hkey with rfl | rfl
  · rw [if_neg count_ne_templates, if_pos rfl] at htake ⊢
    exact slot_reads hreads hfits htake r hr
  · rw [if_neg offset_ne_templates, if_neg offset_ne_count, if_pos rfl] at htake ⊢
    exact slot_reads hreads hfits htake r hr

theorem mem_pageMember {page : Option UInt32} {p : String × Value}
    (h : p ∈ pageMember key page) : ∃ m, p = (key, .number m) := by
  cases page with
  | none => cases h
  | some m => exact ⟨_, List.mem_singleton.mp h⟩

theorem mem_members {p : String × Value} (h : p ∈ q.members) :
    p = (templatesKey, q.templatesValue) ∨
      ∃ key m, (key = countKey ∨ key = offsetKey) ∧ p = (key, .number m) := by
  rw [members, List.mem_cons, List.mem_append] at h
  rcases h with h | h | h
  · exact .inl h
  · obtain ⟨m, rfl⟩ := mem_pageMember h
    exact .inr ⟨countKey, m, .inl rfl, rfl⟩
  · obtain ⟨m, rfl⟩ := mem_pageMember h
    exact .inr ⟨offsetKey, m, .inr rfl, rfl⟩

theorem form_readsText (h : q.Canonical) : form.ReadsText (.object q.members) := by
  intro n q' hfits hq r hr
  obtain ⟨n, rfl, hmembers⟩ := Value.fits_object.mp hfits
  obtain ⟨d, hfold, hfinish⟩ := bind_eq_ok.mp hq
  have hread : ∀ p ∈ q.members, ReadsMember (Draft.read n) Draft.take p.1 p.2 := by
    intro p hp
    have hp' := hmembers p hp
    rcases mem_members hp with rfl | ⟨key, m, hkey, rfl⟩
    · exact Draft.reads_templates hp' (canonical_templatesValue h)
    · exact Draft.reads_page hp' hkey
  have hreads := objectOf_reads hread hfold r hr
  cases hfinish
  rw [Value.tail_chars_object]
  show readMembers n (Utf8.ofChars (Value.object q.members).chars.tail ++ r) = _
  rw [readMembers, hreads]
  rfl

theorem Draft.take_templates (h : d.templates = none) (q : Query) :
    d.take templatesKey q.templatesValue = .ok { d with templates := some q.templates } := by
  have hvalue : (Form.list .table).ofValue q.templatesValue = .ok q.templates :=
    list_ofValue_map fun _ _ => rfl
  rw [Draft.take, if_pos rfl, fillOfValue_eq_ok_iff.mpr ⟨h, _, hvalue, rfl⟩]
  rfl

@[simp] theorem page_ofValue (m : UInt32) :
    (Form.optional .uint32).ofValue (.number (.natural m.toUInt64)) = .ok (some m) := by
  show some <$> Form.uint32.ofValue (.number (.natural m.toUInt64)) = _
  rw [uint32_ofValue]
  rfl

theorem Draft.take_count (h : d.count = none) (page : Option UInt32) :
    (pageMember countKey page).foldlM (fun d p => Draft.take d p.1 p.2) d =
      .ok { d with count := page.map some } := by
  cases page with
  | none =>
    cases d
    cases h
    rfl
  | some m =>
    rw [pageMember, List.foldlM_cons, Draft.take, if_neg count_ne_templates, if_pos rfl,
      fillOfValue_eq_ok_iff.mpr ⟨h, _, page_ofValue m, rfl⟩]
    rfl

theorem Draft.take_offset (h : d.offset = none) (page : Option UInt32) :
    (pageMember offsetKey page).foldlM (fun d p => Draft.take d p.1 p.2) d =
      .ok { d with offset := page.map some } := by
  cases page with
  | none =>
    cases d
    cases h
    rfl
  | some m =>
    rw [pageMember, List.foldlM_cons, Draft.take, if_neg offset_ne_templates,
      if_neg offset_ne_count, if_pos rfl,
      fillOfValue_eq_ok_iff.mpr ⟨h, _, page_ofValue m, rfl⟩]
    rfl

theorem Draft.finish_pages (q : Query) :
    Draft.finish ⟨some q.templates, q.count.map some, q.offset.map some⟩ = q := by
  rcases q with ⟨templates, count, offset⟩
  cases count <;> cases offset <;> rfl

theorem ofValue_members (q : Query) : form.ofValue (.object q.members) = .ok q := by
  show (_ >>= fun d => Except.ok (Draft.finish d)) = _
  rw [members, List.foldlM_cons, Draft.take_templates rfl, ok_bind, List.foldlM_append,
    Draft.take_count rfl, ok_bind, Draft.take_offset rfl, ok_bind]
  exact congrArg Except.ok (Draft.finish_pages q)

/-- Sorted, the page numbers come first. -/
theorem ofList_members (q : Query) : Table.ofList q.members =
    pageMember countKey q.count ++ pageMember offsetKey q.offset ++
      [(templatesKey, q.templatesValue)] := by
  have hcount : countKey < templatesKey := by decide
  have hoffset : offsetKey < templatesKey := by decide
  have hpages : ¬ offsetKey < countKey := by decide
  rw [members, Table.ofList, Table.insertAll]
  cases q.count <;> cases q.offset <;>
    simp [pageMember, Table.insert, hcount, hoffset, hpages]

theorem ofValue_toValue (q : Query) : form.ofValue q.toValue = .ok q := by
  show ((Table.ofList q.members).foldlM (fun d p => Draft.take d p.1 p.2) {} >>=
    fun d => Except.ok (Draft.finish d)) = _
  rw [ofList_members, List.foldlM_append, List.foldlM_append, Draft.take_count rfl, ok_bind,
    Draft.take_offset rfl, ok_bind, List.foldlM_cons, Draft.take_templates rfl, ok_bind,
    List.foldlM_nil, pure_eq, ok_bind]
  exact congrArg Except.ok (Draft.finish_pages q)

theorem canonical_members (h : q.Canonical) : ∀ p ∈ q.members, p.2.Canonical := by
  intro p hp
  rcases mem_members hp with rfl | ⟨key, m, -, rfl⟩
  · exact canonical_templatesValue h
  · exact .number m

theorem normal_members (h : q.Canonical) : (Value.object q.members).normal = q.toValue := by
  rw [Value.normal, Value.normalMembers_eq,
    Value.normal_mapValues fun p hp => (canonical_members h p hp).normal_eq, toValue]

theorem canonical_toValue (h : q.Canonical) : q.toValue.Canonical :=
  .object (Table.sorted_ofList _) fun p hp => canonical_members h p (Table.mem_of_mem_ofList hp)

end

end Query

namespace QueryResult

def members (result : QueryResult) : List (String × Value) := [
  (countKey, .number (.natural result.count)),
  (totalKey, .number (.natural result.total)),
  (dataKey, .array (result.data.map fun box => .object box.members))]

section
variable {result : QueryResult} {t : Table Value} {key : String} {v : Value} {n : Nat}

/-- A member is gathered from its text as it is from its value. -/
theorem Draft.reads (hfits : v.Fits n) (hkey : key = countKey ∨ key = totalKey ∨ key = dataKey)
    (hdata : ∀ vs, v = .array vs → ∀ w ∈ vs, Box.form.ReadsText w) :
    ReadsMember (Draft.read n) Draft.take key v := by
  intro d d' htake r hr
  rw [Draft.read]
  rw [Draft.take] at htake
  rcases hkey with rfl | rfl | rfl
  · rw [if_pos rfl] at htake ⊢
    exact slot_reads (uint64_readsText v) hfits htake r hr
  · rw [if_neg total_ne_count, if_pos rfl] at htake ⊢
    exact slot_reads (uint64_readsText v) hfits htake r hr
  · rw [if_neg data_ne_count, if_neg data_ne_total, if_pos rfl] at htake ⊢
    exact slot_reads (list_readsText hdata) hfits htake r hr

theorem form_readsText (h : ∀ box ∈ result.data, Box.IsFields box.fields) :
    form.ReadsText (.object result.members) := by
  have hboxes : ∀ vs, Value.array (result.data.map fun box => .object box.members) = .array vs →
      ∀ w ∈ vs, Box.form.ReadsText w := by
    intro vs he w hw
    cases he
    obtain ⟨box, hbox, rfl⟩ := List.mem_map.mp hw
    exact Box.form_readsText (Box.canonical_members (h box hbox))
  intro n result' hfits hresult r hr
  obtain ⟨n, rfl, hmembers⟩ := Value.fits_object.mp hfits
  obtain ⟨d, hfold, hfinish⟩ := bind_eq_ok.mp hresult
  have hread : ∀ p ∈ result.members, ReadsMember (Draft.read n) Draft.take p.1 p.2 := by
    simp only [members, List.forall_mem_cons] at hmembers ⊢
    obtain ⟨hcount, htotal, hdata, -⟩ := hmembers
    exact ⟨Draft.reads hcount (.inl rfl) nofun, Draft.reads htotal (.inr (.inl rfl)) nofun,
      Draft.reads hdata (.inr (.inr rfl)) hboxes, nofun⟩
  have hreads := objectOf_reads hread hfold r hr
  cases hfinish
  rw [Value.tail_chars_object]
  show readMembers n (Utf8.ofChars (Value.object result.members).chars.tail ++ r) = _
  rw [readMembers, hreads]
  rfl

theorem ofValue_members (h : ∀ box ∈ result.data, Box.IsFields box.fields) :
    form.ofValue (.object result.members) = .ok result := by
  have hdata : (Form.list Box.form).ofValue
      (.array (result.data.map fun box => .object box.members)) = .ok result.data :=
    list_ofValue_map fun box hbox => Box.ofValue_members (h box hbox)
  show (_ >>= fun d => Except.ok (Draft.finish d)) = _
  rw [members, List.foldlM_cons, Draft.take_count.mpr ⟨rfl, result.count, rfl, rfl⟩, ok_bind,
    List.foldlM_cons, Draft.take_total.mpr ⟨rfl, result.total, rfl, rfl⟩, ok_bind,
    List.foldlM_cons, Draft.take_data.mpr ⟨rfl, result.data, hdata, rfl⟩]
  rfl

theorem ofValue_toValue (h : ∀ box ∈ result.data, Box.IsFields box.fields) :
    form.ofValue result.toValue = .ok result := by
  have hdata : (Form.list Box.form).ofValue (.array (result.data.map Box.toValue)) =
      .ok result.data :=
    list_ofValue_map fun box hbox => Box.ofValue_toValue (h box hbox)
  have hsorted : result.toValue = .object [
      (countKey, .number (.natural result.count)),
      (dataKey, .array (result.data.map Box.toValue)),
      (totalKey, .number (.natural result.total))] := by
    have hcount : ¬ totalKey < countKey := by decide
    have hcount' : ¬ dataKey < countKey := by decide
    have htotal : dataKey < totalKey := by decide
    simp [toValue, Table.ofList, Table.insertAll, Table.insert, hcount, hcount', htotal]
  rw [hsorted]
  show (_ >>= fun d => Except.ok (Draft.finish d)) = _
  rw [List.foldlM_cons, Draft.take_count.mpr ⟨rfl, result.count, rfl, rfl⟩, ok_bind,
    List.foldlM_cons, Draft.take_data.mpr ⟨rfl, result.data, hdata, rfl⟩, ok_bind,
    List.foldlM_cons, Draft.take_total.mpr ⟨rfl, result.total, rfl, rfl⟩]
  rfl

theorem normal_members (h : ∀ box ∈ result.data, Box.IsFields box.fields) :
    (Value.object result.members).normal = result.toValue := by
  have hboxes : (result.data.map fun box => Value.object box.members).map Value.normal =
      result.data.map Box.toValue := by
    rw [List.map_map]
    exact List.map_congr_left fun box hbox => Box.normal_members (h box hbox)
  simp only [members, Value.normal, Value.normalMembers, Value.normalItems_eq, hboxes]
  rfl

end

end QueryResult

/-- From its text and from its value the form reads `a`, and the text decodes to the value. -/
def RoundTrips {α : Type} (form : Form α) (text : String) (value : Value) (a : α) : Prop :=
  form.decode (Utf8.encode text) = .ok a ∧ form.decodeValue value = .ok a ∧
    Json.decode (Utf8.encode text) = .ok value

/-- An object that is written, without floats and not too deep, makes the round trip, if the form
reads it and its normal form alike. -/
theorem roundTrips_of_readsText {α : Type} {form : Form α} {written value : Value} {a : α}
    (hreads : form.ReadsText written) (hfits : written.Fits nestingLimit)
    (hwritten : form.ofValue written = .ok a) (hvalue : form.ofValue value = .ok a)
    (hnormal : written.normal = value) : RoundTrips form written.text value a := by
  refine ⟨hreads.decode_text hfits hwritten, ?_, ?_⟩
  · rw [Form.decodeValue, hvalue]
    rfl
  · rw [Json.decode_text hfits, hnormal]

/-- Boxes, queries and results come back from their texts and from their values, and the text of
each decodes to its value. -/
theorem wire_roundTrips :
    (∀ box : Box, box.Reachable → (Value.object box.members).Fits nestingLimit →
      RoundTrips Box.form box.text box.toValue box) ∧
    (∀ q : Query, q.Reachable → (Value.object q.members).Fits nestingLimit →
      RoundTrips Query.form q.text q.toValue q) ∧
    (∀ result : QueryResult, (∀ box ∈ result.data, box.Reachable) →
      (Value.object result.members).Fits nestingLimit →
      RoundTrips QueryResult.form result.text result.toValue result) := by
  refine ⟨fun box hbox hfits => ?_, fun q hq hfits => ?_, fun result hresult hfits => ?_⟩
  · have hfields := hbox.isFields
    exact roundTrips_of_readsText (Box.form_readsText (Box.canonical_members hfields)) hfits
      (Box.ofValue_members hfields) (Box.ofValue_toValue hfields) (Box.normal_members hfields)
  · exact roundTrips_of_readsText (Query.form_readsText hq.canonical) hfits
      (Query.ofValue_members q) (Query.ofValue_toValue q) (Query.normal_members hq.canonical)
  · have hfields := fun box hbox => (hresult box hbox).isFields
    exact roundTrips_of_readsText (QueryResult.form_readsText hfields) hfits
      (QueryResult.ofValue_members hfields) (QueryResult.ofValue_toValue hfields)
      (QueryResult.normal_members hfields)

/-- A box with a line break in its id and values inside values, a query for it, and its result. -/
theorem wire_roundTrips_nested :
    let template : Template := [("a", .object [("n", .number (.negative 0))])]
    let box : Box := ⟨"b\n1", 3, ["a"], template ++ [("é", .array [.null, .array []])]⟩
    let q : Query := ⟨[template], some 10, none⟩
    let result : QueryResult := ⟨1, 2, [box]⟩
    (box.Reachable ∧ (Value.object box.members).Fits nestingLimit ∧
      RoundTrips Box.form box.text box.toValue box) ∧
    (q.Reachable ∧ (Value.object q.members).Fits nestingLimit ∧
      RoundTrips Query.form q.text q.toValue q) ∧
    ((∀ box ∈ result.data, box.Reachable) ∧ (Value.object result.members).Fits nestingLimit ∧
      RoundTrips QueryResult.form result.text result.toValue result) := by
  intro template box q result
  have hread : Box.form.read 3 (Utf8.encode box.text) = .ok (box, []) := by decide +kernel
  have hbox : box.Reachable := .read hread
  have hboxes : ∀ box ∈ result.data, box.Reachable := by
    intro box' hbox'
    obtain rfl := List.mem_singleton.mp hbox'
    exact hbox
  have hqread : Query.form.read 4 (Utf8.encode q.text) = .ok (q, []) := by decide +kernel
  have hq : q.Reachable := .read hqread
  have hbox' : (Value.object box.members).Fits nestingLimit := by decide +kernel
  have hq' : (Value.object q.members).Fits nestingLimit := by decide +kernel
  have hresult : (Value.object result.members).Fits nestingLimit := by decide +kernel
  obtain ⟨hboxTrip, hqTrip, hresultTrip⟩ := wire_roundTrips
  exact ⟨⟨hbox, hbox', hboxTrip box hbox hbox'⟩, ⟨hq, hq', hqTrip q hq hq'⟩,
    hboxes, hresult, hresultTrip result hboxes hresult⟩

end BoxClient
