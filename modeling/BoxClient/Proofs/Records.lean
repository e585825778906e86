import BoxClient.Proofs.Json.Canonical
import BoxClient.QueryResult
import Mathlib.Data.List.Induction
/-!
Boxes and query results read from values. A record is gathered member by member in a draft, from
members in any order. The draft at the end is described by what the table of all members has under
the keys of the slots, and there is one only if none of these keys is repeated.
-/
namespace BoxClient.Json

open Outcome

@[simp] theorem string_eq_ok_iff {v : Value} {s : String} :
    Form.string.ofValue v = .ok s ↔ v = .string s := by
  cases v <;> simp [Form.string]

@[simp] theorem uint64_eq_ok_iff {v : Value} {n : UInt64} :
    Form.uint64.ofValue v = .ok n ↔ v = .number (.natural n) := by
  cases v with
  | number m => cases m <;> simp [Form.uint64, Form.unsigned, Form.convertNumber]
  | _ => simp [Form.uint64, Form.unsigned]

theorem list_eq_ok_iff {α : Type} {form : Form α} {v : Value} {as : List α} :
    (Form.list form).ofValue v = .ok as ↔
      ∃ vs, v = .array vs ∧ List.Forall₂ (fun v a => form.ofValue v = .ok a) vs as := by
  cases v with
  | array vs => simp [Form.list, mapM_eq_ok_iff]
  | _ => simp [Form.list]

@[simp] theorem listString_eq_ok_iff {v : Value} {ss : List String} :
    (Form.list Form.string).ofValue v = .ok ss ↔ v = .array (ss.map .string) := by
  have hmap (vs : List Value) :
      List.Forall₂ (fun v s => v = Value.string s) vs ss ↔ vs = ss.map .string := by
    rw [← List.forall₂_eq_eq_eq, List.forall₂_map_right_iff]
  simp only [list_eq_ok_iff, string_eq_ok_iff, hmap]
  constructor
  · intro h
    obtain ⟨vs, rfl, rfl⟩ := h
    rfl
  · intro h
    exact ⟨_, h, rfl⟩

section
variable {α σ : Type} {form : Form α} {Says : Value → α → Prop} {t : Table Value}
  {key name : String} {v : Value} {member : Option Value} {slot slot' : Option α} {a a₀ : α}
  {d start : σ}

/-- The slot holds what the member is read as, if there is one. -/
def Filled (form : Form α) (member : Option Value) (slot : Option α) : Prop :=
  member.map form.ofValue = slot.map .ok

@[simp] theorem filled_empty : Filled form none slot ↔ slot = none := by
  simp [Filled, eq_comm]

@[simp] theorem filled_insert_ne (h : key ≠ name) :
    Filled form ((t.insert name v).find? key) slot ↔ Filled form (t.find? key) slot := by
  rw [Table.find?_insert, if_neg h]

@[simp] theorem filled_insert_self :
    Filled form ((t.insert name v).find? name) slot ↔
      ∃ a, form.ofValue v = .ok a ∧ slot = some a := by
  rw [Filled, Table.find?_insert, if_pos rfl]
  cases slot <;> simp [eq_comm]

/-- A slot stays empty only for want of the member. -/
theorem filled_none : Filled form (t.find? key) none ↔ key ∉ t.names := by
  rw [← Table.find?_eq_none_iff, Filled]
  simp

theorem filled_some :
    Filled form member (some a) ↔ ∃ v, member = some v ∧ form.ofValue v = .ok a := by
  rw [Filled]
  cases member <;> simp

/-- A part of a record: what its member says, or the default if there is none. -/
def IsPart (Says : Value → α → Prop) (default : α) : (member : Option Value) → α → Prop
  | some v, a => Says v a
  | none, a => a = default

theorem isPart_iff : IsPart Says a₀ member a ↔
    (∃ v, member = some v ∧ Says v a) ∨ (member = none ∧ a = a₀) := by
  cases member <;> simp [IsPart]

/-- A slot and its default together give the part. -/
theorem exists_filled_getD (hform : ∀ v, member = some v → ∀ a, form.ofValue v = .ok a ↔ Says v a) :
    (∃ slot, Filled form member slot ∧ slot.getD a₀ = a) ↔ IsPart Says a₀ member a := by
  cases member with
  | none =>
    simp [IsPart, eq_comm]
  | some v =>
    rw [IsPart, ← hform v rfl]
    constructor
    · rintro ⟨slot, hslot, rfl⟩
      cases slot with
      | none => cases hslot
      | some a => exact Option.some.inj hslot
    · intro ha
      exact ⟨some a, congrArg some ha, rfl⟩

@[simp] theorem fillOfValue_eq_ok_iff :
    fillOfValue name slot form v = .ok slot' ↔
      slot = none ∧ ∃ a, form.ofValue v = .ok a ∧ slot' = some a := by
  cases slot with
  | some a => simp [fillOfValue]
  | none => cases h : form.ofValue v <;> simp [fillOfValue, h, eq_comm]

def Once (keys : List String) (ps : Table Value) : Prop := ∀ key ∈ keys, ps.names.count key ≤ 1

instance (keys : List String) (ps : Table Value) : Decidable (Once keys ps) :=
  inferInstanceAs (Decidable (∀ key ∈ keys, ps.names.count key ≤ 1))

@[simp] theorem once_nil {keys : List String} : Once keys [] := fun _ _ => Nat.zero_le 1

/-- A sorted table has every key once. -/
theorem once_of_sorted {keys : List String} (h : t.Sorted) : Once keys t :=
  fun key _ => List.nodup_iff_count_le_one.mp h.nodup_names key

/-- A key that is wanted once is not there before. -/
theorem once_concat {keys : List String} {ps : Table Value} :
    Once keys (ps ++ [(name, v)]) ↔ Once keys ps ∧ (name ∈ keys → name ∉ ps.names) := by
  have hnames : Table.names (ps ++ [(name, v)]) = ps.names ++ [name] := List.map_append
  simp only [Once, hnames, List.count_append, List.count_singleton, beq_iff_eq,
    ← List.count_eq_zero]
  grind

/-- A description of drafts that every member brings one step further describes the draft of all
members. -/
theorem foldlM_eq_ok_iff {take : σ → String → Value → Except Misfit σ}
    (Of : Table Value → σ → Prop) (hstart : ∀ d, Of [] d ↔ d = start)
    (hstep : ∀ ps name v d, Of (ps ++ [(name, v)]) d ↔ ∃ d', Of ps d' ∧ take d' name v = .ok d)
    (ps : Table Value) : ps.foldlM (fun d p => take d p.1 p.2) start = .ok d ↔ Of ps d := by
  induction ps using List.reverseRecOn generalizing d with
  | nil => rw [List.foldlM_nil, pure_eq, Except.ok.injEq, hstart, eq_comm]
  | append_singleton ps p ih =>
    rw [List.foldlM_append, bind_eq_ok, hstep ps p.1 p.2 d]
    simp only [ih, List.foldlM_cons, List.foldlM_nil, bind_pure]

end

end BoxClient.Json

namespace BoxClient

open Json Outcome

/-- A box and its value: an id, a revision and a list of names to index where they are not the
default, and every other member as a field. -/
def IsBox (v : Value) (box : Box) : Prop :=
  ∃ t : Table Value, v = .object t ∧ t.find? Box.idKey = some (.string box.id) ∧
    (t.find? Box.revisionKey = some (.number (.natural box.revision)) ∨
      t.find? Box.revisionKey = none ∧ box.revision = 0) ∧
    (t.find? Box.indexKey = some (.array (box.index.map .string)) ∨
      t.find? Box.indexKey = none ∧ box.index = []) ∧
    box.fields = t.filter fun p => !Box.isReserved p.1

namespace Box

def Draft.Of (t : Table Value) (d : Draft) : Prop :=
  Filled .string (t.find? idKey) d.id ∧ Filled .uint64 (t.find? revisionKey) d.revision ∧
    Filled (.list .string) (t.find? indexKey) d.index ∧
    d.fields = t.filter fun p => !isReserved p.1

theorem Draft.of_nil (d : Draft) : Draft.Of [] d ↔ d = {} := by
  constructor
  · intro h
    obtain ⟨hid, hrevision, hindex, hfields⟩ := h
    rw [Table.find?_nil, filled_empty] at hid hrevision hindex
    cases d
    simp_all
  · rintro rfl
    exact ⟨filled_empty.mpr rfl, filled_empty.mpr rfl, filled_empty.mpr rfl, rfl⟩

section
variable {t ps : Table Value} {name : String} {v : Value} {d d' : Draft} {box : Box}

namespace Draft

@[simp] theorem revision_ne_id : revisionKey ≠ idKey := by decide

@[simp] theorem index_ne_id : indexKey ≠ idKey := by decide

@[simp] theorem index_ne_revision : indexKey ≠ revisionKey := by decide

theorem take_id :
    Draft.take d' idKey v = .ok d ↔
      d'.id = none ∧ ∃ s, Form.string.ofValue v = .ok s ∧ d = { d' with id := some s } := by
  simp [Draft.take]
  grind

theorem take_revision :
    Draft.take d' revisionKey v = .ok d ↔
      d'.revision = none ∧
        ∃ n, Form.uint64.ofValue v = .ok n ∧ d = { d' with revision := some n } := by
  simp [Draft.take]
  grind

theorem take_index :
    Draft.take d' indexKey v = .ok d ↔
      d'.index = none ∧
        ∃ ss, (Form.list .string).ofValue v = .ok ss ∧ d = { d' with index := some ss } := by
  simp [Draft.take]
  grind

theorem ne_of_not_reserved (h : isReserved name = false) :
    name ≠ idKey ∧ name ≠ revisionKey ∧ name ≠ indexKey := by
  simpa [isReserved, reservedKeys] using h

/-- Every key that is not reserved names a field. -/
theorem take_field (h : isReserved name = false) :
    Draft.take d' name v = .ok { d' with fields := d'.fields.insert name v } := by
  obtain ⟨hid, hrevision, hindex⟩ := ne_of_not_reserved h
  rw [Draft.take, if_neg hid, if_neg hrevision, if_neg hindex]
  rfl

/-- The table of the fields, when a member comes in. -/
theorem filter_insert (t : Table Value) (name : String) (v : Value) (ht : t.Sorted) :
    (t.insert name v).filter (fun p => !isReserved p.1) =
      if isReserved name then t.filter fun p => !isReserved p.1
      else Table.insert name v (t.filter fun p => !isReserved p.1) := by
  have hfilter := fun ps : Table Value => Table.ofList_filter (fun name => !isReserved name) ps
  have hinsert := Table.ofList_concat t name v
  rw [Table.ofList_of_sorted ht] at hinsert
  have hsorted := ht.filter fun p => !isReserved p.1
  rw [← hinsert, ← hfilter, List.filter_append]
  cases h : isReserved name with
  | true => simp [h, Table.ofList_of_sorted hsorted]
  | false => simp [h, Table.ofList_concat, Table.ofList_of_sorted hsorted]

section
variable (ht : t.Sorted)
include ht

/-- The slot of the id takes the first id. -/
theorem of_insert_id :
    idKey ∉ t.names ∧ Draft.Of (t.insert idKey v) d ↔
      ∃ d', Draft.Of t d' ∧ Draft.take d' idKey v = .ok d := by
  have hreserved : isReserved idKey = true := by decide
  simp only [Draft.Of, take_id, filled_insert_self, filled_insert_ne revision_ne_id,
    filled_insert_ne index_ne_id, filter_insert t idKey v ht, hreserved, if_true]
  constructor
  · rintro ⟨hnew, ⟨s, hs, hid⟩, hrevision, hindex, hfields⟩
    exact ⟨{ d with id := none }, ⟨filled_none.mpr hnew, hrevision, hindex, hfields⟩, rfl, s, hs,
      by rw [← hid]⟩
  · rintro ⟨d', ⟨hid, hrevision, hindex, hfields⟩, hnone, s, hs, rfl⟩
    rw [hnone, filled_none] at hid
    exact ⟨hid, ⟨s, hs, rfl⟩, hrevision, hindex, hfields⟩

theorem of_insert_revision :
    revisionKey ∉ t.names ∧ Draft.Of (t.insert revisionKey v) d ↔
      ∃ d', Draft.Of t d' ∧ Draft.take d' revisionKey v = .ok d := by
  have hreserved : isReserved revisionKey = true := by decide
  simp only [Draft.Of, take_revision, filled_insert_self, filled_insert_ne revision_ne_id.symm,
    filled_insert_ne index_ne_revision, filter_insert t revisionKey v ht, hreserved, if_true]
  constructor
  · rintro ⟨hnew, hid, ⟨n, hn, hrevision⟩, hindex, hfields⟩
    exact ⟨{ d with revision := none }, ⟨hid, filled_none.mpr hnew, hindex, hfields⟩, rfl, n, hn,
      by rw [← hrevision]⟩
  · rintro ⟨d', ⟨hid, hrevision, hindex, hfields⟩, hnone, n, hn, rfl⟩
    rw [hnone, filled_none] at hrevision
    exact ⟨hrevision, hid, ⟨n, hn, rfl⟩, hindex, hfields⟩

theorem of_insert_index :
    indexKey ∉ t.names ∧ Draft.Of (t.insert indexKey v) d ↔
      ∃ d', Draft.Of t d' ∧ Draft.take d' indexKey v = .ok d := by
  have hreserved : isReserved indexKey = true := by decide
  simp only [Draft.Of, take_index, filled_insert_self, filled_insert_ne index_ne_id.symm,
    filled_insert_ne index_ne_revision.symm, filter_insert t indexKey v ht, hreserved, if_true]
  constructor
  · rintro ⟨hnew, hid, hrevision, ⟨ss, hss, hindex⟩, hfields⟩
    exact ⟨{ d with index := none }, ⟨hid, hrevision, filled_none.mpr hnew, hfields⟩, rfl, ss, hss,
      by rw [← hindex]⟩
  · rintro ⟨d', ⟨hid, hrevision, hindex, hfields⟩, hnone, ss, hss, rfl⟩
    rw [hnone, filled_none] at hindex
    exact ⟨hindex, hid, hrevision, ⟨ss, hss, rfl⟩, hfields⟩

/-- The fields take any other member, a new value in the place of an old one. -/
theorem of_insert_field (h : isReserved name = false) :
    Draft.Of (t.insert name v) d ↔ ∃ d', Draft.Of t d' ∧ Draft.take d' name v = .ok d := by
  obtain ⟨hid, hrevision, hindex⟩ := ne_of_not_reserved h
  simp only [Draft.Of, take_field h, Except.ok.injEq, filled_insert_ne hid.symm,
    filled_insert_ne hrevision.symm, filled_insert_ne hindex.symm, filter_insert t name v ht, h,
    Bool.false_eq_true, if_false]
  constructor
  · rintro ⟨hid, hrevision, hindex, hfields⟩
    exact ⟨{ d with fields := t.filter fun p => !isReserved p.1 }, ⟨hid, hrevision, hindex, rfl⟩,
      by rw [← hfields]⟩
  · rintro ⟨d', ⟨hid, hrevision, hindex, hfields⟩, rfl⟩
    exact ⟨hid, hrevision, hindex, by rw [hfields]⟩

end

/-- A member that is taken comes into the table, unless its key is wanted once and was there. -/
theorem of_concat (ps : Table Value) (name : String) (v : Value) (d : Draft) :
    Once reservedKeys (ps ++ [(name, v)]) ∧ Draft.Of (Table.ofList (ps ++ [(name, v)])) d ↔
      ∃ d', (Once reservedKeys ps ∧ Draft.Of (Table.ofList ps) d') ∧
        Draft.take d' name v = .ok d := by
  have ht := Table.sorted_ofList ps
  rw [once_concat, Table.ofList_concat, ← Table.mem_names_ofList]
  simp only [and_assoc, exists_and_left]
  refine and_congr_right fun _ => ?_
  cases hreserved : isReserved name with
  | true =>
    have hmem : name ∈ reservedKeys := List.contains_iff_mem.mp hreserved
    have hcases : name = idKey ∨ name = revisionKey ∨ name = indexKey := by
      simpa [reservedKeys] using hmem
    rw [imp_iff_right hmem]
    rcases hcases with rfl | rfl | rfl
    · exact of_insert_id ht
    · exact of_insert_revision ht
    · exact of_insert_index ht
  | false =>
    have hmem : name ∉ reservedKeys := fun h => by
      rw [isReserved, List.contains_iff_mem.mpr h] at hreserved
      cases hreserved
    rw [and_iff_right fun h => absurd h hmem]
    exact of_insert_field ht hreserved

/-- Members that are taken one after the other give the draft of their table, if no key of the
protocol is repeated among them. -/
theorem foldlM_take (ps : Table Value) (d : Draft) :
    ps.foldlM (fun d p => Draft.take d p.1 p.2) {} = .ok d ↔
      Once reservedKeys ps ∧ Draft.Of (Table.ofList ps) d :=
  foldlM_eq_ok_iff (fun ps d => Once reservedKeys ps ∧ Draft.Of (Table.ofList ps) d)
    (fun d => (and_iff_right once_nil).trans (of_nil d)) of_concat ps

end Draft

/-- Members make a box exactly if no key of the protocol is repeated and their table is the object
of the box. -/
theorem finish_eq_ok_iff :
    (∃ d, ps.foldlM (fun d p => Draft.take d p.1 p.2) {} = .ok d ∧ d.finish = .ok box) ↔
      Once reservedKeys ps ∧ IsBox (.object (Table.ofList ps)) box := by
  have hfinish (d : Draft) : d.finish = .ok box ↔ d.id = some box.id ∧
      d.revision.getD 0 = box.revision ∧ d.index.getD [] = box.index ∧ d.fields = box.fields := by
    rw [Draft.finish]
    cases d.id <;> cases box <;> simp
  simp only [Draft.foldlM_take, hfinish]
  generalize Table.ofList ps = t
  have hid : Filled .string (t.find? idKey) (some box.id) ↔
      t.find? idKey = some (.string box.id) := by
    simp [filled_some]
  have hrevision :
      (∃ slot, Filled .uint64 (t.find? revisionKey) slot ∧ slot.getD 0 = box.revision) ↔
        t.find? revisionKey = some (.number (.natural box.revision)) ∨
          t.find? revisionKey = none ∧ box.revision = 0 := by
    rw [exists_filled_getD fun v _ n => uint64_eq_ok_iff, isPart_iff]
    simp only [exists_eq_right]
  have hindex :
      (∃ slot, Filled (.list .string) (t.find? indexKey) slot ∧ slot.getD [] = box.index) ↔
        t.find? indexKey = some (.array (box.index.map .string)) ∨
          t.find? indexKey = none ∧ box.index = [] := by
    rw [exists_filled_getD fun v _ names => listString_eq_ok_iff, isPart_iff]
    simp only [exists_eq_right]
  constructor
  · rintro ⟨d, ⟨honce, hi, hr, hx, hf⟩, hi', hr', hx', hf'⟩
    rw [hi'] at hi
    exact ⟨honce, t, rfl, hid.mp hi, hrevision.mp ⟨_, hr, hr'⟩, hindex.mp ⟨_, hx, hx'⟩,
      hf'.symm.trans hf⟩
  · rintro ⟨honce, _, he, hi, hr, hx, hf⟩
    cases he
    obtain ⟨revision, hr, hr'⟩ := hrevision.mpr hr
    obtain ⟨index, hx, hx'⟩ := hindex.mpr hx
    exact ⟨⟨some box.id, revision, index, box.fields⟩, ⟨honce, hid.mpr hi, hr, hx, hf⟩, rfl, hr',
      hx', rfl⟩

/-- An object is read as a box exactly if it is the value of one. -/
theorem ofValue_eq_ok_iff (ht : t.Sorted) :
    Box.form.ofValue (.object t) = .ok box ↔ IsBox (.object t) box := by
  rw [Box.form, bind_eq_ok, finish_eq_ok_iff, and_iff_right (once_of_sorted ht),
    Table.ofList_of_sorted ht]

end

end Box

/-- A value is read as a box exactly if it is the value of that box. -/
theorem Json.Value.Canonical.ofValue_box_iff {v : Value} (hv : v.Canonical) {box : Box} :
    Box.form.ofValue v = .ok box ↔ IsBox v box := by
  cases hv with
  | object hsorted _ => exact Box.ofValue_eq_ok_iff hsorted
  | _ =>
    refine iff_of_false nofun ?_
    rintro ⟨t, he, -⟩
    cases he

/-- A result and its value: both counts and the list of boxes must be there, other members count
for nothing. -/
def IsResult (v : Value) (result : QueryResult) : Prop :=
  ∃ (t : Table Value) (vs : List Value), v = .object t ∧
    t.find? QueryResult.countKey = some (.number (.natural result.count)) ∧
    t.find? QueryResult.totalKey = some (.number (.natural result.total)) ∧
    t.find? QueryResult.dataKey = some (.array vs) ∧ List.Forall₂ IsBox vs result.data

namespace QueryResult

def Draft.Of (t : Table Value) (d : Draft) : Prop :=
  Filled .uint64 (t.find? countKey) d.count ∧ Filled .uint64 (t.find? totalKey) d.total ∧
    Filled (.list Box.form) (t.find? dataKey) d.data

theorem Draft.of_nil (d : Draft) : Draft.Of [] d ↔ d = {} := by
  simp only [Draft.Of, Table.find?_nil, filled_empty]
  cases d
  simp

section
variable {t : Table Value} {name : String} {v : Value} {d d' : Draft}

namespace Draft

@[simp] theorem total_ne_count : totalKey ≠ countKey := by decide

@[simp] theorem data_ne_count : dataKey ≠ countKey := by decide

@[simp] theorem data_ne_total : dataKey ≠ totalKey := by decide

theorem take_count :
    Draft.take d' countKey v = .ok d ↔
      d'.count = none ∧ ∃ n, Form.uint64.ofValue v = .ok n ∧ d = { d' with count := some n } := by
  simp [Draft.take]
  grind

theorem take_total :
    Draft.take d' totalKey v = .ok d ↔
      d'.total = none ∧ ∃ n, Form.uint64.ofValue v = .ok n ∧ d = { d' with total := some n } := by
  simp [Draft.take]
  grind

theorem take_data :
    Draft.take d' dataKey v = .ok d ↔
      d'.data = none ∧
        ∃ boxes, (Form.list Box.form).ofValue v = .ok boxes ∧
          d = { d' with data := some boxes } := by
  simp [Draft.take]
  grind

/-- The slot of the count takes the first count. -/
theorem of_insert_count :
    countKey ∉ t.names ∧ Draft.Of (t.insert countKey v) d ↔
      ∃ d', Draft.Of t d' ∧ Draft.take d' countKey v = .ok d := by
  simp only [Draft.Of, take_count, filled_insert_self, filled_insert_ne total_ne_count,
    filled_insert_ne data_ne_count]
  constructor
  · rintro ⟨hnew, ⟨n, hn, hcount⟩, htotal, hdata⟩
    exact ⟨{ d with count := none }, ⟨filled_none.mpr hnew, htotal, hdata⟩, rfl, n, hn,
      by rw [← hcount]⟩
  · rintro ⟨d', ⟨hcount, htotal, hdata⟩, hnone, n, hn, rfl⟩
    rw [hnone, filled_none] at hcount
    exact ⟨hcount, ⟨n, hn, rfl⟩, htotal, hdata⟩

theorem of_insert_total :
    totalKey ∉ t.names ∧ Draft.Of (t.insert totalKey v) d ↔
      ∃ d', Draft.Of t d' ∧ Draft.take d' totalKey v = .ok d := by
  simp only [Draft.Of, take_total, filled_insert_self, filled_insert_ne total_ne_count.symm,
    filled_insert_ne data_ne_total]
  constructor
  · rintro ⟨hnew, hcount, ⟨n, hn, htotal⟩, hdata⟩
    exact ⟨{ d with total := none }, ⟨hcount, filled_none.mpr hnew, hdata⟩, rfl, n, hn,
      by rw [← htotal]⟩
  · rintro ⟨d', ⟨hcount, htotal, hdata⟩, hnone, n, hn, rfl⟩
    rw [hnone, filled_none] at htotal
    exact ⟨htotal, hcount, ⟨n, hn, rfl⟩, hdata⟩

theorem of_insert_data :
    dataKey ∉ t.names ∧ Draft.Of (t.insert dataKey v) d ↔
      ∃ d', Draft.Of t d' ∧ Draft.take d' dataKey v = .ok d := by
  simp only [Draft.Of, take_data, filled_insert_self, filled_insert_ne data_ne_count.symm,
    filled_insert_ne data_ne_total.symm]
  constructor
  · rintro ⟨hnew, hcount, htotal, ⟨boxes, hboxes, hdata⟩⟩
    exact ⟨{ d with data := none }, ⟨hcount, htotal, filled_none.mpr hnew⟩, rfl, boxes, hboxes,
      by rw [← hdata]⟩
  · rintro ⟨d', ⟨hcount, htotal, hdata⟩, hnone, boxes, hboxes, rfl⟩
    rw [hnone, filled_none] at hdata
    exact ⟨hdata, hcount, htotal, boxes, hboxes, rfl⟩

/-- Any other member is passed over. -/
theorem of_insert_other (hcount : name ≠ countKey) (htotal : name ≠ totalKey)
    (hdata : name ≠ dataKey) :
    Draft.Of (t.insert name v) d ↔ ∃ d', Draft.Of t d' ∧ Draft.take d' name v = .ok d := by
  have htake (d' : Draft) : Draft.take d' name v = .ok d' := by
    rw [Draft.take, if_neg hcount, if_neg htotal, if_neg hdata]
    rfl
  simp only [Draft.Of, htake, Except.ok.injEq, exists_eq_right, filled_insert_ne hcount.symm,
    filled_insert_ne htotal.symm, filled_insert_ne hdata.symm]

def keys : List String := [countKey, totalKey, dataKey]

/-- A member that is taken comes into the table, unless its key is wanted once and was there. -/
theorem of_concat (ps : Table Value) (name : String) (v : Value) (d : Draft) :
    Once keys (ps ++ [(name, v)]) ∧ Draft.Of (Table.ofList (ps ++ [(name, v)])) d ↔
      ∃ d', (Once keys ps ∧ Draft.Of (Table.ofList ps) d') ∧ Draft.take d' name v = .ok d := by
  rw [once_concat, Table.ofList_concat, ← Table.mem_names_ofList]
  simp only [and_assoc, exists_and_left]
  refine and_congr_right fun _ => ?_
  by_cases hcount : name = countKey
  · subst hcount
    rw [imp_iff_right (by decide : countKey ∈ keys)]
    exact of_insert_count
  by_cases htotal : name = totalKey
  · subst htotal
    rw [imp_iff_right (by decide : totalKey ∈ keys)]
    exact of_insert_total
  by_cases hdata : name = dataKey
  · subst hdata
    rw [imp_iff_right (by decide : dataKey ∈ keys)]
    exact of_insert_data
  · have hmem : name ∉ keys := by simp [keys, hcount, htotal, hdata]
    rw [and_iff_right fun h => absurd h hmem]
    exact of_insert_other hcount htotal hdata

/-- Members that are taken one after the other give the draft of their table, if no key of a slot
is repeated among them. -/
theorem foldlM_take (ps : Table Value) (d : Draft) :
    ps.foldlM (fun d p => Draft.take d p.1 p.2) {} = .ok d ↔
      Once keys ps ∧ Draft.Of (Table.ofList ps) d :=
  foldlM_eq_ok_iff (fun ps d => Once keys ps ∧ Draft.Of (Table.ofList ps) d)
    (fun d => (and_iff_right once_nil).trans (of_nil d)) of_concat ps

end Draft

end

/-- The parts of a result: how many boxes it has, how many there are in all, and the boxes. -/
structure HasParts (count total data : Option Value) (result : QueryResult) : Prop where
  count : IsPart (fun v n => v = .number (.natural n)) 0 count result.count
  total : IsPart (fun v n => v = .number (.natural n)) 0 total result.total
  data : IsPart (fun v boxes => ∃ vs, v = .array vs ∧ List.Forall₂ IsBox vs boxes) [] data
    result.data

/-- A value and the result that it is read as. An object has the parts under their keys, whatever
else it has; a list has them in order and may end early. A part that is not there is zero or empty.
-/
def IsReadAs : Value → QueryResult → Prop
  | .object t, result =>
    HasParts (Table.find? t countKey) (Table.find? t totalKey) (Table.find? t dataKey) result
  | .array vs, result => vs.length ≤ 3 ∧ HasParts vs[0]? vs[1]? vs[2]? result
  | _, _ => False

section
variable {t : Table Value} {vs : List Value} {v : Value} {count total data : Option Value}
  {result : QueryResult}

theorem list_box_eq_ok_iff (hv : v.Canonical) {boxes : List Box} :
    (Form.list Box.form).ofValue v = .ok boxes ↔
      ∃ vs, v = .array vs ∧ List.Forall₂ IsBox vs boxes := by
  rw [list_eq_ok_iff]
  refine exists_congr fun vs => and_congr_right fun he => ?_
  subst he
  cases hv with
  | array hvs => exact forall₂_congr_of_mem fun v hv box => (hvs v hv).ofValue_box_iff

/-- Slots that are filled from members make the result of these parts. -/
theorem finish_iff (hdata : ∀ v, data = some v → v.Canonical) :
    (∃ slots : Draft, (Filled .uint64 count slots.count ∧ Filled .uint64 total slots.total ∧
      Filled (.list Box.form) data slots.data) ∧ slots.finish = result) ↔
    HasParts count total data result := by
  have hcount := @exists_filled_getD _ _ _ count result.count 0 fun v _ _ => uint64_eq_ok_iff
  have htotal := @exists_filled_getD _ _ _ total result.total 0 fun v _ _ => uint64_eq_ok_iff
  have hboxes := @exists_filled_getD _ _ _ data result.data [] fun v hv _ =>
    list_box_eq_ok_iff (hdata v hv)
  constructor
  · rintro ⟨slots, ⟨hc, ht, hd⟩, rfl⟩
    exact ⟨hcount.mp ⟨_, hc, rfl⟩, htotal.mp ⟨_, ht, rfl⟩, hboxes.mp ⟨_, hd, rfl⟩⟩
  · rintro ⟨hc, ht, hd⟩
    obtain ⟨count, hc, hc'⟩ := hcount.mpr hc
    obtain ⟨total, ht, ht'⟩ := htotal.mpr ht
    obtain ⟨data, hd, hd'⟩ := hboxes.mpr hd
    exact ⟨⟨count, total, data⟩, ⟨hc, ht, hd⟩, by rw [Draft.finish, hc', ht', hd']⟩

theorem itemOfValue?_eq_ok_iff {α : Type} {form : Form α} {place : Nat} {slot : Option α} :
    itemOfValue? form vs place = .ok slot ↔ Filled form vs[place]? slot := by
  rw [itemOfValue?, Filled]
  cases vs[place]? with
  | none => cases slot <;> simp
  | some v => cases h : form.ofValue v <;> cases slot <;> simp [h]

/-- In a list the place says which part an item is. -/
theorem ofItems_eq_ok_iff (hvs : ∀ v ∈ vs, v.Canonical) :
    ofItems vs = .ok result ↔ vs.length ≤ 3 ∧ HasParts vs[0]? vs[1]? vs[2]? result := by
  rw [← finish_iff fun v hv => hvs v (List.mem_of_getElem? hv)]
  simp only [ofItems, bind_eq_ok, itemOfValue?_eq_ok_iff, checkLength, ite_error_eq_ok, pure_eq,
    Except.ok.injEq, not_lt]
  constructor
  · rintro ⟨count, hcount, total, htotal, data, hdata, _, ⟨hlength, -⟩, rfl⟩
    exact ⟨hlength, ⟨count, total, data⟩, ⟨hcount, htotal, hdata⟩, rfl⟩
  · rintro ⟨hlength, ⟨count, total, data⟩, ⟨hcount, htotal, hdata⟩, rfl⟩
    exact ⟨count, hcount, total, htotal, data, hdata, (), ⟨hlength, trivial⟩, rfl⟩

/-- A value is read as a result exactly if it has the parts of that result. -/
theorem ofValue_eq_ok_iff (hv : v.Canonical) : form.ofValue v = .ok result ↔ IsReadAs v result := by
  cases hv with
  | @object t hsorted hvalues =>
    have hdata : ∀ v, t.find? dataKey = some v → v.Canonical :=
      fun v hv => hvalues _ (Table.mem_of_find? hv)
    have hfold (d : Draft) := Draft.foldlM_take t d
    simp only [Table.ofList_of_sorted hsorted, and_iff_right (once_of_sorted hsorted)] at hfold
    rw [IsReadAs, ← finish_iff hdata]
    simp [form, hfold]
    rfl
  | array hvs => exact ofItems_eq_ok_iff hvs
  | _ => exact iff_of_false nofun id

end

end QueryResult

theorem IsResult.isReadAs {v : Value} {result : QueryResult} (h : IsResult v result) :
    QueryResult.IsReadAs v result := by
  obtain ⟨t, vs, rfl, hcount, htotal, hdata, hboxes⟩ := h
  rw [QueryResult.IsReadAs, hcount, htotal, hdata]
  exact ⟨rfl, rfl, vs, rfl, hboxes⟩

end BoxClient
