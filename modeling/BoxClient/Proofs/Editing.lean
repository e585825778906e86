import BoxClient.Proofs.Wire
import BoxClient.Session
/-!
Boxes from where they come from through any sequence of edits. Whatever is done to a box, its id and
its revision stay and no field gets under a key of the protocol; a refused edit leaves no trace. A
box that was made here is sound at every moment, so it can be prepared again from its own parts. A
box that was read may be unsound from the start, as reading checks neither the id nor the index.
-/
namespace BoxClient.Box

open Json Outcome

inductive Origin where
  | new (id : String) (revision : UInt64)
  | prepare (id : String) (revision : UInt64) (index : List String)
    (fields : List (String × Value))
  /-- Read from a text. -/
  | text (bs : Bytes)
  /-- Read from a value. -/
  | value (v : Value)

namespace Origin

def box : Origin → Except Error Box
  | new id revision => (Box.new id revision).mapError Error.refused
  | prepare id revision index fields =>
    (Box.prepare id revision index fields).mapError Error.refused
  | text bs => form.decode bs
  | value v => form.decodeValue v

def Constructs : Origin → Prop
  | new .. | prepare .. => True
  | text _ | value _ => False

def names : Origin → List String
  | prepare _ _ index _ => index
  | _ => []

end Origin

section
variable {box : Box} {origin : Origin}

/-- Members that are taken keep the fields of a draft apart from the keys of the protocol. -/
theorem Draft.take_isSeparate {d d' : Draft} {key : String} {v : Value} (h : IsSeparate d.fields)
    (htake : d.take key v = .ok d') : IsSeparate d'.fields := by
  rw [Draft.take] at htake
  split at htake
  · obtain ⟨_, -, he⟩ := bind_eq_ok.mp htake
    cases he
    exact h
  split at htake
  · obtain ⟨_, -, he⟩ := bind_eq_ok.mp htake
    cases he
    exact h
  split at htake
  · obtain ⟨_, -, he⟩ := bind_eq_ok.mp htake
    cases he
    exact h
  · rename_i hid hrevision hindex
    cases htake
    exact h.insert (by simp [isReserved, reservedKeys, hid, hrevision, hindex]) v

theorem isSeparate_of_decodeValue {v : Value} (h : form.decodeValue v = .ok box) :
    IsSeparate box.fields := by
  rw [Form.decodeValue, mapError_eq_ok] at h
  cases v with
  | object t =>
    obtain ⟨d, hfold, hfinish⟩ := bind_eq_ok.mp h
    have hd : IsSeparate d.fields :=
      foldlM_keeps (fun d : Draft => IsSeparate d.fields)
        (fun _ _ _ _ hd htake => Draft.take_isSeparate hd htake) isSeparate_nil hfold
    rw [Draft.finish] at hfinish
    split at hfinish
    · cases hfinish
    · cases hfinish
      exact hd
  | _ => cases h

/-- A box that is read has a field that the text repeats once, and no reserved key as a field. -/
theorem isSeparate_of_decode {bs : Bytes} (h : form.decode bs = .ok box) :
    IsSeparate box.fields := by
  obtain ⟨r, hread, -⟩ := Form.decode_eq_ok_iff.mp h
  exact (form_read_gives _ _ _ _ hread).separate

theorem Origin.isSeparate (h : origin.box = .ok box) : IsSeparate box.fields := by
  cases origin with
  | new id revision =>
    obtain ⟨-, rfl⟩ := new_eq_ok_iff.mp (mapError_eq_ok.mp h)
    exact isSeparate_nil
  | prepare id revision index fields =>
    obtain ⟨-, -, hfields, rfl⟩ := prepare_eq_ok_iff.mp (mapError_eq_ok.mp h)
    exact ⟨Table.sorted_ofList fields, fun p hp => hfields p (Table.mem_of_mem_ofList hp)⟩
  | text bs => exact isSeparate_of_decode h
  | value v => exact isSeparate_of_decodeValue h

/-- A box that is made is sound, and its names are in the order of first appearance. -/
theorem Origin.constructed (h : origin.box = .ok box) (hconstructs : origin.Constructs) :
    box.IsSound ∧ box.index = origin.names.eraseDups := by
  cases origin with
  | new id revision =>
    obtain ⟨hid, rfl⟩ := new_eq_ok_iff.mp (mapError_eq_ok.mp h)
    exact ⟨⟨hid, nofun, List.nodup_nil⟩, rfl⟩
  | prepare id revision index fields =>
    obtain ⟨hid, hnames, -, rfl⟩ := prepare_eq_ok_iff.mp (mapError_eq_ok.mp h)
    exact ⟨⟨hid, fun name hname => hnames name (List.mem_eraseDups.mp hname),
      nodup_eraseDups index⟩, rfl⟩
  | text bs => exact hconstructs.elim
  | value v => exact hconstructs.elim

end

inductive Edit where
  | insert (field : String) (v : Value)
  /-- Inserts as a link of a chain, which goes on with the box. -/
  | withField (field : String) (v : Value)
  | erase (field : String)
  | addIndex (name : String)
  /-- Adds a name as a link of a chain. -/
  | withIndex (name : String)

namespace Edit

/-- What an edit makes of a box, and the value that it gives with it. -/
def apply (box : Box) : Edit → Except Refusal (Option Value × Box)
  | insert field v => box.insert field v
  | withField field v => (box.withField field v).map fun box => (none, box)
  | erase field => .ok (box.erase field)
  | addIndex name | withIndex name => (box.addIndex name).map fun box => (none, box)

/-- The name that an edit adds to the index, if it is allowed there. -/
def name? : Edit → Option String
  | addIndex name | withIndex name => if IsIndexName name then some name else none
  | _ => none

end Edit

def edit (box : Box) (e : Edit) : Except Refusal (Option Value) × Box :=
  match e.apply box with
  | .ok (previous, box') => (.ok previous, box')
  | .error refusal => (.error refusal, box)

def run (box : Box) (edits : List Edit) : Box := edits.foldl (fun box e => (box.edit e).2) box

/-- A box that came out of another, with these names added to its index. -/
structure Follows (names : List String) (box box' : Box) : Prop where
  id : box'.id = box.id
  revision : box'.revision = box.revision
  index : box'.index = names.foldl addName box.index
  isSeparate : IsSeparate box.fields → IsSeparate box'.fields

section
variable {box box' box'' : Box} {names names' : List String} {e : Edit} {previous : Option Value}

theorem Follows.refl (box : Box) : Follows [] box box := ⟨rfl, rfl, rfl, fun hbox => hbox⟩

theorem Follows.trans (h : Follows names box box') (h' : Follows names' box' box'') :
    Follows (names ++ names') box box'' where
  id := h'.id.trans h.id
  revision := h'.revision.trans h.revision
  index := by rw [h'.index, h.index, List.foldl_append]
  isSeparate hbox := h'.isSeparate (h.isSeparate hbox)

/-- Names that are allowed neither take soundness away nor bring it back. -/
theorem Follows.isSound_iff (h : Follows names box box')
    (hnames : ∀ name ∈ names, IsIndexName name) : box'.IsSound ↔ box.IsSound := by
  constructor
  · rintro ⟨hid, hindex, hnodup⟩
    rw [h.index] at hindex hnodup
    exact ⟨h.id ▸ hid, fun name hname => hindex name (mem_foldl_addName.mpr (.inl hname)),
      nodup_foldl_addName.mp hnodup⟩
  · rintro ⟨hid, hindex, hnodup⟩
    refine ⟨h.id ▸ hid, fun name hname => ?_, h.index ▸ nodup_foldl_addName.mpr hnodup⟩
    rw [h.index, mem_foldl_addName] at hname
    exact hname.elim (hindex name) (hnames name)

theorem follows_withField {field : String} {v : Value} (h : box.withField field v = .ok box') :
    Follows [] box box' := by
  obtain ⟨hfield, rfl⟩ := withField_eq_ok_iff.mp h
  exact ⟨rfl, rfl, rfl, fun hbox => hbox.insert hfield v⟩

theorem follows_insert {field : String} {v : Value}
    (h : box.insert field v = .ok (previous, box')) : Follows [] box box' :=
  follows_withField (by rw [withField, h]; rfl)

theorem follows_erase (box : Box) (field : String) : Follows [] box (box.erase field).2 :=
  ⟨rfl, rfl, rfl, fun hbox => hbox.filter _⟩

theorem follows_addIndex {name : String} (h : box.addIndex name = .ok box') :
    Follows [name] box box' := by
  obtain ⟨-, rfl⟩ := addIndex_eq_ok_iff.mp h
  exact ⟨rfl, rfl, rfl, fun hbox => hbox⟩

/-- An edit that is allowed adds its name; one that is refused has none to add. -/
theorem follows_apply (h : e.apply box = .ok (previous, box')) :
    Follows e.name?.toList box box' := by
  have hname {name : String}
      (h : (box.addIndex name).map (fun box => (none, box)) = .ok (previous, box')) :
      Follows (if IsIndexName name then some name else none).toList box box' := by
    obtain ⟨_, h, he⟩ := map_eq_ok.mp h
    cases he
    rw [if_pos (addIndex_eq_ok_iff.mp h).1]
    exact follows_addIndex h
  cases e with
  | insert field v => exact follows_insert h
  | withField field v =>
    obtain ⟨_, h, he⟩ := map_eq_ok.mp h
    cases he
    exact follows_withField h
  | erase field =>
    cases h
    exact follows_erase box field
  | addIndex name => exact hname h
  | withIndex name => exact hname h

/-- An edit that is refused adds no name to the index. -/
theorem name?_of_refused {refusal : Refusal} (h : e.apply box = .error refusal) :
    e.name? = none := by
  have hname {name : String}
      (h : (box.addIndex name).map (fun box => ((none : Option Value), box)) = .error refusal) :
      (if IsIndexName name then some name else none) = none := by
    refine if_neg fun hallowed => ?_
    rw [addIndex_eq_ok_iff.mpr ⟨hallowed, rfl⟩] at h
    cases h
  cases e with
  | addIndex name => exact hname h
  | withIndex name => exact hname h
  | _ => rfl

theorem follows_edit (box : Box) (e : Edit) : Follows e.name?.toList box (box.edit e).2 := by
  rw [edit]
  cases h : e.apply box with
  | ok p => exact follows_apply h
  | error refusal =>
    rw [name?_of_refused h]
    exact Follows.refl box

/-- Edits keep id and revision, and only the names that they add come into the index. -/
theorem follows_run (box : Box) (edits : List Edit) :
    Follows (edits.filterMap Edit.name?) box (box.run edits) := by
  induction edits generalizing box with
  | nil => exact Follows.refl box
  | cons e edits ih =>
    have hnames : (e :: edits).filterMap Edit.name? =
        e.name?.toList ++ edits.filterMap Edit.name? := by
      simp only [List.filterMap_eq_flatMap_toList, List.flatMap_cons]
    rw [hnames]
    exact (follows_edit box e).trans (ih (box.edit e).2)

/-- A refused edit leaves the box as it is. -/
theorem edit_refused {refusal : Refusal} (h : (box.edit e).1 = .error refusal) :
    (box.edit e).2 = box := by
  rw [edit] at h ⊢
  cases hbox : e.apply box with
  | ok p =>
    rw [hbox] at h
    cases h
  | error refusal' => rfl

theorem isIndexName_of_name? {name : String} (h : e.name? = some name) : IsIndexName name := by
  have hname {added : String}
      (h : (if IsIndexName added then some added else none) = some name) : IsIndexName name := by
    split at h
    · cases h
      assumption
    · cases h
  cases e with
  | addIndex added => exact hname h
  | withIndex added => exact hname h
  | _ => cases h

/-- No edit makes a sound box unsound, and none repairs an unsound one. -/
theorem isSound_run_iff (box : Box) (edits : List Edit) :
    (box.run edits).IsSound ↔ box.IsSound := by
  refine (follows_run box edits).isSound_iff fun name hname => ?_
  obtain ⟨e, -, he⟩ := List.mem_filterMap.mp hname
  exact isIndexName_of_name? he

end

/-- Whatever box a program comes by and whatever edits it carries out, in any order and whether they
are refused or not: id and revision stay, no field is under a key of the protocol and so no key is
written twice, and a refused edit leaves the box as it is. If the box was made and not read, it is
sound at every moment, its index has the names in the order in which they were added first, and it
is prepared again from its own parts. -/
theorem run_keeps {origin : Origin} {box : Box} (h : origin.box = .ok box) (edits : List Edit) :
    (box.run edits).id = box.id ∧ (box.run edits).revision = box.revision ∧
    (∀ name ∈ (box.run edits).fields.names, isReserved name = false) ∧
    (Table.names (box.run edits).members).Nodup ∧
    (∀ e refusal, ((box.run edits).edit e).1 = .error refusal →
      ((box.run edits).edit e).2 = box.run edits) ∧
    (origin.Constructs → (box.run edits).IsSound ∧
      (box.run edits).index = (origin.names ++ edits.filterMap Edit.name?).eraseDups ∧
      Box.prepare (box.run edits).id (box.run edits).revision (box.run edits).index
        (box.run edits).fields = .ok (box.run edits)) := by
  have hrun := follows_run box edits
  have hseparate := hrun.isSeparate (Origin.isSeparate h)
  refine ⟨hrun.id, hrun.revision, hseparate.isReserved_names, nodup_members hseparate,
    fun e refusal => edit_refused, fun hconstructs => ?_⟩
  obtain ⟨hsound, hindex⟩ := Origin.constructed h hconstructs
  have hsound' := (isSound_run_iff box edits).mpr hsound
  refine ⟨hsound', ?_, (prepare_self_iff hseparate).mpr hsound'⟩
  rw [hrun.index, hindex, foldl_addName]

/-- A prepared box after edits of every kind, some of which are refused. -/
theorem run_keeps_mixed :
    let origin := Origin.prepare "a" 3 ["x", "y", "x"] [("f", .null)]
    let box : Box := ⟨"a", 3, ["x", "y"], [("f", .null)]⟩
    let edits := [.addIndex "w", .insert "_id" .null, .withIndex "x", .erase "f", .addIndex "",
      .withField "g" (.boolean true), .withIndex "_rev", .erase "_id"]
    let box' : Box := ⟨"a", 3, ["x", "y", "w"], [("g", .boolean true)]⟩
    origin.box = .ok box ∧ origin.Constructs ∧ box.run edits = box' ∧ box'.IsSound ∧
      Box.prepare "a" 3 ["x", "y", "w"] [("g", .boolean true)] = .ok box' := by
  intro origin box edits box'
  have hbox : origin.box = .ok box := by decide +kernel
  have hrun : box.run edits = box' := by decide +kernel
  obtain ⟨-, -, -, -, -, hconstructed⟩ := run_keeps hbox edits
  rw [hrun] at hconstructed
  obtain ⟨hsound, -, hprepare⟩ := hconstructed trivial
  exact ⟨hbox, trivial, hrun, hsound, hprepare⟩

/-- The fields of a box that is read are apart from the keys of the protocol, also after edits. The
box is prepared again from its own parts exactly if it is sound, which reading does not see to and
edits do not change. -/
theorem decoded_prepares_iff {box : Box}
    (h : (∃ bs, form.decode bs = .ok box) ∨ ∃ v, form.decodeValue v = .ok box) :
    (Box.prepare box.id box.revision box.index box.fields = .ok box ↔ box.IsSound) ∧
    ∀ edits, (∀ name ∈ (box.run edits).fields.names, isReserved name = false) ∧
      ((box.run edits).IsSound ↔ box.IsSound) := by
  have hseparate : IsSeparate box.fields := by
    rcases h with ⟨bs, h⟩ | ⟨v, h⟩
    · exact isSeparate_of_decode h
    · exact isSeparate_of_decodeValue h
  exact ⟨prepare_self_iff hseparate, fun edits =>
    ⟨((follows_run box edits).isSeparate hseparate).isReserved_names, isSound_run_iff box edits⟩⟩

/-- A sound box that is read from a text and prepared from its parts. -/
theorem decoded_prepares_indexed :
    let box : Box := ⟨"a", 3, ["x"], [("x", .boolean true)]⟩
    form.decode (Utf8.encode
      "\x7b\"_id\":\"a\",\"_rev\":3,\"_index\":[\"x\"],\"x\":true\x7d") = .ok box ∧
      Box.prepare "a" 3 ["x"] [("x", .boolean true)] = .ok box := by
  intro box
  have hdecode : form.decode (Utf8.encode
      "\x7b\"_id\":\"a\",\"_rev\":3,\"_index\":[\"x\"],\"x\":true\x7d") = .ok box := by
    decide +kernel
  have hsound : box.IsSound := ⟨by decide, by decide, by decide⟩
  exact ⟨hdecode, (decoded_prepares_iff (.inl ⟨_, hdecode⟩)).1.mpr hsound⟩

/-- Boxes without an id, and with names in the index that are empty, reserved or repeated, are read
from a text and from a value. Preparing refuses them or drops the repetition, storing does not. -/
theorem unsound_decoded :
    let nameless : Box := ⟨"", 0, [], []⟩
    let indexed : Box := ⟨"a", 0, ["", "_id"], []⟩
    let doubled : Box := ⟨"a", 0, ["x", "x"], []⟩
    (form.decode (Utf8.encode "\x7b\"_id\":\"\"\x7d") = .ok nameless ∧
      form.decodeValue (.object [("_id", .string "")]) = .ok nameless ∧
      Box.prepare "" 0 [] [] = .error .emptyId ∧
      storeMessage [nameless] = .ok [("", nameless)]) ∧
    (form.decode (Utf8.encode "\x7b\"_id\":\"a\",\"_index\":[\"\",\"_id\"]\x7d") = .ok indexed ∧
      Box.prepare "a" 0 ["", "_id"] [] = .error .emptyIndexName ∧
      Box.prepare "a" 0 ["_id"] [] = .error (.reservedKey "_id")) ∧
    form.decode (Utf8.encode "\x7b\"_id\":\"a\",\"_index\":[\"x\",\"x\"]\x7d") = .ok doubled ∧
      Box.prepare "a" 0 ["x", "x"] [] ≠ .ok doubled := by
  decide +kernel

end BoxClient.Box
