import BoxClient.Box.Basic
import BoxClient.Error
import BoxClient.Proofs.Outcome
import BoxClient.Proofs.Table
/-!
What making and editing a box gives, exactly. Preparing succeeds if every argument passes its own
check, and the box then has each index name once, in the order of first appearance, and its fields
as a table; otherwise it fails for the first argument that does not pass. A box whose fields are
such a table can be prepared again from its own parts if it is sound, and only then.
-/
namespace BoxClient

open Json Outcome

section
variable {l : List String} {name : String}

/-- A name that was there before does not come in again. -/
theorem eraseDups_concat (l : List String) (name : String) :
    (l ++ [name]).eraseDups = if name ∈ l then l.eraseDups else l.eraseDups ++ [name] := by
  rw [List.eraseDups_append]
  split
  · rename_i hmem
    simp [List.removeAll, hmem]
  · rename_i hmem
    simp [List.removeAll, hmem, List.eraseDups_cons]

theorem nodup_eraseDups (l : List String) : l.eraseDups.Nodup := by
  induction l using List.reverseRecOn with
  | nil => simp
  | append_singleton l name ih =>
    rw [eraseDups_concat]
    split
    · exact ih
    · rename_i hmem
      have hnew : name ∉ l.eraseDups := by rwa [List.mem_eraseDups]
      simpa [List.nodup_append, ih] using fun a ha (he : a = name) => hnew (he ▸ ha)

theorem eraseDups_of_nodup (h : l.Nodup) : l.eraseDups = l := by
  induction l using List.reverseRecOn with
  | nil => rfl
  | append_singleton l name ih =>
    rw [List.nodup_append] at h
    obtain ⟨hl, -, hnew⟩ := h
    have hmem : name ∉ l := fun hmem => hnew name hmem name List.mem_cons_self rfl
    rw [eraseDups_concat, if_neg hmem, ih hl]

end

namespace Box

def IsIndexName (name : String) : Prop := name ≠ "" ∧ isReserved name = false

instance (name : String) : Decidable (IsIndexName name) :=
  inferInstanceAs (Decidable (_ ∧ _))

/-- A list of names with one more, which goes to the end unless it is there. -/
def addName (index : List String) (name : String) : List String :=
  if name ∈ index then index else index ++ [name]

section
variable {box box' : Box} {id field : String} {revision : UInt64} {v : Value}

@[simp] theorem new_eq_ok_iff :
    new id revision = .ok box ↔ id ≠ "" ∧ box = ⟨id, revision, [], []⟩ := by
  rw [new, ite_error_eq_ok, Except.ok.injEq, eq_comm (a := box)]

@[simp] theorem insert_eq_ok_iff {previous : Option Value} :
    box.insert field v = .ok (previous, box') ↔ isReserved field = false ∧
      previous = box.get? field ∧ box' = { box with fields := box.fields.insert field v } := by
  rw [Box.insert, ite_error_eq_ok, Except.ok.injEq, Bool.not_eq_true, Prod.mk.injEq,
    eq_comm (a := previous), eq_comm (a := box')]

@[simp] theorem withField_eq_ok_iff :
    box.withField field v = .ok box' ↔
      isReserved field = false ∧ box' = { box with fields := box.fields.insert field v } := by
  rw [withField, map_eq_ok]
  simp

@[simp] theorem addIndex_eq_ok_iff :
    box.addIndex field = .ok box' ↔
      IsIndexName field ∧ box' = { box with index := addName box.index field } := by
  rw [addIndex, ite_error_eq_ok, ite_error_eq_ok, IsIndexName, Bool.not_eq_true, and_assoc, addName]
  split
  · rw [Except.ok.injEq, eq_comm (a := box')]
  · rw [Except.ok.injEq, eq_comm (a := box')]

@[simp] theorem addIndexes_eq_ok_iff {names : List String} :
    box.addIndexes names = .ok box' ↔
      (∀ name ∈ names, IsIndexName name) ∧
        box' = { box with index := names.foldl addName box.index } := by
  rw [addIndexes]
  induction names generalizing box with
  | nil => simp [eq_comm (a := box')]
  | cons name names ih =>
    simp only [List.foldlM_cons, bind_eq_ok, addIndex_eq_ok_iff, ih, List.forall_mem_cons,
      List.foldl_cons]
    constructor
    · rintro ⟨box₁, ⟨hname, rfl⟩, hnames, rfl⟩
      exact ⟨⟨hname, hnames⟩, rfl⟩
    · rintro ⟨⟨hname, hnames⟩, rfl⟩
      exact ⟨_, ⟨hname, rfl⟩, hnames, rfl⟩

@[simp] theorem insertAll_eq_ok_iff {fields : List (String × Value)} :
    box.insertAll fields = .ok box' ↔
      (∀ p ∈ fields, isReserved p.1 = false) ∧
        box' = { box with fields := box.fields.insertAll fields } := by
  rw [Box.insertAll, Table.insertAll]
  induction fields generalizing box with
  | nil => simp [eq_comm (a := box')]
  | cons p fields ih =>
    simp only [List.foldlM_cons, bind_eq_ok, withField_eq_ok_iff, ih, List.forall_mem_cons,
      List.foldl_cons]
    constructor
    · rintro ⟨box₁, ⟨hfield, rfl⟩, hfields, rfl⟩
      exact ⟨⟨hfield, hfields⟩, rfl⟩
    · rintro ⟨⟨hfield, hfields⟩, rfl⟩
      exact ⟨_, ⟨hfield, rfl⟩, hfields, rfl⟩

end

/-- Names added to a list without repetition come in the order of first appearance. -/
theorem foldl_addName (l names : List String) :
    names.foldl addName l.eraseDups = (l ++ names).eraseDups := by
  induction names generalizing l with
  | nil => rw [List.append_nil, List.foldl_nil]
  | cons name names ih =>
    have hone : addName l.eraseDups name = (l ++ [name]).eraseDups := by
      rw [addName, eraseDups_concat]
      simp only [List.mem_eraseDups]
    rw [List.foldl_cons, hone, ih, List.append_assoc, List.singleton_append]

section
variable {index names : List String} {name : String}

@[simp] theorem mem_foldl_addName :
    name ∈ names.foldl addName index ↔ name ∈ index ∨ name ∈ names := by
  induction names generalizing index with
  | nil => simp
  | cons added names ih =>
    have hone : name ∈ addName index added ↔ name ∈ index ∨ name = added := by
      rw [addName]
      split
      · rename_i hmem
        exact (or_iff_left_of_imp fun he => he ▸ hmem).symm
      · simp
    rw [List.foldl_cons, ih, hone, List.mem_cons, or_assoc]

@[simp] theorem nodup_foldl_addName : (names.foldl addName index).Nodup ↔ index.Nodup := by
  induction names generalizing index with
  | nil => rfl
  | cons added names ih =>
    have hone : (addName index added).Nodup ↔ index.Nodup := by
      rw [addName]
      split
      · rfl
      · rename_i hmem
        rw [← List.concat_eq_append, List.nodup_concat]
        exact and_iff_right hmem
    rw [List.foldl_cons, ih, hone]

end

/-- All three checks must pass. Of equal names in the index the first place counts, of equal fields
the last value. -/
theorem prepare_eq_ok_iff {id : String} {revision : UInt64} {index : List String}
    {fields : List (String × Value)} {box : Box} :
    prepare id revision index fields = .ok box ↔
      id ≠ "" ∧ (∀ name ∈ index, IsIndexName name) ∧ (∀ p ∈ fields, isReserved p.1 = false) ∧
        box = ⟨id, revision, index.eraseDups, Table.ofList fields⟩ := by
  have hindex : index.foldl addName [] = index.eraseDups := foldl_addName [] index
  simp only [prepare, bind_eq_ok, new_eq_ok_iff, addIndexes_eq_ok_iff, insertAll_eq_ok_iff]
  constructor
  · rintro ⟨_, ⟨hid, rfl⟩, _, ⟨hnames, rfl⟩, hfields, rfl⟩
    exact ⟨hid, hnames, hfields, by rw [← hindex]; rfl⟩
  · rintro ⟨hid, hnames, hfields, rfl⟩
    exact ⟨_, ⟨hid, rfl⟩, _, ⟨hnames, rfl⟩, hfields, by rw [← hindex]; rfl⟩

/-- A box made of what was given for it. Every index name is in it once, in the order of first
appearance, and every field once, with the value that is given for it last. -/
structure ConsistsOf (box : Box) (id : String) (revision : UInt64) (index : List String)
    (fields : List (String × Value)) : Prop where
  id : box.id = id
  revision : box.revision = revision
  mem_index : ∀ name, name ∈ box.index ↔ name ∈ index
  index_order : box.index.Pairwise fun a b => index.idxOf a < index.idxOf b
  sorted : box.fields.Sorted
  find?_fields : ∀ name v, box.fields.find? name = some v ↔
    ∃ before after, fields = before ++ (name, v) :: after ∧ name ∉ Table.names after

/-- What is left without repetitions is in the order of first appearance. -/
theorem pairwise_idxOf_eraseDups (l : List String) :
    l.eraseDups.Pairwise fun a b => l.idxOf a < l.idxOf b := by
  induction l using List.reverseRecOn with
  | nil => exact .nil
  | append_singleton l name ih =>
    -- A name keeps its place when the list goes on behind it.
    have hkept {a : String} (ha : a ∈ l.eraseDups) : (l ++ [name]).idxOf a = l.idxOf a :=
      List.idxOf_append_of_mem (List.mem_eraseDups.mp ha)
    have hold : l.eraseDups.Pairwise fun a b =>
        (l ++ [name]).idxOf a < (l ++ [name]).idxOf b :=
      ih.imp_of_mem fun ha hb hlt => by rwa [hkept ha, hkept hb]
    rw [eraseDups_concat]
    split
    · exact hold
    · rename_i hnew
      refine List.pairwise_append.mpr ⟨hold, List.pairwise_singleton _ _, fun a ha b hb => ?_⟩
      obtain rfl := List.mem_singleton.mp hb
      have hlt : l.idxOf a < l.length := List.idxOf_lt_length_iff.mpr (List.mem_eraseDups.mp ha)
      rw [hkept ha, List.idxOf_append_of_notMem hnew]
      omega

/-- Names in the order of first appearance are known by which they are. -/
theorem eq_eraseDups_of_pairwise {l names : List String} (hmem : ∀ name, name ∈ names ↔ name ∈ l)
    (horder : names.Pairwise fun a b => l.idxOf a < l.idxOf b) : names = l.eraseDups := by
  have hne {a b : String} (h : l.idxOf a < l.idxOf b) : a ≠ b := by
    rintro rfl
    exact lt_irrefl _ h
  have hperm : names.Perm l.eraseDups :=
    (List.perm_ext_iff_of_nodup (horder.imp hne) (nodup_eraseDups l)).mpr fun name => by
      rw [hmem, List.mem_eraseDups]
  exact hperm.eq_of_pairwise (fun a b _ _ hab hba => absurd hab hba.not_gt) horder
    (pairwise_idxOf_eraseDups l)

/-- The parts leave no choice for the box. -/
theorem consistsOf_iff {box : Box} {id : String} {revision : UInt64} {index : List String}
    {fields : List (String × Value)} : box.ConsistsOf id revision index fields ↔
      box = ⟨id, revision, index.eraseDups, Table.ofList fields⟩ := by
  have hlast (name : String) (v : Value) : (Table.ofList fields).find? name = some v ↔
      ∃ before after, fields = before ++ (name, v) :: after ∧ name ∉ Table.names after := by
    rw [Table.find?_ofList_last, Table.find?_reverse_eq_some_iff]
  constructor
  · rintro ⟨hid, hrevision, hmem, horder, hsorted, hfind⟩
    obtain ⟨id', revision', index', fields'⟩ := box
    have hindex : index' = index.eraseDups := eq_eraseDups_of_pairwise hmem horder
    have hfields : fields' = Table.ofList fields := by
      refine hsorted.ext (Table.sorted_ofList fields) fun name => Option.ext fun v => ?_
      exact (hfind name v).trans (hlast name v).symm
    dsimp only at hid hrevision
    rw [hid, hrevision, hindex, hfields]
  · rintro rfl
    exact ⟨rfl, rfl, fun name => List.mem_eraseDups, pairwise_idxOf_eraseDups index,
      Table.sorted_ofList fields, hlast⟩

def indexFault? (name : String) : Option Refusal :=
  if name = "" then some .emptyIndexName
  else if isReserved name then some (.reservedKey name)
  else none

def fieldFault? (name : String) : Option Refusal :=
  if isReserved name then some (.reservedKey name) else none

/-- All that is wrong with the parts of a box: with its id, with the index names in their order, and
with the fields in theirs. -/
def faults (id : String) (index : List String) (fields : List (String × Value)) : List Refusal :=
  (if id = "" then [.emptyId] else []) ++ index.filterMap indexFault? ++
    fields.filterMap fun p => fieldFault? p.1

theorem failsWith_addIndex (box : Box) (name : String) :
    FailsWith (box.addIndex name) (indexFault? name) := by
  intro r
  rw [addIndex, indexFault?]
  split
  · simp
  split
  · simp
  split <;> simp

theorem failsWith_withField (box : Box) (p : String × Value) :
    FailsWith (box.withField p.1 p.2) (fieldFault? p.1) := by
  intro r
  rw [withField, Box.insert, fieldFault?]
  split <;> simp

/-- Preparing fails for the first fault of the parts. -/
theorem failsWith_prepare (id : String) (revision : UInt64) (index : List String)
    (fields : List (String × Value)) :
    FailsWith (prepare id revision index fields) (faults id index fields).head? := by
  have hnew : FailsWith (new id revision) (if id = "" then [Refusal.emptyId] else []).head? := by
    intro r
    rw [new]
    split <;> simp
  rw [faults, List.head?_append, List.head?_append, Option.or_assoc]
  exact hnew.bind fun box => (failsWith_foldlM failsWith_addIndex index box).bind
    fun box => failsWith_foldlM failsWith_withField fields box

/-- Preparing gives a box exactly if the id is not empty, every index name is allowed as one and no
field has a key of the protocol. The box is the only one that consists of what was given; without
it, the error is a refusal for what is wrong first. -/
theorem prepare_exact (id : String) (revision : UInt64) (index : List String)
    (fields : List (String × Value)) :
    ((∃ box, prepare id revision index fields = .ok box) ↔
      id ≠ "" ∧ (∀ name ∈ index, name ≠ "" ∧ isReserved name = false) ∧
        ∀ p ∈ fields, isReserved p.1 = false) ∧
    (∀ box, prepare id revision index fields = .ok box →
      ∀ box' : Box, box'.ConsistsOf id revision index fields ↔ box' = box) ∧
    ∀ e, (prepare id revision index fields).mapError Error.refused = .error e ↔
      ∃ r, (faults id index fields).head? = some r ∧ e = .invalidArgument r.message := by
  refine ⟨?_, fun box h box' => ?_, fun e => ?_⟩
  · simp only [prepare_eq_ok_iff]
    constructor
    · rintro ⟨box, hid, hindex, hfields, -⟩
      exact ⟨hid, hindex, hfields⟩
    · rintro ⟨hid, hindex, hfields⟩
      exact ⟨_, hid, hindex, hfields, rfl⟩
  · obtain ⟨-, -, -, rfl⟩ := prepare_eq_ok_iff.mp h
    exact consistsOf_iff
  · simp [failsWith_prepare id revision index fields _, Error.refused, eq_comm (a := e)]

/-- Repeated names and fields, and parts with faults of every kind. -/
theorem prepare_exact_repeated :
    let box : Box := ⟨"a", 3, ["y", "x"], [("f", .boolean true), ("g", .null)]⟩
    let given := [("f", Value.null), ("g", .null), ("f", .boolean true)]
    prepare "a" 3 ["y", "x", "y"] given = .ok box ∧
      box.ConsistsOf "a" 3 ["y", "x", "y"] given ∧
      (prepare "a" 3 ["x", "_rev", ""] [("_id", .null)]).mapError Error.refused =
        .error (.invalidArgument "'_rev' is a reserved box key") := by
  intro box given
  obtain ⟨-, hconsists, -⟩ := prepare_exact "a" 3 ["y", "x", "y"] given
  obtain ⟨-, -, hfault⟩ := prepare_exact "a" 3 ["x", "_rev", ""] [("_id", .null)]
  have hbox : prepare "a" 3 ["y", "x", "y"] given = .ok box := by decide +kernel
  exact ⟨hbox, (hconsists box hbox box).mpr rfl, (hfault _).mpr ⟨.reservedKey "_rev", rfl, rfl⟩⟩

/-- The fields have no name twice and none that is a key of the protocol. -/
structure IsSeparate (t : Table Value) : Prop where
  sorted : t.Sorted
  unreserved : ∀ p ∈ t, isReserved p.1 = false

section
variable {t : Table Value}

theorem isSeparate_nil : IsSeparate [] := ⟨List.Pairwise.nil, nofun⟩

theorem IsSeparate.insert {field : String} (h : IsSeparate t)
    (hfield : isReserved field = false) (v : Value) : IsSeparate (t.insert field v) where
  sorted := h.sorted.insert field v
  unreserved p hp := by
    rcases Table.mem_insert hp with rfl | hp
    · exact hfield
    · exact h.unreserved p hp

theorem IsSeparate.filter (h : IsSeparate t) (p : String × Value → Bool) :
    IsSeparate (List.filter p t) where
  sorted := h.sorted.filter p
  unreserved q hq := h.unreserved q (List.mem_of_mem_filter hq)

theorem IsSeparate.isReserved_names (h : IsSeparate t) :
    ∀ name ∈ t.names, isReserved name = false := by
  intro name hname
  obtain ⟨v, hv⟩ := Table.mem_names.mp hname
  exact h.unreserved _ hv

end

/-- What the checks on the id and the index ask of a box. -/
structure IsSound (box : Box) : Prop where
  id_ne_empty : box.id ≠ ""
  isIndexName : ∀ name ∈ box.index, IsIndexName name
  nodup_index : box.index.Nodup

/-- A box is prepared again from its own parts exactly if it is sound. -/
theorem prepare_self_iff {box : Box} (h : IsSeparate box.fields) :
    prepare box.id box.revision box.index box.fields = .ok box ↔ box.IsSound := by
  obtain ⟨id, revision, index, fields⟩ := box
  have hfields : Table.ofList fields = fields := Table.ofList_of_sorted h.sorted
  rw [prepare_eq_ok_iff, hfields]
  constructor
  · rintro ⟨hid, hnames, -, he⟩
    injection he with _ _ he
    exact ⟨hid, hnames, he ▸ nodup_eraseDups index⟩
  · rintro ⟨hid, hnames, hnodup⟩
    exact ⟨hid, hnames, h.unreserved, by rw [eraseDups_of_nodup hnodup]⟩

end Box
end BoxClient
