import BoxClient.Proofs.Prepare
import BoxClient.Proofs.Records
import BoxClient.Query.Wire
/-!
The boxes and the queries that a program can come by. Whether a box is made, read or edited, its
fields are a sorted table of canonical values without a key of the protocol, and so no field can
take the place of one of the three members beside them. The templates of a query are canonical.
-/
namespace BoxClient

open Json Outcome

namespace Json

section
variable {α : Type} {form : Form α} {P : α → Prop}

theorem list_gives {depth : Nat} (h : ∀ depth, (form.read depth).Gives P) :
    ((Form.list form).read depth).Gives fun as => ∀ a ∈ as, P a := by
  intro bs as r hread
  simp only [Form.list] at hread
  split at hread
  · cases depth with
    | zero => cases hread
    | succ depth => exact items_gives (h depth) _ _ _ _ _ hread
  · exact absurd hread mismatch_ne_ok

theorem table_gives (depth : Nat) :
    (Form.table.read depth).Gives fun t => (Value.object t).Canonical := by
  intro bs t r hread
  simp only [Form.table] at hread
  split at hread
  · cases depth with
    | zero => cases hread
    | succ depth =>
      obtain ⟨hsorted, hvalues⟩ := members_gives (entry_gives (Value.reader_canonical depth)) _ _
        ⟨List.Pairwise.nil, nofun⟩ _ _ _ hread
      exact .object hsorted hvalues
  · exact absurd hread mismatch_ne_ok

theorem fill_gives {name : String} {slot : Option α} {depth : Nat} (h : (form.read depth).Gives P) :
    (fill name slot form depth).Gives fun slot => ∀ a ∈ slot, P a := by
  intro bs slot' r hfill
  cases slot with
  | some _ => cases hfill
  | none =>
    obtain ⟨_, -, hread⟩ := bind_eq_ok.mp hfill
    obtain ⟨⟨a, r'⟩, ha, he⟩ := bind_eq_ok.mp hread
    cases he
    rintro _ ⟨⟩
    exact h _ _ _ ha

end

end Json

namespace Box

structure IsFields (t : Table Value) : Prop where
  sorted : t.Sorted
  canonical : ∀ p ∈ t, p.2.Canonical
  unreserved : ∀ p ∈ t, isReserved p.1 = false

/-- The boxes that are made, prepared or read, and what editing makes of them. Values that are put
in have their objects sorted, as all values have that a reader gives. -/
inductive Reachable : Box → Prop
  | new {id : String} {revision : UInt64} {box : Box} :
      Box.new id revision = .ok box → Reachable box
  | prepare {id : String} {revision : UInt64} {index : List String} {fields : Table Value}
      {box : Box} : (∀ p ∈ fields, p.2.Canonical) →
      Box.prepare id revision index fields = .ok box → Reachable box
  | read {depth : Nat} {bs r : Bytes} {box : Box} :
      Box.form.read depth bs = .ok (box, r) → Reachable box
  | ofValue {v : Value} {box : Box} :
      v.Canonical → Box.form.ofValue v = .ok box → Reachable box
  | insert {box box' : Box} {field : String} {v : Value} {previous : Option Value} :
      Reachable box → v.Canonical → box.insert field v = .ok (previous, box') → Reachable box'
  | erase {box : Box} (field : String) : Reachable box → Reachable (box.erase field).2
  | addIndex {box box' : Box} {field : String} :
      Reachable box → box.addIndex field = .ok box' → Reachable box'

section
variable {t : Table Value} {box box' : Box} {field : String} {v : Value}

theorem IsFields.separate (h : IsFields t) : IsSeparate t := ⟨h.sorted, h.unreserved⟩

theorem isFields_nil : IsFields [] := ⟨List.Pairwise.nil, nofun, nofun⟩

theorem IsFields.insert (h : IsFields t) (hfield : isReserved field = false)
    (hv : v.Canonical) : IsFields (t.insert field v) where
  sorted := h.sorted.insert field v
  canonical p hp := by
    rcases Table.mem_insert hp with rfl | hp
    · exact hv
    · exact h.canonical p hp
  unreserved := (h.separate.insert hfield v).unreserved

theorem IsFields.filter (h : IsFields t) (p : String × Value → Bool) :
    IsFields (List.filter p t) where
  sorted := h.sorted.filter p
  canonical q hq := h.canonical q (List.mem_of_mem_filter hq)
  unreserved q hq := h.unreserved q (List.mem_of_mem_filter hq)

theorem isFields_of_insert {previous : Option Value} (h : IsFields box.fields) (hv : v.Canonical)
    (hinsert : box.insert field v = .ok (previous, box')) : IsFields box'.fields := by
  obtain ⟨hfield, -, rfl⟩ := insert_eq_ok_iff.mp hinsert
  exact h.insert hfield hv

theorem isFields_of_prepare {id : String} {revision : UInt64} {index : List String}
    {fields : Table Value} (hfields : ∀ p ∈ fields, p.2.Canonical)
    (h : prepare id revision index fields = .ok box) : IsFields box.fields := by
  obtain ⟨-, -, hunreserved, rfl⟩ := prepare_eq_ok_iff.mp h
  exact ⟨Table.sorted_ofList fields, fun p hp => hfields p (Table.mem_of_mem_ofList hp),
    fun p hp => hunreserved p (Table.mem_of_mem_ofList hp)⟩

theorem Draft.read_keeps {d : Draft} (h : IsFields d.fields) (depth : Nat) (key : String) :
    (Draft.read depth d key).Gives fun d => IsFields d.fields := by
  intro bs d' r hd
  rw [Draft.read] at hd
  split at hd
  · obtain ⟨_, -, he⟩ := bind_eq_ok.mp hd
    cases he
    exact h
  split at hd
  · obtain ⟨_, -, he⟩ := bind_eq_ok.mp hd
    cases he
    exact h
  split at hd
  · obtain ⟨_, -, he⟩ := bind_eq_ok.mp hd
    cases he
    exact h
  · rename_i hid hrevision hindex
    obtain ⟨⟨fields, r'⟩, hentry, he⟩ := bind_eq_ok.mp hd
    cases he
    obtain ⟨_, -, hentry⟩ := bind_eq_ok.mp hentry
    obtain ⟨⟨v, r''⟩, hv, he⟩ := bind_eq_ok.mp hentry
    cases he
    have hkey : isReserved key = false := by
      simp [isReserved, reservedKeys, hid, hrevision, hindex]
    exact h.insert hkey (Value.reader_canonical _ _ _ _ hv)

/-- A box that is read has no field under a key of the protocol: such keys fill its own slots. -/
theorem form_read_gives (depth : Nat) : (form.read depth).Gives fun box => IsFields box.fields := by
  intro bs box r h
  simp only [form] at h
  split at h
  · cases depth with
    | zero => cases h
    | succ depth =>
      rw [nested, readMembers, bind_eq_ok] at h
      obtain ⟨⟨d, r'⟩, hmembers, h⟩ := h
      have hd : IsFields d.fields :=
        members_gives (fun d key hd => Draft.read_keeps hd depth key) _ _ isFields_nil _ _ _
          hmembers
      dsimp only at h
      split at h
      · rename_i hfinish
        cases h
        rw [Draft.finish] at hfinish
        split at hfinish
        · cases hfinish
        · cases hfinish
          exact hd
      · cases h
  · exact absurd h mismatch_ne_ok

/-- The fields that come from a canonical value are fields of a box. -/
theorem isFields_of_ofValue (hv : v.Canonical) (h : form.ofValue v = .ok box) :
    IsFields box.fields := by
  cases hv with
  | object hsorted hvalues =>
    obtain ⟨t, he, -, -, -, hfields⟩ := (ofValue_eq_ok_iff hsorted).mp h
    cases he
    rw [hfields]
    exact ⟨hsorted.filter _, fun p hp => hvalues p (List.mem_of_mem_filter hp), by simp⟩
  | _ => cases h

/-- However a box comes about, its fields are sorted, canonical and none of them is reserved. -/
theorem Reachable.isFields (h : box.Reachable) : IsFields box.fields := by
  induction h with
  | new h =>
    obtain ⟨-, rfl⟩ := new_eq_ok_iff.mp h
    exact isFields_nil
  | prepare hfields h => exact isFields_of_prepare hfields h
  | read h => exact form_read_gives _ _ _ _ h
  | ofValue hv h => exact isFields_of_ofValue hv h
  | insert _ hv h ih => exact isFields_of_insert ih hv h
  | erase field _ ih => exact ih.filter _
  | addIndex _ h ih =>
    obtain ⟨-, rfl⟩ := addIndex_eq_ok_iff.mp h
    exact ih

end

end Box

namespace Query

def Canonical (q : Query) : Prop := ∀ t ∈ q.templates, (Value.object t).Canonical

/-- The queries that are built or read, and what is added to them. Values that are put in have their
objects sorted. -/
inductive Reachable : Query → Prop
  | new : Reachable {}
  | read {depth : Nat} {bs r : Bytes} {q : Query} :
      Query.form.read depth bs = .ok (q, r) → Reachable q
  | ofValue {v : Value} {q : Query} : v.Canonical → Query.form.ofValue v = .ok q → Reachable q
  | addFilters {q : Query} {filters : Table Value} :
      Reachable q → (∀ p ∈ filters, p.2.Canonical) → Reachable (q.addFilters filters)
  | addTemplate {q q' : Query} {v : Value} :
      Reachable q → v.Canonical → q.addTemplate v = .ok q' → Reachable q'
  | withCount {q : Query} (n : UInt32) : Reachable q → Reachable (q.withCount n)
  | withOffset {q : Query} (n : UInt32) : Reachable q → Reachable (q.withOffset n)

section
variable {q q' : Query} {t : Table Value} {v : Value} {d d' : Draft}

theorem canonical_concat (h : q.Canonical) (ht : (Value.object t).Canonical) :
    Canonical { q with templates := q.templates ++ [t] } := by
  intro u hu
  rcases List.mem_append.mp hu with hu | hu
  · exact h u hu
  · rwa [List.mem_singleton.mp hu]

theorem canonical_addTemplate (h : q.Canonical) (hv : v.Canonical)
    (hadd : q.addTemplate v = .ok q') : q'.Canonical := by
  cases v with
  | object t =>
    cases hadd
    exact canonical_concat h hv
  | _ => cases hadd

theorem canonical_addFilters {filters : Table Value} (h : q.Canonical)
    (hfilters : ∀ p ∈ filters, p.2.Canonical) : (q.addFilters filters).Canonical :=
  canonical_concat h (.object (Table.sorted_ofList filters) fun p hp =>
    hfilters p (Table.mem_of_mem_ofList hp))

def Draft.Canonical (d : Draft) : Prop :=
  ∀ ts ∈ d.templates, ∀ t ∈ ts, (Value.object t).Canonical

theorem Draft.Canonical.finish (h : d.Canonical) : d.finish.Canonical := by
  rcases d with ⟨templates, count, offset⟩
  cases templates with
  | none => exact nofun
  | some ts => exact h ts rfl

theorem Draft.read_canonical (h : d.Canonical) (depth : Nat) (key : String) :
    (Draft.read depth d key).Gives Draft.Canonical := by
  intro bs d' r hd
  rw [Draft.read] at hd
  split at hd
  · obtain ⟨⟨slot, r'⟩, hfill, he⟩ := bind_eq_ok.mp hd
    cases he
    exact fill_gives (list_gives table_gives) _ _ _ hfill
  split at hd
  · obtain ⟨_, -, he⟩ := bind_eq_ok.mp hd
    cases he
    exact h
  split at hd
  · obtain ⟨_, -, he⟩ := bind_eq_ok.mp hd
    cases he
    exact h
  · obtain ⟨_, -, he⟩ := bind_eq_ok.mp hd
    cases he
    exact h

theorem readItems_canonical (depth : Nat) : (readItems depth).Gives Query.Canonical := by
  intro bs q r h
  simp only [readItems, bind_eq_ok] at h
  obtain ⟨⟨templates, r₁⟩, htemplates, ⟨count, r₂⟩, -, ⟨offset, r₃⟩, -, ⟨u, r₄⟩, -, he⟩ := h
  cases he
  refine Draft.Canonical.finish ?_
  rintro ts ⟨⟩
  obtain ⟨bs', hts⟩ := item?_eq_some htemplates
  exact list_gives table_gives _ _ _ hts

theorem form_read_canonical (depth : Nat) : (form.read depth).Gives Query.Canonical := by
  intro bs q r h
  simp only [form] at h
  split at h
  · cases depth with
    | zero => cases h
    | succ depth =>
      obtain ⟨⟨d, r'⟩, hmembers, he⟩ := bind_eq_ok.mp h
      cases he
      have hd : d.Canonical :=
        members_gives (fun d key hd => Draft.read_canonical hd depth key) _ _ (by rintro _ ⟨⟩)
          _ _ _ hmembers
      exact hd.finish
  · cases depth with
    | zero => cases h
    | succ depth => exact readItems_canonical depth _ _ _ h
  · exact absurd h mismatch_ne_ok

theorem canonical_of_tables {ts : List Template} (hv : v.Canonical)
    (h : (Form.list .table).ofValue v = .ok ts) : ∀ t ∈ ts, (Value.object t).Canonical := by
  obtain ⟨vs, rfl, htables⟩ := list_eq_ok_iff.mp h
  clear h
  cases hv with
  | array hvs =>
    induction htables with
    | nil => exact nofun
    | @cons w t vs ts hw _ ih =>
      rw [List.forall_mem_cons] at hvs ⊢
      refine ⟨?_, ih hvs.2⟩
      cases w with
      | object u =>
        cases hw
        exact hvs.1
      | _ => cases hw

theorem Draft.take_canonical (h : d.Canonical) (hv : v.Canonical) {key : String}
    (htake : d.take key v = .ok d') : d'.Canonical := by
  rw [Draft.take] at htake
  split at htake
  · obtain ⟨slot, hslot, he⟩ := bind_eq_ok.mp htake
    cases he
    obtain ⟨-, ts, hts, rfl⟩ := fillOfValue_eq_ok_iff.mp hslot
    rintro _ ⟨⟩
    exact canonical_of_tables hv hts
  split at htake
  · obtain ⟨_, -, he⟩ := bind_eq_ok.mp htake
    cases he
    exact h
  split at htake
  · obtain ⟨_, -, he⟩ := bind_eq_ok.mp htake
    cases he
    exact h
  · cases htake
    exact h

/-- The templates that come from a canonical value are canonical. -/
theorem canonical_of_ofValue (hv : v.Canonical) (h : form.ofValue v = .ok q) : q.Canonical := by
  cases hv with
  | object _ hvalues =>
    obtain ⟨d, hfold, he⟩ := bind_eq_ok.mp h
    cases he
    have hd : d.Canonical := foldlM_keeps Draft.Canonical
      (fun p hp _ _ hd htake => Draft.take_canonical hd (hvalues p hp) htake) (by rintro _ ⟨⟩) hfold
    exact hd.finish
  | @array vs hvs =>
    simp only [form, ofItems, bind_eq_ok] at h
    obtain ⟨templates, htemplates, count, -, offset, -, u, -, he⟩ := h
    cases he
    refine Draft.Canonical.finish fun ts hts => ?_
    obtain rfl : templates = some ts := hts
    rw [itemOfValue?] at htemplates
    split at htemplates
    · rename_i v hv
      have hv := hvs v (List.mem_of_getElem? hv)
      cases hread : (Form.list .table).ofValue v with
      | error m =>
        rw [hread] at htemplates
        cases htemplates
      | ok ts' =>
        rw [hread] at htemplates
        cases htemplates
        exact canonical_of_tables hv hread
    · cases htemplates
  | _ => cases h

/-- Every query that a program can come by is canonical. -/
theorem Reachable.canonical (h : q.Reachable) : q.Canonical := by
  induction h with
  | new => exact nofun
  | read h => exact form_read_canonical _ _ _ _ h
  | ofValue hv h => exact canonical_of_ofValue hv h
  | addFilters _ hfilters ih => exact canonical_addFilters ih hfilters
  | addTemplate _ hv h ih => exact canonical_addTemplate ih hv h
  | withCount _ _ ih => exact ih
  | withOffset _ _ ih => exact ih

end
end Query

end BoxClient
