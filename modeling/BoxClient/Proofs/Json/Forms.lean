import BoxClient.Proofs.Json.Routes
import BoxClient.Query.Wire
/-!
The two routes of a form agree on what is written: whatever a form reads from a value it reads from
the text of that value too. Where members become a table, the values in them must be canonical; the
members themselves may stand in any order.
-/
namespace BoxClient.Json

open Outcome

variable {α : Type} {form : Form α} {v : Value} {n : Nat}

/-- What the form reads from the value it reads from the text of the value. -/
def Form.ReadsText (form : Form α) (v : Value) : Prop :=
  ∀ n a, v.Fits n → form.ofValue v = .ok a → (form.read n).Reads v.chars a

/-- A form that agrees with the values it is given reads their texts. -/
theorem Form.Agrees.readsText (h : form.Agrees) (hv : v.normal = v) : form.ReadsText v := by
  intro n a hfits ha r hr
  have hread := Value.reader_reads hfits r hr
  rw [hv] at hread
  exact (h n _ _ _).mpr ⟨v, hread, ha⟩

theorem string_readsText (v : Value) : Form.string.ReadsText v := by
  intro n s hfits hs
  obtain rfl := string_eq_ok_iff.mp hs
  exact string_agrees.readsText rfl n s hfits hs

theorem unsigned_readsText (expected : String) (convert : UInt64 → Option α) (v : Value) :
    (Form.unsigned expected convert).ReadsText v := by
  intro n a hfits ha
  cases v with
  | number m => exact (unsigned_agrees expected convert).readsText rfl n a hfits ha
  | _ => cases ha

theorem uint64_readsText (v : Value) : Form.uint64.ReadsText v := unsigned_readsText _ _ v

theorem uint32_readsText (v : Value) : Form.uint32.ReadsText v := unsigned_readsText _ _ v

theorem optional_readsText_number {m : Number} (h : form.ReadsText (.number m)) :
    (Form.optional form).ReadsText (.number m) := by
  intro n a hfits ha r hr
  obtain ⟨b, bs, hbs, hb⟩ := exists_startsNumber (Value.fits_number.mp hfits)
  obtain ⟨a, hform, rfl⟩ : ∃ a', form.ofValue (.number m) = .ok a' ∧ a = some a' := by
    change some <$> form.ofValue (.number m) = .ok a at ha
    cases hform : form.ofValue (.number m) with
    | error e =>
      rw [hform] at ha
      cases ha
    | ok a' =>
      rw [hform] at ha
      cases ha
      exact ⟨a', rfl, rfl⟩
  have hread : form.read n (Utf8.ofChars m.text ++ r) = .ok (a, r) := h n a hfits hform r hr
  show (Form.optional form).read n (Utf8.ofChars m.text ++ r) = .ok (some a, r)
  rw [hbs, List.cons_append] at hread ⊢
  simp only [Form.optional, skipSpace_cons hb.ne.1]
  split
  · rename_i he
    cases he
    exact absurd rfl hb.ne.2.2.1
  · rw [hread]
    rfl

theorem list_readsText (h : ∀ vs, v = .array vs → ∀ w ∈ vs, form.ReadsText w) :
    (Form.list form).ReadsText v := by
  intro n as hfits has r hr
  obtain ⟨vs, rfl, hvs⟩ := list_eq_ok_iff.mp has
  obtain ⟨n, rfl, hitems⟩ := Value.fits_array.mp hfits
  have hreads : List.Forall₂ (ReadsItem (form.read n)) vs as := by
    have hread : ∀ w ∈ vs, form.ReadsText w ∧ w.Fits n := fun w hw => ⟨h vs rfl w hw, hitems w hw⟩
    exact ((List.forall₂_and_left _ _).mpr ⟨hread, hvs⟩).imp fun w a hw =>
      ⟨isFront_chars hw.1.2, hw.1.1 n a hw.1.2 hw.2⟩
  rw [Value.tail_chars_array]
  exact arrayOf_reads hreads r hr

/-- Canonical objects are read as tables. -/
theorem table_readsText (hv : v.Canonical) : Form.table.ReadsText v := by
  intro n t hfits ht r hr
  cases hv with
  | object hsorted hvalues =>
    cases ht
    obtain ⟨n, rfl, hmembers⟩ := Value.fits_object.mp hfits
    rw [Value.tail_chars_object]
    have hread := objectOf_entry_reads (fun p hp => Value.reader_reads (hmembers p hp)) r hr
    rw [Value.normal_mapValues fun p hp => (hvalues p hp).normal_eq,
      Table.ofList_of_sorted hsorted] at hread
    exact hread
  | _ => cases ht

theorem fill_reads {name : String} {slot slot' : Option α} (h : form.ReadsText v) (hv : v.Fits n)
    (hfill : fillOfValue name slot form v = .ok slot') :
    (fill name slot form n).Reads (':' :: v.chars) slot' := by
  obtain ⟨rfl, a, ha, rfl⟩ := fillOfValue_eq_ok_iff.mp hfill
  intro r hr
  rw [fill]
  dsimp only
  rw [colon_reads, ok_bind]
  dsimp only
  rw [h n a hv ha r hr]
  rfl

/-- A draft takes its slot from the text of a member as it does from the value. -/
theorem slot_reads {σ : Type} {name : String} {slot : Option α} {set : Option α → σ} {s : σ}
    (h : form.ReadsText v) (hv : v.Fits n)
    (htake : (fillOfValue name slot form v >>= fun slot => pure (set slot)) = .ok s) :
    Reader.Reads (fun bs => fill name slot form n bs >>= fun p => .ok (set p.1, p.2))
      (':' :: v.chars) s := by
  obtain ⟨slot', hfill, he⟩ := bind_eq_ok.mp htake
  cases he
  intro r hr
  dsimp only
  rw [fill_reads h hv hfill r hr]
  rfl

/-- What is read from a value is decoded from its text. -/
theorem Form.ReadsText.decode_text {a : α} (h : form.ReadsText v) (hfits : v.Fits nestingLimit)
    (hv : form.ofValue v = .ok a) : form.decode (Utf8.encode v.text) = .ok a := by
  rw [Form.decode, Form.readText, Value.text, Utf8.encode_ofList, whole_of_reads (h _ a hfits hv)]
  rfl

end BoxClient.Json
