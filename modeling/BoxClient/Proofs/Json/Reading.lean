import BoxClient.Json.Decode
import BoxClient.Proofs.Outcome
/-!
What readers give, from the outside. A value is known by its first byte, an array by its items, an
object by what its members do to what is gathered, and a whole text by the value in it; so later
proofs need not follow a reader through its cases.
-/
namespace BoxClient.Json

open Outcome

variable {α σ : Type}

/-- What a reader can give. -/
def Reader.Gives {α : Type} (reader : Reader α) (P : α → Prop) : Prop :=
  ∀ bs a r, reader bs = .ok (a, r) → P a

@[simp] theorem skipSpace_cons {b : UInt8} (h : isSpace b = false) (r : Bytes) :
    skipSpace (b :: r) = b :: r := List.dropWhile_cons_of_neg (by simp [h])

/-- The sign or the first digit of a number. -/
def StartsNumber (b : UInt8) : Prop := (b = 0x2d || isDigit b) = true

/-- A number begins neither with space nor as another value or the end of an array does. -/
theorem StartsNumber.ne {b : UInt8} (h : StartsNumber b) :
    isSpace b = false ∧ b ≠ 0x5d ∧ b ≠ 0x6e ∧ b ≠ 0x74 ∧ b ≠ 0x66 := by
  have hne (c : UInt8) (hc : (c = 0x2d || isDigit c) = false) : b ≠ c := by
    rintro rfl
    rw [StartsNumber, hc] at h
    cases h
  refine ⟨?_, hne _ (by decide), hne _ (by decide), hne _ (by decide), hne _ (by decide)⟩
  simp [isSpace, hne 0x20 (by decide), hne 0x09 (by decide), hne 0x0a (by decide),
    hne 0x0d (by decide)]

/-- What stands in front of an item does not depend on the items: it is wrong, or the array ends
there, or an item begins. -/
theorem item?_cases (first : Bool) (bs : Bytes) :
    (∃ f, ∀ (α : Type) (item : Reader α), item? item first bs = .error f) ∨
    (∃ r, ∀ (α : Type) (item : Reader α), item? item first bs = .ok (none, r)) ∨
    ∃ r, ∀ (α : Type) (item : Reader α),
      item? item first bs = item r >>= fun p => .ok (some p.1, p.2) := by
  simp only [item?]
  split
  · exact .inl ⟨_, fun _ _ => rfl⟩
  · split
    · exact .inr (.inl ⟨_, fun _ _ => rfl⟩)
    split
    · exact .inr (.inr ⟨_, fun _ _ => rfl⟩)
    split
    · split
      · exact .inl ⟨_, fun _ _ => rfl⟩
      · exact .inr (.inr ⟨_, fun _ _ => rfl⟩)
    · exact .inl ⟨_, fun _ _ => rfl⟩

theorem item?_eq_some {item : Reader α} {first : Bool} {bs r : Bytes} {a : α}
    (h : item? item first bs = .ok (some a, r)) : ∃ bs', item bs' = .ok (a, r) := by
  rcases item?_cases first bs with ⟨_, hitem⟩ | ⟨_, hitem⟩ | ⟨bs', hitem⟩ <;> rw [hitem] at h
  · cases h
  · cases h
  · obtain ⟨p, hp, he⟩ := bind_eq_ok.mp h
    cases he
    exact ⟨bs', hp⟩

/-- All items of an array are items. -/
theorem items_gives {item : Reader α} {P : α → Prop} (hitem : item.Gives P) (rounds : Bytes)
    (first : Bool) : Reader.Gives (items item rounds first) fun as => ∀ a ∈ as, P a := by
  induction rounds generalizing first with
  | nil =>
    intro bs as r h
    cases h
  | cons _ rounds ih =>
    intro bs as r h
    rw [items, bind_eq_ok] at h
    obtain ⟨⟨a?, r'⟩, hitem?, h⟩ := h
    cases a? with
    | none =>
      obtain ⟨_, -, h⟩ := bind_eq_ok.mp h
      cases h
      simp
    | some a =>
      obtain ⟨⟨as', r''⟩, hmore, h⟩ := bind_eq_ok.mp h
      cases h
      obtain ⟨bs', ha⟩ := item?_eq_some hitem?
      exact List.forall_mem_cons.mpr ⟨hitem _ _ _ ha, ih false _ _ _ hmore⟩

/-- What every member preserves holds of what an object gathers. -/
theorem members_gives {member : σ → String → Reader σ} {I : σ → Prop}
    (hmember : ∀ s name, I s → (member s name).Gives I) (rounds : Bytes) (first : Bool) {s : σ}
    (hs : I s) : Reader.Gives (members member rounds first s) I := by
  induction rounds generalizing first s with
  | nil =>
    intro bs s' r h
    cases h
  | cons _ rounds ih =>
    intro bs s' r h
    rw [members, bind_eq_ok] at h
    obtain ⟨⟨name?, r'⟩, -, h⟩ := h
    cases name? with
    | none =>
      cases h
      exact hs
    | some name =>
      obtain ⟨⟨s'', r''⟩, hone, h⟩ := bind_eq_ok.mp h
      exact ih false (hmember s name hs _ _ _ hone) _ _ _ h

namespace Value

variable {n : Nat} {bs r : Bytes}

/-- How a value is read, from its first byte and the bytes behind it; of words nothing is said. -/
def ReadFrom (inside : Option (Reader Value)) (b : UInt8) (bs r : Bytes) : Value → Prop
  | .null | .boolean _ => True
  | .number m => StartsNumber b ∧ Json.number (b :: bs) = .ok (m, r)
  | .string s => b = 0x22 ∧ Json.string bs = .ok (s, r)
  | .array vs => b = 0x5b ∧ ∃ value, inside = some value ∧ arrayOf value bs = .ok (vs, r)
  | .object t => b = 0x7b ∧ ∃ value, inside = some value ∧ objectOf (entry value) [] bs = .ok (t, r)

/-- What is read is read by its first byte. -/
theorem readFrom_of_readerOver {inside : Option (Reader Value)} {v : Value}
    (h : readerOver inside bs = .ok (v, r)) :
    ∃ b r', skipSpace bs = b :: r' ∧ v.ReadFrom inside b r' r := by
  rw [readerOver] at h
  split at h
  · cases h
  · rename_i b r' hskip
    refine ⟨b, r', hskip, ?_⟩
    split at h
    · obtain ⟨_, -, he⟩ := bind_eq_ok.mp h
      cases he
      trivial
    split at h
    · obtain ⟨_, -, he⟩ := bind_eq_ok.mp h
      cases he
      trivial
    split at h
    · obtain ⟨_, -, he⟩ := bind_eq_ok.mp h
      cases he
      trivial
    split at h
    · rename_i hb
      obtain ⟨⟨m, _⟩, hm, he⟩ := bind_eq_ok.mp h
      cases he
      exact ⟨hb, hm⟩
    split at h
    · rename_i hb
      obtain ⟨⟨s, _⟩, hs, he⟩ := bind_eq_ok.mp h
      cases he
      exact ⟨hb, hs⟩
    split at h
    · rename_i hb
      cases inside with
      | none => cases h
      | some value =>
        obtain ⟨⟨vs, _⟩, hvs, he⟩ := bind_eq_ok.mp h
        cases he
        exact ⟨hb, value, rfl, hvs⟩
    split at h
    · rename_i hb
      cases inside with
      | none => cases h
      | some value =>
        obtain ⟨⟨t, _⟩, ht, he⟩ := bind_eq_ok.mp h
        cases he
        exact ⟨hb, value, rfl, ht⟩
    · cases h

/-- A value is read at each depth by `readerOver`. -/
theorem reader_eq (n : Nat) : ∃ inside, reader n = readerOver inside ∧
    ∀ value, inside = some value ↔ ∃ m, n = m + 1 ∧ value = reader m := by
  cases n with
  | zero => exact ⟨none, rfl, by simp⟩
  | succ n => exact ⟨some (reader n), rfl, by simp [eq_comm]⟩

theorem reader_string {s : String} : reader n bs = .ok (.string s, r) ↔
    ∃ r', skipSpace bs = 0x22 :: r' ∧ Json.string r' = .ok (s, r) := by
  obtain ⟨inside, hreader, -⟩ := reader_eq n
  rw [hreader]
  constructor
  · intro h
    obtain ⟨b, r', hskip, rfl, hs⟩ := readFrom_of_readerOver h
    exact ⟨r', hskip, hs⟩
  · rintro ⟨r', hskip, hs⟩
    rw [readerOver, hskip]
    dsimp only
    rw [if_neg (by decide), if_neg (by decide), if_neg (by decide), if_neg (by decide), if_pos rfl,
      hs]
    rfl

theorem reader_number {m : Number} : reader n bs = .ok (.number m, r) ↔
    ∃ b r', skipSpace bs = b :: r' ∧ StartsNumber b ∧ Json.number (b :: r') = .ok (m, r) := by
  obtain ⟨inside, hreader, -⟩ := reader_eq n
  rw [hreader]
  constructor
  · intro h
    obtain ⟨b, r', hskip, hb, hm⟩ := readFrom_of_readerOver h
    exact ⟨b, r', hskip, hb, hm⟩
  · rintro ⟨b, r', hskip, hb, hm⟩
    obtain ⟨-, -, hn, ht, hf⟩ := hb.ne
    rw [readerOver, hskip]
    dsimp only
    rw [if_neg hn, if_neg ht, if_neg hf, if_pos (show _ = true from hb), hm]
    rfl

theorem reader_array {vs : List Value} : reader n bs = .ok (.array vs, r) ↔
    ∃ m r', n = m + 1 ∧ skipSpace bs = 0x5b :: r' ∧ arrayOf (reader m) r' = .ok (vs, r) := by
  obtain ⟨inside, hreader, hinside⟩ := reader_eq n
  rw [hreader]
  constructor
  · intro h
    obtain ⟨b, r', hskip, rfl, value, hvalue, hvs⟩ := readFrom_of_readerOver h
    obtain ⟨m, rfl, rfl⟩ := (hinside value).mp hvalue
    exact ⟨m, r', rfl, hskip, hvs⟩
  · rintro ⟨m, r', rfl, hskip, hvs⟩
    rw [(hinside _).mpr ⟨m, rfl, rfl⟩, readerOver, hskip]
    dsimp only
    rw [if_neg (by decide), if_neg (by decide), if_neg (by decide), if_neg (by decide),
      if_neg (by decide), if_pos rfl, hvs]
    rfl

theorem reader_object {t : Table Value} : reader n bs = .ok (.object t, r) ↔
    ∃ m r', n = m + 1 ∧ skipSpace bs = 0x7b :: r' ∧
      objectOf (entry (reader m)) [] r' = .ok (t, r) := by
  obtain ⟨inside, hreader, hinside⟩ := reader_eq n
  rw [hreader]
  constructor
  · intro h
    obtain ⟨b, r', hskip, rfl, value, hvalue, ht⟩ := readFrom_of_readerOver h
    obtain ⟨m, rfl, rfl⟩ := (hinside value).mp hvalue
    exact ⟨m, r', rfl, hskip, ht⟩
  · rintro ⟨m, r', rfl, hskip, ht⟩
    rw [(hinside _).mpr ⟨m, rfl, rfl⟩, readerOver, hskip]
    dsimp only
    rw [if_neg (by decide), if_neg (by decide), if_neg (by decide), if_neg (by decide),
      if_neg (by decide), if_neg (by decide), if_pos rfl, ht]
    rfl

end Value

theorem mismatch_ne_ok {expected : String} {bs r : Bytes} {a : α} :
    mismatch expected bs ≠ .ok (a, r) := by
  intro h
  rw [mismatch] at h
  split at h
  · cases h
  · cases h
  · obtain ⟨_, -, h⟩ := bind_eq_ok.mp h
    cases h

/-- Of a whole text nothing but space is left. -/
theorem whole_eq_ok_iff {α : Type} {reader : Reader α} {text : Bytes} {a : α} :
    whole reader text = .ok a ↔ ∃ r, reader text = .ok (a, r) ∧ skipSpace r = [] := by
  rw [whole, bind_eq_ok, Prod.exists]
  constructor
  · rintro ⟨a', r, hread, h⟩
    dsimp only at h
    split at h
    · rename_i hr
      cases h
      exact ⟨r, hread, hr⟩
    · cases h
  · rintro ⟨r, hread, hr⟩
    refine ⟨a, r, hread, ?_⟩
    dsimp only
    rw [hr]

theorem decode_eq_ok_iff {text : Bytes} {v : Value} :
    decode text = .ok v ↔ ∃ r, Value.reader nestingLimit text = .ok (v, r) ∧ skipSpace r = [] := by
  rw [decode, mapError_eq_ok, Value.read, whole_eq_ok_iff]

/-- A text that is not JSON is a serialization error, whatever is wrong with it. -/
theorem decode_error {text : Bytes} {e : Error} (h : decode text = .error e) :
    ∃ m, e = .serialization m := by
  obtain ⟨f, -, rfl⟩ := mapError_eq_error.mp h
  exact ⟨_, rfl⟩

theorem Form.decode_eq_ok_iff {α : Type} {form : Form α} {text : Bytes} {a : α} :
    form.decode text = .ok a ↔
      ∃ r, form.read nestingLimit text = .ok (a, r) ∧ skipSpace r = [] := by
  rw [Form.decode, mapError_eq_ok, Form.readText, whole_eq_ok_iff]

end BoxClient.Json
