import BoxClient.Proofs.Json.Literal
import BoxClient.Proofs.Json.Shape
/-!
Values that are written are read back in normal form. The loops of the readers are followed along
the items and the members that were written, for any reader of what stands inside: values, and later
the types that are read from them, differ only in that reader.
-/
namespace BoxClient.Json

open Outcome

variable {α σ : Type}

/-- The reader takes these characters for `a`, whatever follows that does not continue a number. -/
def Reader.Reads (reader : Reader α) (cs : List Char) (a : α) : Prop :=
  ∀ r, EndsNumber r → reader (Utf8.ofChars cs ++ r) = .ok (a, r)

theorem exists_startsNumber {m : Number} (h : ∀ x, m ≠ .float x) :
    ∃ b bs, Utf8.ofChars m.text = b :: bs ∧ StartsNumber b := by
  cases m with
  | float x => exact absurd rfl (h x)
  | negative below =>
    have hminus : String.utf8EncodeChar '-' = [0x2d] := by decide
    exact ⟨0x2d, _, by rw [Number.text, Utf8.ofChars_cons, hminus]; rfl, rfl⟩
  | natural m =>
    obtain ⟨d, bs, hd, hbs⟩ := exists_ofChars_toDigits_eq m.toNat
    refine ⟨digitByte d, bs, hbs, ?_⟩
    rw [StartsNumber, isDigit_digitByte hd, Bool.or_true]

/-- Characters that begin neither with space nor with the end of an array. -/
def IsFront (cs : List Char) : Prop :=
  ∃ b bs, Utf8.ofChars cs = b :: bs ∧ isSpace b = false ∧ b ≠ 0x5d

theorem isFront_chars {n : Nat} {v : Value} (h : v.Fits n) : IsFront v.chars := by
  cases v with
  | null => exact ⟨_, _, rfl, by decide, by decide⟩
  | boolean b => cases b <;> exact ⟨_, _, rfl, by decide, by decide⟩
  | string s => exact ⟨_, _, rfl, by decide, by decide⟩
  | array vs => cases vs <;> exact ⟨_, _, rfl, by decide, by decide⟩
  | object t =>
    cases t with
    | nil => exact ⟨_, _, rfl, by decide, by decide⟩
    | cons p t =>
      obtain ⟨name, v⟩ := p
      exact ⟨_, _, rfl, by decide, by decide⟩
  | number m =>
    obtain ⟨b, bs, hbs, hb⟩ := exists_startsNumber (Value.fits_number.mp h)
    exact ⟨b, bs, hbs, hb.ne.1, hb.ne.2.1⟩

theorem endsNumber_items (vs : List Value) (r : Bytes) :
    EndsNumber (Utf8.ofChars (charsOfItems vs) ++ r) := by
  cases vs with
  | nil => exact endsNumber_cons.mpr ⟨by decide, by decide, by decide⟩
  | cons v vs => exact endsNumber_cons.mpr ⟨by decide, by decide, by decide⟩

theorem endsNumber_members (t : Table Value) (r : Bytes) :
    EndsNumber (Utf8.ofChars (charsOfMembers t) ++ r) := by
  cases t with
  | nil => exact endsNumber_cons.mpr ⟨by decide, by decide, by decide⟩
  | cons p t => exact endsNumber_cons.mpr ⟨by decide, by decide, by decide⟩

section
variable {item : Reader α} {v : Value} {vs : List Value} {a : α} {as : List α} {rounds r : Bytes}

/-- The item of an array that has this text. -/
def ReadsItem (item : Reader α) (v : Value) (a : α) : Prop :=
  IsFront v.chars ∧ item.Reads v.chars a

theorem item?_first (h : ReadsItem item v a) (hr : EndsNumber r) :
    item? item true (Utf8.ofChars v.chars ++ r) = .ok (some a, r) := by
  obtain ⟨⟨b, bs, hbs, hspace, hend⟩, hreads⟩ := h
  have hread := hreads r hr
  rw [hbs, List.cons_append] at hread ⊢
  rw [item?, skipSpace_cons hspace]
  dsimp only
  rw [if_neg hend, if_pos rfl, hread]
  rfl

theorem item?_next (h : ReadsItem item v a) (hr : EndsNumber r) :
    item? item false (0x2c :: (Utf8.ofChars v.chars ++ r)) = .ok (some a, r) := by
  obtain ⟨⟨b, bs, hbs, hspace, hend⟩, hreads⟩ := h
  have hread := hreads r hr
  rw [hbs, List.cons_append] at hread ⊢
  rw [item?, skipSpace_cons (by decide)]
  dsimp only
  rw [if_neg (by decide), if_neg (by decide), if_pos rfl, skipSpace_cons hspace]
  split
  · rename_i he
    cases he
    exact absurd rfl hend
  · rw [hread]
    rfl

/-- The items after the first are read up to the end of the array. -/
theorem items_reads (h : List.Forall₂ (ReadsItem item) vs as) (hrounds : vs.length < rounds.length)
    (r : Bytes) :
    items item rounds false (Utf8.ofChars (charsOfItems vs) ++ r) = .ok (as, r) := by
  induction h generalizing rounds with
  | nil =>
    cases rounds with
    | nil => cases hrounds
    | cons _ rounds => rfl
  | @cons v a vs as hv hvs ih =>
    cases rounds with
    | nil => cases hrounds
    | cons _ rounds =>
      have hcomma : String.utf8EncodeChar ',' = [0x2c] := by decide
      have hchars : Utf8.ofChars (charsOfItems (v :: vs)) ++ r =
          0x2c :: (Utf8.ofChars v.chars ++ (Utf8.ofChars (charsOfItems vs) ++ r)) := by
        simp [charsOfItems, hcomma]
      rw [hchars, items, item?_next hv (endsNumber_items vs r), ok_bind]
      dsimp only
      rw [ih (Nat.lt_of_succ_lt_succ hrounds)]
      rfl

theorem length_charsOfItems (vs : List Value) :
    vs.length < (Utf8.ofChars (charsOfItems vs)).length := by
  induction vs with
  | nil => decide
  | cons v vs ih =>
    have hcomma : String.utf8EncodeChar ',' = [0x2c] := by decide
    simp [charsOfItems, hcomma]
    omega

/-- The items of an array are read from behind its bracket. -/
theorem arrayOf_reads (h : List.Forall₂ (ReadsItem item) vs as) :
    (arrayOf item).Reads (Value.array vs).chars.tail as := by
  intro r _
  cases h with
  | nil => rfl
  | @cons v a vs as hv hvs =>
    have hchars : Utf8.ofChars (Value.array (v :: vs)).chars.tail ++ r =
        Utf8.ofChars v.chars ++ (Utf8.ofChars (charsOfItems vs) ++ r) := by
      simp [Value.chars]
    have hlength := length_charsOfItems vs
    rw [hchars, arrayOf]
    generalize hrounds : Utf8.ofChars v.chars ++ (Utf8.ofChars (charsOfItems vs) ++ r) = rounds
    have hlong : vs.length + 1 < rounds.length := by
      obtain ⟨⟨b, bs, hbs, -⟩, -⟩ := hv
      rw [← hrounds, hbs]
      simp only [List.length_cons, List.length_append]
      omega
    cases rounds with
    | nil => cases hlong
    | cons _ rounds =>
      rw [items, ← hrounds, item?_first hv (endsNumber_items vs r), ok_bind]
      dsimp only
      rw [items_reads hvs (Nat.lt_of_succ_lt_succ hlong)]
      rfl

end

theorem ofChars_stringText (s : String) (r : Bytes) :
    Utf8.ofChars (stringText s) ++ r =
      0x22 :: (Utf8.ofChars (s.toList.flatMap escapeChar) ++ 0x22 :: r) := by
  have hquote : String.utf8EncodeChar '"' = [0x22] := by decide
  simp [stringText, hquote]

theorem key?_first (name : String) (r : Bytes) :
    key? true (Utf8.ofChars (stringText name) ++ r) = .ok (some name, r) := by
  rw [ofChars_stringText, key?, skipSpace_cons (by decide)]
  dsimp only
  rw [if_neg (by decide), if_pos rfl, if_pos rfl, string_text]
  rfl

theorem key?_next (name : String) (r : Bytes) :
    key? false (0x2c :: (Utf8.ofChars (stringText name) ++ r)) = .ok (some name, r) := by
  rw [ofChars_stringText, key?, skipSpace_cons (by decide)]
  dsimp only
  rw [if_neg (by decide), if_neg (by decide), if_pos rfl, skipSpace_cons (by decide)]
  dsimp only
  rw [if_pos rfl, string_text]
  rfl

theorem length_charsOfMembers (t : Table Value) :
    t.length < (Utf8.ofChars (charsOfMembers t)).length := by
  induction t with
  | nil => decide
  | cons p t ih =>
    obtain ⟨name, v⟩ := p
    have hcomma : String.utf8EncodeChar ',' = [0x2c] := by decide
    simp [charsOfMembers, hcomma]
    omega

section
variable {ε : Type} {member : σ → String → Reader σ} {take : σ → String → Value → Except ε σ}
  {t : Table Value} {s s' : σ} {rounds r : Bytes}

/-- What follows a key is gathered from the text as `take` gathers it from the value. -/
def ReadsMember (member : σ → String → Reader σ) (take : σ → String → Value → Except ε σ)
    (name : String) (v : Value) : Prop :=
  ∀ s s', take s name v = .ok s' → (member s name).Reads (':' :: v.chars) s'

theorem foldlM_cons_eq_ok {p : String × Value}
    (h : (p :: t).foldlM (fun s p => take s p.1 p.2) s = .ok s') :
    ∃ s₁, take s p.1 p.2 = .ok s₁ ∧ t.foldlM (fun s p => take s p.1 p.2) s₁ = .ok s' := by
  rw [List.foldlM_cons, bind_eq_ok] at h
  exact h

/-- The members after the first are read up to the end of the object. -/
theorem members_reads (h : ∀ p ∈ t, ReadsMember member take p.1 p.2)
    (hfold : t.foldlM (fun s p => take s p.1 p.2) s = .ok s') (hrounds : t.length < rounds.length)
    (r : Bytes) :
    members member rounds false s (Utf8.ofChars (charsOfMembers t) ++ r) = .ok (s', r) := by
  induction t generalizing s rounds with
  | nil =>
    cases hfold
    cases rounds with
    | nil => cases hrounds
    | cons _ rounds => rfl
  | cons p t ih =>
    obtain ⟨name, v⟩ := p
    obtain ⟨s₁, htake, hfold⟩ := foldlM_cons_eq_ok hfold
    rw [List.forall_mem_cons] at h
    cases rounds with
    | nil => cases hrounds
    | cons _ rounds =>
      have hcomma : String.utf8EncodeChar ',' = [0x2c] := by decide
      have hchars : Utf8.ofChars (charsOfMembers ((name, v) :: t)) ++ r =
          0x2c :: (Utf8.ofChars (stringText name) ++
            (Utf8.ofChars (':' :: v.chars) ++ (Utf8.ofChars (charsOfMembers t) ++ r))) := by
        simp [charsOfMembers, hcomma]
      rw [hchars, members, key?_next, ok_bind]
      dsimp only
      rw [h.1 _ _ htake _ (endsNumber_members t r), ok_bind]
      exact ih h.2 hfold (Nat.lt_of_succ_lt_succ hrounds)

/-- The members of an object are read from behind its brace, in the order in which they are
written. -/
theorem objectOf_reads (h : ∀ p ∈ t, ReadsMember member take p.1 p.2)
    (hfold : t.foldlM (fun s p => take s p.1 p.2) s = .ok s') :
    (objectOf member s).Reads (Value.object t).chars.tail s' := by
  intro r _
  cases t with
  | nil =>
    cases hfold
    rfl
  | cons p t =>
    obtain ⟨name, v⟩ := p
    obtain ⟨s₁, htake, hfold⟩ := foldlM_cons_eq_ok hfold
    rw [List.forall_mem_cons] at h
    have hchars : Utf8.ofChars (Value.object ((name, v) :: t)).chars.tail ++ r =
        Utf8.ofChars (stringText name) ++
          (Utf8.ofChars (':' :: v.chars) ++ (Utf8.ofChars (charsOfMembers t) ++ r)) := by
      simp [Value.chars]
    have hlength := length_charsOfMembers t
    rw [hchars, objectOf]
    generalize hrounds : Utf8.ofChars (stringText name) ++
      (Utf8.ofChars (':' :: v.chars) ++ (Utf8.ofChars (charsOfMembers t) ++ r)) = rounds
    have hlong : t.length + 1 < rounds.length := by
      rw [← hrounds, ofChars_stringText]
      simp only [List.length_cons, List.length_append]
      omega
    cases rounds with
    | nil => cases hlong
    | cons _ rounds =>
      rw [members, ← hrounds, key?_first, ok_bind]
      dsimp only
      rw [h.1 _ _ htake _ (endsNumber_members t r), ok_bind]
      exact members_reads h.2 hfold (Nat.lt_of_succ_lt_succ hlong) r

theorem colon_reads (cs : List Char) (r : Bytes) :
    colon (Utf8.ofChars (':' :: cs) ++ r) = .ok ((), Utf8.ofChars cs ++ r) := rfl

theorem entry_reads {value : Reader α} {v : Value} {a : α} (h : value.Reads v.chars a)
    (u : Table α) (name : String) :
    (entry value u name).Reads (':' :: v.chars) (u.insert name a) := by
  intro r hr
  rw [entry, colon_reads, ok_bind]
  dsimp only
  rw [h r hr]
  rfl

end

@[simp] theorem foldlM_ok (f : σ → String × Value → σ) (t : Table Value) (s : σ) :
    t.foldlM (fun s p => (.ok (f s p) : Except Empty σ)) s = .ok (t.foldl f s) := by
  induction t generalizing s with
  | nil => rfl
  | cons p t ih => rw [List.foldlM_cons, ok_bind, ih, List.foldl_cons]

/-- An object whose values are read one by one is read as the table of them. -/
theorem objectOf_entry_reads {value : Reader α} {f : Value → α} {t : Table Value}
    (h : ∀ p ∈ t, value.Reads p.2.chars (f p.2)) :
    (objectOf (entry value) []).Reads (Value.object t).chars.tail
      (Table.ofList (Table.mapValues f t)) := by
  let take (u : Table α) (name : String) (v : Value) : Except Empty (Table α) :=
    .ok (u.insert name (f v))
  have hmembers : ∀ p ∈ t, ReadsMember (entry value) take p.1 p.2 := by
    intro p hp u u' htake
    cases htake
    exact entry_reads (h p hp) u p.1
  refine objectOf_reads hmembers ?_
  rw [Table.ofList, Table.insertAll, Table.mapValues, List.foldl_map]
  exact foldlM_ok _ t []

namespace Value

theorem tail_chars_array (vs : List Value) :
    Utf8.ofChars (Value.array vs).chars = 0x5b :: Utf8.ofChars (Value.array vs).chars.tail := by
  cases vs <;> rfl

theorem tail_chars_object (t : Table Value) :
    Utf8.ofChars (Value.object t).chars = 0x7b :: Utf8.ofChars (Value.object t).chars.tail := by
  cases t <;> rfl

/-- A value is read back in its normal form. -/
theorem reader_reads {v : Value} {n : Nat} (h : v.Fits n) : (reader n).Reads v.chars v.normal := by
  induction v using Value.induction generalizing n with
  | null =>
    intro r _
    cases n <;> rfl
  | boolean b =>
    intro r _
    cases n <;> cases b <;> rfl
  | number m =>
    intro r hr
    have hm := fits_number.mp h
    obtain ⟨b, bs, hbs, hb⟩ := exists_startsNumber hm
    have hread := number_text hm hr
    show reader n (Utf8.ofChars m.text ++ r) = .ok (.number m, r)
    rw [hbs, List.cons_append] at hread ⊢
    exact reader_number.mpr ⟨b, bs ++ r, skipSpace_cons hb.ne.1 _, hb, hread⟩
  | string s =>
    intro r _
    show reader n (Utf8.ofChars (stringText s) ++ r) = .ok (.string s, r)
    rw [ofChars_stringText]
    exact reader_string.mpr ⟨_, skipSpace_cons (by decide) _, string_text s r⟩
  | array vs ih =>
    obtain ⟨n, rfl, hvs⟩ := fits_array.mp h
    have hitems : List.Forall₂ (ReadsItem (reader n)) vs (vs.map normal) := by
      rw [List.forall₂_map_right_iff, List.forall₂_same]
      exact fun v hv => ⟨isFront_chars (hvs v hv), ih v hv (hvs v hv)⟩
    intro r hr
    rw [tail_chars_array, List.cons_append, normal, normalItems_eq]
    exact reader_array.mpr ⟨n, _, rfl, skipSpace_cons (by decide) _, arrayOf_reads hitems r hr⟩
  | object t ih =>
    obtain ⟨n, rfl, ht⟩ := fits_object.mp h
    have hmembers := objectOf_entry_reads fun p hp => ih p hp (ht p hp)
    intro r hr
    rw [tail_chars_object, List.cons_append, normal, normalMembers_eq]
    exact reader_object.mpr ⟨n, _, rfl, skipSpace_cons (by decide) _, hmembers r hr⟩

end Value

theorem whole_of_reads {reader : Reader α} {cs : List Char} {a : α} (h : reader.Reads cs a) :
    whole reader (Utf8.ofChars cs) = .ok a := by
  have hread := h [] endsNumber_nil
  rw [List.append_nil] at hread
  exact whole_eq_ok_iff.mpr ⟨[], hread, rfl⟩

/-- A text that is written decodes to the normal form of its value. -/
theorem decode_text {v : Value} (h : v.Fits nestingLimit) :
    decode (Utf8.encode v.text) = .ok v.normal := by
  rw [decode, Value.text, Utf8.encode_ofList, Value.read, whole_of_reads (Value.reader_reads h)]
  rfl

end BoxClient.Json
