import BoxClient.Proofs.Json.RoundTrip
import BoxClient.Proofs.Records
/-!
Reading in a form beside reading a value first. On the way through a text both take the same bytes
for the same parts, so for numbers, strings and lists the form can as well be given the value. A
record that is gathered from the members of an object is made from the list of all of them, in the
order of the text and with its repetitions; the table that a value keeps is made from that list too.
-/
namespace BoxClient.Json

open Outcome

section
variable {α β σ ε : Type}

/-- A reader that reads a value and makes something of it. -/
def Reader.Makes (reader : Reader α) (value : Reader β) (make : β → Except ε α) : Prop :=
  ∀ bs a r, reader bs = .ok (a, r) ↔ ∃ b, value bs = .ok (b, r) ∧ make b = .ok a

/-- An array whose items are made of values is made of the array of these values. -/
theorem items_makes {item : Reader α} {value : Reader β} {make : β → Except ε α}
    (h : item.Makes value make) (rounds : Bytes) (first : Bool) :
    Reader.Makes (items item rounds first) (items value rounds first) fun bs => bs.mapM make := by
  induction rounds generalizing first with
  | nil =>
    intro bs as r
    simp [items]
  | cons round rounds ih =>
    intro bs as r
    rcases item?_cases first bs with ⟨f, hitem⟩ | ⟨r', hitem⟩ | ⟨r', hitem⟩
    · simp [items, hitem]
    · simp only [items, hitem, ok_bind, bind_eq_ok, Except.ok.injEq, Prod.mk.injEq]
      constructor
      · rintro ⟨p, hclose, rfl, rfl⟩
        exact ⟨[], ⟨p, hclose, rfl, rfl⟩, rfl⟩
      · rintro ⟨_, ⟨p, hclose, rfl, rfl⟩, hmake⟩
        cases hmake
        exact ⟨p, hclose, rfl, rfl⟩
    · have hstep {γ : Type} (item : Reader γ) (as : List γ) :
          items item (round :: rounds) first bs = .ok (as, r) ↔ ∃ a r₁ as', item r' = .ok (a, r₁) ∧
            items item rounds false r₁ = .ok (as', r) ∧ as = a :: as' := by
        simp only [items, hitem, bind_eq_ok, Except.ok.injEq, Prod.exists, Prod.mk.injEq]
        constructor
        · rintro ⟨_, _, ⟨a, r₁, ha, rfl, rfl⟩, hmore⟩
          obtain ⟨⟨as', _⟩, has, he⟩ := bind_eq_ok.mp hmore
          cases he
          exact ⟨a, r₁, as', ha, has, rfl⟩
        · rintro ⟨a, r₁, as', ha, has, rfl⟩
          exact ⟨_, _, ⟨a, r₁, ha, rfl, rfl⟩, bind_eq_ok.mpr ⟨_, has, rfl⟩⟩
      simp only [hstep, h _ _ _, ih _ _ _ _]
      constructor
      · rintro ⟨a, r₁, as', ⟨b, hb, ha⟩, ⟨bs', hbs, has⟩, rfl⟩
        refine ⟨b :: bs', ⟨b, r₁, bs', hb, hbs, rfl⟩, ?_⟩
        simp [ha, has]
      · rintro ⟨_, ⟨b, r₁, bs', hb, hbs, rfl⟩, hmake⟩
        simp only [List.mapM_cons, bind_eq_ok, pure_eq] at hmake
        obtain ⟨a, ha, as', has, he⟩ := hmake
        cases he
        exact ⟨a, r₁, as', ⟨b, hb, ha⟩, ⟨bs', hbs, has⟩, rfl⟩

/-- What follows a key is a colon and a value, which is then taken. -/
def Takes (member : σ → String → Reader σ) (value : Reader β)
    (take : σ → String → β → Except ε σ) : Prop :=
  ∀ s name bs s' r, member s name bs = .ok (s', r) ↔
    ∃ r₁ b, colon bs = .ok ((), r₁) ∧ value r₁ = .ok (b, r) ∧ take s name b = .ok s'

/-- The members of an object and its end: all of them, in the order of the text. -/
def memberList (value : Reader β) : (rounds : Bytes) → (first : Bool) → Reader (List (String × β))
  | [], _, bs => .error (.next .endInObject bs)
  | _ :: rounds, first, bs => do
    match ← key? first bs with
    | (none, r) => .ok ([], r)
    | (some name, r) =>
      let (_, r) ← colon r
      let (b, r) ← value r
      let (ps, r) ← memberList value rounds false r
      .ok ((name, b) :: ps, r)

theorem entry_takes (value : Reader β) :
    Takes (entry value) value fun t name b => (.ok (t.insert name b) : Except ε _) := by
  intro t name bs t' r
  simp only [entry, bind_eq_ok, Prod.exists, Except.ok.injEq, Prod.mk.injEq]
  constructor
  · rintro ⟨_, r₁, hcolon, b, _, hb, rfl, rfl⟩
    exact ⟨r₁, b, hcolon, hb, rfl⟩
  · rintro ⟨r₁, b, hcolon, hb, rfl⟩
    exact ⟨_, r₁, hcolon, b, _, hb, rfl, rfl⟩

/-- What an object gathers, its members give one after the other. -/
theorem members_takes {member : σ → String → Reader σ} {value : Reader β}
    {take : σ → String → β → Except ε σ} (h : Takes member value take) (rounds : Bytes)
    (first : Bool) (s s' : σ) (bs r : Bytes) :
    members member rounds first s bs = .ok (s', r) ↔
      ∃ ps, memberList value rounds first bs = .ok (ps, r) ∧
        ps.foldlM (fun s p => take s p.1 p.2) s = .ok s' := by
  induction rounds generalizing first s bs with
  | nil => simp [members, memberList]
  | cons _ rounds ih =>
    rw [members, memberList]
    cases hkey : key? first bs with
    | error f => simp
    | ok p =>
      obtain ⟨name?, r₁⟩ := p
      cases name? with
      | none =>
        simp only [ok_bind, Except.ok.injEq, Prod.mk.injEq]
        constructor
        · rintro ⟨rfl, rfl⟩
          exact ⟨[], ⟨rfl, rfl⟩, rfl⟩
        · rintro ⟨_, ⟨rfl, rfl⟩, hfold⟩
          cases hfold
          exact ⟨rfl, rfl⟩
      | some name =>
        simp only [ok_bind, bind_eq_ok, Prod.exists, h _ _ _ _ _, ih, Except.ok.injEq,
          Prod.mk.injEq]
        constructor
        · rintro ⟨s₁, r₂, ⟨r₃, b, hcolon, hb, htake⟩, ps, hps, hfold⟩
          refine ⟨(name, b) :: ps, ⟨_, r₃, hcolon, b, r₂, hb, ps, r, hps, rfl, rfl⟩, ?_⟩
          rw [List.foldlM_cons, htake, ok_bind, hfold]
        · rintro ⟨_, ⟨_, r₃, hcolon, b, r₂, hb, ps, _, hps, rfl, rfl⟩, hfold⟩
          rw [List.foldlM_cons, bind_eq_ok] at hfold
          obtain ⟨s₁, htake, hfold⟩ := hfold
          exact ⟨s₁, r₂, ⟨r₃, b, hcolon, hb, htake⟩, ps, hps, hfold⟩

end

section
variable {α σ : Type} {form : Form α} {n : Nat} {bs r : Bytes}

/-- In the form is read what it makes of the value that is there. -/
def Form.Agrees (form : Form α) : Prop :=
  ∀ n, (form.read n).Makes (Value.reader n) form.ofValue

theorem string_agrees : Form.string.Agrees := by
  intro n bs s r
  simp only [string_eq_ok_iff, exists_eq_right, Value.reader_string]
  simp only [Form.string]
  constructor
  · intro h
    split at h
    · rename_i r' hskip
      exact ⟨r', hskip, h⟩
    · exact absurd h mismatch_ne_ok
  · rintro ⟨r', hskip, hs⟩
    rw [hskip]
    exact hs

theorem unsigned_agrees (expected : String) (convert : UInt64 → Option α) :
    (Form.unsigned expected convert).Agrees := by
  intro n bs a r
  have hvalue (v : Value) : (Form.unsigned expected convert).ofValue v = .ok a ↔
      ∃ m, v = .number m ∧ Form.convertNumber expected convert m = .ok a := by
    cases v <;> simp [Form.unsigned]
  simp only [hvalue]
  constructor
  · intro h
    simp only [Form.unsigned] at h
    split at h
    · rename_i b r' hskip
      split at h
      · rename_i hb
        obtain ⟨⟨m, r₁⟩, hm, h⟩ := bind_eq_ok.mp h
        dsimp only at h
        split at h
        · rename_i ha
          cases h
          exact ⟨_, Value.reader_number.mpr ⟨b, r', hskip, hb, hm⟩, m, rfl, ha⟩
        · cases h
      · exact absurd h mismatch_ne_ok
    · exact absurd h mismatch_ne_ok
  · rintro ⟨_, hread, m, rfl, ha⟩
    obtain ⟨b, r', hskip, hb, hm⟩ := Value.reader_number.mp hread
    simp only [Form.unsigned, hskip]
    rw [if_pos (show _ = true from hb), hm, ok_bind]
    dsimp only
    rw [ha]

theorem list_agrees (h : form.Agrees) : (Form.list form).Agrees := by
  intro n bs as r
  have hvalue (v : Value) : (Form.list form).ofValue v = .ok as ↔
      ∃ vs, v = .array vs ∧ vs.mapM form.ofValue = .ok as := by
    cases v <;> simp [Form.list]
  simp only [hvalue]
  constructor
  · intro hread
    simp only [Form.list] at hread
    split at hread
    · rename_i r' hskip
      cases n with
      | zero => cases hread
      | succ n =>
        obtain ⟨vs, hvs, has⟩ := (items_makes (h n) r' true r' as r).mp hread
        exact ⟨_, Value.reader_array.mpr ⟨n, r', rfl, hskip, hvs⟩, vs, rfl, has⟩
    · exact absurd hread mismatch_ne_ok
  · rintro ⟨_, hread, vs, rfl, has⟩
    obtain ⟨n, r', rfl, hskip, hvs⟩ := Value.reader_array.mp hread
    simp only [Form.list, hskip]
    exact (items_makes (h n) r' true r' as r).mpr ⟨vs, hvs, has⟩

/-- A slot is filled from a member as it is from the value of the member. -/
theorem fill_eq_ok_iff (h : form.Agrees) {name : String} {slot slot' : Option α} :
    fill name slot form n bs = .ok (slot', r) ↔
      ∃ r₁ v, colon bs = .ok ((), r₁) ∧ Value.reader n r₁ = .ok (v, r) ∧
        fillOfValue name slot form v = .ok slot' := by
  cases slot with
  | some a => simp [fill, fillOfValue]
  | none =>
    simp only [fill, bind_eq_ok, Prod.exists, h n _ _ _, Except.ok.injEq, Prod.mk.injEq,
      fillOfValue_eq_ok_iff, true_and]
    constructor
    · rintro ⟨_, r₁, hcolon, a, _, ⟨v, hv, ha⟩, rfl, rfl⟩
      exact ⟨r₁, v, hcolon, hv, a, ha, rfl⟩
    · rintro ⟨r₁, v, hcolon, hv, a, ha, rfl⟩
      exact ⟨_, r₁, hcolon, a, r, ⟨v, hv, ha⟩, rfl, rfl⟩

/-- A draft whose slot is filled takes what follows the key. -/
theorem slot_takes (h : form.Agrees) {name : String} {slot : Option α} (set : Option α → σ)
    {s : σ} :
    (fill name slot form n bs >>= fun p => .ok (set p.1, p.2)) = .ok (s, r) ↔
      ∃ r₁ v, colon bs = .ok ((), r₁) ∧ Value.reader n r₁ = .ok (v, r) ∧
        (fillOfValue name slot form v >>= fun slot => .ok (set slot)) = .ok s := by
  simp only [bind_eq_ok, Prod.exists, fill_eq_ok_iff h, Except.ok.injEq, Prod.mk.injEq]
  constructor
  · rintro ⟨slot', _, ⟨r₁, v, hcolon, hv, hfill⟩, rfl, rfl⟩
    exact ⟨r₁, v, hcolon, hv, slot', hfill, rfl⟩
  · rintro ⟨r₁, v, hcolon, hv, slot', hfill, rfl⟩
    exact ⟨slot', r, ⟨r₁, v, hcolon, hv, hfill⟩, rfl, rfl⟩

end

/-- An object with these members, in the order of the text, stands in front of the rest. -/
def ReadsMembers (n : Nat) (bs : Bytes) (ps : Table Value) (r : Bytes) : Prop :=
  ∃ m r', n = m + 1 ∧ skipSpace bs = 0x7b :: r' ∧
    memberList (Value.reader m) r' true r' = .ok (ps, r)

/-- A text that is an object with these members, in the order of the text. -/
def HasMembers (text : Bytes) (ps : Table Value) : Prop :=
  ∃ r, ReadsMembers nestingLimit text ps r ∧ skipSpace r = []

section
variable {n : Nat} {bs r text : Bytes} {t ps ps' : Table Value}

/-- A text has its members only in one way. -/
theorem HasMembers.unique (h : HasMembers text ps) (h' : HasMembers text ps') : ps = ps' := by
  obtain ⟨r, ⟨m, bs, hm, hskip, hread⟩, -⟩ := h
  obtain ⟨r', ⟨m', bs', hm', hskip', hread'⟩, -⟩ := h'
  obtain rfl : m = m' := Nat.succ.inj (hm.symm.trans hm')
  rw [hskip] at hskip'
  cases hskip'
  rw [hread] at hread'
  cases hread'
  rfl

/-- The value of an object keeps the table of its members. -/
theorem reader_object_iff : Value.reader n bs = .ok (.object t, r) ↔
    ∃ ps, ReadsMembers n bs ps r ∧ t = Table.ofList ps := by
  have hmembers (m : Nat) (r' : Bytes) : objectOf (entry (Value.reader m)) [] r' = .ok (t, r) ↔
      ∃ ps, memberList (Value.reader m) r' true r' = .ok (ps, r) ∧ t = Table.ofList ps := by
    have htakes : Takes (entry (Value.reader m)) (Value.reader m) fun t name v =>
        (.ok (t.insert name v) : Except Empty _) := entry_takes _
    rw [objectOf, members_takes htakes]
    simp [eq_comm (a := t)]
    rfl
  simp only [Value.reader_object, hmembers, ReadsMembers]
  grind

theorem decode_object_iff : decode text = .ok (.object t) ↔
    ∃ ps, HasMembers text ps ∧ t = Table.ofList ps := by
  simp only [decode_eq_ok_iff, reader_object_iff, HasMembers]
  grind

end

end BoxClient.Json
