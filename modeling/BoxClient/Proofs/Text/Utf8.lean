import BoxClient.Text.Utf8
/-!
Reading UTF-8 undoes writing it, and reads nothing else: a byte list is the encoding of a text
exactly if all of it is read as characters, and these are the text. Each character has one encoded
form, so both directions hold byte for byte.
-/
namespace BoxClient.Utf8

theorem toNat_lt (c : Char) : c.toNat < 0x110000 := by
  have h : c.toNat.isValidChar := c.valid
  rw [Nat.isValidChar] at h
  omega

theorem toNat_ofNat {n : Nat} (h : n.isValidChar) : (Char.ofNat n).toNat = n := by
  rw [Char.ofNat, dif_pos h]
  rfl

theorem toNat_byte {n : Nat} (h : n < 256) : (UInt8.ofNat n).toNat = n :=
  UInt8.toNat_ofNat_of_lt' h

/-- The six bits that a continuation byte carries determine it. -/
@[simp] theorem payload?_eq_some {b : UInt8} {x : Nat} :
    payload? b = some x ↔ x < 0x40 ∧ b = UInt8.ofNat (x + 0x80) := by
  rw [payload?]
  constructor
  · intro h
    split at h
    · rename_i hb
      have hlow : 0x80 ≤ b.toNat := hb.1
      have hhigh : b.toNat < 0xC0 := hb.2
      injection h with h
      subst h
      refine ⟨by omega, ?_⟩
      rw [Nat.sub_add_cancel hlow, UInt8.ofNat_toNat]
    · cases h
  · intro h
    obtain ⟨hx, rfl⟩ := h
    have hb : (UInt8.ofNat (x + 0x80)).toNat = x + 0x80 := toNat_byte (by omega)
    have hrange : 0x80 ≤ UInt8.ofNat (x + 0x80) ∧ UInt8.ofNat (x + 0x80) < 0xC0 := by
      rw [UInt8.le_iff_toNat_le, UInt8.lt_iff_toNat_lt, hb]
      exact ⟨by show 0x80 ≤ x + 0x80; omega, by show x + 0x80 < 0xC0; omega⟩
    rw [if_pos hrange, hb, Nat.add_sub_cancel]

/-- A form is refused for a number that a shorter form holds. -/
@[simp] theorem char?_eq_some {least n : Nat} {c : Char} :
    char? least n = some c ↔ least ≤ n ∧ n = c.toNat := by
  rw [char?]
  constructor
  · intro h
    split at h
    · rename_i hn
      injection h with h
      subst h
      exact ⟨hn.1, (toNat_ofNat hn.2).symm⟩
    · cases h
  · intro h
    obtain ⟨hn, rfl⟩ := h
    rw [if_pos ⟨hn, c.valid⟩, Char.ofNat_toNat]

section
variable {c : Char}

theorem encodeChar_one (h : c.toNat < 0x80) : String.utf8EncodeChar c = [UInt8.ofNat c.toNat] := by
  have h₁ : c.val.toNat ≤ 0x7f := by change c.toNat ≤ 0x7f; omega
  rw [String.utf8EncodeChar, if_pos h₁]
  rfl

theorem encodeChar_two (h : 0x80 ≤ c.toNat) (h' : c.toNat < 0x800) :
    String.utf8EncodeChar c =
      [UInt8.ofNat (c.toNat / 0x40 + 0xC0), UInt8.ofNat (c.toNat % 0x40 + 0x80)] := by
  have h₁ : ¬ c.val.toNat ≤ 0x7f := by change ¬ c.toNat ≤ 0x7f; omega
  have h₂ : c.val.toNat ≤ 0x7ff := by change c.toNat ≤ 0x7ff; omega
  have hlead : c.val.toNat / 64 % 0x20 = c.toNat / 0x40 :=
    Nat.mod_eq_of_lt (by change c.toNat / 64 < 0x20; omega)
  rw [String.utf8EncodeChar, if_neg h₁, if_pos h₂, hlead]
  rfl

theorem encodeChar_three (h : 0x800 ≤ c.toNat) (h' : c.toNat < 0x10000) :
    String.utf8EncodeChar c = [UInt8.ofNat (c.toNat / 0x1000 + 0xE0),
      UInt8.ofNat (c.toNat / 0x40 % 0x40 + 0x80), UInt8.ofNat (c.toNat % 0x40 + 0x80)] := by
  have h₁ : ¬ c.val.toNat ≤ 0x7f := by change ¬ c.toNat ≤ 0x7f; omega
  have h₂ : ¬ c.val.toNat ≤ 0x7ff := by change ¬ c.toNat ≤ 0x7ff; omega
  have h₃ : c.val.toNat ≤ 0xffff := by change c.toNat ≤ 0xffff; omega
  have hlead : c.val.toNat / 4096 % 0x10 = c.toNat / 0x1000 :=
    Nat.mod_eq_of_lt (by change c.toNat / 4096 < 0x10; omega)
  rw [String.utf8EncodeChar, if_neg h₁, if_neg h₂, if_pos h₃, hlead]
  rfl

theorem encodeChar_four (h : 0x10000 ≤ c.toNat) :
    String.utf8EncodeChar c = [UInt8.ofNat (c.toNat / 0x40000 + 0xF0),
      UInt8.ofNat (c.toNat / 0x1000 % 0x40 + 0x80), UInt8.ofNat (c.toNat / 0x40 % 0x40 + 0x80),
      UInt8.ofNat (c.toNat % 0x40 + 0x80)] := by
  have h₁ : ¬ c.val.toNat ≤ 0x7f := by change ¬ c.toNat ≤ 0x7f; omega
  have h₂ : ¬ c.val.toNat ≤ 0x7ff := by change ¬ c.toNat ≤ 0x7ff; omega
  have h₃ : ¬ c.val.toNat ≤ 0xffff := by change ¬ c.toNat ≤ 0xffff; omega
  have hmax := toNat_lt c
  have hlead : c.val.toNat / 262144 % 0x08 = c.toNat / 0x40000 :=
    Nat.mod_eq_of_lt (by change c.toNat / 262144 < 0x08; omega)
  rw [String.utf8EncodeChar, if_neg h₁, if_neg h₂, if_neg h₃, hlead]
  rfl

end

section
variable {a : UInt8} (b b' b'' : UInt8) (r : Bytes)

theorem next?_one (h : a.toNat < 0x80) : next? (a :: r) = some (Char.ofNat a.toNat, r) := by
  have ha : a < 0x80 := h
  simp [next?, ha]

theorem next?_two (h : 0xC0 ≤ a.toNat) (h' : a.toNat < 0xE0) :
    next? (a :: b :: r) = do
      let x ← payload? b
      let c ← char? 0x80 ((a.toNat - 0xC0) * 0x40 + x)
      return (c, r) := by
  have h₁ : ¬ a < 0x80 := by change ¬ a.toNat < 0x80; omega
  have h₂ : ¬ a < 0xC0 := by change ¬ a.toNat < 0xC0; omega
  have h₃ : a < 0xE0 := h'
  simp only [next?, h₁, h₂, h₃, if_false, if_true]

theorem next?_three (h : 0xE0 ≤ a.toNat) (h' : a.toNat < 0xF0) :
    next? (a :: b :: b' :: r) = do
      let x ← payload? b
      let y ← payload? b'
      let c ← char? 0x800 (((a.toNat - 0xE0) * 0x40 + x) * 0x40 + y)
      return (c, r) := by
  have h₁ : ¬ a < 0x80 := by change ¬ a.toNat < 0x80; omega
  have h₂ : ¬ a < 0xC0 := by change ¬ a.toNat < 0xC0; omega
  have h₃ : ¬ a < 0xE0 := by change ¬ a.toNat < 0xE0; omega
  have h₄ : a < 0xF0 := h'
  simp only [next?, h₁, h₂, h₃, h₄, if_false, if_true]

theorem next?_four (h : 0xF0 ≤ a.toNat) (h' : a.toNat < 0xF8) :
    next? (a :: b :: b' :: b'' :: r) = do
      let x ← payload? b
      let y ← payload? b'
      let z ← payload? b''
      let c ← char? 0x10000 ((((a.toNat - 0xF0) * 0x40 + x) * 0x40 + y) * 0x40 + z)
      return (c, r) := by
  have h₁ : ¬ a < 0x80 := by change ¬ a.toNat < 0x80; omega
  have h₂ : ¬ a < 0xC0 := by change ¬ a.toNat < 0xC0; omega
  have h₃ : ¬ a < 0xE0 := by change ¬ a.toNat < 0xE0; omega
  have h₄ : ¬ a < 0xF0 := by change ¬ a.toNat < 0xF0; omega
  have h₅ : a < 0xF8 := h'
  simp only [next?, h₁, h₂, h₃, h₄, h₅, if_false, if_true]

end

/-- The bytes of a character are read as that character, whatever follows. -/
@[simp] theorem next?_encodeChar (c : Char) (r : Bytes) :
    next? (String.utf8EncodeChar c ++ r) = some (c, r) := by
  have hmax := toNat_lt c
  by_cases h₁ : c.toNat < 0x80
  · have ha : (UInt8.ofNat c.toNat).toNat = c.toNat := toNat_byte (by omega)
    rw [encodeChar_one h₁, List.singleton_append, next?_one _ (by omega), ha, Char.ofNat_toNat]
  by_cases h₂ : c.toNat < 0x800
  · have ha : (UInt8.ofNat (c.toNat / 0x40 + 0xC0)).toNat = c.toNat / 0x40 + 0xC0 :=
      toNat_byte (by omega)
    have hx := payload?_eq_some.mpr ⟨show c.toNat % 0x40 < 0x40 by omega, rfl⟩
    have hc : char? 0x80 ((c.toNat / 0x40 + 0xC0 - 0xC0) * 0x40 + c.toNat % 0x40) = some c :=
      char?_eq_some.mpr ⟨by omega, by omega⟩
    rw [encodeChar_two (by omega) h₂, List.cons_append, List.cons_append, List.nil_append,
      next?_two _ _ (by omega) (by omega), hx, ha, Option.bind_eq_bind, Option.bind_some, hc]
    rfl
  by_cases h₃ : c.toNat < 0x10000
  · have ha : (UInt8.ofNat (c.toNat / 0x1000 + 0xE0)).toNat = c.toNat / 0x1000 + 0xE0 :=
      toNat_byte (by omega)
    have hx := payload?_eq_some.mpr ⟨show c.toNat / 0x40 % 0x40 < 0x40 by omega, rfl⟩
    have hy := payload?_eq_some.mpr ⟨show c.toNat % 0x40 < 0x40 by omega, rfl⟩
    have hc : char? 0x800 (((c.toNat / 0x1000 + 0xE0 - 0xE0) * 0x40 +
        c.toNat / 0x40 % 0x40) * 0x40 + c.toNat % 0x40) = some c :=
      char?_eq_some.mpr ⟨by omega, by omega⟩
    rw [encodeChar_three (by omega) h₃]
    simp only [List.cons_append, List.nil_append]
    rw [next?_three _ _ _ (by omega) (by omega), hx, hy, ha]
    simp only [Option.bind_eq_bind, Option.bind_some, hc]
    rfl
  · have ha : (UInt8.ofNat (c.toNat / 0x40000 + 0xF0)).toNat = c.toNat / 0x40000 + 0xF0 :=
      toNat_byte (by omega)
    have hx := payload?_eq_some.mpr ⟨show c.toNat / 0x1000 % 0x40 < 0x40 by omega, rfl⟩
    have hy := payload?_eq_some.mpr ⟨show c.toNat / 0x40 % 0x40 < 0x40 by omega, rfl⟩
    have hz := payload?_eq_some.mpr ⟨show c.toNat % 0x40 < 0x40 by omega, rfl⟩
    have hc : char? 0x10000 ((((c.toNat / 0x40000 + 0xF0 - 0xF0) * 0x40 + c.toNat / 0x1000 % 0x40) *
        0x40 + c.toNat / 0x40 % 0x40) * 0x40 + c.toNat % 0x40) = some c :=
      char?_eq_some.mpr ⟨by omega, by omega⟩
    rw [encodeChar_four (by omega)]
    simp only [List.cons_append, List.nil_append]
    rw [next?_four _ _ _ _ (by omega) (by omega), hx, hy, hz, ha]
    simp only [Option.bind_eq_bind, Option.bind_some, hc]
    rfl

/-- A leading byte between the ranges, or a form that is cut short, is no character. -/
theorem next?_lead {a : UInt8} {t : Bytes} {p : Char × Bytes} (h : next? (a :: t) = some p) :
    a.toNat < 0x80 ∨
    (0xC0 ≤ a.toNat ∧ a.toNat < 0xE0 ∧ ∃ b r, t = b :: r) ∨
    (0xE0 ≤ a.toNat ∧ a.toNat < 0xF0 ∧ ∃ b b' r, t = b :: b' :: r) ∨
    (0xF0 ≤ a.toNat ∧ a.toNat < 0xF8 ∧ ∃ b b' b'' r, t = b :: b' :: b'' :: r) := by
  simp only [next?, UInt8.lt_iff_toNat_lt] at h
  split at h
  · left; assumption
  split at h
  · cases h
  rename_i hlow
  have hlow : 0xC0 ≤ a.toNat := Nat.le_of_not_lt hlow
  split at h
  · rename_i htwo
    split at h
    · exact Or.inr (Or.inl ⟨hlow, htwo, _, _, rfl⟩)
    · cases h
  rename_i htwo
  have htwo : 0xE0 ≤ a.toNat := Nat.le_of_not_lt htwo
  split at h
  · rename_i hthree
    split at h
    · exact Or.inr (Or.inr (Or.inl ⟨htwo, hthree, _, _, _, rfl⟩))
    · cases h
  rename_i hthree
  have hthree : 0xF0 ≤ a.toNat := Nat.le_of_not_lt hthree
  split at h
  · rename_i hfour
    split at h
    · exact Or.inr (Or.inr (Or.inr ⟨hthree, hfour, _, _, _, _, rfl⟩))
    · cases h
  · cases h

/-- A character that is read has been written: no other bytes give it. -/
theorem eq_of_next? {bs r : Bytes} {c : Char} (h : next? bs = some (c, r)) :
    bs = String.utf8EncodeChar c ++ r := by
  cases bs with
  | nil => cases h
  | cons a t =>
    have hlead : UInt8.ofNat a.toNat = a := UInt8.ofNat_toNat
    rcases next?_lead h with h₁ | ⟨h₁, h₂, b, r', rfl⟩ | ⟨h₁, h₂, b, b', r', rfl⟩ |
        ⟨h₁, h₂, b, b', b'', r', rfl⟩
    · rw [next?_one _ h₁] at h
      injection h with h
      injection h with hc hr
      subst hr
      have hn : c.toNat = a.toNat := by rw [← hc, toNat_ofNat (Or.inl (by omega))]
      rw [encodeChar_one (by omega), hn, hlead]
      rfl
    · rw [next?_two _ _ h₁ h₂] at h
      simp only [Option.bind_eq_bind, Option.bind_eq_some_iff, payload?_eq_some, char?_eq_some,
        Option.pure_def, Option.some.injEq, Prod.mk.injEq] at h
      obtain ⟨x, ⟨hx, rfl⟩, c', ⟨hleast, hn⟩, rfl, rfl⟩ := h
      have ha : c'.toNat / 0x40 + 0xC0 = a.toNat := by omega
      have hb : c'.toNat % 0x40 = x := by omega
      rw [encodeChar_two (by omega) (by omega), ha, hb, hlead]
      rfl
    · rw [next?_three _ _ _ h₁ h₂] at h
      simp only [Option.bind_eq_bind, Option.bind_eq_some_iff, payload?_eq_some, char?_eq_some,
        Option.pure_def, Option.some.injEq, Prod.mk.injEq] at h
      obtain ⟨x, ⟨hx, rfl⟩, y, ⟨hy, rfl⟩, c', ⟨hleast, hn⟩, rfl, rfl⟩ := h
      have ha : c'.toNat / 0x1000 + 0xE0 = a.toNat := by omega
      have hb : c'.toNat / 0x40 % 0x40 = x := by omega
      have hb' : c'.toNat % 0x40 = y := by omega
      rw [encodeChar_three (by omega) (by omega), ha, hb, hb', hlead]
      rfl
    · rw [next?_four _ _ _ _ h₁ h₂] at h
      simp only [Option.bind_eq_bind, Option.bind_eq_some_iff, payload?_eq_some, char?_eq_some,
        Option.pure_def, Option.some.injEq, Prod.mk.injEq] at h
      obtain ⟨x, ⟨hx, rfl⟩, y, ⟨hy, rfl⟩, z, ⟨hz, rfl⟩, c', ⟨hleast, hn⟩, rfl, rfl⟩ := h
      have ha : c'.toNat / 0x40000 + 0xF0 = a.toNat := by omega
      have hb : c'.toNat / 0x1000 % 0x40 = x := by omega
      have hb' : c'.toNat / 0x40 % 0x40 = y := by omega
      have hb'' : c'.toNat % 0x40 = z := by omega
      rw [encodeChar_four (by omega), ha, hb, hb', hb'', hlead]
      rfl

theorem length_encodeChar_pos (c : Char) : 0 < (String.utf8EncodeChar c).length :=
  List.length_pos_iff.mpr String.utf8EncodeChar_ne_nil

/-- With a round for each byte, all characters of a text are read. -/
theorem take_encode (cs : List Char) (n : Nat)
    (hn : (cs.flatMap String.utf8EncodeChar).length ≤ n) :
    take n (cs.flatMap String.utf8EncodeChar) = (cs, []) := by
  induction cs generalizing n with
  | nil => cases n <;> rfl
  | cons c cs ih =>
    have hpos := length_encodeChar_pos c
    rw [List.flatMap_cons, List.length_append] at hn
    cases n with
    | zero => omega
    | succ n =>
      rw [List.flatMap_cons, take, next?_encodeChar]
      simp only [ih n (by omega), Prod.map_apply, id_eq]

/-- What is read and what is left make up the bytes. -/
theorem encode_take (n : Nat) (bs : Bytes) :
    (take n bs).1.flatMap String.utf8EncodeChar ++ (take n bs).2 = bs := by
  induction n generalizing bs with
  | zero => rfl
  | succ n ih =>
    rw [take]
    cases h : next? bs with
    | none => rfl
    | some p =>
      obtain ⟨c, r⟩ := p
      simp only [Prod.map_fst, Prod.map_snd, List.flatMap_cons, id_eq, List.append_assoc, ih r]
      exact (eq_of_next? h).symm

/-- All of the bytes are read exactly if they encode the characters that are read. -/
theorem chars_eq_iff {bs : Bytes} {cs : List Char} :
    chars bs = (cs, []) ↔ bs = cs.flatMap String.utf8EncodeChar := by
  constructor
  · intro h
    have he := encode_take bs.length bs
    rw [chars] at h
    rw [h, List.append_nil] at he
    exact he.symm
  · rintro rfl
    exact take_encode cs _ (Nat.le_refl _)

theorem encode_injective {cs ds : List Char}
    (h : cs.flatMap String.utf8EncodeChar = ds.flatMap String.utf8EncodeChar) : cs = ds := by
  have hc := chars_eq_iff.mpr h
  rw [chars_eq_iff.mpr rfl] at hc
  injection hc

/-- Decoding inverts encoding and accepts nothing else. -/
theorem decode?_eq_some_iff {bs : Bytes} {s : String} : decode? bs = some s ↔ bs = encode s := by
  constructor
  · intro h
    rw [decode?] at h
    split at h
    · rename_i cs hcs
      injection h with h
      rw [encode, ← h, String.toList_ofList]
      exact chars_eq_iff.mp hcs
    · cases h
  · rintro rfl
    have h : chars (encode s) = (s.toList, []) := chars_eq_iff.mpr rfl
    rw [decode?, h]
    exact congrArg some (String.ofList_toList ..)

def ofChars (cs : List Char) : Bytes := cs.flatMap String.utf8EncodeChar

@[simp] theorem ofChars_nil : ofChars [] = [] := rfl

@[simp] theorem ofChars_cons (c : Char) (cs : List Char) :
    ofChars (c :: cs) = String.utf8EncodeChar c ++ ofChars cs := rfl

@[simp] theorem ofChars_append (cs ds : List Char) :
    ofChars (cs ++ ds) = ofChars cs ++ ofChars ds := List.flatMap_append

@[simp] theorem encode_ofList (cs : List Char) : encode (String.ofList cs) = ofChars cs := by
  rw [encode, String.toList_ofList, ofChars]

@[simp] theorem decode?_ofChars (cs : List Char) : decode? (ofChars cs) = some (String.ofList cs) :=
  decode?_eq_some_iff.mpr (encode_ofList cs).symm

/-- The number of bytes is the size that a text reports. -/
@[simp] theorem length_encode (s : String) : (encode s).length = s.utf8ByteSize := by
  rw [encode, ← String.size_toByteArray, ← String.utf8Encode_toList]
  simp [List.utf8Encode]

/-- A byte of a character is the character itself or lies above ASCII. -/
theorem toNat_of_mem_encodeChar {c : Char} {b : UInt8} (h : b ∈ String.utf8EncodeChar c) :
    b.toNat = c.toNat ∨ 0x80 ≤ b.toNat := by
  have hmax := toNat_lt c
  have hhigh {n : Nat} (hn : 0x80 ≤ n) (hn' : n < 256) : 0x80 ≤ (UInt8.ofNat n).toNat := by
    rwa [toNat_byte hn']
  by_cases h₁ : c.toNat < 0x80
  · rw [encodeChar_one h₁, List.mem_singleton] at h
    subst h
    exact .inl (toNat_byte (by omega))
  refine .inr ?_
  by_cases h₂ : c.toNat < 0x800
  · simp only [encodeChar_two (by omega) h₂, List.mem_cons, List.not_mem_nil, or_false] at h
    rcases h with rfl | rfl <;> exact hhigh (by omega) (by omega)
  by_cases h₃ : c.toNat < 0x10000
  · simp only [encodeChar_three (by omega) h₃, List.mem_cons, List.not_mem_nil, or_false] at h
    rcases h with rfl | rfl | rfl <;> exact hhigh (by omega) (by omega)
  · simp only [encodeChar_four (Nat.le_of_not_lt h₃), List.mem_cons, List.not_mem_nil,
      or_false] at h
    rcases h with rfl | rfl | rfl | rfl <;> exact hhigh (by omega) (by omega)

end BoxClient.Utf8
