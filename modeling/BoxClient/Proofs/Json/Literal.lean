import BoxClient.Json.Reader
import BoxClient.Proofs.Outcome
import BoxClient.Proofs.Text.Utf8
/-!
Literals that are written are read back: integers of both signs, and strings with every character
they can hold. An integer is read up to the first byte that could not continue a number, so the
statements on numbers ask what follows them.
-/
namespace BoxClient.Json

open Outcome

/-- A number in front of these bytes ends there. -/
def EndsNumber (r : Bytes) : Prop :=
  ∀ b ∈ r.head?, isDigit b = false ∧ b ≠ 0x2e ∧ isExponentMark b = false

@[simp] theorem endsNumber_nil : EndsNumber [] := nofun

@[simp] theorem endsNumber_cons {b : UInt8} {r : Bytes} :
    EndsNumber (b :: r) ↔ isDigit b = false ∧ b ≠ 0x2e ∧ isExponentMark b = false := by
  simp [EndsNumber]

def digitByte (d : Nat) : UInt8 := UInt8.ofNat (0x30 + d)

/-- The number that decimal digits spell behind a number. -/
def decimal (n : Nat) (ds : List Nat) : Nat := ds.foldl (fun m d => m * 10 + d) n

theorem le_decimal (n : Nat) (ds : List Nat) : n ≤ decimal n ds := by
  induction ds generalizing n with
  | nil => exact Nat.le_refl n
  | cons d ds ih => exact Nat.le_trans (by omega) (ih (n * 10 + d))

section
variable {d n : Nat} {r : Bytes}

theorem encodeChar_digitChar (h : d < 10) :
    String.utf8EncodeChar (Nat.digitChar d) = [digitByte d] := by
  have hc : (Nat.digitChar d).toNat = 0x30 + d := Nat.toNat_digitChar_of_lt_ten h
  rw [Utf8.encodeChar_one (by omega), hc, digitByte]

theorem ofChars_digits {ds : List Nat} (h : ∀ d ∈ ds, d < 10) :
    Utf8.ofChars (ds.map Nat.digitChar) = ds.map digitByte := by
  induction ds with
  | nil => rfl
  | cons d ds ih =>
    rw [List.forall_mem_cons] at h
    rw [List.map_cons, Utf8.ofChars_cons, encodeChar_digitChar h.1, ih h.2, List.map_cons]
    rfl

@[simp] theorem digit?_digitByte (h : d < 10) : digit? (digitByte d) = some d := by
  have hb : (digitByte d).toNat = 0x30 + d := Utf8.toNat_byte (by omega)
  have hlow : 0x30 ≤ digitByte d := by
    rw [UInt8.le_iff_toNat_le, hb]
    exact Nat.le_add_right _ _
  have hhigh : digitByte d ≤ 0x39 := by
    rw [UInt8.le_iff_toNat_le, hb]
    show 0x30 + d ≤ 0x39
    omega
  rw [digit?, if_pos ⟨hlow, hhigh⟩, hb, Nat.add_sub_cancel_left]

@[simp] theorem isDigit_digitByte (h : d < 10) : isDigit (digitByte d) = true := by
  rw [isDigit, digit?_digitByte h]
  rfl

/-- The digits of a number above zero, the first of which is not zero. -/
theorem exists_toDigits_eq (hn : 0 < n) :
    ∃ d ds, 0 < d ∧ d < 10 ∧ (∀ d' ∈ ds, d' < 10) ∧
      Nat.toDigits 10 n = (d :: ds).map Nat.digitChar ∧ decimal d ds = n := by
  induction n using Nat.base_induction 10 (by decide) with
  | single m hm => exact ⟨m, [], hn, hm, by simp, Nat.toDigits_of_lt_base hm, rfl⟩
  | digit m k hk hm ih =>
    obtain ⟨d, ds, hpos, hlt, hds, hdigits, hvalue⟩ := ih hm
    refine ⟨d, ds ++ [k], hpos, hlt, ?_, ?_, ?_⟩
    · intro d' hd'
      rcases List.mem_append.mp hd' with hd' | hd'
      · exact hds d' hd'
      · rwa [List.mem_singleton.mp hd']
    · rw [← Nat.toDigits_append_toDigits (by decide) hm hk, hdigits, Nat.toDigits_of_lt_base hk]
      simp
    · rw [decimal] at hvalue ⊢
      rw [List.foldl_append, hvalue]
      simp [Nat.mul_comm]

/-- Digits are taken up to the end of the number, as long as the significand holds them. -/
theorem integerDigits_digits {ds : List Nat} (hds : ∀ d ∈ ds, d < 10)
    (hbound : decimal n ds < significandBound) (hr : EndsNumber r) :
    integerDigits n (ds.map digitByte ++ r) = (decimal n ds, true, r) := by
  induction ds generalizing n with
  | nil =>
    cases r with
    | nil => rfl
    | cons b r =>
      have hb : digit? b = none := by
        simpa [isDigit] using (endsNumber_cons.mp hr).1
      rw [List.map_nil, List.nil_append, integerDigits, hb]
      rfl
  | cons d ds ih =>
    rw [List.forall_mem_cons] at hds
    have hstep : n * 10 + d < significandBound := Nat.lt_of_le_of_lt (le_decimal _ ds) hbound
    rw [List.map_cons, List.cons_append, integerDigits, digit?_digitByte hds.1]
    dsimp only
    rw [if_pos hstep, ih hds.2 hbound]
    rfl

theorem tailOfInteger_end (negative : Bool) (n : Nat) (hr : EndsNumber r) :
    tailOfInteger negative n r = integer negative n r := by
  cases r with
  | nil => rfl
  | cons b r =>
    obtain ⟨-, hpoint, hexponent⟩ := endsNumber_cons.mp hr
    rw [tailOfInteger, if_neg hpoint, hexponent]
    rfl

/-- The digits of a number that the significand holds are read as an integer literal. -/
theorem unsigned_toDigits (negative : Bool) (hn : n < significandBound) (hr : EndsNumber r) :
    unsigned negative (Utf8.ofChars (Nat.toDigits 10 n) ++ r) = integer negative n r := by
  rcases Nat.eq_zero_or_pos n with rfl | hpos
  · rw [Nat.toDigits_zero, ← tailOfInteger_end negative 0 hr]
    cases r with
    | nil => rfl
    | cons b r =>
      obtain ⟨hdigit, -⟩ := endsNumber_cons.mp hr
      have hzero : Utf8.ofChars ['0'] = [0x30] := by decide
      have hvalue : digit? 0x30 = some 0 := by decide
      simp only [hzero, List.singleton_append, unsigned, hvalue, hdigit, Bool.false_eq_true,
        if_false]
  · obtain ⟨d, ds, hd, hlt, hds, hdigits, rfl⟩ := exists_toDigits_eq hpos
    obtain ⟨d, rfl⟩ : ∃ d', d = d' + 1 := ⟨d - 1, by omega⟩
    have hall : ∀ d' ∈ (d + 1) :: ds, d' < 10 := List.forall_mem_cons.mpr ⟨hlt, hds⟩
    rw [hdigits, ofChars_digits hall, List.map_cons, List.cons_append]
    simp only [unsigned, digit?_digitByte hlt, integerDigits_digits hds hn hr]
    exact tailOfInteger_end negative _ hr

/-- The digits of a number begin with a digit. -/
theorem exists_ofChars_toDigits_eq (n : Nat) :
    ∃ d bs, d < 10 ∧ Utf8.ofChars (Nat.toDigits 10 n) = digitByte d :: bs := by
  rcases Nat.eq_zero_or_pos n with rfl | hpos
  · exact ⟨0, [], by decide, by rw [Nat.toDigits_zero]; decide⟩
  · obtain ⟨d, ds, -, hlt, hds, hdigits, -⟩ := exists_toDigits_eq hpos
    have hall : ∀ d' ∈ d :: ds, d' < 10 := List.forall_mem_cons.mpr ⟨hlt, hds⟩
    exact ⟨d, ds.map digitByte, hlt, by rw [hdigits, ofChars_digits hall, List.map_cons]⟩

@[simp] theorem digitByte_ne_minus (h : d < 10) : digitByte d ≠ 0x2d := by
  intro he
  have hdigit := isDigit_digitByte h
  rw [he] at hdigit
  exact absurd hdigit (by decide)

/-- An integer is read back from its text. -/
theorem number_text {n : Number} (hn : ∀ x, n ≠ .float x) (hr : EndsNumber r) :
    number (Utf8.ofChars n.text ++ r) = .ok (n, r) := by
  cases n with
  | float x => exact absurd rfl (hn x)
  | negative below =>
    have hminus : String.utf8EncodeChar '-' = [0x2d] := by decide
    have hbelow : below.val < Nat.pow 2 63 := below.isLt
    have hbound : below.val + 1 < significandBound := Nat.lt_of_le_of_lt hbelow (by decide)
    have hfits : 0 < below.val + 1 ∧ below.val + 1 ≤ Nat.pow 2 63 := ⟨by omega, hbelow⟩
    rw [Number.text, Utf8.ofChars_cons, hminus, List.singleton_append, List.cons_append, number,
      unsigned_toDigits true hbound hr, integer, if_pos rfl, dif_pos hfits]
    rfl
  | natural n =>
    have hbound : n.toNat < significandBound := n.toNat_lt
    obtain ⟨d, bs, hd, hbs⟩ := exists_ofChars_toDigits_eq n.toNat
    have hfront : ∀ r', Utf8.ofChars (Nat.toDigits 10 n.toNat) ++ r ≠ 0x2d :: r' := by
      intro r' he
      rw [hbs, List.cons_append, List.cons.injEq] at he
      exact digitByte_ne_minus hd he.1
    rw [Number.text, number]
    · rw [unsigned_toDigits false hbound hr, integer, if_neg (by decide), UInt64.ofNat_toNat]
    · exact hfront

end
section
variable {c : Char} {bs r : Bytes}

theorem hexDigit?_digitChar {d : Nat} (h : d < 16) :
    ∃ b, String.utf8EncodeChar (Nat.digitChar d) = [b] ∧ hexDigit? b = some d := by
  have hall : ∀ d : Fin 16,
      String.utf8EncodeChar (Nat.digitChar d) = [UInt8.ofNat (Nat.digitChar d).toNat] ∧
        hexDigit? (UInt8.ofNat (Nat.digitChar d).toNat) = some d.val := by decide
  exact ⟨_, hall ⟨d, h⟩⟩

/-- A control is read back from its number. -/
theorem escape_control (h : c.toNat < 0x20) (r : Bytes) :
    escape (Utf8.ofChars ['u', '0', '0', Nat.digitChar (c.toNat / 16),
      Nat.digitChar (c.toNat % 16)] ++ r) = .ok (c, r) := by
  obtain ⟨high, hhigh, hhigh'⟩ := hexDigit?_digitChar (d := c.toNat / 16) (by omega)
  obtain ⟨low, hlow, hlow'⟩ := hexDigit?_digitChar (d := c.toNat % 16) (by omega)
  have hfront : Utf8.ofChars ['u', '0', '0'] = [0x75, 0x30, 0x30] := by decide
  have hbytes : Utf8.ofChars ['u', '0', '0', Nat.digitChar (c.toNat / 16),
      Nat.digitChar (c.toNat % 16)] = [0x75, 0x30, 0x30, high, low] := by
    have happend := Utf8.ofChars_append ['u', '0', '0']
      [Nat.digitChar (c.toNat / 16), Nat.digitChar (c.toNat % 16)]
    rw [hfront] at happend
    simpa [hhigh, hlow] using happend
  have hzero : hexDigit? 0x30 = some 0 := by decide
  have hvalue : ((0 * 16 + 0) * 16 + c.toNat / 16) * 16 + c.toNat % 16 = c.toNat := by omega
  have hquad : hexQuad (0x30 :: 0x30 :: high :: low :: r) = .ok (c.toNat, r) := by
    rw [hexQuad, hzero, hhigh', hlow']
    simp only [hvalue]
  have hlone : ¬ (0xdc00 ≤ c.toNat ∧ c.toNat < 0xe000) := by omega
  have hpair : ¬ (0xd800 ≤ c.toNat ∧ c.toNat < 0xdc00) := by omega
  have hunicode : unicodeEscape (0x30 :: 0x30 :: high :: low :: r) = .ok (c, r) := by
    rw [unicodeEscape, hquad, ok_bind]
    dsimp only
    rw [if_neg hlone, if_neg hpair, Char.ofNat_toNat]
  rw [hbytes]
  exact hunicode

/-- A character stands for itself in a string, or is read back from behind its backslash. -/
theorem escapeChar_cases (c : Char) :
    (escapeChar c = [c] ∧ c ≠ '"' ∧ c ≠ '\\' ∧ 0x20 ≤ c.toNat) ∨
      ∃ e, escapeChar c = '\\' :: e ∧ ∀ r, escape (Utf8.ofChars e ++ r) = .ok (c, r) := by
  rw [escapeChar]
  split
  · rename_i h
    exact .inr ⟨['"'], rfl, fun r => by rw [h]; rfl⟩
  rename_i hquote
  split
  · rename_i h
    exact .inr ⟨['\\'], rfl, fun r => by rw [h]; rfl⟩
  rename_i hbackslash
  split
  · rename_i hcontrol
    refine .inr ?_
    split
    · rename_i h
      exact ⟨['b'], rfl, fun r => by rw [h]; rfl⟩
    split
    · rename_i h
      exact ⟨['t'], rfl, fun r => by rw [h]; rfl⟩
    split
    · rename_i h
      exact ⟨['n'], rfl, fun r => by rw [h]; rfl⟩
    split
    · rename_i h
      exact ⟨['f'], rfl, fun r => by rw [h]; rfl⟩
    split
    · rename_i h
      exact ⟨['r'], rfl, fun r => by rw [h]; rfl⟩
    · exact ⟨_, rfl, escape_control hcontrol⟩
  · rename_i hcontrol
    exact .inl ⟨rfl, hquote, hbackslash, Nat.le_of_not_lt hcontrol⟩

/-- A byte that stands for itself in a string. -/
def IsPlain (b : UInt8) : Prop := b ≠ 0x22 ∧ b ≠ 0x5c ∧ ¬ b < 0x20

theorem isPlain_of_mem_encodeChar (hquote : c ≠ '"') (hbackslash : c ≠ '\\')
    (hcontrol : 0x20 ≤ c.toNat) {b : UInt8} (h : b ∈ String.utf8EncodeChar c) : IsPlain b := by
  have hb := Utf8.toNat_of_mem_encodeChar h
  have hne (d : Char) (hd : c ≠ d) (hascii : d.toNat < 0x80) : b.toNat ≠ d.toNat := by
    intro he
    rcases hb with hb | hb
    · exact hd (Char.toNat_inj.mp (hb.symm.trans he))
    · omega
  refine ⟨?_, ?_, ?_⟩
  · rintro rfl
    exact hne '"' hquote (by decide) rfl
  · rintro rfl
    exact hne '\\' hbackslash (by decide) rfl
  · rw [UInt8.lt_iff_toNat_lt]
    show ¬ b.toNat < 0x20
    omega

theorem stringBytes_plain {rounds s r' : Bytes} (hbs : ∀ b ∈ bs, IsPlain b)
    (hrounds : bs.length ≤ rounds.length)
    (hrest : stringBytes (rounds.drop bs.length) r = .ok (s, r')) :
    stringBytes rounds (bs ++ r) = .ok (bs ++ s, r') := by
  induction bs generalizing rounds with
  | nil => exact hrest
  | cons b bs ih =>
    cases rounds with
    | nil => cases hrounds
    | cons _ rounds =>
      rw [List.forall_mem_cons] at hbs
      obtain ⟨⟨hquote, hbackslash, hcontrol⟩, hbs⟩ := hbs
      rw [List.cons_append, stringBytes, if_neg hquote, if_neg hbackslash, if_neg hcontrol,
        ih hbs (Nat.le_of_succ_le_succ hrounds) hrest]
      rfl

/-- The characters of a string are read back up to the closing quote. -/
theorem stringBytes_escaped {cs : List Char} {rounds : Bytes}
    (hrounds : (Utf8.ofChars (cs.flatMap escapeChar)).length < rounds.length) :
    stringBytes rounds (Utf8.ofChars (cs.flatMap escapeChar) ++ 0x22 :: r) =
      .ok (Utf8.ofChars cs, r) := by
  induction cs generalizing rounds with
  | nil =>
    cases rounds with
    | nil => cases hrounds
    | cons _ rounds => rfl
  | cons c cs ih =>
    rw [List.flatMap_cons, Utf8.ofChars_append, List.length_append] at hrounds
    rw [List.flatMap_cons, Utf8.ofChars_append, List.append_assoc, Utf8.ofChars_cons]
    rcases escapeChar_cases c with ⟨hc, hquote, hbackslash, hcontrol⟩ | ⟨e, he, hescape⟩
    · have hself : Utf8.ofChars [c] = String.utf8EncodeChar c := by simp
      rw [hc, hself] at hrounds ⊢
      refine stringBytes_plain (fun b => isPlain_of_mem_encodeChar hquote hbackslash hcontrol)
        (by omega) (ih ?_)
      rw [List.length_drop]
      omega
    · have hbackslash : String.utf8EncodeChar '\\' = [0x5c] := by decide
      rw [he, Utf8.ofChars_cons, hbackslash, List.singleton_append] at hrounds ⊢
      rw [List.length_cons] at hrounds
      cases rounds with
      | nil => cases hrounds
      | cons _ rounds =>
        rw [List.length_cons] at hrounds
        rw [List.cons_append, stringBytes, if_neg (by decide), if_pos rfl, hescape, ok_bind]
        dsimp only
        rw [ih (by omega)]
        rfl

/-- A string is read back from behind its opening quote. -/
theorem string_text (s : String) (r : Bytes) :
    string (Utf8.ofChars (s.toList.flatMap escapeChar) ++ 0x22 :: r) = .ok (s, r) := by
  have hlength : (Utf8.ofChars (s.toList.flatMap escapeChar)).length <
      (Utf8.ofChars (s.toList.flatMap escapeChar) ++ 0x22 :: r).length := by
    rw [List.length_append, List.length_cons]
    omega
  rw [string, stringBytes_escaped hlength, ok_bind]
  dsimp only
  rw [Utf8.decode?_ofChars, String.ofList_toList]

end
end BoxClient.Json
