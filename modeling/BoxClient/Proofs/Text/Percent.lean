import BoxClient.Json.Reader
import BoxClient.Proofs.Text.Utf8
import BoxClient.Text.Percent
/-!
A percent-encoded text is visible ASCII, so it fits on a line and holds no space. It is one segment
of a path, made of unreserved characters and of triples for the other bytes; decoding the segment
gives the bytes of the text back, so different texts have different segments.
-/
namespace BoxClient.Percent

/-- Characters from `!` to `~`. -/
def IsVisible (c : Char) : Prop := 0x21 ≤ c.toNat ∧ c.toNat ≤ 0x7e

theorem toNat_ofNat_ascii {n : Nat} (h : n < 0x80) : (Char.ofNat n).toNat = n :=
  Utf8.toNat_ofNat (.inl (by omega))

theorem isVisible_digit {n : Nat} (h : n < 16) : IsVisible (digit n) := by
  rw [digit]
  split
  · rw [IsVisible, toNat_ofNat_ascii (by omega)]
    omega
  · rw [IsVisible, toNat_ofNat_ascii (by omega)]
    omega

theorem toNat_of_isUnreserved {b : UInt8} (h : isUnreserved b = true) :
    0x21 ≤ b.toNat ∧ b.toNat ≤ 0x7e ∧ b.toNat ≠ 0x25 := by
  simp only [isUnreserved, Bool.or_eq_true, Bool.and_eq_true, decide_eq_true_eq,
    beq_iff_eq] at h
  omega

theorem isVisible_of_isUnreserved {b : UInt8} (h : isUnreserved b = true) :
    IsVisible (Char.ofNat b.toNat) := by
  obtain ⟨hlow, hhigh, -⟩ := toNat_of_isUnreserved h
  rw [IsVisible, toNat_ofNat_ascii (by omega)]
  exact ⟨hlow, hhigh⟩

theorem isVisible_of_mem_encodeByte {b : UInt8} {c : Char} (h : c ∈ encodeByte b) :
    IsVisible c := by
  have hb := b.toNat_lt
  rw [encodeByte] at h
  split at h
  · rename_i hunreserved
    rw [List.mem_singleton] at h
    subst h
    exact isVisible_of_isUnreserved hunreserved
  · simp only [List.mem_cons, List.not_mem_nil, or_false] at h
    rcases h with rfl | rfl | rfl
    · exact ⟨by decide, by decide⟩
    · exact isVisible_digit (by omega)
    · exact isVisible_digit (by omega)

theorem isVisible_of_mem_encode {s : String} {c : Char} (h : c ∈ (encode s).toList) :
    IsVisible c := by
  rw [encode, String.toList_ofList, List.mem_flatMap] at h
  obtain ⟨b, -, hc⟩ := h
  exact isVisible_of_mem_encodeByte hc

/-- An ASCII letter or digit, or one of four marks. -/
def IsUnreservedChar (c : Char) : Prop := c.isAlphanum = true ∨ c ∈ ['-', '_', '.', '~']

def IsDigit (c : Char) : Prop := c.isDigit = true ∨ c ∈ ['A', 'B', 'C', 'D', 'E', 'F']

instance (c : Char) : Decidable (IsUnreservedChar c) := inferInstanceAs (Decidable (_ ∨ _))

instance (c : Char) : Decidable (IsDigit c) := inferInstanceAs (Decidable (_ ∨ _))

/-- Unreserved characters, and triples of `%` and two digits. -/
inductive IsSegment : List Char → Prop where
  | nil : IsSegment []
  | unreserved {c : Char} {cs : List Char} (hc : IsUnreservedChar c) (hcs : IsSegment cs) :
    IsSegment (c :: cs)
  | triple {high low : Char} {cs : List Char} (hhigh : IsDigit high) (hlow : IsDigit low)
    (hcs : IsSegment cs) : IsSegment ('%' :: high :: low :: cs)

theorem isDigit_digit {n : Nat} (h : n < 16) : IsDigit (digit n) := by
  have hall : ∀ n : Fin 16, IsDigit (digit n) := by decide
  exact hall ⟨n, h⟩

theorem isUnreservedChar_of_isUnreserved {b : UInt8} (h : isUnreserved b = true) :
    IsUnreservedChar (Char.ofNat b.toNat) := by
  have hall : ∀ n : Fin 256, isUnreserved (UInt8.ofNat n) = true →
      IsUnreservedChar (Char.ofNat n) := by decide +kernel
  refine hall ⟨b.toNat, b.toNat_lt⟩ ?_
  rwa [UInt8.ofNat_toNat]

theorem isSegment_flatMap (bs : Bytes) : IsSegment (bs.flatMap encodeByte) := by
  induction bs with
  | nil => exact .nil
  | cons b bs ih =>
    have hb := b.toNat_lt
    rw [List.flatMap_cons, encodeByte]
    split
    · rename_i hunreserved
      exact .unreserved (isUnreservedChar_of_isUnreserved hunreserved) ih
    · exact .triple (isDigit_digit (by omega)) (isDigit_digit (by omega)) ih

theorem isSegment_encode (s : String) : IsSegment (encode s).toList := by
  rw [encode, String.toList_ofList]
  exact isSegment_flatMap _

/-- A segment ends where the next one begins. -/
theorem IsSegment.slash_notMem {cs : List Char} (h : IsSegment cs) : '/' ∉ cs := by
  induction h with
  | nil => exact List.not_mem_nil
  | unreserved hc _ ih =>
    rw [List.mem_cons, not_or]
    refine ⟨?_, ih⟩
    rintro rfl
    exact absurd hc (by decide)
  | triple hhigh hlow _ ih =>
    simp only [List.mem_cons, not_or]
    refine ⟨by decide, ?_, ?_, ih⟩
    · rintro rfl
      exact absurd hhigh (by decide)
    · rintro rfl
      exact absurd hlow (by decide)

def byte? (high low : UInt8) : Option UInt8 := do
  let high ← Json.hexDigit? high
  let low ← Json.hexDigit? low
  return UInt8.ofNat (high * 16 + low)

/-- The bytes that a text stands for: `%` with two hexadecimal digits of either case for the byte
with this number, everything else for itself. -/
def decode : Bytes → Bytes
  | b :: high :: low :: r =>
    match if b = 0x25 then byte? high low else none with
    | some decoded => decoded :: decode r
    | none => b :: decode (high :: low :: r)
  | bs => bs

@[simp] theorem decode_plain {b : UInt8} (h : b ≠ 0x25) (r : Bytes) :
    decode (b :: r) = b :: decode r := by
  match r with
  | [] | [_] => rfl
  | _ :: _ :: _ => rw [decode, if_neg h]

theorem decode_triple {high low b : UInt8} (h : byte? high low = some b) (r : Bytes) :
    decode (0x25 :: high :: low :: r) = b :: decode r := by
  rw [decode, if_pos rfl, h]

theorem hexDigit?_digit {n : Nat} (h : n < 16) :
    ∃ b, String.utf8EncodeChar (digit n) = [b] ∧ Json.hexDigit? b = some n := by
  have hall : ∀ n : Fin 16, String.utf8EncodeChar (digit n) = [UInt8.ofNat (digit n).toNat] ∧
      Json.hexDigit? (UInt8.ofNat (digit n).toNat) = some n.val := by decide
  exact ⟨_, hall ⟨n, h⟩⟩

/-- One byte is decoded from its encoded form, whatever follows. -/
@[simp] theorem decode_encodeByte (b : UInt8) (r : Bytes) :
    decode (Utf8.ofChars (encodeByte b) ++ r) = b :: decode r := by
  have hb := b.toNat_lt
  rw [encodeByte]
  split
  · rename_i hunreserved
    obtain ⟨-, hhigh, hpercent⟩ := toNat_of_isUnreserved hunreserved
    have hascii : (Char.ofNat b.toNat).toNat = b.toNat := toNat_ofNat_ascii (by omega)
    have hbytes : Utf8.ofChars [Char.ofNat b.toNat] = [b] := by
      rw [Utf8.ofChars_cons, Utf8.encodeChar_one (by omega), hascii, UInt8.ofNat_toNat]
      rfl
    rw [hbytes]
    refine decode_plain (fun he => hpercent ?_) r
    rw [he]
    rfl
  · obtain ⟨high, hhigh, hhigh'⟩ := hexDigit?_digit (n := b.toNat / 16) (by omega)
    obtain ⟨low, hlow, hlow'⟩ := hexDigit?_digit (n := b.toNat % 16) (by omega)
    have hpercent : String.utf8EncodeChar '%' = [0x25] := by decide
    have hbytes : Utf8.ofChars ['%', digit (b.toNat / 16), digit (b.toNat % 16)] =
        [0x25, high, low] := by simp [hpercent, hhigh, hlow]
    have hvalue : b.toNat / 16 * 16 + b.toNat % 16 = b.toNat := by omega
    have hbyte : byte? high low = some b := by
      rw [byte?, hhigh', hlow']
      simp only [Option.bind_eq_bind, Option.bind_some, hvalue, UInt8.ofNat_toNat]
      rfl
    rw [hbytes]
    exact decode_triple hbyte r

theorem decode_flatMap (bs : Bytes) : decode (Utf8.ofChars (bs.flatMap encodeByte)) = bs := by
  induction bs with
  | nil => rfl
  | cons b bs ih => rw [List.flatMap_cons, Utf8.ofChars_append, decode_encodeByte, ih]

/-- Decoding a segment gives the bytes of its text. -/
@[simp] theorem decode_encode (s : String) : decode (Utf8.encode (encode s)) = Utf8.encode s := by
  rw [encode, Utf8.encode_ofList, decode_flatMap]

/-- Different texts have different segments. -/
theorem encode_injective {s s' : String} (h : encode s = encode s') : s = s' := by
  have hbytes : Utf8.encode s = Utf8.encode s' := by rw [← decode_encode, h, decode_encode]
  exact String.toList_inj.mp (Utf8.encode_injective hbytes)

end BoxClient.Percent
