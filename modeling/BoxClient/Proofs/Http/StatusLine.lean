import BoxClient.Proofs.Http.HeadGrammar
/-!
The grammar of a status line. The reader splits a line at its first two spaces and reads the code
digit by digit into sixteen bits, giving up as soon as they overflow. It accepts exactly the lines
that `IsStatusLine` describes: a number only grows with the digits that follow, so however many of
them there are, the loop gets to the end of just those codes whose number fits, and never comes
back into the range of a status from above.
-/
namespace BoxClient.Http

/-- The code spells a number in decimal: digits, the first of which may be zeros, with or without a
plus sign before them. -/
def Spells (code : List Char) (n : Nat) : Prop :=
  ∃ digits, (code = digits ∨ code = '+' :: digits) ∧ digits ≠ [] ∧
    (∀ c ∈ digits, c.isDigit = true) ∧ Nat.ofDigitChars 10 digits 0 = n

/-- A space stands between version and code, and a second one before the text behind them, if there
is any. -/
inductive HasParts : (line version code text : List Char) → Prop
  | bare (version code : List Char) : HasParts (version ++ ' ' :: code) version code []
  | texted (version code text : List Char) :
    HasParts (version ++ ' ' :: (code ++ ' ' :: text)) version code text

/-- One of the two versions, a code that spells the status, and a text that is the reason once it is
trimmed. -/
def IsStatusLine (line : List Char) (status : Nat) (reason : String) : Prop :=
  ∃ version code text, HasParts line version code text ∧
    (version = "HTTP/1.0".toList ∨ version = "HTTP/1.1".toList) ∧
    ' ' ∉ code ∧ Spells code status ∧ 100 ≤ status ∧ status ≤ 999 ∧
    reason = String.ofList (Text.trim text)

section
variable {c : Char} {code ds : List Char} {m n : Nat}

@[simp] theorem addDigit_eq_some_iff :
    addDigit n c = some m ↔ c.isDigit = true ∧ n * 10 + (c.toNat - 0x30) = m ∧ m < codeBound := by
  rw [addDigit]
  by_cases hc : c.isDigit = true
  · rw [if_pos hc]
    dsimp only
    split
    · rename_i hm
      simp only [Option.some.injEq, hc, true_and]
      exact ⟨fun he => ⟨he, he ▸ hm⟩, fun he => he.1⟩
    · rename_i hm
      refine iff_of_false nofun ?_
      rintro ⟨-, rfl, hm'⟩
      exact hm hm'
  · rw [if_neg hc]
    exact iff_of_false nofun fun h => hc h.1

/-- Digits behind a number make it no smaller. -/
theorem le_ofDigitChars (n : Nat) (ds : List Char) : n ≤ Nat.ofDigitChars 10 ds n := by
  rw [Nat.ofDigitChars_eq_ofDigitChars_zero]
  have hpos : 0 < 10 ^ ds.length := Nat.pow_pos (by decide)
  exact Nat.le_add_right_of_le (Nat.le_mul_of_pos_left n hpos)

/-- The loop ends with the number that the digits spell behind the one it began with, exactly if
this fits: what overflows on the way would not fit at the end. -/
theorem foldlM_addDigit_eq_some_iff (hn : n < codeBound) :
    ds.foldlM addDigit n = some m ↔
      (∀ c ∈ ds, c.isDigit = true) ∧ Nat.ofDigitChars 10 ds n = m ∧ m < codeBound := by
  induction ds generalizing n with
  | nil =>
    simp only [List.foldlM_nil, Option.pure_def, Option.some.injEq, Nat.ofDigitChars_nil]
    exact ⟨fun he => ⟨nofun, he, he ▸ hn⟩, fun h => h.2.1⟩
  | cons c ds ih =>
    have hvalue : Nat.ofDigitChars 10 (c :: ds) n =
        Nat.ofDigitChars 10 ds (n * 10 + (c.toNat - 0x30)) := by
      rw [Nat.ofDigitChars_cons, Nat.mul_comm]
      rfl
    rw [List.foldlM_cons, Option.bind_eq_bind, Option.bind_eq_some_iff, hvalue,
      List.forall_mem_cons]
    constructor
    · rintro ⟨k, hstep, hmore⟩
      obtain ⟨hc, rfl, hk⟩ := addDigit_eq_some_iff.mp hstep
      obtain ⟨hds, hm⟩ := (ih hk).mp hmore
      exact ⟨⟨hc, hds⟩, hm⟩
    · rintro ⟨⟨hc, hds⟩, hm, hbound⟩
      have hk : n * 10 + (c.toNat - 0x30) < codeBound := by
        have hle := le_ofDigitChars (n * 10 + (c.toNat - 0x30)) ds
        omega
      exact ⟨_, addDigit_eq_some_iff.mpr ⟨hc, rfl, hk⟩, (ih hk).mpr ⟨hds, hm, hbound⟩⟩

/-- The digits of a code are all of it, or what stands behind its plus sign, which is no digit. -/
theorem exists_digits (code : List Char) :
    ∃ digits, statusNumber? code = (if digits = [] then none else digits.foldlM addDigit 0) ∧
      ∀ n, Spells code n ↔ digits ≠ [] ∧ (∀ c ∈ digits, c.isDigit = true) ∧
        Nat.ofDigitChars 10 digits 0 = n := by
  by_cases h : ∃ digits, code = '+' :: digits
  · obtain ⟨digits, rfl⟩ := h
    refine ⟨digits, rfl, fun n => ⟨?_, fun hdigits => ⟨digits, .inr rfl, hdigits⟩⟩⟩
    rintro ⟨_, rfl | he, hne, hdigits, hn⟩
    · exact absurd (hdigits '+' List.mem_cons_self) (by decide)
    · cases he
      exact ⟨hne, hdigits, hn⟩
  · have hplus : ∀ digits, code ≠ '+' :: digits := fun digits he => h ⟨digits, he⟩
    refine ⟨code, ?_, fun n => ⟨?_, fun hdigits => ⟨code, .inl rfl, hdigits⟩⟩⟩
    · rw [statusNumber?]
      exact hplus
    · rintro ⟨digits, rfl | rfl, hdigits⟩
      · exact hdigits
      · exact absurd rfl (hplus digits)

/-- Any number of zeros may lead, but the number must fit into sixteen bits. -/
@[simp] theorem statusNumber?_eq_some_iff :
    statusNumber? code = some n ↔ Spells code n ∧ n < codeBound := by
  obtain ⟨digits, hread, hspells⟩ := exists_digits code
  have hzero : 0 < codeBound := by decide
  rw [hread, hspells, Option.ite_none_left_eq_some, foldlM_addDigit_eq_some_iff hzero]
  tauto

/-- A code spells one number at most. -/
theorem Spells.unique (h : Spells code m) (h' : Spells code n) : m = n := by
  obtain ⟨digits, -, hspells⟩ := exists_digits code
  exact ((hspells m).mp h).2.2.symm.trans ((hspells n).mp h').2.2

theorem Spells.space_notMem (h : Spells code n) : ' ' ∉ code := by
  obtain ⟨digits, hcode, -, hdigits, -⟩ := h
  have hspace : ' ' ∉ digits := fun hmem => absurd (hdigits ' ' hmem) (by decide)
  rcases hcode with rfl | rfl
  · exact hspace
  · simpa using hspace

@[simp] theorem status?_eq_some_iff :
    status? code = some n ↔ Spells code n ∧ 100 ≤ n ∧ n ≤ 999 := by
  have hbound : n ≤ 999 → n < codeBound := fun h => Nat.lt_of_le_of_lt h (by decide)
  rw [status?, Option.filter_eq_some_iff, statusNumber?_eq_some_iff, Bool.and_eq_true,
    decide_eq_true_eq, decide_eq_true_eq]
  tauto

/-- A code that spells a number out of the range is no status, however large the number is. -/
theorem status?_eq_none (h : Spells code n) (hn : ¬ (100 ≤ n ∧ n ≤ 999)) : status? code = none := by
  rw [Option.eq_none_iff_forall_ne_some]
  intro m hm
  obtain ⟨hm, hrange⟩ := status?_eq_some_iff.mp hm
  exact hn (h.unique hm ▸ hrange)

end

section
variable {line version code text : List Char}

@[simp] theorem isVersion_iff :
    isVersion version = true ↔ version = "HTTP/1.0".toList ∨ version = "HTTP/1.1".toList := by
  rw [isVersion, Bool.or_eq_true, decide_eq_true_eq, decide_eq_true_eq]

theorem space_notMem_of_isVersion (h : isVersion version = true) : ' ' ∉ version := by
  rcases isVersion_iff.mp h with rfl | rfl <;> decide

/-- A character that occurs has a first occurrence, at which its list is split. -/
theorem exists_splitAt? {c : Char} {cs : List Char} (h : c ∈ cs) :
    ∃ front back, splitAt? c cs = some (front, back) := by
  cases hsplit : splitAt? c cs with
  | none => exact absurd h (splitAt?_eq_none.mp hsplit)
  | some p => exact ⟨p.1, p.2, rfl⟩

/-- A line with a space falls into parts of which only the text may hold another one. -/
theorem exists_hasParts (h : ' ' ∈ line) :
    ∃ version code text, HasParts line version code text ∧ ' ' ∉ version ∧ ' ' ∉ code := by
  obtain ⟨version, rest, hfirst⟩ := exists_splitAt? h
  obtain ⟨hversion, rfl⟩ := splitAt?_eq_some.mp hfirst
  by_cases hrest : ' ' ∈ rest
  · obtain ⟨code, text, hsecond⟩ := exists_splitAt? hrest
    obtain ⟨hcode, rfl⟩ := splitAt?_eq_some.mp hsecond
    exact ⟨version, code, text, .texted version code text, hversion, hcode⟩
  · exact ⟨version, rest, [], .bare version rest, hversion, hrest⟩

/-- What is read of a line is what its parts say. -/
theorem readStatusLine_of_hasParts (h : HasParts line version code text) (hversion : ' ' ∉ version)
    (hcode : ' ' ∉ code) :
    readStatusLine line =
      if !isVersion version then .error (.badVersion (String.ofList version))
      else (status? code).elim (.error (.badStatus (String.ofList code)))
        fun status => .ok (status, String.ofList (Text.trim text)) := by
  cases h with
  | bare =>
    rw [readStatusLine, splitAt?_eq_some.mpr ⟨hversion, rfl⟩]
    dsimp only [Option.getD_some]
    rw [splitAt?_eq_none.mpr hcode]
    dsimp only [Option.getD_none]
    cases status? code <;> rfl
  | texted =>
    rw [readStatusLine, splitAt?_eq_some.mpr ⟨hversion, rfl⟩]
    dsimp only [Option.getD_some]
    rw [splitAt?_eq_some.mpr ⟨hcode, rfl⟩]
    dsimp only [Option.getD_some]
    cases status? code <;> rfl

/-- Behind a version that is understood, the code decides. -/
theorem readStatusLine_of_isVersion (h : HasParts line version code text)
    (hversion : isVersion version = true) (hcode : ' ' ∉ code) :
    readStatusLine line = (status? code).elim (.error (.badStatus (String.ofList code)))
      fun status => .ok (status, String.ofList (Text.trim text)) := by
  rw [readStatusLine_of_hasParts h (space_notMem_of_isVersion hversion) hcode, hversion]
  rfl

/-- Without a space there is no code. -/
theorem readStatusLine_of_space_notMem (h : ' ' ∉ line) (p : Nat × String) :
    readStatusLine line ≠ .ok p := by
  rw [readStatusLine, splitAt?_eq_none.mpr h]
  dsimp only [Option.getD_none]
  split <;> nofun

/-- What is read as a status line is one. -/
theorem isStatusLine_of_readStatusLine {status : Nat} {reason : String}
    (h : readStatusLine line = .ok (status, reason)) : IsStatusLine line status reason := by
  have hline : ' ' ∈ line := by
    by_contra hspace
    exact readStatusLine_of_space_notMem hspace _ h
  obtain ⟨version, code, text, hparts, hversion, hcode⟩ := exists_hasParts hline
  rw [readStatusLine_of_hasParts hparts hversion hcode] at h
  split at h
  · cases h
  rename_i hsupported
  rw [Bool.not_eq_true, Bool.not_eq_false'] at hsupported
  cases hstatus : status? code with
  | none =>
    rw [hstatus] at h
    cases h
  | some n =>
    rw [hstatus] at h
    cases h
    obtain ⟨hspells, hlow, hhigh⟩ := status?_eq_some_iff.mp hstatus
    exact ⟨version, code, text, hparts, isVersion_iff.mp hsupported, hcode, hspells, hlow, hhigh,
      rfl⟩

end

/-- Exactly the lines of the grammar are read, with the status and the reason that they give; and a
code that spells a number out of the range is refused, whatever its number of digits. -/
theorem readStatusLine_grammar (line : List Char) :
    (∀ status reason, readStatusLine line = .ok (status, reason) ↔
      IsStatusLine line status reason) ∧
    ∀ version code text n, HasParts line version code text →
      (version = "HTTP/1.0".toList ∨ version = "HTTP/1.1".toList) → Spells code n →
      n < 100 ∨ 999 < n → readStatusLine line = .error (.badStatus (String.ofList code)) := by
  refine ⟨fun status reason => ⟨isStatusLine_of_readStatusLine, fun h => ?_⟩,
    fun version code text n hparts hversion hspells hrange => ?_⟩
  · obtain ⟨version, code, text, hparts, hversion, hcode, hspells, hlow, hhigh, rfl⟩ := h
    rw [readStatusLine_of_isVersion hparts (isVersion_iff.mpr hversion) hcode,
      status?_eq_some_iff.mpr ⟨hspells, hlow, hhigh⟩]
    rfl
  · rw [readStatusLine_of_isVersion hparts (isVersion_iff.mpr hversion) hspells.space_notMem,
      status?_eq_none hspells (by omega)]
    rfl

/-- A plus sign, leading zeros and spaces in the reason; no reason; and a number that would be 100
if its seventeenth bit were lost. -/
theorem readStatusLine_grammar_overflow :
    IsStatusLine "HTTP/1.1 +000404 Not  Found ".toList 404 "Not  Found" ∧
      IsStatusLine "HTTP/1.0 999".toList 999 "" ∧
      HasParts "HTTP/1.0 0065636 OK".toList "HTTP/1.0".toList "0065636".toList "OK".toList ∧
      Spells "0065636".toList 65636 ∧ 65636 % codeBound = 100 ∧
      readStatusLine "HTTP/1.0 0065636 OK".toList = .error (.badStatus "0065636") := by
  have hsplit : "HTTP/1.0 0065636 OK".toList =
      "HTTP/1.0".toList ++ ' ' :: ("0065636".toList ++ ' ' :: "OK".toList) := by decide
  have hparts :
      HasParts "HTTP/1.0 0065636 OK".toList "HTTP/1.0".toList "0065636".toList "OK".toList := by
    rw [hsplit]
    exact .texted _ _ _
  have hspells : Spells "0065636".toList 65636 :=
    ⟨_, .inl rfl, by decide, List.all_eq_true.mp (by decide), by decide⟩
  obtain ⟨hread, -⟩ := readStatusLine_grammar "HTTP/1.1 +000404 Not  Found ".toList
  obtain ⟨hbare, -⟩ := readStatusLine_grammar "HTTP/1.0 999".toList
  obtain ⟨-, hrefused⟩ := readStatusLine_grammar "HTTP/1.0 0065636 OK".toList
  exact ⟨(hread _ _).mp (by decide +kernel), (hbare _ _).mp (by decide +kernel), hparts, hspells,
    by decide, hrefused _ _ _ _ hparts (.inl rfl) hspells (.inr (by decide))⟩

end BoxClient.Http
