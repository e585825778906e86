import BoxClient.Proofs.Http.Request
import BoxClient.Proofs.Text.Utf8
/-!
Where the head of a request ends. Its lines hold no line break and none of them is empty, so the
first empty line of an accepted request is the one behind its headers: the bytes in front of it are
the lines of the head and the bytes behind it are the payload.
-/
namespace BoxClient.Http

/-- The bytes before the first two line ends in a row, and those after them. -/
def splitHead? : Bytes → Option (Bytes × Bytes)
  | [] => none
  | b :: r =>
    if crlf ++ crlf <+: b :: r then some ([], (b :: r).drop 4)
    else (splitHead? r).map fun p => (b :: p.1, p.2)

def joinLines (lines : List String) : Bytes := crlf.intercalate (lines.map Utf8.encode)

section
variable {b : UInt8} {r line rest : Bytes} {lines : List String}

theorem splitHead?_end (rest : Bytes) : splitHead? (crlf ++ crlf ++ rest) = some ([], rest) := by
  have hprefix : crlf ++ crlf <+: 0x0d :: 0x0a :: 0x0d :: 0x0a :: rest := ⟨rest, rfl⟩
  show splitHead? (0x0d :: 0x0a :: 0x0d :: 0x0a :: rest) = _
  rw [splitHead?, if_pos hprefix]
  rfl

/-- A byte that begins no line end belongs to the head. -/
theorem splitHead?_pass (h : ¬ crlf ++ crlf <+: b :: r) :
    splitHead? (b :: r) = (splitHead? r).map fun p => (b :: p.1, p.2) := by
  rw [splitHead?, if_neg h]

/-- A head does not end among bytes none of which is a carriage return. -/
theorem splitHead?_line (h : ∀ b ∈ line, b ≠ 0x0d) (r : Bytes) :
    splitHead? (line ++ r) = (splitHead? r).map fun p => (line ++ p.1, p.2) := by
  induction line with
  | nil => simp
  | cons b line ih =>
    rw [List.forall_mem_cons] at h
    have hb : ¬ crlf ++ crlf <+: b :: (line ++ r) := by
      simp [crlf, List.cons_prefix_cons, h.1.symm]
    rw [List.cons_append, splitHead?_pass hb, ih h.2, Option.map_map]
    rfl

/-- A line end in front of a line that is not empty belongs to the head. -/
theorem splitHead?_lineEnd (h : b ≠ 0x0d) (r : Bytes) :
    splitHead? (crlf ++ b :: r) = (splitHead? (b :: r)).map fun p => (crlf ++ p.1, p.2) := by
  have hfirst : ¬ crlf ++ crlf <+: 0x0d :: 0x0a :: b :: r := by
    simp [crlf, List.cons_prefix_cons, h.symm]
  have hsecond : ¬ crlf ++ crlf <+: 0x0a :: b :: r := by
    simp [crlf, List.cons_prefix_cons]
  show splitHead? (0x0d :: 0x0a :: b :: r) = _
  rw [splitHead?_pass hfirst, splitHead?_pass hsecond, Option.map_map]
  rfl

@[simp] theorem oneLine_append {s t : String} (hs : OneLine s) (ht : OneLine t) :
    OneLine (s ++ t) := by
  intro c hc
  rw [String.toList_append, List.mem_append] at hc
  exact hc.elim (hs c) (ht c)

theorem append_ne_empty {s : String} (h : s ≠ "") (t : String) : s ++ t ≠ "" :=
  fun he => h (String.append_eq_empty_iff.mp he).1

/-- A text without line breaks has no byte of one. -/
theorem ne_lineBreak_of_mem_encode {s : String} (h : OneLine s) :
    ∀ b ∈ Utf8.encode s, b ≠ 0x0d ∧ b ≠ 0x0a := by
  have hchar {b : UInt8} (hb : b ∈ Utf8.encode s) (hascii : b.toNat < 0x80) :
      ∃ c ∈ s.toList, b.toNat = c.toNat := by
    obtain ⟨c, hc, hb⟩ := List.mem_flatMap.mp hb
    rcases Utf8.toNat_of_mem_encodeChar hb with he | he
    · exact ⟨c, hc, he⟩
    · exact absurd hascii (Nat.not_lt.mpr he)
  refine fun b hb => ⟨?_, ?_⟩
  · rintro rfl
    obtain ⟨c, hc, he⟩ := hchar hb (by decide)
    obtain rfl : c = '\r' := Char.toNat_inj.mp he.symm
    exact absurd (h '\r' hc) (by decide)
  · rintro rfl
    obtain ⟨c, hc, he⟩ := hchar hb (by decide)
    obtain rfl : c = '\n' := Char.toNat_inj.mp he.symm
    exact absurd (h '\n' hc) (by decide)

theorem encode_ne_nil {s : String} (h : s ≠ "") : Utf8.encode s ≠ [] := by
  intro he
  have hempty : Utf8.encode s = Utf8.encode "" := he
  exact h (String.toList_inj.mp (Utf8.encode_injective hempty))

theorem joinLines_cons_cons (line next : String) (lines : List String) :
    joinLines (line :: next :: lines) = Utf8.encode line ++ crlf ++ joinLines (next :: lines) :=
  List.intercalate_cons_cons

/-- The head ends behind its last line. -/
theorem splitHead?_joinLines (hlines : ∀ line ∈ lines, OneLine line ∧ line ≠ "") (rest : Bytes) :
    splitHead? (joinLines lines ++ (crlf ++ crlf ++ rest)) = some (joinLines lines, rest) := by
  induction lines with
  | nil => exact splitHead?_end rest
  | cons line lines ih =>
    rw [List.forall_mem_cons] at hlines
    have hline := fun b hb => (ne_lineBreak_of_mem_encode hlines.1.1 b hb).1
    cases lines with
    | nil =>
      have hjoin : joinLines [line] = Utf8.encode line := List.intercalate_singleton
      rw [hjoin, splitHead?_line hline, splitHead?_end]
      simp
    | cons next lines =>
      have hnext := (List.forall_mem_cons.mp hlines.2).1
      -- The line end between the two lines is not the one that ends the head.
      obtain ⟨b, r, hfront⟩ := List.exists_cons_of_ne_nil (encode_ne_nil hnext.2)
      have hb : b ≠ 0x0d := by
        refine (ne_lineBreak_of_mem_encode hnext.1 b ?_).1
        rw [hfront]
        exact List.mem_cons_self
      obtain ⟨r', hjoin⟩ : ∃ r', joinLines (next :: lines) = b :: r' := by
        cases lines with
        | nil => exact ⟨r, List.intercalate_singleton.trans hfront⟩
        | cons _ _ => exact ⟨_, by rw [joinLines_cons_cons, hfront]; rfl⟩
      have hrest := ih hlines.2
      rw [hjoin, List.cons_append] at hrest
      rw [joinLines_cons_cons, hjoin, List.append_assoc, List.append_assoc, List.cons_append,
        splitHead?_line hline, splitHead?_lineEnd hb, hrest]
      simp

theorem joinLines_append_crlf (line : String) (lines : List String) :
    joinLines (line :: lines) ++ crlf =
      (line :: lines).flatMap fun line => Utf8.encode line ++ crlf := by
  induction lines generalizing line with
  | nil => simp [joinLines]
  | cons next lines ih =>
    rw [joinLines_cons_cons, List.append_assoc, ih]
    rfl

end

namespace Request

def headLines (r : Request) : List String :=
  (r.method ++ " " ++ r.path ++ " " ++ version) :: r.headers.map fun h => h.1 ++ ": " ++ h.2

/-- The bytes of a request are its lines, two line ends and the payload. -/
theorem bytes_eq (r : Request) :
    r.bytes = joinLines r.headLines ++ (crlf ++ crlf ++ Utf8.encode r.body.payload) := by
  have hlines := joinLines_append_crlf (r.method ++ " " ++ r.path ++ " " ++ version)
    (r.headers.map fun h => h.1 ++ ": " ++ h.2)
  rw [List.flatMap_cons, List.flatMap_map] at hlines
  rw [bytes, headLines, ← List.append_assoc, ← List.append_assoc, hlines]

/-- The lines of the head of an accepted request are lines, and none is empty. -/
theorem oneLine_headLines {r : Request} (hmethod : IsToken r.method) (hpath : IsToken r.path)
    (hheaders : ∀ h ∈ r.headers, IsHeaderField h) :
    ∀ line ∈ r.headLines, OneLine line ∧ line ≠ "" := by
  have hspace : OneLine " " := by decide
  have hcolon : OneLine ": " := by decide
  have hversion : OneLine version := by decide
  intro line hline
  rcases List.mem_cons.mp hline with rfl | hline
  · refine ⟨?_, append_ne_empty (append_ne_empty (append_ne_empty (append_ne_empty hmethod.1 _)
      _) _) _⟩
    exact oneLine_append (oneLine_append (oneLine_append (oneLine_append hmethod.2.1 hspace)
      hpath.2.1) hspace) hversion
  · obtain ⟨h, hh, rfl⟩ := List.mem_map.mp hline
    obtain ⟨hne, hname, hvalue⟩ := hheaders h hh
    exact ⟨oneLine_append (oneLine_append hname hcolon) hvalue,
      append_ne_empty (append_ne_empty hne _) _⟩

/-- Of an accepted request the head is what its lines say, and the rest is the payload. -/
theorem splitHead?_of_encode {r : Request} {bs : Bytes} (h : r.encode = .ok bs) :
    splitHead? bs = some (joinLines r.headLines, Utf8.encode r.body.payload) := by
  obtain ⟨⟨hmethod, hpath, hheaders⟩, rfl⟩ := encode_eq_ok_iff.mp h
  rw [bytes_eq]
  exact splitHead?_joinLines (oneLine_headLines hmethod hpath hheaders) _

end Request
end BoxClient.Http
