import BoxClient.Proofs.Http.Framing
import BoxClient.Proofs.Http.HeadGrammar
import BoxClient.Proofs.Http.Transaction
/-!
A request read back line by line. Nothing that a caller puts into a method, a path or a header can
end a line or begin another: an accepted request has the lines that its parts ask for and no more,
the first empty line is the end of its head, and what is behind that is its body, whatever lines the
body has of its own.
-/
namespace BoxClient.Http

open Outcome

/-- The texts of the lines up to the first empty one, and the bytes behind that. `front` is what was
read of the first line already. -/
def linesFrom (front : Bytes) : Bytes → Option (List String × Bytes)
  | [] => none
  | b :: r =>
    if b = 0x0a then do
      let line ← Utf8.decode? (dropReturn front)
      if line = "" then some ([], r)
      else
        let (lines, r) ← linesFrom [] r
        some (line :: lines, r)
    else linesFrom (front ++ [b]) r

section
variable {front body r : Bytes} {line : String} {lines : List String}

theorem linesFrom_body (h : 0x0a ∉ body) (front r : Bytes) :
    linesFrom front (body ++ r) = linesFrom (front ++ body) r := by
  induction body generalizing front with
  | nil => rw [List.append_nil, List.nil_append]
  | cons b body ih =>
    rw [List.mem_cons, not_or] at h
    rw [List.cons_append, linesFrom, if_neg (Ne.symm h.1), ih h.2, List.append_assoc,
      List.singleton_append]

/-- A line and its end are read as the text of the line. -/
theorem linesFrom_crlf (hline : OneLine line) (r : Bytes) :
    linesFrom [] (Utf8.encode line ++ crlf ++ r) =
      if line = "" then some ([], r)
      else (linesFrom [] r).map fun p => (line :: p.1, p.2) := by
  have hfeed : 0x0a ∉ Utf8.encode line ++ [0x0d] := by
    intro hmem
    rcases List.mem_append.mp hmem with hmem | hmem
    · exact (ne_lineBreak_of_mem_encode hline _ hmem).2 rfl
    · simp at hmem
  have hsplit : Utf8.encode line ++ crlf ++ r = (Utf8.encode line ++ [0x0d]) ++ 0x0a :: r := by
    simp [crlf]
  have hdrop : dropReturn (Utf8.encode line ++ [0x0d]) = Utf8.encode line := by
    rw [dropReturn, List.getLast?_concat, if_pos rfl, List.dropLast_concat]
  rw [hsplit, linesFrom_body hfeed, List.nil_append, linesFrom, if_pos rfl, hdrop,
    Utf8.decode?_eq_some_iff.mpr rfl]
  split
  · rename_i he
    simp [he]
  · rename_i hne
    simp only [Option.bind_eq_bind, Option.bind_some, if_neg hne]
    cases linesFrom [] r <;> rfl

/-- Lines that are not empty, and an empty one behind them, are read as they were written. -/
theorem linesFrom_lines (h : ∀ line ∈ lines, OneLine line ∧ line ≠ "") (r : Bytes) :
    linesFrom [] ((lines.flatMap fun line => Utf8.encode line ++ crlf) ++ (crlf ++ r)) =
      some (lines, r) := by
  induction lines with
  | nil =>
    have hempty : OneLine "" := by decide
    exact linesFrom_crlf hempty r
  | cons line lines ih =>
    obtain ⟨⟨hline, hne⟩, hlines⟩ := List.forall_mem_cons.mp h
    rw [List.flatMap_cons, List.append_assoc, linesFrom_crlf hline, if_neg hne, ih hlines]
    rfl

end

/-- A text with no white space at either end. -/
def NoBlankEnds (s : String) : Prop :=
  (∀ c ∈ s.toList.head?, Text.isBlank c = false) ∧ ∀ c ∈ s.toList.getLast?, Text.isBlank c = false

instance (s : String) : Decidable (NoBlankEnds s) :=
  decidable_of_iff ((s.toList.head?.all fun c => !Text.isBlank c) = true ∧
    (s.toList.getLast?.all fun c => !Text.isBlank c) = true)
    (by simp [NoBlankEnds, Option.all_eq_true])

section
variable {cs : List Char} {h : Header}

theorem dropWhile_isBlank (hcs : ∀ c ∈ cs.head?, Text.isBlank c = false) :
    cs.dropWhile Text.isBlank = cs := by
  cases cs with
  | nil => rfl
  | cons c cs => exact List.dropWhile_cons_of_neg (by simp [hcs c rfl])

/-- Text without blanks at its ends is left alone. -/
theorem trim_eq_self (hcs : ∀ c ∈ cs.head?, Text.isBlank c = false)
    (hcs' : ∀ c ∈ cs.getLast?, Text.isBlank c = false) : Text.trim cs = cs := by
  rw [Text.trim, dropWhile_isBlank hcs, dropWhile_isBlank, List.reverse_reverse]
  rwa [List.head?_reverse]

/-- The line of a header is read as that header, if its first colon is the one behind the name and
nothing is lost by trimming. -/
theorem readHeaderLine_text (hne : h.1 ≠ "") (hcolon : ':' ∉ h.1.toList) (hname : NoBlankEnds h.1)
    (hvalue : NoBlankEnds h.2) : readHeaderLine (h.1 ++ ": " ++ h.2).toList = .ok h := by
  have hblank : Text.trim (' ' :: h.2.toList) = h.2.toList := by
    have htrim : Text.trim (' ' :: h.2.toList) = Text.trim h.2.toList := by
      rw [Text.trim, List.dropWhile_cons_of_pos (by decide), ← Text.trim]
    rw [htrim, trim_eq_self hvalue.1 hvalue.2]
  rw [readHeaderLine_eq_ok]
  refine ⟨h.1.toList, ' ' :: h.2.toList, by simp, hcolon, ?_, ?_⟩
  · cases hchars : h.1.toList with
    | nil => exact absurd (String.toList_inj.mp hchars) hne
    | cons c cs => exact ⟨c, List.mem_cons_self, hname.1 c (by rw [hchars]; rfl)⟩
  · rw [trim_eq_self hname.1 hname.2, hblank, String.ofList_toList, String.ofList_toList]

end

namespace Request

/-- A request line is split at its two spaces. -/
theorem splitOn_requestLine {r : Request} (hmethod : IsToken r.method) (hpath : IsToken r.path) :
    (r.method ++ " " ++ r.path ++ " " ++ version).toList.splitOn ' ' =
      [r.method.toList, r.path.toList, version.toList] := by
  have hspaces : ∀ part ∈ [r.method.toList, r.path.toList, version.toList], ' ' ∉ part := by
    simp only [List.forall_mem_cons]
    exact ⟨hmethod.2.2, hpath.2.2, by decide, nofun⟩
  rw [← List.splitOn_intercalate ' ' hspaces (List.cons_ne_nil _ _)]
  simp [List.intercalate, List.intersperse]

/-- A request is accepted exactly if its tokens and values keep to their lines. Read line by line it
then has the request line, which splits into its three parts, and one line for each header in their
order, before the first empty line; behind that line is the payload, and a header that a reader can
tell apart from its line comes back as it was. A request that is not accepted is refused for its
arguments and nothing is written. -/
theorem encode_lines (r : Request) :
    ((∃ bs, r.encode = .ok bs) ↔
      IsToken r.method ∧ IsToken r.path ∧ ∀ h ∈ r.headers, IsHeaderField h) ∧
    (∀ bs, r.encode = .ok bs →
      ∃ first, linesFrom [] bs = some (first :: r.headers.map fun h => h.1 ++ ": " ++ h.2,
          Utf8.encode r.body.payload) ∧
        first.toList.splitOn ' ' = [r.method.toList, r.path.toList, "HTTP/1.0".toList] ∧
        ∀ h ∈ r.headers, ':' ∉ h.1.toList → NoBlankEnds h.1 → NoBlankEnds h.2 →
          readHeaderLine (h.1 ++ ": " ++ h.2).toList = .ok h) ∧
    ∀ refusal, r.encode = .error refusal → ∀ t : Transaction, t.sent = false →
      t.send r = (.error (.invalidArgument refusal.message), t) := by
  refine ⟨⟨fun ⟨bs, h⟩ => (encode_eq_ok_iff.mp h).1, fun h => ⟨_, encode_eq_ok_iff.mpr ⟨h, rfl⟩⟩⟩,
    ?_, ?_⟩
  · intro bs h
    obtain ⟨⟨hmethod, hpath, hheaders⟩, rfl⟩ := encode_eq_ok_iff.mp h
    have hlines := linesFrom_lines (oneLine_headLines hmethod hpath hheaders)
      (Utf8.encode r.body.payload)
    have hbytes : r.bytes = (r.headLines.flatMap fun line => Utf8.encode line ++ crlf) ++
        (crlf ++ Utf8.encode r.body.payload) := by
      rw [bytes, headLines, List.flatMap_cons, List.flatMap_map, List.append_assoc _ crlf]
    rw [hbytes]
    exact ⟨_, hlines, splitOn_requestLine hmethod hpath,
      fun h hh hcolon => readHeaderLine_text (hheaders h hh).1 hcolon⟩
  · intro refusal h t ht
    rw [Transaction.send, ht, h]
    rfl

/-- A header without a value, one whose value looks like another header, and a body that begins with
empty lines; and a header that would have made two. -/
theorem encode_lines_smuggling :
    let r : Request :=
      ⟨"GET", "/a", [("X-A", ""), ("X-B", "X-C: 3")], .text "\r\n\r\nX-D: 4\r\n"⟩
    let split : Request := ⟨"GET", "/", [("X-A", "1\r\nX-B: 2")], .empty⟩
    let t : Transaction := { connection := {}, decoder := none }
    (∃ bs, r.encode = .ok bs ∧
      linesFrom [] bs = some (["GET /a HTTP/1.0", "X-A: ", "X-B: X-C: 3"],
        Utf8.encode "\r\n\r\nX-D: 4\r\n")) ∧
      "GET /a HTTP/1.0".toList.splitOn ' ' = ["GET".toList, "/a".toList, "HTTP/1.0".toList] ∧
      readHeaderLine "X-B: X-C: 3".toList = .ok ("X-B", "X-C: 3") ∧
      t.send split = (.error (.invalidArgument "Illegal value for header 'X-A'"), t) := by
  intro r split t
  obtain ⟨haccepted, hlines, -⟩ := encode_lines r
  obtain ⟨-, -, hrefused⟩ := encode_lines split
  obtain ⟨bs, hbs⟩ := haccepted.mpr (by decide)
  obtain ⟨first, hread, hfirst, hheader⟩ := hlines bs hbs
  obtain rfl : first = "GET /a HTTP/1.0" := by
    have he := congrArg (List.intercalate [' ']) hfirst
    rw [List.intercalate_splitOn] at he
    exact String.toList_inj.mp (he.trans (by decide))
  exact ⟨⟨bs, hbs, hread⟩, hfirst, hheader ("X-B", "X-C: 3") (by decide) (by decide) (by decide)
    (by decide), hrefused (.lineBreakInHeader "X-A") (by decide) t rfl⟩

end Request
end BoxClient.Http
