import BoxClient.Proofs.Http.Delivery
import BoxClient.Proofs.Text.Utf8
import Mathlib.Data.List.Forall2
import Mathlib.Data.List.TakeWhile
/-!
The grammar of a response head, and the reader that accepts it. A head is a status line, any number
of header lines and an empty line, and has at most `headLimit` bytes. `IsHead` says so about the
bytes as a whole; the reader takes one line after the other from a stream and counts the bytes that
are left of the limit. Both directions go by induction on the header lines.
-/
namespace BoxClient.Http

open Outcome

/-- A carriage return at the end goes with the line feed behind it; one only. -/
def dropReturn (body : Bytes) : Bytes :=
  if body.getLast? = some 0x0d then body.dropLast else body

/-- A line and its text: UTF-8 up to the first line feed. -/
def IsLine (line : Bytes) (text : List Char) : Prop :=
  ∃ body, 0x0a ∉ body ∧ line = body ++ [0x0a] ∧
    dropReturn body = text.flatMap String.utf8EncodeChar

/-- A header line is split at its first colon, before which it is not blank. -/
def IsHeader (text : List Char) (header : String × String) : Prop :=
  ∃ name value, text = name ++ ':' :: value ∧ ':' ∉ name ∧ (∃ c ∈ name, Text.isBlank c = false) ∧
    header = (String.ofList (Text.trim name), String.ofList (Text.trim value))

def IsHeaderLine (line : Bytes) (header : String × String) : Prop :=
  ∃ text, IsLine line text ∧ IsHeader text header

/-- The bytes of a head, from the first of the status line to the end of the empty line. -/
def IsHead (bs : Bytes) (head : Head) : Prop :=
  ∃ first lines last, bs = first ++ (lines.flatten ++ last) ∧
    (∃ text, IsLine first text ∧ readStatusLine text = .ok (head.status, head.reason)) ∧
    List.Forall₂ IsHeaderLine lines head.headers ∧ IsLine last []

@[simp] theorem splitAt?_eq_some {c : Char} {cs front back : List Char} :
    splitAt? c cs = some (front, back) ↔ c ∉ front ∧ cs = front ++ c :: back := by
  induction cs generalizing front with
  | nil => simp [splitAt?]
  | cons a r ih =>
    rw [splitAt?]
    by_cases ha : a = c
    · subst ha
      rw [if_pos rfl]
      constructor
      · intro h
        cases h
        simp
      · intro h
        obtain ⟨hfront, he⟩ := h
        cases front with
        | nil =>
          injection he with _ he
          rw [he]
        | cons x front =>
          injection he with hx _
          simp [hx] at hfront
    · rw [if_neg ha, Option.map_eq_some_iff]
      constructor
      · intro h
        obtain ⟨⟨front', back'⟩, h, he⟩ := h
        cases he
        obtain ⟨hfront, rfl⟩ := ih.mp h
        exact ⟨by simp [hfront, Ne.symm ha], rfl⟩
      · intro h
        obtain ⟨hfront, he⟩ := h
        cases front with
        | nil =>
          injection he with he _
          exact absurd he ha
        | cons x front =>
          injection he with hx he
          subst hx
          exact ⟨(front, back), ih.mpr ⟨fun h => hfront (List.mem_cons_of_mem _ h), he⟩, rfl⟩

@[simp] theorem splitAt?_eq_none {c : Char} {cs : List Char} : splitAt? c cs = none ↔ c ∉ cs := by
  induction cs with
  | nil => simp [splitAt?]
  | cons a r ih =>
    rw [splitAt?, List.mem_cons, not_or]
    by_cases ha : a = c
    · simp [ha]
    · rw [if_neg ha, Option.map_eq_none_iff, ih]
      simp [Ne.symm ha]

@[simp] theorem trim_eq_nil_iff {cs : List Char} :
    Text.trim cs = [] ↔ ∀ c ∈ cs, Text.isBlank c = true := by
  rw [Text.trim, List.reverse_eq_nil_iff, List.dropWhile_eq_nil_iff]
  simp only [List.mem_reverse]
  constructor
  · intro h c hc
    have hsplit : cs.takeWhile Text.isBlank ++ cs.dropWhile Text.isBlank = cs :=
      List.takeWhile_append_dropWhile
    rw [← hsplit, List.mem_append] at hc
    rcases hc with hc | hc
    · exact List.mem_takeWhile_imp hc
    · exact h c hc
  · intro h c hc
    exact h c ((List.dropWhile_suffix _).subset hc)

theorem readHeaderLine_eq_ok {text : List Char} {header : String × String} :
    readHeaderLine text = .ok header ↔ IsHeader text header := by
  have hblank (name : List Char) :
      ¬ Text.trim name = [] ↔ ∃ c ∈ name, Text.isBlank c = false := by
    simp [trim_eq_nil_iff]
  rw [readHeaderLine]
  constructor
  · intro h
    split at h
    · cases h
    · rename_i name value hsplit
      obtain ⟨hname, htext⟩ := splitAt?_eq_some.mp hsplit
      split at h
      · cases h
      · rename_i htrim
        injection h with h
        exact ⟨name, value, htext, hname, (hblank name).mp htrim, h.symm⟩
  · intro h
    obtain ⟨name, value, htext, hname, hsome, rfl⟩ := h
    rw [splitAt?_eq_some.mpr ⟨hname, htext⟩]
    exact if_neg ((hblank name).mpr hsome)

@[simp] theorem dropLineEnd_feed (body : Bytes) :
    dropLineEnd (body ++ [0x0a]) = dropReturn body := by
  rcases List.eq_nil_or_concat body with rfl | ⟨front, b, rfl⟩
  · rfl
  · rw [dropReturn, List.concat_eq_append, List.getLast?_concat, List.dropLast_concat]
    by_cases hb : b = 0x0d
    · subst hb
      simp [dropLineEnd]
    · have hsome : ¬ some b = some (0x0d : UInt8) := by simpa using hb
      rw [if_neg hsome]
      simp [dropLineEnd, hb]

/-- A line feed closes a line within the budget; then it has a text if it is UTF-8. -/
theorem readLine_feed {budget : Nat} {body : Bytes} {text : List Char} :
    readLine budget (body ++ [0x0a]) = .ok (some text) ↔
      dropReturn body = text.flatMap String.utf8EncodeChar := by
  rw [readLine, if_neg (by simp), if_neg (by simp), dropLineEnd_feed, ← Utf8.chars_eq_iff]
  constructor
  · intro h
    split at h
    · rename_i cs hcs
      cases h
      exact hcs
    · cases h
  · intro h
    rw [h]

/-- A line that is read ends with a line feed. -/
theorem getLast?_of_readLine {budget : Nat} {bs : Bytes} {text : List Char}
    (h : readLine budget bs = .ok (some text)) : bs.getLast? = some 0x0a := by
  rw [readLine] at h
  split at h
  · cases h
  · split at h
    · cases h
    · rename_i hlast
      simpa using hlast

/-- A line is cut off with its line feed. -/
theorem cutLine_feed {body rest : Bytes} {limit : Nat} (h : 0x0a ∉ body)
    (hlimit : body.length < limit) :
    cutLine limit (body ++ 0x0a :: rest) = (body ++ [0x0a], rest, true) := by
  induction body generalizing limit with
  | nil =>
    cases limit with
    | zero => simp at hlimit
    | succ n => simp [cutLine]
  | cons b body ih =>
    cases limit with
    | zero => simp at hlimit
    | succ n =>
      have hb : b ≠ 0x0a := fun e => h (e ▸ List.mem_cons_self)
      have hbody : 0x0a ∉ body := fun m => h (List.mem_cons_of_mem _ m)
      rw [List.cons_append, cutLine, if_neg hb, ih hbody (by simpa using hlimit)]
      rfl

@[simp] theorem cutLine_whole (limit : Nat) (bs : Bytes) :
    (cutLine limit bs).1 ++ (cutLine limit bs).2.1 = bs := by
  induction bs generalizing limit with
  | nil => cases limit <;> rfl
  | cons b r ih =>
    cases limit with
    | zero => rfl
    | succ n =>
      by_cases hb : b = 0x0a
      · simp [cutLine, hb]
      · simp only [cutLine, if_neg hb, List.cons_append, ih n]

theorem cutLine_length_le (limit : Nat) (bs : Bytes) : (cutLine limit bs).1.length ≤ limit := by
  induction bs generalizing limit with
  | nil => cases limit <;> simp [cutLine]
  | cons b r ih =>
    cases limit with
    | zero => simp [cutLine]
    | succ n =>
      by_cases hb : b = 0x0a
      · simp [cutLine, hb]
      · simp only [cutLine, if_neg hb, List.length_cons]
        have := ih n
        omega

/-- The line feed of a line is its last byte. -/
theorem cutLine_body {limit : Nat} {bs : Bytes} (h : (cutLine limit bs).1.getLast? = some 0x0a) :
    ∃ body, 0x0a ∉ body ∧ (cutLine limit bs).1 = body ++ [0x0a] := by
  induction bs generalizing limit with
  | nil => cases limit <;> simp [cutLine] at h
  | cons b r ih =>
    cases limit with
    | zero => simp [cutLine] at h
    | succ n =>
      by_cases hb : b = 0x0a
      · exact ⟨[], by simp, by simp [cutLine, hb]⟩
      · simp only [cutLine, if_neg hb] at h ⊢
        have hlast : (cutLine n r).1.getLast? = some 0x0a := by
          cases hl : (cutLine n r).1 with
          | nil => simp [hl, hb] at h
          | cons x t => simpa [hl] using h
        obtain ⟨body, hbody, he⟩ := ih hlast
        exact ⟨b :: body, by simp [hbody, Ne.symm hb], by rw [he]; rfl⟩

section
variable {i i' : Inlet} {limit : Nat}

/-- A line that is taken stands in front of what is left, and is no longer than the limit. -/
theorem line_eq_ok {bs : Bytes} (h : i.line limit = .ok (bs, i')) :
    i.delivery.bytes = bs ++ i'.delivery.bytes ∧ i'.delivery.failure = i.delivery.failure ∧
      bs = (cutLine limit i.delivery.bytes).1 := by
  have hview := i.line_delivery limit
  have hwhole := cutLine_whole limit i.delivery.bytes
  rw [h, Delivery.line] at hview
  change Except.ok (bs, i'.delivery) = _ at hview
  cases hf : i.delivery.failure with
  | none =>
    rw [hf] at hview
    injection hview with hview
    injection hview with hbs hrest
    rw [hrest, hbs]
    exact ⟨hwhole.symm, rfl, rfl⟩
  | some reason =>
    rw [hf] at hview
    simp only at hview
    split at hview
    · injection hview with hview
      injection hview with hbs hrest
      rw [hrest, hbs]
      exact ⟨hwhole.symm, rfl, rfl⟩
    · cases hview

/-- A line that ends within what is delivered is taken, whatever comes behind it. -/
theorem line_of_met {line rest : Bytes} (h : cutLine limit i.delivery.bytes = (line, rest, true)) :
    ∃ i', i.line limit = .ok (line, i') ∧ i'.delivery = ⟨rest, i.delivery.failure⟩ := by
  have hview := i.line_delivery limit
  rw [Delivery.line_met (by rw [h]), h] at hview
  cases hline : i.line limit with
  | error reason =>
    rw [hline] at hview
    cases hview
  | ok p =>
    rw [hline] at hview
    injection hview with hview
    injection hview with hbs hrest
    exact ⟨p.2, congrArg Except.ok (Prod.ext hbs rfl), hrest⟩

/-- A line that is complete within the limit is taken. -/
theorem line_of_feed {body rest : Bytes} (hbody : 0x0a ∉ body) (hlimit : body.length < limit)
    (hi : i.delivery.bytes = body ++ 0x0a :: rest) :
    ∃ i', i.line limit = .ok (body ++ [0x0a], i') ∧
      i'.delivery = ⟨rest, i.delivery.failure⟩ :=
  line_of_met (by rw [hi, cutLine_feed hbody hlimit])

/-- A line is not taken only because the stream fails before its end. -/
theorem line_eq_error {reason : String} (h : i.line limit = .error reason) :
    i.delivery.failure = some reason := by
  have hview := i.line_delivery limit
  rw [h, Delivery.line] at hview
  cases hf : i.delivery.failure with
  | none =>
    rw [hf] at hview
    cases hview
  | some reason' =>
    rw [hf] at hview
    dsimp only at hview
    split at hview
    · cases hview
    · cases hview
      rfl

end

section
variable {i i' : Inlet} {budget : Nat} {text : List Char}

/-- The next line of a head is read if it is there and within the budget. -/
theorem nextLine_of_isLine {line rest : Bytes} (hline : IsLine line text)
    (hbudget : line.length ≤ budget) (hi : i.delivery.bytes = line ++ rest) :
    ∃ i', nextLine budget i = .ok (some text, budget - line.length, i') ∧
      i'.delivery = ⟨rest, i.delivery.failure⟩ := by
  obtain ⟨body, hbody, rfl, htext⟩ := hline
  have hlimit : body.length < budget := by
    rw [List.length_append, List.length_singleton] at hbudget
    omega
  rw [List.append_assoc] at hi
  obtain ⟨i', htake, hrest⟩ := line_of_feed hbody hlimit hi
  refine ⟨i', ?_, hrest⟩
  simp [nextLine, htake, readLine_feed.mpr htext]

/-- What is read as a line is one, and the budget goes down by its length. -/
theorem isLine_of_nextLine {left : Nat} (h : nextLine budget i = .ok (some text, left, i')) :
    ∃ line, IsLine line text ∧ i.delivery.bytes = line ++ i'.delivery.bytes ∧
      line.length ≤ budget ∧ left = budget - line.length ∧
      i'.delivery.failure = i.delivery.failure := by
  simp only [nextLine, bind_eq_ok, mapError_eq_ok, pure_eq, Except.ok.injEq, Prod.mk.injEq] at h
  obtain ⟨⟨bs, j⟩, htake, _, hread, rfl, rfl, rfl⟩ := h
  obtain ⟨hbytes, hfailure, hcut⟩ := line_eq_ok htake
  have hlength : bs.length ≤ budget := hcut ▸ cutLine_length_le budget _
  obtain ⟨body, hbody, he⟩ := cutLine_body (hcut ▸ getLast?_of_readLine hread)
  rw [← hcut] at he
  subst he
  exact ⟨_, ⟨body, hbody, rfl, readLine_feed.mp hread⟩, hbytes, hlength, rfl, hfailure⟩

/-- Why a stream that begins so does not give a line or a head: it breaks the protocol or fails. -/
def Inlet.Blamed (i : Inlet) (e : Error) : Prop :=
  (∃ f, e = HeadFault.error f) ∨ ∃ reason, i.delivery.failure = some reason ∧ e = .io reason

theorem Inlet.Blamed.of_failure {e : Error} (h : i'.Blamed e)
    (hfailure : i'.delivery.failure = i.delivery.failure) : i.Blamed e := by
  rwa [Inlet.Blamed, ← hfailure]

theorem nextLine_error {e : Error} (h : nextLine budget i = .error e) : i.Blamed e := by
  simp only [nextLine, bind_eq_error, mapError_eq_error, pure_eq, reduceCtorEq, and_false,
    exists_false, or_false] at h
  rcases h with ⟨reason, htake, rfl⟩ | ⟨p, -, f, -, rfl⟩
  · exact .inr ⟨reason, line_eq_error htake, rfl⟩
  · exact .inl ⟨f, rfl⟩

end

theorem ne_nil_of_isHeader {text : List Char} {header : String × String}
    (h : IsHeader text header) : text ≠ [] := by
  obtain ⟨name, value, rfl, -⟩ := h
  simp

theorem length_pos_of_isLine {line : Bytes} {text : List Char} (h : IsLine line text) :
    0 < line.length := by
  obtain ⟨body, -, rfl, -⟩ := h
  simp

/-- Header lines within the budget are read, and then what is behind them. -/
theorem headerLines_append {lines : List Bytes} {headers : Headers} {more : Bytes}
    {rounds budget : Nat} {i : Inlet} (hlines : List.Forall₂ IsHeaderLine lines headers)
    (hi : i.delivery.bytes = lines.flatten ++ more) (hbudget : lines.flatten.length ≤ budget)
    (hrounds : budget < rounds) :
    ∃ rounds' j, budget - lines.flatten.length < rounds' ∧
      j.delivery = ⟨more, i.delivery.failure⟩ ∧
      headerLines rounds budget i =
        (headerLines rounds' (budget - lines.flatten.length) j).map
          fun p => (headers ++ p.1, p.2) := by
  -- A line has a byte at least, so the rounds outlast the budget through every step.
  induction hlines generalizing rounds budget i with
  | nil =>
    rw [List.flatten_nil, List.length_nil, Nat.sub_zero]
    refine ⟨rounds, i, hrounds, congrArg (Delivery.mk · _) hi, ?_⟩
    cases headerLines rounds budget i <;> rfl
  | @cons line header lines headers hline _ ih =>
    obtain ⟨text, hline, hheader⟩ := hline
    have hpos := length_pos_of_isLine hline
    simp only [List.flatten_cons, List.length_append, List.append_assoc] at hbudget hi
    have hfit : line.length ≤ budget := by omega
    obtain ⟨j, hnext, hj⟩ := nextLine_of_isLine hline hfit hi
    cases rounds with
    | zero => omega
    | succ rounds =>
      have hbytes : j.delivery.bytes = lines.flatten ++ more := by rw [hj]
      have hleft : lines.flatten.length ≤ budget - line.length := by omega
      have hmany : budget - line.length < rounds := by omega
      obtain ⟨rounds', k, hrounds', hk, he⟩ := ih hbytes hleft hmany
      rw [List.flatten_cons, List.length_append, ← Nat.sub_sub]
      refine ⟨rounds', k, hrounds', by rw [hk, hj], ?_⟩
      cases text with
      | nil => exact absurd rfl (ne_nil_of_isHeader hheader)
      | cons c cs =>
        simp only [headerLines, hnext, ok_bind, readHeaderLine_eq_ok.mpr hheader, mapError_ok, he]
        cases headerLines rounds' (budget - line.length - lines.flatten.length) k <;> rfl

/-- Header lines and an empty one within the budget are read, and nothing behind them. -/
theorem headerLines_of_forall₂ {lines : List Bytes} {headers : Headers} {last rest : Bytes}
    {rounds budget : Nat} {i : Inlet} (hlines : List.Forall₂ IsHeaderLine lines headers)
    (hlast : IsLine last []) (hi : i.delivery.bytes = lines.flatten ++ (last ++ rest))
    (hbudget : (lines.flatten ++ last).length ≤ budget) (hrounds : budget < rounds) :
    ∃ i', headerLines rounds budget i = .ok (headers, i') ∧
      i'.delivery = ⟨rest, i.delivery.failure⟩ := by
  rw [List.length_append] at hbudget
  have hfit : lines.flatten.length ≤ budget := by omega
  have hleft : last.length ≤ budget - lines.flatten.length := by omega
  obtain ⟨rounds', j, hrounds', hj, he⟩ := headerLines_append hlines hi hfit hrounds
  obtain ⟨i', hnext, hrest⟩ := nextLine_of_isLine hlast hleft (by rw [hj])
  refine ⟨i', ?_, by rw [hrest, hj]⟩
  cases rounds' with
  | zero => omega
  | succ rounds' =>
    rw [he, headerLines, hnext]
    simp [Except.map]

/-- What is read as header lines are header lines and an empty one within the budget. -/
theorem forall₂_of_headerLines {rounds budget : Nat} {i i' : Inlet} {headers : Headers}
    (h : headerLines rounds budget i = .ok (headers, i')) :
    ∃ lines last, List.Forall₂ IsHeaderLine lines headers ∧ IsLine last [] ∧
      i.delivery.bytes = lines.flatten ++ (last ++ i'.delivery.bytes) ∧
      (lines.flatten ++ last).length ≤ budget ∧ i'.delivery.failure = i.delivery.failure := by
  induction rounds generalizing budget i headers with
  | zero => cases h
  | succ rounds ih =>
    rw [headerLines, bind_eq_ok] at h
    obtain ⟨⟨line?, left, j⟩, hnext, h⟩ := h
    match line? with
    | none => cases h
    | some [] =>
      cases h
      obtain ⟨last, hlast, hbytes, hlength, -, hfailure⟩ := isLine_of_nextLine hnext
      exact ⟨[], last, .nil, hlast, hbytes, hlength, hfailure⟩
    | some (c :: cs) =>
      obtain ⟨line, hline, hbytes, hlength, hleft, hfailure⟩ := isLine_of_nextLine hnext
      simp only [bind_eq_ok, mapError_eq_ok] at h
      obtain ⟨header, hheader, ⟨headers', j'⟩, hmore, h⟩ := h
      cases h
      obtain ⟨lines, last, hlines, hlast, hbytes', hlength', hfailure'⟩ := ih hmore
      refine ⟨line :: lines, last, .cons ⟨_, hline, readHeaderLine_eq_ok.mp hheader⟩ hlines,
        hlast, ?_, ?_, hfailure'.trans hfailure⟩
      · rw [hbytes, hbytes', List.flatten_cons, List.append_assoc]
      · rw [List.flatten_cons, List.append_assoc, List.length_append]
        omega

theorem headerLines_error {rounds budget : Nat} {i : Inlet} {e : Error}
    (h : headerLines rounds budget i = .error e) : i.Blamed e := by
  induction rounds generalizing budget i with
  | zero =>
    cases h
    exact .inl ⟨_, rfl⟩
  | succ rounds ih =>
    rw [headerLines, bind_eq_error] at h
    rcases h with h | ⟨⟨line?, left, j⟩, hnext, h⟩
    · exact nextLine_error h
    · match line? with
      | none =>
        cases h
        exact .inl ⟨_, rfl⟩
      | some [] => cases h
      | some (c :: cs) =>
        obtain ⟨-, -, -, -, -, hfailure⟩ := isLine_of_nextLine hnext
        simp only [bind_eq_error, mapError_eq_error] at h
        rcases h with ⟨f, -, rfl⟩ | ⟨header, -, h | ⟨p, -, h⟩⟩
        · exact .inl ⟨f, rfl⟩
        · exact (ih h).of_failure hfailure
        · cases h

/-- A status line within the limit is read, and then the header lines. -/
theorem readHead_append {first more : Bytes} {text : List Char} {status : Nat} {reason : String}
    {i : Inlet} (hfirst : IsLine first text) (hstatus : readStatusLine text = .ok (status, reason))
    (hlimit : first.length ≤ headLimit) (hi : i.delivery.bytes = first ++ more) :
    ∃ j, j.delivery = ⟨more, i.delivery.failure⟩ ∧
      readHead i = (headerLines (headLimit - first.length + 1) (headLimit - first.length) j).map
        fun p => (⟨status, reason, p.1⟩, p.2) := by
  obtain ⟨j, hnext, hj⟩ := nextLine_of_isLine hfirst hlimit hi
  refine ⟨j, hj, ?_⟩
  simp only [readHead, hnext, ok_bind, hstatus, mapError_ok]
  cases headerLines (headLimit - first.length + 1) (headLimit - first.length) j <;> rfl

/-- A head within the limit is read, and nothing behind it. -/
theorem readHead_of_isHead {bs rest : Bytes} {head : Head} {i : Inlet} (hhead : IsHead bs head)
    (hlimit : bs.length ≤ headLimit) (hi : i.delivery.bytes = bs ++ rest) :
    ∃ i', readHead i = .ok (head, i') ∧ i'.delivery = ⟨rest, i.delivery.failure⟩ := by
  obtain ⟨first, lines, last, rfl, ⟨text, hfirst, hstatus⟩, hlines, hlast⟩ := hhead
  simp only [List.append_assoc, List.length_append] at hi hlimit
  have hfit : first.length ≤ headLimit := by omega
  obtain ⟨j, hj, he⟩ := readHead_append hfirst hstatus hfit hi
  have hbytes : j.delivery.bytes = lines.flatten ++ (last ++ rest) := by rw [hj]
  have hleft : (lines.flatten ++ last).length ≤ headLimit - first.length := by
    rw [List.length_append]
    omega
  obtain ⟨i', hmore, hrest⟩ := headerLines_of_forall₂ hlines hlast hbytes hleft (Nat.lt_succ_self _)
  refine ⟨i', ?_, by rw [hrest, hj]⟩
  rw [he, hmore]
  rfl

/-- What is read as a head is one, within the limit, in front of what is left. -/
theorem isHead_of_readHead {i i' : Inlet} {head : Head} (h : readHead i = .ok (head, i')) :
    ∃ bs, IsHead bs head ∧ bs.length ≤ headLimit ∧ i.delivery.bytes = bs ++ i'.delivery.bytes ∧
      i'.delivery.failure = i.delivery.failure := by
  rw [readHead, bind_eq_ok] at h
  obtain ⟨⟨line?, left, j⟩, hnext, h⟩ := h
  match line? with
  | none => cases h
  | some text =>
    obtain ⟨first, hfirst, hbytes, hlength, hleft, hfailure⟩ := isLine_of_nextLine hnext
    simp only [bind_eq_ok, mapError_eq_ok] at h
    obtain ⟨⟨status, reason⟩, hstatus, ⟨headers, j'⟩, hmore, h⟩ := h
    cases h
    obtain ⟨lines, last, hlines, hlast, hbytes', hlength', hfailure'⟩ :=
      forall₂_of_headerLines hmore
    refine ⟨_, ⟨first, lines, last, rfl, ⟨text, hfirst, hstatus⟩, hlines, hlast⟩, ?_, ?_,
      hfailure'.trans hfailure⟩
    · rw [List.length_append]
      omega
    · rw [hbytes, hbytes', List.append_assoc, List.append_assoc]

/-- Reading a head fails for the bytes that are there or as the stream fails. -/
theorem readHead_blamed {i : Inlet} {e : Error} (h : readHead i = .error e) : i.Blamed e := by
  rw [readHead, bind_eq_error] at h
  rcases h with h | ⟨⟨line?, left, j⟩, hnext, h⟩
  · exact nextLine_error h
  · match line? with
    | none =>
      cases h
      exact .inl ⟨_, rfl⟩
    | some text =>
      obtain ⟨-, -, -, -, -, hfailure⟩ := isLine_of_nextLine hnext
      simp only [bind_eq_error, mapError_eq_error] at h
      rcases h with ⟨f, -, rfl⟩ | ⟨⟨status, reason⟩, -, h | ⟨p, -, h⟩⟩
      · exact .inl ⟨f, rfl⟩
      · exact (headerLines_error h).of_failure hfailure
      · cases h

/-- Where nothing fails, what cannot be read as a head breaks the protocol. -/
theorem readHead_error {i : Inlet} {e : Error} (hi : i.delivery.failure = none)
    (h : readHead i = .error e) : ∃ f, e = HeadFault.error f := by
  rcases readHead_blamed h with hf | ⟨reason, hreason, -⟩
  · exact hf
  · rw [hi] at hreason
    cases hreason

end BoxClient.Http
