import BoxClient.Proofs.Http.Response
/-!
The limit of a head. The lines of a head together take no more bytes off a stream than the limit
has, so the loop over them ends, and nothing behind the limit is looked at: what the first bytes
make of a head they make of it whatever follows. A head that is not finished there is too large, but
for one border: a line that ends just at the limit leaves nothing to read for the next, which is
taken for the end of the stream.
-/
namespace BoxClient.Http

open Outcome

theorem cutLine_met (front : Bytes) : (cutLine front.length front).2.2 = true := by
  induction front with
  | nil => rfl
  | cons b r ih =>
    by_cases hb : b = 0x0a
    · simp [cutLine, hb]
    · simpa [cutLine, hb] using ih

/-- As many bytes as may be read contain all of a line, whatever is behind them. -/
theorem line_of_front {i : Inlet} {front : Bytes} (hi : front <+: i.delivery.bytes) :
    ∃ i', i.line front.length = .ok ((cutLine front.length front).1, i') ∧
      (cutLine front.length front).2.1 <+: i'.delivery.bytes := by
  obtain ⟨more, hmore⟩ := hi
  have hcut := cutLine_append front.length front more
  rw [cutLine_met, if_pos rfl, hmore] at hcut
  obtain ⟨i', hline, hrest⟩ := line_of_met hcut
  exact ⟨i', hline, more, by rw [hrest]⟩

/-- Both streams deliver the same bytes first, this many. -/
def SameFront (budget : Nat) (i j : Inlet) : Prop :=
  ∃ front : Bytes, front.length = budget ∧ front <+: i.delivery.bytes ∧ front <+: j.delivery.bytes

/-- Lines within the first bytes do not depend on the bytes after them. -/
theorem keptByLine_sameFront : KeptByLine SameFront := by
  rintro _ i j ⟨front, rfl, hi, hj⟩
  obtain ⟨i', hline, hi'⟩ := line_of_front hi
  obtain ⟨j', hline', hj'⟩ := line_of_front hj
  -- What the line leaves of the first bytes is what both streams go on with.
  have hlength := congrArg List.length (cutLine_whole front.length front)
  rw [List.length_append] at hlength
  have hleft : (cutLine front.length front).2.1.length =
      front.length - (cutLine front.length front).1.length := by omega
  rw [hline, hline']
  exact ⟨rfl, _, hleft, hi', hj'⟩

/-- The bytes that a line takes off a stream, if only to fail behind them. -/
def Inlet.front (i : Inlet) (budget : Nat) : Bytes := (cutLine budget i.delivery.bytes).1

/-- The loop over the header lines, with no bound on its rounds: from what may still be read and a
stream to the bytes that were taken and the outcome. To go on, a line must fit into what may be
read, so that the difference is a number. -/
inductive HeaderRun :
    (budget : Nat) → Inlet → (taken : Bytes) → Except Error (Headers × Inlet) → Prop
  | failed {budget : Nat} {i : Inlet} {e : Error} :
      nextLine budget i = .error e →
      HeaderRun budget i (i.front budget) (.error e)
  | ended {budget left : Nat} {i j : Inlet} :
      nextLine budget i = .ok (none, left, j) →
      HeaderRun budget i (i.front budget) (.error (HeadFault.error .cutBetweenLines))
  | last {budget left : Nat} {i j : Inlet} :
      nextLine budget i = .ok (some [], left, j) →
      HeaderRun budget i (i.front budget) (.ok ([], j))
  | refused {budget left : Nat} {i j : Inlet} {c : Char} {cs : List Char} {f : HeadFault} :
      nextLine budget i = .ok (some (c :: cs), left, j) → readHeaderLine (c :: cs) = .error f →
      HeaderRun budget i (i.front budget) (.error f.error)
  | more {budget left : Nat} {i j : Inlet} {c : Char} {cs : List Char} {header : String × String}
      {taken : Bytes} {result : Except Error (Headers × Inlet)} :
      nextLine budget i = .ok (some (c :: cs), left, j) → readHeaderLine (c :: cs) = .ok header →
      (i.front budget).length + left = budget → HeaderRun left j taken result →
      HeaderRun budget i (i.front budget ++ taken) (result.map fun p => (header :: p.1, p.2))

/-- Reading a head: the status line, and then the loop with what the limit leaves for it. -/
inductive HeadRun : Inlet → (taken : Bytes) → Except Error (Head × Inlet) → Prop
  | failed {i : Inlet} {e : Error} :
      nextLine headLimit i = .error e →
      HeadRun i (i.front headLimit) (.error e)
  | ended {left : Nat} {i j : Inlet} :
      nextLine headLimit i = .ok (none, left, j) →
      HeadRun i (i.front headLimit) (.error (HeadFault.error .empty))
  | refused {left : Nat} {i j : Inlet} {text : List Char} {f : HeadFault} :
      nextLine headLimit i = .ok (some text, left, j) → readStatusLine text = .error f →
      HeadRun i (i.front headLimit) (.error f.error)
  | more {left : Nat} {i j : Inlet} {text : List Char} {status : Nat} {reason : String}
      {taken : Bytes} {result : Except Error (Headers × Inlet)} :
      nextLine headLimit i = .ok (some text, left, j) →
      readStatusLine text = .ok (status, reason) →
      (i.front headLimit).length + left = headLimit → HeaderRun left j taken result →
      HeadRun i (i.front headLimit ++ taken) (result.map fun p => (⟨status, reason, p.1⟩, p.2))

section
variable {i j : Inlet} {budget left : Nat} {taken : Bytes}

/-- A line that is read is off the stream and off what may be read. -/
theorem nextLine_front {line : Option (List Char)} (h : nextLine budget i = .ok (line, left, j)) :
    i.delivery.bytes = i.front budget ++ j.delivery.bytes ∧
      (i.front budget).length + left = budget := by
  simp only [nextLine, bind_eq_ok, mapError_eq_ok, pure_eq, Except.ok.injEq, Prod.mk.injEq] at h
  obtain ⟨⟨bs, j⟩, htake, _, -, -, rfl, rfl⟩ := h
  obtain ⟨hbytes, -, hcut⟩ := line_eq_ok htake
  have hlength : (i.front budget).length ≤ budget := cutLine_length_le budget _
  obtain rfl : bs = i.front budget := hcut
  exact ⟨hbytes, Nat.add_sub_of_le hlength⟩

/-- The bytes are the first of a stream and no more than may be read; after success the others are
left. -/
structure TakenOff {α : Type} (budget : Nat) (i : Inlet) (taken : Bytes)
    (result : Except Error (α × Inlet)) : Prop where
  length_le : taken.length ≤ budget
  first : taken <+: i.delivery.bytes
  left : ∀ p, result = .ok p → i.delivery.bytes = taken ++ p.2.delivery.bytes

theorem TakenOff.front_error {α : Type} (i : Inlet) (budget : Nat) (e : Error) :
    TakenOff budget i (i.front budget) (.error e : Except Error (α × Inlet)) :=
  ⟨cutLine_length_le budget _, ⟨_, cutLine_whole budget _⟩, nofun⟩

/-- What is taken behind a line follows on the line. -/
theorem TakenOff.more {α β : Type} {line : Option (List Char)} {result : Except Error (α × Inlet)}
    (h : TakenOff left j taken result) (hnext : nextLine budget i = .ok (line, left, j))
    (f : α → β) :
    TakenOff budget i (i.front budget ++ taken) (result.map fun p => (f p.1, p.2)) := by
  obtain ⟨hbytes, hbudget⟩ := nextLine_front hnext
  obtain ⟨hlength, hfirst, hleft⟩ := h
  refine ⟨by rw [List.length_append]; omega, ?_, fun p hp => ?_⟩
  · rw [hbytes, List.prefix_append_right_inj]
    exact hfirst
  · cases result with
    | error e => cases hp
    | ok q =>
      cases hp
      rw [hbytes, hleft q rfl, List.append_assoc]

/-- A line takes a byte at least. -/
theorem nextLine_lt {text : List Char} (h : nextLine budget i = .ok (some text, left, j)) :
    left < budget := by
  obtain ⟨line, hline, -, hlength, rfl, -⟩ := isLine_of_nextLine h
  have hpos := length_pos_of_isLine hline
  omega

namespace HeaderRun

variable {result : Except Error (Headers × Inlet)}

/-- The loop ends: each line that it goes on behind leaves less to be read. -/
theorem exists_run (budget : Nat) (i : Inlet) :
    ∃ taken result, HeaderRun budget i taken result := by
  induction budget using Nat.strongRecOn generalizing i with
  | ind budget ih =>
    match hnext : nextLine budget i with
    | .error e => exact ⟨_, _, .failed hnext⟩
    | .ok (none, left, j) => exact ⟨_, _, .ended hnext⟩
    | .ok (some [], left, j) => exact ⟨_, _, .last hnext⟩
    | .ok (some (c :: cs), left, j) =>
      match hheader : readHeaderLine (c :: cs) with
      | .error f => exact ⟨_, _, .refused hnext hheader⟩
      | .ok header =>
        obtain ⟨taken, result, hrun⟩ := ih left (nextLine_lt hnext) j
        exact ⟨_, _, .more hnext hheader (nextLine_front hnext).2 hrun⟩

/-- More rounds than may be read bytes are enough for the loop. -/
theorem headerLines_eq (h : HeaderRun budget i taken result) {rounds : Nat}
    (hrounds : budget < rounds) : headerLines rounds budget i = result := by
  induction h generalizing rounds with
  | failed hnext | ended hnext | last hnext =>
    cases rounds with
    | zero => omega
    | succ rounds => simp [headerLines, hnext]
  | refused hnext hheader =>
    cases rounds with
    | zero => omega
    | succ rounds => simp [headerLines, hnext, hheader]
  | @more budget left i j c cs header taken result hnext hheader _ _ ih =>
    cases rounds with
    | zero => omega
    | succ rounds =>
      have hlt := nextLine_lt hnext
      simp only [headerLines, hnext, ok_bind, hheader, mapError_ok, ih (by omega : left < rounds)]
      cases result <;> rfl

/-- The lines together are from the front of the stream, and no more than may be read. -/
theorem takenOff (h : HeaderRun budget i taken result) : TakenOff budget i taken result := by
  induction h with
  | failed | ended | refused => exact .front_error _ _ _
  | last hnext =>
    obtain ⟨hbytes, hbudget⟩ := nextLine_front hnext
    refine ⟨by omega, ⟨_, hbytes.symm⟩, fun p hp => ?_⟩
    cases hp
    exact hbytes
  | more hnext _ _ _ ih => exact ih.more hnext _

end HeaderRun

namespace HeadRun

variable {result : Except Error (Head × Inlet)}

/-- Every stream has a run: a line takes a byte at least, so the loop ends. -/
theorem exists_run (i : Inlet) : ∃ taken result, HeadRun i taken result := by
  match hnext : nextLine headLimit i with
  | .error e => exact ⟨_, _, .failed hnext⟩
  | .ok (none, left, j) => exact ⟨_, _, .ended hnext⟩
  | .ok (some text, left, j) =>
    match hstatus : readStatusLine text with
    | .error f => exact ⟨_, _, .refused hnext hstatus⟩
    | .ok (status, reason) =>
      obtain ⟨taken, result, hrun⟩ := HeaderRun.exists_run left j
      exact ⟨_, _, .more hnext hstatus (nextLine_front hnext).2 hrun⟩

/-- The bound on the rounds is never met. -/
theorem readHead_eq (h : HeadRun i taken result) : readHead i = result := by
  cases h with
  | failed hnext | ended hnext => simp [readHead, hnext]
  | refused hnext hstatus => simp [readHead, hnext, hstatus]
  | @more left _ j text status reason _ result hnext hstatus _ hrun =>
    simp only [readHead, hnext, ok_bind, hstatus, mapError_ok,
      hrun.headerLines_eq (Nat.lt_succ_self left)]
    cases result <;> rfl

/-- No run goes beyond the limit. -/
theorem takenOff (h : HeadRun i taken result) : TakenOff headLimit i taken result := by
  cases h with
  | failed | ended | refused => exact .front_error _ _ _
  | more hnext _ _ hrun => exact hrun.takenOff.more hnext _

end HeadRun

end

/-- The beginning of a head without its end: complete lines, and what there is of the next, if there
is anything of it. -/
inductive IsUnfinished : (front cut : Bytes) → Prop
  | inStatus {cut : Bytes} : 0x0a ∉ cut → IsUnfinished cut cut
  | inHeaders {first cut : Bytes} {text : List Char} {status : Nat × String} {lines : List Bytes}
      {headers : Headers} :
      IsLine first text → readStatusLine text = .ok status →
      List.Forall₂ IsHeaderLine lines headers → 0x0a ∉ cut →
      IsUnfinished (first ++ (lines.flatten ++ cut)) cut

section
variable {i : Inlet} {front cut : Bytes}

theorem cutLine_cut (hcut : 0x0a ∉ cut) : (cutLine cut.length cut).1 = cut := by
  induction cut with
  | nil => rfl
  | cons b r ih =>
    rw [List.mem_cons, not_or] at hcut
    simp only [List.length_cons, cutLine, if_neg (Ne.symm hcut.1), ih hcut.2]

/-- The last bytes that may be read are too much, without a line feed; but no byte at all is no
line. -/
theorem nextLine_cut (hcut : 0x0a ∉ cut) (hi : cut <+: i.delivery.bytes) :
    (cut = [] ∧ ∃ left j, nextLine cut.length i = .ok (none, left, j)) ∨
      cut ≠ [] ∧ nextLine cut.length i = .error (HeadFault.error .tooLarge) := by
  obtain ⟨j, hline, -⟩ := line_of_front hi
  rw [cutLine_cut hcut] at hline
  by_cases hempty : cut = []
  · subst hempty
    exact .inl ⟨rfl, 0, j, by rw [nextLine, hline]; rfl⟩
  · have hlast : cut.getLast? ≠ some 0x0a := fun h => hcut (List.mem_of_getLast? h)
    have hread : readLine cut.length cut = .error .tooLarge := by
      rw [readLine, if_neg hempty, if_pos hlast, if_pos rfl]
    exact .inr ⟨hempty, by simp [nextLine, hline, hread]⟩

/-- A head without its end that has as many short headers as one likes. -/
def repeatedHead (n : Nat) (cut : Bytes) : Bytes :=
  Utf8.encode "HTTP/1.0 200 OK\n" ++ ((List.replicate n (Utf8.encode "A:\n")).flatten ++ cut)

theorem repeatedHead_length (n : Nat) (cut : Bytes) :
    (repeatedHead n cut).length = 16 + (n * 3 + cut.length) := by
  rw [repeatedHead, List.length_append, List.length_append, List.length_flatten,
    List.map_replicate, List.sum_replicate_nat]
  rfl

theorem isUnfinished_repeatedHead (n : Nat) (hcut : 0x0a ∉ cut) :
    IsUnfinished (repeatedHead n cut) cut := by
  have hstatus : IsLine (Utf8.encode "HTTP/1.0 200 OK\n") "HTTP/1.0 200 OK".toList :=
    ⟨Utf8.encode "HTTP/1.0 200 OK", by decide, by decide, by decide⟩
  have hline : IsHeaderLine (Utf8.encode "A:\n") ("A", "") :=
    ⟨"A:".toList, ⟨Utf8.encode "A:", by decide, by decide, by decide⟩,
      ['A'], [], by decide, by decide, ⟨'A', by decide, by decide⟩, by decide⟩
  have hlines : List.Forall₂ IsHeaderLine (List.replicate n (Utf8.encode "A:\n"))
      (List.replicate n ("A", "")) := by
    induction n with
    | zero => exact .nil
    | succ n ih => exact .cons hline ih
  have hread : readStatusLine "HTTP/1.0 200 OK".toList = .ok (200, "OK") := by decide
  exact .inHeaders hstatus hread hlines hcut

/-- A head that has not ended where the limit is. -/
theorem readHead_unfinished (hfront : IsUnfinished front cut) (hlength : front.length = headLimit)
    (hi : front <+: i.delivery.bytes) :
    readHead i = .error (HeadFault.error (if cut = [] then .cutBetweenLines else .tooLarge)) := by
  cases hfront with
  | inStatus hcut =>
    rcases nextLine_cut hcut hi with ⟨rfl, -⟩ | ⟨hempty, hnext⟩
    · cases hlength
    · rw [hlength] at hnext
      rw [readHead, hnext, if_neg hempty]
      rfl
  | @inHeaders first cut text status lines headers hfirst hstatus hlines hcut =>
    -- The complete lines leave just the length of what is cut off to be read.
    obtain ⟨more, hmore⟩ := hi
    simp only [List.append_assoc, List.length_append] at hmore hlength
    obtain ⟨j, hj, he⟩ := readHead_append hfirst hstatus (by omega) hmore.symm
    have hfit : lines.flatten.length ≤ headLimit - first.length := by omega
    obtain ⟨rounds, k, hrounds, hk, he'⟩ :=
      headerLines_append hlines (by rw [hj]) hfit (Nat.lt_succ_self _)
    have hleft : headLimit - first.length - lines.flatten.length = cut.length := by omega
    rw [hleft] at hrounds he'
    have hcut' : cut <+: k.delivery.bytes := ⟨more, by rw [hk]⟩
    rw [he, he']
    cases rounds with
    | zero => omega
    | succ rounds =>
      rcases nextLine_cut hcut hcut' with ⟨rfl, left, l, hnext⟩ | ⟨hempty, hnext⟩
      · rw [headerLines, hnext]
        rfl
      · rw [headerLines, hnext, if_neg hempty]
        rfl

end

namespace Transaction

/-- A head that has not ended within the limit is reported as too large if the limit cuts a line
off. A line that ends at the limit, with nothing of the next one within it, is taken for the last
one of the stream, whatever follows. -/
theorem read_unfinished {t : Transaction} {front cut : Bytes} (hopen : t.isOpen = true)
    (hfront : IsUnfinished front cut) (hlength : front.length = headLimit)
    (hbytes : front <+: t.connection.inlet.delivery.bytes) :
    (cut ≠ [] → t.read = (.error (.protocol "Response head exceeds 65536 bytes"), t.release)) ∧
    (cut = [] → t.read = (.error (.protocol "Unexpected end of response headers"), t.release)) := by
  have hread := readHead_unfinished hfront hlength hbytes
  rw [read_open hopen, receive_error hread]
  constructor
  · intro hcut
    rw [if_neg hcut]
    rfl
  · intro hcut
    rw [if_pos hcut]
    rfl

/-- The limit cuts a header off. -/
theorem read_unfinished_inLine :
    let cut := Utf8.encode "A: "
    let front := repeatedHead 21839 cut
    let t := ofArrivals (some Json.decode) [.bytes front, .bytes (Utf8.encode "b\n\n[1]")]
    t.isOpen = true ∧ IsUnfinished front cut ∧ front.length = headLimit ∧
      front <+: t.connection.inlet.delivery.bytes ∧ cut ≠ [] ∧
      t.read = (.error (.protocol "Response head exceeds 65536 bytes"), t.release) := by
  intro cut front t
  have hfront : IsUnfinished front cut := isUnfinished_repeatedHead 21839 (by decide)
  have hlength : front.length = headLimit := by
    rw [repeatedHead_length]
    decide
  have hbytes : front <+: t.connection.inlet.delivery.bytes := by
    simp [t, ofArrivals, Inlet.delivery, Delivery.ofArrivals]
  exact ⟨rfl, hfront, hlength, hbytes, by decide,
    (read_unfinished rfl hfront hlength hbytes).1 (by decide)⟩

/-- A header ends at the limit, and there is more behind it. -/
theorem read_unfinished_betweenLines :
    let front := repeatedHead 21840 []
    let t := ofArrivals (some Json.decode) [.bytes front, .bytes (Utf8.encode "\n[1]")]
    t.isOpen = true ∧ IsUnfinished front [] ∧ front.length = headLimit ∧
      t.connection.inlet.delivery.bytes = front ++ Utf8.encode "\n[1]" ∧
      t.read.1 = .error (.protocol "Unexpected end of response headers") ∧
      t.read.1 ≠ .error (.protocol "Response head exceeds 65536 bytes") := by
  intro front t
  have hfront : IsUnfinished front [] := isUnfinished_repeatedHead 21840 (by decide)
  have hlength : front.length = headLimit := repeatedHead_length _ _
  have hbytes : t.connection.inlet.delivery.bytes = front ++ Utf8.encode "\n[1]" := by
    simp [t, ofArrivals, Inlet.delivery, Delivery.ofArrivals]
  have hread := readHead_unfinished hfront hlength ⟨_, hbytes.symm⟩
  rw [if_pos rfl] at hread
  have hresult : t.read.1 = .error (HeadFault.error .cutBetweenLines) := by
    rw [read_open rfl, receive_error hread]
  refine ⟨rfl, hfront, hlength, hbytes, hresult, ?_⟩
  rw [hresult]
  decide

/-- Reading a head is bounded and does not look past the limit. A line has no more bytes than may be
read, so that what is left to be read is a number. The loop over the lines ends, having taken no
more bytes than the limit off the stream, and its outcome is what is read as a head. And of two
streams that deliver the same bytes up to the limit the same is read, whatever follows, and if it is
a head, it ends at the same place. -/
theorem read_within_limit (t : Transaction) :
    (∀ (i i' : Inlet) budget bs, i.line budget = .ok (bs, i') → bs.length ≤ budget) ∧
    (∃ taken result, HeadRun t.connection.inlet taken result) ∧
    (∀ taken result, HeadRun t.connection.inlet taken result →
      readHead t.connection.inlet = result ∧
      TakenOff headLimit t.connection.inlet taken result) ∧
    ∀ (u : Transaction) (front : Bytes), t.isOpen = true → u.isOpen = true →
      t.decoder = none → u.decoder = none → front.length = headLimit →
      front <+: t.connection.inlet.delivery.bytes → front <+: u.connection.inlet.delivery.bytes →
        t.read.1 = u.read.1 ∧
        ∀ response, t.read.1 = .ok response → ∃ bs, IsHead bs response.head ∧
          t.connection.inlet.delivery.bytes = bs ++ t.read.2.connection.inlet.delivery.bytes ∧
          u.connection.inlet.delivery.bytes = bs ++ u.read.2.connection.inlet.delivery.bytes := by
  refine ⟨fun i i' budget bs h => ?_, HeadRun.exists_run _,
    fun taken result h => ⟨h.readHead_eq, h.takenOff⟩, ?_⟩
  · obtain ⟨-, -, rfl⟩ := line_eq_ok h
    exact cutLine_length_le budget _
  · intro u front ht hu hraw hraw' hlength hfront hfront'
    have hheads := keptByLine_sameFront.readHead ⟨front, hlength, hfront, hfront'⟩
    rw [read_open ht, read_open hu]
    rcases hheads.error_or_ok with ⟨e, hx, hy⟩ | ⟨⟨head, i⟩, -, hx, -, -⟩
    · rw [receive_error hx, receive_error hy]
      exact ⟨rfl, fun _ h => nomatch h⟩
    · -- The head ends within the limit, so it is in front of both streams.
      obtain ⟨bs, hhead, hlimit, hbytes, -⟩ := isHead_of_readHead hx
      have hbs : bs <+: front :=
        List.prefix_of_prefix_length_le ⟨_, hbytes.symm⟩ hfront (hlimit.trans_eq hlength.symm)
      obtain ⟨rest, hrest⟩ := hbs.trans hfront'
      obtain ⟨j, hy, hj⟩ := readHead_of_isHead hhead hlimit hrest.symm
      rw [receive_stream hraw hx, receive_stream hraw' hy]
      refine ⟨rfl, fun response h => ?_⟩
      cases h
      have hleft : (u.handOn j).connection.inlet.delivery.bytes = rest := by
        rw [handOn, hj]
      exact ⟨bs, hhead, hbytes, by rw [hleft, hrest]⟩

/-- A head in front of many bytes, behind which one stream fails and another goes on. -/
theorem read_within_limit_reset :
    let head := Utf8.encode "HTTP/1.0 200 OK\n\n"
    let body : Bytes := List.replicate 65519 0x61
    let t := ofArrivals none [.bytes head, .bytes body, .failure "reset"]
    let u := ofArrivals none [.bytes (head ++ body), .bytes (Utf8.encode "more")]
    (∃ taken result, HeadRun t.connection.inlet taken result ∧ taken.length ≤ headLimit) ∧
      t.read.1 = .ok ⟨⟨200, "OK", []⟩, .stream⟩ ∧ u.read.1 = .ok ⟨⟨200, "OK", []⟩, .stream⟩ ∧
      ∃ bs, IsHead bs ⟨200, "OK", []⟩ ∧
        head ++ body = bs ++ t.read.2.connection.inlet.delivery.bytes ∧
        head ++ (body ++ Utf8.encode "more") =
          bs ++ u.read.2.connection.inlet.delivery.bytes := by
  intro head body t u
  have hbytes : t.connection.inlet.delivery.bytes = head ++ body := by
    simp [t, ofArrivals, Inlet.delivery, Delivery.ofArrivals]
  have hbytes' : u.connection.inlet.delivery.bytes = head ++ (body ++ Utf8.encode "more") := by
    simp [u, ofArrivals, Inlet.delivery, Delivery.ofArrivals]
  have hlength : (head ++ body).length = headLimit := by
    rw [List.length_append, List.length_replicate]
    decide
  have hok : t.read.1 = .ok ⟨⟨200, "OK", []⟩, .stream⟩ := by decide +kernel
  obtain ⟨-, ⟨taken, result, hrun⟩, hbounded, hsame⟩ := read_within_limit t
  obtain ⟨hread, hrest⟩ := hsame u (head ++ body) rfl rfl rfl rfl hlength
    ⟨[], by rw [hbytes, List.append_nil]⟩ ⟨Utf8.encode "more", by rw [hbytes', List.append_assoc]⟩
  obtain ⟨bs, hhead, hbs, hbs'⟩ := hrest _ hok
  exact ⟨⟨taken, result, hrun, (hbounded taken result hrun).2.length_le⟩, hok,
    hread.symm.trans hok, bs, hhead, hbytes.symm.trans hbs, hbytes'.symm.trans hbs'⟩

end Transaction
end BoxClient.Http
