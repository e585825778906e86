import BoxClient.Http.Transaction
import BoxClient.Proofs.Outcome
/-!
What a stream delivers does not depend on the pieces in which it arrives. A `Delivery` is the flat
view of an inlet: the bytes up to the first failure, and that failure. Taking a line, gathering the
rest and reading a head act on the view alone, so two inlets with one view are told apart by nothing
that a transaction does.
-/
namespace BoxClient.Http

open Outcome

/-- The bytes that arrive before a stream fails or ends, and how it fails if it does. -/
structure Delivery where
  bytes : Bytes
  failure : Option String
  deriving DecidableEq, Repr

/-- What arrivals deliver. Nothing behind the first failure counts. -/
def Delivery.ofArrivals : List Arrival → Delivery
  | [] => ⟨[], none⟩
  | .failure reason :: _ => ⟨[], some reason⟩
  | .bytes bs :: arrivals =>
    ⟨bs ++ (ofArrivals arrivals).bytes, (ofArrivals arrivals).failure⟩

def Inlet.delivery (i : Inlet) : Delivery :=
  ⟨i.buffer ++ (Delivery.ofArrivals i.arrivals).bytes, (Delivery.ofArrivals i.arrivals).failure⟩

/-- More bytes behind do not change a line that is complete, and continue one that is not. -/
theorem cutLine_append (limit : Nat) (bs more : Bytes) :
    cutLine limit (bs ++ more) =
      if (cutLine limit bs).2.2 then ((cutLine limit bs).1, (cutLine limit bs).2.1 ++ more, true)
      else
        let later := cutLine (limit - (cutLine limit bs).1.length) more
        ((cutLine limit bs).1 ++ later.1, later.2.1, later.2.2) := by
  induction bs generalizing limit with
  | nil => cases limit <;> rfl
  | cons b r ih =>
    cases limit with
    | zero => rfl
    | succ n =>
      by_cases hb : b = 0x0a
      · simp [cutLine, hb]
      · simp only [List.cons_append, cutLine, if_neg hb, ih n]
        split
        · rfl
        · simp

/-- The next line of a delivery. Without a line feed or the limit in sight the failure decides. -/
def Delivery.line (d : Delivery) (limit : Nat) : Except String (Bytes × Delivery) :=
  let (line, rest, met) := cutLine limit d.bytes
  match d.failure with
  | none => .ok (line, ⟨rest, none⟩)
  | some reason => if met then .ok (line, ⟨rest, some reason⟩) else .error reason

theorem Delivery.line_met {d : Delivery} {limit : Nat} (h : (cutLine limit d.bytes).2.2 = true) :
    d.line limit = .ok ((cutLine limit d.bytes).1, ⟨(cutLine limit d.bytes).2.1, d.failure⟩) := by
  rw [Delivery.line]
  cases d.failure with
  | none => rfl
  | some reason => rw [← h]; simp [h]

/-- A line that goes on is what there is of it and the next line of what follows. -/
theorem Delivery.line_unmet (d : Delivery) {limit : Nat} {bs : Bytes}
    (h : (cutLine limit bs).2.2 = false) :
    Delivery.line ⟨bs ++ d.bytes, d.failure⟩ limit =
      (d.line (limit - (cutLine limit bs).1.length)).map
        fun p => ((cutLine limit bs).1 ++ p.1, p.2) := by
  have hcut := cutLine_append limit bs d.bytes
  rw [h, if_neg Bool.false_ne_true] at hcut
  simp only [Delivery.line, hcut]
  cases d.failure with
  | none => rfl
  | some reason => cases (cutLine (limit - (cutLine limit bs).1.length) d.bytes).2.2 <;> rfl

theorem Inlet.delivery_mk (buffer : Bytes) (arrivals : List Arrival) :
    Inlet.delivery ⟨buffer, arrivals⟩ = ⟨buffer ++ (Delivery.ofArrivals arrivals).bytes,
      (Delivery.ofArrivals arrivals).failure⟩ := rfl

/-- These bytes arrive in one piece. -/
def Inlet.ofBytes (bs : Bytes) : Inlet := ⟨[], [.bytes bs]⟩

@[simp] theorem delivery_ofBytes (bs : Bytes) : (Inlet.ofBytes bs).delivery = ⟨bs, none⟩ := by
  simp [Inlet.ofBytes, Inlet.delivery_mk, Delivery.ofArrivals]

theorem takeLine_delivery (limit : Nat) (buffer : Bytes) (arrivals : List Arrival) :
    (Inlet.takeLine limit buffer arrivals).map (Prod.map id Inlet.delivery) =
      (Inlet.delivery ⟨buffer, arrivals⟩).line limit := by
  -- If the buffer has no complete line, it is in front of the line of what arrives next.
  induction arrivals generalizing limit buffer with
  | nil =>
    simp [Inlet.takeLine, Inlet.delivery_mk, Delivery.ofArrivals, Delivery.line, Except.map]
  | cons a arrivals ih =>
    cases hmet : (cutLine limit buffer).2.2 with
    | true =>
      have hcut := cutLine_append limit buffer (Delivery.ofArrivals (a :: arrivals)).bytes
      rw [hmet, if_pos rfl] at hcut
      rw [Inlet.delivery_mk, Delivery.line_met (by rw [hcut])]
      simp [Inlet.takeLine, hmet, hcut, Inlet.delivery_mk, Except.map]
    | false =>
      cases a with
      | failure reason =>
        simp [Inlet.takeLine, Inlet.delivery_mk, Delivery.ofArrivals, Delivery.line, hmet,
          Except.map]
      | bytes bs =>
        have hmore := Delivery.line_unmet (Inlet.delivery ⟨bs, arrivals⟩) hmet
        rw [← ih] at hmore
        refine Eq.trans ?_ hmore.symm
        simp only [Inlet.takeLine, hmet, Bool.false_eq_true, if_false]
        cases Inlet.takeLine (limit - (cutLine limit buffer).1.length) bs arrivals <;> rfl

/-- A line taken from an inlet is the line of its view, and leaves the view behind the line. -/
theorem Inlet.line_delivery (i : Inlet) (limit : Nat) :
    (i.line limit).map (Prod.map id Inlet.delivery) = i.delivery.line limit :=
  takeLine_delivery limit i.buffer i.arrivals

/-- What remains of a delivery: its bytes, unless it fails behind them. -/
def Delivery.rest (d : Delivery) : Except String Bytes :=
  match d.failure with
  | none => .ok d.bytes
  | some reason => .error reason

theorem gather_eq (arrivals : List Arrival) :
    Inlet.gather arrivals = (Delivery.ofArrivals arrivals).rest := by
  induction arrivals with
  | nil => rfl
  | cons a arrivals ih =>
    cases a with
    | failure reason => rfl
    | bytes bs =>
      rw [Inlet.gather, ih, Delivery.rest, Delivery.rest, Delivery.ofArrivals]
      cases (Delivery.ofArrivals arrivals).failure <;> rfl

theorem Inlet.rest_eq (i : Inlet) : i.rest = i.delivery.rest := by
  rw [Inlet.rest, gather_eq, Delivery.rest, Delivery.rest, Inlet.delivery]
  cases (Delivery.ofArrivals i.arrivals).failure <;> rfl

/-- A relation between two streams, for each number of bytes that may still be read, that a line
keeps: the same comes off both of them, and what is left is related for what is left to be read. -/
def KeptByLine (R : Nat → Inlet → Inlet → Prop) : Prop :=
  ∀ budget i j, R budget i j →
    Related (fun p q => p.1 = q.1 ∧ R (budget - p.1.length) p.2 q.2) (i.line budget) (j.line budget)

section
variable {R : Nat → Inlet → Inlet → Prop} {budget : Nat} {i j : Inlet}

def SameResult (R : Nat → Inlet → Inlet → Prop) {α : Type} (p q : α × Inlet) : Prop :=
  p.1 = q.1 ∧ ∃ left, R left p.2 q.2

theorem KeptByLine.nextLine (hR : KeptByLine R) (h : R budget i j) :
    Related (fun p q => p.1 = q.1 ∧ p.2.1 = q.2.1 ∧ R p.2.1 p.2.2 q.2.2)
      (nextLine budget i) (nextLine budget j) := by
  refine ((hR budget i j h).mapError Error.io).bind ?_
  rintro ⟨bs, i'⟩ ⟨bs', j'⟩ ⟨rfl, hrest⟩
  refine (Related.refl ((readLine budget bs).mapError HeadFault.error)).bind ?_
  rintro line _ rfl
  exact ⟨rfl, rfl, hrest⟩

theorem KeptByLine.headerLines (hR : KeptByLine R) (h : R budget i j) (rounds : Nat) :
    Related (SameResult R) (headerLines rounds budget i) (headerLines rounds budget j) := by
  induction rounds generalizing budget i j with
  | zero => rfl
  | succ rounds ih =>
    refine (hR.nextLine h).bind ?_
    rintro ⟨line, left, i'⟩ ⟨_, _, j'⟩ ⟨rfl, rfl, hrest⟩
    match line with
    | none => rfl
    | some [] => exact ⟨rfl, left, hrest⟩
    | some (c :: cs) =>
      refine (Related.refl ((readHeaderLine (c :: cs)).mapError HeadFault.error)).bind ?_
      rintro header _ rfl
      refine (ih hrest).bind ?_
      rintro ⟨headers, i''⟩ ⟨_, j''⟩ ⟨rfl, hrest'⟩
      exact ⟨rfl, hrest'⟩

/-- What a line keeps, a head keeps. -/
theorem KeptByLine.readHead (hR : KeptByLine R) (h : R headLimit i j) :
    Related (SameResult R) (readHead i) (readHead j) := by
  refine (hR.nextLine h).bind ?_
  rintro ⟨line, left, i'⟩ ⟨_, _, j'⟩ ⟨rfl, rfl, hrest⟩
  match line with
  | none => rfl
  | some cs =>
    refine (Related.refl ((readStatusLine cs).mapError HeadFault.error)).bind ?_
    rintro ⟨status, reason⟩ _ rfl
    refine (hR.headerLines hrest (left + 1)).bind ?_
    rintro ⟨headers, i''⟩ ⟨_, j''⟩ ⟨rfl, hrest'⟩
    exact ⟨rfl, hrest'⟩

end

/-- The same result, and the same still to come. -/
def SameRest {α : Type} (p q : α × Inlet) : Prop := p.1 = q.1 ∧ p.2.delivery = q.2.delivery

/-- No line tells two inlets with one delivery apart. -/
theorem keptByLine_delivery : KeptByLine fun _ i j => i.delivery = j.delivery := by
  intro budget i j h
  have hi := Inlet.line_delivery i budget
  have hj := Inlet.line_delivery j budget
  rw [h, ← hj] at hi
  cases hx : i.line budget <;> cases hy : j.line budget <;> rw [hx, hy] at hi <;>
    simp only [Except.map, Except.error.injEq, Except.ok.injEq, Prod.map, Prod.mk.injEq, id_eq,
      reduceCtorEq] at hi
  · exact hi
  · exact hi

/-- Inlets with one delivery begin with the same head and deliver the same behind it. -/
theorem readHead_related {i j : Inlet} (h : i.delivery = j.delivery) :
    Related SameRest (readHead i) (readHead j) :=
  (keptByLine_delivery.readHead h).mono fun _ _ ⟨hresult, _, hrest⟩ => ⟨hresult, hrest⟩

end BoxClient.Http
