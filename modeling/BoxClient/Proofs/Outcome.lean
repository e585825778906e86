import Mathlib.Data.List.Forall2
/-!
Outcomes of operations that may fail: how a sequence of them succeeds, how it fails, and when two
such sequences run side by side.
-/
namespace BoxClient.Outcome

variable {ε ε' α β γ δ : Type}

@[simp] theorem ok_bind (a : α) (f : α → Except ε β) : (Except.ok a >>= f) = f a := rfl

@[simp] theorem error_bind (e : ε) (f : α → Except ε β) : (Except.error e >>= f) = .error e := rfl

@[simp] theorem pure_eq (a : α) : (pure a : Except ε α) = .ok a := rfl

@[simp] theorem throw_eq (e : ε) : (throw e : Except ε α) = .error e := rfl

@[simp] theorem map_ok (f : α → β) (a : α) : (Except.ok a : Except ε α).map f = .ok (f a) := rfl

@[simp] theorem map_error (f : α → β) (e : ε) : (Except.error e : Except ε α).map f = .error e :=
  rfl

@[simp] theorem mapError_ok (f : ε → ε') (a : α) : (Except.ok a).mapError f = .ok a := rfl

@[simp] theorem mapError_error (f : ε → ε') (e : ε) :
    (Except.error e : Except ε α).mapError f = .error (f e) := rfl

@[simp] theorem bind_eq_ok {x : Except ε α} {f : α → Except ε β} {b : β} :
    (x >>= f) = .ok b ↔ ∃ a, x = .ok a ∧ f a = .ok b := by
  cases x <;> simp

@[simp] theorem bind_eq_error {x : Except ε α} {f : α → Except ε β} {e : ε} :
    (x >>= f) = .error e ↔ x = .error e ∨ ∃ a, x = .ok a ∧ f a = .error e := by
  cases x <;> simp

/-- A check in front of an operation must let it pass. -/
@[simp] theorem ite_error_eq_ok {p : Prop} [Decidable p] {e : ε} {x : Except ε α} {a : α} :
    (if p then .error e else x) = .ok a ↔ ¬ p ∧ x = .ok a := by
  by_cases h : p <;> simp [h]

@[simp] theorem map_eq_ok {x : Except ε α} {f : α → β} {b : β} :
    x.map f = .ok b ↔ ∃ a, x = .ok a ∧ f a = b := by
  cases x <;> simp

@[simp] theorem map_eq_error {x : Except ε α} {f : α → β} {e : ε} :
    x.map f = .error e ↔ x = .error e := by
  cases x <;> simp

@[simp] theorem mapError_eq_ok {x : Except ε α} {f : ε → ε'} {a : α} :
    x.mapError f = .ok a ↔ x = .ok a := by
  cases x <;> simp

@[simp] theorem mapError_eq_error {x : Except ε α} {f : ε → ε'} {e' : ε'} :
    x.mapError f = .error e' ↔ ∃ e, x = .error e ∧ f e = e' := by
  cases x <;> simp

/-- A list of operations succeeds if each of them does. -/
theorem mapM_eq_ok_iff {f : α → Except ε β} {as : List α} {bs : List β} :
    as.mapM f = .ok bs ↔ List.Forall₂ (fun a b => f a = .ok b) as bs := by
  induction as generalizing bs with
  | nil =>
    rw [List.mapM_nil, pure_eq, List.forall₂_nil_left_iff, Except.ok.injEq, eq_comm]
  | cons a as ih =>
    rw [List.mapM_cons, bind_eq_ok, List.forall₂_cons_left_iff]
    constructor
    · intro h
      obtain ⟨b, hb, h⟩ := h
      obtain ⟨bs', hbs', h⟩ := bind_eq_ok.mp h
      cases h
      exact ⟨b, bs', hb, ih.mp hbs', rfl⟩
    · intro h
      obtain ⟨b, bs', hb, hbs', rfl⟩ := h
      exact ⟨b, hb, bind_eq_ok.mpr ⟨bs', ih.mpr hbs', rfl⟩⟩

theorem forall₂_congr_of_mem {R S : α → β → Prop} {as : List α} {bs : List β}
    (h : ∀ a ∈ as, ∀ b, R a b ↔ S a b) : List.Forall₂ R as bs ↔ List.Forall₂ S as bs := by
  induction as generalizing bs with
  | nil => simp only [List.forall₂_nil_left_iff]
  | cons a as ih =>
    rw [List.forall_mem_cons] at h
    simp only [List.forall₂_cons_left_iff, h.1, ih h.2]

/-- Outcomes that succeed in the same cases and ways fail together or are the same. -/
theorem cases_of_ok_iff {x y : Except ε α} (h : ∀ a, x = .ok a ↔ y = .ok a) :
    (∃ e e', x = .error e ∧ y = .error e') ∨ ∃ a, x = .ok a ∧ y = .ok a := by
  cases x with
  | ok a => exact .inr ⟨a, rfl, (h a).mp rfl⟩
  | error e =>
    cases y with
    | ok a => cases (h a).mpr rfl
    | error e' => exact .inl ⟨e, e', rfl, rfl⟩

/-- What each operation of a sequence keeps, the sequence keeps. -/
theorem foldlM_keeps {f : β → α → Except ε β} {as : List α} {b b' : β} (I : β → Prop)
    (hkeeps : ∀ a ∈ as, ∀ b b', I b → f b a = .ok b' → I b') (hb : I b)
    (h : as.foldlM f b = .ok b') : I b' := by
  induction as generalizing b with
  | nil =>
    cases h
    exact hb
  | cons a as ih =>
    rw [List.foldlM_cons, bind_eq_ok] at h
    obtain ⟨b₁, hone, h⟩ := h
    rw [List.forall_mem_cons] at hkeeps
    exact ih hkeeps.2 (hkeeps.1 b b₁ hb hone) h

/-- The outcome is this failure, and a success if there is none. -/
def FailsWith (x : Except ε α) (failure : Option ε) : Prop := ∀ e, x = .error e ↔ failure = some e

/-- A sequence fails as the first of its operations that fails. -/
theorem FailsWith.bind {x : Except ε α} {f : α → Except ε β} {failure failure' : Option ε}
    (hx : FailsWith x failure) (hf : ∀ a, FailsWith (f a) failure') :
    FailsWith (x >>= f) (failure.or failure') := by
  intro e
  cases x with
  | error e' =>
    have hfailure : failure = some e' := (hx e').mp rfl
    rw [hfailure, error_bind, Option.some_or, Except.error.injEq, Option.some.injEq]
  | ok a =>
    have hnone : failure = none := by
      rw [Option.eq_none_iff_forall_ne_some]
      exact fun e he => nomatch (hx e).mpr he
    rw [hnone, ok_bind, Option.none_or]
    exact hf a e

/-- A list of operations fails at its first item that is at fault. -/
theorem failsWith_foldlM {f : β → α → Except ε β} {fault? : α → Option ε}
    (hf : ∀ b a, FailsWith (f b a) (fault? a)) (as : List α) (b : β) :
    FailsWith (as.foldlM f b) (as.filterMap fault?).head? := by
  induction as generalizing b with
  | nil => exact fun e => iff_of_false nofun nofun
  | cons a as ih =>
    have hhead : ((a :: as).filterMap fault?).head? =
        (fault? a).or (as.filterMap fault?).head? := by
      rw [List.filterMap_cons]
      cases fault? a <;> rfl
    rw [List.foldlM_cons, hhead]
    exact (hf b a).bind ih

/-- Two outcomes are the same failure, or successes that a relation ties together. -/
def Related (R : α → β → Prop) : Except ε α → Except ε β → Prop
  | .error e, .error e' => e = e'
  | .ok a, .ok b => R a b
  | _, _ => False

theorem Related.error_or_ok {R : α → β → Prop} {x : Except ε α} {y : Except ε β}
    (h : Related R x y) :
    (∃ e, x = .error e ∧ y = .error e) ∨ ∃ a b, x = .ok a ∧ y = .ok b ∧ R a b := by
  cases x with
  | error e =>
    cases y with
    | error e' =>
      obtain rfl : e = e' := h
      exact .inl ⟨e, rfl, rfl⟩
    | ok b => exact h.elim
  | ok a =>
    cases y with
    | error e' => exact h.elim
    | ok b => exact .inr ⟨a, b, rfl, rfl, h⟩

/-- Related operations with related continuations are related as sequences. -/
theorem Related.bind {R : α → β → Prop} {S : γ → δ → Prop} {x : Except ε α} {y : Except ε β}
    {f : α → Except ε γ} {g : β → Except ε δ} (h : Related R x y)
    (hfg : ∀ a b, R a b → Related S (f a) (g b)) : Related S (x >>= f) (y >>= g) := by
  cases x <;> cases y
  · exact h
  · exact h.elim
  · exact h.elim
  · exact hfg _ _ h

theorem Related.mapError {R : α → β → Prop} {x : Except ε α} {y : Except ε β} (f : ε → ε')
    (h : Related R x y) : Related R (x.mapError f) (y.mapError f) := by
  cases x <;> cases y
  · exact congrArg f h
  · exact h
  · exact h
  · exact h

theorem Related.mono {R S : α → β → Prop} {x : Except ε α} {y : Except ε β} (h : Related R x y)
    (hRS : ∀ a b, R a b → S a b) : Related S x y := by
  cases x <;> cases y
  · exact h
  · exact h
  · exact h
  · exact hRS _ _ h

theorem Related.refl (x : Except ε α) : Related (· = ·) x x := by
  cases x <;> rfl

end BoxClient.Outcome
