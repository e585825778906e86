import BoxClient.Proofs.Http.HeadGrammar
import BoxClient.Proofs.Http.Transaction
import BoxClient.Proofs.Report
/-!
Who is blamed for a failure of a call. Reading a reply fails for the connection or for the form of
the reply alone, so neither the arguments nor the server are blamed for it; looking for a report in
the reply is never blamed on the arguments.
-/
namespace BoxClient

open Http Outcome

variable {α β ε : Type}

/-- The outcome is not a refusal of arguments. -/
def Unrefused (x : Except Error α) : Prop := ∀ reason, x ≠ .error (.invalidArgument reason)

/-- Every failure of the outcome is of this kind. -/
def FailsAs (kind : Error → Prop) (x : Except Error α) : Prop := ∀ e, x = .error e → kind e

section
variable {kind : Error → Prop}

@[simp] theorem failsAs_ok (a : α) : FailsAs kind (.ok a) := fun _ => nofun

theorem FailsAs.bind {x : Except Error α} {f : α → Except Error β} (hx : FailsAs kind x)
    (hf : ∀ a, FailsAs kind (f a)) : FailsAs kind (x >>= f) := by
  intro e h
  rcases bind_eq_error.mp h with h | ⟨a, -, h⟩
  · exact hx e h
  · exact hf a e h

theorem failsAs_mapError {f : ε → Error} (hf : ∀ e, kind (f e)) (x : Except ε α) :
    FailsAs kind (x.mapError f) := by
  intro e h
  obtain ⟨e', -, rfl⟩ := mapError_eq_error.mp h
  exact hf e'

end

theorem unrefused_iff {x : Except Error α} :
    Unrefused x ↔ FailsAs (fun e => ∀ reason, e ≠ .invalidArgument reason) x := by
  constructor
  · rintro h e hx reason rfl
    exact h reason hx
  · intro h reason hx
    exact h _ hx reason rfl

@[simp] theorem unrefused_ok (a : α) : Unrefused (.ok a) := unrefused_iff.mpr (failsAs_ok a)

theorem Unrefused.bind {x : Except Error α} {f : α → Except Error β} (hx : Unrefused x)
    (hf : ∀ a, Unrefused (f a)) : Unrefused (x >>= f) := by
  rw [unrefused_iff] at hx ⊢
  exact hx.bind fun a => unrefused_iff.mp (hf a)

/-- A failure that is reported as anything else is not blamed on the arguments. -/
theorem unrefused_mapError {f : ε → Error} (hf : ∀ e reason, f e ≠ .invalidArgument reason)
    (x : Except ε α) : Unrefused (x.mapError f) :=
  unrefused_iff.mpr (failsAs_mapError hf x)

/-- How reading fails: the connection does, or the head or the body is not one. -/
def Error.IsOfReading : Error → Prop
  | io _ | protocol _ | serialization _ => True
  | _ => False

theorem Error.IsOfReading.not_server {e : Error} (h : e.IsOfReading) : e.isServerError = false := by
  cases e with
  | server reason => exact h.elim
  | versionConflict id expected => exact h.elim
  | _ => rfl

theorem FailsAs.unrefused {x : Except Error α} (h : FailsAs Error.IsOfReading x) :
    Unrefused x :=
  fun _ hx => h _ hx

/-- What keeps a head from being read is the connection or the bytes. -/
theorem failsAs_readHead (i : Inlet) : FailsAs Error.IsOfReading (readHead i) := by
  intro e h
  rcases readHead_blamed h with ⟨f, rfl⟩ | ⟨reason, -, rfl⟩
  · trivial
  · trivial

theorem failsAs_decodeRest (i : Inlet) :
    FailsAs Error.IsOfReading (Transaction.decodeRest Json.decode i) :=
  (failsAs_mapError (fun _ => trivial) _).bind fun _ => failsAs_mapError (fun _ => trivial) _

/-- No reply of a server is taken for a mistake in the arguments. -/
theorem unrefused_check (v : Json.Value) (submitted : List Box) :
    Unrefused (Report.check v submitted) := by
  intro reason h
  rcases Report.check_cases v submitted with ⟨-, -, he⟩ | ⟨-, -, report, -, he⟩ | ⟨-, -, m, he⟩
  · rw [he] at h
    cases h
  · rw [he] at h
    cases h
  · rw [he] at h
    cases h

end BoxClient
