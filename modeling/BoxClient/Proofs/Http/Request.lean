import BoxClient.Http.Request
import BoxClient.Proofs.Outcome
/-!
Which requests are accepted, and the bytes of those that are. The tokens and the values of a head
must not break a line, the two tokens of the request line must not hold a space, and only values
may be empty.
-/
namespace BoxClient.Http

open Outcome

def OneLine (s : String) : Prop := ∀ c ∈ s.toList, isLineBreak c = false

instance (s : String) : Decidable (OneLine s) :=
  decidable_of_iff (s.toList.all (fun c => !isLineBreak c) = true) (by simp [OneLine])

theorem any_isLineBreak (s : String) : s.toList.any isLineBreak = true ↔ ¬ OneLine s := by
  simp [OneLine]

@[simp] theorem checkToken_eq_ok_iff {part : HeadPart} {token : String} {u : Unit} :
    checkToken part token = .ok u ↔ token ≠ "" ∧ OneLine token := by
  simp only [checkToken, any_isLineBreak, ite_error_eq_ok, not_or, not_not, and_true, ne_eq]

namespace Request

/-- A method or a path that a request line can hold. -/
def IsToken (s : String) : Prop := s ≠ "" ∧ OneLine s ∧ ' ' ∉ s.toList

def IsHeaderField (h : Header) : Prop := h.1 ≠ "" ∧ OneLine h.1 ∧ OneLine h.2

instance (s : String) : Decidable (IsToken s) := inferInstanceAs (Decidable (_ ∧ _))

instance (h : Header) : Decidable (IsHeaderField h) := inferInstanceAs (Decidable (_ ∧ _))

@[simp] theorem line_eq_ok_iff {r : Request} {bs : Bytes} :
    r.line = .ok bs ↔ (IsToken r.method ∧ IsToken r.path) ∧
      Utf8.encode (r.method ++ " " ++ r.path ++ " " ++ version) ++ crlf = bs := by
  simp [line, IsToken]
  tauto

@[simp] theorem headerLine_eq_ok_iff {h : Header} {bs : Bytes} :
    headerLine h = .ok bs ↔
      IsHeaderField h ∧ Utf8.encode (h.1 ++ ": " ++ h.2) ++ crlf = bs := by
  simp only [headerLine, bind_eq_ok, exists_const, checkToken_eq_ok_iff, throw_eq, error_bind,
    ite_error_eq_ok, pure_eq, Except.ok.injEq, any_isLineBreak, not_not, IsHeaderField, and_assoc]

def bytes (r : Request) : Bytes :=
  Utf8.encode (r.method ++ " " ++ r.path ++ " " ++ version) ++ crlf ++
    (r.headers.flatMap fun h => Utf8.encode (h.1 ++ ": " ++ h.2) ++ crlf) ++ crlf ++
    Utf8.encode r.body.payload

/-- A request is accepted exactly if its tokens and values keep to their lines. -/
theorem encode_eq_ok_iff {r : Request} {bs : Bytes} :
    r.encode = .ok bs ↔
      (IsToken r.method ∧ IsToken r.path ∧ ∀ h ∈ r.headers, IsHeaderField h) ∧ r.bytes = bs := by
  have hlines (lines : List Bytes) : r.headers.mapM headerLine = .ok lines ↔
      (∀ h ∈ r.headers, IsHeaderField h) ∧
        lines = r.headers.map fun h => Utf8.encode (h.1 ++ ": " ++ h.2) ++ crlf := by
    simp only [mapM_eq_ok_iff, headerLine_eq_ok_iff, List.forall₂_and_left]
    rw [← List.forall₂_map_left_iff, List.forall₂_eq_eq_eq, eq_comm]
  simp only [encode, bind_eq_ok, line_eq_ok_iff, hlines, pure_eq, Except.ok.injEq, bytes,
    Body.bytes_eq]
  constructor
  · intro h
    obtain ⟨_, ⟨⟨hmethod, hpath⟩, rfl⟩, _, ⟨hheaders, rfl⟩, rfl⟩ := h
    exact ⟨⟨hmethod, hpath, hheaders⟩, by rw [List.flatMap_def]⟩
  · intro h
    obtain ⟨⟨hmethod, hpath, hheaders⟩, rfl⟩ := h
    exact ⟨_, ⟨⟨hmethod, hpath⟩, rfl⟩, _, ⟨hheaders, rfl⟩, by rw [List.flatMap_def]⟩

end Request
end BoxClient.Http
