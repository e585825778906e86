import BoxClient.Proofs.Http.Framing
import BoxClient.Proofs.Json.RoundTrip
import Mathlib.Logic.Function.Iterate
/-!
The bodies of requests. A JSON value comes back from the text of its body; a body is sent as its
text, whichever of the kinds it is of; and the only body without a text is the empty one, because
every JSON text has a character at least, that of a float too.
-/
namespace BoxClient

namespace Json

theorem decimalText_ne_nil (d : Binary64.Decimal) : decimalText d ≠ [] := by
  rw [decimalText]
  split
  · rw [positional]
    split
    · simp
    · dsimp only
      split <;> simp
  · simp [scientific]

theorem Number.text_ne_nil (n : Number) : n.text ≠ [] := by
  cases n with
  | natural n => exact Nat.toDigits_ne_nil
  | negative below => exact List.cons_ne_nil _ _
  | float x =>
    rw [Number.text, floatText]
    split
    · simp
    · exact List.append_ne_nil_of_right_ne_nil _ (decimalText_ne_nil _)

namespace Value

theorem chars_ne_nil (v : Value) : v.chars ≠ [] := by
  cases v with
  | null => exact List.cons_ne_nil _ _
  | boolean b => cases b <;> exact List.cons_ne_nil _ _
  | number n => exact n.text_ne_nil
  | string s => exact List.cons_ne_nil _ _
  | array vs => cases vs <;> exact List.cons_ne_nil _ _
  | object t => cases t <;> exact List.cons_ne_nil _ _

/-- JSON is never empty, so a JSON body always has something to send. -/
theorem text_ne_empty (v : Value) : v.text ≠ "" := by
  intro h
  exact v.chars_ne_nil (String.ofList_inj.mp h)

end Value
end Json

namespace Http

open Json

namespace Body

@[simp] theorem isEmpty_iff (b : Body) : b.isEmpty = true ↔ b.payload = "" := by
  cases b with
  | empty => exact iff_of_true rfl rfl
  | json v => exact iff_of_false nofun v.text_ne_empty
  | text s => exact decide_eq_true_iff

theorem payload_ofValue {v : Value} (hnull : v ≠ .null) (hstring : ∀ s, v ≠ .string s) :
    (ofValue v).payload = (json v).payload := by
  cases v with
  | null => exact absurd rfl hnull
  | string s => exact absurd rfl (hstring s)
  | _ => rfl

/-- The JSON text of a value decodes to the value. -/
theorem decode_payload_json {v : Value} (hcanonical : v.Canonical) (hfits : v.Fits nestingLimit) :
    Json.decode (Utf8.encode (json v).payload) = .ok v := by
  rw [payload_json, decode_text hfits, hcanonical.normal_eq]

end Body

/-- A body is sent as its text is. -/
theorem Request.encode_text_payload (r : Request) :
    { r with body := .text r.body.payload }.encode = r.encode := by
  simp [Request.encode, Request.line, Body.bytes_eq]

/-- The text of a JSON body decodes to its value, unless a float occurs in it or it nests too deep.
Made from a value, a body has that same text, but for a string, which is its own text, and null,
which has none. A body is empty exactly if its text is; and a request is encoded with any body as it
is with the text of it, which is what stands behind its head. -/
theorem Body.payload_carries :
    (∀ v : Value, v.Canonical → v.Fits nestingLimit →
      Json.decode (Utf8.encode (json v).payload) = .ok v) ∧
    ((∀ v : Value, v ≠ .null → (∀ s, v ≠ .string s) →
      (ofValue v).payload = (json v).payload) ∧
      (∀ s, (ofValue (.string s)).payload = s) ∧ (ofValue .null).payload = "") ∧
    (∀ b : Body, b.isEmpty = true ↔ b.payload = "") ∧
    ∀ r : Request, { r with body := .text r.body.payload }.encode = r.encode ∧
      ∀ bs, r.encode = .ok bs →
        ∃ head, splitHead? bs = some (head, Utf8.encode r.body.payload) := by
  refine ⟨fun v => decode_payload_json, ⟨fun v => payload_ofValue, fun s => rfl, rfl⟩, isEmpty_iff,
    fun r => ⟨r.encode_text_payload, fun bs h => ?_⟩⟩
  exact ⟨_, Request.splitHead?_of_encode h⟩

/-- A name of control, quote and other characters, the largest and the least of the integers, and as
many containers inside each other as there may be; in a request with that body. -/
theorem Body.payload_carries_deepest :
    let v : Value := (fun v => .array [v])^[126] (.object [
      ("\x00\n\"é", .number (.natural 0xffffffffffffffff)),
      ("z", .number (.negative ⟨Nat.pow 2 63 - 1, by decide⟩))])
    let r : Request := ⟨"PUT", "/a", [], .json v⟩
    v.Canonical ∧ v.depth = 127 ∧ v.Fits nestingLimit ∧
      Json.decode (Utf8.encode (json v).payload) = .ok v ∧ (ofValue v).payload = (json v).payload ∧
      ∃ bs head, r.encode = .ok bs ∧ splitHead? bs = some (head, Utf8.encode (json v).payload) := by
  intro v r
  have hinner : (Value.object [("\x00\n\"é", .number (.natural 0xffffffffffffffff)),
      ("z", .number (.negative ⟨Nat.pow 2 63 - 1, by decide⟩))]).Canonical := by
    refine .object (List.pairwise_pair.mpr (by decide)) ?_
    simp only [List.forall_mem_cons]
    exact ⟨.number _, .number _, nofun⟩
  have hcanonical : v.Canonical :=
    Function.Iterate.rec Value.Canonical hinner
      (fun w hw => .array fun u hu => List.mem_singleton.mp hu ▸ hw) 126
  have hfits : v.Fits nestingLimit := by decide +kernel
  obtain ⟨hdecode, ⟨hsame, -⟩, -, hsent⟩ := payload_carries
  obtain ⟨bs, hencode⟩ : ∃ bs, r.encode = .ok bs :=
    ⟨_, Request.encode_eq_ok_iff.mpr ⟨by decide, rfl⟩⟩
  obtain ⟨head, hhead⟩ := (hsent r).2 bs hencode
  exact ⟨hcanonical, by decide +kernel, hfits, hdecode v hcanonical hfits, hsame v nofun nofun, bs,
    head, hencode, hhead⟩

end Http
end BoxClient
