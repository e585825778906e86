import BoxClient.Json.Writer
/-!
The body of a request: nothing, a JSON value, or text that is sent as it is.
-/
namespace BoxClient.Http

inductive Body where
  | empty
  | json (v : Json.Value)
  | text (s : String)
  deriving DecidableEq

namespace Body

def isEmpty : Body → Bool
  | empty => true
  | json _ => false
  | text s => s = ""

def isJson : Body → Bool
  | json _ => true
  | _ => false

def payload : Body → String
  | empty => ""
  | json v => v.text
  | text s => s

def bytes (b : Body) : Bytes := if b.isEmpty then [] else Utf8.encode b.payload

/-- Arrays and objects are sent as JSON, a string as its text, other scalars as the text of their
literal, and null as nothing. -/
def ofValue : Json.Value → Body
  | .null => empty
  | .boolean b => text (Json.Value.boolean b).text
  | .number n => text (Json.Value.number n).text
  | .string s => text s
  | .array vs => json (.array vs)
  | .object t => json (.object t)

@[simp] theorem payload_empty : empty.payload = "" := rfl

@[simp] theorem payload_text (s : String) : (text s).payload = s := rfl

@[simp] theorem payload_json (v : Json.Value) : (json v).payload = v.text := rfl

/-- An empty body needs no case of its own: its payload has no bytes either. -/
theorem bytes_eq (b : Body) : b.bytes = Utf8.encode b.payload := by
  rw [bytes]
  split
  · rename_i h
    cases b with
    | empty => rfl
    | json v => cases h
    | text s =>
      rw [payload_text, of_decide_eq_true h]
      rfl
  · rfl

end Body
end BoxClient.Http
