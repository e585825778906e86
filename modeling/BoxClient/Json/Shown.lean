import BoxClient.Json.Writer
import BoxClient.Text.Escaped
/-!
Values as they are shown to a programmer: each with its kind, strings in visible form.
-/
namespace BoxClient.Json

mutual

def Value.shown : Value → String
  | .null => "Null"
  | .boolean true => "Bool(true)"
  | .boolean false => "Bool(false)"
  | .number n => "Number(" ++ String.ofList n.text ++ ")"
  | .string s => "String(" ++ Text.quote s ++ ")"
  | .array [] => "Array []"
  | .array (v :: r) => shownItems ("Array [" ++ v.shown) r ++ "]"
  | .object [] => "Object \x7b\x7d"
  | .object ((name, v) :: r) =>
    shownMembers ("Object \x7b" ++ Text.quote name ++ ": " ++ v.shown) r ++ "\x7d"

/-- Continues what is written of an array by the items after the first. -/
def shownItems (written : String) : List Value → String
  | [] => written
  | v :: r => shownItems (written ++ ", " ++ v.shown) r

/-- Continues what is written of an object by the members after the first. -/
def shownMembers (written : String) : List (String × Value) → String
  | [] => written
  | (name, v) :: r => shownMembers (written ++ ", " ++ Text.quote name ++ ": " ++ v.shown) r

end

end BoxClient.Json
