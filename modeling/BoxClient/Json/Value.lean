import BoxClient.Binary64.Basic
import BoxClient.Table
/-!
JSON values. A number keeps the form that its literal asked for: an unsigned or a negative integer
of 64 bits, or a binary64 float. An object holds its members as a table, sorted and without
repetition; `Value.object` does not enforce that, `Table.insert` does.
-/
namespace BoxClient.Json

inductive Number where
  | natural (n : UInt64)
  /-- The integer `-1 - below`. -/
  | negative (below : Fin (Nat.pow 2 63))
  | float (x : Binary64)
  deriving DecidableEq

inductive Value where
  | null
  | boolean (b : Bool)
  | number (n : Number)
  | string (s : String)
  | array (items : List Value)
  | object (members : List (String × Value))

namespace Value

instance : Inhabited Value := ⟨.null⟩

mutual

def decEq : (a b : Value) → Decidable (a = b)
  | .null, b => match b with
    | .null => isTrue rfl
    | .boolean _ | .number _ | .string _ | .array _ | .object _ => isFalse nofun
  | .boolean x, b => match b with
    | .boolean y => if h : x = y then isTrue (h ▸ rfl) else isFalse fun e => h (by injection e)
    | .null | .number _ | .string _ | .array _ | .object _ => isFalse nofun
  | .number x, b => match b with
    | .number y => if h : x = y then isTrue (h ▸ rfl) else isFalse fun e => h (by injection e)
    | .null | .boolean _ | .string _ | .array _ | .object _ => isFalse nofun
  | .string x, b => match b with
    | .string y => if h : x = y then isTrue (h ▸ rfl) else isFalse fun e => h (by injection e)
    | .null | .boolean _ | .number _ | .array _ | .object _ => isFalse nofun
  | .array x, b => match b with
    | .array y => match decEqItems x y with
      | isTrue h => isTrue (h ▸ rfl)
      | isFalse h => isFalse fun e => h (by injection e)
    | .null | .boolean _ | .number _ | .string _ | .object _ => isFalse nofun
  | .object x, b => match b with
    | .object y => match decEqMembers x y with
      | isTrue h => isTrue (h ▸ rfl)
      | isFalse h => isFalse fun e => h (by injection e)
    | .null | .boolean _ | .number _ | .string _ | .array _ => isFalse nofun

def decEqItems : (a b : List Value) → Decidable (a = b)
  | [], [] => isTrue rfl
  | [], _ :: _ => isFalse nofun
  | _ :: _, [] => isFalse nofun
  | x :: r, y :: s => match decEq x y with
    | isFalse h => isFalse fun e => h (by injection e)
    | isTrue h => match decEqItems r s with
      | isFalse h' => isFalse fun e => h' (by injection e)
      | isTrue h' => isTrue (h ▸ h' ▸ rfl)

def decEqMembers : (a b : List (String × Value)) → Decidable (a = b)
  | [], [] => isTrue rfl
  | [], _ :: _ => isFalse nofun
  | _ :: _, [] => isFalse nofun
  | (n, x) :: r, (m, y) :: s =>
    if hn : n = m then match decEq x y with
      | isFalse h => isFalse fun e => h (by injection e with e; injection e)
      | isTrue h => match decEqMembers r s with
        | isFalse h' => isFalse fun e => h' (by injection e)
        | isTrue h' => isTrue (hn ▸ h ▸ h' ▸ rfl)
    else isFalse fun e => hn (by injection e with e; injection e)

end

instance : DecidableEq Value := decEq

/-- The member `name`, if the value is an object that has it. -/
def member? : Value → String → Option Value
  | .object members, name => Table.find? members name
  | _, _ => none

def string? : Value → Option String
  | .string s => some s
  | _ => none

def natural? : Value → Option UInt64
  | .number (.natural n) => some n
  | _ => none

end Value
end BoxClient.Json
