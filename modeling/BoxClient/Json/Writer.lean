import BoxClient.Binary64.Shortest
import BoxClient.Json.Value
import BoxClient.Text.Utf8
/-!
Writing JSON: compact, members in table order. A string escapes the quote, the backslash and the
controls below U+0020. A float is positional from 1e-5 up to below 1e16 and always has a point
there; outside it is scientific with a signed exponent.
-/
namespace BoxClient.Json

/-- Which floats are written positionally, by the power of ten of their first digit. -/
structure FloatLayout where
  least : Int
  /-- The first power that is written with an exponent. -/
  limit : Int

/-- From 1e-5 up to below 1e16. -/
def floatLayout : FloatLayout := ⟨-5, 16⟩

/-- A whole number of units `10^power`, with its point in place and a digit on both sides of it. -/
def positional (digits : List Char) (power : Int) : List Char :=
  if 0 ≤ power then digits ++ List.replicate power.toNat '0' ++ ['.', '0']
  else
    let places := (-power).toNat
    let whole := digits.length - places
    if 0 < whole then digits.take whole ++ '.' :: digits.drop whole
    else '0' :: '.' :: List.replicate (places - digits.length) '0' ++ digits

/-- The first digit, a point before the others if there are any, and the exponent with its sign. -/
def scientific (digits : List Char) (exponent : Int) : List Char :=
  let mantissa := match digits with
    | first :: second :: more => first :: '.' :: second :: more
    | _ => digits
  mantissa ++ 'e' :: (if 0 ≤ exponent then '+' else '-') :: Nat.toDigits 10 exponent.natAbs

def decimalText (d : Binary64.Decimal) : List Char :=
  let digits := Nat.toDigits 10 d.digits
  let exponent := d.power + digits.length - 1
  if floatLayout.least ≤ exponent ∧ exponent < floatLayout.limit then positional digits d.power
  else scientific digits exponent

def floatText (x : Binary64) : List Char :=
  let sign := if x.negative then ['-'] else []
  if x.magnitude.val = 0 then sign ++ ['0', '.', '0'] else sign ++ decimalText x.magnitude.shortest

def Number.text : Number → List Char
  | .natural n => Nat.toDigits 10 n.toNat
  | .negative below => '-' :: Nat.toDigits 10 (below.val + 1)
  | .float x => floatText x

def escapeChar (c : Char) : List Char :=
  if c = '"' then ['\\', '"']
  else if c = '\\' then ['\\', '\\']
  else if c.toNat < 0x20 then
    if c = '\x08' then ['\\', 'b']
    else if c = '\t' then ['\\', 't']
    else if c = '\n' then ['\\', 'n']
    else if c = '\x0c' then ['\\', 'f']
    else if c = '\r' then ['\\', 'r']
    else ['\\', 'u', '0', '0', Nat.digitChar (c.toNat / 16), Nat.digitChar (c.toNat % 16)]
  else [c]

def stringText (s : String) : List Char := '"' :: s.toList.flatMap escapeChar ++ ['"']

mutual

def Value.chars : Value → List Char
  | .null => ['n', 'u', 'l', 'l']
  | .boolean true => ['t', 'r', 'u', 'e']
  | .boolean false => ['f', 'a', 'l', 's', 'e']
  | .number n => n.text
  | .string s => stringText s
  | .array [] => ['[', ']']
  | .array (v :: r) => '[' :: v.chars ++ charsOfItems r
  | .object [] => ['\x7b', '\x7d']
  | .object ((name, v) :: r) => '\x7b' :: stringText name ++ ':' :: v.chars ++ charsOfMembers r

/-- The items after the first, and the end of the array. -/
def charsOfItems : List Value → List Char
  | [] => [']']
  | v :: r => ',' :: v.chars ++ charsOfItems r

/-- The members after the first, and the end of the object. -/
def charsOfMembers : List (String × Value) → List Char
  | [] => ['\x7d']
  | (name, v) :: r => ',' :: stringText name ++ ':' :: v.chars ++ charsOfMembers r

end

def Value.text (v : Value) : String := String.ofList v.chars

end BoxClient.Json
