import BoxClient.Text.Blank
import BoxClient.Text.Utf8
/-!
The head of a response: a status line and header lines up to an empty one. Lines end with a line
feed; a carriage return before it goes with it.
-/
namespace BoxClient.Http

def headLimit : Nat := 65536

inductive HeadFault where
  /-- The stream ended before any byte. -/
  | empty
  /-- The stream ended between two lines. -/
  | cutBetweenLines
  /-- The stream ended inside a line. -/
  | cutInLine
  | tooLarge
  | notUtf8
  | badVersion (text : String)
  | badStatus (text : String)
  | noColon (line : String)
  | emptyName (line : String)
  deriving DecidableEq, Repr

def HeadFault.message : HeadFault → String
  | empty => "Empty response"
  | cutBetweenLines => "Unexpected end of response headers"
  | cutInLine => "Unexpected end of response head"
  | tooLarge => "Response head exceeds " ++ toString headLimit ++ " bytes"
  | notUtf8 => "Invalid UTF-8 in response head"
  | badVersion text => "Illegal protocol declaration '" ++ text ++ "'"
  | badStatus text => "Illegal status code '" ++ text ++ "'"
  | noColon line => "Malformed header line '" ++ line ++ "'"
  | emptyName line => "Empty header name in '" ++ line ++ "'"

/-- The headers of a response in the order received. -/
abbrev Headers := List (String × String)

/-- The value of the first header of that name, upper and lower case ASCII letters being the same.
-/
def Headers.get? (headers : Headers) (name : String) : Option String :=
  (headers.find? fun h => h.1.toLower = name.toLower).map (·.2)

structure Head where
  status : Nat
  reason : String
  headers : Headers
  deriving DecidableEq, Repr

/-- What stands before the first `c` and what after it, if it occurs. -/
def splitAt? (c : Char) : List Char → Option (List Char × List Char)
  | [] => none
  | a :: r => if a = c then some ([], r) else (splitAt? c r).map fun p => (a :: p.1, p.2)

def codeBound : Nat := Nat.pow 2 16

/-- Adds a decimal digit to a number, if sixteen bits hold the result. -/
def addDigit (n : Nat) (c : Char) : Option Nat :=
  if c.isDigit then
    let m := n * 10 + (c.toNat - 0x30)
    if m < codeBound then some m else none
  else none

/-- The number of sixteen bits that decimal digits spell, with or without a plus sign before them.
-/
def statusNumber? (cs : List Char) : Option Nat :=
  let digits := match cs with
    | '+' :: r => r
    | cs => cs
  if digits = [] then none else digits.foldlM addDigit 0

/-- The status codes are the numbers with three digits. -/
def status? (cs : List Char) : Option Nat :=
  (statusNumber? cs).filter fun n => 100 ≤ n && n ≤ 999

def isVersion (cs : List Char) : Bool :=
  cs = "HTTP/1.0".toList || cs = "HTTP/1.1".toList

/-- Status and reason of a status line: version, code and reason, with a space between them. -/
def readStatusLine (line : List Char) : Except HeadFault (Nat × String) :=
  let (version, rest) := (splitAt? ' ' line).getD (line, [])
  if !isVersion version then .error (.badVersion (String.ofList version))
  else
    let (code, reason) := (splitAt? ' ' rest).getD (rest, [])
    match status? code with
    | none => .error (.badStatus (String.ofList code))
    | some status => .ok (status, String.ofList (Text.trim reason))

/-- Name and value of a header line, split at its first colon and trimmed. -/
def readHeaderLine (line : List Char) : Except HeadFault (String × String) :=
  match splitAt? ':' line with
  | none => .error (.noColon (String.ofList line))
  | some (name, value) =>
    if Text.trim name = [] then .error (.emptyName (String.ofList line))
    else .ok (String.ofList (Text.trim name), String.ofList (Text.trim value))

end BoxClient.Http
