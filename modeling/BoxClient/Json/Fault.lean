import BoxClient.Json.Writer
import BoxClient.Text.Escaped
/-!
What is wrong with a JSON text, and where. A `Flaw` breaks the grammar. A `Misfit` is JSON of
another form than the type that is read asks for; it can also arise away from any text, from a value
that is already there. A `Fault` adds the place, as the number of bytes that were left unread.
-/
namespace BoxClient.Json

inductive Flaw where
  | endInValue
  | endInList
  | endInObject
  | endInString
  | noValue
  | wrongWord
  | noColon
  | noListSeparator
  | noObjectSeparator
  | keyNotString
  | trailingComma
  | trailingCharacters
  | badNumber
  | numberOutOfRange
  | badEscape
  | cutSurrogate
  | loneSurrogate
  | controlCharacter
  | badCodePoint
  | tooDeep
  deriving DecidableEq, Repr

namespace Flaw

def message : Flaw → String
  | endInValue => "EOF while parsing a value"
  | endInList => "EOF while parsing a list"
  | endInObject => "EOF while parsing an object"
  | endInString => "EOF while parsing a string"
  | noValue => "expected value"
  | wrongWord => "expected ident"
  | noColon => "expected `:`"
  | noListSeparator => "expected `,` or `]`"
  | noObjectSeparator => "expected `,` or `\x7d`"
  | keyNotString => "key must be a string"
  | trailingComma => "trailing comma"
  | trailingCharacters => "trailing characters"
  | badNumber => "invalid number"
  | numberOutOfRange => "number out of range"
  | badEscape => "invalid escape"
  | cutSurrogate => "unexpected end of hex escape"
  | loneSurrogate => "lone leading surrogate in hex escape"
  | controlCharacter => "control character (\\u0000-\\u001F) found while parsing a string"
  | badCodePoint => "invalid unicode code point"
  | tooDeep => "recursion limit exceeded"

end Flaw

inductive Found where
  | null
  | boolean (b : Bool)
  | number (n : Number)
  | string (s : String)
  | sequence
  | map
  deriving DecidableEq

namespace Found

def ofValue : Value → Found
  | .null => null
  | .boolean b => boolean b
  | .number n => number n
  | .string s => string s
  | .array _ => sequence
  | .object _ => map

def text : Found → String
  | null => "null"
  | boolean true => "boolean `true`"
  | boolean false => "boolean `false`"
  | number (.float x) => "floating point `" ++ String.ofList (floatText x) ++ "`"
  | number n => "integer `" ++ String.ofList n.text ++ "`"
  | string s => "string " ++ Text.quote s
  | sequence => "sequence"
  | map => "map"

end Found

inductive Misfit where
  | missingField (name : String)
  | duplicateField (name : String)
  /-- A value of another type. -/
  | invalidType (found : Found) (expected : String)
  /-- A value of the right type that is out of range. -/
  | invalidValue (found : Found) (expected : String)
  /-- A list with more items than there are fields. -/
  | surplus (length : Nat)
  deriving DecidableEq

def Misfit.message : Misfit → String
  | missingField name => "missing field `" ++ name ++ "`"
  | duplicateField name => "duplicate field `" ++ name ++ "`"
  | invalidType found expected => "invalid type: " ++ found.text ++ ", expected " ++ expected
  | invalidValue found expected => "invalid value: " ++ found.text ++ ", expected " ++ expected
  | surplus length =>
    "invalid length " ++ toString length ++ ", expected fewer elements in array"

inductive Cause where
  | flaw (f : Flaw)
  | misfit (m : Misfit)
  deriving DecidableEq

def Cause.message : Cause → String
  | flaw f => f.message
  | misfit m => m.message

/-- A cause and the number of bytes after the place it is reported at. -/
structure Fault where
  cause : Cause
  left : Nat
  deriving DecidableEq

namespace Fault

def here (f : Flaw) (rest : Bytes) : Fault := ⟨.flaw f, rest.length⟩

/-- Reported at the next byte, which counts as read, or at the end of the text. -/
def next (f : Flaw) (rest : Bytes) : Fault := ⟨.flaw f, rest.length - 1⟩

def unfit (m : Misfit) (rest : Bytes) : Fault := ⟨.misfit m, rest.length⟩

/-- The part of the text that counts as read. -/
def seen (text : Bytes) (f : Fault) : Bytes := text.take (text.length - f.left)

/-- Lines count from one. -/
def line (text : Bytes) (f : Fault) : Nat := (f.seen text).count 0x0a + 1

/-- Columns count bytes since the last line feed. -/
def column (text : Bytes) (f : Fault) : Nat :=
  ((f.seen text).reverse.takeWhile (· ≠ 0x0a)).length

def message (text : Bytes) (f : Fault) : String :=
  f.cause.message ++ " at line " ++ toString (f.line text) ++ " column " ++ toString (f.column text)

end Fault
end BoxClient.Json
