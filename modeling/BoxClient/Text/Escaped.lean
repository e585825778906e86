import BoxClient.Text.Class
/-!
Texts made visible inside a message. A control, a quote or a character without a glyph is written
as an escape. `Style` says which quotes are escaped and where a combining mark is: a mark would
otherwise be drawn over the quote that opens the text.
-/
namespace BoxClient.Text

/-- What an escaped form does with the characters that do not always need an escape. -/
structure Style where
  /-- Escapes `'`. -/
  single : Bool
  /-- Escapes every combining mark, not only one at the very start. -/
  marks : Bool

/-- For a text that stands between single quotes. -/
def Style.bare : Style := ⟨true, false⟩

/-- For a text that is shown between double quotes. -/
def Style.quoted : Style := ⟨false, true⟩

def numbered (c : Char) : List Char :=
  '\\' :: 'u' :: '\x7b' :: Nat.toDigits 16 c.toNat ++ ['\x7d']

/-- One character in visible form; `mark` says that a combining mark is to be escaped here. -/
def escapeChar (single mark : Bool) (c : Char) : List Char :=
  if c = '\x00' then ['\\', '0']
  else if c = '\t' then ['\\', 't']
  else if c = '\r' then ['\\', 'r']
  else if c = '\n' then ['\\', 'n']
  else if c = '\\' then ['\\', '\\']
  else if c = '"' then ['\\', '"']
  else if c = '\'' && single then ['\\', '\'']
  else if mark && isExtending c then numbered c
  else if isPrintable c then [c]
  else numbered c

def escape (style : Style) (s : String) : String :=
  match s.toList with
  | [] => ""
  | c :: r => String.ofList (escapeChar style.single true c ++
      r.flatMap (escapeChar style.single style.marks))

def quote (s : String) : String := "\"" ++ escape .quoted s ++ "\""

end BoxClient.Text
