import BoxClient.Json.Fault
/-!
Reading JSON from bytes. A reader takes the bytes from where it stands and gives a value and the
bytes after it, or the first fault. Nesting is bounded: a container may be opened as long as the
depth that is left is positive, and `Value.reader` recurses on that depth. A loop inside a container
or a string takes at least one byte in each round, so the bytes it starts from bound its rounds: it
is given them a second time and drops one in each round.
-/
namespace BoxClient.Json

abbrev Reader (α : Type) := Bytes → Except Fault (α × Bytes)

/-- How deep arrays and objects may nest. -/
def nestingLimit : Nat := 127

def isSpace (b : UInt8) : Bool := b = 0x20 || b = 0x09 || b = 0x0a || b = 0x0d

def skipSpace (bs : Bytes) : Bytes := bs.dropWhile isSpace

def digit? (b : UInt8) : Option Nat := if 0x30 ≤ b ∧ b ≤ 0x39 then some (b.toNat - 0x30) else none

def isDigit (b : UInt8) : Bool := (digit? b).isSome

def skipDigits (bs : Bytes) : Bytes := bs.dropWhile isDigit

/-- The rest of a literal word, byte by byte; a wrong byte counts as read. -/
def word : (expected : Bytes) → Reader Unit
  | [], bs => .ok ((), bs)
  | _ :: _, [] => .error (.here .endInValue [])
  | a :: w, b :: r => if b = a then word w r else .error (.here .wrongWord r)

def significandBound : Nat := Nat.pow 2 64

def exponentBound : Nat := Nat.pow 2 31

/-- The float `±n · 10^e`, at the end of its literal. -/
def scaled (negative : Bool) (n : Nat) (e : Int) : Reader Number := fun r =>
  match Binary64.ofDecimal? n e with
  | none => .error (.here .numberOutOfRange r)
  | some m => .ok (.float ⟨negative, m⟩, r)

/-- The digits of an exponent after the first; `none` with the bytes after the digit that makes it
too large. -/
def exponentDigits (e : Nat) : Bytes → Option Nat × Bytes
  | [] => (some e, [])
  | b :: r =>
    match digit? b with
    | none => (some e, b :: r)
    | some d => if e * 10 + d < exponentBound then exponentDigits (e * 10 + d) r else (none, r)

def exponentSign : Bytes → Bool × Bytes
  | 0x2b :: r => (false, r)
  | 0x2d :: r => (true, r)
  | bs => (false, bs)

/-- An exponent, from behind its `e`, and the float it completes. -/
def exponent (negative : Bool) (n : Nat) (start : Int) : Reader Number := fun bs =>
  let (down, bs) := exponentSign bs
  match bs with
  | [] => .error (.here .endInValue [])
  | b :: r =>
    match digit? b with
    | none => .error (.here .badNumber r)
    | some d =>
      match exponentDigits d r with
      | (some e, r) => scaled negative n (if down then start - e else start + e) r
      | (none, r) =>
        if n ≠ 0 ∧ !down then .error (.here .numberOutOfRange r)
        else .ok (.float ⟨negative, default⟩, skipDigits r)

def isExponentMark (b : UInt8) : Bool := b = 0x65 || b = 0x45

def tailOfFloat (negative : Bool) (n : Nat) (e : Int) : Reader Number
  | b :: r => if isExponentMark b then exponent negative n e r else scaled negative n e (b :: r)
  | [] => scaled negative n e []

/-- The fraction digits that the significand takes: it, their number, and the bytes after them. Each
lowers the exponent by one; from the first that would overflow on, the digits count for nothing. -/
def fractionDigits (n count : Nat) : Bytes → Nat × Nat × Bytes
  | [] => (n, count, [])
  | b :: r =>
    match digit? b with
    | none => (n, count, b :: r)
    | some d =>
      if n * 10 + d < significandBound then fractionDigits (n * 10 + d) (count + 1) r
      else (n, count, b :: r)

def fraction (negative : Bool) (n : Nat) (e : Int) : Reader Number := fun bs =>
  match bs with
  | [] => .error (.here .endInValue [])
  | b :: _ =>
    if isDigit b then
      let (n, count, r) := fractionDigits n 0 bs
      tailOfFloat negative n (e - count) (skipDigits r)
    else .error (.next .badNumber bs)

/-- The integer digits that the significand takes; `false` if one would overflow it. -/
def integerDigits (n : Nat) : Bytes → Nat × Bool × Bytes
  | [] => (n, true, [])
  | b :: r =>
    match digit? b with
    | none => (n, true, b :: r)
    | some d =>
      if n * 10 + d < significandBound then integerDigits (n * 10 + d) r else (n, false, b :: r)

/-- An integer literal: an unsigned or a negative integer of 64 bits where it fits, else a float. -/
def integer (negative : Bool) (n : Nat) : Reader Number := fun r =>
  if negative then
    if h : 0 < n ∧ n ≤ Nat.pow 2 63 then .ok (.negative ⟨n - 1, by omega⟩, r)
    else scaled true n 0 r
  else .ok (.natural (UInt64.ofNat n), r)

def tailOfInteger (negative : Bool) (n : Nat) : Reader Number
  | b :: r =>
    if b = 0x2e then fraction negative n 0 r
    else if isExponentMark b then exponent negative n 0 r
    else integer negative n (b :: r)
  | [] => integer negative n []

/-- The rest of a number from the integer digit that overflows on: this and all integer digits after
it only raise the exponent. -/
def tailOfLong (negative : Bool) (n : Nat) : Reader Number := fun bs =>
  let e := (bs.takeWhile isDigit).length
  match skipDigits bs with
  | 0x2e :: r => fraction negative n e r
  | r => tailOfFloat negative n e r

def unsigned (negative : Bool) : Reader Number
  | [] => .error (.here .endInValue [])
  | b :: r =>
    match digit? b with
    | none => .error (.here .badNumber r)
    | some 0 =>
      match r with
      | b' :: _ => if isDigit b' then .error (.next .badNumber r) else tailOfInteger negative 0 r
      | [] => tailOfInteger negative 0 r
    | some d =>
      match integerDigits d r with
      | (n, true, r) => tailOfInteger negative n r
      | (n, false, r) => tailOfLong negative n r

def number : Reader Number
  | 0x2d :: r => unsigned true r
  | bs => unsigned false bs

def hexDigit? (b : UInt8) : Option Nat :=
  if 0x30 ≤ b ∧ b ≤ 0x39 then some (b.toNat - 0x30)
  else if 0x41 ≤ b ∧ b ≤ 0x46 then some (b.toNat - 0x37)
  else if 0x61 ≤ b ∧ b ≤ 0x66 then some (b.toNat - 0x57)
  else none

/-- Four hexadecimal digits. Fewer bytes are all read, four wrong ones too. -/
def hexQuad : Reader Nat
  | a :: b :: c :: d :: r =>
    match hexDigit? a, hexDigit? b, hexDigit? c, hexDigit? d with
    | some a, some b, some c, some d => .ok (((a * 16 + b) * 16 + c) * 16 + d, r)
    | _, _, _, _ => .error (.here .badEscape r)
  | _ => .error (.here .endInString [])

/-- One byte of what must follow a leading surrogate. -/
def surrogateMark (b : UInt8) : Reader Unit
  | [] => .error (.here .endInString [])
  | a :: r => if a = b then .ok ((), r) else .error (.here .cutSurrogate r)

/-- The character of a `\u` escape, from behind the `u`; two escapes where the first is a leading
surrogate. -/
def unicodeEscape : Reader Char := fun bs => do
  let (n, r) ← hexQuad bs
  if 0xdc00 ≤ n ∧ n < 0xe000 then .error (.here .loneSurrogate r)
  else if 0xd800 ≤ n ∧ n < 0xdc00 then
    let (_, r) ← surrogateMark 0x5c r
    let (_, r) ← surrogateMark 0x75 r
    let (m, r) ← hexQuad r
    if 0xdc00 ≤ m ∧ m < 0xe000 then
      .ok (Char.ofNat ((n - 0xd800) * 0x400 + (m - 0xdc00) + 0x10000), r)
    else .error (.here .loneSurrogate r)
  else .ok (Char.ofNat n, r)

def escape : Reader Char
  | [] => .error (.here .endInString [])
  | b :: r =>
    if b = 0x22 then .ok ('"', r)
    else if b = 0x5c then .ok ('\\', r)
    else if b = 0x2f then .ok ('/', r)
    else if b = 0x62 then .ok ('\x08', r)
    else if b = 0x66 then .ok ('\x0c', r)
    else if b = 0x6e then .ok ('\n', r)
    else if b = 0x72 then .ok ('\r', r)
    else if b = 0x74 then .ok ('\t', r)
    else if b = 0x75 then unicodeEscape r
    else .error (.here .badEscape r)

def stringBytes : (rounds : Bytes) → Reader Bytes
  | [], bs => .error (.here .endInString bs)
  | _ :: _, [] => .error (.here .endInString [])
  | _ :: rounds, b :: r =>
    if b = 0x22 then .ok ([], r)
    else if b = 0x5c then do
      let (c, r) ← escape r
      let (s, r) ← stringBytes rounds r
      .ok (String.utf8EncodeChar c ++ s, r)
    else if b < 0x20 then .error (.here .controlCharacter r)
    else do
      let (s, r) ← stringBytes rounds r
      .ok (b :: s, r)

/-- A string, from behind its opening quote. Bytes that are not UTF-8 are found at the closing quote
and reported as far before the place behind it as the valid beginning falls short. -/
def string : Reader String := fun bs => do
  let (content, r) ← stringBytes bs bs
  match Utf8.decode? content with
  | some s => .ok (s, r)
  | none => .error ⟨.flaw .badCodePoint, r.length + Utf8.invalidLength content⟩

/-- The next item of an array, unread space before it; `none` in front of the closing bracket. -/
def item? {α : Type} (item : Reader α) (first : Bool) : Reader (Option α) := fun bs =>
  match skipSpace bs with
  | [] => .error (.next .endInList [])
  | b :: r =>
    if b = 0x5d then .ok (none, b :: r)
    else if first then do
      let (a, r) ← item (b :: r)
      .ok (some a, r)
    else if b = 0x2c then
      match skipSpace r with
      | 0x5d :: r => .error (.next .trailingComma (0x5d :: r))
      | r => do
        let (a, r) ← item r
        .ok (some a, r)
    else .error (.next .noListSeparator (b :: r))

def closeArray : Reader Unit := fun bs =>
  match skipSpace bs with
  | [] => .error (.next .endInList [])
  | 0x5d :: r => .ok ((), r)
  | 0x2c :: r =>
    match skipSpace r with
    | 0x5d :: r => .error (.next .trailingComma (0x5d :: r))
    | r => .error (.next .trailingCharacters r)
  | r => .error (.next .trailingCharacters r)

def items {α : Type} (item : Reader α) : (rounds : Bytes) → (first : Bool) → Reader (List α)
  | [], _, bs => .error (.next .endInList bs)
  | _ :: rounds, first, bs => do
    match ← item? item first bs with
    | (none, r) =>
      let (_, r) ← closeArray r
      .ok ([], r)
    | (some a, r) =>
      let (as, r) ← items item rounds false r
      .ok (a :: as, r)

def arrayOf {α : Type} (item : Reader α) : Reader (List α) := fun bs => items item bs true bs

def colon : Reader Unit := fun bs =>
  match skipSpace bs with
  | [] => .error (.next .endInObject [])
  | b :: r => if b = 0x3a then .ok ((), r) else .error (.next .noColon (b :: r))

/-- The next key of an object; `none` behind the closing brace. -/
def key? (first : Bool) : Reader (Option String) := fun bs =>
  match skipSpace bs with
  | [] => .error (.next .endInObject [])
  | b :: r =>
    if b = 0x7d then .ok (none, r)
    else if first then
      if b = 0x22 then do
        let (k, r) ← string r
        .ok (some k, r)
      else .error (.next .keyNotString (b :: r))
    else if b = 0x2c then
      match skipSpace r with
      | [] => .error (.next .endInValue [])
      | b :: r =>
        if b = 0x22 then do
          let (k, r) ← string r
          .ok (some k, r)
        else if b = 0x7d then .error (.next .trailingComma (b :: r))
        else .error (.next .keyNotString (b :: r))
    else .error (.next .noObjectSeparator (b :: r))

/-- The members of an object and its end. `member` reads what follows a key and adds it to what was
gathered so far. -/
def members {σ : Type} (member : σ → String → Reader σ) :
    (rounds : Bytes) → (first : Bool) → σ → Reader σ
  | [], _, _, bs => .error (.next .endInObject bs)
  | _ :: rounds, first, s, bs => do
    match ← key? first bs with
    | (none, r) => .ok (s, r)
    | (some k, r) =>
      let (s, r) ← member s k r
      members member rounds false s r

def objectOf {σ : Type} (member : σ → String → Reader σ) (start : σ) : Reader σ := fun bs =>
  members member bs true start bs

def entry {α : Type} (value : Reader α) (t : Table α) (name : String) : Reader (Table α) :=
  fun bs => do
    let (_, r) ← colon bs
    let (a, r) ← value r
    .ok (t.insert name a, r)

namespace Value

/-- A value, where `inside` reads the values that it holds; without it no container may open. -/
def readerOver (inside : Option (Reader Value)) : Reader Value := fun bs =>
  match skipSpace bs with
  | [] => .error (.next .endInValue [])
  | b :: r =>
    if b = 0x6e then do
      let (_, r) ← word [0x75, 0x6c, 0x6c] r
      .ok (.null, r)
    else if b = 0x74 then do
      let (_, r) ← word [0x72, 0x75, 0x65] r
      .ok (.boolean true, r)
    else if b = 0x66 then do
      let (_, r) ← word [0x61, 0x6c, 0x73, 0x65] r
      .ok (.boolean false, r)
    else if b = 0x2d || isDigit b then do
      let (n, r) ← Json.number (b :: r)
      .ok (.number n, r)
    else if b = 0x22 then do
      let (s, r) ← Json.string r
      .ok (.string s, r)
    else if b = 0x5b then
      match inside with
      | none => .error (.next .tooDeep (b :: r))
      | some value => do
        let (vs, r) ← arrayOf value r
        .ok (.array vs, r)
    else if b = 0x7b then
      match inside with
      | none => .error (.next .tooDeep (b :: r))
      | some value => do
        let (t, r) ← objectOf (entry value) [] r
        .ok (.object t, r)
    else .error (.next .noValue (b :: r))

/-- Reads a value in which containers nest at most `depth` deep. -/
def reader : (depth : Nat) → Reader Value
  | 0 => readerOver none
  | depth + 1 => readerOver (some (reader depth))

end Value

/-- Reads a whole text: one value and nothing but space after it. -/
def whole {α : Type} (reader : Reader α) (text : Bytes) : Except Fault α := do
  let (a, r) ← reader text
  match skipSpace r with
  | [] => .ok a
  | r => .error (.next .trailingCharacters r)

def Value.read (text : Bytes) : Except Fault Value := whole (reader nestingLimit) text

end BoxClient.Json
