/-!
UTF-8 over byte lists: the bytes of a text, and reading characters back strictly (no overlong
form, no surrogate, nothing above U+10FFFF).
-/
namespace BoxClient

abbrev Bytes := List UInt8

namespace Utf8

def encode (s : String) : Bytes := s.toList.flatMap String.utf8EncodeChar

/-- The six payload bits of a continuation byte. -/
def payload? (b : UInt8) : Option Nat :=
  if 0x80 ≤ b ∧ b < 0xC0 then some (b.toNat - 0x80) else none

/-- The character with number `n`, where the form read holds only numbers from `least` up. -/
def char? (least n : Nat) : Option Char :=
  if least ≤ n ∧ n.isValidChar then some (Char.ofNat n) else none

/-- The first character and the bytes after it, unless the bytes start with no character. -/
def next? : Bytes → Option (Char × Bytes)
  | [] => none
  | a :: r =>
    if a < 0x80 then some (Char.ofNat a.toNat, r)
    else if a < 0xC0 then none
    else if a < 0xE0 then
      match r with
      | b :: r => do
        let x ← payload? b
        let c ← char? 0x80 ((a.toNat - 0xC0) * 0x40 + x)
        return (c, r)
      | _ => none
    else if a < 0xF0 then
      match r with
      | b :: b' :: r => do
        let x ← payload? b
        let y ← payload? b'
        let c ← char? 0x800 (((a.toNat - 0xE0) * 0x40 + x) * 0x40 + y)
        return (c, r)
      | _ => none
    else if a < 0xF8 then
      match r with
      | b :: b' :: b'' :: r => do
        let x ← payload? b
        let y ← payload? b'
        let z ← payload? b''
        let c ← char? 0x10000 ((((a.toNat - 0xF0) * 0x40 + x) * 0x40 + y) * 0x40 + z)
        return (c, r)
      | _ => none
    else none

/-- Reads at most `n` characters, as far as the bytes hold any. -/
def take : Nat → Bytes → List Char × Bytes
  | 0, bs => ([], bs)
  | n + 1, bs =>
    match next? bs with
    | none => ([], bs)
    | some (c, r) => ((take n r).map (c :: ·) id)

/-- The characters of the longest valid beginning, and the bytes after it. Each character takes a
byte at least, so the number of bytes is enough rounds. -/
def chars (bs : Bytes) : List Char × Bytes := take bs.length bs

def decode? (bs : Bytes) : Option String :=
  match chars bs with
  | (cs, []) => some (String.ofList cs)
  | _ => none

/-- How many bytes of `bs` lie after its longest valid beginning. -/
def invalidLength (bs : Bytes) : Nat := (chars bs).2.length

end Utf8
end BoxClient
