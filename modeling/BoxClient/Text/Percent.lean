import BoxClient.Text.Utf8
/-!
Percent-encoding of a path segment: unreserved characters stay, every other byte of the text
becomes `%` and two upper-case hexadecimal digits.
-/
namespace BoxClient.Percent

/-- Letters, digits and `-`, `_`, `.`, `~`. -/
def isUnreserved (b : UInt8) : Bool :=
  let n := b.toNat
  (0x30 ≤ n && n ≤ 0x39) || (0x41 ≤ n && n ≤ 0x5a) || (0x61 ≤ n && n ≤ 0x7a) ||
    n == 0x2d || n == 0x5f || n == 0x2e || n == 0x7e

def digit (n : Nat) : Char := if n < 10 then Char.ofNat (0x30 + n) else Char.ofNat (0x37 + n)

def encodeByte (b : UInt8) : List Char :=
  if isUnreserved b then [Char.ofNat b.toNat] else ['%', digit (b.toNat / 16), digit (b.toNat % 16)]

/-- The segment that stands for a text. -/
def encode (s : String) : String := String.ofList ((Utf8.encode s).flatMap encodeByte)

end BoxClient.Percent
