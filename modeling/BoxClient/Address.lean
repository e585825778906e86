/-!
Addresses given as literals, and their canonical text. An IPv4 literal is four decimal octets
without leading zeros. An IPv6 literal is eight groups of up to four hexadecimal digits, of which
one run may be left out as `::`; the last two groups may be written as an IPv4 literal. In the
canonical text the first longest run of at least two zero groups is left out.
-/
namespace BoxClient

/-- An IPv4 address as its four octets, an IPv6 address as its eight groups. -/
inductive Address where
  | v4 (octets : List Nat)
  | v6 (groups : List Nat)
  deriving DecidableEq, Repr

namespace Address

def pieces (separator : Char) : List Char → List (List Char)
  | [] => [[]]
  | c :: r =>
    if c = separator then [] :: pieces separator r
    else
      match pieces separator r with
      | [] => [[c]]
      | p :: ps => (c :: p) :: ps

def digit? (c : Char) : Option Nat :=
  let n := c.toNat
  if 0x30 ≤ n ∧ n ≤ 0x39 then some (n - 0x30)
  else if 0x41 ≤ n ∧ n ≤ 0x46 then some (n - 0x37)
  else if 0x61 ≤ n ∧ n ≤ 0x66 then some (n - 0x57)
  else none

/-- The number that digits below the base spell. -/
def number? (base : Nat) (cs : List Char) : Option Nat :=
  cs.foldlM (fun n c => do
    let d ← digit? c
    if d < base then some (n * base + d) else none) 0

/-- An octet: a number up to 255 without leading zeros. -/
def octet? (cs : List Char) : Option Nat :=
  if cs = [] ∨ 3 < cs.length ∨ (1 < cs.length ∧ cs.head? = some '0') then none
  else (number? 10 cs).filter (· ≤ 255)

def octets? (cs : List Char) : Option (List Nat) := do
  let octets ← (pieces '.' cs).mapM octet?
  if octets.length = 4 then some octets else none

/-- A group: one to four hexadecimal digits. -/
def group? (cs : List Char) : Option Nat :=
  if cs = [] ∨ 4 < cs.length then none else number? 16 cs

/-- Two groups from the four octets of an IPv4 literal. -/
def embedded? (cs : List Char) : Option (List Nat) :=
  match octets? cs with
  | some [a, b, c, d] => some [a * 256 + b, c * 256 + d]
  | _ => none

/-- The groups on one side of `::`; only the last may be an IPv4 literal, where that is allowed. -/
def groups? (embed : Bool) : List (List Char) → Option (List Nat)
  | [] => some []
  | [p] =>
    match group? p with
    | some g => some [g]
    | none => if embed then embedded? p else none
  | p :: ps => do return (← group? p) :: (← groups? embed ps)

def side? (embed : Bool) (cs : List Char) : Option (List Nat) :=
  if cs = [] then some [] else groups? embed (pieces ':' cs)

/-- What stands before the first `::` and what after it. -/
def splitGap : List Char → Option (List Char × List Char)
  | ':' :: ':' :: r => some ([], r)
  | c :: r => (splitGap r).map fun p => (c :: p.1, p.2)
  | [] => none

/-- The groups of an IPv6 literal. The run that `::` stands for is not empty. -/
def v6Groups? (cs : List Char) : Option (List Nat) :=
  match splitGap cs with
  | none => do
    let groups ← side? true cs
    if groups.length = 8 then some groups else none
  | some (front, back) => do
    let front ← side? false front
    let back ← side? true back
    if front.length + back.length < 8 then
      some (front ++ List.replicate (8 - front.length - back.length) 0 ++ back)
    else none

def ofLiteral? (s : String) : Option Address :=
  match octets? s.toList with
  | some octets => some (v4 octets)
  | none => (v6Groups? s.toList).map v6

def octetsText (octets : List Nat) : String := ".".intercalate (octets.map toString)

def groupsText (groups : List Nat) : String :=
  ":".intercalate (groups.map fun g => String.ofList (Nat.toDigits 16 g))

def zeros (groups : List Nat) : Nat := (groups.takeWhile (· = 0)).length

/-- Start and length of the first longest run of zeros, from place `at` on. -/
def longestRun (start : Nat) : List Nat → Nat × Nat
  | [] => (start, 0)
  | g :: gs =>
    let later := longestRun (start + 1) gs
    if later.2 ≤ zeros (g :: gs) then (start, zeros (g :: gs)) else later

def v6Text (groups : List Nat) : String :=
  match groups with
  | [0, 0, 0, 0, 0, 0xffff, a, b] =>
    "::ffff:" ++ octetsText [a / 256, a % 256, b / 256, b % 256]
  | groups =>
    let (start, length) := longestRun 0 groups
    if length < 2 then groupsText groups
    else groupsText (groups.take start) ++ "::" ++ groupsText (groups.drop (start + length))

/-- An address with a port. Brackets keep the colons of an IPv6 address apart from the port's. -/
def withPort : Address → (port : Nat) → String
  | v4 octets, port => octetsText octets ++ ":" ++ toString port
  | v6 groups, port => "[" ++ v6Text groups ++ "]:" ++ toString port

end Address
end BoxClient
