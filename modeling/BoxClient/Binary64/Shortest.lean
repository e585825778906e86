import BoxClient.Binary64.Basic
/-!
The shortest decimal that reads back as a given magnitude, and of several the nearest. The search
goes through the grids of multiples of 10^p from coarse to fine: a number of the coarsest grid that
meets the rounding interval has the fewest digits.
-/
namespace BoxClient.Binary64

/-- A positive decimal `digits · 10^power`. -/
structure Decimal where
  digits : Nat
  power : Int
  deriving DecidableEq, Repr

/-- The reals that round to a magnitude, as fractions with one denominator; the two ends belong to
them iff the magnitude is even. -/
structure Interval where
  low : Nat
  value : Nat
  high : Nat
  den : Nat
  closed : Bool

/-- Halfway to the neighbours on both sides. Below a power of two the lower neighbour is nearer.
The numerators count quarters of the distance to the next larger magnitude, and the powers of two
that numerators and denominator share are left out. -/
def Magnitude.interval (x : Magnitude) : Interval :=
  let gap := Nat.pow 2 (x.scale - 1074)
  let value := 4 * x.significand * gap
  let lower := if x.significand = Nat.pow 2 52 ∧ 0 < x.scale then gap else 2 * gap
  ⟨value - lower, value, value + 2 * gap, 4 * Nat.pow 2 (1074 - x.scale), x.val % 2 = 0⟩

/-- The multiple of 10^p in the interval that is nearest to its value, the even one of two. -/
def Interval.onGrid (i : Interval) (p : Int) : Option Nat :=
  let step := i.den * Nat.pow 10 p.toNat
  let factor := Nat.pow 10 (-p).toNat
  let meets (c : Nat) : Bool :=
    if i.closed then i.low * factor ≤ c && c ≤ i.high * factor
    else i.low * factor < c && c < i.high * factor
  let d := i.value * factor / step
  let under := i.value * factor % step
  match meets (d * step), meets ((d + 1) * step) with
  | true, false => some d
  | false, true => some (d + 1)
  | false, false => none
  | true, true =>
    if 2 * under < step then some d
    else if step < 2 * under then some (d + 1)
    else if d % 2 = 0 then some d else some (d + 1)

/-- A power of ten above the magnitude, from its power of two and 30103/100000 for the logarithm of
two. A multiple of a larger power of ten lies beyond the interval. -/
def Magnitude.topPlace (x : Magnitude) : Int :=
  ((x.significand.log2 + x.scale : Nat) - 1073 : Int) * 30103 / 100000 + 2

/-- The grids that come into question, the top place and as many below it as give seventeen digits:
these tell any two magnitudes apart. -/
def Magnitude.grids (x : Magnitude) : List Int :=
  (List.range 24).map fun (n : Nat) => x.topPlace - n

/-- The shortest decimal that rounds to a magnitude other than zero. -/
def Magnitude.shortest (x : Magnitude) : Decimal :=
  let interval := x.interval
  (x.grids.findSome? fun p => (interval.onGrid p).map (⟨·, p⟩)).getD ⟨0, 0⟩

end BoxClient.Binary64
