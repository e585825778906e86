/-!
Finite binary64 magnitudes in exact arithmetic. Every one of them is a whole number of units of
2^-1074, so products, quotients and decimal scaling are fractions of natural numbers that are
rounded once, to the nearest magnitude and to the even one of two at the same distance.
-/
namespace BoxClient

/-- The number of finite magnitudes, zero included. -/
def Binary64.bound : Nat := 2047 * Nat.pow 2 52

/-- A finite binary64 magnitude, numbered from zero upwards. The number is also its bit pattern. -/
abbrev Binary64.Magnitude := Fin Binary64.bound

/-- A finite binary64 number. Both zeros are there. -/
structure Binary64 where
  negative : Bool
  magnitude : Binary64.Magnitude
  deriving DecidableEq

namespace Binary64

instance : Inhabited Magnitude := ⟨⟨0, by decide⟩⟩

/-- The distance of a magnitude to the next larger one is two to this power, in units. -/
def Magnitude.scale (x : Magnitude) : Nat := x.val / Nat.pow 2 52 - 1

/-- The whole number that `scale` spreads. -/
def Magnitude.significand (x : Magnitude) : Nat := x.val - x.scale * Nat.pow 2 52

/-- The value in units of 2^-1074. -/
def Magnitude.units (x : Magnitude) : Nat := x.significand * Nat.pow 2 x.scale

/-- The nearest whole number to a fraction, the even one of two. -/
def nearest (num den : Nat) : Nat :=
  let q := num / den
  let r := num % den
  if 2 * r < den then q
  else if den < 2 * r then q + 1
  else if q % 2 = 0 then q else q + 1

def round (num den : Nat) : Option Magnitude :=
  let scale := Nat.log2 (num / den) - 52
  let bits := scale * Nat.pow 2 52 + nearest num (den * Nat.pow 2 scale)
  if h : bits < bound then some ⟨bits, h⟩ else none

def one : Nat := Nat.pow 2 1074

def ofNat? (n : Nat) : Option Magnitude := round (n * one) 1

def mul? (x y : Magnitude) : Option Magnitude := round (x.units * y.units) one

def div? (x y : Magnitude) : Option Magnitude := round (x.units * one) y.units

def powerOfTen? (n : Nat) : Option Magnitude := ofNat? (Nat.pow 10 n)

/-- The largest power of ten that is a magnitude is 10^308. -/
def topPower : Nat := 308

/-- `x · 10^n`; `none` beyond the largest magnitude. -/
def scaleUp (x : Magnitude) (n : Nat) : Option Magnitude :=
  if n ≤ topPower then do mul? x (← powerOfTen? n)
  else if x.val = 0 then some x
  else none

/-- `x / 10^n`, in steps of 10^308 as long as something is left. -/
def scaleDown (x : Magnitude) (n : Nat) : Option Magnitude :=
  if n ≤ topPower then do div? x (← powerOfTen? n)
  else if x.val = 0 then some x
  else do scaleDown (← div? x (← powerOfTen? topPower)) (n - topPower)
termination_by n
decreasing_by simp only [topPower] at *; omega

/-- The magnitude read for `n · 10^e`: first `n` is rounded, then the scaled value. -/
def ofDecimal? (n : Nat) : Int → Option Magnitude
  | .ofNat e => do scaleUp (← ofNat? n) e
  | .negSucc e => do scaleDown (← ofNat? n) (e + 1)

end Binary64
end BoxClient
