import OverlayTunnel.Radix

/-!
Nonnegative finite binary64 numbers, with exact arithmetic and one rounding at the end: to the
nearest number, ties to the even significand.
-/
namespace OverlayTunnel

/-- The number `significand * 2 ^ exponent`. -/
structure Double where
  significand : Nat
  exponent : Int
  deriving DecidableEq, Repr

namespace Double

def minExponent : Int := -1074

def maxExponent : Int := 971

def zero : Double := ⟨0, minExponent⟩

/-- The quotient `num / den` as a fraction in units of `2 ^ exponent`. -/
def inUnits (num den : Nat) (exponent : Int) : Nat × Nat :=
  if 0 ≤ exponent then (num, den * 2 ^ exponent.toNat) else (num * 2 ^ (-exponent).toNat, den)

/-- The integer nearest to `num / den`, the even one of two. -/
def nearest (num den : Nat) : Nat :=
  let floor := num / den
  let rest := num % den
  if den < 2 * rest ∨ (2 * rest = den ∧ floor % 2 = 1) then floor + 1 else floor

/-- The exponent of the number nearest to a positive quotient: that which gives the significand 53
bits, if the range allows. -/
def exponentOf (num den : Nat) : Int :=
  let low : Int := (num.log2 : Int) - den.log2 - 53
  let (n, d) := inUnits num den low
  max minExponent (if n / d < 2 ^ (53 : Nat) then low else low + 1)

/-- The number nearest to a quotient, or none if that is beyond the range. -/
def round (num den : Nat) : Option Double :=
  if num = 0 then some zero
  else
    let exponent := exponentOf num den
    let (n, d) := inUnits num den exponent
    let significand := nearest n d
    let r : Double :=
      if significand = 2 ^ (53 : Nat) then ⟨2 ^ (52 : Nat), exponent + 1⟩
      else ⟨significand, exponent⟩
    if maxExponent < r.exponent then none else some r

def numerator (x : Double) : Nat :=
  x.significand * 2 ^ x.exponent.toNat

def denominator (x : Double) : Nat :=
  2 ^ (-x.exponent).toNat

def ofNat (n : Nat) : Option Double :=
  round n 1

def mul (x y : Double) : Option Double :=
  round (x.numerator * y.numerator) (x.denominator * y.denominator)

def div (x y : Double) : Option Double :=
  round (x.numerator * y.denominator) (x.denominator * y.numerator)

end Double

end OverlayTunnel
