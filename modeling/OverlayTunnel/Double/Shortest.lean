import OverlayTunnel.Double.Basic
import OverlayTunnel.Text.Numeral

/-!
The shortest decimal that reads back as a given number, and its text.
-/
namespace OverlayTunnel.Double

/-- Whether `n * 10 ^ k` rounds to `x`: it lies between the midpoints to the neighbours of `x`, which
count as well if the significand is even. -/
def accepts (x : Double) (n : Nat) (k : Int) : Bool :=
  let below := if x.significand = 2 ^ (52 : Nat) ∧ minExponent < x.exponent then 1 else 2
  let left := 4 * n * 10 ^ k.toNat * x.denominator
  let unit := 2 ^ x.exponent.toNat * 10 ^ (-k).toNat
  let low := (4 * x.significand - below) * unit
  let high := (4 * x.significand + 2) * unit
  if x.significand % 2 = 0 then low ≤ left && left ≤ high else low < left && left < high

/-- The place of the first significant digit of a positive number, zero for units. -/
def decimalExponent (x : Double) : Int :=
  (Nat.toDigits 10 (x.numerator * 10 ^ (400 : Nat) / x.denominator)).length - 401

/-- The greatest decimal in units of `10 ^ k` that is not above `x`. -/
def floorIn (x : Double) (k : Int) : Nat :=
  x.numerator * 10 ^ (-k).toNat / (x.denominator * 10 ^ k.toNat)

/-- Of the decimals in units of `10 ^ k`, the one nearest to `x` that reads back; a tie goes to the
even one. -/
def decimalIn? (x : Double) (k : Int) : Option Nat :=
  let first := nearest (x.numerator * 10 ^ (-k).toNat) (x.denominator * 10 ^ k.toNat)
  let second := if first = x.floorIn k then first + 1 else first - 1
  if x.accepts first k then some first
  else if x.accepts second k then some second
  else none

/-- Digits and unit of the shortest decimal that reads back; seventeen digits always do. -/
def shortest (x : Double) : Nat × Int :=
  let top := x.decimalExponent
  let candidates := (List.range 17).filterMap fun (i : Nat) =>
    (x.decimalIn? (top - i)).map fun n => (n, top - (i : Int))
  let (n, k) := candidates.headD (x.floorIn (top - 16), top - 16)
  if n % 10 = 0 then (n / 10, k + 1) else (n, k)

/-- Positional text from `0.00001` up to sixteen integer digits, else one digit before the point and
an exponent. There is always a point or an exponent. -/
def chars (x : Double) : List Char :=
  if x.significand = 0 then ['0', '.', '0']
  else
    let (n, k) := x.shortest
    let digits := Nat.toDigits 10 n
    let point : Int := digits.length + k
    if 0 ≤ k ∧ point ≤ 16 then
      digits ++ List.replicate k.toNat '0' ++ ['.', '0']
    else if 0 < point ∧ point ≤ 16 then
      digits.take point.toNat ++ '.' :: digits.drop point.toNat
    else if -5 < point ∧ point ≤ 0 then
      '0' :: '.' :: List.replicate (-point).toNat '0' ++ digits
    else
      let fraction := if digits.length = 1 then [] else '.' :: digits.drop 1
      let sign := if 0 < point then '+' else '-'
      digits.take 1 ++ fraction ++ 'e' :: sign :: Nat.toDigits 10 (point - 1).natAbs

end OverlayTunnel.Double
