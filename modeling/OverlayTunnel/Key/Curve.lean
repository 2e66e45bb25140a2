import OverlayTunnel.Radix

/-!
Scalar multiplication on Curve25519, on the first coordinate of points alone.
-/
namespace OverlayTunnel.Curve

/-- The prime of the field that coordinates lie in. -/
def modulus : Nat := 2 ^ (255 : Nat) - 19

def add (a b : Nat) : Nat := (a + b) % modulus

def sub (a b : Nat) : Nat := (a + (modulus - b % modulus)) % modulus

def mul (a b : Nat) : Nat := a * b % modulus

def square (a : Nat) : Nat := mul a a

/-- The power of `a` whose exponent has the given bits, most significant first. -/
def power (a : Nat) (bits : List Nat) : Nat :=
  bits.foldl (fun acc bit => if bit = 1 then mul (square acc) a else square acc) 1

/-- The inverse of a nonzero element; the inverse of zero is zero. -/
def inverse (a : Nat) : Nat :=
  power a (Radix.expand 2 255 (modulus - 2))

/-- Two neighbouring multiples of a base point in projective form, `x2 / z2` and `x3 / z3`. -/
structure Ladder where
  x2 : Nat
  z2 : Nat
  x3 : Nat
  z3 : Nat

def Ladder.swap (l : Ladder) : Ladder :=
  ⟨l.x3, l.z3, l.x2, l.z2⟩

/-- Doubles the first multiple and adds both into the second; `u` is the base point. -/
def Ladder.double (u : Nat) (l : Ladder) : Ladder :=
  let a := add l.x2 l.z2
  let b := sub l.x2 l.z2
  let aa := square a
  let bb := square b
  let e := sub aa bb
  let da := mul (sub l.x3 l.z3) a
  let cb := mul (add l.x3 l.z3) b
  ⟨mul aa bb, mul e (add aa (mul 121665 e)), square (add da cb), mul u (square (sub da cb))⟩

def Ladder.step (u : Nat) (l : Ladder) (bit : Nat) : Ladder :=
  if bit = 1 then (l.swap.double u).swap else l.double u

/-- The first coordinate of the multiple of the point with first coordinate `u`. -/
def multiply (scalar u : Nat) : Nat :=
  let l := (Radix.expand 2 255 scalar).foldl (Ladder.step u) ⟨1, 0, u, 1⟩
  mul l.x2 (inverse l.z2)

/-- A secret as a scalar: the lowest three bits are cleared, and bit 254 is the highest one set. -/
def clamp (n : Nat) : Nat :=
  n % 2 ^ (254 : Nat) / 8 * 8 + 2 ^ (254 : Nat)

/-- The public coordinate of a secret: the multiple of the base point 9. -/
def publicCoordinate (secret : Nat) : Nat :=
  multiply (clamp secret) 9

end OverlayTunnel.Curve
