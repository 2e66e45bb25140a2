import OverlayTunnel.Digest

/-!
The low bits of the digest evolve on their own: neither the exclusive or nor the product carries anything
down into them. The lowest byte tells apart any two texts that differ in one byte.
-/
namespace OverlayTunnel

namespace Digest

/-- What absorbing a byte does to the low bits of the digest. -/
def absorbLow (w : Nat) (low : BitVec w) (byte : UInt8) : BitVec w :=
  (low ^^^ byte.toBitVec.setWidth w) * prime.setWidth w

variable {w : Nat}

theorem setWidth_absorb (hw : w ≤ 128) (hash : BitVec 128) (byte : UInt8) :
    (absorb hash byte).setWidth w = absorbLow w (hash.setWidth w) byte := by
  rw [absorb, absorbLow, BitVec.setWidth_mul _ _ hw, BitVec.setWidth_xor,
    BitVec.setWidth_setWidth_of_le _ hw]

theorem setWidth_foldl_absorb (hw : w ≤ 128) (data : List UInt8) (hash : BitVec 128) :
    (data.foldl absorb hash).setWidth w = data.foldl (absorbLow w) (hash.setWidth w) := by
  induction data generalizing hash with
  | nil => rfl
  | cons byte data ih => rw [List.foldl_cons, List.foldl_cons, ih, setWidth_absorb hw]

/-! ### The lowest byte -/

/-- The prime is odd, so it has an inverse. -/
theorem mul_prime_cancel {x y : BitVec 8}
    (h : x * prime.setWidth 8 = y * prime.setWidth 8) : x = y := by
  have hinverse : prime.setWidth 8 * 0xF3 = 1#8 := by decide
  calc
    x = x * (prime.setWidth 8 * 0xF3) := by rw [hinverse, BitVec.mul_one]
    _ = y * (prime.setWidth 8 * 0xF3) := by rw [← BitVec.mul_assoc, h, BitVec.mul_assoc]
    _ = y := by rw [hinverse, BitVec.mul_one]

theorem absorbLow_byte (low : BitVec 8) (byte : UInt8) :
    absorbLow 8 low byte = (low ^^^ byte.toBitVec) * prime.setWidth 8 := by
  rw [absorbLow, BitVec.setWidth_eq]

theorem absorbLow_inj_left {low low' : BitVec 8} {byte : UInt8} :
    absorbLow 8 low byte = absorbLow 8 low' byte ↔ low = low' := by
  constructor
  · intro h
    rw [absorbLow_byte, absorbLow_byte] at h
    exact (BitVec.xor_left_inj _).mp (mul_prime_cancel h)
  · rintro rfl
    rfl

theorem absorbLow_inj_right {low : BitVec 8} {byte byte' : UInt8} :
    absorbLow 8 low byte = absorbLow 8 low byte' ↔ byte = byte' := by
  constructor
  · intro h
    rw [absorbLow_byte, absorbLow_byte] at h
    exact UInt8.toBitVec_inj.mp ((BitVec.xor_right_inj _).mp (mul_prime_cancel h))
  · rintro rfl
    rfl

/-- No byte that follows takes a difference away. -/
theorem foldl_absorbLow_inj {low low' : BitVec 8} (tail : List UInt8) :
    tail.foldl (absorbLow 8) low = tail.foldl (absorbLow 8) low' ↔ low = low' := by
  induction tail generalizing low low' with
  | nil => rfl
  | cons byte tail ih => rw [List.foldl_cons, List.foldl_cons, ih, absorbLow_inj_left]

theorem setWidth_fnv1a_inj (head : List UInt8) {x y : UInt8} (tail : List UInt8) :
    (fnv1a (head ++ x :: tail)).setWidth 8 = (fnv1a (head ++ y :: tail)).setWidth 8 ↔ x = y := by
  rw [fnv1a, fnv1a, setWidth_foldl_absorb (by decide), setWidth_foldl_absorb (by decide),
    List.foldl_append, List.foldl_append, List.foldl_cons, List.foldl_cons, foldl_absorbLow_inj,
    absorbLow_inj_right]

end Digest

end OverlayTunnel
