import OverlayTunnel.Radix

/-!
The 128-bit FNV-1a digest.
-/
namespace OverlayTunnel.Digest

def offsetBasis : BitVec 128 := 0x6c62272e07bb014262b821756295c58d

def prime : BitVec 128 := 0x0000000001000000000000000000013b

/-- One byte goes into the low bits, then the prime spreads it upwards. -/
def absorb (hash : BitVec 128) (byte : UInt8) : BitVec 128 :=
  (hash ^^^ byte.toBitVec.setWidth 128) * prime

def fnv1a (data : List UInt8) : BitVec 128 :=
  data.foldl absorb offsetBasis

/-- The sixteen bytes of a digest, most significant first. -/
def bytes (hash : BitVec 128) : List UInt8 :=
  (Radix.expand 256 16 hash.toNat).map UInt8.ofNat

@[simp] theorem length_bytes (hash : BitVec 128) : (bytes hash).length = 16 := by
  simp [bytes]

end OverlayTunnel.Digest
